import Mathlib.Data.List.Basic

/-!
# Incremental readers

A reader takes elements from the front of its input: `step s data` is how many elements one round takes and the state
after it, and `none` where the round needs more input.  It is stable if a round that can be done stays the same when
more input follows.  Then the state after a stream does not depend on how the stream was cut into arrivals
(`Stable.arrivals`).
-/

namespace Incremental

variable {σ β : Type*} (step : σ → List β → Option (Nat × σ))

structure Stable : Prop where
  le : ∀ {s data n s'}, step s data = some (n, s') → n ≤ data.length
  stable : ∀ {s data r} (more : List β), step s data = some r → step s (data ++ more) = some r

/-- Rounds are done until one needs more input: the state then, and the input that is left. -/
inductive Drains : σ → List β → σ → List β → Prop
  | stop {s : σ} {data : List β} : step s data = none → Drains s data s data
  | next {s s' s'' : σ} {data rest : List β} {n : Nat} :
      step s data = some (n, s') → Drains s' (data.drop n) s'' rest → Drains s data s'' rest

/-- The input arrives in pieces; what is left is offered again in front of the next piece. -/
inductive Arrives : σ → List β → List (List β) → σ → List β → Prop
  | done {s : σ} {left : List β} : Arrives s left [] s left
  | next {s s' s'' : σ} {left rest left' : List β} {piece : List β} {pieces : List (List β)} :
      Drains step s (left ++ piece) s' rest → Arrives s' rest pieces s'' left' →
        Arrives s left (piece :: pieces) s'' left'

variable {step} {s s' s'' t : σ} {data rest more rest' left left' : List β}

theorem Drains.unique (h : Drains step s data s' rest) (h' : Drains step s data t rest') : s' = t ∧ rest = rest' := by
  induction h with
  | stop hstop =>
    cases h' with
    | stop _ => exact ⟨rfl, rfl⟩
    | next hnext _ => rw [hstop] at hnext; cases hnext
  | next hnext _ ih =>
    cases h' with
    | stop hstop => rw [hnext] at hstop; cases hstop
    | next hnext' h' =>
      rw [hnext] at hnext'
      cases hnext'
      exact ih h'

theorem Drains.stopped (h : Drains step s data s' rest) : step s' rest = none := by
  induction h with
  | stop hstop => exact hstop
  | next _ _ ih => exact ih

/-- Draining a part of the input first makes no difference. -/
theorem Stable.append (hstep : Stable step) (h : Drains step s data s' rest)
    (h' : Drains step s' (rest ++ more) s'' rest') : Drains step s (data ++ more) s'' rest' := by
  induction h with
  | stop _ => exact h'
  | next hnext _ ih =>
    refine .next (hstep.stable more hnext) ?_
    rw [List.drop_append_of_le_length (hstep.le hnext)]
    exact ih h'

/-- A stream that arrives in pieces is read like the whole stream. -/
theorem Stable.arrivals (hstep : Stable step) {pieces : List (List β)} (h : Arrives step s left pieces s' left')
    (hleft : step s left = none) : Drains step s (left ++ pieces.flatten) s' left' := by
  induction h with
  | done => simpa using Drains.stop hleft
  | next hdrain _ ih =>
    rw [List.flatten_cons, ← List.append_assoc]
    exact hstep.append hdrain (ih hdrain.stopped)

/-- Two ways to cut a stream. -/
theorem Stable.arrivals_eq (hstep : Stable step) {pieces pieces' : List (List β)}
    (h : Arrives step s left pieces s' rest) (h' : Arrives step s left pieces' t rest') (hleft : step s left = none)
    (hpieces : pieces.flatten = pieces'.flatten) : s' = t ∧ rest = rest' :=
  (hstep.arrivals h hleft).unique (hpieces ▸ hstep.arrivals h' hleft)

end Incremental
