import Mathlib.Data.List.Basic

/-!
# Runs of a system

A system takes steps `step : σ → ε → Option σ`, where `none` says that an event cannot happen in a state.
`Reachable init step ok` are the states of the runs from `init` whose steps all meet the guard `ok`; with the guard
`Any` these are all runs.  What holds at the start and is kept by every step holds of every reachable state
(`Reachable.invariant`), and a list of events that can be run reaches its last state (`Reachable.of_run`).
-/

namespace Run

variable {σ ε : Type*}

/-- The guard that every step meets. -/
def Any (_ : σ) (_ : ε) : Prop := True

/-- The states of the runs from `init` whose steps meet `ok`. -/
inductive Reachable (init : σ → Prop) (step : σ → ε → Option σ) (ok : σ → ε → Prop) : σ → Prop
  | start {s : σ} : init s → Reachable init step ok s
  | next {s s' : σ} {e : ε} : Reachable init step ok s → ok s e → step s e = some s' → Reachable init step ok s'

/-- The state after a list of events. -/
def run (step : σ → ε → Option σ) : σ → List ε → Option σ
  | s, [] => some s
  | s, e :: es => (step s e).bind fun s' => run step s' es

variable {init : σ → Prop} {step : σ → ε → Option σ} {ok ok' : σ → ε → Prop}

/-- The invariant rule: a step may use that its first state is reachable. -/
theorem Reachable.invariant (inv : σ → Prop) (hinit : ∀ s, init s → inv s)
    (hstep : ∀ s e s', Reachable init step ok s → inv s → ok s e → step s e = some s' → inv s') {s : σ}
    (h : Reachable init step ok s) : inv s := by
  induction h with
  | start h => exact hinit _ h
  | next h hok hs ih => exact hstep _ _ _ h ih hok hs

theorem Reachable.mono (hok : ∀ s e, ok s e → ok' s e) {s : σ} (h : Reachable init step ok s) :
    Reachable init step ok' s := by
  induction h with
  | start h => exact .start h
  | next _ h hs ih => exact .next ih (hok _ _ h) hs

/-- A list of events that meet the guard in every state. -/
theorem Reachable.of_run_of_ok {s s' : σ} {es : List ε} (h : Reachable init step ok s) (hok : ∀ e ∈ es, ∀ s, ok s e)
    (hrun : run step s es = some s') : Reachable init step ok s' := by
  induction es generalizing s with
  | nil =>
    obtain rfl : s = s' := Option.some.inj hrun
    exact h
  | cons e es ih =>
    obtain ⟨t, ht, hrun⟩ := Option.bind_eq_some_iff.1 hrun
    exact ih (.next h (hok e List.mem_cons_self s) ht) (fun e he => hok e (List.mem_cons_of_mem _ he)) hrun

theorem Reachable.of_run {s s' : σ} {es : List ε} (h : Reachable init step Any s) (hrun : run step s es = some s') :
    Reachable init step Any s' :=
  h.of_run_of_ok (fun _ _ _ => True.intro) hrun

/-- The steps that meet the guard. -/
def guarded (step : σ → ε → Option σ) (ok : σ → ε → Bool) (s : σ) (e : ε) : Option σ :=
  if ok s e then step s e else none

theorem Reachable.of_guarded {ok' : σ → ε → Bool} (hok : ∀ s e, ok' s e = true → ok s e) {s : σ}
    (h : Reachable init (guarded step ok') Any s) : Reachable init step ok s := by
  induction h with
  | start h => exact .start h
  | next _ _ hs ih =>
    obtain ⟨hg, hs⟩ := Option.ite_none_right_eq_some.1 hs
    exact .next ih (hok _ _ hg) hs

/-- A run found by evaluation: some reachable state has the property. -/
theorem Reachable.exists_of_run (s : σ) (es : List ε) {p : σ → Bool} (h : init s)
    (hrun : (run step s es).any p = true) : ∃ s', Reachable init step Any s' ∧ p s' = true := by
  cases hs : run step s es with
  | none => simp [hs] at hrun
  | some s' => exact ⟨s', Reachable.of_run (.start h) hs, by simpa [hs] using hrun⟩

end Run
