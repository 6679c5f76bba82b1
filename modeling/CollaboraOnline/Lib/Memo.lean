import Mathlib.Data.List.Basic

/-!
# Memos of one call

A function that remembers its last argument and result, and returns the result where it is called with the same
argument again.  What it returns after any calls is the value of the function exactly when the memo started with a
value of the function, or another argument than that of the start has been seen (`call_run_eq_iff`).
-/

/-- The last argument and result. -/
structure Memo (α β : Type*) where
  argument : α
  result : β
deriving DecidableEq

namespace Memo

variable {α β : Type*} [DecidableEq α] {f : α → β} {m : Memo α β} {a : α} {as : List α}

/-- A call, which leaves the early exit for another argument. -/
def call (f : α → β) (m : Memo α β) (a : α) : Memo α β × β :=
  if a = m.argument then (m, m.result) else (⟨a, f a⟩, f a)

def run (f : α → β) (m : Memo α β) (as : List α) : Memo α β := as.foldl (fun m a => (call f m a).1) m

/-- The result that is remembered is that of the argument. -/
def Consistent (f : α → β) (m : Memo α β) : Prop := m.result = f m.argument

theorem argument_call : (call f m a).1.argument = a := by
  unfold call
  split
  · rename_i h
    exact h.symm
  · rfl

theorem consistent_call : Consistent f (call f m a).1 ↔ Consistent f m ∨ a ≠ m.argument := by
  by_cases h : a = m.argument
  · simp [call, h]
  · simp [call, h, Consistent]

/-- A call returns the value of the function unless it exits early with something else. -/
theorem call_eq_iff : (call f m a).2 = f a ↔ Consistent f m ∨ a ≠ m.argument := by
  by_cases h : a = m.argument
  · simp [call, h, Consistent]
  · simp [call, h]

theorem argument_run (h : ∀ a ∈ as, a = m.argument) : (run f m as).argument = m.argument := by
  induction as with
  | nil => rfl
  | cons a as ih =>
    have ha := h a (List.mem_cons_self ..)
    have hcall : (call f m a).1 = m := by rw [call, if_pos ha]
    rw [run, List.foldl_cons, hcall]
    exact ih fun b hb => h b (List.mem_cons_of_mem _ hb)

theorem argument_run_append : (run f m (as ++ [a])).argument = a := by
  rw [run, List.foldl_append]
  exact argument_call

theorem consistent_run : Consistent f (run f m as) ↔ Consistent f m ∨ ∃ a ∈ as, a ≠ m.argument := by
  induction as generalizing m with
  | nil => simp [run]
  | cons a as ih =>
    rw [run, List.foldl_cons]
    refine ih.trans ?_
    rw [consistent_call, argument_call]
    by_cases ha : a = m.argument
    · simp [ha]
    · simp [ha]

/-- After any calls, a call returns the value of the function. -/
theorem call_run_eq_iff :
    (call f (run f m as) a).2 = f a ↔ Consistent f m ∨ a ≠ m.argument ∨ ∃ a' ∈ as, a' ≠ m.argument := by
  rw [call_eq_iff, consistent_run]
  by_cases h : ∃ a' ∈ as, a' ≠ m.argument
  · simp [h]
  · have hsame : ∀ a' ∈ as, a' = m.argument := fun a' ha' => by_contra fun hne => h ⟨a', ha', hne⟩
    rw [argument_run hsame]
    simp [h]

variable (as a) in
theorem call_run_eq (h : Consistent f m) : (call f (run f m as) a).2 = f a := call_run_eq_iff.2 (Or.inl h)

end Memo
