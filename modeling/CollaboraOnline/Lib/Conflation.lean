import Mathlib.Data.List.Basic

/-!
# Conflating queues

A queue whose items may have a kind: an item that is pushed takes the place of the queued items of its kind (`push`).
The log of a run has what was pushed and what was popped.  `Lossless` says what a queue keeps of its log: of each kind
the newest item since one of the kind was popped, and every item without a kind, in order.
-/

namespace Conflation

variable {α κ : Type*} [DecidableEq κ] (kind : α → Option κ) {q : List α} {log : List (Bool × α)} {a : α} {k : κ}

def push (q : List α) (a : α) : List α :=
  match kind a with
  | none => q ++ [a]
  | some k => q.filter (fun b => kind b ≠ some k) ++ [a]

/-- What was pushed; the flag of an entry is that it was. -/
def pushed (log : List (Bool × α)) : List α := (log.filter (·.1)).map Prod.snd

def popped (log : List (Bool × α)) : List α := (log.filter (!·.1)).map Prod.snd

/-- The newest item of the kind that was pushed after the last one of the kind was popped. -/
def newest (k : κ) (log : List (Bool × α)) : Option α :=
  log.foldl (fun n e => if kind e.2 = some k then if e.1 then some e.2 else none else n) none

structure Lossless (q : List α) (log : List (Bool × α)) : Prop where
  newest : ∀ k, q.filter (fun a => kind a = some k) = (newest kind k log).toList
  others : (popped log ++ q).filter (fun a => kind a = none) = (pushed log).filter fun a => kind a = none
  /-- What is not conflated is popped in the order of the pushes, and nothing twice. -/
  inOrder : (popped log ++ q).Sublist (pushed log)

omit [DecidableEq κ] in
@[simp] theorem pushed_concat (log : List (Bool × α)) (e : Bool × α) :
    pushed (log ++ [e]) = pushed log ++ if e.1 then [e.2] else [] := by
  unfold pushed
  rw [List.filter_append, List.map_append]
  cases h : e.1 <;> simp [h]

omit [DecidableEq κ] in
@[simp] theorem popped_concat (log : List (Bool × α)) (e : Bool × α) :
    popped (log ++ [e]) = popped log ++ if e.1 then [] else [e.2] := by
  unfold popped
  rw [List.filter_append, List.map_append]
  cases h : e.1 <;> simp [h]

theorem newest_concat (k : κ) (log : List (Bool × α)) (e : Bool × α) : newest kind k (log ++ [e]) =
    if kind e.2 = some k then if e.1 then some e.2 else none else newest kind k log := by
  unfold newest
  rw [List.foldl_append, List.foldl_cons, List.foldl_nil]

theorem Lossless.nil : Lossless kind [] [] :=
  ⟨fun _ => rfl, rfl, List.nil_sublist _⟩

variable {kind}

theorem filter_push (q : List α) (a : α) (k : κ) : (push kind q a).filter (fun b => kind b = some k) =
    if kind a = some k then [a] else q.filter fun b => kind b = some k := by
  unfold push
  cases ha : kind a with
  | none => simp [List.filter_append, ha]
  | some k' =>
    dsimp only
    rw [List.filter_append, List.filter_filter]
    by_cases hk : k' = k
    · subst hk
      rw [if_pos rfl, List.filter_eq_nil_iff.2 (by simp), List.nil_append, List.filter_cons_of_pos (by simp [ha]),
        List.filter_nil]
    · rw [if_neg (by simpa using hk), List.filter_cons_of_neg (by simp [ha, hk]), List.filter_nil, List.append_nil]
      refine List.filter_congr fun b _ => ?_
      by_cases hb : kind b = some k
      · simp [hb, Ne.symm hk]
      · simp [hb]

theorem filter_push_none (q : List α) (a : α) : (push kind q a).filter (fun b => kind b = none) =
    (q ++ [a]).filter fun b => kind b = none := by
  unfold push
  cases ha : kind a with
  | none => rfl
  | some k =>
    dsimp only
    rw [List.filter_append, List.filter_append, List.filter_filter]
    congr 1
    refine List.filter_congr fun b _ => ?_
    by_cases hb : kind b = none
    · simp [hb]
    · simp [hb]

/-- Erasing the one item with a property is filtering it out. -/
theorem eraseP_eq_filter {p : α → Bool} {q : List α} (h : (q.filter p).length ≤ 1) :
    q.eraseP p = q.filter fun a => !p a := by
  induction q with
  | nil => rfl
  | cons a q ih =>
    cases ha : p a with
    | true =>
      rw [List.filter_cons_of_pos ha, List.length_cons] at h
      have hnil : q.filter p = [] := List.length_eq_zero_iff.1 (by omega)
      rw [List.eraseP_cons_of_pos ha, List.filter_cons_of_neg (by simp [ha])]
      symm
      rw [List.filter_eq_self]
      intro b hb
      rw [List.filter_eq_nil_iff] at hnil
      simpa using hnil b hb
    | false =>
      rw [List.filter_cons_of_neg (by simp [ha])] at h
      rw [List.eraseP_cons_of_neg (by simp [ha]), List.filter_cons_of_pos (by simp [ha]), ih h]

theorem push_sublist (q : List α) (a : α) : (push kind q a).Sublist (q ++ [a]) := by
  unfold push
  split
  · exact List.Sublist.refl _
  · exact List.filter_sublist.append (List.Sublist.refl _)

/-- Of each kind there is one item at most. -/
theorem Lossless.length_filter_le (h : Lossless kind q log) (k : κ) :
    (q.filter fun a => kind a = some k).length ≤ 1 := by
  rw [h.newest k]
  cases Conflation.newest kind k log <;> simp

theorem Lossless.push (h : Lossless kind q log) (a : α) : Lossless kind (push kind q a) (log ++ [(true, a)]) := by
  constructor
  · intro k
    rw [filter_push, newest_concat, h.newest k]
    split <;> rfl
  · have hothers := h.others
    rw [popped_concat, pushed_concat]
    simp only [if_true, List.append_nil, List.filter_append] at hothers ⊢
    rw [filter_push_none, List.filter_append, ← List.append_assoc, hothers]
  · rw [popped_concat, pushed_concat, if_pos rfl, if_pos rfl, List.append_nil]
    have hsub : (popped log ++ Conflation.push kind q a).Sublist (popped log ++ (q ++ [a])) :=
      (List.Sublist.refl _).append (push_sublist q a)
    rw [← List.append_assoc] at hsub
    exact hsub.trans (h.inOrder.append (List.Sublist.refl _))

theorem Lossless.pop (h : Lossless kind (a :: q) log) : Lossless kind q (log ++ [(false, a)]) := by
  constructor
  · intro k
    have hnewest := h.newest k
    have hone := h.length_filter_le k
    rw [newest_concat]
    by_cases hk : kind a = some k
    · rw [List.filter_cons_of_pos (by simpa using hk), List.length_cons] at hone
      have hnil : q.filter (fun a => kind a = some k) = [] := List.length_eq_zero_iff.1 (by omega)
      rw [if_pos hk, hnil]
      rfl
    · rw [List.filter_cons_of_neg (by simpa using hk)] at hnewest
      rw [if_neg hk, hnewest]
  · have hothers := h.others
    rw [popped_concat, pushed_concat]
    simpa using hothers
  · have hsub := h.inOrder
    rw [popped_concat, pushed_concat]
    simpa using hsub

end Conflation
