import Mathlib.Data.List.Infix
import Mathlib.Tactic

/-!
# Occurrences of a pattern

`find` is the offset of the first occurrence of a pattern in a list (`find_eq_some`).  Where the first element of the
pattern does not appear in it again, the first occurrence behind a list without the pattern is not moved by what it
overlaps (`first_append`).
-/

namespace Search

variable {α : Type*} {pat s a b : List α} {i j n : Nat}

def OccursAt (pat s : List α) (i : Nat) : Prop := pat <+: s.drop i

/-- The first occurrence of the pattern. -/
structure First (pat s : List α) (i : Nat) : Prop where
  occurs : OccursAt pat s i
  least : ∀ j, j < i → ¬ OccursAt pat s j

theorem First.unique (hi : First pat s i) (hj : First pat s j) : i = j := by
  rcases Nat.lt_trichotomy i j with h | h | h
  · exact absurd hi.occurs (hj.least i h)
  · exact h
  · exact absurd hj.occurs (hi.least j h)

theorem occursAt_iff : OccursAt pat s i ↔ ∀ k (h : k < pat.length), s[i + k]? = some pat[k] := by
  unfold OccursAt
  simp only [List.prefix_iff_getElem?, List.getElem?_drop]

theorem OccursAt.le (h : OccursAt pat s i) (hne : pat ≠ []) : i + pat.length ≤ s.length := by
  have hlen := List.IsPrefix.length_le h
  rw [List.length_drop] at hlen
  have hpos := List.length_pos_iff.2 hne
  omega

/-- An occurrence that ends in the first part. -/
theorem occursAt_append_left (h : i + pat.length ≤ a.length) : OccursAt pat (a ++ b) i ↔ OccursAt pat a i := by
  rw [occursAt_iff, occursAt_iff]
  refine forall_congr' fun k => forall_congr' fun hk => ?_
  rw [List.getElem?_append_left (by omega)]

/-- An occurrence that starts in the second part. -/
theorem occursAt_append_right : OccursAt pat (a ++ b) (a.length + i) ↔ OccursAt pat b i := by
  unfold OccursAt
  rw [← List.drop_drop, List.drop_left]

theorem occursAt_drop : OccursAt pat (s.drop n) i ↔ OccursAt pat s (n + i) := by
  unfold OccursAt
  rw [List.drop_drop]

/-- An occurrence that is not cut off. -/
theorem occursAt_take (h : i + pat.length ≤ n) : OccursAt pat (s.take n) i ↔ OccursAt pat s i := by
  rw [occursAt_iff, occursAt_iff]
  refine forall_congr' fun k => forall_congr' fun hk => ?_
  rw [List.getElem?_take_of_lt (by omega)]

theorem OccursAt.of_take (h : OccursAt pat (s.take n) i) (hne : pat ≠ []) :
    OccursAt pat s i ∧ i + pat.length ≤ n := by
  have hle := h.le hne
  rw [List.length_take] at hle
  exact ⟨(occursAt_take (by omega)).1 h, by omega⟩

/-- What occurs of a longer pattern occurs of its end. -/
theorem OccursAt.of_append (h : OccursAt (a ++ b) s i) : OccursAt b s (i + a.length) := by
  rw [occursAt_iff] at h ⊢
  intro k hk
  have hlt : a.length + k < (a ++ b).length := by
    rw [List.length_append]
    omega
  rw [Nat.add_assoc, h (a.length + k) hlt, List.getElem_append_right (Nat.le_add_right ..)]
  simp

/-! ### Patterns whose first element does not appear again -/

/-- The first element of the pattern does not appear in it again. -/
def Unbordered : List α → Prop
  | [] => True
  | x :: pat => x ∉ pat

instance [DecidableEq α] : Decidable (Unbordered pat) := by
  cases pat <;> unfold Unbordered <;> infer_instance

/-- Two occurrences do not overlap. -/
theorem OccursAt.apart (hun : Unbordered pat) (hi : OccursAt pat s i) (hj : OccursAt pat s j) (hlt : i < j) :
    i + pat.length ≤ j := by
  cases pat with
  | nil => exact hlt.le
  | cons x pat =>
    by_contra hle
    rw [List.length_cons] at hle
    rw [occursAt_iff] at hi hj
    have hx := hj 0 (Nat.succ_pos _)
    have hx' := hi (j - i) (by rw [List.length_cons]; omega)
    rw [Nat.add_sub_cancel' hlt.le] at hx'
    rw [Nat.add_zero, hx'] at hx
    obtain ⟨n, hn⟩ : ∃ n, j - i = n + 1 := ⟨j - i - 1, by omega⟩
    simp only [hn, List.getElem_cons_succ, List.getElem_cons_zero, Option.some.injEq] at hx
    exact hun (hx ▸ List.getElem_mem _)

/-- An occurrence does not start in front of an element like its first one, unless it ends there. -/
theorem OccursAt.le_of_head {x : α} (hun : Unbordered (x :: pat)) (ha : ∀ i, ¬ OccursAt (x :: pat) a i)
    (h : OccursAt (x :: pat) (a ++ x :: b) i) : a.length ≤ i := by
  by_contra hlt
  by_cases hle : i + (x :: pat).length ≤ a.length
  · exact ha i ((occursAt_append_left hle).1 h)
  · rw [List.length_cons] at hle
    rw [occursAt_iff] at h
    have hx := h (a.length - i) (by rw [List.length_cons]; omega)
    rw [Nat.add_sub_cancel' (by omega), List.getElem?_append_right le_rfl, Nat.sub_self,
      List.getElem?_cons_zero] at hx
    obtain ⟨n, hn⟩ : ∃ n, a.length - i = n + 1 := ⟨a.length - i - 1, by omega⟩
    simp only [hn, List.getElem_cons_succ, Option.some.injEq] at hx
    exact hun (hx ▸ List.getElem_mem _)

/-- Behind a list without the pattern. -/
theorem first_append (hun : Unbordered pat) (ha : ∀ i, ¬ OccursAt pat a i) :
    First pat (a ++ (pat ++ b)) a.length := by
  have hoccurs : OccursAt pat (a ++ (pat ++ b)) a.length := by
    have h : OccursAt pat (a ++ (pat ++ b)) (a.length + 0) := occursAt_append_right.2 (List.prefix_append pat b)
    rwa [Nat.add_zero] at h
  refine ⟨hoccurs, fun j hj hoccurs' => ?_⟩
  have hle := hoccurs'.apart hun hoccurs hj
  exact ha j ((occursAt_append_left hle).1 hoccurs')

/-- What is behind the first occurrence does not matter. -/
theorem First.append (h : First pat (a ++ pat) a.length) (b : List α) : First pat (a ++ (pat ++ b)) a.length := by
  rw [← List.append_assoc]
  refine ⟨(occursAt_append_left (by rw [List.length_append])).2 h.occurs, fun j hj hoccurs => h.least j hj ?_⟩
  exact (occursAt_append_left (by rw [List.length_append]; omega)).1 hoccurs

theorem First.of_append (h : First pat (a ++ (pat ++ b)) a.length) : First pat (a ++ pat) a.length := by
  rw [← List.append_assoc] at h
  refine ⟨(occursAt_append_left (by rw [List.length_append])).1 h.occurs, fun j hj hoccurs => h.least j hj ?_⟩
  exact (occursAt_append_left (by rw [List.length_append]; omega)).2 hoccurs

/-- Where the pattern does not occur before its first occurrence. -/
theorem First.split (h : First pat s i) (hne : pat ≠ []) :
    s = s.take i ++ (pat ++ s.drop (i + pat.length)) ∧ ∀ j, ¬ OccursAt pat (s.take i) j := by
  constructor
  · obtain ⟨t, ht⟩ := h.occurs
    have hdrop : s.drop (i + pat.length) = t := by
      rw [← List.drop_drop, ← ht, List.drop_left]
    rw [hdrop, ht, List.take_append_drop]
  · intro j hj
    obtain ⟨hoccurs, hle⟩ := hj.of_take hne
    have hpos := List.length_pos_iff.2 hne
    exact h.least j (by omega) hoccurs

theorem first_zero (h : pat <+: s) : First pat s 0 := ⟨h, fun _ hj => absurd hj (Nat.not_lt_zero _)⟩

theorem first_succ {x : α} (h : ¬ pat <+: x :: s) : First pat (x :: s) (i + 1) ↔ First pat s i := by
  constructor
  · exact fun hi => ⟨hi.occurs, fun j hj => hi.least (j + 1) (Nat.succ_lt_succ hj)⟩
  · intro hi
    refine ⟨hi.occurs, fun j hj => ?_⟩
    cases j with
    | zero => exact h
    | succ j => exact hi.least j (Nat.lt_of_succ_lt_succ hj)

/-! ### The search -/

variable [DecidableEq α]

/-- The offset of the first occurrence. -/
def find (pat : List α) : List α → Option Nat
  | [] => if pat = [] then some 0 else none
  | x :: s => if pat.isPrefixOf (x :: s) then some 0 else (find pat s).map (· + 1)

theorem find_eq_some : find pat s = some i ↔ First pat s i := by
  induction s generalizing i with
  | nil =>
    unfold find
    split
    · rename_i h
      subst h
      constructor
      · intro h
        obtain rfl := Option.some.inj h
        exact first_zero (List.prefix_refl _)
      · intro h
        rw [h.unique (first_zero (List.prefix_refl _))]
    · rename_i h
      refine iff_of_false (by simp) fun hi => h ?_
      have hoccurs := hi.occurs
      unfold OccursAt at hoccurs
      rw [List.drop_nil] at hoccurs
      exact List.prefix_nil.1 hoccurs
  | cons x s ih =>
    unfold find
    split
    · rename_i h
      rw [List.isPrefixOf_iff_prefix] at h
      constructor
      · intro hi
        obtain rfl := Option.some.inj hi
        exact first_zero h
      · intro hi
        rw [hi.unique (first_zero h)]
    · rename_i h
      rw [List.isPrefixOf_iff_prefix] at h
      rw [Option.map_eq_some_iff]
      constructor
      · rintro ⟨j, hj, rfl⟩
        exact (first_succ h).2 (ih.1 hj)
      · intro hi
        cases i with
        | zero => exact absurd hi.occurs h
        | succ i => exact ⟨i, ih.2 ((first_succ h).1 hi), rfl⟩

theorem find_eq_none : find pat s = none ↔ ∀ i, ¬ OccursAt pat s i := by
  constructor
  · intro h i hi
    classical
    have hex : ∃ i, OccursAt pat s i := ⟨i, hi⟩
    have hfirst : First pat s (Nat.find hex) := ⟨Nat.find_spec hex, fun j hj => Nat.find_min hex hj⟩
    rw [find_eq_some.2 hfirst] at h
    cases h
  · intro h
    cases hf : find pat s with
    | none => rfl
    | some i => exact absurd (find_eq_some.1 hf).occurs (h i)

end Search
