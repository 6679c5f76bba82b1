import Mathlib

/-!
# Sorted vectors

Vectors that are strictly sorted by a key: the insertion at the lower bound that overwrites the element with the same
key, and what moving elements from one sorted vector to another one keeps (`Moved`).
-/

namespace SortedVector

/-- No two elements have the same key. -/
def Distinct {α κ : Type*} (key : α → κ) (l : List α) : Prop := (l.map key).Nodup

theorem Distinct.perm {α κ : Type*} {key : α → κ} {l l' : List α} (h : Distinct key l) (hperm : l.Perm l') :
    Distinct key l' :=
  (hperm.map key).nodup_iff.1 h

theorem Distinct.sublist {α κ : Type*} {key : α → κ} {l l' : List α} (h : Distinct key l) (hsub : l'.Sublist l) :
    Distinct key l' :=
  List.Nodup.sublist (hsub.map key) h

variable {α κ : Type*} [LinearOrder κ] (key : α → κ)

def Sorted (l : List α) : Prop := l.Pairwise fun a b => key a < key b

/-- Insert at the lower bound; the element with the same key, if there is one, is overwritten. -/
def sortedInsert : List α → α → List α
  | [], a => [a]
  | b :: l, a => if key b < key a then b :: sortedInsert l a else if key a = key b then a :: l else a :: b :: l

variable {key} {l l' l'' dest dest' dest'' : List α} {a b : α}

theorem Sorted.distinct (h : Sorted key l) : Distinct key l := by
  unfold Distinct
  rw [List.Nodup, List.pairwise_map]
  exact h.imp fun hlt => hlt.ne

theorem Sorted.sublist (h : Sorted key l) (hsub : l'.Sublist l) : Sorted key l' := List.Pairwise.sublist hsub h

theorem mem_sortedInsert (h : b ∈ sortedInsert key l a) : b = a ∨ b ∈ l := by
  induction l with
  | nil => simpa [sortedInsert] using h
  | cons c l ih =>
    unfold sortedInsert at h
    split at h
    · rcases List.mem_cons.1 h with rfl | h
      · exact Or.inr (by simp)
      · exact (ih h).imp_right (List.mem_cons_of_mem _)
    · split at h
      · exact (List.mem_cons.1 h).imp_right (List.mem_cons_of_mem _)
      · exact List.mem_cons.1 h

theorem Sorted.sortedInsert (h : Sorted key l) : Sorted key (sortedInsert key l a) := by
  induction l with
  | nil => simp [SortedVector.sortedInsert, Sorted]
  | cons c l ih =>
    obtain ⟨hc, hl⟩ := List.pairwise_cons.1 h
    unfold SortedVector.sortedInsert
    split
    · rename_i hlt
      refine List.pairwise_cons.2 ⟨fun b hb => ?_, ih hl⟩
      rcases mem_sortedInsert hb with rfl | hb
      · exact hlt
      · exact hc b hb
    · rename_i hlt
      split
      · rename_i heq
        exact List.pairwise_cons.2 ⟨fun b hb => heq ▸ hc b hb, hl⟩
      · rename_i hne
        have hac : key a < key c := lt_of_le_of_ne (not_lt.1 hlt) hne
        refine List.pairwise_cons.2 ⟨fun b hb => ?_, h⟩
        rcases List.mem_cons.1 hb with rfl | hb
        · exact hac
        · exact hac.trans (hc b hb)

/-- Nothing is overwritten where no element has the key. -/
theorem sortedInsert_perm (h : ∀ b ∈ l, key b ≠ key a) : (sortedInsert key l a).Perm (a :: l) := by
  induction l with
  | nil => exact List.Perm.refl _
  | cons c l ih =>
    unfold sortedInsert
    split
    · exact ((ih fun b hb => h b (List.mem_cons_of_mem c hb)).cons c).trans (List.Perm.swap a c l)
    · rw [if_neg (h c (by simp)).symm]

theorem mem_sortedInsert_iff (h : ∀ b ∈ l, key b ≠ key a) : b ∈ sortedInsert key l a ↔ b = a ∨ b ∈ l := by
  rw [(sortedInsert_perm h).mem_iff, List.mem_cons]

/-- An element that is moved overwrites nothing, and none is lost. -/
theorem move_perm {before after : List α} (hdistinct : Distinct key (dest ++ (before ++ a :: after))) :
    (∀ b ∈ dest, key b ≠ key a) ∧
      (sortedInsert key dest a ++ (before ++ after)).Perm (dest ++ (before ++ a :: after)) := by
  have hne : ∀ b ∈ dest, key b ≠ key a := by
    intro b hb hkey
    unfold Distinct at hdistinct
    rw [List.map_append, List.nodup_append] at hdistinct
    exact hdistinct.2.2 _ (List.mem_map_of_mem hb) _
      (List.mem_map_of_mem (List.mem_append_right _ List.mem_cons_self)) hkey
  refine ⟨hne, ((sortedInsert_perm hne).append_right _).trans ?_⟩
  exact List.perm_middle.symm.trans (List.Perm.append_left _ List.perm_middle.symm)

/-- What is left after a predicate that holds of a first part of the list. -/
theorem mem_dropWhile_iff {p : α → Bool} (h : l.Pairwise fun a b => p b = true → p a = true) :
    a ∈ l.dropWhile p ↔ a ∈ l ∧ p a = false := by
  induction l with
  | nil => simp
  | cons b l ih =>
    obtain ⟨hb, hl⟩ := List.pairwise_cons.1 h
    by_cases hp : p b = true
    · rw [List.dropWhile_cons_of_pos hp, ih hl, List.mem_cons]
      constructor
      · exact fun ⟨hmem, ha⟩ => ⟨.inr hmem, ha⟩
      · rintro ⟨rfl | hmem, ha⟩
        · simp [hp] at ha
        · exact ⟨hmem, ha⟩
    · rw [List.dropWhile_cons_of_neg hp]
      constructor
      · intro hmem
        refine ⟨hmem, ?_⟩
        rcases List.mem_cons.1 hmem with rfl | hmem
        · simpa using hp
        · cases ha : p a with
          | true => exact absurd (hb a hmem ha) hp
          | false => rfl
      · exact And.left

/-- Elements that satisfy `p` were moved from `l` to `dest`. -/
structure Moved (key : α → κ) (p : α → Prop) (l dest l' dest' : List α) : Prop where
  sorted : Sorted key dest'
  sublist : l'.Sublist l
  perm : (dest' ++ l').Perm (dest ++ l)
  moved : ∀ a ∈ dest', a ∈ dest ∨ p a

namespace Moved

variable {p : α → Prop}

theorem refl (h : Sorted key dest) : Moved key p l dest l dest :=
    ⟨h, List.Sublist.refl l, List.Perm.refl _, fun _ => Or.inl⟩

theorem trans (h : Moved key p l dest l' dest') (h' : Moved key p l' dest' l'' dest'') :
    Moved key p l dest l'' dest'' := by
  refine ⟨h'.sorted, h'.sublist.trans h.sublist, h'.perm.trans h.perm, fun a ha => ?_⟩
  rcases h'.moved a ha with ha | ha
  · exact h.moved a ha
  · exact Or.inr ha

theorem distinct (h : Moved key p l dest l' dest') (hdistinct : Distinct key (dest ++ l)) :
    Distinct key (dest' ++ l') :=
  hdistinct.perm h.perm.symm

/-- Elements in front that are not looked at. -/
theorem prepend (h : Moved key p l dest l' dest') (front : List α) :
    Moved key p (front ++ l) dest (front ++ l') dest' := by
  refine ⟨h.sorted, (List.Sublist.refl front).append h.sublist, ?_, h.moved⟩
  have hperm : (front ++ (dest' ++ l')).Perm (front ++ (dest ++ l)) := h.perm.append_left front
  exact (List.perm_append_comm_assoc dest' front l').trans (hperm.trans (List.perm_append_comm_assoc front dest l))

/-- One element is moved. -/
theorem one (before after : List α) (hsorted : Sorted key dest)
    (hdistinct : Distinct key (dest ++ (before ++ a :: after)))
    (ha : p a) : Moved key p (before ++ a :: after) dest (before ++ after) (sortedInsert key dest a) := by
  refine ⟨hsorted.sortedInsert, ?_, (move_perm hdistinct).2, ?_⟩
  · exact (List.Sublist.refl before).append (List.sublist_cons_self a after)
  · intro b hb
    rcases mem_sortedInsert hb with rfl | hb
    · exact Or.inr ha
    · exact Or.inl hb

end Moved

end SortedVector
