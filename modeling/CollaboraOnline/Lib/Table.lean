import Mathlib.Algebra.BigOperators.Group.List.Basic
import Mathlib.Data.List.Nodup

/-!
# Tables

A hash map as the list of its entries, no two of them with the same key.  `key` gives the key of an entry.
-/

/-- Entries with pairwise different keys. -/
structure Table {ε κ : Type*} (key : ε → κ) where
  entries : List ε
  nodup : (entries.map key).Nodup

namespace Table

variable {ε κ : Type*} [DecidableEq κ] {key : ε → κ}

instance [DecidableEq ε] : DecidableEq (Table key) := fun s t =>
  decidable_of_iff (s.entries = t.entries) (by cases s; cases t; simp)

def empty : Table key := ⟨[], by simp⟩

/-- The entry with key `k`. -/
def find (t : Table key) (k : κ) : Option ε := t.entries.find? fun e => key e = k

/-- Keep the entries that satisfy `p`. -/
def filter (t : Table key) (p : ε → Bool) : Table key :=
  ⟨t.entries.filter p, t.nodup.sublist (List.filter_sublist.map key)⟩

/-- Remove the entry with key `k`. -/
def erase (t : Table key) (k : κ) : Table key := t.filter fun e => key e ≠ k

/-- Change the entries in a way that keeps their keys. -/
def map (t : Table key) (f : ε → ε) (hf : ∀ e, key (f e) = key e) : Table key :=
  ⟨t.entries.map f, by simpa [List.map_map, Function.comp_def, hf] using t.nodup⟩

/-- Add `e` in place of the entry with its key. -/
def put (t : Table key) (e : ε) : Table key :=
  ⟨e :: (t.erase (key e)).entries, by
    rw [List.map_cons, List.nodup_cons]
    exact ⟨by simp [erase, filter], (t.erase (key e)).nodup⟩⟩

variable {t : Table key} {k k' : κ} {e : ε}

theorem key_of_find (h : t.find k = some e) : key e = k := by
  simpa using List.find?_some h

theorem mem_of_find (h : t.find k = some e) : e ∈ t.entries := List.mem_of_find?_eq_some h

@[simp] theorem find_empty : (empty : Table key).find k = none := rfl

/-- An entry is found under its key. -/
theorem find_of_mem (h : e ∈ t.entries) : t.find (key e) = some e := by
  obtain ⟨entries, hnodup⟩ := t
  unfold find
  simp only at h ⊢
  induction entries with
  | nil => simp at h
  | cons a l ih =>
    rw [List.map_cons, List.nodup_cons] at hnodup
    rcases List.mem_cons.1 h with rfl | h
    · simp
    · have hne : key a ≠ key e := fun heq => hnodup.1 (heq ▸ List.mem_map_of_mem h)
      simpa [List.find?_cons, hne] using ih hnodup.2 h

theorem find_eq_some : t.find k = some e ↔ e ∈ t.entries ∧ key e = k := by
  constructor
  · intro h
    exact ⟨mem_of_find h, key_of_find h⟩
  · rintro ⟨hmem, rfl⟩
    exact find_of_mem hmem

theorem find_filter {p : ε → Bool} : (t.filter p).find k = (t.find k).filter p := by
  apply Option.ext
  intro e
  rw [find_eq_some, filter, List.mem_filter, Option.filter_eq_some_iff, find_eq_some]
  tauto

theorem find_erase_self : (t.erase k).find k = none := by
  rw [erase, find_filter, Option.filter_eq_none_iff]
  intro e he
  simp [key_of_find he]

theorem find_erase_of_ne (h : k' ≠ k) : (t.erase k).find k' = t.find k' := by
  rw [erase, find_filter]
  cases he : t.find k' with
  | none => rfl
  | some e => simp [Option.filter, key_of_find he, h]

@[simp] theorem find_put_self : (t.put e).find (key e) = some e := find_of_mem (by simp [put])

theorem find_put_of_ne (h : k ≠ key e) : (t.put e).find k = t.find k := by
  calc (t.put e).find k = (t.erase (key e)).find k := by simp [put, find, Ne.symm h]
    _ = t.find k := find_erase_of_ne h

theorem find_put : (t.put e).find k = if k = key e then some e else t.find k := by
  split
  · rename_i h
    rw [h, find_put_self]
  · rename_i h
    exact find_put_of_ne h

theorem find_map {f : ε → ε} (hf : ∀ e, key (f e) = key e) : (t.map f hf).find k = (t.find k).map f := by
  apply Option.ext
  intro e
  rw [find_eq_some, map, List.mem_map, Option.map_eq_some_iff]
  constructor
  · rintro ⟨⟨a, ha, rfl⟩, hk⟩
    exact ⟨a, find_eq_some.2 ⟨ha, by rw [← hk, hf]⟩, rfl⟩
  · rintro ⟨a, ha, rfl⟩
    obtain ⟨hmem, hk⟩ := find_eq_some.1 ha
    exact ⟨⟨a, hmem, rfl⟩, by rw [hf, hk]⟩

omit [DecidableEq κ] in
theorem ext {s t : Table key} (h : s.entries = t.entries) : s = t := by
  cases s
  cases t
  cases h
  rfl

theorem erase_of_find_none (h : t.find k = none) : t.erase k = t := by
  apply ext
  unfold erase filter
  dsimp only
  rw [List.filter_eq_self]
  intro e he
  have hne := List.find?_eq_none.1 h e he
  simpa using hne

theorem erase_put : (t.put e).erase (key e) = t.erase (key e) := by
  apply ext
  unfold put erase filter
  dsimp only
  rw [List.filter_cons_of_neg (by simp), List.filter_filter]
  congr 1
  funext e'
  rw [Bool.and_self]

/-- An entry and the other ones. -/
theorem perm_erase (h : e ∈ t.entries) : t.entries.Perm (e :: (t.erase (key e)).entries) := by
  obtain ⟨entries, hnodup⟩ := t
  simp only [erase, filter] at h ⊢
  induction entries with
  | nil => simp at h
  | cons a l ih =>
    rw [List.map_cons, List.nodup_cons] at hnodup
    rcases List.mem_cons.1 h with rfl | hmem
    · rw [List.filter_cons_of_neg (by simp)]
      rw [List.filter_eq_self.2 ?_]
      intro b hb
      have hne : key b ≠ key e := fun heq => hnodup.1 (heq ▸ List.mem_map_of_mem hb)
      simpa using hne
    · have hne : key a ≠ key e := fun heq => hnodup.1 (heq ▸ List.mem_map_of_mem hmem)
      rw [List.filter_cons_of_pos (by simpa using hne)]
      exact ((ih hnodup.2 hmem).cons a).trans (List.Perm.swap _ _ _)

theorem mem_erase : e ∈ (t.erase k).entries ↔ e ∈ t.entries ∧ key e ≠ k := by
  simp [erase, filter]

theorem entries_put : (t.put e).entries = e :: (t.erase (key e)).entries := rfl

theorem mem_put {e' : ε} : e' ∈ (t.put e).entries ↔ e' = e ∨ e' ∈ t.entries ∧ key e' ≠ key e := by
  rw [entries_put, List.mem_cons, mem_erase]

theorem put_put {e' : ε} (h : key e = key e') : (t.put e).put e' = t.put e' := by
  have herase : (t.put e).erase (key e') = t.erase (key e') := by
    rw [← h, erase_put]
  apply ext
  exact congrArg (e' :: ·.entries) herase

/-- A sum over the entries is the summand of a key and the sum over the other entries. -/
theorem sum_erase {α : Type*} [AddCommMonoid α] (t : Table key) (k : κ) (f : ε → α) :
    (t.entries.map f).sum = ((t.find k).map f).getD 0 + ((t.erase k).entries.map f).sum := by
  cases h : t.find k with
  | none => rw [erase_of_find_none h, Option.map_none, Option.getD_none, zero_add]
  | some e =>
    obtain ⟨hmem, rfl⟩ := find_eq_some.1 h
    rw [((perm_erase hmem).map f).sum_eq]
    rfl

end Table
