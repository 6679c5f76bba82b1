import Mathlib.Data.List.Basic

/-!
# Repeat masks

A list over any type is stored as one bit for each element, set when the element repeats the one before it
(`repeats`), and the list of the elements that do not (`fresh`).  `expand` reads the two back
(`expand_repeats_fresh`).  The first element is compared with a given value `last`.
-/

namespace RepeatMask

variable {α : Type*} [DecidableEq α]

/-- For each element whether it repeats the one before it. -/
def repeats (last : α) : List α → List Bool
  | [] => []
  | a :: l => decide (a = last) :: repeats a l

/-- The elements that differ from the one before them. -/
def fresh (last : α) : List α → List α
  | [] => []
  | a :: l => if a = last then fresh last l else a :: fresh a l

/-- Read a list back from its repeat bits and its fresh elements.  Missing elements end the list. -/
def expand (last : α) : List Bool → List α → List α
  | [], _ => []
  | true :: bits, data => last :: expand last bits data
  | false :: _, [] => []
  | false :: bits, a :: data => a :: expand a bits data

@[simp] theorem length_repeats (last : α) (l : List α) : (repeats last l).length = l.length := by
  induction l generalizing last with
  | nil => rfl
  | cons a l ih => simp [repeats, ih]

theorem length_fresh_le (last : α) (l : List α) : (fresh last l).length ≤ l.length := by
  induction l generalizing last with
  | nil => simp [fresh]
  | cons a l ih =>
    unfold fresh
    split
    · have := ih last
      simp only [List.length_cons]
      omega
    · have := ih a
      simp only [List.length_cons]
      omega

/-- The repeat bits and the fresh elements determine the list. -/
theorem expand_repeats_fresh (last : α) (l : List α) : expand last (repeats last l) (fresh last l) = l := by
  induction l generalizing last with
  | nil => rfl
  | cons a l ih =>
    by_cases h : a = last
    · subst h
      simp [repeats, fresh, expand, ih]
    · simp [repeats, fresh, expand, h, ih]

theorem eq_of_repeats_of_fresh {last : α} {l l' : List α} (hbits : repeats last l = repeats last l')
    (hdata : fresh last l = fresh last l') : l = l' := by
  rw [← expand_repeats_fresh last l, ← expand_repeats_fresh last l', hbits, hdata]

/-- Without fresh elements every element is the last one. -/
theorem eq_of_mem_of_fresh_nil {last a : α} {l : List α} (h : fresh last l = []) (ha : a ∈ l) : a = last := by
  induction l with
  | nil => simp at ha
  | cons b l ih =>
    unfold fresh at h
    split at h
    · rename_i hb
      rcases List.mem_cons.1 ha with rfl | ha
      · exact hb
      · exact ih h ha
    · simp at h

theorem repeats_take (last : α) (l : List α) (n : Nat) : repeats last (l.take n) = (repeats last l).take n := by
  induction l generalizing last n with
  | nil => simp [repeats]
  | cons a l ih => cases n <;> simp [repeats, ih]

theorem repeats_append (last : α) (l l' : List α) :
    repeats last (l ++ l') = repeats last l ++ repeats (l.getLast?.getD last) l' := by
  induction l generalizing last with
  | nil => rfl
  | cons a l ih =>
    rw [List.cons_append, repeats, ih, repeats, List.cons_append]
    cases l <;> simp [List.getLast?_cons]

theorem fresh_append (last : α) (l l' : List α) :
    fresh last (l ++ l') = fresh last l ++ fresh (l.getLast?.getD last) l' := by
  induction l generalizing last with
  | nil => rfl
  | cons a l ih =>
    by_cases h : a = last
    · subst h
      rw [List.cons_append, fresh, fresh, if_pos rfl, if_pos rfl, ih]
      cases l <;> simp [List.getLast?_cons]
    · rw [List.cons_append, fresh, fresh, if_neg h, if_neg h, ih]
      cases l <;> simp [List.getLast?_cons]

/-- The fresh elements are those whose repeat bit is clear. -/
theorem fresh_eq_filter_zip (last : α) (l : List α) :
    fresh last l = ((l.zip (repeats last l)).filter fun p => !p.2).map Prod.fst := by
  induction l generalizing last with
  | nil => rfl
  | cons a l ih =>
    by_cases h : a = last
    · subst h
      simp [repeats, fresh, ← ih]
    · simp [repeats, fresh, h, ← ih]

end RepeatMask
