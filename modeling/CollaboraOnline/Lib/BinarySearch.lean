import Mathlib.Data.Finset.Basic

/-!
# Binary search with directions

The search asks at an index in which direction it has to go on.  Where the directions are sorted (`Sorted`), it finds
the first index that matches, and fails where none does (`search_spec`).  `bound` finds the first index from which on
a predicate holds (`bound_spec`).
-/

namespace BinarySearch

/-- What is asked for comes before, is here, or comes after. -/
inductive Direction
  | before
  | here
  | after
deriving DecidableEq, Repr

open Direction

variable {direction : Nat → Direction} {length start stop i j : Nat}

/-- The search in the indices from `start` to before `stop`. -/
def searchLoop (direction : Nat → Direction) (start stop : Nat) : Option Nat :=
  if start < stop then
    match direction ((start + stop) / 2) with
    | here => some ((start + stop) / 2)
    | before => searchLoop direction start ((start + stop) / 2)
    | after => searchLoop direction ((start + stop) / 2 + 1) stop
  else none
termination_by stop - start

/-- From an index that matches back to the first one of those that match around it. -/
def firstMatch (direction : Nat → Direction) : Nat → Nat
  | 0 => 0
  | index + 1 => if direction index = here then firstMatch direction index else index + 1

/-- The first index is tried, then the last one, then those between. -/
def search (direction : Nat → Direction) (length : Nat) (first : Bool) : Option Nat :=
  if length = 0 then none
  else
    match direction 0 with
    | here => some 0
    | before => none
    | after =>
      match direction (length - 1) with
      | after => none
      | here => some (if first then firstMatch direction (length - 1) else length - 1)
      | before =>
        (searchLoop direction 0 length).map fun mid => if first then firstMatch direction mid else mid

/-- Everything before an index where the search goes on after it is before the match too, and the other way round. -/
structure Sorted (direction : Nat → Direction) (length : Nat) : Prop where
  after_of_lt : ∀ i j, i < j → j < length → direction j = after → direction i = after
  before_of_lt : ∀ i j, i < j → j < length → direction i = before → direction j = before

theorem Sorted.here_of_between (h : Sorted direction length) {k : Nat} (hij : i ≤ j) (hjk : j ≤ k) (hk : k < length)
    (hi : direction i = here) (hk' : direction k = here) : direction j = here := by
  rcases Nat.eq_or_lt_of_le hij with rfl | hij
  · exact hi
  rcases Nat.eq_or_lt_of_le hjk with rfl | hjk
  · exact hk'
  cases hj : direction j with
  | here => rfl
  | before =>
    have hafter := h.before_of_lt j k hjk hk hj
    rw [hk'] at hafter
    cases hafter
  | after =>
    have hbefore := h.after_of_lt i j hij (hjk.trans hk) hj
    rw [hi] at hbefore
    cases hbefore

/-- Nothing matches outside of the range: what the loop finds is all there is. -/
theorem searchLoop_spec (h : Sorted direction length) (start stop : Nat) (hstop : stop ≤ length)
    (hbelow : ∀ i < start, direction i ≠ here) (habove : ∀ i, stop ≤ i → i < length → direction i ≠ here) :
    (∃ i, searchLoop direction start stop = some i ∧ i < length ∧ direction i = here) ∨
      (searchLoop direction start stop = none ∧ ∀ i < length, direction i ≠ here) := by
  induction hn : stop - start using Nat.strong_induction_on generalizing start stop with
  | _ n ih =>
    rw [searchLoop]
    by_cases hlt : start < stop
    · rw [if_pos hlt]
      have hmid : start ≤ (start + stop) / 2 ∧ (start + stop) / 2 < stop := by omega
      generalize (start + stop) / 2 = mid at hmid ⊢
      obtain ⟨hlow, hhigh⟩ := hmid
      cases hdir : direction mid with
      | here => exact .inl ⟨mid, rfl, by omega, hdir⟩
      | before =>
        refine ih (mid - start) (by omega) start mid (by omega) hbelow (fun i hi hlength => ?_) rfl
        rcases Nat.eq_or_lt_of_le hi with rfl | hi
        · rw [hdir]
          decide
        · rw [h.before_of_lt mid i hi hlength hdir]
          decide
      | after =>
        refine ih (stop - (mid + 1)) (by omega) (mid + 1) stop hstop (fun i hi => ?_) habove rfl
        rcases Nat.eq_or_lt_of_le (Nat.le_of_lt_succ hi) with rfl | hi
        · rw [hdir]
          decide
        · rw [h.after_of_lt i mid hi (by omega) hdir]
          decide
    · rw [if_neg hlt]
      refine .inr ⟨rfl, fun i hi => ?_⟩
      by_cases hi' : i < start
      · exact hbelow i hi'
      · exact habove i (by omega) hi

theorem firstMatch_spec (h : Sorted direction length) (hi : i < length) (hhere : direction i = here) :
    firstMatch direction i ≤ i ∧ direction (firstMatch direction i) = here ∧
      ∀ j < firstMatch direction i, direction j ≠ here := by
  induction i with
  | zero => exact ⟨le_refl _, hhere, fun j hj => absurd hj (Nat.not_lt_zero j)⟩
  | succ i ih =>
    rw [firstMatch]
    by_cases hprev : direction i = here
    · rw [if_pos hprev]
      obtain ⟨hle, hfirst, hnone⟩ := ih (by omega) hprev
      exact ⟨by omega, hfirst, hnone⟩
    · rw [if_neg hprev]
      refine ⟨le_refl _, hhere, fun j hj hj' => hprev ?_⟩
      exact h.here_of_between (Nat.le_of_lt_succ hj) (Nat.le_succ i) hi hj' hhere

/-- The search finds an index that matches, the first one if it is asked to, if there is one. -/
theorem search_spec (h : Sorted direction length) (first : Bool) :
    (∃ i, search direction length first = some i ∧ i < length ∧ direction i = here ∧
        (first = true → ∀ j < i, direction j ≠ here)) ∨
      (search direction length first = none ∧ ∀ i < length, direction i ≠ here) := by
  have hfound (mid : Nat) (hmid : mid < length) (hhere : direction mid = here) :
      ∃ i, some (if first then firstMatch direction mid else mid) = some i ∧ i < length ∧ direction i = here ∧
        (first = true → ∀ j < i, direction j ≠ here) := by
    cases first with
    | false => exact ⟨mid, rfl, hmid, hhere, fun hfirst => absurd hfirst (by decide)⟩
    | true =>
      obtain ⟨hle, hmatch, hnone⟩ := firstMatch_spec h hmid hhere
      exact ⟨firstMatch direction mid, rfl, by omega, hmatch, fun _ => hnone⟩
  unfold search
  by_cases hzero : length = 0
  · rw [if_pos hzero]
    exact .inr ⟨rfl, fun i hi => by omega⟩
  rw [if_neg hzero]
  cases hstart : direction 0 with
  | here => exact .inl ⟨0, rfl, by omega, hstart, fun _ j hj => absurd hj (Nat.not_lt_zero j)⟩
  | before =>
    refine .inr ⟨rfl, fun i hi => ?_⟩
    rcases Nat.eq_zero_or_pos i with rfl | hpos
    · rw [hstart]
      decide
    · rw [h.before_of_lt 0 i hpos hi hstart]
      decide
  | after =>
    cases hend : direction (length - 1) with
    | here => exact .inl (hfound (length - 1) (by omega) hend)
    | after =>
      refine .inr ⟨rfl, fun i hi => ?_⟩
      rcases Nat.eq_or_lt_of_le (Nat.le_pred_of_lt hi) with heq | hlt
      · rw [heq, Nat.pred_eq_sub_one, hend]
        decide
      · rw [h.after_of_lt i (length - 1) hlt (by omega) hend]
        decide
    | before =>
      rcases searchLoop_spec h 0 length (le_refl _) (fun i hi => absurd hi (Nat.not_lt_zero i))
        (fun i hi hlt => absurd hlt (by omega)) with ⟨i, hi, hlt, hhere⟩ | ⟨hnone, hall⟩
      · refine .inl ?_
        dsimp only
        rw [hi]
        exact hfound i hlt hhere
      · refine .inr ⟨?_, hall⟩
        dsimp only
        rw [hnone]
        rfl

/-- Where at most one index matches, it is the one that is found. -/
theorem search_eq_some_iff (h : Sorted direction length) (first : Bool)
    (hunique : ∀ i j, i < length → j < length → direction i = here → direction j = here → i = j) :
    search direction length first = some i ↔ i < length ∧ direction i = here := by
  rcases search_spec h first with ⟨k, hk, hlt, hhere, -⟩ | ⟨hnone, hall⟩
  · rw [hk, Option.some.injEq]
    constructor
    · rintro rfl
      exact ⟨hlt, hhere⟩
    · rintro ⟨hi, hi'⟩
      exact hunique k i hlt hi hhere hi'
  · rw [hnone]
    constructor
    · intro hsome
      cases hsome
    · rintro ⟨hi, hi'⟩
      exact absurd hi' (hall i hi)

/-! ### The first index from which on a predicate holds -/

/-- The search in the indices from `start` to before `stop`; `ans` is the last one that was found. -/
def boundLoop (p : Nat → Bool) (start stop : Nat) (ans : Option Nat) : Option Nat :=
  if start < stop then
    if p ((start + stop - 1) / 2) then boundLoop p start ((start + stop - 1) / 2) (some ((start + stop - 1) / 2))
    else boundLoop p ((start + stop - 1) / 2 + 1) stop ans
  else ans
termination_by stop - start

def bound (p : Nat → Bool) (length : Nat) : Option Nat := boundLoop p 0 length none

variable {p : Nat → Bool}

/-- The answer is the end of the range, or nothing is found and the range ends with the indices. -/
theorem boundLoop_spec (hmono : ∀ i j, i < j → j < length → p i → p j) (start stop : Nat) (ans : Option Nat)
    (hstart : start ≤ stop) (hbelow : ∀ i < start, ¬ p i)
    (hans : (ans = none ∧ stop = length) ∨ (ans = some stop ∧ stop < length ∧ p stop)) :
    (∃ i, boundLoop p start stop ans = some i ∧ i < length ∧ p i ∧ ∀ j < i, ¬ p j) ∨
      (boundLoop p start stop ans = none ∧ ∀ i < length, ¬ p i) := by
  induction hn : stop - start using Nat.strong_induction_on generalizing start stop ans with
  | _ n ih =>
    rw [boundLoop]
    by_cases hlt : start < stop
    · rw [if_pos hlt]
      have hmid : start ≤ (start + stop - 1) / 2 ∧ (start + stop - 1) / 2 < stop := by omega
      generalize (start + stop - 1) / 2 = mid at hmid ⊢
      obtain ⟨hlow, hhigh⟩ := hmid
      have hlength : mid < length := by
        rcases hans with ⟨-, hstop⟩ | ⟨-, hstop, -⟩ <;> omega
      by_cases hp : p mid
      · rw [if_pos hp]
        exact ih (mid - start) (by omega) start mid (some mid) hlow hbelow (.inr ⟨rfl, hlength, hp⟩) rfl
      · rw [if_neg hp]
        refine ih (stop - (mid + 1)) (by omega) (mid + 1) stop ans hhigh (fun i hi hpi => hp ?_) hans rfl
        rcases Nat.eq_or_lt_of_le (Nat.le_of_lt_succ hi) with rfl | hi
        · exact hpi
        · exact hmono i mid hi hlength hpi
    · rw [if_neg hlt]
      obtain rfl : start = stop := by omega
      rcases hans with ⟨rfl, rfl⟩ | ⟨rfl, hstop, hp⟩
      · exact .inr ⟨rfl, hbelow⟩
      · exact .inl ⟨start, rfl, hstop, hp, hbelow⟩

theorem bound_spec (hmono : ∀ i j, i < j → j < length → p i → p j) :
    (∃ i, bound p length = some i ∧ i < length ∧ p i ∧ ∀ j < i, ¬ p j) ∨
      (bound p length = none ∧ ∀ i < length, ¬ p i) :=
  boundLoop_spec hmono 0 length none (Nat.zero_le _) (fun i hi => absurd hi (Nat.not_lt_zero i)) (.inl ⟨rfl, rfl⟩)

end BinarySearch
