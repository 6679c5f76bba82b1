import CollaboraOnline.Browser.SheetGeometry
import CollaboraOnline.Lib.BinarySearch

/-!
# The first visible row after a change

After a filter is set the view is moved to the first row at or after its old start that is visible.
`getFirstNewVisibleRow` looks for the span that ends after the old start and takes one of the ends of the spans: this
is that row only if there is one span, or if the old start is hidden and the visible rows after it are a single one,
and not always then (`getFirstNewVisibleRow_iff`).
-/

namespace CollaboraOnline

open BinarySearch

namespace SheetGeometry

/-- `target` is the first row of the view before the change, `invisibleRows` has the hidden and the filtered rows
after it. -/
def getFirstNewVisibleRow (target : Nat) (invisibleRows : BoolSpanList) : Nat :=
  if target = 0 then 0
  -- one span: all rows are taken to be visible
  else if invisibleRows.spanlist.length = 1 then target
  else
    match bound (fun mid => target < invisibleRows.spanlist.getD mid 0) invisibleRows.spanlist.length with
    | none => 0
    | some ans =>
      if ans = 0 then 0
      else if ans % 2 = 0 ∧ ans + 1 < invisibleRows.spanlist.length then invisibleRows.spanlist.getD (ans + 1) 0
      else invisibleRows.spanlist.getD ans 0

/-- Neither hidden nor filtered. -/
def Visible (invisibleRows : BoolSpanList) (row : Nat) : Prop :=
    bitAt invisibleRows.startBit invisibleRows.spanlist row = false

theorem visible_union {hidden filtered : BoolSpanList} {max row : Nat} (hhidden : EndsAt max hidden.spanlist)
    (hfiltered : EndsAt max filtered.spanlist) (hrow : row ≤ max) :
      ∃ invisibleRows, hidden.union filtered = some invisibleRows ∧
      (Visible invisibleRows row ↔
        bitAt hidden.startBit hidden.spanlist row = false ∧
        bitAt filtered.startBit filtered.spanlist row = false) := by
  obtain ⟨invisibleRows, hunion, -, hbits⟩ := BoolSpanList.union_spec hhidden hfiltered
  refine ⟨invisibleRows, hunion, ?_⟩
  rw [Visible, hbits row hrow, Bool.or_eq_false_iff]

/-- The first visible row of the sheet at or after `target`. -/
structure IsFirstVisible (invisibleRows : BoolSpanList) (max target row : Nat) : Prop where
  le : target ≤ row
  le_max : row ≤ max
  visible : Visible invisibleRows row
  first : ∀ k, target ≤ k → k < row → ¬ Visible invisibleRows k

/-- The cases in which the right end is taken. -/
inductive TakesVisible (invisibleRows : BoolSpanList) (target : Nat) : Prop
  /-- The view starts at the top, and its first row is visible. -/
  | top (zero : target = 0) (first : invisibleRows.startBit = false)
  | oneSpan (one : invisibleRows.spanlist.length = 1)
  /-- The old start is hidden, but is neither in the first span nor the last row of its own, the first row is hidden,
  and the next visible span is a single row. -/
  | inHidden (k e : Nat) (odd : k % 2 = 1) (first : invisibleRows.startBit = true)
    (before : invisibleRows.spanlist[k]? = some e)
      (after : e < target) (last : Nat) (span : invisibleRows.spanlist[k + 1]? = some last) (within : target < last)
      (next : invisibleRows.spanlist[k + 2]? = some (last + 1))
  /-- The old start is the last row of a hidden span, the next visible span is a single row, and the first row is
  hidden or that span is the last one. -/
  | endOfHidden (k : Nat) (pos : 0 < target) (span : invisibleRows.spanlist[k]? = some target)
      (hidden : invisibleRows.startBit = decide (k % 2 = 0))
      (next : invisibleRows.spanlist[k + 1]? = some (target + 1))
      (last : invisibleRows.startBit = true ∨ invisibleRows.spanlist.length = k + 2)

variable {invisibleRows : BoolSpanList} {max target row k e : Nat}

/-- The spans are hidden in turn. -/
theorem bitAt_span {b : Bool} {l : List Nat} (hk : l[k]? = some e) (hle : row ≤ e)
    (hbefore : ∀ j < k, ∀ x, l[j]? = some x → x < row) :
    bitAt b l row = (b ^^ decide (k % 2 = 1)) := by
  induction k generalizing b l with
  | zero =>
    cases l with
    | nil => cases hk
    | cons x l =>
      obtain rfl : x = e := Option.some.inj hk
      rw [bitAt, if_pos hle]
      simp
  | succ k ih =>
    cases l with
    | nil => cases hk
    | cons x l =>
      have hx : x < row := hbefore 0 (Nat.succ_pos k) x rfl
      rw [bitAt, if_neg (by omega), ih hk fun j hj y hy => hbefore (j + 1) (Nat.succ_lt_succ hj) y hy]
      obtain hmod | hmod : k % 2 = 0 ∧ (k + 1) % 2 = 1 ∨ k % 2 = 1 ∧ (k + 1) % 2 = 0 := by omega
      · simp [hmod.1, hmod.2]
      · simp [hmod.1, hmod.2]

theorem span_lt {l : List Nat} (h : EndsAt max l) {i j a b : Nat} (hij : i < j) (hi : l[i]? = some a)
    (hj : l[j]? = some b) : a < b := by
  obtain ⟨hi', rfl⟩ := List.getElem?_eq_some_iff.1 hi
  obtain ⟨hj', rfl⟩ := List.getElem?_eq_some_iff.1 hj
  exact List.pairwise_iff_getElem.1 h.sorted i j hi' hj' hij

theorem span_le {l : List Nat} (h : EndsAt max l) {i j a b : Nat} (hij : i ≤ j) (hi : l[i]? = some a)
    (hj : l[j]? = some b) : a ≤ b := by
  rcases Nat.eq_or_lt_of_le hij with rfl | hij
  · rw [hi] at hj
    exact (Option.some.inj hj).le
  · exact (span_lt h hij hi hj).le

/-- The rows of a span after the first one. -/
theorem bitAt_between {b : Bool} {l : List Nat} (h : EndsAt max l) {a : Nat} (hprev : l[k]? = some a)
    (hk : l[k + 1]? = some e) (hlt : a < row) (hle : row ≤ e) : bitAt b l row = (b ^^ decide (k % 2 = 0)) := by
  rw [bitAt_span hk hle fun j hj x hx => (span_le h (Nat.le_of_lt_succ hj) hx hprev).trans_lt hlt]
  obtain hmod | hmod : k % 2 = 0 ∧ (k + 1) % 2 = 1 ∨ k % 2 = 1 ∧ (k + 1) % 2 = 0 := by omega
  · simp [hmod.1, hmod.2]
  · simp [hmod.1, hmod.2]

theorem index_lt {l : List Nat} (h : EndsAt max l) {i j a b : Nat} (hi : l[i]? = some a) (hj : l[j]? = some b)
    (hab : a < b) : i < j := by
  by_contra hnot
  exact absurd (span_le h (not_lt.1 hnot) hj hi) (not_le.2 hab)

theorem index_eq {l : List Nat} (h : EndsAt max l) {i j a : Nat} (hi : l[i]? = some a) (hj : l[j]? = some a) :
    i = j := by
  rcases Nat.lt_trichotomy i j with hlt | heq | hlt
  · exact absurd (span_lt h hlt hi hj) (lt_irrefl a)
  · exact heq
  · exact absurd (span_lt h hlt hj hi) (lt_irrefl a)

/-- The row that is taken where the span after the `k`th one is the first that ends after `target`. -/
def takenRow (invisibleRows : BoolSpanList) (k : Nat) : Nat :=
  if (k + 1) % 2 = 0 ∧ k + 1 + 1 < invisibleRows.spanlist.length then invisibleRows.spanlist.getD (k + 1 + 1) 0
  else invisibleRows.spanlist.getD (k + 1) 0

section Taken

variable {a : Nat} (h : EndsAt max invisibleRows.spanlist) (hk : invisibleRows.spanlist[k]? = some a)
  (hk' : invisibleRows.spanlist[k + 1]? = some e)

include h hk'

theorem le_takenRow : e ≤ takenRow invisibleRows k := by
  unfold takenRow
  split
  · rename_i hcond
    have hget : invisibleRows.spanlist[k + 1 + 1]? = some invisibleRows.spanlist[k + 1 + 1] :=
      List.getElem?_eq_getElem hcond.2
    rw [List.getD_eq_getElem?_getD, hget, Option.getD_some]
    exact (span_lt h (Nat.lt_succ_self _) hk' hget).le
  · rw [List.getD_eq_getElem?_getD, hk', Option.getD_some]

include hk

/-- The old start is inside of a span. -/
theorem takenRow_inside (hpos : 0 < target) (hone : invisibleRows.spanlist.length ≠ 1) (hat : a < target)
    (hte : target < e) :
    IsFirstVisible invisibleRows max target (takenRow invisibleRows k) ↔ TakesVisible invisibleRows target := by
  have hbits : ∀ row, a < row → row ≤ e →
      bitAt invisibleRows.startBit invisibleRows.spanlist row = (invisibleRows.startBit ^^ decide (k % 2 = 0)) :=
    fun row hrow hle => bitAt_between h hk hk' hrow hle
  -- The span of the old start is hidden, and the next one is a single row.
  have htakes : TakesVisible invisibleRows target ↔
      k % 2 = 1 ∧ invisibleRows.startBit = true ∧ invisibleRows.spanlist[k + 2]? = some (e + 1) := by
    constructor
    · intro hcase
      cases hcase with
      | top zero => omega
      | oneSpan one => exact absurd one hone
      | inHidden j x odd first before after last span within next =>
        have hlow := index_lt h before hk' (by omega)
        have hhigh := index_lt h hk span (by omega)
        obtain rfl : j = k := by omega
        rw [hk'] at span
        obtain rfl := Option.some.inj span
        exact ⟨odd, first, next⟩
      | endOfHidden j pos span =>
        have hlow := index_lt h span hk' hte
        have hhigh := index_lt h hk span hat
        omega
    · rintro ⟨hodd, hfirst, hnext⟩
      exact .inHidden k a hodd hfirst hk hat e hk' hte hnext
  rw [htakes]
  by_cases hcond : (k + 1) % 2 = 0 ∧ k + 1 + 1 < invisibleRows.spanlist.length
  · have hget : invisibleRows.spanlist[k + 2]? = some invisibleRows.spanlist[k + 1 + 1] :=
      List.getElem?_eq_getElem hcond.2
    generalize invisibleRows.spanlist[k + 1 + 1] = c at hget
    have hce := span_lt h (Nat.lt_succ_self _) hk' hget
    have htaken : takenRow invisibleRows k = c := by
      rw [takenRow, if_pos hcond, List.getD_eq_getElem?_getD, hget, Option.getD_some]
    have hodd : k % 2 = 1 := by omega
    have hnext : bitAt invisibleRows.startBit invisibleRows.spanlist (e + 1) = !invisibleRows.startBit := by
      rw [bitAt_between h hk' hget (Nat.lt_succ_self e) hce, decide_eq_true hcond.1, Bool.xor_true]
    rw [htaken, hget, Option.some.injEq]
    constructor
    · intro hfirst
      have hstart : invisibleRows.startBit = true := by
        by_contra hnot
        refine hfirst.first target (le_refl _) (by omega) ?_
        rw [Visible, hbits target hat hte.le, Bool.of_not_eq_true hnot, decide_eq_false (by omega)]
        rfl
      refine ⟨hodd, hstart, ?_⟩
      by_contra hne
      refine hfirst.first (e + 1) (by omega) (by omega) ?_
      rw [Visible, hnext, hstart]
      rfl
    · rintro ⟨-, hstart, rfl⟩
      refine ⟨by omega, h.le _ (List.mem_of_getElem? hget), by rw [Visible, hnext, hstart]; rfl,
        fun row hrow hlt => ?_⟩
      rw [Visible, hbits row (by omega) (by omega), hstart, decide_eq_false (by omega)]
      decide
  · have htaken : takenRow invisibleRows k = e := by
      rw [takenRow, if_neg hcond, List.getD_eq_getElem?_getD, hk', Option.getD_some]
    rw [htaken]
    constructor
    · intro hfirst
      -- The row that is taken is as visible as the old start.
      refine absurd ?_ (hfirst.first target (le_refl _) hte)
      rw [Visible, hbits target hat hte.le, ← hbits e (hat.trans hte) (le_refl _)]
      exact hfirst.visible
    · rintro ⟨hodd, -, hnext⟩
      exact absurd ⟨by omega, (List.getElem?_eq_some_iff.1 hnext).1⟩ hcond

end Taken

section AtEnd

variable (h : EndsAt max invisibleRows.spanlist) (hk : invisibleRows.spanlist[k]? = some target)
  (hk' : invisibleRows.spanlist[k + 1]? = some e)

include h hk hk'

/-- The old start is the last row of a span. -/
theorem takenRow_atEnd (hpos : 0 < target) (hone : invisibleRows.spanlist.length ≠ 1) :
    IsFirstVisible invisibleRows max target (takenRow invisibleRows k) ↔ TakesVisible invisibleRows target := by
  have hte := span_lt h (Nat.lt_succ_self k) hk hk'
  have htarget : bitAt invisibleRows.startBit invisibleRows.spanlist target =
      (invisibleRows.startBit ^^ decide (k % 2 = 1)) :=
    bitAt_span hk (le_refl _) fun j hj x hx => span_lt h hj hx hk
  have hafter : bitAt invisibleRows.startBit invisibleRows.spanlist (target + 1) =
      (invisibleRows.startBit ^^ decide (k % 2 = 0)) :=
    bitAt_between h hk hk' (Nat.lt_succ_self target) hte
  have htakes : TakesVisible invisibleRows target ↔ invisibleRows.startBit = decide (k % 2 = 0) ∧ e = target + 1 ∧
      (invisibleRows.startBit = true ∨ invisibleRows.spanlist.length = k + 2) := by
    constructor
    · intro hcase
      cases hcase with
      | top zero => omega
      | oneSpan one => exact absurd one hone
      | inHidden j x odd first before after last span within next =>
        have hlow := index_lt h before hk after
        have hhigh := index_lt h hk span within
        omega
      | endOfHidden j pos span hidden next last =>
        obtain rfl := index_eq h span hk
        rw [hk'] at next
        exact ⟨hidden, Option.some.inj next, last⟩
    · rintro ⟨hhidden, rfl, hlast⟩
      exact .endOfHidden k hpos hk hhidden hk' hlast
  rw [htakes]
  have hlater : e ≤ takenRow invisibleRows k := le_takenRow h hk'
  by_cases hhidden : invisibleRows.startBit = decide (k % 2 = 0)
  · have hnext : Visible invisibleRows (target + 1) := by
      rw [Visible, hafter, hhidden, Bool.xor_self]
    by_cases hcond : (k + 1) % 2 = 0 ∧ k + 1 + 1 < invisibleRows.spanlist.length
    · have hget : invisibleRows.spanlist[k + 2]? = some invisibleRows.spanlist[k + 1 + 1] :=
        List.getElem?_eq_getElem hcond.2
      have hce := span_lt h (Nat.lt_succ_self _) hk' hget
      have htaken : takenRow invisibleRows k = invisibleRows.spanlist[k + 1 + 1] := by
        rw [takenRow, if_pos hcond, List.getD_eq_getElem?_getD, hget, Option.getD_some]
      constructor
      · intro hfirst
        exact absurd hnext (hfirst.first (target + 1) (Nat.le_succ _) (by omega))
      · rintro ⟨-, -, hlast⟩
        rw [hhidden, decide_eq_true_iff] at hlast
        omega
    · have htaken : takenRow invisibleRows k = e := by
        rw [takenRow, if_neg hcond, List.getD_eq_getElem?_getD, hk', Option.getD_some]
      rw [htaken]
      constructor
      · intro hfirst
        refine ⟨hhidden, ?_, ?_⟩
        · by_contra hne
          exact hfirst.first (target + 1) (Nat.le_succ _) (by omega) hnext
        · have hlen := (List.getElem?_eq_some_iff.1 hk').1
          rw [hhidden, decide_eq_true_iff]
          omega
      · rintro ⟨-, rfl, -⟩
        refine ⟨Nat.le_succ _, h.le _ (List.mem_of_getElem? hk'), hnext, fun row hrow hlt => ?_⟩
        obtain rfl : row = target := by omega
        rw [Visible, htarget, hhidden]
        obtain hmod | hmod := Nat.mod_two_eq_zero_or_one k
        · simp [hmod]
        · simp [hmod]
  · refine ⟨fun hfirst => absurd ?_ (hfirst.first target (le_refl _) (by omega)), fun hcase => absurd hcase.1 hhidden⟩
    rw [Visible, htarget]
    obtain hmod | hmod := Nat.mod_two_eq_zero_or_one k
    · simpa [hmod] using hhidden
    · simpa [hmod] using hhidden

end AtEnd

/-- Where there is a visible row at or after the old start, the row that is found is the first one in the cases of
`TakesVisible` only. -/
theorem getFirstNewVisibleRow_iff {invisibleRows : BoolSpanList} {max target : Nat}
    (h : EndsAt max invisibleRows.spanlist) (hex : ∃ row, target ≤ row ∧ row ≤ max ∧ Visible invisibleRows row) :
    IsFirstVisible invisibleRows max target (getFirstNewVisibleRow target invisibleRows) ↔
      TakesVisible invisibleRows target := by
  obtain ⟨row, hrow, hrowMax, hvisible⟩ := hex
  by_cases hzero : target = 0
  · subst hzero
    rw [getFirstNewVisibleRow, if_pos rfl]
    have hfirst : bitAt invisibleRows.startBit invisibleRows.spanlist 0 = invisibleRows.startBit :=
      bitAt_of_le fun x _ => Nat.zero_le x
    constructor
    · intro hfound
      exact .top rfl (hfirst ▸ hfound.visible)
    · intro hcase
      refine ⟨le_refl _, Nat.zero_le _, ?_, fun k _ hk => absurd hk (Nat.not_lt_zero k)⟩
      rw [Visible, hfirst]
      cases hcase with
      | top zero first => exact first
      | oneSpan one =>
        obtain ⟨last, hlast⟩ := List.length_eq_one_iff.1 one
        have hmax := h.last
        rw [hlast] at hmax
        obtain rfl : last = max := Option.some.inj hmax
        rw [Visible, hlast, bitAt, if_pos hrowMax] at hvisible
        exact hvisible
      | inHidden k e odd first before after => omega
      | endOfHidden k pos => exact absurd pos (Nat.not_lt_zero 0)
  have hpos : 0 < target := Nat.pos_of_ne_zero hzero
  by_cases hone : invisibleRows.spanlist.length = 1
  · rw [getFirstNewVisibleRow, if_neg hzero, if_pos hone]
    refine ⟨fun _ => .oneSpan hone, fun _ => ?_⟩
    obtain ⟨last, hlast⟩ := List.length_eq_one_iff.1 hone
    have hmax := h.last
    rw [hlast] at hmax
    obtain rfl : last = max := Option.some.inj hmax
    rw [Visible, hlast, bitAt, if_pos hrowMax] at hvisible
    refine ⟨le_refl _, hrow.trans hrowMax, ?_, fun k hk hlt => absurd hk (by omega)⟩
    rw [Visible, hlast, bitAt, if_pos (hrow.trans hrowMax)]
    exact hvisible
  have hget (i : Nat) (hi : i < invisibleRows.spanlist.length) : invisibleRows.spanlist[i]? =
      some invisibleRows.spanlist[i] :=
    List.getElem?_eq_getElem hi
  have hspan (i : Nat) (hi : i < invisibleRows.spanlist.length) :
      (target < invisibleRows.spanlist.getD i 0) ↔ target < invisibleRows.spanlist[i] := by
    rw [List.getD_eq_getElem?_getD, hget i hi, Option.getD_some]
  have hmono : ∀ i j, i < j → j < invisibleRows.spanlist.length →
    decide (target < invisibleRows.spanlist.getD i 0) = true →
      decide (target < invisibleRows.spanlist.getD j 0) = true := by
    intro i j hij hj hi
    rw [decide_eq_true_iff, hspan i (by omega)] at hi
    rw [decide_eq_true_iff, hspan j hj]
    exact hi.trans (span_lt h hij (hget i (by omega)) (hget j hj))
  rcases bound_spec hmono with ⟨i, hi, hlen, hp, hbefore⟩ | ⟨hnone, hall⟩
  · rw [decide_eq_true_iff, hspan i hlen] at hp
    cases i with
    | zero =>
      -- The old start is in the first span.
      have hfound : getFirstNewVisibleRow target invisibleRows = 0 := by
        rw [getFirstNewVisibleRow, if_neg hzero, if_neg hone, hi]
        rfl
      rw [hfound]
      refine ⟨fun hfirst => absurd hfirst.le (by omega), fun hcase => ?_⟩
      have hsmall (j x : Nat) (hj : invisibleRows.spanlist[j]? = some x) : target < x :=
        hp.trans_le (span_le h (Nat.zero_le j) (hget 0 hlen) hj)
      cases hcase with
      | top zero => exact absurd zero hzero
      | oneSpan one => exact absurd one hone
      | inHidden j x odd first before after => exact absurd (hsmall j x before) (by omega)
      | endOfHidden j pos span => exact absurd (hsmall j target span) (lt_irrefl _)
    | succ k =>
      have hk := hget k (by omega)
      have hk' := hget (k + 1) hlen
      have hfound : getFirstNewVisibleRow target invisibleRows = takenRow invisibleRows k := by
        rw [getFirstNewVisibleRow, if_neg hzero, if_neg hone, hi]
        dsimp only
        rw [if_neg (Nat.succ_ne_zero k)]
        rfl
      have hle : invisibleRows.spanlist[k] ≤ target := by
        have hnot := hbefore k (Nat.lt_succ_self k)
        rw [decide_eq_true_iff, hspan k (by omega)] at hnot
        omega
      rw [hfound]
      rcases Nat.eq_or_lt_of_le hle with heq | hlt
      · exact takenRow_atEnd h (heq ▸ hk) hk' hpos hone
      · exact takenRow_inside h hk hk' hpos hone hlt hp
  · -- Only the last row is at or after the old start.
    have hfound : getFirstNewVisibleRow target invisibleRows = 0 := by
      rw [getFirstNewVisibleRow, if_neg hzero, if_neg hone, hnone]
    have hlow (j x : Nat) (hj : invisibleRows.spanlist[j]? = some x) : x ≤ target := by
      obtain ⟨hlen, rfl⟩ := List.getElem?_eq_some_iff.1 hj
      have hnot := hall j hlen
      rw [decide_eq_true_iff, hspan j hlen] at hnot
      omega
    rw [hfound]
    refine ⟨fun hfirst => absurd hfirst.le (by omega), fun hcase => ?_⟩
    cases hcase with
    | top zero => exact absurd zero hzero
    | oneSpan one => exact absurd one hone
    | inHidden j x odd first before after last span within => exact absurd (hlow _ last span) (by omega)
    | endOfHidden j pos span hidden next => exact absurd (hlow _ _ next) (by omega)

/-- The rows 3 to 5 and the row 7 are visible. -/
def someRows : BoolSpanList where
  startBit := true
  spanlist := [2, 5, 6, 7, 9]

theorem getFirstNewVisibleRow_iff_someRows : IsFirstVisible someRows 9 6 (getFirstNewVisibleRow 6 someRows) :=
  (getFirstNewVisibleRow_iff ⟨by decide, rfl⟩ ⟨7, by decide, by decide, by unfold Visible; decide⟩).2
    (.endOfHidden 2 (by decide) rfl rfl rfl (.inl rfl))

/-- The rows 4 and 5 are filtered, and the view has started at the row 7: the row 9 is found. -/
theorem not_getFirstNewVisibleRow :
    ¬ ∀ (invisibleRows : BoolSpanList) (max target : Nat), EndsAt max invisibleRows.spanlist →
    (∃ row, target ≤ row ∧ row ≤ max ∧ Visible invisibleRows row) →
      IsFirstVisible invisibleRows max target (getFirstNewVisibleRow target invisibleRows) := by
  intro h
  have hfirst := h { startBit := false, spanlist := [3, 5, 9] } 9 7 ⟨by decide, rfl⟩
    ⟨7, by decide, by decide, by unfold Visible; decide⟩
  have hfound : getFirstNewVisibleRow 7 { startBit := false, spanlist := [3, 5, 9] } = 9 := by
    simp [getFirstNewVisibleRow, bound, boundLoop]
  rw [hfound] at hfirst
  exact hfirst.first 7 (le_refl _) (by decide) (by unfold Visible; decide)

end SheetGeometry

end CollaboraOnline
