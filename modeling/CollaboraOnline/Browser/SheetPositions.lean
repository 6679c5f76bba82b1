import Mathlib
import CollaboraOnline.Browser.SheetGeometry
import CollaboraOnline.Lib.BinarySearch

/-!
# The element at a position

The span at a position is found by a binary search in the positions of the spans, and the element in it by a division
of the span into equal parts.  The element is the one at the position where its equal part is what it really has
(`getSpanAndIndex_iff`).  Between the last whole twip of a span and its end it is the one with the maximum index, at
the end of the sheet it is behind the last one, and for tile twips the roundings of the span move the parts.
-/

namespace CollaboraOnline

open BinarySearch Rounding

variable {A : Arithmetic}

/-- A span with its first element; its last one is the `index`, and its size the `value`. -/
structure SpanViewData extends PositionedSpan where
  start : Nat
deriving DecidableEq

/-- What the searches of a `SheetDimension` read. -/
structure DimensionPositions (A : Arithmetic) where
  visibleSizes : List PositionedSpan
  twipsPerCorePixel : ℚ
  coreZoomFactor : ℚ
  maxIndex : Nat

structure DimensionPosSize where
  startpos : Int
  size : Int
deriving DecidableEq

/-- `none` is no whole number: the position in a span of the size zero is divided by zero. -/
structure IndexAndSpan where
  index : Option Int
  span : Option SpanViewData
deriving DecidableEq

namespace PositionedSpan

/-- `_getSpanData`. -/
def getSpanData (spans : List PositionedSpan) (spanid : Nat) : Option SpanViewData :=
  spans[spanid]?.map fun span =>
    { span with start := if 0 < spanid then ((spans[spanid - 1]?).map (·.index + 1)).getD 0 else 0 }

/-- The direction provider of `_searchByIndex`. -/
def indexDirection (testIndex : Int) (prevSpan : Option PositionedSpan) (curSpan : PositionedSpan) : Direction :=
  if testIndex < (prevSpan.map fun prev => (prev.index : Int) + 1).getD 0 then .before
  else if (curSpan.index : Int) < testIndex then .after
  else .here

/-- The direction provider of `_searchByCustomDataField`. -/
def fieldDirection (field : PositionedSpan → Int) (testValue : ℚ) (prevSpan : Option PositionedSpan)
    (curSpan : PositionedSpan) (nextSpan : Option PositionedSpan) : Direction :=
  if testValue < ((prevSpan.map field).getD 0 : Int) then .before
  else if ((field curSpan - if nextSpan.isSome then 1 else 0 : Int) : ℚ) < testValue then .after
  else .here

/-- What the direction provider is given at an index. -/
def directionAt (spans : List PositionedSpan)
    (provider : Option PositionedSpan → PositionedSpan → Option PositionedSpan → Direction) (i : Nat) : Direction :=
  match spans[i]? with
  | none => .before
  | some cur => provider (if 0 < i then spans[i - 1]? else none) cur spans[i + 1]?

/-- The spans in the order in which `forEachSpan` calls back. -/
def forEachSpan (spans : List PositionedSpan) : List SpanViewData :=
    (List.range spans.length).filterMap (getSpanData spans)

def getSpanDataByIndex (spans : List PositionedSpan) (index : Int) : Option SpanViewData :=
  (search (directionAt spans fun prev cur _ => indexDirection index prev cur) spans.length false).bind
  (getSpanData spans)

def getSpanDataByCustomDataField (spans : List PositionedSpan) (value : ℚ) (field : PositionedSpan → Int) :
    Option SpanViewData :=
  (search (directionAt spans (fieldDirection field value)) spans.length true).bind (getSpanData spans)

end PositionedSpan

namespace DimensionPositions

/-- The element of the span, which is divided evenly from `posStart` on. -/
def indexFrom (A : Arithmetic) (span : SpanViewData) (pos posStart sizeOne : ℚ) : Option Int :=
  if sizeOne = 0 then none else some (span.start + ⌊A.fl (A.fl (pos - posStart) / sizeOne)⌋)

/-- Where no span is found the limits are enforced. -/
def limit (g : DimensionPositions A) (pos : ℚ) : IndexAndSpan :=
  let index : Int := if 0 ≤ pos then g.maxIndex else 0
  { index := some index, span := PositionedSpan.getSpanDataByIndex g.visibleSizes index }

def getSpanAndIndexFromTileTwipsPos (g : DimensionPositions A) (pos : ℚ) : IndexAndSpan :=
  match PositionedSpan.getSpanDataByCustomDataField g.visibleSizes pos (·.postiletwips) with
  | none => g.limit pos
  | some span =>
    let elementCount : Int := span.index - span.start + 1
    let posStart := A.fl ((span.poscorepx - span.sizecore * elementCount : Int) * g.twipsPerCorePixel)
    let posEnd : ℚ := span.postiletwips
    let sizeOne := A.fl (A.fl (posEnd - posStart) / elementCount)
    { index := indexFrom A span pos posStart sizeOne, span := some span }

def getSpanAndIndexFromPrintTwipsPos (g : DimensionPositions A) (pos : ℚ) : IndexAndSpan :=
  match PositionedSpan.getSpanDataByCustomDataField g.visibleSizes pos (·.posprinttwips) with
  | none => g.limit pos
  | some span =>
    let elementCount : Int := span.index - span.start + 1
    let posStart : ℚ := (span.posprinttwips - span.value * elementCount : Int)
    let sizeOne : ℚ := span.value
    { index := indexFrom A span pos posStart sizeOne, span := some span }

inductive GeometryUnit
  | tiletwips
  | printtwips
deriving DecidableEq

/-- `none` where the span does not have the element. -/
def getElementDataAnyFromSpanByIndex (g : DimensionPositions A) (index : Int) (span : Option SpanViewData)
    (unitName : GeometryUnit) : Option DimensionPosSize :=
  match span with
  | none => none
  | some span =>
    if index < span.start ∨ (span.index : Int) < index then none
    else
      let numSizes : Int := span.index - index + 1
      match unitName with
      | .printtwips => some { startpos := span.posprinttwips - span.value * numSizes, size := span.value }
      | .tiletwips =>
        some { startpos := ⌊A.fl ((span.poscorepx - span.sizecore * numSizes : Int) * g.twipsPerCorePixel)⌋
               size := ⌊A.fl (span.sizecore * g.twipsPerCorePixel)⌋ }

/-- The position `pos` of the element in the one unit, in the other unit; `none` where there is no data of the element
to read, or where its index is not a number. -/
def convert (g : DimensionPositions A) (element : IndexAndSpan) (pos : ℚ) (source target : GeometryUnit) : Option ℚ :=
  element.index.bind fun index =>
    (g.getElementDataAnyFromSpanByIndex index element.span source).bind fun elementDataSource =>
      (g.getElementDataAnyFromSpanByIndex index element.span target).map fun elementDataTarget =>
        A.fl (elementDataTarget.startpos + A.fl (pos - elementDataSource.startpos))

/-- `getTileTwipsPosFromPrint` at the current zoom. -/
def getTileTwipsPosFromPrint (g : DimensionPositions A) (posPT : ℚ) : Option ℚ :=
  g.convert (g.getSpanAndIndexFromPrintTwipsPos posPT) posPT .printtwips .tiletwips

def getPrintTwipsPosFromTile (g : DimensionPositions A) (posTT : ℚ) : Option ℚ :=
  g.convert (g.getSpanAndIndexFromTileTwipsPos posTT) posTT .tiletwips .printtwips

end DimensionPositions

/-! ### The spans -/

namespace PositionedSpan

/-- The view is one of the spans. -/
def IsSpan (spans : List PositionedSpan) (v : SpanViewData) : Prop := ∃ spanid, getSpanData spans spanid = some v

/-- The first element of the span. -/
def startAt (spans : List PositionedSpan) (spanid : Nat) : Nat :=
  if 0 < spanid then ((spans[spanid - 1]?).map (·.index + 1)).getD 0 else 0

variable {spans : List PositionedSpan} {field : PositionedSpan → Int} {P : Nat → Int} {max i j spanid : Nat}
  {s t : PositionedSpan} {v : SpanViewData} {p : ℚ}

theorem getSpanData_eq_some : getSpanData spans spanid = some v ↔
    ∃ s, spans[spanid]? = some s ∧ v = { s with start := startAt spans spanid } := by
  unfold getSpanData
  rw [Option.map_eq_some_iff]
  exact ⟨fun ⟨s, hs, hv⟩ => ⟨s, hs, hv.symm⟩, fun ⟨s, hs, hv⟩ => ⟨s, hs, hv.symm⟩⟩

theorem index_lt_of_lt (h : EndsAt max (spans.map (·.index))) (hij : i < j) (hs : spans[i]? = some s)
    (ht : spans[j]? = some t) : s.index < t.index := by
  obtain ⟨hi, rfl⟩ := List.getElem?_eq_some_iff.1 hs
  obtain ⟨hj, rfl⟩ := List.getElem?_eq_some_iff.1 ht
  have hlt := List.pairwise_iff_getElem.1 h.sorted i j (by simpa using hi) (by simpa using hj) hij
  simpa using hlt

theorem index_le (h : EndsAt max (spans.map (·.index))) (hs : spans[i]? = some s) : s.index ≤ max :=
  h.le s.index (List.mem_map_of_mem (List.mem_of_getElem? hs))

/-- A span is the last one where it ends with the last element. -/
theorem index_lt_iff (h : EndsAt max (spans.map (·.index))) (hs : spans[i]? = some s) :
    i + 1 < spans.length ↔ s.index < max := by
  constructor
  · intro hi
    have ht : spans[i + 1]? = some (spans[i + 1]) := List.getElem?_eq_getElem hi
    exact (index_lt_of_lt h (Nat.lt_succ_self i) hs ht).trans_le (index_le h ht)
  · intro hlt
    by_contra hlen
    obtain ⟨hi, rfl⟩ := List.getElem?_eq_some_iff.1 hs
    have hlast := h.last
    rw [List.getLast?_map, List.getLast?_eq_getElem?, show spans.length - 1 = i by omega, hs] at hlast
    have hmax : (spans[i]).index = max := Option.some.inj hlast
    omega

theorem startAt_succ (hs : spans[i]? = some s) : startAt spans (i + 1) = s.index + 1 := by
  unfold startAt
  rw [if_pos (Nat.succ_pos i), Nat.add_sub_cancel, hs]
  rfl

theorem startAt_le (h : EndsAt max (spans.map (·.index))) (hs : spans[i]? = some s) : startAt spans i ≤ s.index := by
  cases i with
  | zero => exact Nat.zero_le _
  | succ i =>
    have hi : i < spans.length := by
      have := (List.getElem?_eq_some_iff.1 hs).1
      omega
    have ht : spans[i]? = some (spans[i]) := List.getElem?_eq_getElem hi
    rw [startAt_succ ht]
    exact index_lt_of_lt h (Nat.lt_succ_self i) ht hs

/-- A span starts after those before it. -/
theorem lt_startAt (h : EndsAt max (spans.map (·.index))) (hij : i < j) (hj : j < spans.length)
    (hs : spans[i]? = some s) : s.index < startAt spans j := by
  obtain ⟨k, rfl⟩ : ∃ k, j = k + 1 := ⟨j - 1, by omega⟩
  have ht : spans[k]? = some (spans[k]) := List.getElem?_eq_getElem (by omega)
  rw [startAt_succ ht]
  rcases Nat.eq_or_lt_of_le (Nat.le_of_lt_succ hij) with rfl | hik
  · rw [hs] at ht
    rw [← Option.some.inj ht]
    exact Nat.lt_succ_self _
  · exact Nat.lt_succ_of_lt (index_lt_of_lt h hik hs ht)

/-- Every element is in a span. -/
theorem exists_isSpan (h : EndsAt max (spans.map (·.index))) (hi : i ≤ max) :
    ∃ v, IsSpan spans v ∧ v.start ≤ i ∧ i ≤ v.index := by
  have hex : ∃ j : Nat, ∃ s : PositionedSpan, spans[j]? = some s ∧ i ≤ s.index := by
    have hlast := h.last
    rw [List.getLast?_map] at hlast
    obtain ⟨s, hs, hmax⟩ := Option.map_eq_some_iff.1 hlast
    rw [List.getLast?_eq_getElem?] at hs
    exact ⟨_, s, hs, hmax ▸ hi⟩
  classical
  obtain ⟨s, hs, his⟩ := Nat.find_spec hex
  refine ⟨{ s with start := startAt spans (Nat.find hex) }, ⟨_, getSpanData_eq_some.2 ⟨s, hs, rfl⟩⟩, ?_, his⟩
  show startAt spans (Nat.find hex) ≤ i
  cases hfind : Nat.find hex with
  | zero => exact Nat.zero_le _
  | succ j =>
    have hj : j < spans.length := by
      have := (List.getElem?_eq_some_iff.1 hs).1
      omega
    have ht : spans[j]? = some (spans[j]) := List.getElem?_eq_getElem hj
    rw [startAt_succ ht]
    have hnot := Nat.find_min hex (show j < Nat.find hex by omega)
    by_contra hle
    exact hnot ⟨_, ht, by omega⟩

/-- The size in the span is the size of its elements. -/
theorem sizeAt_eq (hbefore : ∀ k < j, ∀ t, spans[k]? = some t → t.index < i) (hs : spans[j]? = some s)
    (hi : i ≤ s.index) : sizeAt (spans.map (·.toSpanData)) i = s.value := by
  induction spans generalizing j with
  | nil =>
    rw [List.getElem?_nil] at hs
    cases hs
  | cons t spans ih =>
    rw [List.map_cons, sizeAt]
    cases j with
    | zero =>
      obtain rfl : t = s := Option.some.inj hs
      rw [if_pos hi]
    | succ j =>
      rw [if_neg (by have := hbefore 0 (Nat.succ_pos j) t rfl; omega)]
      exact ih (fun k hk u hu => hbefore (k + 1) (Nat.succ_lt_succ hk) u hu) hs

theorem IsSpan.sizeAt_eq (h : EndsAt max (spans.map (·.index))) (hv : IsSpan spans v) (hstart : v.start ≤ i)
    (hi : i ≤ v.index) : sizeAt (spans.map (·.toSpanData)) i = v.value := by
  obtain ⟨j, hj⟩ := hv
  obtain ⟨s, hs, rfl⟩ := getSpanData_eq_some.1 hj
  refine PositionedSpan.sizeAt_eq (fun k hk t ht => ?_) hs hi
  exact (lt_startAt h hk (List.getElem?_eq_some_iff.1 hs).1 ht).trans_le hstart

theorem IsSpan.start_le (h : EndsAt max (spans.map (·.index))) (hv : IsSpan spans v) : v.start ≤ v.index := by
  obtain ⟨j, hj⟩ := hv
  obtain ⟨s, hs, rfl⟩ := getSpanData_eq_some.1 hj
  exact startAt_le h hs

theorem IsSpan.index_le (h : EndsAt max (spans.map (·.index))) (hv : IsSpan spans v) : v.index ≤ max := by
  obtain ⟨j, hj⟩ := hv
  obtain ⟨s, hs, rfl⟩ := getSpanData_eq_some.1 hj
  exact PositionedSpan.index_le h hs

theorem IsSpan.lt_start {u : SpanViewData} (h : EndsAt max (spans.map (·.index))) (hu : IsSpan spans u)
    (hv : IsSpan spans v) (hlt : u.index < v.index) : u.index < v.start := by
  obtain ⟨i, hi⟩ := hu
  obtain ⟨s, hs, rfl⟩ := getSpanData_eq_some.1 hi
  obtain ⟨j, hj⟩ := hv
  obtain ⟨t, ht, rfl⟩ := getSpanData_eq_some.1 hj
  have hlt : s.index < t.index := hlt
  rcases Nat.lt_trichotomy i j with hij | rfl | hji
  · exact lt_startAt h hij (List.getElem?_eq_some_iff.1 ht).1 hs
  · rw [hs] at ht
    rw [Option.some.inj ht] at hlt
    exact absurd hlt (lt_irrefl _)
  · exact absurd (index_lt_of_lt h hji ht hs) (by omega)

theorem mem_forEachSpan : v ∈ forEachSpan spans ↔ IsSpan spans v := by
  unfold forEachSpan IsSpan
  rw [List.mem_filterMap]
  refine exists_congr fun spanid => and_iff_right_of_imp fun hv => ?_
  obtain ⟨s, hs, -⟩ := getSpanData_eq_some.1 hv
  exact List.mem_range.2 (List.getElem?_eq_some_iff.1 hs).1

theorem pairwise_forEachSpan (h : EndsAt max (spans.map (·.index))) :
    (forEachSpan spans).Pairwise fun u v => u.index < v.start := by
  unfold forEachSpan
  rw [List.pairwise_filterMap]
  refine List.pairwise_lt_range.imp fun hij u hu v hv => ?_
  obtain ⟨s, hs, rfl⟩ := getSpanData_eq_some.1 hu
  obtain ⟨t, ht, rfl⟩ := getSpanData_eq_some.1 hv
  exact lt_startAt h hij (List.getElem?_eq_some_iff.1 ht).1 hs

theorem IsSpan.mem (hv : IsSpan spans v) : v.toPositionedSpan ∈ spans := by
  obtain ⟨j, hj⟩ := hv
  obtain ⟨s, hs, rfl⟩ := getSpanData_eq_some.1 hj
  exact List.mem_of_getElem? hs

/-! ### The searches -/

theorem directionAt_index_eq {n : Int} (hs : spans[i]? = some s) :
    directionAt spans (fun prev cur _ => indexDirection n prev cur) i =
      if n < startAt spans i then .before else if (s.index : Int) < n then .after else .here := by
  have hprev : ((if 0 < i then spans[i - 1]? else none).map fun prev => (prev.index : Int) + 1).getD 0 =
      startAt spans i := by
    unfold startAt
    split
    · cases spans[i - 1]? with
      | none => rfl
      | some prev => rfl
    · rfl
  unfold directionAt indexDirection
  rw [hs]
  dsimp only
  rw [hprev]

theorem search_index_iff (h : EndsAt max (spans.map (·.index))) {n : Int} {first : Bool} :
    search (directionAt spans fun prev cur _ => indexDirection n prev cur) spans.length first = some spanid ↔
      ∃ v, getSpanData spans spanid = some v ∧ (v.start : Int) ≤ n ∧ n ≤ v.index := by
  have hbefore (j k : Nat) (hjk : j < k) (hk : k < spans.length)
      (hdir : directionAt spans (fun prev cur _ => indexDirection n prev cur) k ≠ .before) :
      directionAt spans (fun prev cur _ => indexDirection n prev cur) j = .after := by
    have hs : spans[j]? = some (spans[j]) := List.getElem?_eq_getElem (hjk.trans hk)
    have hlt := lt_startAt h hjk hk hs
    have hle := startAt_le h hs
    rw [directionAt_index_eq (List.getElem?_eq_getElem hk)] at hdir
    have hstart : ¬ n < startAt spans k := fun hn => hdir (if_pos hn)
    rw [directionAt_index_eq hs, if_neg (by omega), if_pos (by omega)]
  have hsorted : Sorted (directionAt spans fun prev cur _ => indexDirection n prev cur) spans.length := by
    refine ⟨fun j k hjk hk hdir => hbefore j k hjk hk (by rw [hdir]; decide), fun j k hjk hk hdir => ?_⟩
    by_contra hne
    rw [hbefore j k hjk hk hne] at hdir
    cases hdir
  have hunique (j k : Nat) (hj : j < spans.length) (hk : k < spans.length)
      (hj' : directionAt spans (fun prev cur _ => indexDirection n prev cur) j = .here)
      (hk' : directionAt spans (fun prev cur _ => indexDirection n prev cur) k = .here) : j = k := by
    rcases Nat.lt_trichotomy j k with hlt | heq | hlt
    · rw [hbefore j k hlt hk (by rw [hk']; decide)] at hj'
      cases hj'
    · exact heq
    · rw [hbefore k j hlt hj (by rw [hj']; decide)] at hk'
      cases hk'
  rw [search_eq_some_iff hsorted first hunique]
  constructor
  · rintro ⟨hlt, hhere⟩
    have hs : spans[spanid]? = some (spans[spanid]) := List.getElem?_eq_getElem hlt
    refine ⟨_, getSpanData_eq_some.2 ⟨_, hs, rfl⟩, ?_⟩
    rw [directionAt_index_eq hs] at hhere
    split at hhere
    · cases hhere
    · rename_i hstart
      split at hhere
      · cases hhere
      · rename_i hend
        exact ⟨not_lt.1 hstart, not_lt.1 hend⟩
  · rintro ⟨v, hv, hstart, hend⟩
    obtain ⟨s, hs, rfl⟩ := getSpanData_eq_some.1 hv
    refine ⟨(List.getElem?_eq_some_iff.1 hs).1, ?_⟩
    rw [directionAt_index_eq hs, if_neg (not_lt.2 hstart), if_neg (not_lt.2 hend)]

/-- The span by an index is the one that has the element. -/
theorem getSpanDataByIndex_eq_some (h : EndsAt max (spans.map (·.index))) {n : Int} :
    getSpanDataByIndex spans n = some v ↔ IsSpan spans v ∧ (v.start : Int) ≤ n ∧ n ≤ v.index := by
  unfold getSpanDataByIndex
  rw [Option.bind_eq_some_iff]
  constructor
  · rintro ⟨spanid, hfound, hv⟩
    obtain ⟨u, hu, hin⟩ := (search_index_iff h).1 hfound
    rw [hu] at hv
    obtain rfl : u = v := Option.some.inj hv
    exact ⟨⟨spanid, hu⟩, hin⟩
  · rintro ⟨⟨spanid, hv⟩, hin⟩
    exact ⟨spanid, (search_index_iff h).2 ⟨v, hv, hin⟩, hv⟩

/-- The field has the position of the end of every span. -/
structure EndsOf (max : Nat) (spans : List PositionedSpan) (field : PositionedSpan → Int) (P : Nat → Int) : Prop where
  ends : EndsAt max (spans.map (·.index))
  zero : P 0 = 0
  mono : Monotone P
  field_eq : ∀ s ∈ spans, field s = P (s.index + 1)

theorem EndsOf.prev_eq (h : EndsOf max spans field P) (hi : i < spans.length) :
    ((if 0 < i then spans[i - 1]? else none).map field).getD 0 = P (startAt spans i) := by
  cases i with
  | zero => exact h.zero.symm
  | succ i =>
    have hs : spans[i]? = some (spans[i]) := List.getElem?_eq_getElem (by omega)
    rw [if_pos (Nat.succ_pos i), Nat.add_sub_cancel, startAt_succ hs, hs, Option.map_some, Option.getD_some]
    exact h.field_eq _ (List.mem_of_getElem? hs)

/-- The end up to which a position is found in the span. -/
def foundUpTo (max : Nat) (P : Nat → Int) (index : Nat) : Int := P (index + 1) - if index < max then 1 else 0

theorem EndsOf.directionAt_eq (h : EndsOf max spans field P) (p : ℚ) (hs : spans[i]? = some s) :
    directionAt spans (fieldDirection field p) i =
      if p < P (startAt spans i) then .before else if (foundUpTo max P s.index : ℚ) < p then .after else .here := by
  have hi := (List.getElem?_eq_some_iff.1 hs).1
  have hnext : (spans[i + 1]?).isSome = decide (s.index < max) := by
    rw [Bool.eq_iff_iff, decide_eq_true_iff, ← index_lt_iff h.ends hs]
    simp
  unfold directionAt fieldDirection foundUpTo
  rw [hs]
  dsimp only
  rw [h.prev_eq hi, h.field_eq s (List.mem_of_getElem? hs), hnext]
  simp only [decide_eq_true_iff]

theorem EndsOf.le_start (h : EndsOf max spans field P) (hij : i < j) (hj : j < spans.length)
    (hs : spans[i]? = some s) : P (s.index + 1) ≤ P (startAt spans j) := h.mono (lt_startAt h.ends hij hj hs)

theorem foundUpTo_lt (hlt : s.index < max) : foundUpTo max P s.index < P (s.index + 1) := by
  unfold foundUpTo
  rw [if_pos hlt]
  omega

/-- After a span that is not before the position everything earlier is. -/
theorem EndsOf.after (h : EndsOf max spans field P) (hij : i < j) (hj : j < spans.length)
    (hdir : directionAt spans (fieldDirection field p) j ≠ .before) :
      directionAt spans (fieldDirection field p) i = .after := by
  have hs : spans[i]? = some (spans[i]) := List.getElem?_eq_getElem (hij.trans hj)
  have ht : spans[j]? = some (spans[j]) := List.getElem?_eq_getElem hj
  generalize spans[i] = s at hs
  have hstart : (P (startAt spans j) : ℚ) ≤ p := by
    by_contra hlt
    rw [h.directionAt_eq p ht, if_pos (not_le.1 hlt)] at hdir
    exact hdir rfl
  have hbefore : (P (startAt spans i) : ℚ) ≤ p := by
    refine le_trans (Int.cast_le.2 (h.mono ?_)) hstart
    exact (startAt_le h.ends hs).trans (lt_startAt h.ends hij hj hs).le
  have hend : (foundUpTo max P s.index : ℚ) < p := by
    have hlt : s.index < max := (index_lt_iff h.ends hs).1 (by omega)
    exact lt_of_lt_of_le (Int.cast_lt.2 (foundUpTo_lt hlt)) ((Int.cast_le.2 (h.le_start hij hj hs)).trans hstart)
  rw [h.directionAt_eq p hs, if_neg (not_lt.2 hbefore), if_pos hend]

theorem EndsOf.sorted (h : EndsOf max spans field P) (p : ℚ) :
    Sorted (directionAt spans (fieldDirection field p)) spans.length := by
  constructor
  · intro i j hij hj hafter
    refine h.after hij hj ?_
    rw [hafter]
    decide
  · intro i j hij hj hbefore
    by_contra hne
    have hafter := h.after hij hj hne
    rw [hbefore] at hafter
    cases hafter

/-- A position is found in at most one span. -/
theorem EndsOf.found_iff (h : EndsOf max spans field P) : getSpanDataByCustomDataField spans p field = some v ↔
    IsSpan spans v ∧ (P v.start : ℚ) ≤ p ∧ p ≤ foundUpTo max P v.index := by
  have hunique : ∀ i j, i < spans.length → j < spans.length → directionAt spans (fieldDirection field p) i = .here →
      directionAt spans (fieldDirection field p) j = .here → i = j := by
    intro i j hi hj hhere hhere'
    rcases Nat.lt_trichotomy i j with hlt | heq | hlt
    · have hafter := h.after hlt hj (by rw [hhere']; decide)
      rw [hhere] at hafter
      cases hafter
    · exact heq
    · have hafter := h.after hlt hi (by rw [hhere]; decide)
      rw [hhere'] at hafter
      cases hafter
  have hat (i : Nat) (s : PositionedSpan) (hs : spans[i]? = some s) :
      directionAt spans (fieldDirection field p) i = .here ↔
        (P (startAt spans i) : ℚ) ≤ p ∧ p ≤ foundUpTo max P s.index := by
    rw [h.directionAt_eq p hs]
    by_cases hstart : p < P (startAt spans i)
    · rw [if_pos hstart]
      exact ⟨fun hhere => (by cases hhere), fun hle => absurd hle.1 (not_le.2 hstart)⟩
    · rw [if_neg hstart]
      by_cases hend : (foundUpTo max P s.index : ℚ) < p
      · rw [if_pos hend]
        exact ⟨fun hhere => (by cases hhere), fun hle => absurd hle.2 (not_le.2 hend)⟩
      · rw [if_neg hend]
        exact ⟨fun _ => ⟨not_lt.1 hstart, not_lt.1 hend⟩, fun _ => rfl⟩
  unfold getSpanDataByCustomDataField
  rw [Option.bind_eq_some_iff]
  constructor
  · rintro ⟨i, hi, hv⟩
    obtain ⟨-, hhere⟩ := (search_eq_some_iff (h.sorted p) true hunique).1 hi
    obtain ⟨s, hs, rfl⟩ := getSpanData_eq_some.1 hv
    exact ⟨⟨i, hv⟩, (hat i s hs).1 hhere⟩
  · rintro ⟨⟨i, hv⟩, hle⟩
    obtain ⟨s, hs, rfl⟩ := getSpanData_eq_some.1 hv
    exact ⟨i, (search_eq_some_iff (h.sorted p) true hunique).2
      ⟨(List.getElem?_eq_some_iff.1 hs).1, (hat i s hs).2 hle⟩, hv⟩

/-- No span has the positions after the last whole twip of a span that is not the last one. -/
def BetweenSpans (max : Nat) (spans : List PositionedSpan) (P : Nat → Int) (p : ℚ) : Prop :=
  ∃ v, IsSpan spans v ∧ v.index < max ∧ (P (v.index + 1) : ℚ) - 1 < p ∧ p < P (v.index + 1)

/-- A position before the total is in one element. -/
theorem exists_element (hzero : P 0 = 0) {n : Nat} (hp0 : 0 ≤ p) (hp : p < P n) :
    ∃ i < n, (P i : ℚ) ≤ p ∧ p < P (i + 1) := by
  induction n with
  | zero =>
    rw [hzero, Int.cast_zero] at hp
    exact absurd hp (not_lt.2 hp0)
  | succ n ih =>
    by_cases hlt : p < P n
    · obtain ⟨i, hi, hle⟩ := ih hlt
      exact ⟨i, by omega, hle⟩
    · exact ⟨n, Nat.lt_succ_self n, not_lt.1 hlt, hp⟩

/-- Away from the spans' last twips the span of the element is found. -/
theorem EndsOf.found_of_element (h : EndsOf max spans field P) (hbetween : ¬ BetweenSpans max spans P p)
    (hv : IsSpan spans v) (hstart : v.start ≤ i) (hend : i ≤ v.index) (hle : (P i : ℚ) ≤ p) (hlt : p < P (i + 1)) :
    getSpanDataByCustomDataField spans p field = some v := by
  have hlast : p < P (v.index + 1) := hlt.trans_le (Int.cast_le.2 (h.mono (by omega)))
  refine h.found_iff.2 ⟨hv, (Int.cast_le.2 (h.mono hstart)).trans hle, ?_⟩
  unfold foundUpTo
  by_cases hmax : v.index < max
  · rw [if_pos hmax, Int.cast_sub, Int.cast_one]
    exact not_lt.1 fun hgap => hbetween ⟨v, hv, hmax, hgap, hlast⟩
  · rw [if_neg hmax, Int.sub_zero]
    exact hlast.le

/-- The total is found in the last span. -/
theorem EndsOf.found_total (h : EndsOf max spans field P) (hv : IsSpan spans v) (hlast : v.index = max) :
    getSpanDataByCustomDataField spans (P (max + 1)) field = some v := by
  have hstart := (hv.start_le h.ends).trans hlast.le
  refine h.found_iff.2 ⟨hv, Int.cast_le.2 (h.mono (hstart.trans (Nat.le_succ max))), ?_⟩
  unfold foundUpTo
  rw [if_neg (by omega), Int.sub_zero, hlast]

theorem EndsOf.not_found_iff (h : EndsOf max spans field P) (hp0 : 0 ≤ p) (hp : p ≤ P (max + 1)) :
    getSpanDataByCustomDataField spans p field = none ↔ BetweenSpans max spans P p := by
  constructor
  · intro hnone
    by_contra hbetween
    rcases hp.lt_or_eq with hlt | heq
    · obtain ⟨i, hi, hle, hin⟩ := exists_element h.zero hp0 hlt
      obtain ⟨v, hv, hstart, hend⟩ := exists_isSpan h.ends (Nat.le_of_lt_succ hi)
      rw [h.found_of_element hbetween hv hstart hend hle hin] at hnone
      cases hnone
    · obtain ⟨v, hv, -, hend⟩ := exists_isSpan h.ends (le_refl max)
      rw [heq, h.found_total hv (le_antisymm (hv.index_le h.ends) hend)] at hnone
      cases hnone
  · rintro ⟨u, hu, humax, hgap, hulast⟩
    rw [Option.eq_none_iff_forall_ne_some]
    intro w hfound
    obtain ⟨hw, hwstart, hwend⟩ := h.found_iff.1 hfound
    by_cases hlater : u.index < w.index
    · have hmono := Int.cast_le (R := ℚ) |>.2 (h.mono (hu.lt_start h.ends hw hlater))
      exact absurd (hwstart.trans_lt hulast) (not_lt.2 hmono)
    · unfold foundUpTo at hwend
      rw [if_pos (by omega), Int.cast_sub, Int.cast_one] at hwend
      have hmono := Int.cast_le (R := ℚ) |>.2 (h.mono (show w.index + 1 ≤ u.index + 1 by omega))
      linarith

end PositionedSpan

/-! ### The lookups -/

namespace DimensionPositions

open PositionedSpan

/-- The element is visible and its half-open interval has the position; the last one has the total too. -/
def HasPosition (visible : Nat → Bool) (P : Nat → Int) (max : Nat) (p : ℚ) (i : Nat) : Prop :=
  visible i = true ∧ (P i : ℚ) ≤ p ∧ (p < P (i + 1) ∨ p = P (max + 1) ∧ P (i + 1) = P (max + 1))

/-- The lookup gives a span and an element of it that has the position, and that is not above the maximum index. -/
def IsElementAt (visible : Nat → Bool) (P : Nat → Int) (max maxIndex : Nat) (p : ℚ) (r : IndexAndSpan) : Prop :=
  ∃ (i : Nat) (span : SpanViewData), r.index = some (i : Int) ∧ r.span = some span ∧ span.start ≤ i ∧ i ≤ span.index ∧
    i ≤ maxIndex ∧ HasPosition visible P max p i

/-- What the two lookups share. -/
def lookup (g : DimensionPositions A) (field : PositionedSpan → Int) (index : SpanViewData → ℚ → Option Int)
    (pos : ℚ) : IndexAndSpan :=
  match getSpanDataByCustomDataField g.visibleSizes pos field with
  | none => g.limit pos
  | some span => { index := index span pos, span := some span }

variable {g : DimensionPositions A} {field : PositionedSpan → Int} {P : Nat → Int}
  {index : SpanViewData → ℚ → Option Int} {visible : Nat → Bool} {p : ℚ} {v : SpanViewData} {max i j : Nat}

theorem lookup_of_found (h : getSpanDataByCustomDataField g.visibleSizes p field = some v) :
    g.lookup field index p = { index := index v p, span := some v } := by
  unfold lookup
  rw [h]

theorem lookup_of_none (h : getSpanDataByCustomDataField g.visibleSizes p field = none) :
    g.lookup field index p = g.limit p := by
  unfold lookup
  rw [h]

/-- The lookup gives an element that has the position: between spans the one with the maximum index, and elsewhere the
one that is computed in the span. -/
theorem lookup_iff (h : EndsOf max g.visibleSizes field P) (hp0 : 0 ≤ p) (hp : p ≤ P (max + 1)) :
    IsElementAt visible P max g.maxIndex p (g.lookup field index p) ↔
      ∃ (i : Nat) (v : SpanViewData), IsSpan g.visibleSizes v ∧ v.start ≤ i ∧ i ≤ v.index ∧ i ≤ g.maxIndex ∧
        HasPosition visible P max p i ∧ (BetweenSpans max g.visibleSizes P p → i = g.maxIndex) ∧
          (¬ BetweenSpans max g.visibleSizes P p →
            (p = P (max + 1) → v.index = max) ∧ index v p = some (i : Int)) := by
  by_cases hbetween : BetweenSpans max g.visibleSizes P p
  · have hlimit : (g.limit p).index = some (g.maxIndex : Int) := by
      unfold limit
      rw [if_pos hp0]
    have hspan (v : SpanViewData) : (g.limit p).span = some v ↔
        IsSpan g.visibleSizes v ∧ (v.start : Int) ≤ g.maxIndex ∧ (g.maxIndex : Int) ≤ v.index := by
      rw [← getSpanDataByIndex_eq_some h.ends]
      unfold limit
      rw [if_pos hp0]
    rw [lookup_of_none ((h.not_found_iff hp0 hp).2 hbetween)]
    constructor
    · rintro ⟨i, v, hindex, hv, hstart, hend, hmax, hat⟩
      rw [hlimit] at hindex
      exact ⟨i, v, ((hspan v).1 hv).1, hstart, hend, hmax, hat,
        fun _ => (Int.natCast_inj.1 (Option.some.inj hindex)).symm, fun hnot => absurd hbetween hnot⟩
    · rintro ⟨i, v, hv, hstart, hend, hmax, hat, hlast, -⟩
      obtain rfl := hlast hbetween
      exact ⟨_, v, hlimit, (hspan v).2 ⟨hv, Int.ofNat_le.2 hstart, Int.ofNat_le.2 hend⟩, hstart, hend, hmax, hat⟩
  · obtain ⟨w, hw⟩ := Option.ne_none_iff_exists'.1 ((h.not_found_iff hp0 hp).not.2 hbetween)
    rw [lookup_of_found hw]
    constructor
    · rintro ⟨i, v, hindex, hv, hstart, hend, hmax, hat⟩
      obtain rfl : w = v := Option.some.inj hv
      obtain ⟨hspan, -, hfound⟩ := h.found_iff.1 hw
      refine ⟨i, w, hspan, hstart, hend, hmax, hat, fun hb => absurd hb hbetween, fun _ => ⟨fun htotal => ?_, hindex⟩⟩
      by_contra hne
      have hlt := lt_of_le_of_ne (hspan.index_le h.ends) hne
      have hmono : (P (w.index + 1) : ℚ) ≤ P (max + 1) := Int.cast_le.2 (h.mono (Nat.succ_le_succ hlt.le))
      have hbefore : (foundUpTo max P w.index : ℚ) < P (w.index + 1) := by
        unfold foundUpTo
        rw [if_pos hlt]
        push_cast
        linarith
      linarith
    · rintro ⟨i, v, hv, hstart, hend, hmax, hat, -, hin⟩
      obtain ⟨htotal, hindex⟩ := hin hbetween
      have hfound : getSpanDataByCustomDataField g.visibleSizes p field = some v := by
        rcases hat.2.2 with hlt | ⟨heq, -⟩
        · exact h.found_of_element hbetween hv hstart hend hat.2.1 hlt
        · rw [heq]
          exact h.found_total hv (htotal heq)
      obtain rfl := Option.some.inj (hw.symm.trans hfound)
      exact ⟨i, w, hindex, rfl, hstart, hend, hmax, hat⟩

theorem lookup_congr {index' : SpanViewData → ℚ → Option Int} (h : EndsOf max g.visibleSizes field P)
    (hindex : ∀ v, IsSpan g.visibleSizes v → (P v.start : ℚ) ≤ p → index v p = index' v p) :
    g.lookup field index p = g.lookup field index' p := by
  cases hfound : getSpanDataByCustomDataField g.visibleSizes p field with
  | none => rw [lookup_of_none hfound, lookup_of_none hfound]
  | some v =>
    obtain ⟨hv, hstart, -⟩ := h.found_iff.1 hfound
    rw [lookup_of_found hfound, lookup_of_found hfound, hindex v hv hstart]

/-- An element that the span has is converted. -/
theorem convert_isSome {maxIndex : Nat} {r : IndexAndSpan} (h : IsElementAt visible P max maxIndex p r)
    (source target : GeometryUnit) : (g.convert r p source target).isSome := by
  obtain ⟨i, span, hindex, hspan, hstart, hend, -⟩ := h
  have hdata (unitName : GeometryUnit) : ∃ data, g.getElementDataAnyFromSpanByIndex i (some span) unitName =
      some data := by
    unfold getElementDataAnyFromSpanByIndex
    dsimp only
    rw [if_neg (by omega)]
    cases unitName with
    | tiletwips => exact ⟨_, rfl⟩
    | printtwips => exact ⟨_, rfl⟩
  obtain ⟨dataSource, hsource⟩ := hdata source
  obtain ⟨dataTarget, htarget⟩ := hdata target
  unfold convert
  rw [hindex, hspan, Option.bind_some, hsource, Option.bind_some, htarget]
  rfl

/-- In the exact arithmetic an element is computed where the position is in its equal part. -/
theorem indexFrom_exact_iff {pos start size : ℚ} (hsize : 0 < size) :
    indexFrom .exact v pos start size = some (i : Int) ↔
      (i - v.start : ℚ) * size ≤ pos - start ∧ pos - start < (i - v.start + 1 : ℚ) * size := by
  unfold indexFrom
  rw [if_neg hsize.ne', Option.some.injEq]
  have hfloor : (v.start : Int) + ⌊(pos - start) / size⌋ = i ↔ ⌊(pos - start) / size⌋ = (i - v.start : Int) := by
    omega
  rw [Arithmetic.exact_fl, Arithmetic.exact_fl, hfloor, Int.floor_eq_iff, le_div_iff₀ hsize, div_lt_iff₀ hsize]
  push_cast
  rfl

/-- In doubles an element is computed where the quotient is between the middles before it and before the next one. -/
theorem indexFrom_binary64_iff {k : Nat} {pos start size : ℚ} (hk : 2 * (k + 1) ≤ 2 ^ 53) :
    indexFrom .binary64 v pos start size = some ((v.start + k : Nat) : Int) ↔
      size ≠ 0 ∧ cut 53 k ≤ Arithmetic.binary64.fl (pos - start) / size ∧
        Arithmetic.binary64.fl (pos - start) / size < cut 53 (k + 1) := by
  have hlow := natCast_le_round_iff (x := Arithmetic.binary64.fl (pos - start) / size) (p := 53) (k := k) (by omega)
  have hhigh := natCast_le_round_iff (x := Arithmetic.binary64.fl (pos - start) / size) (p := 53) (k := k + 1) hk
  unfold indexFrom
  by_cases hsize : size = 0
  · rw [if_pos hsize]
    exact iff_of_false (fun h => by cases h) fun h => h.1 hsize
  · rw [if_neg hsize, Option.some.injEq, and_iff_right hsize, ← hlow, ← not_le, ← hhigh, Nat.cast_add,
      Int.add_right_inj, Int.floor_eq_iff, not_le]
    push_cast
    rfl

end DimensionPositions

/-! ### The positions of the elements -/

namespace SheetDimension

open PositionedSpan DimensionPositions

/-- Sizes are not negative and a tile has a size. -/
structure Measured (d : SheetDimension A) (max : Nat) : Prop extends d.WellFormed max where
  sizes_nonneg : ∀ s ∈ d.sizes.spanlist, 0 ≤ s.value
  tileSizeTwips_pos : 0 < d.tileSizeTwips
  tileSizePixels_pos : 0 < d.tileSizePixels

/-- `_coreZoomFactor`, of `setTileGeometryData`: fifteen twips are a pixel of the document. -/
def coreZoomFactor (d : SheetDimension A) : ℚ := A.fl (A.fl (d.tileSizePixels * 15) / d.tileSizeTwips)

def isVisible (d : SheetDimension A) (i : Nat) : Bool :=
  !(bitAt d.hidden.startBit d.hidden.spanlist i || bitAt d.filtered.startBit d.filtered.spanlist i)

/-- Where the element starts, in core pixels. -/
def corePixelPos (d : SheetDimension A) (i : Nat) : Int :=
  ∑ k ∈ Finset.range i, ⌊A.fl (d.visibleSize k / d.twipsPerCorePixel)⌋

/-- Where the element starts in tile twips, before it is rounded down. -/
def exactPos (d : SheetDimension A) (i : Nat) : ℚ := A.fl (d.corePixelPos i * d.twipsPerCorePixel)

def tileTwipsPos (d : SheetDimension A) (i : Nat) : Int := ⌊d.exactPos i⌋

def printTwipsPos (d : SheetDimension A) (i : Nat) : Int := ∑ k ∈ Finset.range i, d.visibleSize k

/-- One of the equal parts of the span, which is rounded down at its end only. -/
def equalPart (d : SheetDimension A) (v : SpanViewData) : ℚ :=
  A.fl (A.fl (d.tileTwipsPos (v.index + 1) - d.exactPos v.start) / (v.index - v.start + 1 : Int))

/-- The position is in the equal part with the number `k`.  A quotient of doubles reaches a whole number from the
middle before it on. -/
def InEqualPart (d : SheetDimension .binary64) (v : SpanViewData) (k : Nat) (p : ℚ) : Prop :=
  d.equalPart v ≠ 0 ∧ cut 53 k ≤ Arithmetic.binary64.fl (p - d.exactPos v.start) / d.equalPart v ∧
    Arithmetic.binary64.fl (p - d.exactPos v.start) / d.equalPart v < cut 53 (k + 1)

/-- Doubles hold the whole numbers of the sheet, with two bits to spare. -/
structure FitsDouble (d : SheetDimension A) (max : Nat) : Prop where
  count : max < 2 ^ 51
  core : d.corePixelPos (max + 1) ≤ 2 ^ 51
  tile : d.tileTwipsPos (max + 1) ≤ 2 ^ 51
  print : d.printTwipsPos (max + 1) ≤ 2 ^ 51

/-- The positions after `_updateVisible`. -/
def positions (d : SheetDimension A) (maxIndex : Nat) : Option (DimensionPositions A) :=
  d.updateVisible.map fun visible =>
    { visibleSizes := visible, twipsPerCorePixel := d.twipsPerCorePixel, coreZoomFactor := d.coreZoomFactor,
      maxIndex := maxIndex }

variable {d : SheetDimension A} {max i : Nat} {spans : List PositionedSpan} {v : SpanViewData}

theorem sizeAt_nonneg {l : List SpanData} (h : ∀ s ∈ l, 0 ≤ s.value) (i : Nat) : 0 ≤ sizeAt l i := by
  induction l with
  | nil => exact le_refl _
  | cons s l ih =>
    rw [sizeAt]
    split
    · exact h s List.mem_cons_self
    · exact ih fun t ht => h t (List.mem_cons_of_mem s ht)

theorem Measured.ratio_pos (h : d.Measured max) : 0 < d.twipsPerCorePixel :=
  A.pos _ (div_pos h.tileSizeTwips_pos h.tileSizePixels_pos)

theorem Measured.visibleSize_nonneg (h : d.Measured max) (i : Nat) : 0 ≤ d.visibleSize i := by
  unfold visibleSize
  split
  · exact le_refl _
  · exact sizeAt_nonneg h.sizes_nonneg i

theorem visibleSize_of_not_isVisible (h : d.isVisible i = false) : d.visibleSize i = 0 := by
  unfold isVisible at h
  unfold visibleSize
  rw [Bool.not_eq_false'] at h
  rw [if_pos h]

theorem corePixelPos_succ (d : SheetDimension A) (i : Nat) :
    d.corePixelPos (i + 1) = d.corePixelPos i + ⌊A.fl (d.visibleSize i / d.twipsPerCorePixel)⌋ :=
      Finset.sum_range_succ _ i

theorem printTwipsPos_succ (d : SheetDimension A) (i : Nat) :
    d.printTwipsPos (i + 1) = d.printTwipsPos i + d.visibleSize i :=
  Finset.sum_range_succ _ i

theorem Measured.monotone_print (h : d.Measured max) : Monotone d.printTwipsPos := by
  refine monotone_nat_of_le_succ fun i => ?_
  rw [printTwipsPos_succ]
  have := h.visibleSize_nonneg i
  omega

theorem Measured.monotone_core (h : d.Measured max) : Monotone d.corePixelPos := by
  refine monotone_nat_of_le_succ fun i => ?_
  have hsize : (0 : ℚ) ≤ (d.visibleSize i : ℚ) / d.twipsPerCorePixel :=
    div_nonneg (Int.cast_nonneg (h.visibleSize_nonneg i)) h.ratio_pos.le
  rw [corePixelPos_succ]
  have := Int.floor_nonneg.2 (A.nonneg hsize)
  omega

theorem Measured.monotone_tile (h : d.Measured max) : Monotone d.tileTwipsPos := fun _ _ hij =>
  Int.floor_mono (A.mono (mul_le_mul_of_nonneg_right (Int.cast_le.2 (h.monotone_core hij)) h.ratio_pos.le))

/-- Only what is visible takes room. -/
theorem isVisible_of_print (h : d.printTwipsPos i < d.printTwipsPos (i + 1)) : d.isVisible i = true := by
  by_contra hnot
  rw [printTwipsPos_succ, visibleSize_of_not_isVisible (Bool.not_eq_true _ ▸ hnot)] at h
  omega

theorem isVisible_of_core (h : d.corePixelPos i < d.corePixelPos (i + 1)) : d.isVisible i = true := by
  by_contra hnot
  rw [corePixelPos_succ, visibleSize_of_not_isVisible (Bool.not_eq_true _ ▸ hnot)] at h
  simp [A.zero] at h

/-- The visible spans of the dimension. -/
structure Spans (d : SheetDimension A) (max : Nat) (spans : List PositionedSpan) : Prop where
  ends : EndsAt max (spans.map (·.index))
  size : ∀ i ≤ max, sizeAt (spans.map (·.toSpanData)) i = d.visibleSize i
  print : ∀ s ∈ spans, s.posprinttwips = d.printTwipsPos (s.index + 1)
  core : ∀ s ∈ spans, s.poscorepx = d.corePixelPos (s.index + 1)
  tile : ∀ s ∈ spans, s.postiletwips = d.tileTwipsPos (s.index + 1)
  one : ∀ s ∈ spans, s.sizecore = ⌊A.fl (s.value / d.twipsPerCorePixel)⌋

/-- What the positions have of the dimension. -/
structure Read (d : SheetDimension A) (max maxIndex : Nat) (g : DimensionPositions A) : Prop extends
    d.Spans max g.visibleSizes where
  maxIndex_eq : g.maxIndex = maxIndex
  ratio_eq : g.twipsPerCorePixel = d.twipsPerCorePixel
  factor_eq : g.coreZoomFactor = d.coreZoomFactor

theorem exists_positions (h : d.WellFormed max) (maxIndex : Nat) :
    ∃ g, d.positions maxIndex = some g ∧ d.Read max maxIndex g := by
  obtain ⟨spans, hvisible, hends, hsizes, hspans⟩ := exists_visible h
  have hcore : ∀ s ∈ spans, s.poscorepx = d.corePixelPos (s.index + 1) := fun s hs => (hspans s hs).2.1
  have htile : ∀ s ∈ spans, s.postiletwips = d.tileTwipsPos (s.index + 1) := fun s hs => by
    rw [(hspans s hs).2.2.1, hcore s hs]
    rfl
  refine ⟨⟨spans, d.twipsPerCorePixel, d.coreZoomFactor, maxIndex⟩, ?_,
    ⟨⟨hends, hsizes, fun s hs => (hspans s hs).1, hcore, htile, fun s hs => (hspans s hs).2.2.2⟩, rfl, rfl, rfl⟩⟩
  unfold positions
  rw [hvisible]
  rfl

/-- The sums go up evenly in a span. -/
theorem Spans.sum_eq (h : d.Spans max spans) (hv : IsSpan spans v) (f : Int → Int) (hstart : v.start ≤ i)
    (hi : i ≤ v.index + 1) : ∑ k ∈ Finset.range i, f (d.visibleSize k) = ∑ k ∈ Finset.range v.start,
      f (d.visibleSize k) + (i - v.start) * f v.value := by
  induction i, hstart using Nat.le_induction with
  | base => simp
  | succ i hstart ih =>
    have hsize : d.visibleSize i = v.value := by
      rw [← h.size i ((Nat.le_of_succ_le_succ hi).trans (hv.index_le h.ends)), hv.sizeAt_eq h.ends hstart (by omega)]
    rw [Finset.sum_range_succ, ih (by omega), hsize]
    push_cast
    ring

theorem Spans.printTwipsPos_eq (h : d.Spans max spans) (hv : IsSpan spans v) (hstart : v.start ≤ i)
    (hi : i ≤ v.index + 1) :
    d.printTwipsPos i = d.printTwipsPos v.start + (i - v.start) * v.value := h.sum_eq hv (fun size => size) hstart hi

theorem Spans.corePixelPos_in (h : d.Spans max spans) (hv : IsSpan spans v) (hstart : v.start ≤ i)
    (hi : i ≤ v.index + 1) : d.corePixelPos i = d.corePixelPos v.start + (i - v.start) * v.sizecore := by
  rw [h.one _ hv.mem]
  exact h.sum_eq hv (fun size => ⌊A.fl (size / d.twipsPerCorePixel)⌋) hstart hi

theorem Spans.corePixelPos_eq (h : d.Spans max spans) (hv : IsSpan spans v) :
    d.corePixelPos v.start = v.poscorepx - v.sizecore * (v.index - v.start + 1) := by
  rw [h.core _ hv.mem, h.corePixelPos_in hv ((hv.start_le h.ends).trans (Nat.le_succ _)) (le_refl _)]
  push_cast
  ring

theorem Spans.endsOf_tile (h : d.Spans max spans) (hmono : Monotone d.tileTwipsPos) :
    EndsOf max spans (·.postiletwips) d.tileTwipsPos :=
  ⟨h.ends, by simp [tileTwipsPos, exactPos, corePixelPos, A.zero], hmono, h.tile⟩

theorem Spans.endsOf_print (h : d.Spans max spans) (hmono : Monotone d.printTwipsPos) :
    EndsOf max spans (·.posprinttwips) d.printTwipsPos :=
  ⟨h.ends, Finset.sum_range_zero _, hmono, h.print⟩

variable {g : DimensionPositions A} {maxIndex : Nat} {p : ℚ}

/-- The lookup in tile twips divides the spans into their equal parts. -/
theorem Read.tile_eq_lookup (h : d.Read max maxIndex g) (hmono : Monotone d.tileTwipsPos) (p : ℚ) :
    g.getSpanAndIndexFromTileTwipsPos p =
      g.lookup (·.postiletwips) (fun v pos => indexFrom A v pos (d.exactPos v.start) (d.equalPart v)) p := by
  have hstart (v : SpanViewData) (hv : IsSpan g.visibleSizes v) :
      A.fl ((v.poscorepx - v.sizecore * (v.index - v.start + 1) : Int) * g.twipsPerCorePixel) =
        d.exactPos v.start := by
    rw [← h.corePixelPos_eq hv, h.ratio_eq]
    rfl
  unfold getSpanAndIndexFromTileTwipsPos lookup
  cases hfound : getSpanDataByCustomDataField g.visibleSizes p (·.postiletwips) with
  | none => rfl
  | some v =>
    have hv := ((h.endsOf_tile hmono).found_iff.1 hfound).1
    dsimp only
    rw [hstart v hv, h.tile _ hv.mem]
    rfl

theorem Read.print_eq_lookup (h : d.Read max maxIndex g) (hmono : Monotone d.printTwipsPos) (p : ℚ) :
    g.getSpanAndIndexFromPrintTwipsPos p =
      g.lookup (·.posprinttwips) (fun v pos => indexFrom A v pos (d.printTwipsPos v.start) v.value) p := by
  have hstart (v : SpanViewData) (hv : IsSpan g.visibleSizes v) :
      v.posprinttwips - v.value * ((v.index : Int) - v.start + 1) = d.printTwipsPos v.start := by
    rw [h.print _ hv.mem, h.printTwipsPos_eq hv (i := v.index + 1) ((hv.start_le h.ends).trans (Nat.le_succ _))
      (le_refl _)]
    push_cast
    ring
  unfold getSpanAndIndexFromPrintTwipsPos lookup
  cases hfound : getSpanDataByCustomDataField g.visibleSizes p (·.posprinttwips) with
  | none => rfl
  | some v =>
    have hv := ((h.endsOf_print hmono).found_iff.1 hfound).1
    dsimp only
    rw [hstart v hv]

/-- Print twips are not rounded: in the exact arithmetic an element is computed where it has the position. -/
theorem Spans.printIndex_iff (h : d.Spans max spans) (hv : IsSpan spans v) (hstart : v.start ≤ i) (hi : i ≤ v.index)
    (hvalue : 0 ≤ v.value) : indexFrom .exact v p (d.printTwipsPos v.start) v.value = some (i : Int) ↔
      (d.printTwipsPos i : ℚ) ≤ p ∧ p < d.printTwipsPos (i + 1) := by
  rw [h.printTwipsPos_eq hv hstart (by omega), h.printTwipsPos_eq hv (i := i + 1) (by omega) (by omega)]
  rcases hvalue.lt_or_eq with hpos | hzero
  · rw [indexFrom_exact_iff (Int.cast_pos.2 hpos)]
    push_cast
    constructor <;> rintro ⟨hlow, hhigh⟩ <;> exact ⟨by linarith, by linarith⟩
  · unfold indexFrom
    rw [← hzero, if_pos Int.cast_zero]
    refine iff_of_false (fun h => by cases h) ?_
    rintro ⟨hlow, hhigh⟩
    simp only [mul_zero, add_zero] at hlow hhigh
    linarith

theorem Spans.value_nonneg (h : d.Measured max) (hspans : d.Spans max spans) (hv : IsSpan spans v) : 0 ≤ v.value := by
  have hsize := hspans.size v.start ((hv.start_le hspans.ends).trans (hv.index_le hspans.ends))
  rw [hv.sizeAt_eq hspans.ends (le_refl _) (hv.start_le hspans.ends)] at hsize
  rw [hsize]
  exact h.visibleSize_nonneg _

/-- The whole part of a quotient of print twips is exact. -/
theorem Spans.printIndex_binary64 {d : SheetDimension .binary64} (h : d.Measured max) (hfits : d.FitsDouble max)
    (hspans : d.Spans max spans) (hv : IsSpan spans v) (hfloat : IsFloat 53 p)
    (hle : (d.printTwipsPos v.start : ℚ) ≤ p)
    (hp : p ≤ d.printTwipsPos (max + 1)) : indexFrom .binary64 v p (d.printTwipsPos v.start) v.value =
      indexFrom .exact v p (d.printTwipsPos v.start) v.value := by
  have hvalue := hspans.value_nonneg h hv
  have htotal : (d.printTwipsPos (max + 1) : ℚ) ≤ 2 ^ 51 := by exact_mod_cast hfits.print
  have hzero : 0 ≤ d.printTwipsPos v.start := by
    have hmono := h.monotone_print (Nat.zero_le v.start)
    exact (Finset.sum_range_zero d.visibleSize).symm.le.trans hmono
  have hone : v.value ≤ d.printTwipsPos (max + 1) := by
    have hnext := hspans.printTwipsPos_eq hv (i := v.start + 1) (Nat.le_succ _)
      (Nat.succ_le_succ (hv.start_le hspans.ends))
    have hmono := h.monotone_print (show v.start + 1 ≤ max + 1 from
      Nat.succ_le_succ ((hv.start_le hspans.ends).trans (hv.index_le hspans.ends)))
    rw [hnext] at hmono
    push_cast at hmono
    linarith
  have hsub : Arithmetic.binary64.fl (p - d.printTwipsPos v.start) = p - d.printTwipsPos v.start :=
    round_of_isFloat (isFloat_sub_intCast hfloat hzero hle (hp.trans (htotal.trans (by norm_num))))
  unfold indexFrom
  by_cases hv0 : (v.value : ℚ) = 0
  · rw [if_pos hv0, if_pos hv0]
  obtain ⟨n, hn⟩ := Int.eq_ofNat_of_zero_le hvalue
  have hnpos : 0 < n := by
    rw [hn] at hv0
    exact Nat.pos_of_ne_zero fun h => hv0 (by rw [h]; rfl)
  have honeQ : (n : ℚ) ≤ d.printTwipsPos (max + 1) := by
    rw [hn] at hone
    exact_mod_cast hone
  have hzeroQ : (0 : ℚ) ≤ d.printTwipsPos v.start := Int.cast_nonneg hzero
  have hfloor :=
    IsFloat.floor_round_div (isFloat_sub_intCast hfloat hzero hle (hp.trans (htotal.trans (by norm_num))))
    (sub_nonneg.2 hle) hnpos (by
      have hsmall : (2 : ℚ) ^ 51 * 4 = 2 ^ 53 := by norm_num
      linarith)
  rw [if_neg hv0, if_neg hv0, hsub, hn]
  exact congrArg (fun q : Int => some ((v.start : Int) + q)) hfloor

/-- The element at a position in tile twips: between spans the one with the maximum index, and elsewhere the one whose
equal part has the position. -/
theorem Measured.tile_iff {d : SheetDimension .binary64} {g : DimensionPositions .binary64} (h : d.Measured max)
    (hfits : d.FitsDouble max) (hread : d.Read max maxIndex g) (hp0 : 0 ≤ p) (hp : p ≤ d.tileTwipsPos (max + 1)) :
    IsElementAt d.isVisible d.tileTwipsPos max maxIndex p (g.getSpanAndIndexFromTileTwipsPos p) ↔
      ∃ v k, IsSpan g.visibleSizes v ∧ v.start + k ≤ v.index ∧ v.start + k ≤ maxIndex ∧
        HasPosition d.isVisible d.tileTwipsPos max p (v.start + k) ∧
          (BetweenSpans max g.visibleSizes d.tileTwipsPos p → v.start + k = maxIndex) ∧
            (¬ BetweenSpans max g.visibleSizes d.tileTwipsPos p →
              (p = d.tileTwipsPos (max + 1) → v.index = max) ∧ d.InEqualPart v k p) := by
  rw [hread.tile_eq_lookup h.monotone_tile, ← hread.maxIndex_eq,
    lookup_iff (hread.endsOf_tile h.monotone_tile) hp0 hp]
  have hpart {v : SpanViewData} (hv : IsSpan g.visibleSizes v) {k : Nat} (hk : v.start + k ≤ v.index) :
      indexFrom .binary64 v p (d.exactPos v.start) (d.equalPart v) = some ((v.start + k : Nat) : Int) ↔
        d.InEqualPart v k p := by
    have hmax := hv.index_le hread.ends
    have hcount := hfits.count
    exact indexFrom_binary64_iff (by omega)
  constructor
  · rintro ⟨i, v, hv, hstart, hend, hmax, hat, hlast, hin⟩
    obtain ⟨k, rfl⟩ := Nat.exists_eq_add_of_le hstart
    exact ⟨v, k, hv, hend, hmax, hat, hlast, fun hbetween => ⟨(hin hbetween).1, (hpart hv hend).1 (hin hbetween).2⟩⟩
  · rintro ⟨v, k, hv, hend, hmax, hat, hlast, hin⟩
    exact ⟨v.start + k, v, hv, Nat.le_add_right _ k, hend, hmax, hat, hlast,
      fun hbetween => ⟨(hin hbetween).1, (hpart hv hend).2 (hin hbetween).2⟩⟩

theorem Measured.print_iff {d : SheetDimension .binary64} {g : DimensionPositions .binary64} (h : d.Measured max)
    (hfits : d.FitsDouble max) (hread : d.Read max maxIndex g) (hfloat : IsFloat 53 p) (hp0 : 0 ≤ p)
    (hp : p ≤ d.printTwipsPos (max + 1)) :
    IsElementAt d.isVisible d.printTwipsPos max maxIndex p (g.getSpanAndIndexFromPrintTwipsPos p) ↔
      p < d.printTwipsPos (max + 1) ∧ ∃ i ≤ maxIndex, (d.printTwipsPos i : ℚ) ≤ p ∧ p < d.printTwipsPos (i + 1) ∧
        (BetweenSpans max g.visibleSizes d.printTwipsPos p → i = maxIndex) := by
  have hends := hread.endsOf_print h.monotone_print
  have hexact : g.getSpanAndIndexFromPrintTwipsPos p =
      g.lookup (·.posprinttwips) (fun v pos => indexFrom .exact v pos (d.printTwipsPos v.start) v.value) p := by
    rw [hread.print_eq_lookup h.monotone_print]
    exact lookup_congr hends fun v hv hle => hread.printIndex_binary64 h hfits hv hfloat hle hp
  rw [hexact, ← hread.maxIndex_eq, lookup_iff hends hp0 hp]
  constructor
  · rintro ⟨i, v, hv, hstart, hend, hmax, ⟨-, hle, hlt⟩, hlast, hin⟩
    by_cases hbetween : BetweenSpans max g.visibleSizes d.printTwipsPos p
    · have htotal : p < d.printTwipsPos (max + 1) := by
        obtain ⟨u, hu, -, -, hulast⟩ := hbetween
        exact hulast.trans_le (Int.cast_le.2 (h.monotone_print (Nat.succ_le_succ (hu.index_le hread.ends))))
      exact ⟨htotal, i, hmax, hle, hlt.resolve_right fun heq => htotal.ne heq.1, hlast⟩
    · have hat := (hread.printIndex_iff hv hstart hend (hread.value_nonneg h hv)).1 (hin hbetween).2
      refine ⟨hat.2.trans_le (Int.cast_le.2 (h.monotone_print ?_)), i, hmax, hat.1, hat.2, hlast⟩
      exact Nat.succ_le_succ (hend.trans (hv.index_le hread.ends))
  · rintro ⟨htotal, i, hmax, hle, hlt, hlast⟩
    have hi : i ≤ max := by
      by_contra hafter
      have hmono : (d.printTwipsPos (max + 1) : ℚ) ≤ d.printTwipsPos i := Int.cast_le.2 (h.monotone_print (by omega))
      linarith
    obtain ⟨v, hv, hstart, hend⟩ := exists_isSpan hread.ends hi
    exact ⟨i, v, hv, hstart, hend, hmax,
      ⟨isVisible_of_print (Int.cast_lt.1 (hle.trans_lt hlt)), hle, .inl hlt⟩, hlast,
      fun _ => ⟨fun heq => absurd heq htotal.ne,
      (hread.printIndex_iff hv hstart hend (hread.value_nonneg h hv)).2 ⟨hle, hlt⟩⟩⟩

/-- A whole position is not between two spans. -/
theorem not_betweenSpans_intCast (P : Nat → Int) (n : Int) : ¬ BetweenSpans max spans P (n : ℚ) := by
  rintro ⟨v, -, -, hgap, hlt⟩
  have hlt : n < P (v.index + 1) := Int.cast_lt.1 hlt
  have hgap : P (v.index + 1) < n + 1 := by
    have h : (P (v.index + 1) : ℚ) < n + 1 := by linarith
    exact_mod_cast h
  omega

section Examples

/-- Two columns of 101 pixels at a zoom of 120%, where a tile of 256 pixels has 3200 twips. -/
def twoColumns : SheetDimension .binary64 where
  sizes := { spanlist := [⟨1, 1265⟩] }
  hidden := { startBit := false, spanlist := [1] }
  filtered := { startBit := false, spanlist := [1] }
  tileSizeTwips := 3200
  tileSizePixels := 256

theorem measured_twoColumns : twoColumns.Measured 1 where
  sizes := ⟨by decide, rfl⟩
  hidden := ⟨by decide, rfl⟩
  filtered := ⟨by decide, rfl⟩
  sizes_nonneg := by decide
  tileSizeTwips_pos := by norm_num [twoColumns]
  tileSizePixels_pos := by norm_num [twoColumns]

theorem ratio_twoColumns : twoColumns.twipsPerCorePixel = 25 / 2 := by
  have hratio : twoColumns.tileSizeTwips / twoColumns.tileSizePixels = 25 / 2 := by norm_num [twoColumns]
  unfold twipsPerCorePixel
  rw [hratio]
  exact round_of_isFloat ⟨25, -1, by norm_num, by norm_num⟩

theorem corePixelPos_twoColumns : twoColumns.corePixelPos 1 = 101 ∧ twoColumns.corePixelPos 2 = 202 := by
  have hsizes : twoColumns.visibleSize 0 = 1265 ∧ twoColumns.visibleSize 1 = 1265 := by decide
  have hone : ⌊Arithmetic.binary64.fl ((1265 : Int) / (25 / 2))⌋ = 101 :=
    floor_round_eq (p := 53) (k := 101) (by norm_num) (by norm_num) (by norm_num)
  simp only [corePixelPos, Finset.sum_range_succ, Finset.sum_range_zero, hsizes, ratio_twoColumns, hone]
  decide

theorem exactPos_twoColumns : twoColumns.exactPos 0 = 0 ∧ twoColumns.exactPos 1 = 2525 / 2 ∧
    twoColumns.exactPos 2 = 2525 := by
  obtain ⟨hone, htwo⟩ := corePixelPos_twoColumns
  unfold exactPos
  rw [hone, htwo, ratio_twoColumns]
  refine ⟨?_, ?_, ?_⟩
  · simp [corePixelPos, Arithmetic.zero]
  · exact (congrArg (round 53) (by norm_num)).trans (round_of_isFloat ⟨2525, -1, by norm_num, by norm_num⟩)
  · exact (congrArg (round 53) (by norm_num)).trans (round_intCast (n := 2525) (by norm_num))

theorem tileTwipsPos_twoColumns :
    twoColumns.tileTwipsPos 0 = 0 ∧ twoColumns.tileTwipsPos 1 = 1262 ∧ twoColumns.tileTwipsPos 2 = 2525 := by
  obtain ⟨hzero, hone, htwo⟩ := exactPos_twoColumns
  unfold tileTwipsPos
  rw [hzero, hone, htwo]
  norm_num

theorem fitsDouble_twoColumns : twoColumns.FitsDouble 1 where
  count := by norm_num
  core := by rw [corePixelPos_twoColumns.2]; norm_num
  tile := by rw [tileTwipsPos_twoColumns.2.2]; norm_num
  print := by decide

/-- The equal parts of a span of both columns, and of one of them. -/
theorem equalPart_twoColumns (hindex : v.index = 1) : (v.start = 0 → twoColumns.equalPart v = 2525 / 2) ∧
    (v.start = 1 → twoColumns.equalPart v = 2525 / 2) := by
  obtain ⟨hzero, hone, -⟩ := exactPos_twoColumns
  obtain ⟨-, -, htotal⟩ := tileTwipsPos_twoColumns
  have hhalf : Arithmetic.binary64.fl (2525 / 2) = 2525 / 2 := round_of_isFloat ⟨2525, -1, by norm_num, by norm_num⟩
  have hwhole : Arithmetic.binary64.fl 2525 = 2525 := round_intCast (p := 53) (n := 2525) (by norm_num)
  unfold equalPart
  rw [hindex, htotal]
  constructor
  · intro hstart
    rw [hstart, hzero]
    norm_num [hwhole, hhalf]
  · intro hstart
    rw [hstart, hone]
    norm_num [hhalf]

end Examples

end SheetDimension

end CollaboraOnline
