import Mathlib
import CollaboraOnline.Browser.ZoomPositions

/-!
# The paths with a zoom at the current zoom

With a zoom scale the positions are not read from the spans but added up span by span.  At the current zoom this gives
the positions of the elements and of core pixels again.  For tile twips each span is rounded down, which the positions
of the spans are not: both paths agree as long as what the roundings take away adds up to less than a twip
(`zoomPaths_iff`).  The arithmetic is the exact one here.
-/

namespace CollaboraOnline

open BinarySearch PositionedSpan Rounding

namespace PositionedSpan

/-- The spans of the loop of `forEachSpanInRange`: up to the first one that ends behind the range. -/
def untilEnd (stop : Int) : List SpanViewData → List SpanViewData
  | [] => []
  | span :: spans => if (span.index : Int) ≤ stop then span :: untilEnd stop spans else [span]

/-- The spans in the order in which `forEachSpanInRange` calls back. -/
def forEachSpanInRange (spans : List PositionedSpan) (start stop : Int) : List SpanViewData :=
  if stop < start then []
  else
    match search (directionAt spans fun prev cur _ => indexDirection start prev cur) spans.length false with
    | none => []
    | some id => untilEnd stop (((List.range spans.length).drop id).filterMap (getSpanData spans))

end PositionedSpan

namespace DimensionPositions

/-- `_getElementDataFromSpanByIndex`, in core pixels. -/
def getElementDataFromSpanByIndex (index : Int) (span : SpanViewData) : Option DimensionPosSize :=
  if index < span.start ∨ (span.index : Int) < index then none
  else some { startpos := span.poscorepx - span.sizecore * (span.index - index + 1), size := span.sizecore }

/-- `getElementData` without a zoom scale. -/
def getElementData (g : DimensionPositions .exact) (index : Int) : Option DimensionPosSize :=
  (getSpanDataByIndex g.visibleSizes index).bind (getElementDataFromSpanByIndex index)

def count (span : SpanViewData) : Int := span.index - span.start + 1

def sizeOneCorePx (zoomScale : ℚ) (span : SpanViewData) : Int := ⌊(span.value : ℚ) * zoomScale / 15⌋

/-- The callback of `getElementData`. -/
def addElements (index : Int) (zoomScale : ℚ) (posSize : DimensionPosSize) (spanData : SpanViewData) :
    DimensionPosSize :=
  if (spanData.index : Int) < index then
    { posSize with startpos := posSize.startpos + sizeOneCorePx zoomScale spanData * count spanData }
  else if (spanData.start : Int) ≤ index ∧ index ≤ spanData.index then
    { startpos := posSize.startpos + sizeOneCorePx zoomScale spanData * (index - spanData.start)
      size := sizeOneCorePx zoomScale spanData }
  else posSize

/-- `getElementData` with a zoom scale. -/
def getElementDataAtZoom (g : DimensionPositions .exact) (index : Int) (zoomScale : ℚ) : DimensionPosSize :=
  (forEachSpanInRange g.visibleSizes 0 index).foldl (addElements index zoomScale) ⟨0, 0⟩

def sizeSpanTT (zoomScale : ℚ) (span : SpanViewData) : Int :=
  ⌊((sizeOneCorePx zoomScale span * count span : Int) : ℚ) * 15 / zoomScale⌋

/-- The callback of `getTileTwipsPosFromPrint`, with `posTT` and `posPTInc`. -/
def addSpan (zoomScale posPT : ℚ) (pos : ℚ × ℚ) (spanData : SpanViewData) : ℚ × ℚ :=
  let sizeSpanPT : Int := spanData.value * count spanData
  if posPT ≤ pos.2 then pos
  else if pos.2 + sizeSpanPT < posPT then (pos.1 + sizeSpanTT zoomScale spanData, pos.2 + sizeSpanPT)
  else
    let remainingPT := posPT - pos.2
    let elemCountFinalSpan := ⌊remainingPT / spanData.value⌋
    let extra := remainingPT - elemCountFinalSpan * spanData.value
    (pos.1 + (⌊(elemCountFinalSpan * sizeSpanTT zoomScale spanData : ℚ) / count spanData⌋ + extra), posPT)

/-- `getTileTwipsPosFromPrint` with a zoom scale. -/
def getTileTwipsPosFromPrintAtZoom (g : DimensionPositions .exact) (posPT zoomScale : ℚ) : ℚ :=
  ((forEachSpan g.visibleSizes).foldl (addSpan zoomScale posPT) (0, 0)).1

end DimensionPositions

/-! ### The spans before a span -/

namespace PositionedSpan

variable {spans : List PositionedSpan} {max spanid i : Nat} {u v : SpanViewData} {stop : Int}

def spansBefore (spans : List PositionedSpan) (spanid : Nat) : List SpanViewData :=
    (List.range spanid).filterMap (getSpanData spans)

theorem spansBefore_succ (hv : getSpanData spans spanid = some v) :
    spansBefore spans (spanid + 1) = spansBefore spans spanid ++ [v] := by
  unfold spansBefore
  rw [List.range_succ, List.filterMap_append, List.filterMap_cons_some hv, List.filterMap_nil]

theorem isSpan_of_before (hu : u ∈ spansBefore spans spanid) : IsSpan spans u := by
  obtain ⟨j, -, hj⟩ := List.mem_filterMap.1 hu
  exact ⟨j, hj⟩

theorem forEachSpan_split (h : EndsAt max (spans.map (·.index))) (hv : getSpanData spans spanid = some v) :
    ∃ behind, forEachSpan spans = spansBefore spans spanid ++ v :: behind ∧
    (∀ u ∈ spansBefore spans spanid, u.index < v.start) ∧
      ∀ w ∈ behind, v.index < w.start := by
  obtain ⟨s, hs, -⟩ := getSpanData_eq_some.1 hv
  obtain ⟨n, hn⟩ := Nat.exists_eq_add_of_le (show spanid + 1 ≤ spans.length from (List.getElem?_eq_some_iff.1 hs).1)
  have hsplit : forEachSpan spans =
      spansBefore spans spanid ++ v :: ((List.range n).map (spanid + 1 + ·)).filterMap (getSpanData spans) := by
    unfold forEachSpan
    rw [hn, List.range_add, List.filterMap_append]
    exact (congrArg (· ++ _) (spansBefore_succ hv)).trans (by rw [List.append_assoc]; rfl)
  have hsorted := pairwise_forEachSpan h
  rw [hsplit, List.pairwise_append] at hsorted
  obtain ⟨-, hbehind, hbefore⟩ := hsorted
  exact ⟨_, hsplit, fun u hu => hbefore u hu v List.mem_cons_self, (List.pairwise_cons.1 hbehind).1⟩

theorem untilEnd_append {before behind : List SpanViewData} (h : ∀ u ∈ before, (u.index : Int) ≤ stop) :
    untilEnd stop (before ++ behind) = before ++ untilEnd stop behind := by
  induction before with
  | nil => rfl
  | cons u before ih =>
    rw [List.cons_append, untilEnd, if_pos (h u List.mem_cons_self), ih fun w hw => h w (List.mem_cons_of_mem u hw),
      List.cons_append]

theorem mem_of_mem_untilEnd {l : List SpanViewData} (h : v ∈ untilEnd stop l) : v ∈ l := by
  induction l with
  | nil => exact h
  | cons u l ih =>
    rw [untilEnd] at h
    split at h
    · exact (List.mem_cons.1 h).elim (fun heq => heq ▸ List.mem_cons_self) fun hl => List.mem_cons_of_mem u (ih hl)
    · exact (List.mem_singleton.1 h) ▸ List.mem_cons_self

theorem untilEnd_cons (stop : Int) (span : SpanViewData) (l : List SpanViewData) :
    ∃ l', untilEnd stop (span :: l) = span :: l' ∧ ∀ w ∈ l', w ∈ l := by
  rw [untilEnd]
  split
  · exact ⟨_, rfl, fun w hw => mem_of_mem_untilEnd hw⟩
  · exact ⟨[], rfl, fun w hw => absurd hw List.not_mem_nil⟩

/-- From the first element on the loop begins with the first span. -/
theorem forEachSpanInRange_zero (h : EndsAt max (spans.map (·.index))) (hstop : 0 ≤ stop) :
    forEachSpanInRange spans 0 stop = untilEnd stop (forEachSpan spans) := by
  have hpos : 0 < spans.length := by
    obtain ⟨v, ⟨spanid, hv⟩, -⟩ := exists_isSpan h (Nat.zero_le max)
    obtain ⟨s, hs, -⟩ := getSpanData_eq_some.1 hv
    exact (Nat.zero_le spanid).trans_lt (List.getElem?_eq_some_iff.1 hs).1
  have hs : spans[0]? = some (spans[0]) := List.getElem?_eq_getElem hpos
  have hfirst : search (directionAt spans fun prev cur _ => indexDirection 0 prev cur) spans.length false = some 0 :=
    (search_index_iff h).2 ⟨_, getSpanData_eq_some.2 ⟨_, hs, rfl⟩, le_refl _, Int.natCast_nonneg _⟩
  unfold forEachSpanInRange
  rw [if_neg (not_lt.2 hstop), hfirst]
  rfl

end PositionedSpan

namespace SheetDimension

open DimensionPositions

variable {d : SheetDimension .exact} {max maxIndex spanid i k : Nat} {spans : List PositionedSpan}
  {u v : SpanViewData} {g : DimensionPositions .exact}
  {index : Int} {zoomScale posPT p offset : ℚ} {pos : ℚ × ℚ} {posSize : DimensionPosSize}

theorem Spans.sum_before (h : d.Spans max spans) (f : Int → Int) (hv : getSpanData spans spanid = some v) :
    ((spansBefore spans spanid).map fun u => f u.value * count u).sum = ∑ k ∈ Finset.range v.start,
      f (d.visibleSize k) := by
  induction spanid generalizing v with
  | zero =>
    obtain ⟨s, -, rfl⟩ := getSpanData_eq_some.1 hv
    rfl
  | succ spanid ih =>
    obtain ⟨s, hs, rfl⟩ := getSpanData_eq_some.1 hv
    have hlt : spanid < spans.length := (Nat.lt_succ_self spanid).trans (List.getElem?_eq_some_iff.1 hs).1
    have ht : spans[spanid]? = some (spans[spanid]) := List.getElem?_eq_getElem hlt
    have hu := getSpanData_eq_some.2 ⟨_, ht, rfl⟩
    rw [spansBefore_succ hu, List.map_append, List.sum_append, ih hu]
    show _ + (_ + 0) = ∑ k ∈ Finset.range (startAt spans (spanid + 1)), f (d.visibleSize k)
    rw [startAt_succ ht, h.sum_eq ⟨spanid, hu⟩ f ((IsSpan.start_le h.ends ⟨spanid, hu⟩).trans (Nat.le_succ _))
      (le_refl _), add_zero]
    unfold count
    push_cast
    ring

theorem Spans.elements_pos (h : d.Spans max spans) (hv : IsSpan spans v) : 0 < count v := by
  have hle := hv.start_le h.ends
  unfold count
  omega

theorem Read.factor_exact (h : d.Read max maxIndex g) : g.coreZoomFactor = 15 / d.twipsPerCorePixel := by
  rw [h.factor_eq]
  unfold coreZoomFactor twipsPerCorePixel
  rw [Arithmetic.exact_fl, Arithmetic.exact_fl, Arithmetic.exact_fl, div_div_eq_mul_div, mul_comm]

theorem sizeOneCorePx_current (h : d.Read max maxIndex g) (hv : IsSpan g.visibleSizes v) :
    sizeOneCorePx g.coreZoomFactor v = v.sizecore := by
  rw [h.one _ hv.mem, h.factor_exact]
  unfold sizeOneCorePx
  rw [mul_div_assoc, div_div_cancel_left' (by norm_num), ← div_eq_mul_inv]
  rfl

theorem Spans.core_before (h : d.Spans max spans) (hv : getSpanData spans spanid = some v) :
    ((spansBefore spans spanid).map fun u => u.sizecore * count u).sum = d.corePixelPos v.start := by
  refine Eq.trans ?_ (h.sum_before (fun size => ⌊Arithmetic.exact.fl (size / d.twipsPerCorePixel)⌋) hv)
  exact congrArg List.sum (List.map_congr_left fun u hu => by rw [h.one _ (isSpan_of_before hu).mem])

/-! ### Elements -/

theorem foldl_before {before : List SpanViewData} (h : ∀ u ∈ before, (u.index : Int) < index) :
    before.foldl (addElements index zoomScale) posSize =
      { posSize with
        startpos := posSize.startpos + (before.map fun u => sizeOneCorePx zoomScale u * count u).sum } := by
  induction before generalizing posSize with
  | nil => simp
  | cons u before ih =>
    rw [List.foldl_cons, addElements, if_pos (h u List.mem_cons_self), ih fun w hw => h w (List.mem_cons_of_mem u hw),
      List.map_cons, List.sum_cons, Int.add_assoc]

theorem foldl_behind {behind : List SpanViewData} (h : ∀ u ∈ behind, index < u.start ∧ u.start ≤ u.index) :
    behind.foldl (addElements index zoomScale) posSize = posSize := by
  induction behind with
  | nil => rfl
  | cons u behind ih =>
    obtain ⟨hlt, hle⟩ := h u List.mem_cons_self
    rw [List.foldl_cons, addElements, if_neg (by omega), if_neg (by omega),
      ih fun w hw => h w (List.mem_cons_of_mem u hw)]

theorem getElementData_eq_none (h : EndsAt max (g.visibleSizes.map (·.index)))
    (hindex : ¬ (0 ≤ index ∧ index ≤ max)) : g.getElementData index = none := by
  unfold getElementData
  rw [Option.bind_eq_none_iff]
  intro v hv
  obtain ⟨hspan, hstart, hend⟩ := (getSpanDataByIndex_eq_some h).1 hv
  have := hspan.index_le h
  omega

theorem getElementData_eq_some (h : EndsAt max (g.visibleSizes.map (·.index))) (hv : IsSpan g.visibleSizes v)
    (hstart : v.start ≤ i) (hend : i ≤ v.index) :
    g.getElementData i = some { startpos := v.poscorepx - v.sizecore * (v.index - i + 1), size := v.sizecore } := by
  unfold getElementData
  rw [(getSpanDataByIndex_eq_some h).2 ⟨hv, Int.ofNat_le.2 hstart, Int.ofNat_le.2 hend⟩]
  exact if_neg (by omega)

theorem getElementDataAtZoom_iff (hspans : d.Read max maxIndex g) :
    some (g.getElementDataAtZoom index g.coreZoomFactor) = g.getElementData index ↔ 0 ≤ index ∧ index ≤ max := by
  constructor
  · intro heq
    by_contra hindex
    rw [getElementData_eq_none hspans.ends hindex] at heq
    cases heq
  · rintro ⟨hzero, hmax⟩
    obtain ⟨i, rfl⟩ := Int.eq_ofNat_of_zero_le hzero
    obtain ⟨v, hv, hstart, hend⟩ := exists_isSpan hspans.ends (Int.ofNat_le.1 hmax)
    obtain ⟨spanid, hspanid⟩ := hv
    have hv : IsSpan g.visibleSizes v := ⟨spanid, hspanid⟩
    obtain ⟨behind, hsplit, hbefore, hbehind⟩ := forEachSpan_split hspans.ends hspanid
    obtain ⟨behind', hend', hmem⟩ := untilEnd_cons i v behind
    -- The spans before the element's are added whole, and those behind it do nothing.
    have hsum : ((spansBefore g.visibleSizes spanid).map fun u => sizeOneCorePx g.coreZoomFactor u * count u).sum =
        d.corePixelPos v.start := by
      rw [← hspans.core_before hspanid]
      exact congrArg List.sum (List.map_congr_left fun u hu => by
        rw [sizeOneCorePx_current hspans (isSpan_of_before hu)])
    have hrest : ∀ u ∈ behind', (i : Int) < u.start ∧ u.start ≤ u.index := fun u hu => by
      have hspan : IsSpan g.visibleSizes u :=
        mem_forEachSpan.1 (hsplit ▸ List.mem_append_right _ (List.mem_cons_of_mem v (hmem u hu)))
      have := hbehind u (hmem u hu)
      exact ⟨by omega, hspan.start_le hspans.ends⟩
    have hwhole : ∀ u ∈ spansBefore g.visibleSizes spanid, (u.index : Int) < i := fun u hu => by
      have := hbefore u hu
      omega
    rw [getElementData_eq_some hspans.ends hv hstart hend, getElementDataAtZoom,
      forEachSpanInRange_zero hspans.ends hzero, hsplit,
      untilEnd_append (fun u hu => (hwhole u hu).le), hend', List.foldl_append, List.foldl_cons,
        foldl_before hwhole, hsum]
    dsimp only
    rw [addElements, if_neg (by omega), if_pos (by omega), foldl_behind hrest, sizeOneCorePx_current hspans hv,
      hspans.corePixelPos_eq hv]
    refine congrArg some ?_
    rw [DimensionPosSize.mk.injEq]
    refine ⟨?_, rfl⟩
    dsimp only
    ring

/-! ### Core pixels -/

/-- A span with the same size at both zooms keeps the sum. -/
theorem convertSpan_sum (elementCount size : Int) (pos : ℚ × Int) :
    (convertSpan .exact elementCount size size pos).2 + (convertSpan .exact elementCount size size pos).1 =
      pos.2 + pos.1 := by
  unfold convertSpan
  simp only [Arithmetic.exact_fl]
  split
  · rfl
  · split
    · push_cast
      ring
    · push_cast
      ring

theorem convertSpans_sum {size sizeTo : PositionedSpan → Int} (h : ∀ s ∈ spans, sizeTo s = size s) (start : Nat)
    (pos : ℚ × Int) :
    (convertSpans .exact size sizeTo start spans pos).2 + (convertSpans .exact size sizeTo start spans pos).1 =
      pos.2 + pos.1 := by
  induction spans generalizing start pos with
  | nil => rfl
  | cons span spans ih =>
    rw [convertSpans, ih (fun s hs => h s (List.mem_cons_of_mem span hs)), h span List.mem_cons_self, convertSpan_sum]

theorem getCorePixelsAtZoom_current (hread : d.Read max maxIndex g) (hpos : 0 < d.twipsPerCorePixel) (p : ℚ) :
    g.getCorePixelsAtZoom p g.coreZoomFactor = p := by
  have hzoom : g.coreZoomFactor ≠ 0 := by
    rw [hread.factor_exact]
    exact div_ne_zero (by norm_num) hpos.ne'
  have hsize : ∀ s ∈ g.visibleSizes, sizeOneCPZ .exact g.coreZoomFactor s = s.sizecore := fun s hs => by
    rw [hread.one s hs, hread.factor_exact]
    unfold sizeOneCPZ
    rw [Arithmetic.exact_fl, Arithmetic.exact_fl, div_mul_div_cancel₀ (by norm_num)]
    rfl
  have hsum := convertSpans_sum hsize 0 (p, 0)
  unfold getCorePixelsAtZoom
  simp only [Arithmetic.exact_fl]
  rw [mul_div_cancel_right₀ _ hzoom, hsum, Int.cast_zero, zero_add]

/-! ### Tile twips -/

def sizeSpanPT (span : SpanViewData) : Int := span.value * count span

/-- A span up to the position is added whole. -/
theorem addSpan_whole (hvalue : 0 ≤ v.value) (hcount : 0 < count v) (hle : pos.2 + sizeSpanPT v ≤ posPT) :
    addSpan zoomScale posPT pos v = (pos.1 + sizeSpanTT zoomScale v, pos.2 + sizeSpanPT v) := by
  have hcountQ : (0 : ℚ) < count v := Int.cast_pos.2 hcount
  have hvalueQ : (0 : ℚ) ≤ v.value := Int.cast_nonneg hvalue
  have hsizeQ : (sizeSpanPT v : ℚ) = v.value * count v := by
    unfold sizeSpanPT
    push_cast
    rfl
  have hsize : (0 : ℚ) ≤ sizeSpanPT v := hsizeQ ▸ mul_nonneg hvalueQ hcountQ.le
  unfold addSpan
  change (if posPT ≤ pos.2 then pos else if pos.2 + sizeSpanPT v < posPT then _ else _) = _
  split
  · -- Nothing is left for the span: it is hidden.
    rename_i hdone
    have hzero : (sizeSpanPT v : ℚ) = 0 := by linarith
    have hvalueZero : v.value = 0 := by
      rw [hsizeQ] at hzero
      exact Int.cast_eq_zero.1 ((mul_eq_zero_iff_right hcountQ.ne').1 hzero)
    have htwips : sizeSpanTT zoomScale v = 0 := by
      unfold sizeSpanTT sizeOneCorePx
      simp [hvalueZero]
    rw [hzero, htwips, Int.cast_zero, add_zero, add_zero]
  · rename_i hrest
    split
    · rfl
    · -- It ends at the position.
      rename_i hend
      have heq : posPT = pos.2 + sizeSpanPT v := le_antisymm (not_lt.1 hend) hle
      have hpos : (0 : ℚ) < v.value := by
        rcases hvalueQ.lt_or_eq with hlt | hzero
        · exact hlt
        · rw [hsizeQ, ← hzero, zero_mul] at heq
          exact absurd heq.le (by rw [add_zero]; exact hrest)
      have hquot : (posPT - pos.2) / v.value = count v := by
        rw [heq, add_sub_cancel_left, hsizeQ, mul_div_cancel_left₀ _ hpos.ne']
      dsimp only
      rw [hquot, Int.floor_intCast, mul_div_cancel_left₀ _ hcountQ.ne', Int.floor_intCast, ← heq, Prod.mk.injEq]
      refine ⟨?_, rfl⟩
      rw [heq, hsizeQ]
      ring

theorem foldl_addSpan_whole {before : List SpanViewData} (hspans : ∀ u ∈ before, 0 ≤ u.value ∧ 0 < count u)
    (hle : pos.2 + (before.map sizeSpanPT).sum ≤ posPT) : before.foldl (addSpan zoomScale posPT) pos =
      (pos.1 + (before.map (sizeSpanTT zoomScale)).sum, pos.2 + (before.map sizeSpanPT).sum) := by
  induction before generalizing pos with
  | nil => simp
  | cons u before ih =>
    obtain ⟨hu, hrest⟩ := List.forall_mem_cons.1 hspans
    have hnonneg : 0 ≤ (before.map sizeSpanPT).sum := by
      refine List.sum_nonneg fun x hx => ?_
      obtain ⟨w, hw, rfl⟩ := List.mem_map.1 hx
      exact Int.mul_nonneg (hrest w hw).1 (hrest w hw).2.le
    have hnonnegQ : (0 : ℚ) ≤ (before.map sizeSpanPT).sum := Int.cast_nonneg hnonneg
    rw [List.map_cons, List.sum_cons, Int.cast_add] at hle
    rw [List.foldl_cons, addSpan_whole hu.1 hu.2 (by linarith), ih hrest (by dsimp only; linarith)]
    simp only [List.map_cons, List.sum_cons, Int.cast_add, add_assoc]

theorem foldl_addSpan_done {behind : List SpanViewData} (hdone : posPT ≤ pos.2) :
    behind.foldl (addSpan zoomScale posPT) pos = pos := by
  induction behind with
  | nil => rfl
  | cons u behind ih =>
    rw [List.foldl_cons]
    change behind.foldl _ (if posPT ≤ pos.2 then pos else _) = pos
    rw [if_pos hdone, ih]

/-- The span that the position is in. -/
theorem addSpan_final (zoomScale : ℚ) (pos : ℚ × ℚ) (hk : (k : Int) < count v) (h0 : 0 ≤ offset)
    (hoffset : offset < v.value) (hposPT : posPT = pos.2 + (k * v.value + offset)) :
    (addSpan zoomScale posPT pos v).1 = pos.1 + (⌊(k * sizeSpanTT zoomScale v : ℚ) / count v⌋ + offset) ∧
      posPT ≤ (addSpan zoomScale posPT pos v).2 := by
  have hvalue : (0 : ℚ) < v.value := h0.trans_lt hoffset
  have hkQ : (k : ℚ) + 1 ≤ count v := by exact_mod_cast hk
  have hkvalue : 0 ≤ (k : ℚ) * v.value := mul_nonneg (Nat.cast_nonneg k) hvalue.le
  have hinside : ((k : ℚ) + 1) * v.value ≤ v.value * count v := by
    rw [mul_comm]
    exact mul_le_mul_of_nonneg_left hkQ hvalue.le
  unfold addSpan
  dsimp only
  split
  · rename_i hdone
    have hzero : (k : ℚ) * v.value = 0 := by linarith
    have hkZero : (k : ℚ) = 0 := (mul_eq_zero_iff_right hvalue.ne').1 hzero
    refine ⟨?_, hdone⟩
    rw [hkZero, zero_mul, zero_div, Int.floor_zero, Int.cast_zero, zero_add]
    linarith
  · rw [if_neg (by push_cast; linarith)]
    have hquot : ⌊(posPT - pos.2) / (v.value : ℚ)⌋ = k := by
      rw [Int.floor_eq_iff, le_div_iff₀ hvalue, div_lt_iff₀ hvalue, hposPT]
      push_cast
      constructor
      · linarith
      · linarith
    rw [hquot]
    refine ⟨?_, le_refl _⟩
    push_cast
    linarith

/-- The element `k` of the span is the one at the position. -/
structure ElementAt (d : SheetDimension .exact) (v : SpanViewData) (k : Nat) (p : ℚ) : Prop where
  le_index : v.start + k ≤ v.index
  le : (d.printTwipsPos (v.start + k) : ℚ) ≤ p
  lt : p < d.printTwipsPos (v.start + k + 1)

theorem ElementAt.split (hat : d.ElementAt v k p) (hspans : d.Spans max spans) (hv : IsSpan spans v) :
    p = d.printTwipsPos v.start + (k * v.value + (p - d.printTwipsPos (v.start + k))) ∧
    p - d.printTwipsPos (v.start + k) < v.value := by
  have hlt := hat.lt
  have hle := hat.le_index
  rw [hspans.printTwipsPos_eq hv (i := v.start + k + 1) (by omega) (by omega)] at hlt
  rw [hspans.printTwipsPos_eq hv (i := v.start + k) (by omega) (by omega)]
  push_cast at hlt ⊢
  constructor
  · ring
  · linarith

/-- With a zoom scale the spans before the position's are rounded one by one. -/
theorem getTileTwipsPosFromPrintAtZoom_eq (h : d.Measured max) (hspans : d.Spans max g.visibleSizes)
    (hspanid : getSpanData g.visibleSizes spanid = some v) (hat : d.ElementAt v k p) :
    g.getTileTwipsPosFromPrintAtZoom p zoomScale =
      ((spansBefore g.visibleSizes spanid).map (sizeSpanTT zoomScale)).sum +
      (⌊(k * sizeSpanTT zoomScale v : ℚ) / count v⌋ + (p - d.printTwipsPos (v.start + k))) := by
  have hv : IsSpan g.visibleSizes v := ⟨spanid, hspanid⟩
  obtain ⟨behind, hsplit, -, -⟩ := forEachSpan_split hspans.ends hspanid
  obtain ⟨hp, hoffset⟩ := hat.split hspans hv
  have hprint : ((spansBefore g.visibleSizes spanid).map sizeSpanPT).sum = d.printTwipsPos v.start :=
    hspans.sum_before (fun size => size) hspanid
  have hbefore : ∀ u ∈ spansBefore g.visibleSizes spanid, 0 ≤ u.value ∧ 0 < count u := fun u hu => by
    have hu := isSpan_of_before hu
    exact ⟨hspans.value_nonneg h hu, hspans.elements_pos hu⟩
  have hle : (d.printTwipsPos v.start : ℚ) ≤ p :=
    (Int.cast_le.2 (h.monotone_print (Nat.le_add_right _ k))).trans hat.le
  have hk : (k : Int) < count v := by
    have := hat.le_index
    unfold count
    omega
  have hwhole : (spansBefore g.visibleSizes spanid).foldl (addSpan zoomScale p) (0, 0) =
      ((((spansBefore g.visibleSizes spanid).map (sizeSpanTT zoomScale)).sum : ℚ),
      (d.printTwipsPos v.start : ℚ)) := by
    rw [foldl_addSpan_whole hbefore (by rw [hprint, zero_add]; exact hle), hprint, zero_add, zero_add]
  obtain ⟨hfinal, hdone⟩ := addSpan_final zoomScale
    ((((spansBefore g.visibleSizes spanid).map (sizeSpanTT zoomScale)).sum : ℚ), (d.printTwipsPos v.start : ℚ)) hk
    (sub_nonneg.2 hat.le) hoffset hp
  unfold getTileTwipsPosFromPrintAtZoom
  rw [hsplit, List.foldl_append, List.foldl_cons, hwhole, foldl_addSpan_done hdone, hfinal]

/-- Where the element of a span is converted to without a zoom scale. -/
theorem Read.convert_eq (hspans : d.Read max maxIndex g) (hv : IsSpan g.visibleSizes v) (hstart : v.start ≤ i)
    (hi : i ≤ v.index) :
    g.convert ⟨some i, some v⟩ p .printtwips .tiletwips = some (d.tileTwipsPos i + (p - d.printTwipsPos i)) := by
  have hprint : v.posprinttwips - v.value * (v.index - i + 1) = d.printTwipsPos i := by
    rw [hspans.print _ hv.mem, hspans.printTwipsPos_eq hv (i := v.index + 1) (by omega) (le_refl _),
      hspans.printTwipsPos_eq hv hstart (by omega)]
    push_cast
    ring
  have hcore : v.poscorepx - v.sizecore * (v.index - i + 1) = d.corePixelPos i := by
    rw [hspans.core _ hv.mem, hspans.corePixelPos_in hv (i := v.index + 1) (by omega) (le_refl _),
      hspans.corePixelPos_in hv hstart (by omega)]
    push_cast
    ring
  unfold convert getElementDataAnyFromSpanByIndex
  dsimp only
  rw [Option.bind_some, if_neg (by omega), if_neg (by omega), Option.bind_some, Option.map_some, hprint, hcore,
    hspans.ratio_eq]
  rfl

/-- The twips of a span before they are rounded down. -/
def exactTwips (g : DimensionPositions .exact) (span : SpanViewData) : ℚ :=
    (span.sizecore * count span : Int) * g.twipsPerCorePixel

/-- What the roundings of the spans take away from the start of the element `k` of a span. -/
def dropped (g : DimensionPositions .exact) (spanid : Nat) (v : SpanViewData) (k : Nat) : ℚ :=
  ((spansBefore g.visibleSizes spanid).map fun u => Int.fract (exactTwips g u)).sum +
    (k * Int.fract (exactTwips g v) / count v + Int.fract ((k * ⌊exactTwips g v⌋ : ℚ) / count v))

theorem dropped_nonneg (hcount : 0 < count v) : 0 ≤ dropped g spanid v k := by
  have hcountQ : (0 : ℚ) < count v := Int.cast_pos.2 hcount
  refine add_nonneg (List.sum_nonneg fun x hx => ?_) (add_nonneg ?_ (Int.fract_nonneg _))
  · obtain ⟨u, -, rfl⟩ := List.mem_map.1 hx
    exact Int.fract_nonneg _
  · exact div_nonneg (mul_nonneg (Nat.cast_nonneg k) (Int.fract_nonneg _)) hcountQ.le

theorem sum_exactTwips (g : DimensionPositions .exact) (l : List SpanViewData) :
    ((l.map fun u => u.sizecore * count u).sum : Int) * g.twipsPerCorePixel =
      (l.map fun u => ⌊exactTwips g u⌋).sum + (l.map fun u => Int.fract (exactTwips g u)).sum := by
  induction l with
  | nil => simp
  | cons u l ih =>
    have hu : (u.sizecore * count u : Int) * g.twipsPerCorePixel = ⌊exactTwips g u⌋ + Int.fract (exactTwips g u) :=
      (Int.floor_add_fract (exactTwips g u)).symm
    rw [List.map_cons, List.sum_cons, Int.cast_add, add_mul, hu, ih, List.map_cons, List.sum_cons, List.map_cons,
      List.sum_cons, Int.cast_add]
    ring

theorem sizeSpanTT_current (hspans : d.Read max maxIndex g) (hv : IsSpan g.visibleSizes v) :
    sizeSpanTT g.coreZoomFactor v = ⌊exactTwips g v⌋ := by
  unfold sizeSpanTT exactTwips
  rw [sizeOneCorePx_current hspans hv, hspans.factor_exact, hspans.ratio_eq, mul_div_assoc,
    div_div_cancel₀ (by norm_num)]

/-- The start of an element, and what the roundings leave of it. -/
theorem Read.exactPos_eq (hspans : d.Read max maxIndex g) (hspanid : getSpanData g.visibleSizes spanid = some v)
    (hk : v.start + k ≤ v.index) :
    d.exactPos (v.start + k) = (((spansBefore g.visibleSizes spanid).map (sizeSpanTT g.coreZoomFactor)).sum +
      ⌊(k * sizeSpanTT g.coreZoomFactor v : ℚ) / count v⌋ : Int) + dropped g spanid v k := by
  have hv : IsSpan g.visibleSizes v := ⟨spanid, hspanid⟩
  have hcount : (0 : ℚ) < count v := Int.cast_pos.2 (hspans.elements_pos hv)
  have htwips : (spansBefore g.visibleSizes spanid).map (sizeSpanTT g.coreZoomFactor) =
      (spansBefore g.visibleSizes spanid).map fun u => ⌊exactTwips g u⌋ :=
    List.map_congr_left fun u hu => sizeSpanTT_current hspans (isSpan_of_before hu)
  have hsum := sum_exactTwips g (spansBefore g.visibleSizes spanid)
  rw [hspans.core_before hspanid] at hsum
  have hpart : (k : ℚ) * exactTwips g v / count v = k * v.sizecore * g.twipsPerCorePixel := by
    unfold exactTwips
    rw [div_eq_iff hcount.ne']
    push_cast
    ring
  have hfloor : (k : ℚ) * exactTwips g v / count v =
      ⌊(k * ⌊exactTwips g v⌋ : ℚ) / count v⌋ +
        (k * Int.fract (exactTwips g v) / count v + Int.fract ((k * ⌊exactTwips g v⌋ : ℚ) / count v)) := by
    have hwhole := Int.floor_add_fract ((k * ⌊exactTwips g v⌋ : ℚ) / count v)
    have hsplit : (k : ℚ) * exactTwips g v / count v =
        (k * ⌊exactTwips g v⌋ : ℚ) / count v + k * Int.fract (exactTwips g v) / count v := by
      rw [← add_div, ← mul_add, Int.floor_add_fract]
    rw [hsplit]
    linarith
  unfold exactPos dropped
  rw [Arithmetic.exact_fl, hspans.corePixelPos_in hv (Nat.le_add_right _ k) (by omega), htwips,
    sizeSpanTT_current hspans hv, ← hspans.ratio_eq]
  push_cast
  push_cast at hsum
  linarith

theorem Read.tileTwipsPos_eq (hspans : d.Read max maxIndex g) (hspanid : getSpanData g.visibleSizes spanid = some v)
    (hk : v.start + k ≤ v.index) :
    d.tileTwipsPos (v.start + k) = ((spansBefore g.visibleSizes spanid).map (sizeSpanTT g.coreZoomFactor)).sum +
      ⌊(k * sizeSpanTT g.coreZoomFactor v : ℚ) / count v⌋ + ⌊dropped g spanid v k⌋ := by
  unfold tileTwipsPos
  rw [hspans.exactPos_eq hspanid hk, Int.floor_intCast_add]

/-- Between two spans no span is found, and the last element is taken. -/
theorem getSpanAndIndex_between (h : d.Measured max) (hread : d.Read max max g) (hp0 : 0 ≤ p)
    (hp : p ≤ d.printTwipsPos (max + 1)) (hbetween : BetweenSpans max g.visibleSizes d.printTwipsPos p) :
    ∃ v, IsSpan g.visibleSizes v ∧ v.start ≤ max ∧ max ≤ v.index ∧
    g.getSpanAndIndexFromPrintTwipsPos p = ⟨some max, some v⟩ := by
  obtain ⟨v, hv, hstart, hend⟩ := exists_isSpan hread.ends (le_refl max)
  refine ⟨v, hv, hstart, hend, ?_⟩
  rw [hread.print_eq_lookup h.monotone_print,
    lookup_of_none (((hread.endsOf_print h.monotone_print).not_found_iff hp0 hp).2 hbetween)]
  unfold limit
  rw [if_pos hp0, hread.maxIndex_eq]
  dsimp only
  rw [(getSpanDataByIndex_eq_some hread.ends).2 ⟨hv, Int.ofNat_le.2 hstart, Int.ofNat_le.2 hend⟩]

theorem getSpanAndIndex_inside (h : d.Measured max) (hread : d.Read max maxIndex g) (hv : IsSpan g.visibleSizes v)
    (hat : d.ElementAt v k p) (hbetween : ¬ BetweenSpans max g.visibleSizes d.printTwipsPos p) :
    g.getSpanAndIndexFromPrintTwipsPos p = ⟨some (v.start + k : Nat), some v⟩ := by
  have hfound := (hread.endsOf_print h.monotone_print).found_of_element hbetween hv
    (Nat.le_add_right _ k) hat.le_index hat.le hat.lt
  rw [hread.print_eq_lookup h.monotone_print, lookup_of_found hfound]
  rw [(hread.printIndex_iff hv (Nat.le_add_right _ k) hat.le_index (hread.value_nonneg h hv)).2 ⟨hat.le, hat.lt⟩]

/-- How far the start of an element is displaced from print twips to tile twips. -/
def displacement (d : SheetDimension .exact) (i : Nat) : Int := d.tileTwipsPos i - d.printTwipsPos i

/-- At the current zoom the zoomed paths give the same elements and core pixels, and the same tile twips where the
roundings take away less than a twip.  Between two spans the last element is taken, and so its displacement counts. -/
theorem zoomPaths_iff (h : d.Measured max) : ∃ g, d.positions max = some g ∧
    (∀ index : Int, some (g.getElementDataAtZoom index g.coreZoomFactor) = g.getElementData index ↔
      0 ≤ index ∧ index ≤ max) ∧
    (∀ p : ℚ, g.getCorePixelsAtZoom p g.coreZoomFactor = p) ∧
    ∀ p : ℚ, 0 ≤ p → p < d.printTwipsPos (max + 1) → ∃ spanid v k,
      getSpanData g.visibleSizes spanid = some v ∧ d.ElementAt v k p ∧
      (some (g.getTileTwipsPosFromPrintAtZoom p g.coreZoomFactor) = g.getTileTwipsPosFromPrint p ↔
        ¬ BetweenSpans max g.visibleSizes d.printTwipsPos p ∧ dropped g spanid v k < 1 ∨
          BetweenSpans max g.visibleSizes d.printTwipsPos p ∧
            d.displacement max + ⌊dropped g spanid v k⌋ = d.displacement (v.start + k)) := by
  obtain ⟨g, hg, hread⟩ := exists_positions h.toWellFormed max
  have hspans := hread.toSpans
  refine ⟨g, hg, fun index => getElementDataAtZoom_iff hread, getCorePixelsAtZoom_current hread h.ratio_pos,
    fun p hp0 hp => ?_⟩
  obtain ⟨i, hi, hle, hlt⟩ := exists_element (hspans.endsOf_print h.monotone_print).zero hp0 hp
  obtain ⟨v, hv, hstart, hend⟩ := exists_isSpan hspans.ends (Nat.le_of_lt_succ hi)
  obtain ⟨k, rfl⟩ := Nat.exists_eq_add_of_le hstart
  obtain ⟨spanid, hspanid⟩ := hv
  have hv : IsSpan g.visibleSizes v := ⟨spanid, hspanid⟩
  have hat : d.ElementAt v k p := ⟨hend, hle, hlt⟩
  refine ⟨spanid, v, k, hspanid, hat, ?_⟩
  have htile := hread.tileTwipsPos_eq hspanid hend
  have hnonneg : 0 ≤ dropped g spanid v k := dropped_nonneg (hspans.elements_pos hv)
  rw [getTileTwipsPosFromPrintAtZoom_eq h hspans hspanid hat]
  unfold getTileTwipsPosFromPrint
  by_cases hbetween : BetweenSpans max g.visibleSizes d.printTwipsPos p
  · obtain ⟨w, hw, hwstart, hwend, hlast⟩ := getSpanAndIndex_between h hread hp0 hp.le hbetween
    rw [hlast, hread.convert_eq hw hwstart hwend, Option.some.injEq, or_iff_right fun hboth => hboth.1 hbetween,
      and_iff_right hbetween]
    unfold displacement
    rw [htile]
    constructor
    · intro heq
      have heq' : (d.tileTwipsPos max - d.printTwipsPos max + ⌊dropped g spanid v k⌋ : ℚ) =
          ((((spansBefore g.visibleSizes spanid).map (sizeSpanTT g.coreZoomFactor)).sum +
            ⌊(k * sizeSpanTT g.coreZoomFactor v : ℚ) / count v⌋ + ⌊dropped g spanid v k⌋ : Int) : ℚ) -
              d.printTwipsPos (v.start + k) := by
        push_cast at heq ⊢
        linarith
      exact_mod_cast heq'
    · intro heq
      have heq' := congrArg (Int.cast (R := ℚ)) heq
      push_cast at heq' ⊢
      linarith
  · rw [getSpanAndIndex_inside h hread hv hat hbetween, hread.convert_eq hv hstart hend, Option.some.injEq,
      or_iff_left fun hboth => hbetween hboth.1, and_iff_right hbetween, htile]
    constructor
    · intro heq
      push_cast at heq
      have hzero : (⌊dropped g spanid v k⌋ : ℚ) = 0 := by linarith
      exact (Int.floor_eq_zero_iff.1 (Int.cast_eq_zero.1 hzero)).2
    · intro hlt
      rw [Int.floor_eq_zero_iff.2 ⟨hnonneg, hlt⟩]
      push_cast
      ring

/-- Where a core pixel has whole twips nothing is rounded. -/
theorem dropped_of_whole {n : Int} (hspans : d.Spans max g.visibleSizes) (hn : g.twipsPerCorePixel = n)
    (hv : IsSpan g.visibleSizes v) : dropped g spanid v k = 0 := by
  have hwhole (u : SpanViewData) : exactTwips g u = (u.sizecore * count u * n : Int) := by
    unfold exactTwips
    rw [hn]
    push_cast
    rfl
  have hcount : (count v : ℚ) ≠ 0 := (Int.cast_pos.2 (hspans.elements_pos hv)).ne'
  have hpart : ((k * ⌊exactTwips g v⌋ : ℚ) / count v) = (k * v.sizecore * n : Int) := by
    rw [hwhole, Int.floor_intCast, div_eq_iff hcount]
    push_cast
    ring
  have hfract (u : SpanViewData) : Int.fract (exactTwips g u) = 0 := by
    rw [hwhole, Int.fract_intCast]
  unfold dropped
  rw [hpart, Int.fract_intCast]
  simp [hfract]

section Examples

theorem zoomPaths_iff_tenColumns : ∃ g, (tenColumns .exact).positions 9 = some g ∧
    some (g.getElementDataAtZoom 3 g.coreZoomFactor) = g.getElementData 3 ∧
      g.getCorePixelsAtZoom 50 g.coreZoomFactor = 50 ∧
    some (g.getTileTwipsPosFromPrintAtZoom 100 g.coreZoomFactor) = g.getTileTwipsPosFromPrint 100 := by
  obtain ⟨g, hg, helement, hcore, hprint⟩ := zoomPaths_iff (measured_tenColumns .exact)
  obtain ⟨g', hg', hread⟩ := exists_positions (measured_tenColumns .exact).toWellFormed 9
  obtain rfl : g = g' := Option.some.inj (hg.symm.trans hg')
  have htotal : (tenColumns .exact).printTwipsPos 10 = 10240 := by decide
  have hratio : g.twipsPerCorePixel = (15 : Int) := by
    rw [hread.ratio_eq]
    norm_num [twipsPerCorePixel, tenColumns]
  obtain ⟨spanid, v, k, hv, -, hiff⟩ := hprint 100 (by norm_num) (by rw [htotal]; norm_num)
  refine ⟨g, hg, (helement 3).2 ⟨by decide, by decide⟩, hcore 50, hiff.2 (.inl ⟨not_betweenSpans_intCast _ 100, ?_⟩)⟩
  rw [dropped_of_whole hread.toSpans hratio ⟨spanid, hv⟩]
  exact one_pos

/-- Columns of 101, 103 and 101 pixels at a zoom of 120%. -/
def unevenColumns : SheetDimension .exact where
  sizes := { spanlist := [⟨0, 1265⟩, ⟨1, 1290⟩, ⟨2, 1265⟩] }
  hidden := { startBit := false, spanlist := [2] }
  filtered := { startBit := false, spanlist := [2] }
  tileSizeTwips := 3200
  tileSizePixels := 256

theorem positions_unevenColumns : unevenColumns.positions 2 = some
    { visibleSizes :=
      [⟨⟨0, 1265⟩, 101, 101, 1262, 1265⟩, ⟨⟨1, 1290⟩, 103, 204, 2550, 2555⟩, ⟨⟨2, 1265⟩, 101, 305, 3812, 3820⟩]
      twipsPerCorePixel := 25 / 2
      coreZoomFactor := 6 / 5
      maxIndex := 2 } := by
  simp [positions, updateVisible, unevenColumns, BoolSpanList.union, BoolSpanList.unionLoop, SpanList.applyZeroValues,
    SpanList.applyLoop, positionsFrom, twipsPerCorePixel, coreZoomFactor]
  norm_num

/-- The third column starts at the tile twip 2550.  With the zoom scale the 1262.5 and 1287.5 twips of the two before
it are rounded down first. -/
theorem not_zoomPaths : ¬ ∀ (d : SheetDimension .exact) (max : Nat), d.Measured max → ∃ g, d.positions max = some g ∧
    (∀ index : Int, 0 ≤ index → index ≤ max →
      some (g.getElementDataAtZoom index g.coreZoomFactor) = g.getElementData index) ∧
    (∀ p : ℚ, g.getCorePixelsAtZoom p g.coreZoomFactor = p) ∧
    ∀ p : ℚ, 0 ≤ p → p < d.printTwipsPos (max + 1) →
      some (g.getTileTwipsPosFromPrintAtZoom p g.coreZoomFactor) = g.getTileTwipsPosFromPrint p := by
  intro h
  have hmeasured : unevenColumns.Measured 2 :=
    { sizes := ⟨by decide, rfl⟩, hidden := ⟨by decide, rfl⟩, filtered := ⟨by decide, rfl⟩
      sizes_nonneg := by simp [unevenColumns], tileSizeTwips_pos := by norm_num [unevenColumns]
      tileSizePixels_pos := by norm_num [unevenColumns] }
  obtain ⟨g, hg, -, -, hprint⟩ := h unevenColumns 2 hmeasured
  obtain ⟨g', hg', hread⟩ := exists_positions hmeasured.toWellFormed 2
  obtain rfl : g = g' := Option.some.inj (hg.symm.trans hg')
  obtain rfl := Option.some.inj (hg.symm.trans positions_unevenColumns)
  have hspans := hread.toSpans
  have htwo : unevenColumns.printTwipsPos 2 = 2555 ∧ unevenColumns.printTwipsPos 3 = 3820 := by decide
  have hat : unevenColumns.ElementAt ⟨⟨⟨2, 1265⟩, 101, 305, 3812, 3820⟩, 2⟩ 0 2555 :=
    ⟨le_refl 2, by rw [show 2 + 0 = 2 from rfl, htwo.1]; norm_num,
      by rw [show 2 + 0 + 1 = 3 from rfl, htwo.2]; norm_num⟩
  have hspanid : getSpanData [⟨⟨0, 1265⟩, 101, 101, 1262, 1265⟩, ⟨⟨1, 1290⟩, 103, 204, 2550, 2555⟩,
      ⟨⟨2, 1265⟩, 101, 305, 3812, 3820⟩] 2 =
      some ⟨⟨⟨2, 1265⟩, 101, 305, 3812, 3820⟩, 2⟩ := rfl
  have heq := hprint 2555 (by norm_num) (by rw [htwo.2]; norm_num)
  rw [getTileTwipsPosFromPrintAtZoom_eq hmeasured hspans hspanid hat] at heq
  unfold getTileTwipsPosFromPrint at heq
  rw [getSpanAndIndex_inside hmeasured hread ⟨2, hspanid⟩ hat (not_betweenSpans_intCast _ 2555),
    hread.convert_eq ⟨2, hspanid⟩ (le_refl 2) (le_refl 2), Option.some.injEq] at heq
  have htile : unevenColumns.tileTwipsPos 2 = 2550 :=
    (hspans.tile ⟨⟨1, 1290⟩, 103, 204, 2550, 2555⟩ (List.mem_cons_of_mem _ List.mem_cons_self)).symm
  have hrounded : ((spansBefore [⟨⟨0, 1265⟩, 101, 101, 1262, 1265⟩, ⟨⟨1, 1290⟩, 103, 204, 2550, 2555⟩,
      ⟨⟨2, 1265⟩, 101, 305, 3812, 3820⟩] 2).map (sizeSpanTT (6 / 5))).sum = 2549 := by
    change sizeSpanTT (6 / 5) ⟨⟨⟨0, 1265⟩, 101, 101, 1262, 1265⟩, 0⟩ +
      (sizeSpanTT (6 / 5) ⟨⟨⟨1, 1290⟩, 103, 204, 2550, 2555⟩, 1⟩ + 0) = 2549
    norm_num [sizeSpanTT, sizeOneCorePx, count]
  dsimp only at heq
  rw [hrounded, htile] at heq
  norm_num at heq

end Examples

end SheetDimension

end CollaboraOnline
