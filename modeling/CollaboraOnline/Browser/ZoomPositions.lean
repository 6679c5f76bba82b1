import Mathlib
import CollaboraOnline.Browser.SheetPositions

/-!
# Positions at another zoom

A position is converted span by span: as many whole elements as it holds, and what is left of it by the ratio of the
zooms.  The sizes of the elements are rounded down to pixels at both zooms, so that an offset in an element can be
scaled beyond the size that the element has at the other zoom.  In doubles the whole elements are found and taken away
exactly (`convertSpans_binary64`), and only the scaled offset is rounded.
-/

namespace CollaboraOnline

open Rounding

variable {A : Arithmetic}

namespace DimensionPositions

def sizeOneCPZ (A : Arithmetic) (zoomScale : ℚ) (span : PositionedSpan) : Int :=
    ⌊A.fl (A.fl (span.value / 15) * zoomScale)⌋

/-- The callback of both conversions: the position that is not converted yet, and what the rest of it was converted
to. -/
def convertSpan (A : Arithmetic) (elementCount sizeOne sizeOneTo : Int) (pos : ℚ × Int) : ℚ × Int :=
  if pos.1 < sizeOne then pos
  else if (sizeOne * elementCount : Int) ≤ pos.1 then
    (A.fl (pos.1 - (sizeOne * elementCount : Int)), pos.2 + sizeOneTo * elementCount)
  else
    let elems := ⌊A.fl (pos.1 / sizeOne)⌋
    (A.fl (pos.1 - (elems * sizeOne : Int)), pos.2 + elems * sizeOneTo)

/-- `forEachSpan`: the callback does not end the loop. -/
def convertSpans (A : Arithmetic) (sizeOne sizeOneTo : PositionedSpan → Int) :
    Nat → List PositionedSpan → ℚ × Int → ℚ × Int
  | _, [], pos => pos
  | start, span :: spans, pos =>
    convertSpans A sizeOne sizeOneTo (span.index + 1) spans
      (convertSpan A (span.index + 1 - start) (sizeOne span) (sizeOneTo span) pos)

def getCorePixelsAtZoom (g : DimensionPositions A) (posCP zoomScale : ℚ) : ℚ :=
  let (posCPRem, posCPZ) := convertSpans A (·.sizecore) (sizeOneCPZ A zoomScale) 0 g.visibleSizes (posCP, 0)
  A.fl (posCPZ + A.fl (A.fl (posCPRem * zoomScale) / g.coreZoomFactor))

def getCorePixelsFromZoom (g : DimensionPositions A) (posCPZ zoomScale : ℚ) : ℚ :=
  let (posCPZRem, posCP) := convertSpans A (sizeOneCPZ A zoomScale) (·.sizecore) 0 g.visibleSizes (posCPZ, 0)
  A.fl (posCP + A.fl (A.fl (posCPZRem * g.coreZoomFactor) / zoomScale))

/-! ### One span -/

variable {elementCount sizeOne sizeOneTo base : Int} {rem offset : ℚ}

/-- A span whose elements are larger than what is left, or without a pixel, changes nothing. -/
theorem convertSpan_skip (h : rem < sizeOne ∨ sizeOne = 0 ∧ sizeOneTo = 0) :
    convertSpan .exact elementCount sizeOne sizeOneTo (rem, base) = (rem, base) := by
  unfold convertSpan
  dsimp only
  split
  · rfl
  · rename_i hrest
    obtain ⟨rfl, rfl⟩ := h.resolve_left hrest
    split <;> simp

/-- The span that the position is in: what is left is the offset in the element. -/
theorem convertSpan_inside {elems : Int} (helems : 0 ≤ elems) (hlt : elems < elementCount) (hoffset : 0 ≤ offset)
    (hinside : offset < sizeOne) :
      convertSpan .exact elementCount sizeOne sizeOneTo ((elems * sizeOne : Int) + offset, base) =
      (offset, base + elems * sizeOneTo) := by
  have hpos : (0 : ℚ) < sizeOne := hoffset.trans_lt hinside
  unfold convertSpan
  dsimp only
  by_cases hfirst : elems = 0
  · subst hfirst
    rw [if_pos (by push_cast; linarith)]
    simp
  · have hone : (1 : ℚ) ≤ elems := by exact_mod_cast (by omega : 1 ≤ elems)
    have hnext : (elems : ℚ) + 1 ≤ elementCount := by exact_mod_cast hlt
    have hquot : ⌊((elems * sizeOne : Int) + offset : ℚ) / sizeOne⌋ = elems := by
      rw [Int.floor_eq_iff]
      constructor
      · rw [le_div_iff₀ hpos]
        push_cast
        linarith
      · rw [div_lt_iff₀ hpos]
        push_cast
        linarith
    rw [if_neg, if_neg]
    · simp only [Arithmetic.exact_fl, hquot]
      simp
    · push_cast
      nlinarith
    · push_cast
      nlinarith

/-- A span before the position is converted whole. -/
theorem convertSpan_before (hcount : 0 < elementCount) (hsize : 0 ≤ sizeOne) (hrem : 0 ≤ rem) :
    convertSpan .exact elementCount sizeOne sizeOneTo ((sizeOne * elementCount : Int) + rem, base) =
      (rem, base + sizeOneTo * elementCount) := by
  have hone : (sizeOne : ℚ) ≤ (sizeOne * elementCount : Int) := by
    exact_mod_cast le_mul_of_one_le_right hsize (by omega : 1 ≤ elementCount)
  unfold convertSpan
  dsimp only
  rw [if_neg (by linarith), if_pos (by linarith)]
  simp

/-- In doubles a span is converted as in the exact arithmetic. -/
theorem convertSpan_binary64 (sizeOneTo base : Int) (hcount : 0 < elementCount) (hsize : 0 ≤ sizeOne)
    (hfloat : IsFloat 53 rem) (hrem : 0 ≤ rem) (hle : rem ≤ 2 ^ 51) (hsizeLe : sizeOne ≤ 2 ^ 51) : ∃ rem' base',
      convertSpan .binary64 elementCount sizeOne sizeOneTo (rem, base) = (rem', base') ∧
        convertSpan .exact elementCount sizeOne sizeOneTo (rem, base) = (rem', base') ∧ IsFloat 53 rem' ∧ 0 ≤ rem' ∧
        rem' ≤ rem := by
  have hbound : rem ≤ 2 ^ 53 := hle.trans (by norm_num)
  -- Whole numbers of elements are taken away.
  have hsub {n : Int} (hn : 0 ≤ n) (hnle : (n : ℚ) ≤ rem) :
      Arithmetic.binary64.fl (rem - n) = rem - n ∧ IsFloat 53 (rem - n) ∧ 0 ≤ rem - n ∧ rem - n ≤ rem := by
    have hkept := isFloat_sub_intCast hfloat hn hnle hbound
    exact ⟨round_of_isFloat hkept, hkept, sub_nonneg.2 hnle, sub_le_self _ (Int.cast_nonneg hn)⟩
  unfold convertSpan
  dsimp only
  by_cases hdone : rem < sizeOne
  · rw [if_pos hdone, if_pos hdone]
    exact ⟨rem, base, rfl, rfl, hfloat, hrem, le_refl _⟩
  · rw [if_neg hdone, if_neg hdone]
    by_cases hwhole : ((sizeOne * elementCount : Int) : ℚ) ≤ rem
    · obtain ⟨heq, hkept⟩ := hsub (Int.mul_nonneg hsize hcount.le) hwhole
      rw [if_pos hwhole, if_pos hwhole, heq, Arithmetic.exact_fl]
      exact ⟨_, _, rfl, rfl, hkept⟩
    · rw [if_neg hwhole, if_neg hwhole]
      have hpos : 0 < sizeOne := by
        rcases hsize.lt_or_eq with hpos | rfl
        · exact hpos
        · rw [Int.zero_mul, Int.cast_zero] at hwhole
          exact absurd hrem hwhole
      have hposQ : (0 : ℚ) < sizeOne := Int.cast_pos.2 hpos
      have hfloor : ⌊Arithmetic.binary64.fl (rem / sizeOne)⌋ = ⌊rem / sizeOne⌋ := by
        obtain ⟨n, rfl⟩ := Int.eq_ofNat_of_zero_le hsize
        have hn : ((n : Int) : ℚ) ≤ 2 ^ 51 := by exact_mod_cast hsizeLe
        have hsmall : (2 : ℚ) ^ 51 * 4 = 2 ^ 53 := by norm_num
        rw [Int.cast_natCast] at hn ⊢
        exact hfloat.floor_round_div hrem (Int.natCast_pos.1 hpos) (by linarith)
      have hnonneg : 0 ≤ ⌊rem / sizeOne⌋ * sizeOne :=
        Int.mul_nonneg (Int.floor_nonneg.2 (div_nonneg hrem hposQ.le)) hsize
      have htaken : ((⌊rem / sizeOne⌋ * sizeOne : Int) : ℚ) ≤ rem := by
        push_cast
        exact (le_div_iff₀ hposQ).1 (Int.floor_le _)
      obtain ⟨heq, hkept⟩ := hsub hnonneg htaken
      rw [hfloor, Arithmetic.exact_fl, heq, Arithmetic.exact_fl]
      exact ⟨_, _, rfl, rfl, hkept⟩

/-! ### All spans -/

variable {size sizeTo : PositionedSpan → Int} {spans : List PositionedSpan} {start i : Nat}

theorem convertSpans_binary64 (hstart : ∀ s ∈ spans, start ≤ s.index)
    (hsorted : (spans.map (·.index)).Pairwise (· < ·))
    (hsize : ∀ s ∈ spans, 0 ≤ size s ∧ size s ≤ 2 ^ 51) (hfloat : IsFloat 53 rem) (hrem : 0 ≤ rem)
    (hle : rem ≤ 2 ^ 51) : convertSpans .binary64 size sizeTo start spans (rem, base) =
      convertSpans .exact size sizeTo start spans (rem, base) := by
  induction spans generalizing start rem base with
  | nil => rfl
  | cons span spans ih =>
    have hspan := hstart span List.mem_cons_self
    obtain ⟨hlt, hsorted⟩ := List.pairwise_cons.1 hsorted
    obtain ⟨hnonneg, hbound⟩ := hsize span List.mem_cons_self
    obtain ⟨rem', base', hdouble, hexact, hfloat', hrem', hle'⟩ := convertSpan_binary64 (sizeTo span) base
      (by omega : (0 : Int) < span.index + 1 - start) hnonneg hfloat hrem hle hbound
    rw [convertSpans, convertSpans, hdouble, hexact]
    exact ih (fun s hs => hlt s.index (List.mem_map_of_mem hs)) hsorted
      (fun s hs => hsize s (List.mem_cons_of_mem span hs)) hfloat' hrem' (hle'.trans hle)

/-- Spans whose elements are larger than what is left, or without a pixel, change nothing. -/
theorem convertSpans_skip (h : ∀ s ∈ spans, rem < size s ∨ size s = 0 ∧ sizeTo s = 0) :
    convertSpans .exact size sizeTo start spans (rem, base) = (rem, base) := by
  induction spans generalizing start with
  | nil => rfl
  | cons span spans ih =>
    obtain ⟨hspan, hrest⟩ := List.forall_mem_cons.1 h
    rw [convertSpans, convertSpan_skip hspan]
    exact ih hrest

/-- The sizes of the elements of some spans. -/
def elementSize (size : PositionedSpan → Int) : List PositionedSpan → Nat → Int
  | [], _ => 0
  | s :: spans, i => if i ≤ s.index then size s else elementSize size spans i

theorem elementSize_first {s : PositionedSpan} (h : i ≤ s.index) : elementSize size (s :: spans) i = size s := by
  rw [elementSize, if_pos h]

theorem elementSize_later {s : PositionedSpan} (h : s.index < i) :
    elementSize size (s :: spans) i = elementSize size spans i := by
  rw [elementSize, if_neg (by omega)]

theorem elementSize_nonneg (hsize : ∀ s ∈ spans, 0 ≤ size s) (i : Nat) : 0 ≤ elementSize size spans i := by
  induction spans with
  | nil => exact le_refl _
  | cons s spans ih =>
    rw [elementSize]
    split
    · exact hsize s List.mem_cons_self
    · exact ih fun t ht => hsize t (List.mem_cons_of_mem s ht)

/-- The elements of a span up to one of them, or up to its end. -/
theorem sum_first {s : PositionedSpan} (hstart : start ≤ i) (h : i ≤ s.index + 1) :
    ∑ j ∈ Finset.Ico start i, elementSize size (s :: spans) j = (i - start : Int) * size s := by
  have hconst : ∑ j ∈ Finset.Ico start i, elementSize size (s :: spans) j = ∑ _j ∈ Finset.Ico start i, size s := by
    refine Finset.sum_congr rfl fun j hj => ?_
    have := (Finset.mem_Ico.1 hj).2
    exact elementSize_first (by omega)
  rw [hconst, Finset.sum_const, Nat.card_Ico, nsmul_eq_mul]
  push_cast [Nat.cast_sub hstart]
  ring

theorem sum_later {s : PositionedSpan} (hstart : start ≤ s.index) (h : s.index < i) :
    ∑ j ∈ Finset.Ico start i, elementSize size (s :: spans) j =
      size s * (s.index + 1 - start) + ∑ j ∈ Finset.Ico (s.index + 1) i, elementSize size spans j := by
  rw [← Finset.sum_Ico_consecutive _ (by omega : start ≤ s.index + 1) (by omega : s.index + 1 ≤ i),
    sum_first (by omega) (le_refl _)]
  congr 1
  · push_cast
    ring
  · refine Finset.sum_congr rfl fun j hj => ?_
    have := (Finset.mem_Ico.1 hj).1
    exact elementSize_later (by omega)

/-- A position is converted to the start of its element, and the offset is left: the spans before it are converted
whole, and the later ones change nothing. -/
theorem convertSpans_inside (hstart : ∀ s ∈ spans, start ≤ s.index) (hsorted : (spans.map (·.index)).Pairwise (· < ·))
    (hsize : ∀ s ∈ spans, 0 ≤ size s) (hi : start ≤ i) (hoffset : 0 ≤ offset)
    (hinside : (∃ s ∈ spans, i ≤ s.index) → offset < elementSize size spans i)
    (hlater : ∀ s ∈ spans, i ≤ s.index → offset < size s ∨ size s = 0 ∧ sizeTo s = 0) :
    convertSpans .exact size sizeTo start spans
      ((∑ j ∈ Finset.Ico start i, elementSize size spans j : Int) + offset, base) =
      (offset, base + ∑ j ∈ Finset.Ico start i, elementSize sizeTo spans j) := by
  induction spans generalizing start base with
  | nil => simp [convertSpans, elementSize]
  | cons span spans ih =>
    have hspan := hstart span List.mem_cons_self
    obtain ⟨hlt, hsorted⟩ := List.pairwise_cons.1 hsorted
    have hnext : ∀ s ∈ spans, span.index + 1 ≤ s.index := fun s hs => hlt s.index (List.mem_map_of_mem hs)
    have hsizes : ∀ s ∈ spans, 0 ≤ size s := fun s hs => hsize s (List.mem_cons_of_mem span hs)
    by_cases hin : i ≤ span.index
    · have hoff : offset < size span := by
        have := hinside ⟨span, List.mem_cons_self, hin⟩
        rwa [elementSize_first hin] at this
      rw [convertSpans, sum_first hi (by omega), sum_first hi (by omega),
        convertSpan_inside (by omega) (by omega) hoffset hoff]
      exact convertSpans_skip fun s hs => hlater s (List.mem_cons_of_mem span hs) (by have := hnext s hs; omega)
    · have hsum : 0 ≤ ∑ j ∈ Finset.Ico (span.index + 1) i, elementSize size spans j :=
        Finset.sum_nonneg fun j _ => elementSize_nonneg hsizes j
      have hsumQ : (0 : ℚ) ≤ (∑ j ∈ Finset.Ico (span.index + 1) i, elementSize size spans j : Int) := by
        exact_mod_cast hsum
      have hsplit : ((∑ j ∈ Finset.Ico start i, elementSize size (span :: spans) j : Int) : ℚ) + offset =
          (size span * (span.index + 1 - start) : Int) +
            ((∑ j ∈ Finset.Ico (span.index + 1) i, elementSize size spans j : Int) + offset) := by
        rw [sum_later hspan (by omega)]
        push_cast
        ring
      rw [convertSpans, hsplit, convertSpan_before (by omega) (hsize span List.mem_cons_self) (by linarith),
        ih hnext hsorted hsizes (by omega)
          (fun ⟨s, hs, hle⟩ => by
            have := hinside ⟨s, List.mem_cons_of_mem span hs, hle⟩
            rwa [elementSize_later (by omega)] at this)
          fun s hs => hlater s (List.mem_cons_of_mem span hs),
        sum_later hspan (by omega), add_assoc]

end DimensionPositions

/-! ### The elements -/

namespace SheetDimension

open DimensionPositions

/-- The size of an element in core pixels, at the current zoom and at another one. -/
def sizeCP (d : SheetDimension A) (i : Nat) : Int := ⌊A.fl (d.visibleSize i / d.twipsPerCorePixel)⌋

def sizeCPZ (d : SheetDimension A) (zoomScale : ℚ) (i : Nat) : Int := ⌊A.fl (A.fl (d.visibleSize i / 15) * zoomScale)⌋

/-- Where an element starts. -/
def startOf (size : Nat → Int) (i : Nat) : Int := ∑ j ∈ Finset.range i, size j

/-- An offset in an element, such that every later element is larger or has no pixel at both zooms. -/
structure Inside (max : Nat) (size sizeTo : Nat → Int) (i : Nat) (offset : ℚ) : Prop where
  nonneg : 0 ≤ offset
  lt : offset < size i
  later : ∀ j, i < j → j ≤ max → offset < size j ∨ size j = 0 ∧ sizeTo j = 0

/-- An offset is scaled by the ratio of the zooms. -/
def scaled (A : Arithmetic) (zoomTo zoomFrom offset : ℚ) : ℚ := A.fl (A.fl (offset * zoomTo) / zoomFrom)

/-- A conversion takes a position in an element to the start of the element and the scaled offset.  It keeps the order
in an element, and between elements where the scaled offset is in the element. -/
structure Converts (max : Nat) (size sizeTo : Nat → Int) (scale convert : ℚ → ℚ) : Prop where
  inside : ∀ i ≤ max, ∀ offset, IsFloat 53 (startOf size i + offset) → Inside max size sizeTo i offset →
    convert (startOf size i + offset) = Arithmetic.binary64.fl (startOf sizeTo i + scale offset)
  ends : convert (startOf size (max + 1)) = startOf sizeTo (max + 1)
  mono : ∀ i ≤ max, ∀ offset, IsFloat 53 (startOf size i + offset) → Inside max size sizeTo i offset →
    ∀ j ≤ max, ∀ other, IsFloat 53 (startOf size j + other) → Inside max size sizeTo j other →
      startOf size i + offset ≤ startOf size j + other → i = j ∨ scale offset ≤ sizeTo i →
        convert (startOf size i + offset) ≤ convert (startOf size j + other)

variable {d : SheetDimension .binary64} {max i j : Nat} {size sizeTo : Nat → Int} {scale convert : ℚ → ℚ}

theorem startOf_mono (hsize : ∀ j, 0 ≤ size j) (h : i ≤ j) : startOf size i ≤ startOf size j :=
  Finset.sum_le_sum_of_subset_of_nonneg (Finset.range_mono h) fun k _ _ => hsize k

theorem startOf_add_le (hsize : ∀ j, 0 ≤ size j) (h : i < j) : startOf size i + size i ≤ startOf size j := by
  have hsucc : startOf size (i + 1) = startOf size i + size i := Finset.sum_range_succ _ _
  rw [← hsucc]
  exact startOf_mono hsize h

theorem startOf_nonneg (hsize : ∀ j, 0 ≤ size j) (i : Nat) : 0 ≤ startOf size i :=
    Finset.sum_nonneg fun j _ => hsize j

theorem size_le_startOf (hsize : ∀ j, 0 ≤ size j) (hi : i ≤ max) : size i ≤ startOf size (max + 1) := by
  have hle := startOf_add_le hsize (Nat.lt_succ_of_le hi)
  have := startOf_nonneg hsize i
  linarith

/-- The order follows from the formula. -/
theorem Converts.of_inside (hsize : ∀ j, 0 ≤ size j) (hsizeTo : ∀ j, 0 ≤ sizeTo j) (hscale : Monotone scale)
    (hzero : scale 0 = 0)
    (hinside : ∀ i ≤ max, ∀ offset, IsFloat 53 (startOf size i + offset) → Inside max size sizeTo i offset →
      convert (startOf size i + offset) = Arithmetic.binary64.fl (startOf sizeTo i + scale offset))
    (hends : convert (startOf size (max + 1)) = startOf sizeTo (max + 1)) :
      Converts max size sizeTo scale convert := by
  refine ⟨hinside, hends, fun i hi offset hfloat hoff j hj other hfloat' hother hle hfits => ?_⟩
  rw [hinside i hi offset hfloat hoff, hinside j hj other hfloat' hother]
  refine Arithmetic.binary64.mono ?_
  have hscaled : 0 ≤ scale other := hzero ▸ hscale hother.nonneg
  have hnotlt : ¬ j < i := by
    intro hlt
    have hnext : ((startOf size j : Int) : ℚ) + size j ≤ startOf size i := by exact_mod_cast startOf_add_le hsize hlt
    have := hother.lt
    have := hoff.nonneg
    linarith
  rcases (Nat.not_lt.1 hnotlt).eq_or_lt with rfl | hlt
  · have hoffsets : scale offset ≤ scale other := hscale (by linarith)
    linarith
  · have hnext : ((startOf sizeTo i : Int) : ℚ) + sizeTo i ≤ startOf sizeTo j := by
      exact_mod_cast startOf_add_le hsizeTo hlt
    rcases hfits with rfl | hfits
    · omega
    · linarith

/-! ### The spans of the dimension -/

variable {spans : List PositionedSpan} {sizeOf sizeOfTo : Int → Int} {spanSize spanSizeTo : PositionedSpan → Int}
  {zoomScale offset : ℚ}

theorem sizeAt_index {l : List PositionedSpan} (hsorted : (l.map (·.index)).Pairwise (· < ·)) {s : PositionedSpan}
    (hs : s ∈ l) :
    sizeAt (l.map (·.toSpanData)) s.index = s.value := by
  induction l with
  | nil => cases hs
  | cons t l ih =>
    obtain ⟨hlt, hsorted⟩ := List.pairwise_cons.1 hsorted
    rw [List.map_cons, sizeAt]
    rcases List.mem_cons.1 hs with rfl | hs
    · rw [if_pos (le_refl _)]
    · have hbefore : t.index < s.index := hlt s.index (List.mem_map_of_mem hs)
      rw [if_neg (by omega), ih hsorted hs]

theorem elementSize_eq {l : List PositionedSpan} (hvalue : ∀ s ∈ l, spanSize s = sizeOf s.value)
    (hi : ∃ s ∈ l, i ≤ s.index) : elementSize spanSize l i = sizeOf (sizeAt (l.map (·.toSpanData)) i) := by
  induction l with
  | nil =>
    obtain ⟨s, hs, -⟩ := hi
    cases hs
  | cons t l ih =>
    rw [List.map_cons, elementSize, sizeAt]
    by_cases ht : i ≤ t.index
    · rw [if_pos ht, if_pos ht, hvalue t List.mem_cons_self]
    · rw [if_neg ht, if_neg ht]
      refine ih (fun s hs => hvalue s (List.mem_cons_of_mem t hs)) ?_
      obtain ⟨s, hs, hle⟩ := hi
      rcases List.mem_cons.1 hs with rfl | hs
      · exact absurd hle ht
      · exact ⟨s, hs, hle⟩

theorem Spans.exists_index (h : d.Spans max spans) (hi : i ≤ max) : ∃ s ∈ spans, i ≤ s.index := by
  have hlast : max ∈ spans.map (·.index) := List.mem_of_getLast? h.ends.last
  obtain ⟨s, hs, rfl⟩ := List.mem_map.1 hlast
  exact ⟨s, hs, hi⟩

theorem Spans.index_le (h : d.Spans max spans) {s : PositionedSpan} (hs : s ∈ spans) : s.index ≤ max :=
  h.ends.le s.index (List.mem_map_of_mem hs)

theorem Spans.sum_elementSize (h : d.Spans max spans) (hvalue : ∀ s ∈ spans, spanSize s = sizeOf s.value)
    (hi : i ≤ max + 1) :
    ∑ j ∈ Finset.Ico 0 i, elementSize spanSize spans j = startOf (fun j => sizeOf (d.visibleSize j)) i := by
  rw [startOf, Finset.range_eq_Ico]
  refine Finset.sum_congr rfl fun j hj => ?_
  have hle : j ≤ max := by have := (Finset.mem_Ico.1 hj).2; omega
  rw [elementSize_eq hvalue (h.exists_index hle), h.size j hle]

/-- The loop over the spans of the dimension. -/
theorem Spans.convertSpans (i : Nat) (offset : ℚ) (h : d.Spans max spans)
    (hvalue : ∀ s ∈ spans, spanSize s = sizeOf s.value) (hvalueTo : ∀ s ∈ spans, spanSizeTo s = sizeOfTo s.value)
    (hnonneg : ∀ j, 0 ≤ sizeOf (d.visibleSize j))
    (htotal : startOf (fun j => sizeOf (d.visibleSize j)) (max + 1) ≤ 2 ^ 51)
    (hfloat : IsFloat 53 (startOf (fun j => sizeOf (d.visibleSize j)) i + offset)) (hi : i ≤ max + 1)
    (hoffset : 0 ≤ offset) (hlt : i ≤ max → offset < sizeOf (d.visibleSize i)) (hend : i = max + 1 → offset = 0)
    (hlater : ∀ j, i < j → j ≤ max →
      offset < sizeOf (d.visibleSize j) ∨ sizeOf (d.visibleSize j) = 0 ∧ sizeOfTo (d.visibleSize j) = 0) :
    DimensionPositions.convertSpans .binary64 spanSize spanSizeTo 0 spans
        (startOf (fun j => sizeOf (d.visibleSize j)) i + offset, 0) =
      (offset, startOf (fun j => sizeOfTo (d.visibleSize j)) i) := by
  have hspan : ∀ s ∈ spans, s.value = d.visibleSize s.index := fun s hs => by
    rw [← h.size s.index (h.index_le hs), sizeAt_index h.ends.sorted hs]
  have hsize : ∀ s ∈ spans, spanSize s = sizeOf (d.visibleSize s.index) := fun s hs => by rw [hvalue s hs, hspan s hs]
  have hsizeTo : ∀ s ∈ spans, spanSizeTo s = sizeOfTo (d.visibleSize s.index) :=
    fun s hs => by rw [hvalueTo s hs, hspan s hs]
  have hbounds : ∀ s ∈ spans, 0 ≤ spanSize s ∧ spanSize s ≤ 2 ^ 51 := fun s hs => by
    rw [hsize s hs]
    exact ⟨hnonneg s.index, (size_le_startOf hnonneg (h.index_le hs)).trans htotal⟩
  -- The position is in the sheet.
  have hpos : (0 : ℚ) ≤ startOf (fun j => sizeOf (d.visibleSize j)) i := Int.cast_nonneg (startOf_nonneg hnonneg i)
  have hle : (startOf (fun j => sizeOf (d.visibleSize j)) i : ℚ) + offset ≤ 2 ^ 51 := by
    have htotalQ : (startOf (fun j => sizeOf (d.visibleSize j)) (max + 1) : ℚ) ≤ 2 ^ 51 := by exact_mod_cast htotal
    rcases Nat.lt_or_ge max i with hlast | hin
    · obtain rfl : i = max + 1 := by omega
      rw [hend rfl, add_zero]
      exact htotalQ
    · have hnext : ((startOf (fun j => sizeOf (d.visibleSize j)) i : Int) : ℚ) + sizeOf (d.visibleSize i) ≤
          startOf (fun j => sizeOf (d.visibleSize j)) (max + 1) := by
        exact_mod_cast startOf_add_le hnonneg (Nat.lt_succ_of_le hin)
      have := hlt hin
      linarith
  have hconvert := @convertSpans_inside 0 _ _ spanSizeTo _ _ _ (fun _ _ => Nat.zero_le _) h.ends.sorted
    (fun s hs => (hbounds s hs).1) (Nat.zero_le i) hoffset
    (fun ⟨s, hs, hle⟩ => by
      have hmax : i ≤ max := hle.trans (h.index_le hs)
      rw [elementSize_eq hvalue ⟨s, hs, hle⟩, h.size i hmax]
      exact hlt hmax)
    fun s hs hle => by
      rw [hsize s hs, hsizeTo s hs]
      rcases hle.eq_or_lt with heq | hgt
      · rw [← heq]
        exact .inl (hlt (heq ▸ h.index_le hs))
      · exact hlater s.index hgt (h.index_le hs)
  rw [h.sum_elementSize hvalue hi, h.sum_elementSize hvalueTo hi, zero_add] at hconvert
  rw [convertSpans_binary64 (fun _ _ => Nat.zero_le _) h.ends.sorted hbounds hfloat (by linarith) hle, hconvert]

/-- Both conversions for the spans of the dimension. -/
theorem Spans.converts (sizeOf sizeOfTo : Int → Int) (h : d.Spans max spans)
    (hvalue : ∀ s ∈ spans, spanSize s = sizeOf s.value) (hvalueTo : ∀ s ∈ spans, spanSizeTo s = sizeOfTo s.value)
    (hnonneg : ∀ j, 0 ≤ sizeOf (d.visibleSize j)) (hnonnegTo : ∀ j, 0 ≤ sizeOfTo (d.visibleSize j))
    (htotal : startOf (fun j => sizeOf (d.visibleSize j)) (max + 1) ≤ 2 ^ 51)
    (htotalTo : startOf (fun j => sizeOfTo (d.visibleSize j)) (max + 1) ≤ 2 ^ 51) (hscale : Monotone scale)
    (hzero : scale 0 = 0) (hconvert : ∀ pos, convert pos = Arithmetic.binary64.fl
      ((DimensionPositions.convertSpans .binary64 spanSize spanSizeTo 0 spans (pos, 0)).2 +
        scale (DimensionPositions.convertSpans .binary64 spanSize spanSizeTo 0 spans (pos, 0)).1)) :
    Converts max (fun j => sizeOf (d.visibleSize j)) (fun j => sizeOfTo (d.visibleSize j)) scale convert := by
  refine Converts.of_inside hnonneg hnonnegTo hscale hzero (fun i hi offset hfloat hoff => ?_) ?_
  · rw [hconvert, h.convertSpans i offset hvalue hvalueTo hnonneg htotal hfloat (by omega) hoff.nonneg
      (fun _ => hoff.lt) (fun hend => by omega) hoff.later]
  · have hfloat (n : Int) (h0 : 0 ≤ n) (hn : n ≤ 2 ^ 51) : |n| ≤ 2 ^ 53 := by
      rw [abs_of_nonneg h0]
      exact hn.trans (by norm_num)
    have hloop := h.convertSpans (max + 1) 0 hvalue hvalueTo hnonneg htotal
      (by rw [add_zero]; exact isFloat_intCast (hfloat _ (startOf_nonneg hnonneg _) htotal)) (le_refl _) (le_refl _)
      (fun hle => by omega) (fun _ => rfl) fun j hj hle => by omega
    rw [add_zero] at hloop
    rw [hconvert, hloop, hzero, add_zero]
    exact round_intCast (hfloat _ (startOf_nonneg hnonnegTo _) htotalTo)

theorem scaled_mono (A : Arithmetic) {zoomTo zoomFrom : ℚ} (hto : 0 ≤ zoomTo) (hfrom : 0 ≤ zoomFrom) :
    Monotone (scaled A zoomTo zoomFrom) := fun _ _ hle =>
  A.mono (div_le_div_of_nonneg_right (A.mono (mul_le_mul_of_nonneg_right hle hto)) hfrom)

theorem scaled_zero (A : Arithmetic) (zoomTo zoomFrom : ℚ) : scaled A zoomTo zoomFrom 0 = 0 := by
  rw [scaled, zero_mul, A.zero, zero_div, A.zero]

theorem Measured.coreZoomFactor_pos (h : d.Measured max) : 0 < d.coreZoomFactor :=
  Arithmetic.pos _ _ (div_pos (Arithmetic.pos _ _ (mul_pos h.tileSizePixels_pos (by norm_num))) h.tileSizeTwips_pos)

/-- The conversions of positions between the current zoom and another one.  The second is the inverse of the first
where elements start, as long as no element from there on has pixels at one of the zooms only. -/
theorem zoom_conversions (h : d.Measured max) (hfits : d.FitsDouble max) (hzoom : 0 < zoomScale)
    (hfitsZ : startOf (d.sizeCPZ zoomScale) (max + 1) ≤ 2 ^ 51) (maxIndex : Nat) :
    ∃ g, d.positions maxIndex = some g ∧
      Converts max d.sizeCP (d.sizeCPZ zoomScale) (scaled .binary64 zoomScale d.coreZoomFactor)
        (g.getCorePixelsAtZoom · zoomScale) ∧
      Converts max (d.sizeCPZ zoomScale) d.sizeCP (scaled .binary64 d.coreZoomFactor zoomScale)
        (g.getCorePixelsFromZoom · zoomScale) ∧
      (∀ i ≤ max, 0 < d.sizeCP i → (∀ j, i ≤ j → j ≤ max → (d.sizeCP j = 0 ↔ d.sizeCPZ zoomScale j = 0)) →
        g.getCorePixelsFromZoom (g.getCorePixelsAtZoom (startOf d.sizeCP i) zoomScale) zoomScale =
          startOf d.sizeCP i) ∧
      g.getCorePixelsFromZoom (g.getCorePixelsAtZoom (startOf d.sizeCP (max + 1)) zoomScale) zoomScale =
        startOf d.sizeCP (max + 1) := by
  obtain ⟨g, hg, hread⟩ := exists_positions h.toWellFormed maxIndex
  have hvisible : ∀ j, (0 : ℚ) ≤ d.visibleSize j := fun j => by exact_mod_cast h.visibleSize_nonneg j
  have hsize : ∀ j, 0 ≤ d.sizeCP j := fun j =>
    Int.floor_nonneg.2 (Arithmetic.nonneg _ (div_nonneg (hvisible j) h.ratio_pos.le))
  have hsizeZ : ∀ j, 0 ≤ d.sizeCPZ zoomScale j := fun j =>
    Int.floor_nonneg.2
      (Arithmetic.nonneg _ (mul_nonneg (Arithmetic.nonneg _ (div_nonneg (hvisible j) (by norm_num))) hzoom.le))
  have hat : Converts max d.sizeCP (d.sizeCPZ zoomScale) (scaled .binary64 zoomScale d.coreZoomFactor)
      (g.getCorePixelsAtZoom · zoomScale) := by
    refine hread.converts (fun v => ⌊Arithmetic.binary64.fl (v / d.twipsPerCorePixel)⌋)
      (fun v => ⌊Arithmetic.binary64.fl (Arithmetic.binary64.fl (v / 15) * zoomScale)⌋)
      hread.one (fun _ _ => rfl) hsize hsizeZ hfits.core hfitsZ (scaled_mono _ hzoom.le h.coreZoomFactor_pos.le)
        (scaled_zero _ _ _)
      fun pos => ?_
    rw [getCorePixelsAtZoom, hread.factor_eq]
    rfl
  have hfrom : Converts max (d.sizeCPZ zoomScale) d.sizeCP (scaled .binary64 d.coreZoomFactor zoomScale)
      (g.getCorePixelsFromZoom · zoomScale) := by
    refine hread.converts (fun v => ⌊Arithmetic.binary64.fl (Arithmetic.binary64.fl (v / 15) * zoomScale)⌋)
      (fun v => ⌊Arithmetic.binary64.fl (v / d.twipsPerCorePixel)⌋)
      (fun _ _ => rfl) hread.one hsizeZ hsize hfitsZ hfits.core (scaled_mono _ h.coreZoomFactor_pos.le hzoom.le)
      (scaled_zero _ _ _) fun pos => ?_
    rw [getCorePixelsFromZoom, hread.factor_eq]
    rfl
  refine ⟨g, hg, hat, hfrom, fun i hi hpixel hsame => ?_, ?_⟩
  · have hpixelZ : 0 < d.sizeCPZ zoomScale i := by
      have := (hsame i (le_refl i) hi).not.1 (by omega)
      have := hsizeZ i
      omega
    have hbetween : ∀ j, i < j → j ≤ max → (0 < d.sizeCP j ∧ 0 < d.sizeCPZ zoomScale j) ∨
        (d.sizeCP j = 0 ∧ d.sizeCPZ zoomScale j = 0) := by
      intro j hj hle
      have := hsame j hj.le hle
      have := hsize j
      have := hsizeZ j
      omega
    have hin : Inside max d.sizeCP (d.sizeCPZ zoomScale) i 0 := by
      refine ⟨le_refl _, Int.cast_pos.2 hpixel, fun j hj hle => ?_⟩
      exact (hbetween j hj hle).imp (fun hone => Int.cast_pos.2 hone.1) id
    have hinZ : Inside max (d.sizeCPZ zoomScale) d.sizeCP i 0 := by
      refine ⟨le_refl _, Int.cast_pos.2 hpixelZ, fun j hj hle => ?_⟩
      exact (hbetween j hj hle).imp (fun hone => Int.cast_pos.2 hone.2) fun hzero => ⟨hzero.2, hzero.1⟩
    -- Starts are whole numbers, which doubles hold.
    have hwhole {size : Nat → Int} (hnonneg : ∀ j, 0 ≤ size j) (htotal : startOf size (max + 1) ≤ 2 ^ 51) :
        |startOf size i| ≤ 2 ^ 53 := by
      have := startOf_mono hnonneg (show i ≤ max + 1 by omega)
      rw [abs_of_nonneg (startOf_nonneg hnonneg i)]
      exact this.trans (htotal.trans (by norm_num))
    have hcore := hwhole hsize hfits.core
    have hcoreZ := hwhole hsizeZ hfitsZ
    have hthere := hat.inside i hi 0 (by rw [add_zero]; exact isFloat_intCast hcore) hin
    have hback := hfrom.inside i hi 0 (by rw [add_zero]; exact isFloat_intCast hcoreZ) hinZ
    rw [scaled_zero, add_zero, add_zero] at hthere hback
    rw [hthere, show Arithmetic.binary64.fl (startOf (d.sizeCPZ zoomScale) i) = _ from round_intCast hcoreZ, hback]
    exact round_intCast hcore
  · have hthere := hat.ends
    have hback := hfrom.ends
    rw [hthere, hback]

section Examples

/-- Rounding does not pass a whole number. -/
theorem fl_le_intCast {x : ℚ} {n : Int} (hn : |n| ≤ 2 ^ 53) (hx : x ≤ n) : Arithmetic.binary64.fl x ≤ n :=
  (Arithmetic.binary64.mono hx).trans (round_intCast hn).le

/-- Ten columns with sizes of 100 pixels at most fit. -/
theorem fitsDouble_tenColumns :
    (tenColumns .binary64).FitsDouble 9 ∧ startOf ((tenColumns .binary64).sizeCPZ 2) 10 ≤ 2 ^ 51 := by
  have hratio : (tenColumns .binary64).twipsPerCorePixel = 15 := by
    have heq : (tenColumns .binary64).tileSizeTwips / (tenColumns .binary64).tileSizePixels = ((15 : Int) : ℚ) := by
      norm_num [tenColumns]
    unfold twipsPerCorePixel
    rw [heq]
    exact round_intCast (by norm_num)
  have hsize : ∀ i ≤ 9, (tenColumns .binary64).visibleSize i ≤ 1500 := by decide
  have hpart (i : Nat) (hi : i ≤ 9) : Arithmetic.binary64.fl ((tenColumns .binary64).visibleSize i / 15) ≤
      (100 : Int) := by
    have hle : ((tenColumns .binary64).visibleSize i : ℚ) ≤ 1500 := by exact_mod_cast hsize i hi
    refine fl_le_intCast (by norm_num) ?_
    push_cast
    linarith
  have hsum {f : Nat → Int} (hf : ∀ i ≤ 9, f i ≤ 200) : ∑ k ∈ Finset.range 10, f k ≤ 2000 :=
    (Finset.sum_le_sum fun k hk => hf k (Nat.le_of_lt_succ (Finset.mem_range.1 hk))).trans (by simp)
  have hcore : (tenColumns .binary64).corePixelPos 10 ≤ 2000 := hsum fun i hi => by
    rw [hratio]
    exact (Int.floor_le_iff.2 ((hpart i hi).trans_lt (by norm_num))).trans (by norm_num : (100 : Int) ≤ 200)
  refine ⟨⟨by norm_num, hcore.trans (by norm_num), ?_, ?_⟩, (hsum fun i hi => ?_).trans (by norm_num)⟩
  · have hpos : (tenColumns .binary64).exactPos 10 ≤ (30000 : Int) := by
      have hcoreQ : ((tenColumns .binary64).corePixelPos 10 : ℚ) ≤ 2000 := by exact_mod_cast hcore
      refine fl_le_intCast (by norm_num) ?_
      rw [hratio]
      push_cast
      linarith
    exact (Int.floor_le_iff.2 (hpos.trans_lt (by norm_num))).trans (by norm_num : (30000 : Int) ≤ 2 ^ 51)
  · decide
  · have hle : Arithmetic.binary64.fl (Arithmetic.binary64.fl ((tenColumns .binary64).visibleSize i / 15) * 2) ≤
        (200 : Int) := by
      have := hpart i hi
      refine fl_le_intCast (by norm_num) ?_
      push_cast at this ⊢
      linarith
    exact Int.floor_le_iff.2 (hle.trans_lt (by norm_num))

theorem measured_tenColumns (A : Arithmetic) : (tenColumns A).Measured 9 where
  sizes := ⟨by simp [tenColumns], rfl⟩
  hidden := ⟨by simp [tenColumns], rfl⟩
  filtered := ⟨by simp [tenColumns], rfl⟩
  sizes_nonneg := by simp [tenColumns]
  tileSizeTwips_pos := by norm_num [tenColumns]
  tileSizePixels_pos := by norm_num [tenColumns]

theorem zoom_conversions_tenColumns : ∃ g, (tenColumns .binary64).positions 9 = some g ∧
    Converts 9 (tenColumns .binary64).sizeCP ((tenColumns .binary64).sizeCPZ 2)
      (scaled .binary64 2 (tenColumns .binary64).coreZoomFactor) (g.getCorePixelsAtZoom · 2) ∧
    g.getCorePixelsFromZoom (g.getCorePixelsAtZoom (startOf (tenColumns .binary64).sizeCP 10) 2) 2 =
      startOf (tenColumns .binary64).sizeCP 10 := by
  obtain ⟨hfits, hfitsZ⟩ := fitsDouble_tenColumns
  obtain ⟨g, hg, hat, -, -, hends⟩ :=
    zoom_conversions (measured_tenColumns .binary64) hfits (by norm_num : (0 : ℚ) < 2) hfitsZ 9
  exact ⟨g, hg, hat, hends⟩

/-- Two columns of five pixels. -/
def narrowColumns : SheetDimension .binary64 where
  sizes := { spanlist := [⟨1, 75⟩] }
  hidden := { startBit := false, spanlist := [1] }
  filtered := { startBit := false, spanlist := [1] }
  tileSizeTwips := 3840
  tileSizePixels := 256

/-- The order is not kept: at a zoom of 0.375 the columns are rounded down to one pixel, but an offset of four pixels
in the first one is scaled to 1.5. -/
theorem not_zoom_conversions : ¬ ∀ (d : SheetDimension .binary64) (max : Nat) (zoomScale : ℚ), d.Measured max →
    d.FitsDouble max →
    0 < zoomScale → startOf (d.sizeCPZ zoomScale) (max + 1) ≤ 2 ^ 51 →
    ∃ g, d.positions max = some g ∧
      (∀ i ≤ max, ∀ offset : ℚ, IsFloat 53 (startOf d.sizeCP i + offset) → 0 ≤ offset → offset < d.sizeCP i →
        g.getCorePixelsAtZoom (startOf d.sizeCP i + offset) zoomScale =
          Arithmetic.binary64.fl
            (startOf (d.sizeCPZ zoomScale) i + scaled .binary64 zoomScale d.coreZoomFactor offset)) ∧
      (∀ i ≤ max, 0 < d.sizeCP i →
        g.getCorePixelsFromZoom (g.getCorePixelsAtZoom (startOf d.sizeCP i) zoomScale) zoomScale =
          startOf d.sizeCP i) ∧
      (∀ p q : ℚ, IsFloat 53 p → IsFloat 53 q → 0 ≤ p → p ≤ q → q < startOf d.sizeCP (max + 1) →
        g.getCorePixelsAtZoom p zoomScale ≤ g.getCorePixelsAtZoom q zoomScale) ∧
      ∀ p q : ℚ, IsFloat 53 p → IsFloat 53 q → 0 ≤ p → p ≤ q → q < startOf (d.sizeCPZ zoomScale) (max + 1) →
        g.getCorePixelsFromZoom p zoomScale ≤ g.getCorePixelsFromZoom q zoomScale := by
  intro h
  have hkept (m e : Int) (hm : |m| ≤ 2 ^ 53) : Arithmetic.binary64.fl (m * 2 ^ e) = m * 2 ^ e :=
    round_of_isFloat ⟨m, e, hm, rfl⟩
  have hmeasured : narrowColumns.Measured 1 :=
    { sizes := ⟨by decide, rfl⟩, hidden := ⟨by decide, rfl⟩, filtered := ⟨by decide, rfl⟩
      sizes_nonneg := by simp [narrowColumns], tileSizeTwips_pos := by norm_num [narrowColumns]
      tileSizePixels_pos := by norm_num [narrowColumns] }
  have hratio : narrowColumns.twipsPerCorePixel = 15 := by
    unfold twipsPerCorePixel
    refine Eq.trans ?_ ((hkept 15 0 (by norm_num)).trans (by norm_num))
    norm_num [narrowColumns]
  have hfactor : narrowColumns.coreZoomFactor = 1 := by
    have hpixels := hkept 3840 0 (by norm_num)
    have hone := hkept 1 0 (by norm_num)
    norm_num at hpixels hone
    unfold coreZoomFactor
    norm_num [narrowColumns, hpixels, hone]
  have hvisible : ∀ i ≤ 1, narrowColumns.visibleSize i = 75 := by decide
  have hfive : Arithmetic.binary64.fl (75 / 15) = 5 := by
    have h5 := hkept 5 0 (by norm_num)
    norm_num at h5 ⊢
    exact h5
  have hcore : ∀ i ≤ 1, narrowColumns.sizeCP i = 5 := fun i hi => by
    rw [sizeCP, hvisible i hi, hratio]
    push_cast
    rw [hfive]
    norm_num
  have hcoreZ : ∀ i ≤ 1, narrowColumns.sizeCPZ (3 / 8) i = 1 := fun i hi => by
    have h15 := hkept 15 (-3) (by norm_num)
    rw [sizeCPZ, hvisible i hi]
    push_cast
    rw [hfive]
    norm_num at h15 ⊢
    rw [h15]
    norm_num [Int.floor_eq_iff]
  have hstart : startOf narrowColumns.sizeCP 1 = 5 ∧ startOf (narrowColumns.sizeCPZ (3 / 8)) 1 = 1 ∧
      startOf narrowColumns.sizeCP 2 = 10 ∧ startOf (narrowColumns.sizeCPZ (3 / 8)) 2 = 2 := by
    simp [startOf, Finset.sum_range_succ, hcore, hcoreZ]
  have hfits : narrowColumns.FitsDouble 1 := by
    have hten : narrowColumns.corePixelPos 2 = 10 := hstart.2.2.1
    have htile : narrowColumns.tileTwipsPos 2 = 150 := by
      have h150 := hkept 150 0 (by norm_num)
      norm_num at h150
      unfold tileTwipsPos exactPos
      rw [hten, hratio]
      norm_num [h150]
    exact ⟨by norm_num, by rw [hten]; norm_num, by rw [htile]; norm_num, by decide⟩
  obtain ⟨g, hg, hinside, -, hmono, -⟩ := h narrowColumns 1 (3 / 8) hmeasured hfits (by norm_num)
    (by rw [hstart.2.2.2]; norm_num)
  have hzero : ∀ size : Nat → Int, startOf size 0 = 0 := fun size => rfl
  have hscaled : scaled .binary64 (3 / 8) 1 4 = 3 / 2 := by
    have h32 := hkept 3 (-1) (by norm_num)
    norm_num at h32
    unfold scaled
    norm_num [h32]
  have h32 := hkept 3 (-1) (by norm_num)
  have hone := hkept 1 0 (by norm_num)
  have hlow := hinside 0 (by omega) 4
    (by rw [hzero, Int.cast_zero, zero_add]; exact isFloat_intCast (n := 4) (by norm_num)) (by norm_num)
    (by rw [hcore 0 (by omega)]; norm_num)
  have hhigh := hinside 1 (le_refl 1) 0
    (by rw [hstart.1, add_zero]; exact isFloat_intCast (by norm_num)) (le_refl 0)
    (by rw [hcore 1 (by omega)]; norm_num)
  have hle := hmono 4 5 (isFloat_intCast (n := 4) (by norm_num)) (isFloat_intCast (n := 5) (by norm_num))
    (by norm_num) (by norm_num) (by rw [hstart.2.2.1]; norm_num)
  rw [hfactor] at hlow hhigh
  rw [hzero, hzero, hscaled] at hlow
  rw [hstart.1, hstart.2.1, scaled_zero] at hhigh
  norm_num at hlow hhigh hle h32 hone
  rw [hlow, hhigh, h32, hone] at hle
  norm_num at hle

end Examples

end SheetDimension

end CollaboraOnline
