import CollaboraOnline.Browser.SheetPositions

/-!
# Grid lines

`forEachInCorePixelRange` calls back for each line between the elements in a range of pixels.  Each span calls for the
lines from the range's start up to its own end, and so leaves its first one to the span before it.  A span that begins
at least an element behind the start of the range calls for its first line too, and at the end of the sheet no element
begins (`forEachInCorePixelRange_iff`).  The start of the range is a fraction while the zoom is animated; in doubles
the first line of a span is then a line only where the difference that gives it is rounded to one (`RoundsToLine`).
-/

namespace CollaboraOnline

open PositionedSpan SheetDimension Rounding

variable {A : Arithmetic}

/-- What the callback is given. -/
structure GridCall where
  startPosCorePx : ℚ
  index : Int
deriving DecidableEq

/-- The operator `%`, which has the sign of `x` and is exact. -/
def remainder (x y : ℚ) : ℚ := if 0 ≤ x / y then x - y * ⌊x / y⌋ else x - y * ⌈x / y⌉

namespace DimensionPositions

/-- The loop over the lines of a span, with as many turns as it can need (`linesFrom_of_le`). -/
def linesFrom (A : Arithmetic) (sizecore lastCorePx : ℚ) : Nat → ℚ → Int → List GridCall
  | 0, _, _ => []
  | turns + 1, pos, index =>
    if pos ≤ lastCorePx then ⟨pos, index⟩ :: linesFrom A sizecore lastCorePx turns (A.fl (pos + sizecore)) (index + 1)
    else []

def spanFirstCorePx (span : SpanViewData) : Int := span.poscorepx - span.sizecore * (span.index - span.start + 1)

def firstCorePx (A : Arithmetic) (span : SpanViewData) (startPix : ℚ) : ℚ :=
  max (spanFirstCorePx span : ℚ) (A.fl (A.fl (startPix + span.sizecore) -
    remainder (A.fl (startPix - spanFirstCorePx span)) span.sizecore))

/-- The calls for a span.  In a span of the size zero the first position is not a number, and so it is not before the
last one. -/
def linesOf (A : Arithmetic) (startPix endPix : ℚ) (span : SpanViewData) : List GridCall :=
  if (spanFirstCorePx span : ℚ) < endPix ∧ startPix < span.poscorepx then
    if span.sizecore = 0 then []
    else
      linesFrom A span.sizecore (min endPix span.poscorepx) (span.index + 2 - span.start)
        (firstCorePx A span startPix)
        (span.start + ⌊A.fl (A.fl (firstCorePx A span startPix - spanFirstCorePx span) / span.sizecore)⌋)
  else []

/-- `forEachInCorePixelRange`: the calls of the callback. -/
def forEachInCorePixelRange (g : DimensionPositions A) (startPix endPix : ℚ) : List GridCall :=
  (forEachSpan g.visibleSizes).flatMap (linesOf A startPix endPix)

/-! ### The lines of a span -/

variable {sizecore lastCorePx pos startPix endPix : ℚ} {index : Int} {c : GridCall} {span : SpanViewData}
  {turns : Nat}

/-- More turns than lines to the end of the span call for nothing more: a rounded position is not before the whole
one. -/
theorem linesFrom_of_le (A : Arithmetic) {first size : Int} {count k more : Nat} (hsize : 0 < size)
    (hkept : ∀ j ≤ count + 1, A.fl (first + j * size : Int) = (first + j * size : Int)) (hk : k ≤ count + 1)
    (hpos : ((first + k * size : Int) : ℚ) ≤ pos) (hlast : lastCorePx ≤ (first + count * size : Int)) :
    linesFrom A size lastCorePx (count + 1 - k + more) pos index =
      linesFrom A size lastCorePx (count + 1 - k) pos index := by
  -- Behind the last line the loop has ended.
  have hend (hpast : count < k) : lastCorePx < pos := by
    have hlt : first + count * size < first + k * size := by
      have := mul_lt_mul_of_pos_right (Int.ofNat_lt.2 hpast) hsize
      omega
    exact hlast.trans_lt ((Int.cast_lt.2 hlt).trans_le hpos)
  induction hturns : count + 1 - k generalizing k pos index with
  | zero =>
    cases more with
    | zero => rfl
    | succ more =>
      rw [Nat.zero_add, linesFrom, linesFrom, if_neg (not_le.2 (hend (by omega)))]
  | succ turns ih =>
    rw [Nat.succ_add, linesFrom, linesFrom]
    split
    · have hnext : ((first + (k + 1 : Nat) * size : Int) : ℚ) ≤ A.fl (pos + size) := by
        rw [← hkept (k + 1) (by omega)]
        refine A.mono ?_
        push_cast at hpos ⊢
        linarith
      rw [ih (by omega) hnext (fun hpast => ?_) (by omega)]
      have hlt : first + count * size < first + (k + 1 : Nat) * size := by
        have := mul_lt_mul_of_pos_right (Int.ofNat_lt.2 hpast) hsize
        omega
      exact hlast.trans_lt ((Int.cast_lt.2 hlt).trans_le hnext)
    · rfl

theorem mem_linesFrom (hsize : 0 ≤ sizecore) : c ∈ linesFrom .exact sizecore lastCorePx turns pos index ↔
    ∃ k < turns, pos + k * sizecore ≤ lastCorePx ∧ c = ⟨pos + k * sizecore, index + k⟩ := by
  induction turns generalizing pos index with
  | zero => exact iff_of_false List.not_mem_nil fun ⟨k, hk, _⟩ => absurd hk (Nat.not_lt_zero k)
  | succ turns ih =>
    rw [linesFrom]
    split
    · rename_i hle
      rw [List.mem_cons, ih, Arithmetic.exact_fl]
      constructor
      · rintro (rfl | ⟨k, hk, hle, rfl⟩)
        · exact ⟨0, Nat.succ_pos turns, by simpa using hle, by simp⟩
        · refine ⟨k + 1, Nat.succ_lt_succ hk, ?_, ?_⟩
          · push_cast
            linarith
          · push_cast
            rw [GridCall.mk.injEq]
            exact ⟨by ring, by ring⟩
      · rintro ⟨k, hk, hle, rfl⟩
        cases k with
        | zero => exact .inl (by simp)
        | succ k =>
          push_cast at hle ⊢
          refine .inr ⟨k, Nat.lt_of_succ_lt_succ hk, by linarith, ?_⟩
          rw [GridCall.mk.injEq]
          exact ⟨by ring, by ring⟩
    · rename_i hlt
      refine iff_of_false List.not_mem_nil ?_
      rintro ⟨k, -, hle, -⟩
      have hk : 0 ≤ (k : ℚ) * sizecore := mul_nonneg (Nat.cast_nonneg k) hsize
      exact hlt (by linarith)

theorem sorted_linesFrom (hsize : 0 < sizecore) (lastCorePx pos : ℚ) (turns : Nat) (index : Int) :
    (linesFrom .exact sizecore lastCorePx turns pos index).Pairwise fun a b =>
      a.startPosCorePx < b.startPosCorePx := by
  induction turns generalizing pos index with
  | zero => exact List.Pairwise.nil
  | succ turns ih =>
    rw [linesFrom]
    split
    · refine List.pairwise_cons.2 ⟨fun b hb => ?_, ih _ _⟩
      obtain ⟨k, -, -, rfl⟩ := (mem_linesFrom hsize.le).1 hb
      have hk : 0 ≤ (k : ℚ) * sizecore := mul_nonneg (Nat.cast_nonneg k) hsize.le
      show pos < pos + sizecore + k * sizecore
      linarith
    · exact List.Pairwise.nil

/-- The number of the first line of the span that is called for: the first one behind the start of the range, and its
own first one only where that is an element behind the start. -/
def firstLine (span : SpanViewData) (startPix : ℚ) : Nat :=
  if startPix < spanFirstCorePx span then if (span.sizecore : ℚ) ≤ spanFirstCorePx span - startPix then 0 else 1
  else (⌊(startPix - spanFirstCorePx span) / span.sizecore⌋ + 1).toNat

/-- Its position. -/
def firstLinePx (span : SpanViewData) (startPix : ℚ) : Int :=
    spanFirstCorePx span + firstLine span startPix * span.sizecore

theorem firstLine_le_iff (startPix : ℚ) (hsize : 0 < span.sizecore) (k : Nat) : firstLine span startPix ≤ k ↔
    startPix < spanFirstCorePx span + k * span.sizecore ∧
    (1 ≤ k ∨ (span.sizecore : ℚ) ≤ spanFirstCorePx span - startPix) := by
  have hpos : (0 : ℚ) < span.sizecore := Int.cast_pos.2 hsize
  have hk : 0 ≤ (k : ℚ) * span.sizecore := mul_nonneg (Nat.cast_nonneg k) hpos.le
  unfold firstLine
  split
  · rename_i hlt
    have hbehind : startPix < spanFirstCorePx span + k * span.sizecore := by linarith
    split
    · rename_i hfar
      exact iff_of_true (Nat.zero_le k) ⟨hbehind, .inr hfar⟩
    · rename_i hnear
      rw [or_iff_left hnear]
      exact (and_iff_right hbehind).symm
  · rename_i hle
    have hdiv : 0 ≤ (startPix - spanFirstCorePx span) / span.sizecore :=
      div_nonneg (sub_nonneg.2 (not_lt.1 hle)) hpos.le
    have hfloor := Int.floor_nonneg.2 hdiv
    have hcount : (⌊(startPix - spanFirstCorePx span) / span.sizecore⌋ + 1).toNat ≤ k ↔
        ⌊(startPix - spanFirstCorePx span) / span.sizecore⌋ < k := by omega
    have hline : startPix < spanFirstCorePx span + k * span.sizecore ↔
        startPix - spanFirstCorePx span < k * span.sizecore := by
      constructor <;> intro h <;> linarith
    rw [hcount, Int.floor_lt, Int.cast_natCast, div_lt_iff₀ hpos, hline]
    refine (and_iff_left_of_imp fun hlt => .inl ?_).symm
    have hkpos : 0 < (k : ℚ) * span.sizecore := (sub_nonneg.2 (not_lt.1 hle)).trans_lt hlt
    exact_mod_cast pos_of_mul_pos_left hkpos hpos.le

/-- The exact difference that gives the first line, if the line is not the first one of the span. -/
theorem exactDifference (startPix : ℚ) (hsize : 0 < span.sizecore) :
    max (spanFirstCorePx span : ℚ)
      (startPix + span.sizecore - remainder (startPix - spanFirstCorePx span) span.sizecore) =
        firstLinePx span startPix ∧
      (firstLine span startPix ≠ 0 →
        startPix + span.sizecore - remainder (startPix - spanFirstCorePx span) span.sizecore =
          firstLinePx span startPix) := by
  have hpos : (0 : ℚ) < span.sizecore := Int.cast_pos.2 hsize
  unfold firstLinePx firstLine remainder
  simp only [Int.cast_add, Int.cast_mul, Int.cast_natCast]
  by_cases hlt : startPix < spanFirstCorePx span
  · have hneg : (startPix - spanFirstCorePx span) / span.sizecore < 0 := div_neg_of_neg_of_pos (sub_neg.2 hlt) hpos
    rw [if_neg (not_le.2 hneg), if_pos hlt]
    by_cases hfar : (span.sizecore : ℚ) ≤ spanFirstCorePx span - startPix
    · have hceil : (⌈(startPix - spanFirstCorePx span) / span.sizecore⌉ : ℚ) ≤ -1 := by
        have h : ⌈(startPix - spanFirstCorePx span) / (span.sizecore : ℚ)⌉ ≤ -1 := by
          rw [Int.ceil_le, div_le_iff₀ hpos]
          push_cast
          linarith
        exact_mod_cast h
      have hsecond := mul_le_mul_of_nonneg_left hceil hpos.le
      rw [if_pos hfar]
      refine ⟨?_, fun hne => absurd rfl hne⟩
      rw [max_eq_left (by linarith)]
      simp
    · have hceil : ⌈(startPix - spanFirstCorePx span) / (span.sizecore : ℚ)⌉ = 0 := by
        rw [Int.ceil_eq_iff, lt_div_iff₀ hpos]
        push_cast
        exact ⟨by linarith, hneg.le⟩
      rw [if_neg hfar, hceil]
      have heq : startPix + span.sizecore - (startPix - spanFirstCorePx span - span.sizecore * ((0 : Int) : ℚ)) =
          spanFirstCorePx span + ((1 : Nat) : ℚ) * span.sizecore := by
        push_cast
        ring
      refine ⟨?_, fun _ => heq⟩
      rw [heq, max_eq_right]
      rw [Nat.cast_one, one_mul]
      linarith
  · have hdiv : 0 ≤ (startPix - spanFirstCorePx span) / span.sizecore :=
      div_nonneg (sub_nonneg.2 (not_lt.1 hlt)) hpos.le
    obtain ⟨n, hn⟩ := Int.eq_ofNat_of_zero_le (Int.floor_nonneg.2 hdiv)
    rw [if_pos hdiv, if_neg hlt, hn]
    have heq : startPix + span.sizecore - (startPix - spanFirstCorePx span - span.sizecore * ((n : Int) : ℚ)) =
        spanFirstCorePx span + (((n : Int) + 1).toNat : ℚ) * span.sizecore := by
      rw [show ((n : Int) + 1).toNat = n + 1 by omega]
      push_cast
      ring
    refine ⟨?_, fun _ => heq⟩
    rw [heq, max_eq_right]
    have hmul : (0 : ℚ) ≤ (((n : Int) + 1).toNat : ℚ) * span.sizecore := mul_nonneg (Nat.cast_nonneg _) hpos.le
    linarith

theorem linesOf_of_zero (h : span.sizecore = 0) : linesOf A startPix endPix span = [] := by
  unfold linesOf
  rw [if_pos h, ite_self]

theorem linesOf_of_apart (h : ¬ ((spanFirstCorePx span : ℚ) < endPix ∧ startPix < span.poscorepx)) :
    linesOf A startPix endPix span = [] := if_neg h

theorem poscorepx_eq (span : SpanViewData) :
    (span.poscorepx : ℚ) = spanFirstCorePx span + (span.index + 1 - span.start : Int) * span.sizecore := by
  unfold spanFirstCorePx
  push_cast
  ring

/-- In a span that has the first line its calls begin there. -/
theorem linesOf_of_first (A : Arithmetic) (hover : (spanFirstCorePx span : ℚ) < endPix ∧ startPix < span.poscorepx)
    (hsize : 0 < span.sizecore) (hfirst : firstCorePx A span startPix = firstLinePx span startPix)
    (hindex : ⌊A.fl (A.fl ((firstLinePx span startPix : ℚ) - spanFirstCorePx span) / span.sizecore)⌋ =
      firstLine span startPix) :
    linesOf A startPix endPix span =
      linesFrom A span.sizecore (min endPix span.poscorepx) (span.index + 2 - span.start)
      (firstLinePx span startPix) (span.start + firstLine span startPix) := by
  unfold linesOf
  rw [if_pos hover, if_neg hsize.ne', hfirst, hindex]

theorem firstLine_quotient (startPix : ℚ) (hsize : 0 < span.sizecore) :
    ((firstLinePx span startPix : ℚ) - spanFirstCorePx span) / span.sizecore = firstLine span startPix := by
  have hpos : (0 : ℚ) < span.sizecore := Int.cast_pos.2 hsize
  unfold firstLinePx
  push_cast
  rw [add_sub_cancel_left, mul_div_cancel_right₀ _ hpos.ne']

theorem mem_linesOf (hsize : 0 < span.sizecore) (hstart : span.start ≤ span.index) :
    c ∈ linesOf .exact startPix endPix span ↔
    (spanFirstCorePx span : ℚ) < endPix ∧ ∃ k : Nat, span.start + k ≤ span.index + 1 ∧
      (1 ≤ k ∨ (span.sizecore : ℚ) ≤ spanFirstCorePx span - startPix) ∧
      startPix < spanFirstCorePx span + k * span.sizecore ∧
        spanFirstCorePx span + k * span.sizecore ≤ endPix ∧
        c = ⟨spanFirstCorePx span + k * span.sizecore, span.start + k⟩ := by
  have hpos : (0 : ℚ) < span.sizecore := Int.cast_pos.2 hsize
  have hcount (k : Nat) : (spanFirstCorePx span + k * span.sizecore : ℚ) ≤ span.poscorepx ↔
      span.start + k ≤ span.index + 1 := by
    rw [poscorepx_eq, add_le_add_iff_left, mul_le_mul_iff_of_pos_right hpos, ← Int.cast_natCast, Int.cast_le]
    omega
  by_cases hover : (spanFirstCorePx span : ℚ) < endPix ∧ startPix < span.poscorepx
  · have hm := firstLine_le_iff startPix hsize
    have hlines := linesOf_of_first .exact hover hsize (exactDifference startPix hsize).1 (by
      rw [Arithmetic.exact_fl, Arithmetic.exact_fl, firstLine_quotient startPix hsize, Int.floor_natCast])
    rw [hlines, mem_linesFrom hpos.le, and_iff_right hover.1]
    unfold firstLinePx
    generalize firstLine span startPix = m at hm
    constructor
    · rintro ⟨k, -, hle, rfl⟩
      obtain ⟨hle, hin⟩ := le_min_iff.1 hle
      have hk : ((spanFirstCorePx span + m * span.sizecore : Int) + k * span.sizecore : ℚ) =
          spanFirstCorePx span + (m + k : Nat) * span.sizecore := by
        push_cast
        ring
      rw [hk] at hle hin ⊢
      obtain ⟨hstart, hone⟩ := (hm (m + k)).1 (Nat.le_add_right m k)
      refine ⟨m + k, (hcount _).1 hin, hone, hstart, hle, ?_⟩
      rw [GridCall.mk.injEq]
      push_cast
      exact ⟨rfl, by ring⟩
    · rintro ⟨k, hin, hone, hbehind, hle, rfl⟩
      obtain ⟨j, rfl⟩ := Nat.exists_eq_add_of_le ((hm k).2 ⟨hbehind, hone⟩)
      have hk : ((spanFirstCorePx span + m * span.sizecore : Int) + j * span.sizecore : ℚ) =
          spanFirstCorePx span + (m + j : Nat) * span.sizecore := by
        push_cast
        ring
      refine ⟨j, by omega, ?_, ?_⟩
      · rw [hk]
        exact le_min hle ((hcount _).2 hin)
      · rw [hk, GridCall.mk.injEq]
        push_cast
        exact ⟨rfl, by ring⟩
  · rw [linesOf_of_apart hover]
    refine iff_of_false List.not_mem_nil ?_
    rintro ⟨hfirst, k, hin, -, hbehind, -, -⟩
    exact hover ⟨hfirst, hbehind.trans_le ((hcount k).2 hin)⟩

theorem sorted_linesOf (startPix endPix : ℚ) (hsize : 0 ≤ span.sizecore) :
    (linesOf .exact startPix endPix span).Pairwise fun a b => a.startPosCorePx < b.startPosCorePx := by
  rcases hsize.lt_or_eq with hpos | hzero
  · unfold linesOf
    rw [if_neg hpos.ne']
    split
    · exact sorted_linesFrom (Int.cast_pos.2 hpos) _ _ _ _
    · exact List.Pairwise.nil
  · rw [linesOf_of_zero hzero.symm]
    exact List.Pairwise.nil

/-! ### The lines of a span in doubles -/

/-- The difference of two doubles that gives the first line of the span. -/
def difference (span : SpanViewData) (startPix : ℚ) : ℚ :=
  Arithmetic.binary64.fl (startPix + span.sizecore) -
    remainder (Arithmetic.binary64.fl (startPix - spanFirstCorePx span)) span.sizecore

/-- The difference is between the middles before and behind the first line, and so it is rounded to it.  If the line
is the first one of the span it may be smaller, and if it is behind the range it may be larger. -/
def RoundsToLine (span : SpanViewData) (startPix endPix : ℚ) : Prop :=
  (firstLine span startPix = 0 ∨ cut 53 (firstLinePx span startPix).toNat ≤ difference span startPix) ∧
    (endPix < firstLinePx span startPix ∨ difference span startPix ≤ cutAbove 53 (firstLinePx span startPix).toNat)

/-- Where the sum and the difference with the start of the range are exact, the first line is. -/
theorem roundsToLine_of_exact (endPix : ℚ) (hsize : 0 < span.sizecore) (hline : 0 < firstLinePx span startPix)
    (hsum : Arithmetic.binary64.fl (startPix + span.sizecore) = startPix + span.sizecore)
    (hsub : Arithmetic.binary64.fl (startPix - spanFirstCorePx span) = startPix - spanFirstCorePx span) :
    RoundsToLine span startPix endPix := by
  obtain ⟨hmax, heq⟩ := exactDifference startPix hsize
  have hcast : (((firstLinePx span startPix).toNat : Nat) : ℚ) = firstLinePx span startPix := by
    rw [← Int.cast_natCast, Int.toNat_of_nonneg hline.le]
  have hle : difference span startPix ≤ firstLinePx span startPix := by
    unfold difference
    rw [hsum, hsub, ← hmax]
    exact le_max_right _ _
  refine ⟨?_, .inr (hle.trans ?_)⟩
  · by_cases hzero : firstLine span startPix = 0
    · exact .inl hzero
    · refine .inr ((cut_le _).trans ?_)
      unfold difference
      rw [hsum, hsub, heq hzero, hcast]
  · unfold cutAbove
    have hunit : (0 : ℚ) < 2 ^ ((Nat.log 2 (firstLinePx span startPix).toNat : ℤ) - (53 : ℕ)) := zpow_pos two_pos _
    rw [hcast]
    linarith

/-- From a line on the loop is exact: all positions are whole numbers. -/
theorem linesFrom_binary64 {size line : Int} (hline : 0 ≤ line) (hsize : 0 ≤ size)
    (hbound : line + turns * size ≤ 2 ^ 53) :
    linesFrom .binary64 size lastCorePx turns line index = linesFrom .exact size lastCorePx turns line index := by
  induction turns generalizing line index with
  | zero => rfl
  | succ turns ih =>
    push_cast at hbound
    have hnext : line + size ≤ 2 ^ 53 := by
      have : 0 ≤ (turns : Int) * size := Int.mul_nonneg (Int.natCast_nonneg _) hsize
      linarith
    have hsum : Arithmetic.binary64.fl (line + size) = ((line + size : Int) : ℚ) := by
      rw [← Int.cast_add]
      exact round_intCast (by rw [abs_of_nonneg (by omega)]; exact hnext)
    rw [linesFrom, linesFrom, hsum, Arithmetic.exact_fl, ← Int.cast_add]
    split
    · exact congrArg _ (ih (by omega) (by linarith))
    · rfl

/-! ### The first line in doubles -/

theorem first_le_firstLinePx (startPix : ℚ) (hsize : 0 ≤ span.sizecore) :
    spanFirstCorePx span ≤ firstLinePx span startPix :=
  le_add_of_nonneg_right (Int.mul_nonneg (Int.natCast_nonneg _) hsize)

/-- The first line is at the end of the span at the latest. -/
theorem firstLine_le_count (hsize : 0 < span.sizecore) (hstart : span.start ≤ span.index)
    (hbefore : startPix < span.poscorepx) : firstLine span startPix ≤ span.index + 1 - span.start := by
  rw [firstLine_le_iff startPix hsize]
  refine ⟨?_, .inl (by omega)⟩
  have hcast : ((span.index + 1 - span.start : Nat) : ℚ) = ((span.index + 1 - span.start : Int) : ℚ) := by
    rw [← Int.cast_natCast]
    push_cast [Nat.cast_sub (by omega : span.start ≤ span.index + 1)]
    ring
  rw [hcast, ← poscorepx_eq span]
  exact hbefore

theorem firstLinePx_bounds (hsize : 0 < span.sizecore) (hstart : span.start ≤ span.index) (hstartPix : 0 ≤ startPix)
    (hbefore : startPix < span.poscorepx) :
    0 < firstLinePx span startPix ∧ firstLinePx span startPix ≤ span.poscorepx := by
  constructor
  · have hbehind := ((firstLine_le_iff startPix hsize _).1 (le_refl _)).1
    have hlt := hstartPix.trans_lt hbehind
    unfold firstLinePx
    exact_mod_cast hlt
  · have hmul := Int.mul_le_mul_of_nonneg_right (Int.ofNat_le.2 (firstLine_le_count hsize hstart hbefore)) hsize.le
    rw [Int.ofNat_sub (by omega)] at hmul
    unfold firstLinePx spanFirstCorePx
    push_cast at hmul ⊢
    linarith

/-- A first position that is behind the range calls for nothing. -/
theorem linesOf_of_behind (A : Arithmetic) (hsize : 0 < span.sizecore) (hstart : span.start ≤ span.index)
    (hbehind : endPix < firstCorePx A span startPix) : linesOf A startPix endPix span = [] := by
  by_cases hover : (spanFirstCorePx span : ℚ) < endPix ∧ startPix < span.poscorepx
  · obtain ⟨turns, hturns⟩ : ∃ turns, span.index + 2 - span.start = turns + 1 :=
      ⟨span.index + 1 - span.start, by omega⟩
    unfold linesOf
    rw [if_pos hover, if_neg hsize.ne', hturns, linesFrom, if_neg]
    exact not_le.2 ((min_le_left _ _).trans_lt hbehind)
  · exact linesOf_of_apart hover

/-- A difference that is not too small is not rounded to less than the first line. -/
theorem le_firstCorePx_binary64 {n : Nat} (hn : firstLinePx span startPix = n) (hpos : 0 < n) (hbound : n ≤ 2 ^ 51)
    (hlow : firstLine span startPix = 0 ∨ cut 53 n ≤ difference span startPix) :
    (n : ℚ) ≤ firstCorePx .binary64 span startPix := by
  rcases hlow with hzero | hlow
  · have hline : firstLinePx span startPix = spanFirstCorePx span := by
      unfold firstLinePx
      rw [hzero]
      simp
    have hcast : (n : ℚ) = spanFirstCorePx span := by
      rw [← hline, hn]
      rfl
    rw [hcast]
    exact le_max_left _ _
  · exact ((natCast_le_round_iff (by omega)).2 hlow).trans (le_max_right _ _)

/-- A difference between the two middles is rounded to the first line. -/
theorem firstCorePx_binary64 {n : Nat} (hsize : 0 ≤ span.sizecore) (hn : firstLinePx span startPix = n) (hpos : 0 < n)
    (hbound : n ≤ 2 ^ 51) (hlow : firstLine span startPix = 0 ∨ cut 53 n ≤ difference span startPix)
    (hhigh : difference span startPix ≤ cutAbove 53 n) :
    firstCorePx .binary64 span startPix = firstLinePx span startPix := by
  have hcast : ((firstLinePx span startPix : Int) : ℚ) = n := by
    rw [hn]
    rfl
  rw [hcast]
  refine le_antisymm (max_le ?_ ?_) (le_firstCorePx_binary64 hn hpos hbound hlow)
  · rw [← hcast]
    exact Int.cast_le.2 (first_le_firstLinePx startPix hsize)
  · exact (round_le_natCast_iff (by omega) (by omega)).2 hhigh

/-- Where the first line is rounded to itself, doubles give the lines of the exact arithmetic. -/
theorem linesOf_binary64 (hfirst : 0 ≤ spanFirstCorePx span) (hsize : 0 < span.sizecore)
    (hstart : span.start ≤ span.index) (hstartPix : 0 ≤ startPix) (hbound : span.poscorepx ≤ 2 ^ 51)
    (hcount : span.index < 2 ^ 51)
    (hround : (spanFirstCorePx span : ℚ) < endPix → startPix < span.poscorepx → RoundsToLine span startPix endPix) :
    linesOf .binary64 startPix endPix span = linesOf .exact startPix endPix span := by
  by_cases hover : (spanFirstCorePx span : ℚ) < endPix ∧ startPix < span.poscorepx
  · have hlast := firstLine_le_count hsize hstart hover.2
    have hfirstLine := firstLinePx_bounds hsize hstart hstartPix hover.2
    obtain ⟨n, hn⟩ := Int.eq_ofNat_of_zero_le hfirstLine.1.le
    have hexactFirst : firstCorePx .exact span startPix = firstLinePx span startPix :=
      (exactDifference startPix hsize).1
    obtain ⟨hlow, hhigh⟩ := hround hover.1 hover.2
    rw [hn] at hlow hhigh
    have hreached : (firstLinePx span startPix : ℚ) ≤ firstCorePx .binary64 span startPix := by
      rw [hn]
      exact le_firstCorePx_binary64 hn (by omega) (by omega) hlow
    by_cases hbehind : endPix < firstLinePx span startPix
    · -- Both first positions are behind the range.
      rw [linesOf_of_behind .binary64 hsize hstart (hbehind.trans_le hreached),
        linesOf_of_behind .exact hsize hstart (hbehind.trans_le hexactFirst.ge)]
    · have hdoubleFirst : firstCorePx .binary64 span startPix = firstLinePx span startPix :=
        firstCorePx_binary64 hsize.le hn (by omega) (by omega) hlow (hhigh.resolve_left (by rwa [← hn]))
      have hfloat {m : Int} (hm : 0 ≤ m) (hle : m ≤ 2 ^ 51) : Arithmetic.binary64.fl (m : ℚ) = m :=
        round_intCast (by rw [abs_of_nonneg hm]; exact hle.trans (by norm_num))
      have hexact := linesOf_of_first .exact hover hsize hexactFirst (by
        rw [Arithmetic.exact_fl, Arithmetic.exact_fl, firstLine_quotient startPix hsize, Int.floor_natCast])
      have hsizeLe : span.sizecore ≤ span.poscorepx := by
        have hone := Int.mul_le_mul_of_nonneg_right (show (1 : Int) ≤ span.index - span.start + 1 by omega) hsize.le
        unfold spanFirstCorePx at hfirst
        linarith
      have hdouble := linesOf_of_first .binary64 hover hsize hdoubleFirst (by
        have hsub : Arithmetic.binary64.fl ((firstLinePx span startPix : ℚ) - spanFirstCorePx span) =
            (firstLinePx span startPix : ℚ) - spanFirstCorePx span := by
          rw [← Int.cast_sub]
          exact hfloat (sub_nonneg.2 (first_le_firstLinePx startPix hsize.le)) (by omega)
        rw [hsub, firstLine_quotient startPix hsize, ← Int.cast_natCast, hfloat (Int.natCast_nonneg _) (by omega),
          Int.floor_intCast])
      rw [hdouble, hexact, linesFrom_binary64 hfirstLine.1.le hsize.le]
      have hend : ((span.index + 2 - span.start : Nat) : Int) * span.sizecore ≤ span.poscorepx + span.sizecore := by
        rw [Int.ofNat_sub (by omega)]
        unfold spanFirstCorePx at hfirst
        push_cast
        linarith
      linarith
  · rw [linesOf_of_apart hover, linesOf_of_apart hover]

end DimensionPositions

/-! ### The lines of the sheet -/

namespace SheetDimension

open DimensionPositions

variable {d : SheetDimension A} {max i : Nat} {spans : List PositionedSpan} {u v : SpanViewData}
  {startPix endPix p : ℚ} {c : GridCall}

/-- A visible element starts at the position, and another one is before it. -/
def IsBoundary (d : SheetDimension A) (max : Nat) (p : ℚ) : Prop :=
  ∃ i ≤ max, d.isVisible i = true ∧ (∃ k < i, d.isVisible k = true) ∧ (d.corePixelPos i : ℚ) = p

/-- The callback is called for the boundaries in the range, in order and once for each, with an element that starts
there. -/
structure CallsGridLines (d : SheetDimension A) (max : Nat) (startPix endPix : ℚ) (calls : List GridCall) : Prop where
  increasing : calls.Pairwise fun a b => a.startPosCorePx < b.startPosCorePx
  boundary : ∀ p, (∃ c ∈ calls, c.startPosCorePx = p) ↔ startPix < p ∧ p ≤ endPix ∧ d.IsBoundary max p
  index : ∀ c ∈ calls, ∃ i ≤ max, c.index = (i : Nat) ∧ (d.corePixelPos i : ℚ) = c.startPosCorePx

/-- At the end of the sheet there are visible elements without a pixel. -/
def EndsFlat (d : SheetDimension A) (max : Nat) : Prop :=
    ∃ i ≤ max, d.isVisible i = true ∧ d.corePixelPos i = d.corePixelPos (max + 1)

theorem corePixelPos_zero (d : SheetDimension A) : d.corePixelPos 0 = 0 := Finset.sum_range_zero _

/-- The last element with pixels before a position. -/
theorem Measured.exists_before (h : d.Measured max) (hpos : 0 < d.corePixelPos i) :
    ∃ m < i, d.corePixelPos m < d.corePixelPos (m + 1) ∧ d.corePixelPos (m + 1) = d.corePixelPos i := by
  induction i with
  | zero => exact absurd hpos (by rw [corePixelPos_zero]; exact lt_irrefl 0)
  | succ i ih =>
    rcases (h.monotone_core (Nat.le_succ i)).lt_or_eq with hlt | heq
    · exact ⟨i, Nat.lt_succ_self i, hlt, rfl⟩
    · rw [Nat.succ_eq_add_one] at heq
      rw [← heq] at hpos ⊢
      obtain ⟨m, hm, hlt, hend⟩ := ih hpos
      exact ⟨m, hm.trans (Nat.lt_succ_self i), hlt, hend⟩

/-- The first element with pixels from a position on. -/
theorem Measured.exists_from (h : d.Measured max) {n : Nat} (hi : i ≤ n) (hlt : d.corePixelPos i < d.corePixelPos n) :
    ∃ j, i ≤ j ∧ j < n ∧ d.corePixelPos j = d.corePixelPos i ∧ d.corePixelPos j < d.corePixelPos (j + 1) := by
  induction n, hi using Nat.le_induction with
  | base => exact absurd hlt (lt_irrefl _)
  | succ n hi ih =>
    rcases (h.monotone_core hi).lt_or_eq with hlt' | heq
    · obtain ⟨j, hij, hjn, hpos, hsize⟩ := ih hlt'
      exact ⟨j, hij, hjn.trans (Nat.lt_succ_self n), hpos, hsize⟩
    · exact ⟨n, hi, Nat.lt_succ_self n, heq.symm, heq ▸ hlt⟩

theorem Spans.spanFirstCorePx_eq (h : d.Spans max spans) (hv : IsSpan spans v) :
    spanFirstCorePx v = d.corePixelPos v.start := by
  rw [h.corePixelPos_eq hv]
  rfl

theorem Spans.corePixelPos_add (h : d.Spans max spans) (hv : IsSpan spans v) {k : Nat}
    (hk : v.start + k ≤ v.index + 1) : (spanFirstCorePx v + k * v.sizecore : ℚ) = d.corePixelPos (v.start + k) := by
  rw [h.spanFirstCorePx_eq hv, h.corePixelPos_in hv (Nat.le_add_right _ k) hk]
  push_cast
  ring

theorem Spans.sizecore_nonneg (h : d.Measured max) (hspans : d.Spans max spans) (hv : IsSpan spans v) :
    0 ≤ v.sizecore := by
  have hle := h.monotone_core (Nat.le_succ v.start)
  rw [hspans.corePixelPos_in hv (Nat.le_succ _) (Nat.succ_le_succ (hv.start_le hspans.ends))] at hle
  push_cast at hle
  linarith

/-- A call is at the start of an element of the sheet or at its end. -/
theorem Spans.mem_calls (h : d.Measured max) (hspans : d.Spans max spans) (hv : IsSpan spans v) :
    c ∈ linesOf .exact startPix endPix v ↔ 0 < v.sizecore ∧ (spanFirstCorePx v : ℚ) < endPix ∧
    ∃ k : Nat, v.start + k ≤ v.index + 1 ∧
      (1 ≤ k ∨ (v.sizecore : ℚ) ≤ spanFirstCorePx v - startPix) ∧ startPix < d.corePixelPos (v.start + k) ∧
        d.corePixelPos (v.start + k) ≤ endPix ∧ c = ⟨d.corePixelPos (v.start + k), (v.start + k : Nat)⟩ := by
  rcases (hspans.sizecore_nonneg h hv).lt_or_eq with hsize | hzero
  · rw [mem_linesOf hsize (hv.start_le hspans.ends), and_iff_right hsize]
    refine and_congr_right fun _ => exists_congr fun k => and_congr_right fun hk => ?_
    rw [hspans.corePixelPos_add hv hk]
    push_cast
    rfl
  · rw [linesOf_of_zero hzero.symm]
    exact iff_of_false List.not_mem_nil fun hc => hc.1.ne hzero

/-- The element that ends at a position is in a span that calls for the position, or it is behind the range. -/
theorem Spans.exists_call (h : d.Measured max) (hspans : d.Spans max spans) (hi : i ≤ max + 1)
    (hpos : 0 < d.corePixelPos i)
    (hstart : startPix < d.corePixelPos i) (hend : d.corePixelPos i ≤ endPix) : ∃ v, IsSpan spans v ∧
      v.start < i ∧ ∃ c ∈ linesOf .exact startPix endPix v, c.startPosCorePx = d.corePixelPos i ∧ c.index ≤ i := by
  obtain ⟨m, hm, hlt, heq⟩ := h.exists_before hpos
  obtain ⟨v, hv, hvm, hmv⟩ := exists_isSpan hspans.ends (show m ≤ max by omega)
  obtain ⟨k, rfl⟩ := Nat.exists_eq_add_of_le hvm
  have hsize : 0 < v.sizecore := by
    rw [hspans.corePixelPos_in hv hvm (by omega),
      hspans.corePixelPos_in hv (i := v.start + k + 1) (by omega) (by omega)] at hlt
    push_cast at hlt
    linarith
  have hfirst : (spanFirstCorePx v : ℚ) < endPix := by
    rw [hspans.spanFirstCorePx_eq hv]
    refine lt_of_lt_of_le (Int.cast_lt.2 ?_) hend
    rw [← heq]
    exact (h.monotone_core hvm).trans_lt hlt
  refine ⟨v, hv, by omega, ⟨d.corePixelPos (v.start + (k + 1)), (v.start + (k + 1) : Nat)⟩, ?_, ?_, ?_⟩
  · refine (hspans.mem_calls h hv).2 ⟨hsize, hfirst, k + 1, by omega, .inl (Nat.le_add_left 1 k), ?_, ?_, rfl⟩
    · rwa [← Nat.add_assoc, heq]
    · rwa [← Nat.add_assoc, heq]
  · show (d.corePixelPos (v.start + k + 1) : ℚ) = d.corePixelPos i
    rw [heq]
  · show ((v.start + (k + 1) : Nat) : Int) ≤ i
    exact_mod_cast hm

/-- A span that begins in the range begins less than one of its elements behind the start of the range. -/
def LinesApart (spans : List PositionedSpan) (startPix endPix : ℚ) : Prop :=
  ∀ v, IsSpan spans v → 0 < v.sizecore → (spanFirstCorePx v : ℚ) < endPix →
    (spanFirstCorePx v - startPix : ℚ) < v.sizecore

theorem LinesApart.one_le (hapart : LinesApart spans startPix endPix) (hv : IsSpan spans v) (hsize : 0 < v.sizecore)
    (hfirst : (spanFirstCorePx v : ℚ) < endPix) {k : Nat}
    (hk : 1 ≤ k ∨ (v.sizecore : ℚ) ≤ spanFirstCorePx v - startPix) : 1 ≤ k :=
  hk.resolve_right (not_le.2 (hapart v hv hsize hfirst))

theorem Spans.pos_lt (hspans : d.Spans max spans) (hv : IsSpan spans v) (hsize : 0 < v.sizecore) {j k : Nat}
    (hjk : j < k) (hk : v.start + k ≤ v.index + 1) : d.corePixelPos (v.start + j) < d.corePixelPos (v.start + k) := by
  have hlt : (j : ℚ) * v.sizecore < k * v.sizecore :=
    mul_lt_mul_of_pos_right (Nat.cast_lt.2 hjk) (Int.cast_pos.2 hsize)
  have hj := hspans.corePixelPos_add hv (show v.start + j ≤ v.index + 1 by omega)
  have hk := hspans.corePixelPos_add hv hk
  rw [← Int.cast_lt (R := ℚ), ← hj, ← hk]
  linarith

theorem Spans.calls_sorted (h : d.Measured max) (hspans : d.Spans max spans)
    (hapart : LinesApart spans startPix endPix) :
    ((forEachSpan spans).flatMap (linesOf .exact startPix endPix)).Pairwise fun a b =>
      a.startPosCorePx < b.startPosCorePx := by
  refine List.pairwise_flatMap.2 ⟨fun v hv => ?_, ?_⟩
  · exact sorted_linesOf startPix endPix (hspans.sizecore_nonneg h (mem_forEachSpan.1 hv))
  refine (pairwise_forEachSpan hspans.ends).imp_of_mem fun {u v} hu hv huv a ha b hb => ?_
  have hu := mem_forEachSpan.1 hu
  have hv := mem_forEachSpan.1 hv
  obtain ⟨-, -, j, hj, -, -, -, rfl⟩ := (hspans.mem_calls h hu).1 ha
  obtain ⟨hsize, hfirst, k, hk, hone, -, -, rfl⟩ := (hspans.mem_calls h hv).1 hb
  have hle : d.corePixelPos (u.start + j) ≤ d.corePixelPos (v.start + 0) := h.monotone_core (by omega)
  exact Int.cast_lt.2 (hle.trans_lt (hspans.pos_lt hv hsize (hapart.one_le hv hsize hfirst hone) hk))

/-- No line is called for twice. -/
theorem Spans.apart_of_sorted (h : d.Measured max) (hspans : d.Spans max spans) (hstart : 0 ≤ startPix)
    (hsorted : ((forEachSpan spans).flatMap (linesOf .exact startPix endPix)).Pairwise fun a b =>
      a.startPosCorePx < b.startPosCorePx) :
    LinesApart spans startPix endPix := by
  intro v hv hsize hfirst
  by_contra hfar
  have hfar := not_lt.1 hfar
  have heq := hspans.spanFirstCorePx_eq hv
  have hpos : (0 : ℚ) < v.sizecore := Int.cast_pos.2 hsize
  have hbehind : startPix < d.corePixelPos v.start := by
    rw [← heq]
    linarith
  -- The span before calls for the line, and so does this one.
  have hend : (d.corePixelPos v.start : ℚ) ≤ endPix := by
    rw [← heq]
    exact hfirst.le
  obtain ⟨u, hu, huv, a, ha, haPos, -⟩ := hspans.exists_call h
    (((hv.start_le hspans.ends).trans (hv.index_le hspans.ends)).trans (Nat.le_succ _))
    (Int.cast_pos.1 (hstart.trans_lt hbehind)) hbehind
    hend
  have hb : (⟨d.corePixelPos (v.start + 0), (v.start + 0 : Nat)⟩ : GridCall) ∈ linesOf .exact startPix endPix v :=
    (hspans.mem_calls h hv).2
      ⟨hsize, hfirst, 0, (hv.start_le hspans.ends).trans (Nat.le_succ _), .inr hfar, hbehind, hend, rfl⟩
  have hne : (forEachSpan spans).Pairwise fun u v => ∀ a ∈ linesOf .exact startPix endPix u,
    ∀ b ∈ linesOf .exact startPix endPix v,
      a.startPosCorePx ≠ b.startPosCorePx :=
    (List.pairwise_flatMap.1 hsorted).2.imp fun hlt a ha b hb => (hlt a ha b hb).ne
  have : Std.Symm fun u v : SpanViewData => ∀ a ∈ linesOf .exact startPix endPix u,
    ∀ b ∈ linesOf .exact startPix endPix v,
      a.startPosCorePx ≠ b.startPosCorePx := ⟨fun u v hneq a ha b hb => (hneq b hb a ha).symm⟩
  refine hne.forall (mem_forEachSpan.2 hu) (mem_forEachSpan.2 hv) ?_ a ha _ hb haPos
  rintro rfl
  exact lt_irrefl _ huv

theorem Measured.isBoundary (h : d.Measured max) (hi : i ≤ max + 1) (hpos : 0 < d.corePixelPos i)
    (hend : d.corePixelPos i < d.corePixelPos (max + 1) ∨ d.EndsFlat max) : d.IsBoundary max (d.corePixelPos i) := by
  have hex : ∃ j ≤ max, d.isVisible j = true ∧ d.corePixelPos j = d.corePixelPos i := by
    rcases (h.monotone_core hi).lt_or_eq with hlt | heq
    · obtain ⟨j, -, hj, hjpos, hsize⟩ := h.exists_from hi hlt
      exact ⟨j, Nat.le_of_lt_succ hj, isVisible_of_core hsize, hjpos⟩
    · obtain ⟨j, hj, hvisible, hjpos⟩ := hend.resolve_left (by rw [heq]; exact lt_irrefl _)
      exact ⟨j, hj, hvisible, hjpos.trans heq.symm⟩
  obtain ⟨j, hj, hvisible, hjpos⟩ := hex
  obtain ⟨m, hm, hlt, -⟩ := h.exists_before (hjpos ▸ hpos)
  exact ⟨j, hj, hvisible, ⟨m, hm, isVisible_of_core hlt⟩, by rw [hjpos]⟩

/-- In the exact arithmetic the callback is called for the lines exactly where no span begins an element or more
behind the start of the range, and the range does not reach the end of the sheet. -/
theorem Spans.callsGridLines_iff (h : d.Measured max) (hspans : d.Spans max spans) (hstart : 0 ≤ startPix)
    (hlt : startPix < endPix) (hend : endPix ≤ d.corePixelPos (max + 1)) :
    d.CallsGridLines max startPix endPix ((forEachSpan spans).flatMap (linesOf .exact startPix endPix)) ↔
      (endPix < d.corePixelPos (max + 1) ∨ d.EndsFlat max) ∧ LinesApart spans startPix endPix := by
  refine ⟨fun hcalls => ⟨?_, ?_⟩, fun ⟨hreach, hapart⟩ => ?_⟩
  · by_contra hnot
    obtain ⟨hreach, hflat⟩ := not_or.1 hnot
    obtain rfl : endPix = d.corePixelPos (max + 1) := le_antisymm hend (not_lt.1 hreach)
    obtain ⟨v, hv, -, c, hc, hpos, -⟩ :=
      hspans.exists_call h (le_refl (max + 1)) (Int.cast_pos.1 (hstart.trans_lt hlt)) hlt (le_refl _)
    obtain ⟨-, -, i, hi, hvisible, -, heq⟩ :=
      (hcalls.boundary _).1 ⟨c, List.mem_flatMap.2 ⟨v, mem_forEachSpan.2 hv, hc⟩, hpos⟩
    exact hflat ⟨i, hi, hvisible, Int.cast_injective heq⟩
  · exact hspans.apart_of_sorted h hstart hcalls.increasing
  · have hreach' {i : Nat} (hle : (d.corePixelPos i : ℚ) ≤ endPix) : d.corePixelPos i < d.corePixelPos (max + 1) ∨
        d.EndsFlat max :=
      hreach.imp_left fun hlt => Int.cast_lt.1 (hle.trans_lt hlt)
    refine ⟨hspans.calls_sorted h hapart, fun p => ⟨?_, ?_⟩, fun c hc => ?_⟩
    · rintro ⟨c, hc, rfl⟩
      obtain ⟨v, hv, hc⟩ := List.mem_flatMap.1 hc
      have hv := mem_forEachSpan.1 hv
      obtain ⟨-, -, k, hk, -, hgt, hle, rfl⟩ := (hspans.mem_calls h hv).1 hc
      have := hv.index_le hspans.ends
      exact ⟨hgt, hle, h.isBoundary (by omega) (Int.cast_pos.1 (hstart.trans_lt hgt)) (hreach' hle)⟩
    · rintro ⟨hgt, hle, i, hi, -, -, rfl⟩
      obtain ⟨v, hv, -, c, hc, hpos, -⟩ :=
        hspans.exists_call h (hi.trans (Nat.le_succ _)) (Int.cast_pos.1 (hstart.trans_lt hgt)) hgt hle
      exact ⟨c, List.mem_flatMap.2 ⟨v, mem_forEachSpan.2 hv, hc⟩, hpos⟩
    · obtain ⟨v, hv, hc⟩ := List.mem_flatMap.1 hc
      have hv := mem_forEachSpan.1 hv
      obtain ⟨hsize, hfirst, k, hk, hone, -, hle, rfl⟩ := (hspans.mem_calls h hv).1 hc
      have hone := hapart.one_le hv hsize hfirst hone
      refine ⟨v.start + k, ?_, rfl, rfl⟩
      -- Behind the last element there is only a call where elements without a pixel end the sheet.
      have hmax := hv.index_le hspans.ends
      by_contra hbehind
      have hlast : v.start + k = max + 1 := by omega
      obtain ⟨i, hi, -, hipos⟩ := (hreach' hle).resolve_left (by rw [hlast]; exact lt_irrefl _)
      have hlt := hspans.pos_lt hv hsize (Nat.sub_lt hone Nat.one_pos) hk
      have hile : d.corePixelPos i ≤ d.corePixelPos (v.start + (k - 1)) := h.monotone_core (by omega)
      rw [hlast, ← hipos] at hlt
      exact absurd hile (not_le.2 hlt)

/-- The first line of every span of the range is rounded to itself. -/
def RoundsToLines (spans : List PositionedSpan) (startPix endPix : ℚ) : Prop :=
  ∀ v, IsSpan spans v → 0 < v.sizecore → (spanFirstCorePx v : ℚ) < endPix → startPix < v.poscorepx →
    RoundsToLine v startPix endPix

theorem Spans.core_bounds (h : d.Measured max) (hfits : d.FitsDouble max) (hspans : d.Spans max spans)
    (hv : IsSpan spans v) : 0 ≤ spanFirstCorePx v ∧ v.poscorepx ≤ 2 ^ 51 ∧ v.index < 2 ^ 51 := by
  have hindex := hv.index_le hspans.ends
  refine ⟨?_, ?_, hindex.trans_lt hfits.count⟩
  · rw [hspans.spanFirstCorePx_eq hv, ← corePixelPos_zero d]
    exact h.monotone_core (Nat.zero_le _)
  · rw [hspans.core _ hv.mem]
    exact (h.monotone_core (Nat.succ_le_succ hindex)).trans hfits.core

/-- From a whole pixel on they all are. -/
theorem Spans.roundsToLines_intCast (h : d.Measured max) (hfits : d.FitsDouble max) (hspans : d.Spans max spans)
    {n : Int} (hn : 0 ≤ n) (endPix : ℚ) : RoundsToLines spans n endPix := by
  intro v hv hsize _ hover
  obtain ⟨hfirst, hbound, -⟩ := hspans.core_bounds h hfits hv
  have hstart := hv.start_le hspans.ends
  have hsizeLe : v.sizecore ≤ v.poscorepx := by
    have hone := Int.mul_le_mul_of_nonneg_right (show (1 : Int) ≤ v.index - v.start + 1 by omega) hsize.le
    unfold spanFirstCorePx at hfirst
    linarith
  have hfirstLe : spanFirstCorePx v ≤ v.poscorepx := by
    have := Int.mul_nonneg hsize.le (show (0 : Int) ≤ v.index - v.start + 1 by omega)
    unfold spanFirstCorePx
    linarith
  have hover : n < v.poscorepx := Int.cast_lt.1 hover
  have hline : 0 < firstLinePx v n := by
    have hbehind := ((firstLine_le_iff (n : ℚ) hsize _).1 (le_refl _)).1
    have hlt := (Int.cast_nonneg (R := ℚ) hn).trans_lt hbehind
    unfold firstLinePx
    exact_mod_cast hlt
  refine roundsToLine_of_exact endPix hsize hline ?_ ?_
  · rw [← Int.cast_add]
    refine round_intCast ?_
    rw [abs_of_nonneg (by omega)]
    omega
  · rw [← Int.cast_sub]
    refine round_intCast ?_
    rw [abs_le]
    omega

/-- Then doubles give the lines of the exact arithmetic. -/
theorem Read.forEachInCorePixelRange_eq {d : SheetDimension .binary64} {g : DimensionPositions .binary64}
    {maxIndex : Nat}
    (h : d.Measured max) (hfits : d.FitsDouble max) (hread : d.Read max maxIndex g) (hstart : 0 ≤ startPix)
    (hround : RoundsToLines g.visibleSizes startPix endPix) : g.forEachInCorePixelRange startPix endPix =
      (forEachSpan g.visibleSizes).flatMap (linesOf .exact startPix endPix) := by
  refine congrArg List.flatten (List.map_congr_left fun v hv => ?_)
  have hv := mem_forEachSpan.1 hv
  obtain ⟨hfirst, hbound, hcount⟩ := hread.core_bounds h hfits hv
  rcases (hread.sizecore_nonneg h hv).lt_or_eq with hsize | hzero
  · exact linesOf_binary64 hfirst hsize (hv.start_le hread.ends) hstart hbound hcount fun hbefore hover =>
      hround v hv hsize hbefore hover
  · rw [linesOf_of_zero hzero.symm, linesOf_of_zero hzero.symm]

/-- The first line of a span of the range is rounded to a fraction, and the span and the range have it. -/
def HasFraction (spans : List PositionedSpan) (startPix endPix : ℚ) : Prop :=
  ∃ v, IsSpan spans v ∧ 0 < v.sizecore ∧ (spanFirstCorePx v : ℚ) < endPix ∧ startPix < v.poscorepx ∧
    firstCorePx .binary64 v startPix ≤ min endPix v.poscorepx ∧ ∀ n : Int, firstCorePx .binary64 v startPix ≠ n

/-- A line is at a whole pixel, and so the callback is called for something else. -/
theorem not_callsGridLines_of_hasFraction {g : DimensionPositions .binary64}
    (hspans : EndsAt max (g.visibleSizes.map (·.index))) (hfraction : HasFraction g.visibleSizes startPix endPix) :
    ¬ d.CallsGridLines max startPix endPix (g.forEachInCorePixelRange startPix endPix) := by
  intro hcalls
  obtain ⟨v, hv, hsize, hbefore, hover, hle, hne⟩ := hfraction
  obtain ⟨turns, hturns⟩ : ∃ turns, v.index + 2 - v.start = turns + 1 :=
    ⟨v.index + 1 - v.start, by have := hv.start_le hspans; omega⟩
  have hcall : ∃ index, ⟨firstCorePx .binary64 v startPix, index⟩ ∈ linesOf .binary64 startPix endPix v := by
    unfold linesOf
    rw [if_pos ⟨hbefore, hover⟩, if_neg hsize.ne', hturns, linesFrom, if_pos hle]
    exact ⟨_, List.mem_cons_self⟩
  obtain ⟨index, hmem⟩ := hcall
  obtain ⟨-, -, i, -, -, -, heq⟩ :=
    (hcalls.boundary _).1 ⟨_, List.mem_flatMap.2 ⟨v, mem_forEachSpan.2 hv, hmem⟩, rfl⟩
  exact hne _ heq.symm

section Examples

/-- A column of 20 pixels and two of 10 pixels. -/
def threeColumns : SheetDimension .binary64 where
  sizes := { spanlist := [⟨0, 300⟩, ⟨2, 150⟩] }
  hidden := { startBit := false, spanlist := [2] }
  filtered := { startBit := false, spanlist := [2] }
  tileSizeTwips := 3840
  tileSizePixels := 256

theorem measured_threeColumns : threeColumns.Measured 2 where
  sizes := ⟨by decide, rfl⟩
  hidden := ⟨by decide, rfl⟩
  filtered := ⟨by decide, rfl⟩
  sizes_nonneg := by decide
  tileSizeTwips_pos := by norm_num [threeColumns]
  tileSizePixels_pos := by norm_num [threeColumns]

theorem ratio_threeColumns : threeColumns.twipsPerCorePixel = 15 := by
  have hratio : threeColumns.tileSizeTwips / threeColumns.tileSizePixels = ((15 : Int) : ℚ) := by
    norm_num [threeColumns]
  unfold twipsPerCorePixel
  rw [hratio]
  exact round_intCast (by norm_num)

theorem corePixelPos_threeColumns :
    threeColumns.corePixelPos 1 = 20 ∧ threeColumns.corePixelPos 2 = 30 ∧ threeColumns.corePixelPos 3 = 40 := by
  have hsizes : threeColumns.visibleSize 0 = 300 ∧ threeColumns.visibleSize 1 = 150 ∧
      threeColumns.visibleSize 2 = 150 := by decide
  have hten : ⌊Arithmetic.binary64.fl ((150 : Int) / 15)⌋ = 10 :=
    floor_round_eq (p := 53) (k := 10) (by norm_num) (by norm_num) (by norm_num)
  have htwenty : ⌊Arithmetic.binary64.fl ((300 : Int) / 15)⌋ = 20 :=
    floor_round_eq (p := 53) (k := 20) (by norm_num) (by norm_num) (by norm_num)
  simp only [corePixelPos, Finset.sum_range_succ, Finset.sum_range_zero, hsizes, ratio_threeColumns, hten, htwenty]
  decide

theorem fitsDouble_threeColumns : threeColumns.FitsDouble 2 where
  count := by norm_num
  core := by rw [corePixelPos_threeColumns.2.2]; norm_num
  tile := by
    have hpos : threeColumns.exactPos 3 = ((600 : Int) : ℚ) := by
      unfold exactPos
      rw [corePixelPos_threeColumns.2.2, ratio_threeColumns]
      exact (congrArg (round 53) (by norm_num)).trans (round_intCast (by norm_num))
    unfold tileTwipsPos
    rw [hpos, Int.floor_intCast]
    norm_num
  print := by decide

theorem sizecore_threeColumns (hspans : threeColumns.Spans 2 spans) (hv : IsSpan spans v) (hstart : v.start = 1) :
    spanFirstCorePx v = 20 ∧ v.sizecore = 10 := by
  obtain ⟨hone, htwo, -⟩ := corePixelPos_threeColumns
  have hnext := hspans.corePixelPos_in hv (i := 2) (by omega) (Nat.succ_le_succ (hstart ▸ hv.start_le hspans.ends))
  rw [hstart, hone, htwo] at hnext
  push_cast at hnext
  exact ⟨by rw [hspans.spanFirstCorePx_eq hv, hstart, hone], by linarith⟩

end Examples

end SheetDimension

end CollaboraOnline
