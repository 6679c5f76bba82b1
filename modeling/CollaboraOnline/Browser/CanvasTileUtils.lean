import Mathlib.Data.Nat.Bitwise
import CollaboraOnline.Kit.DeltaProgram

/-!
# The client's tile decoder

`unrle` and `updateImageFromDeltas` of `CanvasTileUtils.ts`, on byte arrays as lists.  Every access outside an array,
which JavaScript answers with `undefined`, ignores, or refuses, is `none` here: a result `some` says that there was
none.  Loops that the source bounds by the data they consume take that bound as fuel, and running out of it is `none`
as well.
-/

namespace CollaboraOnline

open Blit RepeatMask

namespace CanvasTileUtils

/-! ### Keyframes -/

/-- The variables of the inner loop of `unrle`. -/
structure UnrleState where
  lastPixel : List UInt8
  lastMask : Nat
  bitToCheck : Nat
  rleMaskOffset : Nat
  pixSrc : Nat
  pixOffset : Nat
  output : List UInt8

def loadMask (data : List UInt8) (s : UnrleState) : Option UnrleState :=
  if s.bitToCheck > 128 then do
    let lastMask ← data[s.rleMaskOffset]?
    some { s with bitToCheck := 1, lastMask := lastMask.toNat, rleMaskOffset := s.rleMaskOffset + 1 }
  else some s

def loadPixel (data : List UInt8) (s : UnrleState) : Option UnrleState :=
  if s.lastMask &&& s.bitToCheck = 0 then do
    let b0 ← data[s.pixSrc]?
    let b1 ← data[s.pixSrc + 1]?
    let b2 ← data[s.pixSrc + 2]?
    let b3 ← data[s.pixSrc + 3]?
    some { s with lastPixel := [b0, b1, b2, b3], pixSrc := s.pixSrc + 4 }
  else some s

/-- `output.set(this.lastPixel, pixOffset)` -/
def storePixel (s : UnrleState) : Option UnrleState :=
  if s.pixOffset + 4 ≤ s.output.length then
    some { s with
      bitToCheck := s.bitToCheck <<< 1
      output := blit s.output s.pixOffset s.lastPixel
      pixOffset := s.pixOffset + 4 }
  else none

/-- The inner loop of `unrle`, for the remaining columns of a row. -/
def unrlePixels (data : List UInt8) : Nat → UnrleState → Option UnrleState
  | 0, s => some s
  | columns + 1, s => do
    let s ← loadMask data s
    let s ← loadPixel data s
    let s ← storePixel s
    unrlePixels data columns s

/-- The outer loop of `unrle`, for the remaining rows from `y` on. -/
def unrleRows (data : List UInt8) (width outputOffset : Nat) :
    Nat → Nat → Nat → List UInt8 → Option (List UInt8 × Nat)
  | 0, _, offset, output => some (output, offset)
  | rows + 1, y, offset, output => do
    let lo ← data[offset]?
    let hi ← data[offset + 1]?
    let rleSize := lo.toNat + hi.toNat * 256
    let rleMask := offset + 2
    let offset := rleMask + 256 / 8
    let s ← unrlePixels data width
      { lastPixel := [0, 0, 0, 0], lastMask := 0, bitToCheck := 256, rleMaskOffset := rleMask, pixSrc := offset,
        pixOffset := y * width * 4 + outputOffset, output := output }
    unrleRows data width outputOffset rows (y + 1) (offset + rleSize * 4) s.output

/-- `unrle`: the output and the number of bytes read. -/
def unrle (data : List UInt8) (width height : Nat) (output : List UInt8) (outputOffset : Nat) :
    Option (List UInt8 × Nat) :=
  unrleRows data width outputOffset height 0 0 output

/-! ### Deltas -/

/-- The loops of the command `c`. -/
def copyRows (oldData : List UInt8) (width : Nat) : Nat → Nat → Nat → List UInt8 → Option (List UInt8)
  | 0, _, _, imgData => some imgData
  | count + 1, srcRow, destRow, imgData => do
    let imgData ← copyLoop oldData (srcRow * width * 4) imgData (destRow * width * 4) (width * 4)
    copyRows oldData width count (srcRow + 1) (destRow + 1) imgData

/-- The command loop of `applyDeltaChunk` from `delta[i]` on. -/
def deltaCommands (delta oldData : List UInt8) (width : Nat) : Nat → Nat → List UInt8 → Option (List UInt8 × Nat)
  | 0, _, _ => none
  | fuel + 1, i, imgData =>
    match delta[i]? with
    | none => some (imgData, i)
    | some 99 => do
      let count ← delta[i + 1]?
      let srcRow ← delta[i + 2]?
      let destRow ← delta[i + 3]?
      let imgData ← copyRows oldData width count.toNat srcRow.toNat destRow.toNat imgData
      deltaCommands delta oldData width fuel (i + 4) imgData
    | some 100 => do
      let destRow ← delta[i + 1]?
      let destCol ← delta[i + 2]?
      let span ← delta[i + 3]?
      let imgData ← copyLoop delta (i + 4) imgData (destRow.toNat * width * 4 + destCol.toNat * 4) (span.toNat * 4)
      deltaCommands delta oldData width fuel (i + 4 + span.toNat * 4) imgData
    | some 116 => some (imgData, i + 1)
    | some _ => deltaCommands delta oldData width fuel delta.length imgData

/-- `applyDeltaChunk`: the image and the number of bytes read. -/
def applyDeltaChunk (imgData delta oldData : List UInt8) (width : Nat) : Option (List UInt8 × Nat) :=
  deltaCommands delta oldData width (delta.length + 1) 0 imgData

/-- The loop of `updateImageFromDeltas` from `offset` on. -/
def updateChunks (deltas : List UInt8) (tileSize : Nat) : Nat → Nat → List UInt8 → Option (List UInt8 × Nat)
  | 0, _, _ => none
  | fuel + 1, offset, imageData =>
    if offset < deltas.length then do
      let (imageData, len) ← applyDeltaChunk imageData (deltas.drop offset) imageData tileSize
      updateChunks deltas tileSize fuel (offset + len) imageData
    else some (imageData, offset)

/-- `updateImageFromDeltas`: the image and the offset the loop ends at. -/
def updateImageFromDeltas (imageData deltas : List UInt8) (keyframeDeltaSize tileSize : Nat) :
    Option (List UInt8 × Nat) :=
  updateChunks deltas tileSize (deltas.length + 1) keyframeDeltaSize imageData

/-- What the worker does with the decompressed data of a tile that starts with a keyframe.  It has one `tileSize` for
`width` and `height`. -/
def decodeKeyframeTile (deltas : List UInt8) (width height : Nat) : Option (List UInt8 × Nat) := do
  let (imageData, keyframeDeltaSize) ← unrle deltas width height (List.replicate (width * height * 4) 0) 0
  updateImageFromDeltas imageData deltas keyframeDeltaSize width

/-! ### Decoding a row of a keyframe -/

/-- The 32 bytes from `maskStart` on hold the mask `bit`. -/
private def MaskAt (data : List UInt8) (maskStart : Nat) (bit : Nat → Bool) : Prop :=
  ∀ j, j < 32 → ∃ m, data[maskStart + j]? = some m ∧ ∀ b, b < 8 → m.toNat.testBit b = bit (8 * j + b)

/-- The loop has used `k` bits of the mask. -/
private def AtBit (data : List UInt8) (maskStart k : Nat) (s : UnrleState) : Prop :=
  k % 8 = 0 ∧ 128 < s.bitToCheck ∧ s.rleMaskOffset = maskStart + k / 8 ∨
    k % 8 ≠ 0 ∧ s.bitToCheck = 2 ^ (k % 8) ∧ s.rleMaskOffset = maskStart + k / 8 + 1 ∧
      ∃ m, data[maskStart + k / 8]? = some m ∧ s.lastMask = m.toNat

private theorem loadMask_eq {data : List UInt8} {maskStart k : Nat} {bit : Nat → Bool} {s : UnrleState}
    (hmask : MaskAt data maskStart bit) (hat : AtBit data maskStart k s) (hk : k < 256) :
    ∃ m, data[maskStart + k / 8]? = some m ∧ m.toNat.testBit (k % 8) = bit k ∧ loadMask data s = some { s with
      bitToCheck := 2 ^ (k % 8), lastMask := m.toNat, rleMaskOffset := maskStart + k / 8 + 1 } := by
  obtain ⟨m, hm, hbits⟩ := hmask (k / 8) (by omega)
  refine ⟨m, hm, ?_, ?_⟩
  · rw [hbits _ (Nat.mod_lt _ (by decide)), Nat.div_add_mod]
  · unfold loadMask
    obtain ⟨hmod, hbit, hoff⟩ | ⟨-, hbit, hoff, m', hm', hlast⟩ := hat
    · simp [hbit, hoff, hm, hmod]
    · have hsmall : ¬ s.bitToCheck > 128 := by
        have hpow : 2 ^ (k % 8) ≤ 2 ^ 7 := Nat.pow_le_pow_right (by decide) (by omega)
        omega
      rw [hm] at hm'
      cases hm'
      simp only [hsmall, ↓reduceIte, ← hbit, ← hoff, ← hlast]

private theorem AtBit.shift {data : List UInt8} {maskStart k : Nat} {m : UInt8} {s : UnrleState}
    (hm : data[maskStart + k / 8]? = some m) (hbit : s.bitToCheck = 2 ^ (k % 8) <<< 1)
    (hoff : s.rleMaskOffset = maskStart + k / 8 + 1) (hlast : s.lastMask = m.toNat) :
    AtBit data maskStart (k + 1) s := by
  have hpow : 2 ^ (k % 8) <<< 1 = 2 ^ (k % 8 + 1) := by rw [Nat.shiftLeft_eq, Nat.pow_one, Nat.pow_succ]
  by_cases h7 : k % 8 = 7
  · refine Or.inl ⟨by omega, ?_, by omega⟩
    rw [hbit, hpow, h7]
    decide
  · have hdiv : (k + 1) / 8 = k / 8 := by omega
    have hmod : (k + 1) % 8 = k % 8 + 1 := by omega
    refine Or.inr ⟨by omega, ?_, by omega, m, by rwa [hdiv], hlast⟩
    rw [hbit, hpow, hmod]

/-- The inner loop of `unrle` writes the pixels whose repeat bits and fresh pixels it finds. -/
private theorem unrlePixels_eq (mode : TileMode) {data : List UInt8} {maskStart : Nat} {bit : Nat → Bool}
    (hmask : MaskAt data maskStart bit) (rest : List Pixel) (last : Pixel) (s : UnrleState) {k : Nat}
    (before after : List UInt8) (hat : AtBit data maskStart k s) (hk : k + rest.length ≤ 256)
    (hbits : ∀ i, i < rest.length → bit (k + i) = (repeats last rest)[i]?.getD false)
    (hlast : s.lastPixel = mode.clientBytes last)
    (hdata : data = before ++ (fresh last rest).flatMap mode.clientBytes ++ after) (hsrc : s.pixSrc = before.length)
    (hroom : s.pixOffset + rest.length * 4 ≤ s.output.length) :
    ∃ s', unrlePixels data rest.length s = some s' ∧
      s'.output = blit s.output s.pixOffset (rest.flatMap mode.clientBytes) := by
  induction rest generalizing last s k before with
  | nil => exact ⟨s, rfl, by simp⟩
  | cons pix rest ih =>
    simp only [List.length_cons] at hk hroom
    obtain ⟨m, hm, htest, hload⟩ := loadMask_eq hmask hat (by omega)
    have hcur := hbits 0 (by simp)
    have hrest : ∀ i, i < rest.length → bit (k + 1 + i) = (repeats pix rest)[i]?.getD false := by
      intro i hi
      have hnext := hbits (i + 1) (by simp only [List.length_cons]; omega)
      rwa [show k + (i + 1) = k + 1 + i by omega, repeats, List.getElem?_cons_succ] at hnext
    simp only [Nat.add_zero, repeats, List.getElem?_cons_zero, Option.getD_some] at hcur
    have hlen : (s.output.length) = (blit s.output s.pixOffset (mode.clientBytes pix)).length := by
      rw [length_blit]
      simp
      omega
    have hblit : blit s.output s.pixOffset ((pix :: rest).flatMap mode.clientBytes) =
        blit (blit s.output s.pixOffset (mode.clientBytes pix)) (s.pixOffset + 4)
          (rest.flatMap mode.clientBytes) := by
      rw [List.flatMap_cons, ← blit_blit]
      · rfl
      · simp
        omega
    have hfit : s.pixOffset + 4 ≤ s.output.length := by omega
    rw [hblit]
    simp only [List.length_cons, unrlePixels, hload, Option.bind_eq_bind, Option.bind_some]
    by_cases hpix : pix = last
    · -- a set bit: the last pixel again
      have hset : ¬ (m.toNat &&& 2 ^ (k % 8) = 0) := by
        rw [Nat.and_two_pow, htest, hcur, hpix]
        simp
      rw [fresh, if_pos hpix, ← hpix] at hdata
      simp only [loadPixel, hset, ↓reduceIte, Option.bind_some, storePixel, hfit, hlast, ← hpix]
      refine ih pix _ before ?_ (by omega) hrest rfl hdata hsrc ?_
      · exact AtBit.shift hm rfl rfl rfl
      · show s.pixOffset + 4 + rest.length * 4 ≤ (blit s.output s.pixOffset (mode.clientBytes pix)).length
        omega
    · -- a clear bit: the next stored pixel
      have hclear : m.toNat &&& 2 ^ (k % 8) = 0 := by
        rw [Nat.and_two_pow, htest, hcur]
        simp [hpix]
      rw [fresh, if_neg hpix, List.flatMap_cons, List.append_assoc, List.append_assoc] at hdata
      have hget : ∀ r, r < 4 → data[s.pixSrc + r]? = (mode.clientBytes pix)[r]? := by
        intro r hr
        rw [hdata, hsrc, List.getElem?_append_right (by omega), Nat.add_sub_cancel_left,
          List.getElem?_append_left (by simpa using hr)]
      have hb0 : data[s.pixSrc]? = some (mode.convert pix).b0 := hget 0 (by omega)
      have hb1 : data[s.pixSrc + 1]? = some (mode.convert pix).b1 := hget 1 (by omega)
      have hb2 : data[s.pixSrc + 2]? = some (mode.convert pix).b2 := hget 2 (by omega)
      have hb3 : data[s.pixSrc + 3]? = some (mode.convert pix).b3 := hget 3 (by omega)
      simp only [loadPixel, hclear, ↓reduceIte, hb0, hb1, hb2, hb3, Option.bind_eq_bind, Option.bind_some, storePixel,
        hfit]
      refine ih pix _ (before ++ mode.clientBytes pix) ?_ (by omega) hrest rfl ?_ ?_ ?_
      · exact AtBit.shift hm rfl rfl rfl
      · rw [hdata]
        simp only [List.append_assoc]
      · show s.pixSrc + 4 = (before ++ mode.clientBytes pix).length
        simp [hsrc]
      · show s.pixOffset + 4 + rest.length * 4 ≤ (blit s.output s.pixOffset (mode.clientBytes pix)).length
        omega

open DeltaBitmapRow in
/-- The three parts of a packed row. -/
private theorem packForNetwork_eq (simd : Simd) (mode : TileMode) (row : DeltaBitmapRow) :
    row.packForNetwork simd mode = [UInt8.ofNat (row.rleSize % 256), UInt8.ofNat (row.rleSize / 256)] ++
      row.rleMask.toList.flatMap wordBytes ++ row.rleData.flatMap mode.clientBytes := by
  unfold packForNetwork
  congr 1
  split
  · rw [rleSize, copyRow_eq]
  · rename_i hzero
    have hnil : row.rleData = [] := List.length_eq_zero_iff.1 (by unfold rleSize at hzero; omega)
    simp [hnil]

private theorem length_maskBytes (row : DeltaBitmapRow) :
    (row.rleMask.toList.flatMap DeltaBitmapRow.wordBytes).length = 32 := by
  rw [length_flatMap_const (k := 8) (fun _ => by simp [DeltaBitmapRow.wordBytes])]
  simp

open DeltaBitmapRow in
/-- The mask bytes of a packed row hold the repeat bits. -/
private theorem maskAt_packed {row : DeltaBitmapRow} {pixels : List Pixel} (hrow : row.Encodes pixels)
    (before after : List UInt8) :
    MaskAt (before ++ row.rleMask.toList.flatMap wordBytes ++ after) before.length
      fun i => (repeats Pixel.transparent pixels)[i]?.getD false := by
  intro j hj
  have hword : row.rleMask.toList[j / 8]? = some (row.rleMask[j / 8]) := by
    rw [List.getElem?_eq_getElem (by simp; omega), Vector.getElem_toList]
  have hbyte : (row.rleMask.toList.flatMap wordBytes)[j]? =
      some (UInt8.ofBitVec ((row.rleMask[j / 8]).extractLsb' (8 * (j % 8)) 8)) := by
    conv_lhs => rw [← Nat.div_add_mod' j 8]
    rw [getElem?_flatMap_const (fun _ => by simp [wordBytes]) hword (Nat.mod_lt _ (by decide))]
    simp [wordBytes, Nat.mod_lt]
  refine ⟨UInt8.ofBitVec ((row.rleMask[j / 8]).extractLsb' (8 * (j % 8)) 8), ?_, ?_⟩
  · rw [List.append_assoc, List.getElem?_append_right (by omega), Nat.add_sub_cancel_left,
      List.getElem?_append_left (by rw [length_maskBytes]; exact hj), hbyte]
  · intro b hb
    have hbit := hrow.mask (8 * j + b) (by omega)
    have hdiv : (8 * j + b) / 64 = j / 8 := by omega
    have hmod : (8 * j + b) % 64 = 8 * (j % 8) + b := by omega
    simp only [hdiv, hmod] at hbit
    show ((row.rleMask[j / 8]).extractLsb' (8 * (j % 8)) 8).toNat.testBit b =
      (repeats Pixel.transparent pixels)[8 * j + b]?.getD false
    rw [← hbit, BitVec.testBit_toNat, BitVec.getLsbD_extractLsb']
    simp [hb]

/-- A row of `unrle`. -/
private theorem unrleRow_eq (simd : Simd) (mode : TileMode) {row : DeltaBitmapRow} {pixels : List Pixel}
    {width : Nat} (outputOffset rows y : Nat) (before after output : List UInt8) (hrow : row.Encodes pixels)
    (hlen : pixels.length = width) (hw : width ≤ 256)
    (hroom : y * width * 4 + outputOffset + width * 4 ≤ output.length) :
    unrleRows (before ++ row.packForNetwork simd mode ++ after) width outputOffset (rows + 1) y before.length output =
      unrleRows (before ++ row.packForNetwork simd mode ++ after) width outputOffset rows (y + 1)
        (before.length + (row.packForNetwork simd mode).length)
        (blit output (y * width * 4 + outputOffset) (pixels.flatMap mode.clientBytes)) := by
  have hsize : row.rleSize < 65536 := by
    have := length_fresh_le Pixel.transparent pixels
    rw [DeltaBitmapRow.rleSize, hrow.data]
    omega
  obtain ⟨data, hdata⟩ : ∃ data, data = before ++ row.packForNetwork simd mode ++ after := ⟨_, rfl⟩
  have hparts : data = before ++ [UInt8.ofNat (row.rleSize % 256), UInt8.ofNat (row.rleSize / 256)] ++
      row.rleMask.toList.flatMap DeltaBitmapRow.wordBytes ++ (row.rleData.flatMap mode.clientBytes ++ after) := by
    rw [hdata, packForNetwork_eq]
    simp only [List.append_assoc]
  have hlo : data[before.length]? = some (UInt8.ofNat (row.rleSize % 256)) := by
    rw [hparts]
    simp
  have hhi : data[before.length + 1]? = some (UInt8.ofNat (row.rleSize / 256)) := by
    rw [hparts]
    simp
  have hnum : (UInt8.ofNat (row.rleSize % 256)).toNat + (UInt8.ofNat (row.rleSize / 256)).toNat * 256 =
      row.rleSize := by
    simp
    omega
  have hmask := maskAt_packed hrow (before ++ [UInt8.ofNat (row.rleSize % 256), UInt8.ofNat (row.rleSize / 256)])
    (row.rleData.flatMap mode.clientBytes ++ after)
  rw [← hparts, show (before ++ [UInt8.ofNat (row.rleSize % 256), UInt8.ofNat (row.rleSize / 256)]).length =
    before.length + 2 by simp] at hmask
  obtain ⟨s', hs', hout⟩ := unrlePixels_eq mode hmask pixels Pixel.transparent
    { lastPixel := [0, 0, 0, 0], lastMask := 0, bitToCheck := 256, rleMaskOffset := before.length + 2,
      pixSrc := before.length + 2 + 256 / 8, pixOffset := y * width * 4 + outputOffset, output := output }
    (before ++ [UInt8.ofNat (row.rleSize % 256), UInt8.ofNat (row.rleSize / 256)] ++
      row.rleMask.toList.flatMap DeltaBitmapRow.wordBytes)
    after (k := 0) (Or.inl ⟨rfl, by simp, rfl⟩) (by omega) (fun i _ => by rw [Nat.zero_add])
    (by rw [TileMode.clientBytes, mode.convert_transparent]; rfl)
    (by rw [hparts, hrow.data]; simp only [List.append_assoc])
    (by simp only [List.length_append, length_maskBytes]; rfl) (by rw [hlen]; exact hroom)
  rw [hlen] at hs'
  rw [← hdata]
  simp only [unrleRows, hlo, hhi, Option.bind_eq_bind, Option.bind_some, hnum, hs', hout]
  congr 1
  rw [packForNetwork_eq, List.length_append, List.length_append, length_maskBytes,
    length_flatMap_const (length_clientBytes mode), DeltaBitmapRow.rleSize]
  simp only [List.length_cons, List.length_nil]
  omega

/-- Keyframe rows from `y` on: what stands before them in the data and in the image stays. -/
private theorem unrleRows_eq (simd : Simd) (mode : TileMode) {width height : Nat} (b : Subbuffer width height)
    (hw : width ≤ 256) (rows y : Nat) (before after output : List UInt8) (hy : y + rows = height)
    (hlen : output.length = height * width * 4) :
    unrleRows (before ++ (List.range' y rows).flatMap
        (fun y => ((DeltaData.ofPixmap simd b).getRow y).packForNetwork simd mode) ++ after) width 0 rows y
        before.length (frontier (b.pixels.flatMap mode.clientBytes) output (y * width * 4)) =
      some (b.pixels.flatMap mode.clientBytes, before.length + ((List.range' y rows).flatMap
        (fun y => ((DeltaData.ofPixmap simd b).getRow y).packForNetwork simd mode)).length) := by
  have hbytes : (b.pixels.flatMap mode.clientBytes).length = output.length := by
    rw [length_flatMap_const (length_clientBytes mode), b.length_pixels, hlen]
  induction rows generalizing y before with
  | zero =>
    obtain rfl : y = height := hy
    rw [← hlen, ← hbytes, frontier_length (by omega)]
    simp [unrleRows]
  | succ rows ih =>
    have hle : (y + 1) * width ≤ height * width := Nat.mul_le_mul_right _ (by omega)
    have henc := DeltaData.getRow_ofPixmap_encodes simd b hw (show y < height by omega)
    rw [Nat.succ_mul] at hle
    obtain ⟨packed, hpacked⟩ : ∃ packed, ((DeltaData.ofPixmap simd b).getRow y).packForNetwork simd mode = packed :=
      ⟨_, rfl⟩
    obtain ⟨rest, hrest⟩ : ∃ rest, ((List.range' (y + 1) rows).flatMap fun y =>
      ((DeltaData.ofPixmap simd b).getRow y).packForNetwork simd mode) = rest := ⟨_, rfl⟩
    have hrow := unrleRow_eq simd mode 0 rows y before (rest ++ after)
      (frontier (b.pixels.flatMap mode.clientBytes) output (y * width * 4)) henc
      (length_slice (by rw [b.length_pixels]; omega)) hw (by rw [length_frontier hbytes]; omega)
    have hblit : blit (frontier (b.pixels.flatMap mode.clientBytes) output (y * width * 4)) (y * width * 4 + 0)
        ((slice b.pixels (y * width) width).flatMap mode.clientBytes) =
        frontier (b.pixels.flatMap mode.clientBytes) output ((y + 1) * width * 4) := by
      rw [flatMap_slice (length_clientBytes mode), Nat.add_zero, blit_frontier (by omega), Nat.succ_mul, Nat.add_mul]
    have hih := ih (y + 1) (before ++ packed) (by omega)
    rw [hpacked, hblit] at hrow
    rw [hrest] at hih
    rw [List.range'_succ, List.flatMap_cons, hpacked, hrest]
    simp only [List.append_assoc, List.length_append, Nat.add_assoc] at hrow hih ⊢
    rw [hrow, hih]

theorem unrle_packKeyframe (simd : Simd) (mode : TileMode) {width height : Nat} (b : Subbuffer width height)
    (hw : width ≤ 256) (after output : List UInt8) (hlen : output.length = height * width * 4) :
    unrle ((DeltaData.ofPixmap simd b).packKeyframe simd mode ++ after) width height output 0 =
      some (b.pixels.flatMap mode.clientBytes, ((DeltaData.ofPixmap simd b).packKeyframe simd mode).length) := by
  have h := unrleRows_eq simd mode b hw height 0 [] after output (by omega) hlen
  simp only [Nat.zero_mul, frontier_zero, List.nil_append, List.length_nil, Nat.zero_add, ← List.range_eq_range'] at h
  exact h

/-! ### Applying a delta -/

/-- The row copies of the command `c`. -/
private theorem copyRows_eq (mode : TileMode) {width count src dest : Nat} {old img : List Pixel}
    (hsrc : (src + count) * width ≤ old.length) (hdest : (dest + count) * width ≤ img.length) :
    copyRows (old.flatMap mode.clientBytes) width count src dest (img.flatMap mode.clientBytes) =
      some ((blit img (dest * width) (slice old (src * width) (count * width))).flatMap mode.clientBytes) := by
  induction count generalizing src dest img with
  | zero => simp [copyRows]
  | succ count ih =>
    have hsrc' : (src + 1) * width ≤ (src + (count + 1)) * width := Nat.mul_le_mul_right _ (by omega)
    have hdest' : (dest + 1) * width ≤ (dest + (count + 1)) * width := Nat.mul_le_mul_right _ (by omega)
    rw [Nat.succ_mul] at hsrc' hdest'
    have hslice : (slice old (src * width) width).length = width := length_slice (by omega)
    have hloop : copyLoop (old.flatMap mode.clientBytes) (src * width * 4) (img.flatMap mode.clientBytes)
        (dest * width * 4) (width * 4) =
        some ((blit img (dest * width) (slice old (src * width) width)).flatMap mode.clientBytes) := by
      rw [copyLoop_eq, flatMap_blit (length_clientBytes mode), flatMap_slice (length_clientBytes mode)]
      · rw [length_flatMap_const (length_clientBytes mode)]
        omega
      · rw [length_flatMap_const (length_clientBytes mode)]
        omega
    have hlen : (blit img (dest * width) (slice old (src * width) width)).length = img.length := by
      apply length_blit
      rw [hslice]
      omega
    simp only [copyRows, hloop, Option.bind_eq_bind, Option.bind_some]
    rw [ih (by rwa [Nat.add_assoc, Nat.add_comm 1]) (by rw [hlen, Nat.add_assoc, Nat.add_comm 1]; exact hdest)]
    have hcount : (count + 1) * width = width + count * width := by rw [Nat.succ_mul, Nat.add_comm]
    rw [hcount, slice_add, ← blit_blit (by rw [hslice]; omega), hslice, Nat.succ_mul, Nat.succ_mul]

/-- A span command. -/
private theorem copySpan_eq (mode : TileMode) {width row col : Nat} {pixels img : List Pixel}
    (before after : List UInt8) (hroom : row * width + col + pixels.length ≤ img.length) :
    copyLoop (before ++ pixels.flatMap mode.clientBytes ++ after) before.length (img.flatMap mode.clientBytes)
        (row * width * 4 + col * 4) (pixels.length * 4) =
      some ((blit img (row * width + col) pixels).flatMap mode.clientBytes) := by
  have hlen := length_flatMap_const (length_clientBytes mode) pixels
  rw [copyLoop_eq, flatMap_blit (length_clientBytes mode), ← Nat.add_mul, ← hlen, slice_append_mid]
  · simp only [List.length_append, hlen]
    omega
  · rw [length_flatMap_const (length_clientBytes mode)]
    omega

/-- The command loop runs the program that its bytes encode, up to the terminator. -/
private theorem deltaCommands_eq (mode : TileMode) {width height fuel : Nat} {old img : List Pixel}
    {ops : List DeltaOp} (before after : List UInt8) (hin : ∀ op ∈ ops, op.InBounds width height)
    (hold : old.length = height * width) (himg : img.length = height * width) (hfuel : ops.length < fuel) :
    deltaCommands (before ++ ops.flatMap (DeltaOp.encode mode) ++ (116 :: after)) (old.flatMap mode.clientBytes) width
        fuel before.length (img.flatMap mode.clientBytes) =
      some ((runProgram width old ops img).flatMap mode.clientBytes,
        before.length + (ops.flatMap (DeltaOp.encode mode)).length + 1) := by
  induction ops generalizing fuel img before with
  | nil =>
    obtain ⟨fuel, rfl⟩ := Nat.exists_eq_add_one_of_ne_zero (Nat.ne_of_gt hfuel)
    simp [deltaCommands]
  | cons op ops ih =>
    obtain ⟨fuel, rfl⟩ := Nat.exists_eq_add_one_of_ne_zero (Nat.ne_of_gt (Nat.zero_lt_of_lt hfuel))
    have hop := hin op (by simp)
    have himg' : (op.apply width old img).length = height * width :=
      length_runProgram (List.forall_mem_singleton.2 hop) hold himg
    have hih := ih (before ++ op.encode mode) (fun o ho => hin o (by simp [ho])) himg'
      (show ops.length < fuel by simp at hfuel; omega)
    obtain ⟨delta, hdelta⟩ : ∃ delta, delta = before ++ (op :: ops).flatMap (DeltaOp.encode mode) ++ (116 :: after) :=
      ⟨_, rfl⟩
    have hsplit : delta = before ++ op.encode mode ++ (ops.flatMap (DeltaOp.encode mode) ++ (116 :: after)) := by
      rw [hdelta, List.flatMap_cons]
      simp only [List.append_assoc]
    have hget : ∀ r, r < (op.encode mode).length → delta[before.length + r]? = (op.encode mode)[r]? := by
      intro r hr
      rw [hsplit, List.append_assoc, List.getElem?_append_right (by omega), Nat.add_sub_cancel_left,
        List.getElem?_append_left hr]
    rw [List.append_assoc (before ++ op.encode mode), ← hsplit] at hih
    rw [← hdelta]
    have hend : before.length + ((op :: ops).flatMap (DeltaOp.encode mode)).length + 1 =
        (before ++ op.encode mode).length + (ops.flatMap (DeltaOp.encode mode)).length + 1 := by
      simp only [List.flatMap_cons, List.length_append]
      omega
    have hrun : runProgram width old (op :: ops) img = runProgram width old ops (op.apply width old img) := rfl
    rw [hend, hrun, ← hih]
    cases op with
    | copy count src dest =>
      obtain ⟨hcount, hsrc, hdest, hsrc', hdest'⟩ := hop
      have h0 : delta[before.length]? = some 99 := hget 0 (by simp [DeltaOp.encode])
      have h1 : delta[before.length + 1]? = some (UInt8.ofNat count) := hget 1 (by simp [DeltaOp.encode])
      have h2 : delta[before.length + 2]? = some (UInt8.ofNat src) := hget 2 (by simp [DeltaOp.encode])
      have h3 : delta[before.length + 3]? = some (UInt8.ofNat dest) := hget 3 (by simp [DeltaOp.encode])
      have hsrcrow : (src + count) * width ≤ old.length := by
        rw [hold]
        exact Nat.mul_le_mul_right _ hsrc
      have hdestrow : (dest + count) * width ≤ img.length := by
        rw [himg]
        exact Nat.mul_le_mul_right _ hdest
      have hcopy := copyRows_eq mode hsrcrow hdestrow
      simp only [deltaCommands, h0, h1, h2, h3, Option.bind_eq_bind, Option.bind_some, UInt8.toNat_ofNat',
        Nat.mod_eq_of_lt hcount, Nat.mod_eq_of_lt hsrc', Nat.mod_eq_of_lt hdest', hcopy]
      simp [DeltaOp.encode, DeltaOp.apply]
    | span row col pixels =>
      obtain ⟨hrow, hrow', hcol, hlen, hfit⟩ := hop
      have h0 : delta[before.length]? = some 100 := hget 0 (by simp [DeltaOp.encode])
      have h1 : delta[before.length + 1]? = some (UInt8.ofNat row) := hget 1 (by simp [DeltaOp.encode])
      have h2 : delta[before.length + 2]? = some (UInt8.ofNat col) := hget 2 (by simp [DeltaOp.encode])
      have h3 : delta[before.length + 3]? = some (UInt8.ofNat pixels.length) := hget 3 (by simp [DeltaOp.encode])
      have hbounds : (row + 1) * width ≤ height * width := Nat.mul_le_mul_right _ hrow
      rw [Nat.succ_mul] at hbounds
      have hcopy := copySpan_eq mode (before ++ [100, UInt8.ofNat row, UInt8.ofNat col, UInt8.ofNat pixels.length])
        (ops.flatMap (DeltaOp.encode mode) ++ 116 :: after)
        (show row * width + col + pixels.length ≤ img.length by omega)
      have hparts : delta = before ++ [100, UInt8.ofNat row, UInt8.ofNat col, UInt8.ofNat pixels.length] ++
          pixels.flatMap mode.clientBytes ++ (ops.flatMap (DeltaOp.encode mode) ++ 116 :: after) := by
        rw [hsplit, DeltaOp.encode]
        simp only [List.append_assoc]
      rw [← hparts, List.length_append] at hcopy
      simp only [List.length_cons, List.length_nil, Nat.zero_add, Nat.reduceAdd] at hcopy
      simp only [deltaCommands, h0, h1, h2, h3, Option.bind_eq_bind, Option.bind_some, UInt8.toNat_ofNat',
        Nat.mod_eq_of_lt hlen, Nat.mod_eq_of_lt hrow', Nat.mod_eq_of_lt hcol, hcopy]
      congr 1
      rw [DeltaOp.encode, List.length_append, List.length_append,
        length_flatMap_const (length_clientBytes mode)]
      simp only [List.length_cons, List.length_nil]
      omega

/-! ### The stream of a tile -/

/-- A delta, with what follows it in the stream. -/
theorem applyDeltaChunk_eq (mode : TileMode) {width height : Nat} {old : List Pixel} {ops : List DeltaOp}
    (after : List UInt8) (hin : ∀ op ∈ ops, op.InBounds width height) (hold : old.length = height * width) :
    applyDeltaChunk (old.flatMap mode.clientBytes) (ops.flatMap (DeltaOp.encode mode) ++ [116] ++ after)
        (old.flatMap mode.clientBytes) width =
      some ((runProgram width old ops old).flatMap mode.clientBytes,
        (ops.flatMap (DeltaOp.encode mode) ++ [116]).length) := by
  have hfuel : ops.length < (ops.flatMap (DeltaOp.encode mode) ++ [116] ++ after).length + 1 := by
    have hle : ∀ l : List DeltaOp, l.length ≤ (l.flatMap (DeltaOp.encode mode)).length := by
      intro l
      induction l with
      | nil => simp
      | cons op l ih =>
        have hpos : 0 < (op.encode mode).length := by cases op <;> simp [DeltaOp.encode]
        simp only [List.flatMap_cons, List.length_append, List.length_cons]
        omega
    have := hle ops
    simp only [List.length_append]
    omega
  have h := deltaCommands_eq mode [] after hin hold hold hfuel
  simp only [List.nil_append, List.length_nil, Nat.zero_add, List.append_assoc, List.singleton_append] at h
  unfold applyDeltaChunk
  simp only [List.append_assoc, List.singleton_append, List.length_append, List.length_singleton]
  simp only [List.length_append] at h
  exact h

end CanvasTileUtils

end CollaboraOnline
