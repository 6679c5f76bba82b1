import Mathlib
import CollaboraOnline.Lib.Blit
import CollaboraOnline.Lib.RepeatMask

/-!
# Pixels and the vector paths of the delta generator

A 32 bit pixel is its four bytes in memory order and a 256 bit register is eight pixels, the lowest lane first.
`initPixRowSimd` and `copyRowSwapRB` are `simd_initPixRowSimd` and `simd_copyRowSwapRB`, intrinsic by intrinsic;
the gather table of `init_gather_lut` is `vpermdLut`.  `initPixRowSimd_bytes` says what a row of eight pixel blocks
compresses to.
-/

namespace CollaboraOnline

/-- A 32 bit pixel: its four bytes in memory order. -/
structure Pixel where
  b0 : UInt8
  b1 : UInt8
  b2 : UInt8
  b3 : UInt8
deriving DecidableEq, Repr

namespace Pixel

/-- Transparency, `0x00000000`. -/
def transparent : Pixel := ⟨0, 0, 0, 0⟩

instance : Inhabited Pixel := ⟨transparent⟩

def bytes (p : Pixel) : List UInt8 := [p.b0, p.b1, p.b2, p.b3]

/-- Exchange red and blue. -/
def swapRB (p : Pixel) : Pixel := ⟨p.b2, p.b1, p.b0, p.b3⟩

def and (p q : Pixel) : Pixel := ⟨p.b0 &&& q.b0, p.b1 &&& q.b1, p.b2 &&& q.b2, p.b3 &&& q.b3⟩

def or (p q : Pixel) : Pixel := ⟨p.b0 ||| q.b0, p.b1 ||| q.b1, p.b2 ||| q.b2, p.b3 ||| q.b3⟩

def not (p : Pixel) : Pixel := ⟨~~~p.b0, ~~~p.b1, ~~~p.b2, ~~~p.b3⟩

def allOnes : Pixel := ⟨0xff, 0xff, 0xff, 0xff⟩

/-- The top bit of the 32 bit little-endian word. -/
def sign (p : Pixel) : Bool := p.b3.toBitVec.msb

@[simp] theorem length_bytes (p : Pixel) : p.bytes.length = 4 := rfl

theorem and_allOnes (p : Pixel) : allOnes.and p = p := by
  simp [and, allOnes, show (0xff : UInt8) = -1 from rfl]

theorem not_allOnes : allOnes.not = transparent := by decide

theorem not_transparent : transparent.not = allOnes := by decide

theorem and_transparent (p : Pixel) : transparent.and p = transparent := by
  simp [and, transparent]

theorem or_transparent (p : Pixel) : p.or transparent = p := by
  simp [or, transparent]

theorem transparent_or (p : Pixel) : transparent.or p = p := by
  simp [or, transparent]

end Pixel

/-- `LibreOfficeKitTileMode` -/
inductive TileMode where
  | rgba
  | bgra
deriving DecidableEq, Repr

/-- The pixel a client gets for a pixel of the kit. -/
def TileMode.convert : TileMode → Pixel → Pixel
  | .rgba, p => p
  | .bgra, p => p.swapRB

theorem TileMode.convert_transparent (mode : TileMode) : mode.convert Pixel.transparent = Pixel.transparent := by
  cases mode <;> rfl

/-! ### Registers -/

/-- `__m256i`, as eight 32 bit lanes. -/
abbrev M256i := Vector Pixel 8

namespace M256i

def setzero : M256i := Vector.replicate 8 Pixel.transparent

/-- `_mm256_loadu_si256` of the pixels of `from` at position `x`. -/
def loadu (pixels : List Pixel) (x : Nat) : M256i := Vector.ofFn fun i => pixels.getD (x + i) default

/-- `_mm256_permutevar8x32_epi32` -/
def permutevar (a : M256i) (control : Vector (Fin 8) 8) : M256i := Vector.ofFn fun i => a[control[i]]

def and (a b : M256i) : M256i := Vector.ofFn fun i => a[i].and b[i]

/-- `_mm256_andnot_si256`: the complement of the first operand is taken. -/
def andnot (a b : M256i) : M256i := Vector.ofFn fun i => a[i].not.and b[i]

def or (a b : M256i) : M256i := Vector.ofFn fun i => a[i].or b[i]

/-- `_mm256_cmpeq_epi32` -/
def cmpeq (a b : M256i) : M256i :=
  Vector.ofFn fun i => if a[i] = b[i] then Pixel.allOnes else Pixel.transparent

/-- `_mm256_movemask_ps`: the sign bits of the lanes. -/
def movemask (a : M256i) : BitVec 8 := (BitVec.ofBoolListLE (a.toList.map Pixel.sign)).setWidth 8

end M256i

/-- The entries of `lut` that `init_gather_lut` fills for `pattern`: a set bit is a duplicate and is ignored. -/
def gatherLut (pattern : BitVec 8) : List (Fin 8) := (List.finRange 8).filter fun src => !pattern.getLsbD src

/-- `vpermd_lut[pattern]`, padded to copy the first point. -/
def vpermdLut (pattern : BitVec 8) : Vector (Fin 8) 8 := Vector.ofFn fun i => (gatherLut pattern).getD i 0

def vpermdShiftLeft : Vector (Fin 8) 8 := #v[0, 0, 1, 2, 3, 4, 5, 6]

def vpermdLastToFirst : Vector (Fin 8) 8 := #v[7, 0, 0, 0, 0, 0, 0, 0]

def lowPixelMask : M256i := Vector.ofFn fun i => if i = 0 then Pixel.allOnes else Pixel.transparent

def diffMask (prev curr : M256i) : BitVec 8 := (prev.cmpeq curr).movemask

/-- `_mm_popcnt_u32` -/
def popcnt (mask : BitVec 8) : Nat := ((List.finRange 8).filter fun i : Fin 8 => mask.getLsbD i.val).length

/-- What the loop of `simd_initPixRowSimd` carries: the last block, the mask bytes and the packed pixels so far. -/
structure SimdScan where
  prev : M256i
  rleMaskBlock : List (BitVec 8)
  dest : List Pixel

/-- One cycle of `simd_initPixRowSimd`, over the 8 pixels of `curr`.  The source stores all eight packed lanes and
the next cycle writes over the lanes after the first `countBitsUnset`; the model appends these only. -/
def simdCycle (s : SimdScan) (curr : M256i) : SimdScan :=
  let lastPix := lowPixelMask.and (s.prev.permutevar vpermdLastToFirst)
  let prev := (lowPixelMask.andnot (curr.permutevar vpermdShiftLeft)).or lastPix
  let newMask := diffMask prev curr
  let newMaskInverse := ~~~newMask
  let packed := curr.permutevar (vpermdLut newMask)
  let countBitsUnset := popcnt newMaskInverse
  { prev := curr
    rleMaskBlock := s.rleMaskBlock ++ [newMask]
    dest := s.dest ++ packed.toList.take countBitsUnset }

/-- The 64 bit words of a block of bytes, on a little-endian machine. -/
def wordOfBytes (block : List (BitVec 8)) (j : Nat) : BitVec 64 :=
  (BitVec.ofBoolListLE ((List.range 64).map fun i => (block.getD (8 * j + i / 8) 0).getLsbD (i % 8))).setWidth 64

/-- The first `cycles` cycles of the loop of `simd_initPixRowSimd`. -/
def simdScan (pixels : List Pixel) (cycles : Nat) : SimdScan :=
  (List.range cycles).foldl (fun s x => simdCycle s (M256i.loadu pixels (8 * x))) ⟨M256i.setzero, [], []⟩

/-- `simd_initPixRowSimd`: the pixels and the mask of a row of 256 pixels, `none` when it is compiled out. -/
def initPixRowSimd (enableSimd : Bool) (pixels : List Pixel) : Option (List Pixel × Vector (BitVec 64) 4) :=
  if enableSimd then
    let s := simdScan pixels (256 / 8)
    some (s.dest, Vector.ofFn fun j => wordOfBytes s.rleMaskBlock j)
  else none

/-! ### What one cycle does -/

open RepeatMask Blit

/-- In front of the comparison stand the pixels before those of `curr`. -/
private theorem shifted_eq (prev curr : M256i) :
    (lowPixelMask.andnot (curr.permutevar vpermdShiftLeft)).or
    (lowPixelMask.and (prev.permutevar vpermdLastToFirst)) =
      #v[prev[7], curr[0], curr[1], curr[2], curr[3], curr[4], curr[5], curr[6]] := by
  apply Vector.ext
  intro i hi
  have h : i = 0 ∨ i = 1 ∨ i = 2 ∨ i = 3 ∨ i = 4 ∨ i = 5 ∨ i = 6 ∨ i = 7 := by omega
  rcases h with rfl | rfl | rfl | rfl | rfl | rfl | rfl | rfl <;>
    simp [M256i.or, M256i.and, M256i.andnot, M256i.permutevar, lowPixelMask, vpermdShiftLeft, vpermdLastToFirst,
      Pixel.and_allOnes, Pixel.and_transparent, Pixel.or_transparent, Pixel.transparent_or, Pixel.not_allOnes,
      Pixel.not_transparent]

private theorem getLsbD_diffMask (prev curr : M256i) (i : Fin 8) :
    (diffMask prev curr).getLsbD i = decide (curr[i] = prev[i]) := by
  have hi : (i : Nat) < 8 := i.isLt
  simp only [diffMask, M256i.movemask, M256i.cmpeq, BitVec.getLsbD_setWidth, hi, decide_true, Bool.true_and,
    BitVec.getLsbD_ofBoolListLE]
  rw [List.getD_eq_getElem?_getD, List.getElem?_eq_getElem (by simp)]
  simp only [List.getElem_map, Vector.getElem_toList, Vector.getElem_ofFn, Option.getD_some]
  split
  · rename_i h
    rw [decide_eq_true h.symm]
    decide
  · rename_i h
    rw [decide_eq_false (Ne.symm h)]
    decide

private theorem toList_eq_map (v : M256i) : v.toList = (List.finRange 8).map fun i => v[i] := by
  apply List.ext_getElem
  · simp
  · intro i h h'
    simp

/-- The bits of a mask byte, lowest first. -/
private def maskBits (mask : BitVec 8) : List Bool := (List.finRange 8).map fun i : Fin 8 => mask.getLsbD i

/-- The mask bits of a cycle say which pixels repeat the one before. -/
private theorem maskBits_diffMask (prev curr : M256i) :
    maskBits (diffMask #v[prev[7], curr[0], curr[1], curr[2], curr[3], curr[4], curr[5], curr[6]] curr) =
      repeats prev[7] curr.toList := by
  unfold maskBits
  rw [toList_eq_map]
  simp only [getLsbD_diffMask]
  rfl

/-- The gather table packs the pixels with a clear bit, in order. -/
private theorem packed_take (curr : M256i) (mask : BitVec 8) :
    (curr.permutevar (vpermdLut mask)).toList.take (popcnt (~~~mask)) = (gatherLut mask).map fun i => curr[i] := by
  have hlen : popcnt (~~~mask) = (gatherLut mask).length := by
    simp [popcnt, gatherLut]
  have hle : (gatherLut mask).length ≤ 8 := by
    simpa [gatherLut] using List.length_filter_le _ (List.finRange 8)
  rw [hlen]
  apply List.ext_getElem
  · simp [hle]
  · intro i h h'
    simp at h h'
    simp [M256i.permutevar, vpermdLut, h']

/-- The packed pixels of a cycle are the fresh ones. -/
private theorem map_gatherLut {last : Pixel} {curr : M256i} {mask : BitVec 8}
    (h : maskBits mask = repeats last curr.toList) :
    ((gatherLut mask).map fun i => curr[i]) = fresh last curr.toList := by
  rw [fresh_eq_filter_zip, ← h, maskBits, toList_eq_map, List.zip_map', List.filter_map, List.map_map, gatherLut]
  rfl

private theorem simdCycle_dest (s : SimdScan) (curr : M256i) :
    (simdCycle s curr).dest = s.dest ++ fresh s.prev[7] curr.toList := by
  simp only [simdCycle]
  rw [shifted_eq, packed_take, map_gatherLut (maskBits_diffMask s.prev curr)]

private theorem simdCycle_bits (s : SimdScan) (curr : M256i) :
    (simdCycle s curr).rleMaskBlock.flatMap maskBits =
      s.rleMaskBlock.flatMap maskBits ++ repeats s.prev[7] curr.toList := by
  simp only [simdCycle]
  rw [shifted_eq, List.flatMap_append, List.flatMap_singleton, maskBits_diffMask]

private theorem length_simdCycle (s : SimdScan) (curr : M256i) :
    (simdCycle s curr).rleMaskBlock.length = s.rleMaskBlock.length + 1 := by
  simp only [simdCycle, List.length_append, List.length_singleton]

private theorem toList_loadu {pixels : List Pixel} {x : Nat} (h : x + 8 ≤ pixels.length) :
    (M256i.loadu pixels x).toList = slice pixels x 8 := by
  apply List.ext_getElem
  · rw [length_slice h]
    simp
  · intro i hi hi'
    have hi : i < 8 := by simpa using hi
    simp [M256i.loadu, slice, show x + i < pixels.length by omega]

/-- After `n` cycles the scan holds the repeat bits and the fresh pixels of the first `8 * n` pixels. -/
private theorem simdScan_spec {pixels : List Pixel} {n : Nat} (h : 8 * n ≤ pixels.length) :
    (simdScan pixels n).prev[7] = (pixels.take (8 * n)).getLast?.getD Pixel.transparent ∧
      (simdScan pixels n).dest = fresh Pixel.transparent (pixels.take (8 * n)) ∧
      (simdScan pixels n).rleMaskBlock.flatMap maskBits = repeats Pixel.transparent (pixels.take (8 * n)) ∧
      (simdScan pixels n).rleMaskBlock.length = n := by
  induction n with
  | zero => simp [simdScan, M256i.setzero, fresh, repeats]
  | succ n ih =>
    obtain ⟨hprev, hdest, hbits, hlen⟩ := ih (by omega)
    have hblock : (M256i.loadu pixels (8 * n)).toList = slice pixels (8 * n) 8 := toList_loadu (by omega)
    have htake : pixels.take (8 * (n + 1)) = pixels.take (8 * n) ++ slice pixels (8 * n) 8 := by
      rw [Nat.mul_succ, List.take_add, slice]
    have hscan : simdScan pixels (n + 1) = simdCycle (simdScan pixels n) (M256i.loadu pixels (8 * n)) := by
      simp only [simdScan, List.range_succ, List.foldl_append, List.foldl_cons, List.foldl_nil]
    rw [hscan]
    refine ⟨?_, ?_, ?_, ?_⟩
    · have hlast : (slice pixels (8 * n) 8).getLast? = pixels[8 * n + 7]? := by
        rw [List.getLast?_eq_getElem?, length_slice (by omega), getElem?_slice (by omega)]
      have hget : pixels[8 * n + 7]? = some pixels[8 * n + 7] := List.getElem?_eq_getElem (by omega)
      rw [htake, List.getLast?_append, hlast, hget]
      simp [simdCycle, M256i.loadu, hget]
    · rw [simdCycle_dest, hdest, hprev, hblock, htake, fresh_append]
    · rw [simdCycle_bits, hbits, hprev, hblock, htake, repeats_append]
    · rw [length_simdCycle, hlen]

private theorem getLsbD_wordOfBytes {block : List (BitVec 8)} {i : Nat} (hi : i / 8 < block.length) :
    (wordOfBytes block (i / 64)).getLsbD (i % 64) = ((block.flatMap maskBits)[i]?).getD false := by
  have h64 : i % 64 < 64 := Nat.mod_lt _ (by decide)
  have hbyte : 8 * (i / 64) + i % 64 / 8 = i / 8 := by omega
  have hbit : i % 64 % 8 = i % 8 := by omega
  obtain ⟨mask, hget⟩ : ∃ mask, block[i / 8]? = some mask := ⟨_, List.getElem?_eq_getElem hi⟩
  have hword : (wordOfBytes block (i / 64)).getLsbD (i % 64) = mask.getLsbD (i % 8) := by
    simp only [wordOfBytes, BitVec.getLsbD_setWidth, BitVec.getLsbD_ofBoolListLE, List.getD_eq_getElem?_getD,
      List.getElem?_map, List.getElem?_range h64, Option.map_some, Option.getD_some, hbyte, hbit, hget, h64,
      decide_true, Bool.true_and]
  have hbits : (block.flatMap maskBits)[i]? = (maskBits mask)[i % 8]? := by
    conv_lhs => rw [← Nat.div_add_mod' i 8]
    exact getElem?_flatMap_const (fun _ => by simp [maskBits]) hget (Nat.mod_lt _ (by decide))
  rw [hword, hbits, maskBits, List.getElem?_map, List.getElem?_eq_getElem (by simp; omega), List.getElem_finRange]
  rfl

/-- The vector path stores the repeat bits and the fresh pixels of a row of 256 pixels. -/
theorem initPixRowSimd_eq {pixels : List Pixel} (h : pixels.length = 256) :
    ∃ words : Vector (BitVec 64) 4, initPixRowSimd true pixels = some (fresh Pixel.transparent pixels, words) ∧
      ∀ i, (hi : i < 256) → (words[i / 64]).getLsbD (i % 64) =
        (repeats Pixel.transparent pixels)[i]?.getD false := by
  obtain ⟨-, hdest, hbits, hlen⟩ := simdScan_spec (show 8 * (256 / 8) ≤ pixels.length by omega)
  rw [List.take_of_length_le (by omega)] at hdest hbits
  refine ⟨Vector.ofFn fun j => wordOfBytes (simdScan pixels (256 / 8)).rleMaskBlock j, ?_, ?_⟩
  · simp only [initPixRowSimd, ↓reduceIte, hdest]
  intro i hi
  rw [Vector.getElem_ofFn, getLsbD_wordOfBytes (by rw [hlen]; omega), hbits]

/-! ### Exchanging red and blue -/

/-- The control bytes of the shuffle in `simd_copyRowSwapRB`, lowest first. -/
def shuffleMask : List Nat :=
  [2, 1, 0, 3, 6, 5, 4, 7, 10, 9, 8, 11, 14, 13, 12, 15, 2, 1, 0, 3, 6, 5, 4, 7, 10, 9, 8, 11, 14, 13, 12, 15]

/-- `_mm256_shuffle_epi8` of the 32 bytes of `src` at `i`: each half of the register is shuffled on its own. -/
def shuffleEpi8 (src : List UInt8) (i : Nat) (control : List Nat) : List UInt8 :=
  (List.range 32).map fun j => src.getD (i + (j / 16 * 16 + control.getD j 0)) 0

/-- The bytes at `i` to `i + 3` with red and blue exchanged. -/
def swapAt (src : List UInt8) (i : Nat) : List UInt8 :=
  [src.getD (i + 2) 0, src.getD (i + 1) 0, src.getD i 0, src.getD (i + 3) 0]

/-- The bytes that `simd_copyRowSwapRB` stores: 32 bytes at a time, then the remaining pixels one by one. -/
def simdCopyRowSwapRB (enableSimd : Bool) (src : List UInt8) (count : Nat) : Option (List UInt8) :=
  if enableSimd then
    let blocks := count * 4 / 32
    some ((List.range blocks).flatMap (fun k => shuffleEpi8 src (32 * k) shuffleMask) ++
      (List.range (count - 8 * blocks)).flatMap fun j => swapAt src (32 * blocks + 4 * j))
  else none

private theorem shuffleEpi8_eq (src : List UInt8) (i : Nat) :
    shuffleEpi8 src i shuffleMask = (List.range 8).flatMap fun j => swapAt src (i + 4 * j) := by
  rfl

/-- The vector path of the row copy writes what the scalar loop writes. -/
theorem simdCopyRowSwapRB_eq (src : List UInt8) (count : Nat) :
    simdCopyRowSwapRB true src count = some ((List.range count).flatMap fun j => swapAt src (4 * j)) := by
  have hblocks : ∀ n, ((List.range n).flatMap fun k => shuffleEpi8 src (32 * k) shuffleMask) =
      (List.range (8 * n)).flatMap fun j => swapAt src (4 * j) := by
    intro n
    induction n with
    | zero => rfl
    | succ n ih =>
      rw [List.range_succ, List.flatMap_append, ih, Nat.mul_succ, List.range_add, List.flatMap_append,
        List.flatMap_singleton, shuffleEpi8_eq, List.flatMap_map]
      congr 2
      funext j
      congr 1
      omega
  have hrange : List.range count = List.range (8 * (count * 4 / 32)) ++
      (List.range (count - 8 * (count * 4 / 32))).map (8 * (count * 4 / 32) + ·) := by
    rw [← List.range_add]
    congr 1
    omega
  simp only [simdCopyRowSwapRB, ↓reduceIte, hblocks]
  conv_rhs => rw [hrange, List.flatMap_append, List.flatMap_map]
  congr 3
  funext j
  congr 1
  omega

end CollaboraOnline
