import CollaboraOnline.Kit.DeltaRow

/-!
# The two paths of the row compression

`simd_initPixRowSimd` stores all eight packed lanes of a cycle and lets the next cycle write over those that it does
not keep.  `storeRowSimd` has this scratch row in memory; its stores stay in the row, and what it leaves is what
`initPixRowCpu` leaves (`storeRowSimd_eq_cpu`).
-/

namespace CollaboraOnline

open Blit RepeatMask DeltaBitmapRow

/-- `_mm256_storeu_si256` to the pixels at `dest`; `none` where it would write behind the row. -/
def M256i.storeu (scratch : List Pixel) (dest : Nat) (a : M256i) : Option (List Pixel) :=
  if dest + 8 ≤ scratch.length then some (blit scratch dest a.toList) else none

/-- What the loop of `simd_initPixRowSimd` carries, with the whole scratch row. -/
structure SimdRow where
  prev : M256i
  rleMaskBlock : List (BitVec 8)
  scratch : List Pixel
  dest : Nat

/-- One cycle of `simd_initPixRowSimd`. -/
def simdRowCycle (s : SimdRow) (curr : M256i) : Option SimdRow :=
  let lastPix := lowPixelMask.and (s.prev.permutevar vpermdLastToFirst)
  let prev := (lowPixelMask.andnot (curr.permutevar vpermdShiftLeft)).or lastPix
  let newMask := diffMask prev curr
  let newMaskInverse := ~~~newMask
  let packed := curr.permutevar (vpermdLut newMask)
  let countBitsUnset := popcnt newMaskInverse
  (M256i.storeu s.scratch s.dest packed).map fun scratch =>
    { prev := curr
      rleMaskBlock := s.rleMaskBlock ++ [newMask]
      scratch := scratch
      dest := s.dest + countBitsUnset }

/-- The first `cycles` cycles of the loop. -/
def simdRowScan (scratch pixels : List Pixel) : Nat → Option SimdRow
  | 0 => some ⟨M256i.setzero, [], scratch, 0⟩
  | cycles + 1 => (simdRowScan scratch pixels cycles).bind fun s => simdRowCycle s (M256i.loadu pixels (8 * cycles))

/-- What `simd_initPixRowSimd` and `initPixRowCpu` leave in `scratch`, `scratchLen` and `rleMaskBlock`. -/
structure StoredRow where
  scratch : List Pixel
  scratchLen : Nat
  rleMaskBlock : Vector (BitVec 64) 4

/-- `simd_initPixRowSimd`, compiled in. -/
def storeRowSimd (scratch pixels : List Pixel) : Option StoredRow :=
  (simdRowScan scratch pixels (256 / 8)).map fun s =>
    { scratch := s.scratch
      scratchLen := s.dest
      rleMaskBlock := Vector.ofFn fun j => wordOfBytes s.rleMaskBlock j }

/-- The pixels in use of the scratch row. -/
def StoredRow.pixels (r : StoredRow) : List Pixel := r.scratch.take r.scratchLen

/-! ### The stores stay in the row -/

private theorem popcnt_le (mask : BitVec 8) : popcnt mask ≤ 8 := by
  unfold popcnt
  simpa using List.length_filter_le (fun i : Fin 8 => mask.getLsbD i.val) (List.finRange 8)

/-- The scratch row has the packed pixels of the scan in front. -/
structure SimdRow.Holds (s : SimdRow) (t : SimdScan) : Prop where
  prev : s.prev = t.prev
  rleMaskBlock : s.rleMaskBlock = t.rleMaskBlock
  dest : s.dest = t.dest.length
  scratch : s.scratch.take s.dest = t.dest

variable {s : SimdRow} {t : SimdScan}

private theorem take_blit {dst xs : List Pixel} {d k : Nat} (hd : d + xs.length ≤ dst.length) (hk : k ≤ xs.length) :
    (blit dst d xs).take (d + k) = dst.take d ++ xs.take k := by
  have hlen : (dst.take d).length = d := by
    rw [List.length_take]
    omega
  unfold blit
  rw [List.append_assoc, List.take_append, hlen, List.take_of_length_le (by omega), Nat.add_sub_cancel_left,
    List.take_append_of_le_length hk]

/-- A cycle overwrites only what the ones before do not keep. -/
theorem SimdRow.Holds.cycle (h : s.Holds t) (hroom : s.dest + 8 ≤ s.scratch.length) (curr : M256i) :
    ∃ s', simdRowCycle s curr = some s' ∧ s'.Holds (simdCycle t curr) ∧ s'.scratch.length = s.scratch.length ∧
      s'.dest ≤ s.dest + 8 := by
  obtain ⟨hprev, hmask, hdest, hscratch⟩ := h
  simp only [simdRowCycle, M256i.storeu, if_pos hroom, Option.map_some]
  refine ⟨_, rfl, ⟨rfl, ?_, ?_, ?_⟩, ?_, Nat.add_le_add_left (popcnt_le _) _⟩
  · simp only [simdCycle, hprev, hmask]
  · simp only [simdCycle, List.length_append, List.length_take, Vector.length_toList, hprev, hdest,
      Nat.min_eq_left (popcnt_le _)]
  · simp only [simdCycle]
    rw [take_blit (by rw [Vector.length_toList]; exact hroom) (by rw [Vector.length_toList]; exact popcnt_le _),
      hscratch, hprev]
  · exact length_blit (by rw [Vector.length_toList]; exact hroom)

private theorem simdScan_succ (pixels : List Pixel) (n : Nat) :
    simdScan pixels (n + 1) = simdCycle (simdScan pixels n) (M256i.loadu pixels (8 * n)) := by
  simp only [simdScan, List.range_succ, List.foldl_append, List.foldl_cons, List.foldl_nil]

/-- After `n` cycles at most eight pixels for each are stored. -/
theorem simdRowScan_holds (pixels : List Pixel) {scratch : List Pixel} {n : Nat} (hroom : 8 * n ≤ scratch.length) :
    ∃ s, simdRowScan scratch pixels n = some s ∧ s.Holds (simdScan pixels n) ∧ s.scratch.length = scratch.length ∧
      s.dest ≤ 8 * n := by
  induction n with
  | zero => exact ⟨_, rfl, ⟨rfl, rfl, rfl, rfl⟩, rfl, le_refl _⟩
  | succ n ih =>
    obtain ⟨s, hs, hholds, hlen, hdest⟩ := ih (by omega)
    obtain ⟨s', hs', hholds', hlen', hdest'⟩ := hholds.cycle (by omega) (M256i.loadu pixels (8 * n))
    refine ⟨s', ?_, ?_, hlen'.trans hlen, by omega⟩
    · rw [simdRowScan, hs, Option.bind_some, hs']
    · rw [simdScan_succ]
      exact hholds'

/-! ### The paths agree -/

/-- The vector path stores in the scratch row what it is modelled to collect. -/
theorem storeRowSimd_eq (pixels : List Pixel) {scratch : List Pixel} (hroom : scratch.length = 256) :
    ∃ r, storeRowSimd scratch pixels = some r ∧ r.scratchLen = r.pixels.length ∧
      initPixRowSimd true pixels = some (r.pixels, r.rleMaskBlock) := by
  obtain ⟨s, hs, hholds, hlen, hdest⟩ := simdRowScan_holds pixels (show 8 * (256 / 8) ≤ scratch.length by omega)
  refine ⟨_, by rw [storeRowSimd, hs, Option.map_some], ?_, ?_⟩
  · simp only [StoredRow.pixels, List.length_take]
    omega
  · simp only [initPixRowSimd, ↓reduceIte, StoredRow.pixels, hholds.scratch, hholds.rleMaskBlock]

/-- Words with the same bits. -/
theorem words_ext {words words' : Vector (BitVec 64) 4}
    (h : ∀ (j : Fin 4) (b : Nat), b < 64 → (words.get j).getLsbD b = (words'.get j).getLsbD b) : words = words' := by
  apply Vector.ext
  intro j hj
  apply BitVec.eq_of_getLsbD_eq
  intro b hb
  exact h ⟨j, hj⟩ b hb

/-- The vector path leaves the mask, the number and the pixels that the scalar path leaves, and it copies a row as the
scalar loop does. -/
theorem storeRowSimd_eq_cpu (pixels scratch : Vector Pixel 256) :
    (∃ r, storeRowSimd scratch.toList pixels.toList = some r ∧
      r.rleMaskBlock = (initPixRowCpu pixels.toList).2 ∧
      r.scratchLen = (initPixRowCpu pixels.toList).1.length ∧
      r.pixels = (initPixRowCpu pixels.toList).1) ∧
    ∀ (src : List UInt8) (count : Nat),
      simdCopyRowSwapRB true src count = some (copyRow { enableSimd := true, hasAVX2 := false } .bgra src count) := by
  constructor
  · obtain ⟨r, hr, hlen, hsimd⟩ := storeRowSimd_eq pixels.toList (show scratch.toList.length = 256 by simp)
    obtain ⟨words, hwords, hbits⟩ := initPixRowSimd_eq (show pixels.toList.length = 256 by simp)
    have hcpu := initPixRowCpu_eq (show pixels.toList.length ≤ 256 by simp)
    obtain ⟨hpixels, rfl⟩ := Prod.mk.inj (Option.some.inj (hsimd.symm.trans hwords))
    have hdata : (initPixRowCpu pixels.toList).1 = fresh Pixel.transparent pixels.toList := hcpu.data
    refine ⟨r, hr, words_ext fun j b hb => ?_, ?_, ?_⟩
    · have hi : 64 * j.val + b < 256 := by omega
      have hbit := (hbits _ hi).trans (hcpu.mask _ hi).symm
      have hdiv : (64 * j.val + b) / 64 = j.val := by omega
      have hmod : (64 * j.val + b) % 64 = b := by omega
      simp only [hdiv, hmod] at hbit
      exact hbit
    · rw [hlen, hpixels, hdata]
    · rw [hpixels, hdata]
  · intro src count
    rw [simdCopyRowSwapRB_eq]
    rfl

end CollaboraOnline
