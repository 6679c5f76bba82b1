import CollaboraOnline.Kit.Delta

/-!
# Compressed rows

`Encodes row pixels` says that a compressed row stores the repeat bits and the fresh pixels of `pixels`.  Both paths
of `initRow` produce such a row (`initRow_encodes`), rows are `identical` exactly when their pixels are
(`identical_iff`), and the iterator of `diffRowTo` reads the pixels back one after the other (`reads_ofRow`,
`Reads.next`).
-/

namespace CollaboraOnline

open Blit RepeatMask

/-! ### Single bits of a mask word -/

private theorem getLsbD_oneBit (n : Nat) {i : Nat} (hi : i < 64) : (1#64 <<< n).getLsbD i = decide (i = n) := by
  simp only [BitVec.getLsbD_shiftLeft, BitVec.getLsbD_one]
  grind

private theorem oneBit_ne_zero {n : Nat} (hn : n < 64) : 1#64 <<< n ≠ 0 := by
  intro h
  have hbit := congrArg (BitVec.getLsbD · n) h
  simp [hn] at hbit

private theorem oneBit_eq_zero {n : Nat} (hn : 64 ≤ n) : 1#64 <<< n = 0 := by
  apply BitVec.eq_of_getLsbD_eq
  intro i hi
  rw [getLsbD_oneBit n hi]
  simp
  omega

private theorem and_oneBit_eq_zero (m : BitVec 64) {n : Nat} (hn : n < 64) :
    m &&& 1#64 <<< n = 0 ↔ m.getLsbD n = false := by
  constructor
  · intro h
    have hbit := congrArg (BitVec.getLsbD · n) h
    simpa [hn] using hbit
  · intro h
    apply BitVec.eq_of_getLsbD_eq
    intro i hi
    rw [BitVec.getLsbD_and, getLsbD_oneBit n hi]
    grind

private theorem oneBit_shift (n : Nat) : (1#64 <<< n) <<< 1 = 1#64 <<< (n + 1) := by
  rw [← BitVec.shiftLeft_add]

namespace DeltaBitmapRow

/-- The row stores `pixels`: its mask has their repeat bits, its data their fresh pixels. -/
structure Encodes (row : DeltaBitmapRow) (pixels : List Pixel) : Prop where
  data : row.rleData = fresh Pixel.transparent pixels
  mask : ∀ i, (hi : i < 256) → (row.rleMask[i / 64]).getLsbD (i % 64) =
    (repeats Pixel.transparent pixels)[i]?.getD false

/-! ### The scalar path -/

/-- What the inner loops leave after `pixels`, with `n` bits of the mask word in use before. -/
private theorem foldl_scanPixel {s : PixScan} {n : Nat} (pixels : List Pixel) (hbit : s.bitToSet = 1#64 <<< n)
    (hclear : ∀ i, n ≤ i → s.rleMask.getLsbD i = false) :
    let s' := pixels.foldl scanPixel s
    s'.lastPix = pixels.getLast?.getD s.lastPix ∧ s'.scratch = s.scratch ++ fresh s.lastPix pixels ∧
      ∀ i, i < 64 → s'.rleMask.getLsbD i =
        if i < n then s.rleMask.getLsbD i else (repeats s.lastPix pixels)[i - n]?.getD false := by
  induction pixels generalizing s n with
  | nil =>
    refine ⟨rfl, by simp [fresh], ?_⟩
    intro i _
    split
    · rfl
    · simp [repeats, hclear i (by omega)]
  | cons pix pixels ih =>
    have hlast : (pix :: pixels).getLast?.getD s.lastPix = pixels.getLast?.getD pix := by
      simp [List.getLast?_cons]
    rw [hlast]
    simp only [List.foldl_cons]
    by_cases hp : pix = s.lastPix
    · have hs : scanPixel s pix = { s with rleMask := s.rleMask ||| s.bitToSet, bitToSet := s.bitToSet <<< 1 } := by
        simp [scanPixel, hp]
      have hmask : ∀ i, i < 64 → (s.rleMask ||| s.bitToSet).getLsbD i = (s.rleMask.getLsbD i || decide (i = n)) := by
        intro i hi
        rw [BitVec.getLsbD_or, hbit, getLsbD_oneBit n hi]
      have hclear' : ∀ i, n + 1 ≤ i → (s.rleMask ||| s.bitToSet).getLsbD i = false := by
        intro i hi
        by_cases hi' : i < 64
        · rw [hmask i hi', hclear i (by omega)]
          simp
          omega
        · exact BitVec.getLsbD_of_ge _ _ (by omega)
      obtain ⟨hl, hd, hm⟩ := ih (s := scanPixel s pix) (n := n + 1) (by rw [hs, hbit]; exact oneBit_shift n)
        (by rw [hs]; exact hclear')
      refine ⟨by rw [hl, hs, hp], by rw [hd, hs, hp, fresh, if_pos rfl], ?_⟩
      intro i hi
      rw [hm i hi, hs]
      simp only [repeats, hmask i hi, hp, decide_true]
      grind
    · have hs : scanPixel s pix =
          { s with lastPix := pix, scratch := s.scratch ++ [pix], bitToSet := s.bitToSet <<< 1 } := by
        simp [scanPixel, hp]
      obtain ⟨hl, hd, hm⟩ := ih (s := scanPixel s pix) (n := n + 1) (by rw [hs, hbit]; exact oneBit_shift n)
        (by rw [hs]; intro i hi; exact hclear i (by omega))
      refine ⟨by rw [hl, hs], by rw [hd, hs, fresh, if_neg hp]; simp, ?_⟩
      intro i hi
      rw [hm i hi, hs]
      simp only [repeats, hp, decide_false]
      have := hclear n (Nat.le_refl n)
      grind

/-- The loop for 64 bit chunks goes on until the bit is shifted out. -/
private theorem scanChunk_eq {s : PixScan} {n : Nat} {pixels : List Pixel} (hn : n ≤ 64)
    (hbit : s.bitToSet = 1#64 <<< n) (hlen : 64 - n ≤ pixels.length) :
    scanChunk s pixels = ((pixels.take (64 - n)).foldl scanPixel s, pixels.drop (64 - n)) := by
  induction pixels generalizing s n with
  | nil => simp [scanChunk]
  | cons pix pixels ih =>
    by_cases hn' : n = 64
    · subst hn'
      simp [scanChunk, hbit]
    · have hz : s.bitToSet ≠ 0 := by
        rw [hbit]
        exact oneBit_ne_zero (by omega)
      have hs : (scanPixel s pix).bitToSet = 1#64 <<< (n + 1) := by
        rw [← oneBit_shift, ← hbit, scanPixel]
        split <;> rfl
      have hsub : 64 - n = (64 - (n + 1)) + 1 := by omega
      rw [scanChunk, if_neg hz, ih (by omega) hs (by simp at hlen; omega), hsub, List.take_succ_cons,
        List.drop_succ_cons, List.foldl_cons]

/-- Both branches of a round of the outer loop scan the next 64 pixels. -/
private theorem scanBlock_eq (r : RowScan) :
    scanBlock r = ⟨r.rest.drop 64, ((r.rest.take 64).foldl scanPixel ⟨r.lastPix, r.scratch, 0, 1⟩).lastPix,
      ((r.rest.take 64).foldl scanPixel ⟨r.lastPix, r.scratch, 0, 1⟩).scratch,
      r.rleMaskBlock ++ [((r.rest.take 64).foldl scanPixel ⟨r.lastPix, r.scratch, 0, 1⟩).rleMask]⟩ := by
  unfold scanBlock
  by_cases h : r.rest.length > 64
  · have hscan := scanChunk_eq (s := ⟨r.lastPix, r.scratch, 0, 1⟩) (n := 0) (Nat.zero_le _) rfl (Nat.le_of_lt h)
    simp only [h, ↓reduceIte, hscan, Nat.sub_zero]
  · have htake : r.rest.take 64 = r.rest := List.take_of_length_le (by omega)
    have hdrop : r.rest.drop 64 = [] := List.drop_of_length_le (by omega)
    simp only [h, ↓reduceIte, htake, hdrop]

/-- After `n` rounds the first `64 * n` pixels are scanned. -/
private theorem scanRow_spec (pixels : List Pixel) (n : Nat) :
    (scanRow pixels n).rest = pixels.drop (64 * n) ∧
      (scanRow pixels n).lastPix = (pixels.take (64 * n)).getLast?.getD Pixel.transparent ∧
      (scanRow pixels n).scratch = fresh Pixel.transparent (pixels.take (64 * n)) ∧
      (scanRow pixels n).rleMaskBlock.length = n ∧
      ∀ i, i < 64 * n → ((scanRow pixels n).rleMaskBlock.getD (i / 64) 0).getLsbD (i % 64) =
        (repeats Pixel.transparent pixels)[i]?.getD false := by
  induction n with
  | zero => simp [scanRow, fresh]
  | succ n ih =>
    obtain ⟨hrest, hlast, hdata, hlen, hmask⟩ := ih
    have htake : pixels.take (64 * (n + 1)) = pixels.take (64 * n) ++ (pixels.drop (64 * n)).take 64 := by
      rw [Nat.mul_succ, List.take_add]
    obtain ⟨hl, hd, hm⟩ := foldl_scanPixel (s := ⟨(scanRow pixels n).lastPix, (scanRow pixels n).scratch, 0, 1⟩)
      (n := 0) ((pixels.drop (64 * n)).take 64) rfl (by simp)
    rw [scanRow, scanBlock_eq, hrest]
    refine ⟨?_, ?_, ?_, ?_, ?_⟩
    · rw [List.drop_drop]
      rfl
    · rw [hl, hlast, htake, List.getLast?_append]
      cases ((pixels.drop (64 * n)).take 64).getLast? <;> simp
    · rw [hd, hdata, hlast, htake, fresh_append]
    · simp [hlen]
    · intro i hi
      rw [List.getD_eq_getElem?_getD]
      by_cases hi' : i < 64 * n
      · rw [← hmask i hi', List.getElem?_append_left (by omega), List.getD_eq_getElem?_getD]
      · have hdiv : i / 64 = n := by omega
        have hmod : i % 64 = i - 64 * n := by omega
        have hsplit : repeats Pixel.transparent pixels = repeats Pixel.transparent (pixels.take (64 * n)) ++
            repeats (scanRow pixels n).lastPix (pixels.drop (64 * n)) := by
          rw [hlast, ← repeats_append, List.take_append_drop]
        rw [hdiv, hmod, List.getElem?_append_right (by omega), hlen, Nat.sub_self]
        simp only [List.getElem?_cons_zero, Option.getD_some]
        rw [hm _ (by omega), if_neg (by omega), Nat.sub_zero, repeats_take, List.getElem?_take, if_pos (by omega)]
        by_cases hshort : 64 * n ≤ pixels.length
        · rw [hsplit, List.getElem?_append_right (by simp; omega)]
          simp [hshort]
        · rw [List.drop_of_length_le (by omega), List.getElem?_eq_none (l := repeats Pixel.transparent pixels)]
          · simp [repeats]
          · simp
            omega

theorem initPixRowCpu_eq {pixels : List Pixel} (h : pixels.length ≤ 256) :
    Encodes ⟨(initPixRowCpu pixels).2, (initPixRowCpu pixels).1⟩ pixels := by
  obtain ⟨hrest, -, hdata, -, hmask⟩ := scanRow_spec pixels 4
  constructor
  · change (initPixRowCpu pixels).1 = _
    rw [initPixRowCpu, hrest, hdata, List.drop_of_length_le (by omega), List.take_of_length_le (by omega),
      List.append_nil]
  · intro i hi
    rw [← hmask i hi]
    simp [initPixRowCpu]

/-- Both paths of `initRow` store the row. -/
theorem initRow_encodes (simd : Simd) {pixels : List Pixel} (h : pixels.length ≤ 256) :
    (initRow simd pixels).Encodes pixels := by
  have hcpu := initPixRowCpu_eq h
  unfold initRow
  by_cases hsimd : simd.hasAVX2 && pixels.length == 256
  · simp only [hsimd, ↓reduceIte]
    cases henable : simd.enableSimd with
    | false => exact hcpu
    | true =>
      obtain ⟨words, heq, hwords⟩ := initPixRowSimd_eq (show pixels.length = 256 by simp at hsimd; exact hsimd.2)
      rw [heq]
      exact ⟨rfl, hwords⟩
  · simp only [hsimd]
    exact hcpu

/-! ### Comparing rows -/

theorem identical_eq_true {row other : DeltaBitmapRow} :
    row.identical other = true ↔ row.rleMask = other.rleMask ∧ row.rleData = other.rleData := by
  unfold identical rleSize
  by_cases hmask : row.rleMask = other.rleMask <;> by_cases hdata : row.rleData = other.rleData <;>
    simp [hmask, hdata]
  all_goals grind

/-- Rows of one width are identical exactly when their pixels are. -/
theorem identical_iff {row other : DeltaBitmapRow} {pixels pixels' : List Pixel} (hrow : row.Encodes pixels)
    (hother : other.Encodes pixels') (hlen : pixels.length = pixels'.length) (hle : pixels.length ≤ 256) :
    row.identical other = true ↔ pixels = pixels' := by
  rw [identical_eq_true]
  constructor
  · rintro ⟨hmask, hdata⟩
    apply @eq_of_repeats_of_fresh _ _ Pixel.transparent
    · apply List.ext_getElem
      · simp [hlen]
      · intro i hi hi'
        have h1 := hrow.mask i (by simp at hi; omega)
        have h2 := hother.mask i (by simp at hi; omega)
        rw [hmask, h2, List.getElem?_eq_getElem hi, List.getElem?_eq_getElem hi'] at h1
        exact h1.symm
    · rw [← hrow.data, ← hother.data, hdata]
  · rintro rfl
    refine ⟨?_, by rw [hrow.data, hother.data]⟩
    apply Vector.ext
    intro j hj
    apply BitVec.eq_of_getLsbD_eq
    intro b hb
    have h1 := hrow.mask (64 * j + b) (by omega)
    have h2 := hother.mask (64 * j + b) (by omega)
    have hdiv : (64 * j + b) / 64 = j := by omega
    have hmod : (64 * j + b) % 64 = b := by omega
    simp only [hdiv, hmod] at h1 h2
    rw [h1, h2]

end DeltaBitmapRow

/-! ### Reading a row -/

namespace PixIterator

/-- The iterator has used `k` bits of the mask. -/
def AtBit (it : PixIterator) (k : Nat) : Prop :=
  it.bitToCheck = 0 ∧ k = 64 * it.mask ∨
    ∃ j, j < 64 ∧ it.bitToCheck = 1#64 <<< j ∧ k + 64 = 64 * it.mask + j ∧
      ∃ h : it.mask - 1 < 4, it.lastMask = it.row.rleMask[it.mask - 1]

/-- The iterator stands on a pixel `pix` with `rest` after it.  It stops moving in the mask once the stored pixels are
used up; what is left of the row then repeats `pix`. -/
def Follows (it : PixIterator) (pix : Pixel) (rest : List Pixel) : Prop :=
  it.lastPix = pix ∧ it.rlePtr = fresh pix rest ∧
    (it.rlePtr = [] ∨ ∃ k, it.AtBit k ∧ k + rest.length ≤ 256 ∧
      ∀ i, i < rest.length → (it.row.rleMask[(k + i) / 64]?.getD 0).getLsbD ((k + i) % 64) =
        (repeats pix rest)[i]?.getD false)

/-- The iterator is about to give `pixels`. -/
def Reads (it : PixIterator) : List Pixel → Prop
  | [] => True
  | pix :: rest => it.Follows pix rest

theorem Reads.getPixel {it : PixIterator} {pix : Pixel} {rest : List Pixel} (h : it.Reads (pix :: rest)) :
    it.getPixel = pix := h.1

@[simp] private theorem nextMask_row (it : PixIterator) : it.nextMask.row = it.row := by
  unfold nextMask
  split
  · split <;> rfl
  · rfl

@[simp] private theorem nextMask_lastPix (it : PixIterator) : it.nextMask.lastPix = it.lastPix := by
  unfold nextMask
  split
  · split <;> rfl
  · rfl

@[simp] private theorem nextMask_rlePtr (it : PixIterator) : it.nextMask.rlePtr = it.rlePtr := by
  unfold nextMask
  split
  · split <;> rfl
  · rfl

/-- The mask word that `next` looks at and the state after it moved on by one bit. -/
private theorem nextMask_spec {it : PixIterator} {k : Nat} (h : it.AtBit k) (hk : k < 256) :
    (it.nextMask.lastMask &&& it.nextMask.bitToCheck = 0 ↔
      (it.row.rleMask[k / 64]?.getD 0).getLsbD (k % 64) = false) ∧
      ∀ it' : PixIterator, it'.row = it.row → it'.mask = it.nextMask.mask → it'.lastMask = it.nextMask.lastMask →
        it'.bitToCheck = it.nextMask.bitToCheck <<< 1 → it'.AtBit (k + 1) := by
  have hword : ∃ j, j < 64 ∧ it.nextMask.bitToCheck = 1#64 <<< j ∧ k + 64 = 64 * it.nextMask.mask + j ∧
      ∃ h : it.nextMask.mask - 1 < 4, it.nextMask.lastMask = it.nextMask.row.rleMask[it.nextMask.mask - 1] := by
    rcases h with ⟨hz, hmask⟩ | ⟨j, hj, hbit, hmask, hlt, hlast⟩
    · have h4 : it.mask < 4 := by omega
      refine ⟨0, by omega, ?_⟩
      simp only [nextMask, hz, ↓reduceIte, h4, ↓reduceDIte]
      exact ⟨rfl, by omega, by omega, by simp⟩
    · have hz : it.bitToCheck ≠ 0 := by
        rw [hbit]
        exact oneBit_ne_zero hj
      refine ⟨j, hj, ?_⟩
      simp only [nextMask, hz, ↓reduceIte]
      exact ⟨hbit, hmask, hlt, hlast⟩
  obtain ⟨j, hj, hbit, hmask, hlt, hlast⟩ := hword
  rw [nextMask_row] at hlast
  have hdiv : k / 64 = it.nextMask.mask - 1 := by omega
  have hmod : k % 64 = j := by omega
  constructor
  · have hget : it.row.rleMask[k / 64]?.getD 0 = it.nextMask.lastMask := by
      rw [hdiv, hlast, Vector.getElem?_eq_getElem hlt, Option.getD_some]
    rw [hget, hmod, hbit, and_oneBit_eq_zero _ hj]
  · intro it' hrow' hmask' hlast' hbit'
    rw [hbit, oneBit_shift] at hbit'
    by_cases hj' : j + 1 < 64
    · refine Or.inr ⟨j + 1, hj', hbit', by omega, by omega, ?_⟩
      simp only [hlast', hlast, hmask', hrow']
    · refine Or.inl ⟨?_, by omega⟩
      rw [hbit']
      exact oneBit_eq_zero (by omega)

theorem Follows.next {it : PixIterator} {last pix : Pixel} {rest : List Pixel} (h : it.Follows last (pix :: rest)) :
    it.next.Follows pix rest := by
  obtain ⟨hlast, hptr, hmask⟩ := h
  unfold PixIterator.next
  cases hnil : it.rlePtr with
  | nil =>
    have hfresh : fresh last (pix :: rest) = [] := by rw [← hptr, hnil]
    have hpix : pix = last := eq_of_mem_of_fresh_nil hfresh (by simp)
    subst hpix
    rw [fresh, if_pos rfl] at hfresh
    exact ⟨hlast, by rw [hnil, hfresh], Or.inl hnil⟩
  | cons q data =>
    obtain hmask | ⟨k, hat, hk, hbits⟩ := hmask
    · rw [hnil] at hmask
      cases hmask
    obtain ⟨hbit, hat'⟩ := nextMask_spec hat (by simp at hk; omega)
    have hcur := hbits 0 (by simp)
    have hrest : ∀ i, i < rest.length →
        (it.row.rleMask[(k + 1 + i) / 64]?.getD 0).getLsbD ((k + 1 + i) % 64) =
        (repeats pix rest)[i]?.getD false := by
      intro i hi
      have hnext := hbits (i + 1) (by simp only [List.length_cons]; omega)
      rw [show k + (i + 1) = k + 1 + i by omega] at hnext
      rw [hnext, repeats, List.getElem?_cons_succ]
    simp only [Nat.add_zero, repeats, List.getElem?_cons_zero, Option.getD_some] at hcur
    by_cases hpix : pix = last
    · -- a set bit: the pixel repeats
      have hset : ¬ (it.nextMask.lastMask &&& it.nextMask.bitToCheck = 0) := by
        rw [hbit, hcur]
        simp [hpix]
      rw [fresh, if_pos hpix, ← hpix] at hptr
      simp only [hset, ↓reduceIte]
      refine ⟨by simp [hlast, hpix], by simp [hptr], Or.inr ⟨k + 1, ?_, by simp at hk; omega, ?_⟩⟩
      · exact hat' _ (nextMask_row it) rfl rfl rfl
      · simpa only [nextMask_row] using hrest
    · -- a clear bit: the next stored pixel
      have hclear : it.nextMask.lastMask &&& it.nextMask.bitToCheck = 0 := by
        rw [hbit, hcur]
        simp [hpix]
      rw [fresh, if_neg hpix, hnil] at hptr
      obtain ⟨rfl, hdata⟩ := List.cons.inj hptr
      simp only [hclear, ↓reduceIte]
      refine ⟨rfl, hdata, Or.inr ⟨k + 1, ?_, by simp at hk; omega, ?_⟩⟩
      · exact hat' _ (nextMask_row it) rfl rfl rfl
      · simpa only [nextMask_row] using hrest

theorem Reads.next {it : PixIterator} {pix : Pixel} {rest : List Pixel} (h : it.Reads (pix :: rest)) :
    it.next.Reads rest := by
  cases rest with
  | nil => exact True.intro
  | cons q rest => exact Follows.next h

/-- A new iterator is about to give the pixels of its row. -/
theorem reads_ofRow {row : DeltaBitmapRow} {pixels : List Pixel} (h : row.Encodes pixels)
    (hle : pixels.length ≤ 256) : (ofRow row).Reads pixels := by
  cases pixels with
  | nil => exact True.intro
  | cons pix rest =>
    apply @Follows.next _ Pixel.transparent
    refine ⟨rfl, h.data, Or.inr ⟨0, Or.inl ⟨rfl, rfl⟩, by simpa using hle, ?_⟩⟩
    intro i hi
    have hi' : i < 256 := by omega
    have hget : row.rleMask[i / 64]? = some (row.rleMask[i / 64]) := Vector.getElem?_eq_getElem (by omega)
    simp only [Nat.zero_add, hget, Option.getD_some]
    exact h.mask i hi'

end PixIterator

end CollaboraOnline
