import CollaboraOnline.Kit.DeltaRow

/-!
# Deltas as programs

A delta is a list of commands, row copies and spans, with their meaning on an image (`DeltaOp.apply`): copies read the
image the delta starts from.  `makeDelta` writes the encoding of a program whose commands stay inside the tile and
that turns the previous bitmap into the current one (`makeDelta_program`).  The row loop keeps the image at the
frontier between the two bitmaps, and the patched counter of the last copy stays that of the last copy of the program.
-/

namespace CollaboraOnline

open Blit DeltaBitmapRow

/-- The bytes a client stores for a pixel of the kit. -/
def TileMode.clientBytes (mode : TileMode) (pix : Pixel) : List UInt8 := (mode.convert pix).bytes

@[simp] theorem length_clientBytes (mode : TileMode) (pix : Pixel) : (mode.clientBytes pix).length = 4 := rfl

/-- `copy_row` converts pixel by pixel. -/
theorem copyRow_eq (simd : Simd) (mode : TileMode) (pixels : List Pixel) :
    copyRow simd mode (pixels.flatMap Pixel.bytes) pixels.length = pixels.flatMap mode.clientBytes := by
  cases mode with
  | rgba =>
    have hlen := length_flatMap_const Pixel.length_bytes pixels
    simp only [copyRow, List.take_of_length_le (Nat.le_of_eq hlen)]
    rfl
  | bgra =>
    have hscalar : ((List.range pixels.length).flatMap fun i => swapAt (pixels.flatMap Pixel.bytes) (4 * i)) =
        pixels.flatMap TileMode.bgra.clientBytes := by
      have hpix : pixels = (List.range pixels.length).map fun i => pixels.getD i default := by
        apply List.ext_getElem
        · simp
        · intro i h h'
          simp [h]
      conv_rhs => rw [hpix, List.flatMap_map]
      apply List.flatMap_congr
      intro i hi
      have hi : i < pixels.length := by simpa using hi
      have hget : pixels[i]? = some pixels[i] := List.getElem?_eq_getElem hi
      have hbyte : ∀ r, r < 4 → (pixels.flatMap Pixel.bytes).getD (4 * i + r) 0 = pixels[i].bytes.getD r 0 := by
        intro r hr
        rw [List.getD_eq_getElem?_getD, Nat.mul_comm, getElem?_flatMap_const Pixel.length_bytes hget hr,
          List.getD_eq_getElem?_getD]
      have hbyte0 := hbyte 0 (by omega)
      rw [Nat.add_zero] at hbyte0
      simp only [swapAt, hbyte 1 (by omega), hbyte 2 (by omega), hbyte 3 (by omega), hbyte0]
      simp [TileMode.clientBytes, TileMode.convert, Pixel.swapRB, Pixel.bytes, hget]
    simp only [copyRow, hscalar]
    cases simd.hasAVX2 with
    | false => rfl
    | true =>
      cases simd.enableSimd with
      | false => rfl
      | true => simp [simdCopyRowSwapRB_eq, hscalar]

/-! ### Commands -/

/-- The commands of a delta: copy `count` rows of the image before the delta, or store pixels in a row. -/
inductive DeltaOp where
  | copy (count src dest : Nat)
  | span (row col : Nat) (pixels : List Pixel)

namespace DeltaOp

def encode (mode : TileMode) : DeltaOp → List UInt8
  | copy count src dest => [99, UInt8.ofNat count, UInt8.ofNat src, UInt8.ofNat dest]
  | span row col pixels =>
    [100, UInt8.ofNat row, UInt8.ofNat col, UInt8.ofNat pixels.length] ++ pixels.flatMap mode.clientBytes

/-- The effect of a command on the image `img`, where `old` is the image before the delta. -/
def apply (width : Nat) (old img : List Pixel) : DeltaOp → List Pixel
  | copy count src dest => blit img (dest * width) (slice old (src * width) (count * width))
  | span row col pixels => blit img (row * width + col) pixels

/-- The command stays inside the tile and its numbers fit in a byte. -/
def InBounds (width height : Nat) : DeltaOp → Prop
  | copy count src dest => count < 256 ∧ src + count ≤ height ∧ dest + count ≤ height ∧ src < 256 ∧ dest < 256
  | span row col pixels => row < height ∧ row < 256 ∧ col < 256 ∧ pixels.length < 256 ∧ col + pixels.length ≤ width

end DeltaOp

/-- The image after a program of commands. -/
def runProgram (width : Nat) (old : List Pixel) (ops : List DeltaOp) (img : List Pixel) : List Pixel :=
  ops.foldl (fun img op => op.apply width old img) img

@[simp] theorem runProgram_nil (width : Nat) (old img : List Pixel) : runProgram width old [] img = img := rfl

theorem runProgram_append (width : Nat) (old img : List Pixel) (ops ops' : List DeltaOp) :
    runProgram width old (ops ++ ops') img = runProgram width old ops' (runProgram width old ops img) := by
  simp [runProgram]

theorem runProgram_singleton (width : Nat) (old img : List Pixel) (op : DeltaOp) :
    runProgram width old [op] img = op.apply width old img := rfl

/-- Commands inside the tile keep the size of the image. -/
theorem length_runProgram {width height : Nat} {old : List Pixel} {ops : List DeltaOp} {img : List Pixel}
    (hin : ∀ op ∈ ops, op.InBounds width height) (hold : old.length = height * width)
    (himg : img.length = height * width) : (runProgram width old ops img).length = height * width := by
  induction ops generalizing img with
  | nil => exact himg
  | cons op ops ih =>
    simp only [List.mem_cons, forall_eq_or_imp] at hin
    obtain ⟨hop, hin⟩ := hin
    refine ih hin ?_
    rw [← himg]
    cases op with
    | copy count src dest =>
      obtain ⟨-, hsrc, hdest, -⟩ := hop
      have hsrc' : (src + count) * width ≤ height * width := Nat.mul_le_mul_right _ hsrc
      have hdest' : (dest + count) * width ≤ height * width := Nat.mul_le_mul_right _ hdest
      rw [Nat.add_mul] at hsrc' hdest'
      refine length_blit ?_
      rw [length_slice (by omega)]
      omega
    | span row col pixels =>
      obtain ⟨hrow, -, -, -, hcol⟩ := hop
      have hrow' : (row + 1) * width ≤ height * width := Nat.mul_le_mul_right _ hrow
      rw [Nat.succ_mul] at hrow'
      exact length_blit (by omega)

theorem pushSpan_eq (simd : Simd) (mode : TileMode) (curY x : Nat) (scratch : List Pixel) :
    pushSpan simd mode curY x scratch = (DeltaOp.span curY x scratch).encode mode := by
  rw [pushSpan, copyRow_eq]
  rfl

/-! ### Spans of a row -/

/-- The loop over equal pixels stops at the first difference. -/
private theorem skipSame_spec (same : Nat) {left : Nat} {oldIt curIt : PixIterator} {olds curs : List Pixel}
    (hold : oldIt.Reads olds) (hcur : curIt.Reads curs) (hol : olds.length = left) (hcl : curs.length = left) :
    ∃ n oldIt' curIt', skipSame left same oldIt curIt = (same + n, oldIt', curIt') ∧ n ≤ left ∧
      olds.take n = curs.take n ∧ oldIt'.Reads (olds.drop n) ∧ curIt'.Reads (curs.drop n) := by
  induction left generalizing same oldIt curIt olds curs with
  | zero => exact ⟨0, oldIt, curIt, rfl, Nat.le_refl 0, rfl, hold, hcur⟩
  | succ left ih =>
    obtain ⟨o, olds, rfl⟩ := List.exists_cons_of_length_eq_add_one hol
    obtain ⟨c, curs, rfl⟩ := List.exists_cons_of_length_eq_add_one hcl
    unfold skipSame
    split
    · rename_i hid
      have hoc : o = c := by
        have h := beq_iff_eq.1 hid
        rwa [hold.1, hcur.1] at h
      obtain ⟨n, oldIt', curIt', heq, hn, htake, hold', hcur'⟩ :=
        ih (same + 1) hold.next hcur.next (by simpa using hol) (by simpa using hcl)
      refine ⟨n + 1, oldIt', curIt', by rw [heq, Nat.add_assoc, Nat.add_comm 1], by omega, ?_, hold', hcur'⟩
      rw [List.take_succ_cons, List.take_succ_cons, htake, hoc]
    · exact ⟨0, oldIt, curIt, rfl, Nat.zero_le _, rfl, hold, hcur⟩

/-- The loop over a span collects the next pixels of the current row, at most 254. -/
private theorem takeDiff_spec {left : Nat} (scratch : List Pixel) {oldIt curIt : PixIterator} {olds curs : List Pixel}
    (hold : oldIt.Reads olds) (hcur : curIt.Reads curs) (hol : olds.length = left) (hcl : curs.length = left)
    (hs : scratch.length ≤ 254) :
    ∃ n oldIt' curIt', takeDiff left scratch oldIt curIt = (scratch ++ curs.take n, oldIt', curIt') ∧ n ≤ left ∧
      scratch.length + n ≤ 254 ∧ (scratch = [] → 0 < left → 0 < n) ∧
      oldIt'.Reads (olds.drop n) ∧ curIt'.Reads (curs.drop n) := by
  induction left generalizing scratch oldIt curIt olds curs with
  | zero => exact ⟨0, oldIt, curIt, by simp [takeDiff], Nat.le_refl 0, by simpa using hs, by omega, hold, hcur⟩
  | succ left ih =>
    obtain ⟨o, olds, rfl⟩ := List.exists_cons_of_length_eq_add_one hol
    obtain ⟨c, curs, rfl⟩ := List.exists_cons_of_length_eq_add_one hcl
    unfold takeDiff
    split
    · rename_i hgo
      have hlt : scratch.length < 254 := by
        simp at hgo
        exact hgo.2
      obtain ⟨n, oldIt', curIt', heq, hn, hs', -, hold', hcur'⟩ :=
        ih (scratch ++ [curIt.getPixel]) hold.next hcur.next (by simpa using hol) (by simpa using hcl)
          (by simp; omega)
      refine ⟨n + 1, oldIt', curIt', ?_, by omega, by simp at hs'; omega, by omega, hold', hcur'⟩
      rw [heq, hcur.getPixel, List.append_assoc, List.singleton_append, List.take_succ_cons]
    · rename_i hstop
      refine ⟨0, oldIt, curIt, by simp, Nat.zero_le _, by simpa using hs, ?_, hold, hcur⟩
      intro hnil
      simp [hnil] at hstop

/-- From column `x` on, `diffRowTo` writes spans that finish row `curY`. -/
private theorem diffLoop_spec (simd : Simd) (mode : TileMode) {width height curY fuel x : Nat}
    {oldIt curIt : PixIterator} {old new : List Pixel} (output : List UInt8) (hw : width ≤ 256) (hh : height ≤ 256)
    (hy : curY < height) (hnew : new.length = height * width) (hlen : old.length = new.length) (hx : x ≤ width)
    (hfuel : width - x ≤ fuel) (hold : oldIt.Reads (slice old (curY * width + x) (width - x)))
    (hcur : curIt.Reads (slice new (curY * width + x) (width - x))) :
    ∃ ops, diffLoop simd mode width curY fuel x oldIt curIt output = output ++ ops.flatMap (DeltaOp.encode mode) ∧
      (∀ op ∈ ops, op.InBounds width height) ∧
      runProgram width old ops (frontier new old (curY * width + x)) = frontier new old ((curY + 1) * width) := by
  have hrow : (curY + 1) * width ≤ new.length := by
    rw [hnew]
    exact Nat.mul_le_mul_right _ hy
  have hsucc : (curY + 1) * width = curY * width + width := Nat.succ_mul _ _
  induction fuel generalizing x oldIt curIt output with
  | zero =>
    have hx' : x = width := by omega
    exact ⟨[], by simp [diffLoop], by simp, by rw [runProgram_nil, hx', hsucc]⟩
  | succ fuel ih =>
    unfold diffLoop
    by_cases hlt : x < width
    · obtain ⟨n, oldIt₁, curIt₁, hskip, hn, htake, hold₁, hcur₁⟩ := skipSame_spec 0 hold hcur
        (length_slice (by omega)) (length_slice (by omega))
      rw [slice_drop, Nat.sub_sub] at hold₁ hcur₁
      rw [slice_take hn, slice_take hn] at htake
      have hsame := frontier_of_slice_eq htake.symm
      obtain ⟨m, oldIt₂, curIt₂, htd, hm, hm', hpos, hold₂, hcur₂⟩ := takeDiff_spec [] hold₁ hcur₁
        (length_slice (by omega)) (length_slice (by omega)) (by simp)
      rw [slice_drop, Nat.sub_sub] at hold₂ hcur₂
      rw [slice_take hm, List.nil_append] at htd
      have hspan : (slice new (curY * width + x + n) m).length = m := length_slice (by omega)
      simp only [hlt, ↓reduceIte, hskip, Nat.zero_add, htd, hspan]
      rw [← hsame]
      split
      · -- a span was collected, and the rest of the row follows it
        obtain ⟨ops, heq, hin, hrun⟩ := ih (x := x + n + m)
          (output ++ pushSpan simd mode curY (x + n) (slice new (curY * width + x + n) m)) (by omega) (by omega)
          (by rwa [← Nat.add_assoc, ← Nat.add_assoc]) (by rwa [← Nat.add_assoc, ← Nat.add_assoc])
        refine ⟨.span curY (x + n) (slice new (curY * width + x + n) m) :: ops, ?_, ?_, ?_⟩
        · rw [heq, pushSpan_eq, List.flatMap_cons, List.append_assoc]
        · simp only [List.mem_cons, forall_eq_or_imp]
          refine ⟨?_, hin⟩
          simp only [DeltaOp.InBounds, hspan]
          simp at hm'
          omega
        · rw [← hrun]
          simp only [runProgram, List.foldl_cons, DeltaOp.apply]
          rw [← Nat.add_assoc, blit_frontier (by omega), Nat.add_assoc, Nat.add_assoc, Nat.add_assoc]
      · -- nothing was collected, so the row was finished by equal pixels
        rename_i hm0
        obtain rfl : m = 0 := by omega
        have hend : ¬ 0 < width - (x + n) := fun h => by have := hpos rfl h; omega
        obtain ⟨ops, heq, hin, hrun⟩ := ih (x := x + n) output (by omega) (by omega)
          (by rwa [← Nat.add_assoc]) (by rwa [← Nat.add_assoc])
        exact ⟨ops, heq, hin, by rw [Nat.add_assoc, hrun]⟩
    · have hx' : x = width := by omega
      simp only [hlt, ↓reduceIte]
      exact ⟨[], by simp, by simp, by rw [runProgram_nil, hx', hsucc]⟩

private theorem diffRowTo_spec (simd : Simd) (mode : TileMode) {width height y : Nat} {row curRow : DeltaBitmapRow}
    {old new : List Pixel} (output : List UInt8) (hw : width ≤ 256) (hh : height ≤ 256) (hy : y < height)
    (hnew : new.length = height * width) (hlen : old.length = new.length)
    (hold : row.Encodes (slice old (y * width) width)) (hcur : curRow.Encodes (slice new (y * width) width)) :
    ∃ ops, row.diffRowTo simd mode curRow width y output = output ++ ops.flatMap (DeltaOp.encode mode) ∧
      (∀ op ∈ ops, op.InBounds width height) ∧
      runProgram width old ops (frontier new old (y * width)) = frontier new old ((y + 1) * width) := by
  have hle : ∀ l : List Pixel, (slice l (y * width) width).length ≤ 256 := by
    intro l
    simp [slice]
    omega
  exact diffLoop_spec simd mode output hw hh hy hnew hlen (Nat.zero_le _) (Nat.le_refl _)
    (PixIterator.reads_ofRow hold (hle old)) (PixIterator.reads_ofRow hcur (hle new))

/-! ### The rows of a bitmap -/

namespace Subbuffer

variable {width height : Nat}

theorem length_pixels (b : Subbuffer width height) : b.pixels.length = height * width :=
  length_rows fun _ => b.length_rowPixels

theorem slice_pixels (b : Subbuffer width height) {y : Nat} (hy : y < height) :
    slice b.pixels (y * width) width = b.rowPixels y :=
  slice_rows (fun _ => b.length_rowPixels) hy

end Subbuffer

theorem DeltaData.getRow_ofPixmap_encodes (simd : Simd) {width height : Nat} (b : Subbuffer width height)
    (hw : width ≤ 256) {y : Nat} (hy : y < height) :
    ((DeltaData.ofPixmap simd b).getRow y).Encodes (slice b.pixels (y * width) width) := by
  have hget : (DeltaData.ofPixmap simd b).getRow y = initRow simd (b.rowPixels y) := by
    simp [DeltaData.getRow, DeltaData.ofPixmap, hy]
  rw [hget, b.slice_pixels hy]
  exact initRow_encodes simd (by rw [b.length_rowPixels hy]; exact hw)

/-! ### The row loop -/

/-- `lastCopy` is the place of the counter of the last copy command, and a copy command that could be extended to
row `y` is the last command. -/
def LastCopy (mode : TileMode) (lastCopy y : Nat) (ops : List DeltaOp) : Prop :=
  lastCopy = 0 ∨ ∃ before count src dest after, ops = before ++ DeltaOp.copy count src dest :: after ∧
    lastCopy = (before.flatMap (DeltaOp.encode mode)).length + 1 ∧ dest + count ≤ y ∧ (dest + count = y → after = [])

/-- Before row `y`, the output encodes a program that leaves the image at the frontier of row `y`. -/
def DeltaInvariant (mode : TileMode) (width height : Nat) (old new : List Pixel) (y : Nat) (o : DeltaOutput) : Prop :=
  ∃ ops, o.output = ops.flatMap (DeltaOp.encode mode) ∧ (∀ op ∈ ops, op.InBounds width height) ∧
    runProgram width old ops old = frontier new old (y * width) ∧ LastCopy mode o.lastCopy y ops

/-- Commands after the last copy that do not end at row `y` leave nothing to extend at the next row. -/
private theorem LastCopy.append {mode : TileMode} {lastCopy y : Nat} {ops : List DeltaOp}
    (h : LastCopy mode lastCopy y ops) (ops' : List DeltaOp) : LastCopy mode lastCopy (y + 1) (ops ++ ops') := by
  obtain h | ⟨before, count, src, dest, after, hops, hpos, hle, -⟩ := h
  · exact Or.inl h
  · refine Or.inr ⟨before, count, src, dest, after ++ ops', ?_, hpos, by omega, by omega⟩
    rw [hops, List.append_assoc, List.cons_append]

/-- Copying row `found` of the old image, equal to row `y` of the new one, moves the frontier by a row. -/
private theorem apply_copy_frontier {width found y : Nat} {old new : List Pixel} (hy : (y + 1) * width ≤ new.length)
    (heq : slice old (found * width) width = slice new (y * width) width) :
    blit (frontier new old (y * width)) (y * width) (slice old (found * width) width) =
      frontier new old ((y + 1) * width) := by
  rw [heq, blit_frontier (by rw [← Nat.succ_mul]; exact hy), ← Nat.succ_mul]

/-- The bytes of the copy command at `lastCopy`, and the output with its counter increased. -/
private theorem output_at_copy (mode : TileMode) (before after : List DeltaOp) {count src dest : Nat}
    (hcount : count < 256) (hsrc : src < 256) (hdest : dest < 256) :
    let output := (before ++ DeltaOp.copy count src dest :: after).flatMap (DeltaOp.encode mode)
    let lastCopy := (before.flatMap (DeltaOp.encode mode)).length + 1
    (output.getD lastCopy 0).toNat = count ∧ (output.getD (lastCopy + 1) 0).toNat = src ∧
      (output.getD (lastCopy + 2) 0).toNat = dest ∧
      output.set lastCopy (output.getD lastCopy 0 + 1) =
        (before ++ DeltaOp.copy (count + 1) src dest :: after).flatMap (DeltaOp.encode mode) := by
  simp only [List.flatMap_append, List.flatMap_cons, DeltaOp.encode, List.getD_eq_getElem?_getD]
  refine ⟨?_, ?_, ?_, ?_⟩
  · rw [List.getElem?_append_right (by omega), Nat.add_sub_cancel_left]
    simp [Nat.mod_eq_of_lt hcount]
  · rw [List.getElem?_append_right (by omega), Nat.add_assoc, Nat.add_sub_cancel_left]
    simp [Nat.mod_eq_of_lt hsrc]
  · rw [List.getElem?_append_right (by omega), Nat.add_assoc, Nat.add_sub_cancel_left]
    simp [Nat.mod_eq_of_lt hdest]
  · rw [List.getElem?_append_right (by omega), List.set_append_right _ _ (by omega), Nat.add_sub_cancel_left]
    simp

/-- A row copied from the previous bitmap, in a command of its own or as one more row of the last copy. -/
private theorem DeltaInvariant.pushCopy {mode : TileMode} {width height y found : Nat} {old new : List Pixel}
    {o : DeltaOutput} (h : DeltaInvariant mode width height old new y o) (hh : height ≤ 256) (hy : y < height)
    (hfound : found < height) (hnew : new.length = height * width) (hlen : old.length = new.length)
    (heq : slice old (found * width) width = slice new (y * width) width) :
    DeltaInvariant mode width height old new (y + 1) (pushCopy o found y height) := by
  obtain ⟨ops, hout, hin, hrun, hlast⟩ := h
  have hrow : (y + 1) * width ≤ new.length := by
    rw [hnew]
    exact Nat.mul_le_mul_right _ hy
  unfold CollaboraOnline.pushCopy
  split
  · rename_i hext
    obtain hzero | ⟨before, count, src, dest, after, rfl, hpos, hle, hafter⟩ := hlast
    · simp [extendsLastCopy, hzero] at hext
    obtain ⟨hcount, hsrc, hdest, hsrc', hdest'⟩ := hin (.copy count src dest) (by simp)
    obtain ⟨hcnt, hs, hd, hset⟩ := output_at_copy mode before after hcount hsrc' hdest'
    simp only [extendsLastCopy, hout, hpos, hcnt, hs, hd, Bool.and_eq_true, beq_iff_eq, decide_eq_true_eq] at hext
    obtain ⟨-, ⟨hfrom, hto⟩, hroom⟩ := hext
    obtain rfl := hafter hto
    have hin' : ∀ op ∈ before, op.InBounds width height := fun op hop => hin op (by simp [hop])
    refine ⟨before ++ [.copy (count + 1) src dest], by simp only [hout, hpos, hset], ?_, ?_, ?_⟩
    · intro op hop
      rcases List.mem_append.1 hop with hop | hop
      · exact hin' op hop
      · rw [List.mem_singleton.1 hop]
        exact ⟨by omega, by omega, by omega, by omega, by omega⟩
    · -- one command for `count + 1` rows is the old command followed by a copy of row `found`
      have hsrcrow : (src + count) * width ≤ height * width := Nat.mul_le_mul_right _ hsrc
      have hdestrow : (dest + count) * width ≤ height * width := Nat.mul_le_mul_right _ hdest
      rw [Nat.add_mul] at hsrcrow hdestrow
      have hslice : (slice old (src * width) (count * width)).length = count * width := length_slice (by omega)
      have himg := length_runProgram hin' (show old.length = height * width by omega)
        (show old.length = height * width by omega)
      have hfit : dest * width + (slice old (src * width) (count * width)).length ≤
          (runProgram width old before old).length := by
        rw [hslice, himg]
        exact hdestrow
      rw [runProgram_append, runProgram_singleton, DeltaOp.apply] at hrun
      rw [runProgram_append, runProgram_singleton, DeltaOp.apply, Nat.succ_mul, slice_add, ← blit_blit hfit, hrun,
        hslice, ← Nat.add_mul, ← Nat.add_mul, hfrom, hto]
      exact apply_copy_frontier hrow heq
    · exact Or.inr ⟨before, count + 1, src, dest, [], rfl, hpos, by omega, fun _ => rfl⟩
  · refine ⟨ops ++ [.copy 1 found y], ?_, ?_, ?_, ?_⟩
    · rw [List.flatMap_append, ← hout]
      rfl
    · intro op hop
      rcases List.mem_append.1 hop with hop | hop
      · exact hin op hop
      · rw [List.mem_singleton.1 hop]
        exact ⟨by omega, by omega, by omega, by omega, by omega⟩
    · rw [runProgram_append, hrun, runProgram_singleton, DeltaOp.apply, Nat.one_mul]
      exact apply_copy_frontier hrow heq
    · exact Or.inr ⟨ops, 1, found, y, [], rfl, by rw [hout], Nat.le_refl _, fun _ => rfl⟩

/-- One round of the row loop. -/
private theorem DeltaInvariant.deltaRow (simd : Simd) {mode : TileMode} {width height y : Nat}
    {prev cur : Subbuffer width height} {o : DeltaOutput} (hw : width ≤ 256) (hh : height ≤ 256) (hy : y < height)
    (h : DeltaInvariant mode width height prev.pixels cur.pixels y o) :
    DeltaInvariant mode width height prev.pixels cur.pixels (y + 1)
      (deltaRow simd mode (DeltaData.ofPixmap simd prev) (DeltaData.ofPixmap simd cur) o y) := by
  have hlenp := prev.length_pixels
  have hlenc := cur.length_pixels
  have hidentical : ∀ i, i < height →
      ((DeltaData.ofPixmap simd prev).getRow i).identical ((DeltaData.ofPixmap simd cur).getRow y) = true →
      slice prev.pixels (i * width) width = slice cur.pixels (y * width) width := by
    intro i hi hid
    refine (identical_iff (DeltaData.getRow_ofPixmap_encodes simd prev hw hi)
      (DeltaData.getRow_ofPixmap_encodes simd cur hw hy) ?_ ?_).1 hid
    · rw [prev.slice_pixels hi, cur.slice_pixels hy, prev.length_rowPixels hi, cur.length_rowPixels hy]
    · rw [prev.slice_pixels hi, prev.length_rowPixels hi]
      exact hw
  unfold CollaboraOnline.deltaRow
  split
  · -- the rows match
    rename_i hid
    obtain ⟨ops, hout, hin, hrun, hlast⟩ := h
    refine ⟨ops, hout, hin, ?_, by simpa using hlast.append []⟩
    rw [hrun, Nat.succ_mul, frontier_of_slice_eq (hidentical y hy hid).symm]
  · split
    · rename_i found hhunt
      unfold huntRow at hhunt
      have hid := List.find?_some hhunt
      have hmem := List.mem_of_find?_eq_some hhunt
      obtain ⟨yn, -, rfl⟩ := List.mem_map.1 hmem
      have hfound : (y + o.lastMatchOffset + yn) % 2 ^ 64 % (DeltaData.ofPixmap simd prev).height < height :=
        Nat.mod_lt _ (by show 0 < height; omega)
      exact h.pushCopy hh hy hfound hlenc (by omega) (hidentical _ hfound hid)
    · obtain ⟨ops, hout, hin, hrun, hlast⟩ := h
      obtain ⟨ops', heq, hin', hrun'⟩ := diffRowTo_spec simd mode o.output hw hh hy hlenc
        (by omega) (DeltaData.getRow_ofPixmap_encodes simd prev hw hy)
        (DeltaData.getRow_ofPixmap_encodes simd cur hw hy)
      refine ⟨ops ++ ops', ?_, ?_, ?_, hlast.append ops'⟩
      · rw [List.flatMap_append, ← hout]
        exact heq
      · intro op hop
        rcases List.mem_append.1 hop with hop | hop
        · exact hin op hop
        · exact hin' op hop
      · rw [runProgram_append, hrun, hrun']

/-- The delta between two bitmaps of one size is the encoding of a program from the first to the second. -/
theorem makeDelta_program (simd : Simd) (mode : TileMode) {width height : Nat} (hw : width ≤ 256) (hh : height ≤ 256)
    (prev cur : Subbuffer width height) :
    ∃ ops, makeDelta simd mode (DeltaData.ofPixmap simd prev) (DeltaData.ofPixmap simd cur) =
        some (if ops = [] then [] else ops.flatMap (DeltaOp.encode mode) ++ [116]) ∧
      (∀ op ∈ ops, op.InBounds width height) ∧ runProgram width prev.pixels ops prev.pixels = cur.pixels := by
  have hloop : ∀ n, n ≤ height → DeltaInvariant mode width height prev.pixels cur.pixels n
      ((List.range n).foldl (deltaRow simd mode (DeltaData.ofPixmap simd prev) (DeltaData.ofPixmap simd cur))
        ⟨[], 0, 0⟩) := by
    intro n hn
    induction n with
    | zero => exact ⟨[], rfl, by simp, by simp, Or.inl rfl⟩
    | succ n ih =>
      rw [List.range_succ, List.foldl_append, List.foldl_cons, List.foldl_nil]
      exact (ih (by omega)).deltaRow simd hw hh (by omega)
  obtain ⟨ops, hout, hin, hrun, -⟩ := hloop height (Nat.le_refl _)
  refine ⟨ops, ?_, hin, ?_⟩
  · have hempty : (ops.flatMap (DeltaOp.encode mode)).isEmpty = decide (ops = []) := by
      cases ops with
      | nil => rfl
      | cons op ops => cases op <;> simp [DeltaOp.encode]
    rw [makeDelta, if_neg (by simp [DeltaData.ofPixmap])]
    simp only [show (DeltaData.ofPixmap simd prev).height = height from rfl, hout, hempty, decide_eq_true_eq]
    split <;> rfl
  · rw [hrun, ← cur.length_pixels, frontier_length]
    rw [prev.length_pixels, cur.length_pixels]

/-- Equal bitmaps have the empty delta. -/
theorem makeDelta_self (simd : Simd) (mode : TileMode) {width height : Nat} (hw : width ≤ 256)
    {prev cur : Subbuffer width height} (h : prev.pixels = cur.pixels) :
    makeDelta simd mode (DeltaData.ofPixmap simd prev) (DeltaData.ofPixmap simd cur) = some [] := by
  have hrows : ∀ n, n ≤ height →
      (List.range n).foldl (deltaRow simd mode (DeltaData.ofPixmap simd prev) (DeltaData.ofPixmap simd cur))
        ⟨[], 0, 0⟩ = ⟨[], 0, 0⟩ := by
    intro n hn
    induction n with
    | zero => rfl
    | succ n ih =>
      have hid := (identical_iff (DeltaData.getRow_ofPixmap_encodes simd prev hw hn)
        (DeltaData.getRow_ofPixmap_encodes simd cur hw hn) (by rw [h])
        (by rw [prev.slice_pixels hn, prev.length_rowPixels hn]; exact hw)).2 (by rw [h])
      rw [List.range_succ, List.foldl_append, ih (by omega), List.foldl_cons, List.foldl_nil, deltaRow, if_pos hid]
  rw [makeDelta, if_neg (by simp [DeltaData.ofPixmap])]
  simp only [show (DeltaData.ofPixmap simd prev).height = height from rfl, hrows height (Nat.le_refl _),
    List.isEmpty_nil, ↓reduceIte]

end CollaboraOnline
