import CollaboraOnline.Kit.DeltaSimd

/-!
# The delta generator of the kit

The tile encoder of `kit/Delta.hpp`: rows compressed to a repeat mask and the distinct pixels (`initRow`), the
keyframe bytes of a row (`packForNetwork`), the iterator over a compressed row (`PixIterator`), and the delta between
two bitmaps of one size (`makeDelta`).  Byte streams are those handed to zstd, without the `Z` or `D` in front of the
compressed data.
-/

namespace CollaboraOnline

open Blit

/-- How the kit was built (`ENABLE_SIMD`) and what it runs on (`simd::HasAVX2`). -/
structure Simd where
  enableSimd : Bool
  hasAVX2 : Bool
deriving DecidableEq, Repr

/-- `DeltaGenerator::copy_row`: the bytes stored for the `count` pixels at `srcBytes`. -/
def copyRow (simd : Simd) (mode : TileMode) (srcBytes : List UInt8) (count : Nat) : List UInt8 :=
  match mode with
  | .rgba => srcBytes.take (count * 4)
  | .bgra =>
    let scalar := (List.range count).flatMap fun i => swapAt srcBytes (4 * i)
    if simd.hasAVX2 then (simdCopyRowSwapRB simd.enableSimd srcBytes count).getD scalar else scalar

/-! ### Compressed rows -/

/-- A row of a bitmap: a bit for each of the first 256 pixels, set when it repeats the pixel before, and the other
pixels. -/
structure DeltaBitmapRow where
  rleMask : Vector (BitVec 64) 4
  rleData : List Pixel
deriving DecidableEq

instance : Inhabited DeltaBitmapRow := ⟨⟨Vector.replicate 4 0, []⟩⟩

namespace DeltaBitmapRow

def rleSize (row : DeltaBitmapRow) : Nat := row.rleData.length

/-- What the inner loops of `initPixRowCpu` carry. -/
structure PixScan where
  lastPix : Pixel
  scratch : List Pixel
  rleMask : BitVec 64
  bitToSet : BitVec 64

/-- The common body of the two inner loops of `initPixRowCpu`. -/
def scanPixel (s : PixScan) (pix : Pixel) : PixScan :=
  if pix = s.lastPix then { s with rleMask := s.rleMask ||| s.bitToSet, bitToSet := s.bitToSet <<< 1 }
  else { s with lastPix := pix, scratch := s.scratch ++ [pix], bitToSet := s.bitToSet <<< 1 }

/-- The loop for 64 bit chunks, `for (; bitToSet; ++x, bitToSet <<= 1)`, with the pixels it leaves. -/
def scanChunk (s : PixScan) : List Pixel → PixScan × List Pixel
  | [] => (s, [])
  | pix :: rest => if s.bitToSet = 0 then (s, pix :: rest) else scanChunk (scanPixel s pix) rest

/-- What the outer loop of `initPixRowCpu` carries; `rest` are the pixels from position `x` on. -/
structure RowScan where
  rest : List Pixel
  lastPix : Pixel
  scratch : List Pixel
  rleMaskBlock : List (BitVec 64)

/-- One round of the outer loop of `initPixRowCpu`. -/
def scanBlock (r : RowScan) : RowScan :=
  let s : PixScan := ⟨r.lastPix, r.scratch, 0, 1⟩
  let (s, rest) := if r.rest.length > 64 then scanChunk s r.rest else (r.rest.foldl scanPixel s, [])
  ⟨rest, s.lastPix, s.scratch, r.rleMaskBlock ++ [s.rleMask]⟩

/-- The four rounds of `initPixRowCpu`. -/
def scanRow (pixels : List Pixel) : Nat → RowScan
  | 0 => ⟨pixels, Pixel.transparent, [], []⟩
  | masks + 1 => scanBlock (scanRow pixels masks)

/-- `initPixRowCpu`: pixels after the 256th are stored as they are. -/
def initPixRowCpu (pixels : List Pixel) : List Pixel × Vector (BitVec 64) 4 :=
  let r := scanRow pixels 4
  (r.scratch ++ r.rest, Vector.ofFn fun mask => r.rleMaskBlock.getD mask 0)

/-- `initRow` on the `pixels.length` pixels of a row. -/
def initRow (simd : Simd) (pixels : List Pixel) : DeltaBitmapRow :=
  let done := if simd.hasAVX2 && pixels.length == 256 then initPixRowSimd simd.enableSimd pixels else none
  let (scratch, rleMask) := done.getD (initPixRowCpu pixels)
  ⟨rleMask, scratch⟩

def identical (row other : DeltaBitmapRow) : Bool :=
  if row.rleSize != other.rleSize then false
  else if row.rleMask != other.rleMask then false
  else if row.rleData.isEmpty && other.rleData.isEmpty then true
  else if row.rleData.isEmpty || other.rleData.isEmpty then false
  else row.rleData == other.rleData

/-- The little-endian bytes of a mask word. -/
def wordBytes (word : BitVec 64) : List UInt8 :=
    (List.range 8).map fun j => UInt8.ofBitVec (word.extractLsb' (8 * j) 8)

/-- `packForNetwork`: the number of stored pixels in two bytes, the mask, the pixels. -/
def packForNetwork (simd : Simd) (mode : TileMode) (row : DeltaBitmapRow) : List UInt8 :=
  [UInt8.ofNat (row.rleSize % 256), UInt8.ofNat (row.rleSize / 256)] ++ row.rleMask.toList.flatMap wordBytes ++
    (if row.rleSize > 0 then copyRow simd mode (row.rleData.flatMap Pixel.bytes) row.rleSize else [])

end DeltaBitmapRow

/-! ### Iterating over a compressed row -/

/-- `DeltaBitmapRow::PixIterator`; `rlePtr` are the stored pixels from `_rlePtr` up to `_endRleData`. -/
structure PixIterator where
  row : DeltaBitmapRow
  mask : Nat
  lastPix : Pixel
  lastMask : BitVec 64
  bitToCheck : BitVec 64
  rlePtr : List Pixel

namespace PixIterator

def getPixel (i : PixIterator) : Pixel := i.lastPix

def identical (i j : PixIterator) : Bool := i.lastPix == j.lastPix

/-- The slow path of `next`: take the next mask word. -/
def nextMask (i : PixIterator) : PixIterator :=
  if i.bitToCheck = 0 then
    if h : i.mask < 4 then { i with lastMask := i.row.rleMask[i.mask], mask := i.mask + 1, bitToCheck := 1 }
    else { i with lastMask := BitVec.allOnes 64, bitToCheck := 1 }
  else i

def next (i : PixIterator) : PixIterator :=
  match i.rlePtr with
  | [] => i
  | pix :: rest =>
    let i := i.nextMask
    let i := if i.lastMask &&& i.bitToCheck = 0 then { i with lastPix := pix, rlePtr := rest } else i
    { i with bitToCheck := i.bitToCheck <<< 1 }

/-- The constructor. -/
def ofRow (row : DeltaBitmapRow) : PixIterator := next ⟨row, 0, Pixel.transparent, 0, 0, row.rleData⟩

end PixIterator

namespace DeltaBitmapRow

/-- The loop that counts equal pixels; `left` is `width - x - same`. -/
def skipSame : Nat → Nat → PixIterator → PixIterator → Nat × PixIterator × PixIterator
  | 0, same, oldPixels, curPixels => (same, oldPixels, curPixels)
  | left + 1, same, oldPixels, curPixels =>
    if oldPixels.identical curPixels then skipSame left (same + 1) oldPixels.next curPixels.next
    else (same, oldPixels, curPixels)

/-- The loop that collects a span; `left` is `width - x - diff` and `diff` is `scratch.length`. -/
def takeDiff : Nat → List Pixel → PixIterator → PixIterator → List Pixel × PixIterator × PixIterator
  | 0, scratch, oldPixels, curPixels => (scratch, oldPixels, curPixels)
  | left + 1, scratch, oldPixels, curPixels =>
    if (!oldPixels.identical curPixels || scratch.length < 3) && scratch.length < 254 then
      takeDiff left (scratch ++ [curPixels.getPixel]) oldPixels.next curPixels.next
    else (scratch, oldPixels, curPixels)

/-- What `diffRowTo` appends for a span. -/
def pushSpan (simd : Simd) (mode : TileMode) (curY x : Nat) (scratch : List Pixel) : List UInt8 :=
  [100, UInt8.ofNat curY, UInt8.ofNat x, UInt8.ofNat scratch.length] ++
    copyRow simd mode (scratch.flatMap Pixel.bytes) scratch.length

/-- The outer loop of `diffRowTo` from column `x` on.  Each round moves `x` forward, so `width` rounds are enough. -/
def diffLoop (simd : Simd) (mode : TileMode) (width curY : Nat) :
    Nat → Nat → PixIterator → PixIterator → List UInt8 → List UInt8
  | 0, _, _, _, output => output
  | fuel + 1, x, oldPixels, curPixels, output =>
    if x < width then
      let (same, oldPixels, curPixels) := skipSame (width - x) 0 oldPixels curPixels
      let x := x + same
      let (scratch, oldPixels, curPixels) := takeDiff (width - x) [] oldPixels curPixels
      if scratch.length > 0 then
        diffLoop simd mode width curY fuel (x + scratch.length) oldPixels curPixels
          (output ++ pushSpan simd mode curY x scratch)
      else diffLoop simd mode width curY fuel x oldPixels curPixels output
    else output

/-- `diffRowTo`: append the spans in which `curRow` differs from `row`. -/
def diffRowTo (simd : Simd) (mode : TileMode) (row curRow : DeltaBitmapRow) (width curY : Nat)
    (output : List UInt8) : List UInt8 :=
  diffLoop simd mode width curY width 0 (PixIterator.ofRow row) (PixIterator.ofRow curRow) output

end DeltaBitmapRow

/-! ### Bitmaps -/

/-- A `width` by `height` bitmap as a rectangle of a larger buffer. -/
structure Subbuffer (width height : Nat) where
  pixmap : List Pixel
  startX : Nat
  startY : Nat
  bufferWidth : Nat
  bufferHeight : Nat
  fits_width : startX + width ≤ bufferWidth
  fits_height : startY + height ≤ bufferHeight
  length_pixmap : pixmap.length = bufferHeight * bufferWidth

namespace Subbuffer

variable {width height : Nat}

def rowPixels (b : Subbuffer width height) (y : Nat) : List Pixel :=
  slice b.pixmap ((b.startY + y) * b.bufferWidth + b.startX) width

/-- All pixels of the bitmap, row by row. -/
def pixels (b : Subbuffer width height) : List Pixel := (List.range height).flatMap b.rowPixels

theorem length_rowPixels (b : Subbuffer width height) {y : Nat} (hy : y < height) :
    (b.rowPixels y).length = width := by
  apply length_slice
  have hrow : (b.startY + y + 1) * b.bufferWidth ≤ b.bufferHeight * b.bufferWidth :=
    Nat.mul_le_mul_right _ (by have := b.fits_height; omega)
  have := b.fits_width
  rw [b.length_pixmap]
  rw [Nat.succ_mul] at hrow
  omega

end Subbuffer

/-- `DeltaData`: a bitmap as compressed rows. -/
structure DeltaData where
  width : Nat
  height : Nat
  rows : List DeltaBitmapRow

namespace DeltaData

def getRow (data : DeltaData) (y : Nat) : DeltaBitmapRow := data.rows.getD y default

/-- The constructor, on the part of a pixmap that is the tile. -/
def ofPixmap (simd : Simd) {width height : Nat} (b : Subbuffer width height) : DeltaData :=
  ⟨width, height, (List.range height).map fun y => DeltaBitmapRow.initRow simd (b.rowPixels y)⟩

/-- The rows of a keyframe, as `compressOrDelta` feeds them to zstd. -/
def packKeyframe (simd : Simd) (mode : TileMode) (data : DeltaData) : List UInt8 :=
  (List.range data.height).flatMap fun y => (data.getRow y).packForNetwork simd mode

end DeltaData

/-! ### Deltas -/

/-- The sizes that `createDelta` does not refuse. -/
def createDeltaAccepts (width height : Nat) : Bool := !(width &&& 1 != 0) && !(width > 256 || height > 256)

/-- What the row loop of `makeDelta` carries. -/
structure DeltaOutput where
  output : List UInt8
  lastMatchOffset : Nat
  lastCopy : Nat

/-- The loop that hunts for a row of `prev` equal to row `y` of `cur`. -/
def huntRow (prev cur : DeltaData) (lastMatchOffset y : Nat) : Option Nat :=
  ((List.range prev.height).map fun yn => (y + lastMatchOffset + yn) % 2 ^ 64 % prev.height).find? fun found =>
    (prev.getRow found).identical (cur.getRow y)

/-- Whether the copy command at `lastCopy` can be made one row longer. -/
def extendsLastCopy (o : DeltaOutput) (found y height : Nat) : Bool :=
  let cnt := (o.output.getD o.lastCopy 0).toNat
  let src := (o.output.getD (o.lastCopy + 1) 0).toNat
  let dest := (o.output.getD (o.lastCopy + 2) 0).toNat
  o.lastCopy > 0 && (src + cnt == found && dest + cnt == y && src + cnt + 1 < height)

/-- `makeDelta` at a row that is copied from row `found` of the previous bitmap. -/
def pushCopy (o : DeltaOutput) (found y height : Nat) : DeltaOutput :=
  if extendsLastCopy o found y height then
    { o with output := o.output.set o.lastCopy (o.output.getD o.lastCopy 0 + 1) }
  else
    { output := o.output ++ [99, 1, UInt8.ofNat found, UInt8.ofNat y]
      lastMatchOffset := (found + 2 ^ 64 - y) % 2 ^ 64
      lastCopy := o.output.length + 1 }

/-- One round of the row loop of `makeDelta`. -/
def deltaRow (simd : Simd) (mode : TileMode) (prev cur : DeltaData) (o : DeltaOutput) (y : Nat) : DeltaOutput :=
  if (prev.getRow y).identical (cur.getRow y) then o
  else
    match huntRow prev cur o.lastMatchOffset y with
    | some found => pushCopy o found y prev.height
    | none =>
      { o with output := (prev.getRow y).diffRowTo simd mode (cur.getRow y) prev.width y o.output }

/-- `makeDelta`: the bytes of the delta, `none` for bitmaps of different sizes.  A delta without content is empty,
any other ends with a terminator. -/
def makeDelta (simd : Simd) (mode : TileMode) (prev cur : DeltaData) : Option (List UInt8) :=
  if prev.width != cur.width || prev.height != cur.height then none
  else
    let o := (List.range prev.height).foldl (deltaRow simd mode prev cur) ⟨[], 0, 0⟩
    if o.output.isEmpty then some [] else some (o.output ++ [116])

end CollaboraOnline
