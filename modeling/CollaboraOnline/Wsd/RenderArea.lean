import CollaboraOnline.Kit.TileQueue
import CollaboraOnline.Wsd.TileInvalidation

/-!
# The places of tiles in a rendered area

`doRender` renders the rectangle around the tiles of a request into one pixmap, and takes the pixels of each tile from
a place that it computes with two divisions.  The two axes are treated alike: `placed_iff` says for one of them when
the places are right.  Nothing that a request passes on its way checks that its tiles are on one grid.
-/

namespace CollaboraOnline

/-! ### One axis -/

namespace RenderAxis

/-- The end of a tile on the axis: what exceeds the largest `int` is dropped. -/
def endOf (pos size : Int) : Int := if pos + size ≤ intMax then pos + size else pos

/-- The hull of the tiles at some positions. -/
structure Hull (positions : List Int) (size left right : Int) : Prop where
  left_le : ∀ a ∈ positions, left ≤ a
  left_mem : left ∈ positions
  le_right : ∀ a ∈ positions, endOf a size ≤ right
  right_mem : ∃ a ∈ positions, endOf a size = right

/-- The number of tiles in the area, in pixels. -/
def pixmap (size pixels left right : Int) : Int := (right - left) / size * pixels

/-- Where the pixels of a tile start. -/
def offset (size pixels left a : Int) : Int := wrapInt ((a - left) / size * pixels)

/-- The pixels of the tile are in the pixmap, and are the image of the tile under the scaling of the area to the
pixmap. -/
structure Placed (size pixels left right a : Int) : Prop where
  lower : 0 ≤ offset size pixels left a
  upper : offset size pixels left a + pixels ≤ pixmap size pixels left right
  start : offset size pixels left a * (right - left) = (a - left) * pixmap size pixels left right
  extent : pixels * (right - left) = size * pixmap size pixels left right

/-- The tiles are on one grid, they do not end beyond the largest `int`, and nor do their offsets. -/
def OnGrid (positions : List Int) (size pixels : Int) : Prop :=
  ∀ a ∈ positions, ∀ b ∈ positions, size ∣ a - b ∧ a + size ≤ intMax ∧ (a - b) / size * pixels ≤ intMax

variable {positions : List Int} {size pixels left right a b : Int}

theorem endOf_of_le (h : a + size ≤ intMax) : endOf a size = a + size := if_pos h

theorem endOf_of_lt (h : intMax < a + size) : endOf a size = a := if_neg (by omega)

theorem offset_exact (hsize : 0 < size) (hpixels : 0 < pixels) (hle : left ≤ a)
    (h : (a - left) / size * pixels ≤ intMax) : offset size pixels left a = (a - left) / size * pixels := by
  have hquot : 0 ≤ (a - left) / size := Int.ediv_nonneg (by omega) hsize.le
  have hnonneg : 0 ≤ (a - left) / size * pixels := Int.mul_nonneg hquot hpixels.le
  rw [offset, wrapInt_of_nonneg hnonneg (by unfold intMax at h; omega), if_pos h]

/-- On a grid the area is a number of tiles. -/
theorem OnGrid.area (h : OnGrid positions size pixels) (hhull : Hull positions size left right) :
    ∃ m ∈ positions, right = m + size := by
  obtain ⟨m, hm, hend⟩ := hhull.right_mem
  rw [endOf_of_le (h m hm m hm).2.1] at hend
  exact ⟨m, hm, hend.symm⟩

theorem OnGrid.placed (h : OnGrid positions size pixels) (hsize : 0 < size) (hpixels : 0 < pixels)
    (hhull : Hull positions size left right) (ha : a ∈ positions) : Placed size pixels left right a := by
  obtain ⟨m, hm, rfl⟩ := h.area hhull
  obtain ⟨k, hk⟩ := (h a ha left hhull.left_mem).1
  obtain ⟨l, hl⟩ := (h m hm left hhull.left_mem).1
  have hla := hhull.left_le a ha
  have hlm := hhull.left_le m hm
  have hoffset := offset_exact hsize hpixels hla (h a ha left hhull.left_mem).2.2
  have hquot : (a - left) / size = k := by rw [hk, Int.mul_ediv_cancel_left _ hsize.ne']
  have harea : m + size - left = size * (l + 1) := by rw [mul_add, ← hl]; omega
  have hpixmap : pixmap size pixels left (m + size) = (l + 1) * pixels := by
    rw [pixmap, harea, Int.mul_ediv_cancel_left _ hsize.ne']
  have hkl : k ≤ l := by
    have hend := hhull.le_right a ha
    rw [endOf_of_le (h a ha a ha).2.1] at hend
    exact le_of_mul_le_mul_left (by omega : size * k ≤ size * l) hsize
  have hk0 : 0 ≤ k := by
    by_contra hneg
    have := Int.mul_neg_of_pos_of_neg hsize (by omega : k < 0)
    omega
  rw [hquot] at hoffset
  refine ⟨?_, ?_, ?_, ?_⟩
  · rw [hoffset]
    exact Int.mul_nonneg hk0 hpixels.le
  · rw [hoffset, hpixmap]
    have := Int.mul_le_mul_of_nonneg_right hkl hpixels.le
    rw [add_mul]
    omega
  · rw [hoffset, hpixmap, harea, hk]
    ring
  · rw [hpixmap, harea]
    ring

/-- A place that is right is a multiple of the pixels of a tile, and not wrapped. -/
theorem Placed.exact (h : Placed size pixels left right a) (hsize : 0 < size) (hpixels : 0 < pixels)
    (hmax : pixels ≤ intMax) : size ∣ a - left ∧ offset size pixels left a = (a - left) / size * pixels := by
  obtain ⟨hlower, hupper, hstart, hextent⟩ := h
  -- the area is a number of tiles, and there is one
  have harea : right - left = size * ((right - left) / size) := by
    have hcancel : pixels * (right - left) = pixels * (size * ((right - left) / size)) := by
      rw [hextent, pixmap]
      ring
    exact Int.eq_of_mul_eq_mul_left hpixels.ne' hcancel
  have hcount : 0 < (right - left) / size := by
    by_contra hno
    have := Int.mul_le_mul_of_nonneg_right (by omega : (right - left) / size ≤ 0) hpixels.le
    unfold pixmap at hupper
    omega
  have hscaled : offset size pixels left a * size = (a - left) * pixels := by
    have hcancel : (right - left) / size * (offset size pixels left a * size) =
        (right - left) / size * ((a - left) * pixels) := by
      have : offset size pixels left a * (size * ((right - left) / size)) =
          (a - left) * ((right - left) / size * pixels) := by
        rw [← harea]
        exact hstart
      calc (right - left) / size * (offset size pixels left a * size)
          = offset size pixels left a * (size * ((right - left) / size)) := by ring
        _ = (a - left) * ((right - left) / size * pixels) := this
        _ = (right - left) / size * ((a - left) * pixels) := by ring
    exact Int.eq_of_mul_eq_mul_left hcount.ne' hcancel
  -- the wrapped offset differs from the exact one by a multiple of 2^32, and by less than the pixels of a tile
  have hdiv := Int.mul_ediv_add_emod (a - left) size
  have hrem := Int.emod_nonneg (a - left) hsize.ne'
  have hlt := Int.emod_lt_of_pos (a - left) hsize
  obtain ⟨k, hk⟩ : ∃ k : Int, offset size pixels left a - (a - left) / size * pixels = 2 ^ 32 * k := by
    have hmod : ((2 ^ 32 : Nat) : Int) ∣ (a - left) / size * pixels - offset size pixels left a := by
      unfold offset wrapInt
      exact Int.dvd_self_sub_bmod
    obtain ⟨k, hk⟩ := hmod
    refine ⟨-k, ?_⟩
    have hpow : ((2 ^ 32 : Nat) : Int) = 2 ^ 32 := by norm_num
    rw [hpow] at hk
    linarith
  have hgap : (offset size pixels left a - (a - left) / size * pixels) * size = (a - left) % size * pixels := by
    have : (a - left) * pixels = (size * ((a - left) / size) + (a - left) % size) * pixels := by rw [hdiv]
    rw [sub_mul, hscaled, this]
    ring
  have hlow : 0 ≤ offset size pixels left a - (a - left) / size * pixels := by
    by_contra hneg
    have h1 := Int.mul_neg_of_neg_of_pos (by omega : offset size pixels left a - (a - left) / size * pixels < 0) hsize
    have h2 := Int.mul_nonneg hrem hpixels.le
    omega
  have hhigh : offset size pixels left a - (a - left) / size * pixels < pixels := by
    by_contra hge
    have h1 := Int.mul_le_mul_of_nonneg_right
      (by omega : pixels ≤ offset size pixels left a - (a - left) / size * pixels) hsize.le
    have h2 := Int.mul_lt_mul_of_pos_right hlt hpixels
    rw [hgap, mul_comm pixels size] at h1
    omega
  have hzero : offset size pixels left a - (a - left) / size * pixels = 0 := by
    unfold intMax at hmax
    omega
  rw [hzero, zero_mul] at hgap
  have hrem0 : (a - left) % size = 0 := by
    rcases Int.mul_eq_zero.1 hgap.symm with h | h
    · exact h
    · omega
  exact ⟨Int.dvd_of_emod_eq_zero hrem0, by omega⟩

theorem OnGrid.of_placed (hsize : 0 < size) (hpixels : 0 < pixels) (hmax : pixels ≤ intMax)
    (hhull : Hull positions size left right) (h : ∀ a ∈ positions, Placed size pixels left right a) :
    OnGrid positions size pixels := by
  have hexact : ∀ a ∈ positions, size ∣ a - left ∧ offset size pixels left a = (a - left) / size * pixels :=
    fun a ha => (h a ha).exact hsize hpixels hmax
  have hdvd : ∀ a ∈ positions, ∀ b ∈ positions, size ∣ a - b := by
    intro a ha b hb
    have := Int.dvd_sub (hexact a ha).1 (hexact b hb).1
    rwa [sub_sub_sub_cancel_right] at this
  intro a ha b hb
  refine ⟨hdvd a ha b hb, ?_, ?_⟩
  · -- a tile whose end is dropped is the last one, and is not counted
    by_contra hover
    obtain ⟨m, hm, hend⟩ := hhull.right_mem
    have hright : right ≤ m ∧ a ≤ m ∨ right ≤ a := by
      by_cases hfit : m + size ≤ intMax
      · right
        rw [endOf_of_le hfit] at hend
        obtain ⟨k, hk⟩ := hdvd a ha m hm
        have hpos : 0 < k := by
          by_contra hno
          have := Int.mul_le_mul_of_nonneg_left (by omega : k ≤ 0) hsize.le
          omega
        have := Int.mul_le_mul_of_nonneg_left (by omega : 1 ≤ k) hsize.le
        omega
      · rw [endOf_of_lt (by omega)] at hend
        rcases Int.le_total a m with hle | hle
        · exact .inl ⟨hend.symm.le, hle⟩
        · exact .inr (by omega)
    -- the tile `x` has no room in the area
    have hnone : ∀ x ∈ positions, right ≤ x → False := by
      intro x hx hle
      have hupper := (h x hx).upper
      rw [(hexact x hx).2, pixmap] at hupper
      have hmono := Int.mul_le_mul_of_nonneg_right
        (Int.ediv_le_ediv hsize (by omega : right - left ≤ x - left)) hpixels.le
      omega
    rcases hright with ⟨hle, -⟩ | hle
    · exact hnone m hm hle
    · exact hnone a ha hle
  · have hbounds := (wrapInt_bounds ((a - left) / size * pixels)).2
    have hoffset := (hexact a ha).2
    unfold offset at hoffset
    rw [hoffset] at hbounds
    have hmono := Int.mul_le_mul_of_nonneg_right
      (Int.ediv_le_ediv hsize (by have := hhull.left_le b hb; omega : a - b ≤ a - left)) hpixels.le
    omega

/-- The places are right exactly where the tiles are on one grid. -/
theorem placed_iff (hsize : 0 < size) (hpixels : 0 < pixels) (hmax : pixels ≤ intMax)
    (hhull : Hull positions size left right) :
    (∀ a ∈ positions, Placed size pixels left right a) ↔ OnGrid positions size pixels :=
  ⟨OnGrid.of_placed hsize hpixels hmax hhull, fun h _ ha => h.placed hsize hpixels hhull ha⟩

/-- Tiles at different positions of a grid do not share pixels. -/
theorem OnGrid.disjoint (h : OnGrid positions size pixels) (hsize : 0 < size) (hpixels : 0 < pixels)
    (hhull : Hull positions size left right) (ha : a ∈ positions) (hb : b ∈ positions) (hlt : a < b) :
    offset size pixels left a + pixels ≤ offset size pixels left b := by
  rw [offset_exact hsize hpixels (hhull.left_le a ha) (h a ha left hhull.left_mem).2.2,
    offset_exact hsize hpixels (hhull.left_le b hb) (h b hb left hhull.left_mem).2.2]
  obtain ⟨k, hk⟩ := (h a ha left hhull.left_mem).1
  obtain ⟨l, hl⟩ := (h b hb left hhull.left_mem).1
  rw [hk, hl, Int.mul_ediv_cancel_left _ hsize.ne', Int.mul_ediv_cancel_left _ hsize.ne']
  have hkl : k < l := lt_of_mul_lt_mul_left (by omega : size * k < size * l) hsize.le
  have := Int.mul_le_mul_of_nonneg_right (by omega : k + 1 ≤ l) hpixels.le
  rw [add_mul, one_mul] at this
  exact this

/-- On a grid, the pixmap has room for the tiles from any one to any other. -/
theorem OnGrid.pixmap_spec (h : OnGrid positions size pixels) (hsize : 0 < size) (hpixels : 0 < pixels)
    (hhull : Hull positions size left right) :
    (∃ a ∈ positions, ∃ b ∈ positions, b ≤ a ∧ pixmap size pixels left right = ((a - b) / size + 1) * pixels) ∧
      ∀ a ∈ positions, ∀ b ∈ positions, ((a - b) / size + 1) * pixels ≤ pixmap size pixels left right := by
  obtain ⟨m, hm, rfl⟩ := h.area hhull
  have harea : (m + size - left) / size = (m - left) / size + 1 := by
    rw [add_sub_right_comm, Int.add_ediv_of_dvd_right (dvd_refl size), Int.ediv_self hsize.ne']
  refine ⟨⟨m, hm, left, hhull.left_mem, hhull.left_le m hm, by rw [pixmap, harea]⟩, fun a ha b hb => ?_⟩
  have hend := hhull.le_right a ha
  rw [endOf_of_le (h a ha a ha).2.1] at hend
  have hdiv := Int.ediv_le_ediv hsize (by have := hhull.left_le b hb; omega : a - b ≤ m - left)
  rw [pixmap, harea]
  exact Int.mul_le_mul_of_nonneg_right (by omega) hpixels.le

end RenderAxis

/-! ### The area -/

namespace Util.Rectangle

/-- Grow the rectangle to enclose the given one. -/
def extend (r rectangle : Rectangle) : Rectangle where
  x1 := if rectangle.x1 < r.x1 then rectangle.x1 else r.x1
  x2 := if r.x2 < rectangle.x2 then rectangle.x2 else r.x2
  y1 := if rectangle.y1 < r.y1 then rectangle.y1 else r.y1
  y2 := if r.y2 < rectangle.y2 then rectangle.y2 else r.y2

/-- The rectangle around some rectangles. -/
structure Encloses (area : Rectangle) (rects : List Rectangle) : Prop where
  x1_le : ∀ r ∈ rects, area.x1 ≤ r.x1
  y1_le : ∀ r ∈ rects, area.y1 ≤ r.y1
  le_x2 : ∀ r ∈ rects, r.x2 ≤ area.x2
  le_y2 : ∀ r ∈ rects, r.y2 ≤ area.y2
  x1_mem : ∃ r ∈ rects, r.x1 = area.x1
  y1_mem : ∃ r ∈ rects, r.y1 = area.y1
  x2_mem : ∃ r ∈ rects, r.x2 = area.x2
  y2_mem : ∃ r ∈ rects, r.y2 = area.y2

theorem encloses_singleton (r : Rectangle) : Encloses r [r] := by
  constructor <;> simp

theorem Encloses.extend {area : Rectangle} {rects : List Rectangle} (h : Encloses area rects) (r : Rectangle) :
    Encloses (area.extend r) (rects ++ [r]) := by
  have hmem : ∀ {p : Rectangle → Prop}, (∀ r ∈ rects, p r) → p r → ∀ other ∈ rects ++ [r], p other := by
    intro p hrects hr other hother
    rcases List.mem_append.1 hother with hother | hother
    · exact hrects other hother
    · rw [List.mem_singleton.1 hother]
      exact hr
  have hold : ∀ {p : Rectangle → Prop}, (∃ r ∈ rects, p r) → ∃ other ∈ rects ++ [r], p other :=
    fun ⟨other, hother, hp⟩ => ⟨other, List.mem_append_left _ hother, hp⟩
  have hnew : ∀ {p : Rectangle → Prop}, p r → ∃ other ∈ rects ++ [r], p other := fun hp => ⟨r, by simp, hp⟩
  unfold Rectangle.extend
  refine ⟨hmem (fun other hother => ?_) ?_, hmem (fun other hother => ?_) ?_, hmem (fun other hother => ?_) ?_,
    hmem (fun other hother => ?_) ?_, ?_, ?_, ?_, ?_⟩
  · have := h.x1_le other hother
    dsimp only
    split <;> omega
  · dsimp only
    split <;> omega
  · have := h.y1_le other hother
    dsimp only
    split <;> omega
  · dsimp only
    split <;> omega
  · have := h.le_x2 other hother
    dsimp only
    split <;> omega
  · dsimp only
    split <;> omega
  · have := h.le_y2 other hother
    dsimp only
    split <;> omega
  · dsimp only
    split <;> omega
  · dsimp only
    split
    · exact hnew rfl
    · exact hold h.x1_mem
  · dsimp only
    split
    · exact hnew rfl
    · exact hold h.y1_mem
  · dsimp only
    split
    · exact hnew rfl
    · exact hold h.x2_mem
  · dsimp only
    split
    · exact hnew rfl
    · exact hold h.y2_mem

theorem foldl_extend {area : Rectangle} {seen : List Rectangle} (h : Encloses area seen) (rects : List Rectangle) :
    Encloses (rects.foldl Rectangle.extend area) (seen ++ rects) := by
  induction rects generalizing area seen with
  | nil => simpa using h
  | cons r rects ih =>
    have := ih (h.extend r)
    rwa [List.append_assoc, List.singleton_append] at this

end Util.Rectangle

open Util (Rectangle)

/-! ### The request -/

namespace RenderTiles

def tileRect (c : TileCombined) (tile : TileDesc) : Rectangle :=
  .ofExtent tile.tilePosX tile.tilePosY c.tileWidth c.tileHeight

/-- The area we cover. -/
def renderArea (c : TileCombined) : Rectangle :=
  match c.tiles.map (tileRect c) with
  | [] => ⟨intMax, intMax, -intMax - 1, -intMax - 1⟩
  | first :: rects => rects.foldl Rectangle.extend first

def tilesByX (c : TileCombined) : Int := (renderArea c).getWidth / c.tileWidth

def tilesByY (c : TileCombined) : Int := (renderArea c).getHeight / c.tileHeight

def pixmapWidth (c : TileCombined) : Int := tilesByX c * c.width

def pixmapHeight (c : TileCombined) : Int := tilesByY c * c.height

/-- The pixels that the buffer has: `calloc` gives nothing where their bytes are not counted by 64 bits. -/
def allocated (c : TileCombined) : Int :=
  let pixels := pixmapWidth c * pixmapHeight c % 2 ^ 64
  if pixels * 4 < 2 ^ 64 then pixels else 0

def offsetX (c : TileCombined) (tile : TileDesc) : Int :=
  wrapInt (((tileRect c tile).getLeft - (renderArea c).getLeft) / c.tileWidth * c.width)

def offsetY (c : TileCombined) (tile : TileDesc) : Int :=
  wrapInt (((tileRect c tile).getTop - (renderArea c).getTop) / c.tileHeight * c.height)

/-- What the constructors check: tiles with the parameters of the request, whose numbers are those of `int`s. -/
structure Accepted (c : TileCombined) : Prop where
  nonempty : c.tiles ≠ []
  valid : ∀ tile ∈ c.tiles, tile.isValid = true
  params : ∀ tile ∈ c.tiles, tile.combineParams = c.toCombineParams
  fits : ∀ tile ∈ c.tiles, tile.tilePosX ≤ intMax ∧ tile.tilePosY ≤ intMax
  size : c.width ≤ intMax ∧ c.height ≤ intMax

/-- The pixels of every tile are in the pixmap, they are the scaled image of its rectangle in the area, and no two
tiles share any. -/
structure SubRectangles (c : TileCombined) : Prop where
  inside : ∀ tile ∈ c.tiles, 0 ≤ offsetX c tile ∧ offsetX c tile + c.width ≤ pixmapWidth c ∧
    0 ≤ offsetY c tile ∧ offsetY c tile + c.height ≤ pixmapHeight c
  allocated : allocated c = pixmapWidth c * pixmapHeight c
  image : ∀ tile ∈ c.tiles,
    offsetX c tile * (renderArea c).getWidth = (tile.tilePosX - (renderArea c).getLeft) * pixmapWidth c ∧
      c.width * (renderArea c).getWidth = c.tileWidth * pixmapWidth c ∧
        offsetY c tile * (renderArea c).getHeight = (tile.tilePosY - (renderArea c).getTop) * pixmapHeight c ∧
          c.height * (renderArea c).getHeight = c.tileHeight * pixmapHeight c
  disjoint : ∀ a ∈ c.tiles, ∀ b ∈ c.tiles, a.tilePosX ≠ b.tilePosX ∨ a.tilePosY ≠ b.tilePosY →
    offsetX c a + c.width ≤ offsetX c b ∨ offsetX c b + c.width ≤ offsetX c a ∨
      offsetY c a + c.height ≤ offsetY c b ∨ offsetY c b + c.height ≤ offsetY c a

/-- The tiles are on one grid of their size, none ends beyond the largest `int`, and the pixels up to any tile can be
counted: by an `int` on each axis, and their bytes by 64 bits. -/
structure Aligned (c : TileCombined) : Prop where
  x : ∀ a ∈ c.tiles, ∀ b ∈ c.tiles, c.tileWidth ∣ a.tilePosX - b.tilePosX ∧ a.tilePosX + c.tileWidth ≤ intMax ∧
    (a.tilePosX - b.tilePosX) / c.tileWidth * c.width ≤ intMax
  y : ∀ a ∈ c.tiles, ∀ b ∈ c.tiles, c.tileHeight ∣ a.tilePosY - b.tilePosY ∧ a.tilePosY + c.tileHeight ≤ intMax ∧
    (a.tilePosY - b.tilePosY) / c.tileHeight * c.height ≤ intMax
  pixels : ∀ a ∈ c.tiles, ∀ b ∈ c.tiles, ∀ a' ∈ c.tiles, ∀ b' ∈ c.tiles, b.tilePosX ≤ a.tilePosX →
    b'.tilePosY ≤ a'.tilePosY → ((a.tilePosX - b.tilePosX) / c.tileWidth + 1) * c.width *
      (((a'.tilePosY - b'.tilePosY) / c.tileHeight + 1) * c.height) < 2 ^ 62

variable {c : TileCombined} {params : CombineParams} {fields : List TileFields} {tile : TileDesc}

open RenderAxis (Hull OnGrid Placed)

theorem encloses_renderArea (hne : c.tiles ≠ []) : (renderArea c).Encloses (c.tiles.map (tileRect c)) := by
  unfold renderArea
  cases hmap : c.tiles.map (tileRect c) with
  | nil => exact absurd (List.map_eq_nil_iff.1 hmap) hne
  | cons first rects => exact Rectangle.foldl_extend (Rectangle.encloses_singleton first) rects

theorem hull_x (hne : c.tiles ≠ []) :
    Hull (c.tiles.map fun tile => tile.tilePosX) c.tileWidth (renderArea c).x1 (renderArea c).x2 := by
  have h := encloses_renderArea hne
  constructor
  · simpa [tileRect, Rectangle.ofExtent] using h.x1_le
  · simpa [tileRect, Rectangle.ofExtent] using h.x1_mem
  · simpa [tileRect, Rectangle.ofExtent, RenderAxis.endOf] using h.le_x2
  · simpa [tileRect, Rectangle.ofExtent, RenderAxis.endOf] using h.x2_mem

theorem hull_y (hne : c.tiles ≠ []) :
    Hull (c.tiles.map fun tile => tile.tilePosY) c.tileHeight (renderArea c).y1 (renderArea c).y2 := by
  have h := encloses_renderArea hne
  constructor
  · simpa [tileRect, Rectangle.ofExtent] using h.y1_le
  · simpa [tileRect, Rectangle.ofExtent] using h.y1_mem
  · simpa [tileRect, Rectangle.ofExtent, RenderAxis.endOf] using h.le_y2
  · simpa [tileRect, Rectangle.ofExtent, RenderAxis.endOf] using h.y2_mem

theorem Accepted.sizes (h : Accepted c) : 0 < c.tileWidth ∧ 0 < c.tileHeight ∧ 0 < c.width ∧ 0 < c.height := by
  obtain ⟨tile, htile⟩ := List.exists_mem_of_ne_nil _ h.nonempty
  obtain ⟨-, -, -, hwidth, hheight, -, -, htileWidth, htileHeight, -⟩ := TileDesc.isValid_iff.1 (h.valid tile htile)
  have hparams := h.params tile htile
  rw [← hparams]
  exact ⟨htileWidth, htileHeight, hwidth, hheight⟩

theorem hull_le {positions : List Int} {size left right : Int} (h : Hull positions size left right)
    (hsize : 0 < size) : left ≤ right := by
  have hend := h.le_right left h.left_mem
  unfold RenderAxis.endOf at hend
  split at hend <;> omega

theorem getWidth_eq (h : Accepted c) : (renderArea c).getWidth = (renderArea c).x2 - (renderArea c).x1 := by
  have hle := hull_le (hull_x h.nonempty) h.sizes.1
  unfold Rectangle.getWidth
  rw [if_pos (by unfold intMax; omega)]

theorem getHeight_eq (h : Accepted c) : (renderArea c).getHeight = (renderArea c).y2 - (renderArea c).y1 := by
  have hle := hull_le (hull_y h.nonempty) h.sizes.2.1
  unfold Rectangle.getHeight
  rw [if_pos (by unfold intMax; omega)]

theorem pixmapWidth_eq (h : Accepted c) :
    pixmapWidth c = RenderAxis.pixmap c.tileWidth c.width (renderArea c).x1 (renderArea c).x2 := by
  rw [pixmapWidth, tilesByX, getWidth_eq h, RenderAxis.pixmap]

theorem pixmapHeight_eq (h : Accepted c) :
    pixmapHeight c = RenderAxis.pixmap c.tileHeight c.height (renderArea c).y1 (renderArea c).y2 := by
  rw [pixmapHeight, tilesByY, getHeight_eq h, RenderAxis.pixmap]

theorem Aligned.onGrid_x (h : Aligned c) : OnGrid (c.tiles.map fun tile => tile.tilePosX) c.tileWidth c.width := by
  intro a ha b hb
  obtain ⟨s, hs, rfl⟩ := List.mem_map.1 ha
  obtain ⟨t, ht, rfl⟩ := List.mem_map.1 hb
  exact h.x s hs t ht

theorem Aligned.onGrid_y (h : Aligned c) : OnGrid (c.tiles.map fun tile => tile.tilePosY) c.tileHeight c.height := by
  intro a ha b hb
  obtain ⟨s, hs, rfl⟩ := List.mem_map.1 ha
  obtain ⟨t, ht, rfl⟩ := List.mem_map.1 hb
  exact h.y s hs t ht

theorem SubRectangles.of_aligned (hc : Accepted c) (h : Aligned c) : SubRectangles c := by
  obtain ⟨htileWidth, htileHeight, hwidth, hheight⟩ := hc.sizes
  have hhullX := hull_x hc.nonempty
  have hhullY := hull_y hc.nonempty
  have hx : ∀ tile ∈ c.tiles, Placed c.tileWidth c.width (renderArea c).x1 (renderArea c).x2 tile.tilePosX :=
    fun tile htile => h.onGrid_x.placed htileWidth hwidth hhullX (List.mem_map_of_mem htile)
  have hy : ∀ tile ∈ c.tiles, Placed c.tileHeight c.height (renderArea c).y1 (renderArea c).y2 tile.tilePosY :=
    fun tile htile => h.onGrid_y.placed htileHeight hheight hhullY (List.mem_map_of_mem htile)
  refine ⟨fun tile htile => ?_, ?_, fun tile htile => ?_, fun a ha b hb hne => ?_⟩
  · rw [pixmapWidth_eq hc, pixmapHeight_eq hc]
    exact ⟨(hx tile htile).lower, (hx tile htile).upper, (hy tile htile).lower, (hy tile htile).upper⟩
  · obtain ⟨⟨x, hxa, x', hxb, hxle, hX⟩, -⟩ := h.onGrid_x.pixmap_spec htileWidth hwidth hhullX
    obtain ⟨⟨y, hya, y', hyb, hyle, hY⟩, -⟩ := h.onGrid_y.pixmap_spec htileHeight hheight hhullY
    obtain ⟨a, ha, rfl⟩ := List.mem_map.1 hxa
    obtain ⟨b, hb, rfl⟩ := List.mem_map.1 hxb
    obtain ⟨a', ha', rfl⟩ := List.mem_map.1 hya
    obtain ⟨b', hb', rfl⟩ := List.mem_map.1 hyb
    have hlt := h.pixels a ha b hb a' ha' b' hb' hxle hyle
    have hX0 := Int.ediv_nonneg (by omega : 0 ≤ a.tilePosX - b.tilePosX) htileWidth.le
    have hY0 := Int.ediv_nonneg (by omega : 0 ≤ a'.tilePosY - b'.tilePosY) htileHeight.le
    rw [RenderTiles.allocated, pixmapWidth_eq hc, pixmapHeight_eq hc, hX, hY]
    rw [Int.emod_eq_of_lt (by positivity) (by omega), if_pos (by omega)]
  · rw [pixmapWidth_eq hc, pixmapHeight_eq hc, getWidth_eq hc, getHeight_eq hc]
    exact ⟨(hx tile htile).start, (hx tile htile).extent, (hy tile htile).start, (hy tile htile).extent⟩
  · have hxs : ∀ a ∈ c.tiles, ∀ b ∈ c.tiles, a.tilePosX < b.tilePosX → offsetX c a + c.width ≤ offsetX c b :=
      fun a ha b hb hlt =>
        h.onGrid_x.disjoint htileWidth hwidth hhullX (List.mem_map_of_mem ha) (List.mem_map_of_mem hb) hlt
    have hys : ∀ a ∈ c.tiles, ∀ b ∈ c.tiles, a.tilePosY < b.tilePosY → offsetY c a + c.height ≤ offsetY c b :=
      fun a ha b hb hlt =>
        h.onGrid_y.disjoint htileHeight hheight hhullY (List.mem_map_of_mem ha) (List.mem_map_of_mem hb) hlt
    rcases hne with hne | hne
    · rcases lt_or_gt_of_ne hne with hlt | hlt
      · exact .inl (hxs a ha b hb hlt)
      · exact .inr (.inl (hxs b hb a ha hlt))
    · rcases lt_or_gt_of_ne hne with hlt | hlt
      · exact .inr (.inr (.inl (hys a ha b hb hlt)))
      · exact .inr (.inr (.inr (hys b hb a ha hlt)))

theorem Aligned.of_subRectangles (hc : Accepted c) (h : SubRectangles c) : Aligned c := by
  obtain ⟨htileWidth, htileHeight, hwidth, hheight⟩ := hc.sizes
  have hhullX := hull_x hc.nonempty
  have hhullY := hull_y hc.nonempty
  have hinside := h.inside
  have himage := h.image
  have hallocated := h.allocated
  rw [pixmapWidth_eq hc, pixmapHeight_eq hc] at hinside hallocated
  rw [pixmapWidth_eq hc, pixmapHeight_eq hc, getWidth_eq hc, getHeight_eq hc] at himage
  have hx : OnGrid (c.tiles.map fun tile => tile.tilePosX) c.tileWidth c.width := by
    refine OnGrid.of_placed htileWidth hwidth hc.size.1 hhullX fun a ha => ?_
    obtain ⟨tile, htile, rfl⟩ := List.mem_map.1 ha
    exact ⟨(hinside tile htile).1, (hinside tile htile).2.1, (himage tile htile).1, (himage tile htile).2.1⟩
  have hy : OnGrid (c.tiles.map fun tile => tile.tilePosY) c.tileHeight c.height := by
    refine OnGrid.of_placed htileHeight hheight hc.size.2 hhullY fun a ha => ?_
    obtain ⟨tile, htile, rfl⟩ := List.mem_map.1 ha
    exact ⟨(hinside tile htile).2.2.1, (hinside tile htile).2.2.2, (himage tile htile).2.2.1,
      (himage tile htile).2.2.2⟩
  refine ⟨fun a ha b hb => hx _ (List.mem_map_of_mem ha) _ (List.mem_map_of_mem hb),
    fun a ha b hb => hy _ (List.mem_map_of_mem ha) _ (List.mem_map_of_mem hb),
      fun a ha b hb a' ha' b' hb' hle hle' => ?_⟩
  have hX := (hx.pixmap_spec htileWidth hwidth hhullX).2 _ (List.mem_map_of_mem ha) _ (List.mem_map_of_mem hb)
  have hY := (hy.pixmap_spec htileHeight hheight hhullY).2 _ (List.mem_map_of_mem ha') _ (List.mem_map_of_mem hb')
  have hX0 := Int.ediv_nonneg (by omega : 0 ≤ a.tilePosX - b.tilePosX) htileWidth.le
  have hY0 := Int.ediv_nonneg (by omega : 0 ≤ a'.tilePosY - b'.tilePosY) htileHeight.le
  have hlt : RenderAxis.pixmap c.tileWidth c.width (renderArea c).x1 (renderArea c).x2 *
      RenderAxis.pixmap c.tileHeight c.height (renderArea c).y1 (renderArea c).y2 < 2 ^ 62 := by
    rw [← hallocated, RenderTiles.allocated]
    split <;> omega
  have hnonneg : 0 ≤ ((a.tilePosX - b.tilePosX) / c.tileWidth + 1) * c.width := by positivity
  have hmul := mul_le_mul hX hY (by positivity) (hnonneg.trans hX)
  exact hmul.trans_lt hlt

/-- The sub-rectangles of a request that the constructors accept are right exactly where its tiles are on one grid. -/
theorem Accepted.iff_aligned (hc : Accepted c) : SubRectangles c ↔ Aligned c :=
  ⟨Aligned.of_subRectangles hc, SubRectangles.of_aligned hc⟩

end RenderTiles

/-! ### The requests that are rendered -/

namespace KitQueue

open RenderTiles (Accepted SubRectangles Aligned)

/-- A tile that the constructor accepts, with the numbers of `int`s. -/
structure TileOk (tile : TileDesc) : Prop where
  valid : tile.isValid = true
  fits : tile.tilePosX ≤ intMax ∧ tile.tilePosY ≤ intMax
  size : tile.width ≤ intMax ∧ tile.height ≤ intMax

/-- The tiles that an event pushes. -/
def Event.tiles : Event → List TileDesc
  | .pushTileQueue desc => [desc]
  | .pushTileCombineRequest params fields => fields.map (TileCombined.tileOf params)
  | .popTileQueue _ => []
  | .clearTileQueue => []

/-- The numbers of the tiles are those of `int`s. -/
def InInt (_ : KitQueue) (e : Event) : Prop :=
  ∀ tile ∈ e.tiles, tile.tilePosY ≤ intMax ∧ tile.width ≤ intMax ∧ tile.height ≤ intMax

def TilesOk (q : KitQueue) : Prop := ∀ queue ∈ q.tileQueues, ∀ tile ∈ queue.2, TileOk tile

variable {q q' : KitQueue} {e : Event} {prio : TilePrioritizer} {c : TileCombined} {priority : Priority}
  {desc : TileDesc}

theorem popTileQueue_mem (h : q.popTileQueue prio = some (c, priority, q')) :
    ∃ queue ∈ q.tileQueues, ∃ remaining i, popFrom prio.getTilePriority queue.2 = some (c, priority, remaining) ∧
      q' = ⟨q.tileQueues.set i (queue.1, remaining)⟩ := by
  simp only [popTileQueue] at h
  split at h
  · cases h
  · rename_i i hi
    split at h
    · cases h
    · rename_i queue hqueue
      obtain ⟨popped, hpop, heq⟩ := Option.map_eq_some_iff.1 h
      cases heq
      exact ⟨queue, List.mem_of_getElem? hqueue, popped.2.2, i, hpop, rfl⟩

theorem tileOk_of_requested (hrequested : requested desc = true)
    (hint : desc.tilePosY ≤ intMax ∧ desc.width ≤ intMax ∧ desc.height ≤ intMax) : TileOk desc := by
  simp only [requested, Bool.and_eq_true, decide_eq_true_eq] at hrequested
  exact ⟨hrequested.1.1, ⟨hrequested.1.2, hint.1⟩, hint.2⟩

theorem foldl_tileOk {tiles tileQueue : List TileDesc} (h : ∀ tile ∈ tileQueue, TileOk tile)
    (htiles : ∀ tile ∈ tiles, TileOk tile) :
    ∀ tile ∈ tiles.foldl (SortedVector.sortedInsert TileDesc.tie) tileQueue, TileOk tile := by
  induction tiles generalizing tileQueue with
  | nil => exact h
  | cons desc tiles ih =>
    refine ih (fun tile htile => ?_) fun tile htile => htiles tile (List.mem_cons_of_mem desc htile)
    rcases SortedVector.mem_sortedInsert htile with rfl | htile
    · exact htiles tile (by simp)
    · exact h tile htile

theorem step_tilesOk (h : q.TilesOk) (hint : q.InInt e) (hs : q.step e = some q') : q'.TilesOk := by
  cases e with
  | pushTileQueue desc =>
    simp only [step] at hs
    split at hs
    · rename_i hrequested
      cases hs
      refine updateTileQueue_all (p := fun _ tileQueue => ∀ tile ∈ tileQueue, TileOk tile) (by simp) h
        fun tileQueue hqueue tile htile => ?_
      rcases SortedVector.mem_sortedInsert htile with rfl | htile
      · exact tileOk_of_requested hrequested (hint tile (by simp [Event.tiles]))
      · exact hqueue tile htile
    · cases hs
  | pushTileCombineRequest params fields =>
    obtain ⟨tileCombined, hcombined, hs⟩ := Option.bind_eq_some_iff.1 hs
    split at hs
    · rename_i hrequested
      cases hs
      have htiles : tileCombined.tiles = fields.map (TileCombined.tileOf params) := by
        simp only [TileCombined.ofFields] at hcombined
        split at hcombined
        · cases hcombined
        · split at hcombined
          · cases hcombined
            rfl
          · cases hcombined
      refine updateTileQueue_all (p := fun _ tileQueue => ∀ tile ∈ tileQueue, TileOk tile) (by simp) h
        fun tileQueue hqueue => foldl_tileOk hqueue fun tile htile => ?_
      exact tileOk_of_requested (List.all_eq_true.1 hrequested tile htile) (hint tile (by rwa [htiles] at htile))
    · cases hs
  | popTileQueue prio =>
    simp only [step] at hs
    split at hs
    · cases hs
    · obtain ⟨⟨c, priority, remaining⟩, hpop, rfl⟩ := Option.map_eq_some_iff.1 hs
      obtain ⟨queue, hqueue, kept, i, hfrom, rfl⟩ := popTileQueue_mem hpop
      intro other hother tile htile
      rcases List.mem_or_eq_of_mem_set hother with hother | rfl
      · exact h other hother tile htile
      · exact h queue hqueue tile ((popFrom_mem hfrom).2 tile htile)
  | clearTileQueue =>
    cases hs
    intro queue hqueue
    cases hqueue

theorem accepted_ofTile {tile : TileDesc} (h : TileOk tile) : Accepted (.ofTile tile) := by
  have hone : ∀ t ∈ (TileCombined.ofTile tile).tiles, t = tile := fun t ht => List.mem_singleton.1 ht
  refine ⟨by simp [TileCombined.ofTile], fun t ht => ?_, fun t ht => ?_, fun t ht => ?_, h.size⟩
  · rw [hone t ht]
    exact h.valid
  · rw [hone t ht]
    rfl
  · rw [hone t ht]
    exact h.fits

theorem accepted_create {first : TileDesc} {tiles : List TileDesc} (h : ∀ tile ∈ first :: tiles, TileOk tile)
    (hc : TileCombined.create first tiles = some c) : Accepted c := by
  simp only [TileCombined.create, TileCombined.ofFields] at hc
  split at hc
  · cases hc
  · split at hc
    · rename_i hvalid
      cases hc
      refine ⟨by simp, fun tile htile => List.all_eq_true.1 hvalid tile htile, fun tile htile => ?_,
        fun tile htile => ?_, (h first (by simp)).size⟩
      · obtain ⟨fields, -, rfl⟩ := List.mem_map.1 htile
        rfl
      · obtain ⟨fields, hfields, rfl⟩ := List.mem_map.1 htile
        obtain ⟨desc, hdesc, rfl⟩ := List.mem_map.1 hfields
        exact (h desc hdesc).fits
    · cases hc

theorem accepted_of_combination {tiles : List TileDesc} (h : ∀ tile ∈ tiles, TileOk tile)
    (hc : combination tiles = some c) : Accepted c := by
  rcases tiles with _ | ⟨first, _ | ⟨second, rest⟩⟩
  · cases hc
  · cases hc
    exact accepted_ofTile (h first (by simp))
  · exact accepted_create h hc

theorem accepted_of_popped (h : Run.Reachable (fun q => q = {}) step InInt q)
    (hpop : q.popTileQueue prio = some (c, priority, q')) : Accepted c := by
  have hok : q.TilesOk := by
    refine h.invariant TilesOk ?_ fun q e q' _ hinv hint hs => step_tilesOk hinv hint hs
    rintro q rfl queue hqueue
    cases hqueue
  obtain ⟨queue, hqueue, remaining, i, hfrom, -⟩ := popTileQueue_mem hpop
  obtain ⟨tiles, hcombination, htiles⟩ := (popFrom_mem hfrom).1
  exact accepted_of_combination (fun tile htile => hok queue hqueue tile (htiles tile htile)) hcombination

/-- In every run, the sub-rectangles of what is popped are right exactly where its tiles are on one grid. -/
theorem subRectangles_iff (h : Run.Reachable (fun q => q = {}) step InInt q)
    (hpop : q.popTileQueue prio = some (c, priority, q')) : SubRectangles c ↔ Aligned c :=
  (accepted_of_popped h hpop).iff_aligned

/-- Three tiles of two rows, of which none is at the corner of the area. -/
def cornerTiles : List Event :=
  [.pushTileQueue { tileAt 0 4 with tilePosY := 3840 }, .pushTileQueue { tileAt 0 2 with tilePosY := 7680 },
    .pushTileQueue { tileAt 0 5 with tilePosY := 7680 }]

theorem subRectangles_iff_row : ∃ q c priority q', Run.run step {} cornerTiles = some q ∧
    q.popTileQueue urgentSecond = some (c, priority, q') ∧ c.tiles.length = 3 ∧ SubRectangles c ∧ Aligned c := by
  obtain ⟨q, c, priority, q', hrun, hpop, htiles, hsizes⟩ : ∃ q c priority q', Run.run step {} cornerTiles = some q ∧
      q.popTileQueue urgentSecond = some (c, priority, q') ∧
        c.tiles = [{ tileAt 0 4 with tilePosY := 3840 }, { tileAt 0 2 with tilePosY := 7680 },
          { tileAt 0 5 with tilePosY := 7680 }] ∧
        (c.tileWidth, c.tileHeight, c.width, c.height) = (3840, 3840, 256, 256) :=
    ⟨_, _, _, _, rfl, rfl, rfl, rfl⟩
  simp only [Prod.mk.injEq] at hsizes
  obtain ⟨htileWidth, htileHeight, hwidth, hheight⟩ := hsizes
  have hreach : Run.Reachable (fun q => q = {}) step InInt q :=
    .of_run_of_ok (.start rfl) (by simp [cornerTiles, InInt, Event.tiles, tileAt, intMax]) hrun
  have haligned : Aligned c := by
    constructor
    · rw [htiles, htileWidth, hwidth]
      decide
    · rw [htiles, htileHeight, hheight]
      decide
    · rw [htiles, htileWidth, hwidth, htileHeight, hheight]
      decide
  exact ⟨q, c, priority, q', hrun, hpop, by rw [htiles]; rfl, (subRectangles_iff hreach hpop).2 haligned, haligned⟩

/-- Nothing checks that the tiles are on one grid: a tile that starts inside another one gets its pixels. -/
theorem not_subRectangles : ¬ ∀ q : KitQueue, Run.Reachable (fun q => q = {}) step InInt q →
    ∀ prio c priority q', q.popTileQueue prio = some (c, priority, q') → SubRectangles c := by
  intro hall
  have hreach : Run.Reachable (fun q => q = {}) step InInt
      ((({} : KitQueue).pushTileQueue (tileAt 0 0)).pushTileQueue { tileAt 0 0 with tilePosX := 100 }) :=
    .next (e := .pushTileQueue { tileAt 0 0 with tilePosX := 100 })
      (.next (e := .pushTileQueue (tileAt 0 0)) (.start rfl) (by simp [InInt, Event.tiles, tileAt, intMax]) rfl)
      (by simp [InInt, Event.tiles, tileAt, intMax]) rfl
  obtain ⟨c, q', hpop, htiles, hwidth⟩ : ∃ c q', KitQueue.popTileQueue
      ((({} : KitQueue).pushTileQueue (tileAt 0 0)).pushTileQueue { tileAt 0 0 with tilePosX := 100 }) urgentSecond =
        some (c, .NORMAL, q') ∧ c.tiles = [tileAt 0 0, { tileAt 0 0 with tilePosX := 100 }] ∧ c.tileWidth = 3840 :=
    ⟨_, _, rfl, rfl, rfl⟩
  have haligned :=
    Aligned.of_subRectangles (accepted_of_popped hreach hpop) (hall _ hreach urgentSecond c .NORMAL q' hpop)
  have hdvd := (haligned.x _ (by rw [htiles]; exact .tail _ (.head _)) _ (by rw [htiles]; exact .head _)).1
  rw [hwidth] at hdvd
  exact absurd hdvd (by decide)

end KitQueue

end CollaboraOnline
