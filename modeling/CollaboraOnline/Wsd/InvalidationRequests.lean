import CollaboraOnline.Kit.TileQueue
import CollaboraOnline.Wsd.TileInvalidation

/-!
# Tiles to request after an invalidation

When a rectangle of the document was invalidated, the session requests the tiles of the grid that meet it in the panes
of its client's view.  A tile that is not in the cache is requested as a keyframe.
-/

namespace CollaboraOnline

open Util (Rectangle)

/-! ### Rectangles -/

namespace Util.Rectangle

/-- The default rectangle: its extremes are inverse. -/
def inverse : Rectangle := ⟨intMax, intMax, -intMax - 1, -intMax - 1⟩

def hasSurface (r : Rectangle) : Bool := r.x1 < r.x2 && r.y1 < r.y2

def intersects (r other : Rectangle) : Bool :=
  let x1 := max r.x1 other.x1
  let y1 := max r.y1 other.y1
  let x2 := min r.x2 other.x2
  let y2 := min r.y2 other.y2
  x1 ≤ x2 && y1 ≤ y2

/-- The points of the rectangle. -/
def Contains (r : Rectangle) (px py : Int) : Prop := r.x1 ≤ px ∧ px < r.x2 ∧ r.y1 ≤ py ∧ py < r.y2

instance (r : Rectangle) (px py : Int) : Decidable (r.Contains px py) := by
  unfold Contains
  infer_instance

/-- Rectangles with a common point intersect. -/
theorem intersects_of_contains {r other : Rectangle} {px py : Int} (h : r.Contains px py)
    (h' : other.Contains px py) : r.intersects other = true := by
  obtain ⟨hx, hx', hy, hy'⟩ := h
  obtain ⟨hox, hox', hoy, hoy'⟩ := h'
  simp only [intersects, Bool.and_eq_true, decide_eq_true_eq]
  constructor <;> omega

end Util.Rectangle

/-! ### The view of the client -/

inductive SplitPaneName where
  | TOPLEFT_PANE
  | TOPRIGHT_PANE
  | BOTTOMLEFT_PANE
  | BOTTOMRIGHT_PANE
deriving DecidableEq

/-- What a session knows of the view of its client. -/
structure ClientView where
  canonicalViewId : Int
  clientVisibleArea : Rectangle
  splitX : Int
  splitY : Int
  clientSelectedPart : Int
  clientSelectedMode : Int
  tileWidthPixel : Int
  tileHeightPixel : Int
  tileWidthTwips : Int
  tileHeightTwips : Int
  isTextDocument : Bool
  isCloseFrame : Bool

namespace ClientView

variable (v : ClientView)

def getNormalizedVisibleArea : Rectangle :=
  { v.clientVisibleArea with x1 := max v.clientVisibleArea.x1 0, y1 := max v.clientVisibleArea.y1 0 }

def isSplitPane : SplitPaneName → Bool
  | .BOTTOMRIGHT_PANE => true
  | .TOPLEFT_PANE => v.splitX ≠ 0 && v.splitY ≠ 0
  | .TOPRIGHT_PANE => v.splitY ≠ 0
  | .BOTTOMLEFT_PANE => v.splitX ≠ 0

def getNormalizedVisiblePaneArea (paneName : SplitPaneName) : Rectangle :=
  let normalizedVisArea := v.getNormalizedVisibleArea
  if v.splitX = 0 ∧ v.splitY = 0 then if paneName = .BOTTOMRIGHT_PANE then normalizedVisArea else .inverse
  else
    let freeStartX := wrapInt (normalizedVisArea.getLeft + v.splitX)
    let freeStartY := wrapInt (normalizedVisArea.getTop + v.splitY)
    let freeWidth := wrapInt (normalizedVisArea.getWidth - v.splitX)
    let freeHeight := wrapInt (normalizedVisArea.getHeight - v.splitY)
    match paneName with
    | .BOTTOMRIGHT_PANE => .ofExtent freeStartX freeStartY freeWidth freeHeight
    | .TOPLEFT_PANE => if v.splitX ≠ 0 ∧ v.splitY ≠ 0 then .ofExtent 0 0 v.splitX v.splitY else .inverse
    | .TOPRIGHT_PANE => if v.splitY ≠ 0 then .ofExtent freeStartX 0 freeWidth v.splitY else .inverse
    | .BOTTOMLEFT_PANE => if v.splitX ≠ 0 then .ofExtent 0 freeStartY v.splitX freeHeight else .inverse

/-! ### The tiles -/

/-- `std::ceil` of a quotient: for two numbers of 32 bits a `double` is close enough. -/
def ceilDiv (n size : Int) : Int := -(-n).fdiv size

/-- The values of a loop variable that counts up to `last`. -/
def upTo (first last : Int) : List Int := (List.range (last + 1 - first).toNat).map fun n : Nat => first + n

/-- The columns and rows of the tiles that the loops look at in a pane. -/
def places (normalizedVisArea : Rectangle) : List (Int × Int) :=
  let lastVertTile := ceilDiv normalizedVisArea.y2 v.tileHeightTwips
  let lastHoriTile := ceilDiv normalizedVisArea.x2 v.tileWidthTwips
  (upTo (normalizedVisArea.getTop.tdiv v.tileHeightTwips) lastVertTile).flatMap fun i =>
    (upTo (normalizedVisArea.getLeft.tdiv v.tileWidthTwips) lastHoriTile).map fun j => (j, i)

/-- The tile of the view at a position. -/
def tileDesc (part mode tilePosX tilePosY : Int) : TileDesc where
  canonicalViewId := v.canonicalViewId
  part := part
  mode := mode
  width := v.tileWidthPixel
  height := v.tileHeightPixel
  tilePosX := tilePosX
  tilePosY := tilePosY
  tileWidth := v.tileWidthTwips
  tileHeight := v.tileHeightTwips
  ver := -1
  imgSize := 0
  id := -1
  oldWireId := 0
  wireId := 0

/-- The body of the loops; `none` where the constructor of the tile throws. -/
def considerTile (tileCache : TileCache) (part mode : Int) (invalidateRect : Rectangle) (invalidTiles : List TileDesc)
    (place : Int × Int) : Option (List TileDesc) :=
  let tilePosX := wrapInt (place.1 * v.tileWidthTwips)
  let tilePosY := wrapInt (place.2 * v.tileHeightTwips)
  let tileRect := Rectangle.ofExtent tilePosX tilePosY v.tileWidthTwips v.tileHeightTwips
  if invalidateRect.intersects tileRect then
    let desc := v.tileDesc part mode tilePosX tilePosY
    if !desc.isValid then none
    else if invalidTiles.any fun it => it.isEqual desc then some invalidTiles
    else
      let makeDelta := if (tileCache.lookupTile desc).isNone then 0 else 1
      some (invalidTiles ++ [{ desc with oldWireId := makeDelta }])
  else some invalidTiles

def paneRects (invalidateRect : Rectangle) : List Rectangle :=
  let panes : List SplitPaneName := [.TOPLEFT_PANE, .TOPRIGHT_PANE, .BOTTOMLEFT_PANE, .BOTTOMRIGHT_PANE]
  ((panes.filter v.isSplitPane).map v.getNormalizedVisiblePaneArea).filter fun rect => rect.intersects invalidateRect

/-- The part that the message is about. -/
def partOf (m : Invalidation) : Int := if m.part = -1 then v.clientSelectedPart else m.part

/-- The request for a message that is expected; `some none` if there is none to make, `none` where a constructor
throws. -/
def request (tileCache : TileCache) (m : Invalidation) : Option (Option TileCombined) :=
  if !v.clientVisibleArea.hasSurface || v.tileWidthPixel == 0 || v.tileHeightPixel == 0 || v.tileWidthTwips == 0 ||
      v.tileHeightTwips == 0 || (v.clientSelectedPart == -1 && !v.isTextDocument) then some none
  else if v.isCloseFrame then some none
  else
    let paneRects := v.paneRects m.rectangle
    if paneRects.isEmpty then some none
    else
      let part := v.partOf m
      let invalidTiles :=
        if (part = v.clientSelectedPart ∧ m.mode = v.clientSelectedMode) ∨ v.isTextDocument = true then
          (paneRects.flatMap v.places).foldlM (v.considerTile tileCache part m.mode m.rectangle) []
        else some []
      match invalidTiles with
      | none => none
      | some [] => some none
      | some (first :: tiles) => (TileCombined.create first tiles).map some

def handleTileInvalidation (tileCache : TileCache) (m : Invalidation) : TileCache × Option (Option TileCombined) :=
  let tileCache := tileCache.invalidateTilesMsg m v.canonicalViewId
  (tileCache, v.request tileCache m)

/-! ### The panes -/

/-- The area of a pane, in exact numbers. -/
def paneArea : SplitPaneName → Rectangle
  | .TOPLEFT_PANE => ⟨0, 0, v.splitX, v.splitY⟩
  | .TOPRIGHT_PANE => ⟨max v.clientVisibleArea.x1 0 + v.splitX, 0, v.clientVisibleArea.x2, v.splitY⟩
  | .BOTTOMLEFT_PANE => ⟨0, max v.clientVisibleArea.y1 0 + v.splitY, v.splitX, v.clientVisibleArea.y2⟩
  | .BOTTOMRIGHT_PANE => ⟨max v.clientVisibleArea.x1 0 + v.splitX, max v.clientVisibleArea.y1 0 + v.splitY,
      v.clientVisibleArea.x2, v.clientVisibleArea.y2⟩

/-- The area of a tile of the grid, in exact numbers. -/
def tileArea (j i : Int) : Rectangle :=
  ⟨j * v.tileWidthTwips, i * v.tileHeightTwips, (j + 1) * v.tileWidthTwips, (i + 1) * v.tileHeightTwips⟩

/-- There is something to see, and the sizes are positive. -/
structure Positive : Prop where
  view : 0 ≤ v.canonicalViewId
  area : v.clientVisibleArea.x1 < v.clientVisibleArea.x2 ∧ v.clientVisibleArea.y1 < v.clientVisibleArea.y2
  ends : 0 < v.clientVisibleArea.x2 ∧ 0 < v.clientVisibleArea.y2
  split : 0 ≤ v.splitX ∧ 0 ≤ v.splitY
  pixels : 0 < v.tileWidthPixel ∧ 0 < v.tileHeightPixel
  twips : 0 < v.tileWidthTwips ∧ 0 < v.tileHeightTwips

/-- The message is about what the client sees. -/
structure Selected (m : Invalidation) : Prop where
  part : 0 ≤ v.partOf m
  mode : 0 ≤ m.mode
  selected : v.partOf m = v.clientSelectedPart ∧ m.mode = v.clientSelectedMode ∨ v.isTextDocument = true

/-- The sums are `int`s. -/
structure Fits (m : Invalidation) : Prop where
  start : max v.clientVisibleArea.x1 0 + v.splitX ≤ intMax ∧ max v.clientVisibleArea.y1 0 + v.splitY ≤ intMax
  right : max v.clientVisibleArea.x2 v.splitX + v.tileWidthTwips ≤ intMax
  bottom : max v.clientVisibleArea.y2 v.splitY + v.tileHeightTwips ≤ intMax
  rectangle : m.x + m.width ≤ intMax ∧ m.y + m.height ≤ intMax

variable {v} {m : Invalidation}

/-- An extent whose end is an `int` is not dropped. -/
theorem ofExtent_eq {x y width height : Int} (hx : x + width ≤ intMax) (hy : y + height ≤ intMax) :
    Rectangle.ofExtent x y width height = ⟨x, y, x + width, y + height⟩ := by
  simp [Rectangle.ofExtent, hx, hy]

theorem getNormalizedVisiblePaneArea_eq (hv : v.Positive) (hfits : v.Fits m) {paneName : SplitPaneName}
    (hpane : v.isSplitPane paneName = true) : v.getNormalizedVisiblePaneArea paneName = v.paneArea paneName := by
  have harea := hv.area
  have hends := hv.ends
  have hsplit := hv.split
  have htwips := hv.twips
  have hstart := hfits.start
  have hright := hfits.right
  have hbottom := hfits.bottom
  have hwidth : v.getNormalizedVisibleArea.getWidth = v.clientVisibleArea.x2 - max v.clientVisibleArea.x1 0 := by
    have hlt : -intMax - 1 < v.clientVisibleArea.x2 - max v.clientVisibleArea.x1 0 := by
      unfold intMax
      omega
    exact if_pos hlt
  have hheight : v.getNormalizedVisibleArea.getHeight = v.clientVisibleArea.y2 - max v.clientVisibleArea.y1 0 := by
    have hlt : -intMax - 1 < v.clientVisibleArea.y2 - max v.clientVisibleArea.y1 0 := by
      unfold intMax
      omega
    exact if_pos hlt
  have hstartX : wrapInt (max v.clientVisibleArea.x1 0 + v.splitX) = max v.clientVisibleArea.x1 0 + v.splitX :=
    wrapInt_of_bounds (by unfold intMax at *; omega)
  have hstartY : wrapInt (max v.clientVisibleArea.y1 0 + v.splitY) = max v.clientVisibleArea.y1 0 + v.splitY :=
    wrapInt_of_bounds (by unfold intMax at *; omega)
  have hfreeX : wrapInt (v.clientVisibleArea.x2 - max v.clientVisibleArea.x1 0 - v.splitX) =
      v.clientVisibleArea.x2 - max v.clientVisibleArea.x1 0 - v.splitX :=
    wrapInt_of_bounds (by unfold intMax at *; omega)
  have hfreeY : wrapInt (v.clientVisibleArea.y2 - max v.clientVisibleArea.y1 0 - v.splitY) =
      v.clientVisibleArea.y2 - max v.clientVisibleArea.y1 0 - v.splitY :=
    wrapInt_of_bounds (by unfold intMax at *; omega)
  have hleft : v.getNormalizedVisibleArea.getLeft = max v.clientVisibleArea.x1 0 := rfl
  have htop : v.getNormalizedVisibleArea.getTop = max v.clientVisibleArea.y1 0 := rfl
  unfold getNormalizedVisiblePaneArea
  dsimp only
  rw [hleft, htop, hwidth, hheight, hstartX, hstartY, hfreeX, hfreeY]
  by_cases hnone : v.splitX = 0 ∧ v.splitY = 0
  · rw [if_pos hnone]
    cases paneName with
    | BOTTOMRIGHT_PANE => simp [getNormalizedVisibleArea, paneArea, hnone.1, hnone.2]
    | TOPLEFT_PANE => simp [isSplitPane, hnone.1] at hpane
    | TOPRIGHT_PANE => simp [isSplitPane, hnone.2] at hpane
    | BOTTOMLEFT_PANE => simp [isSplitPane, hnone.1] at hpane
  · rw [if_neg hnone]
    have hendX : max v.clientVisibleArea.x1 0 + v.splitX +
        (v.clientVisibleArea.x2 - max v.clientVisibleArea.x1 0 - v.splitX) = v.clientVisibleArea.x2 := by omega
    have hendY : max v.clientVisibleArea.y1 0 + v.splitY +
        (v.clientVisibleArea.y2 - max v.clientVisibleArea.y1 0 - v.splitY) = v.clientVisibleArea.y2 := by omega
    cases paneName with
    | BOTTOMRIGHT_PANE =>
      dsimp only
      rw [ofExtent_eq (by omega) (by omega), hendX, hendY]
      rfl
    | TOPLEFT_PANE =>
      simp only [isSplitPane, Bool.and_eq_true, decide_eq_true_eq] at hpane
      dsimp only
      rw [if_pos hpane, ofExtent_eq (by omega) (by omega), zero_add, zero_add]
      rfl
    | TOPRIGHT_PANE =>
      simp only [isSplitPane, decide_eq_true_eq] at hpane
      dsimp only
      rw [if_pos hpane, ofExtent_eq (by omega) (by omega), hendX, zero_add]
      rfl
    | BOTTOMLEFT_PANE =>
      simp only [isSplitPane, decide_eq_true_eq] at hpane
      dsimp only
      rw [if_pos hpane, ofExtent_eq (by omega) (by omega), hendY, zero_add]
      rfl

/-- A pane with a point is one that the code looks at. -/
theorem isSplitPane_of_contains (hv : v.Positive) {paneName : SplitPaneName} {px py : Int}
    (h : (v.paneArea paneName).Contains px py) : v.isSplitPane paneName = true := by
  obtain ⟨hx, hx', hy, hy'⟩ := h
  have hsplit := hv.split
  cases paneName with
  | BOTTOMRIGHT_PANE => rfl
  | TOPLEFT_PANE =>
    simp only [paneArea] at hx hx' hy hy'
    simp only [isSplitPane, Bool.and_eq_true, decide_eq_true_eq]
    constructor <;> omega
  | TOPRIGHT_PANE =>
    simp only [paneArea] at hy hy'
    simp only [isSplitPane, decide_eq_true_eq]
    omega
  | BOTTOMLEFT_PANE =>
    simp only [paneArea] at hx hx'
    simp only [isSplitPane, decide_eq_true_eq]
    omega

/-- The start of a pane is not negative, and its ends are those of the view or of the split. -/
theorem paneArea_bounds (hv : v.Positive) (paneName : SplitPaneName) :
    (0 ≤ (v.paneArea paneName).x1 ∧ (v.paneArea paneName).x2 ≤ max v.clientVisibleArea.x2 v.splitX) ∧
      0 ≤ (v.paneArea paneName).y1 ∧ (v.paneArea paneName).y2 ≤ max v.clientVisibleArea.y2 v.splitY := by
  have hsplit := hv.split
  cases paneName <;> simp only [paneArea] <;> omega

/-! ### The loops -/

theorem mem_upTo {first last n : Int} : n ∈ upTo first last ↔ first ≤ n ∧ n ≤ last := by
  unfold upTo
  rw [List.mem_map]
  constructor
  · rintro ⟨k, hk, rfl⟩
    rw [List.mem_range] at hk
    omega
  · rintro ⟨hfirst, hlast⟩
    exact ⟨(n - first).toNat, List.mem_range.2 (by omega), by omega⟩

/-- The ceiling is the first multiple that is not below the number. -/
theorem ceilDiv_bounds (n : Int) {size : Int} (hsize : 0 < size) :
    n ≤ ceilDiv n size * size ∧ ceilDiv n size * size < n + size := by
  have hdiv : (-n).fdiv size = -n / size := Int.fdiv_eq_ediv_of_nonneg _ hsize.le
  have hmul := Int.mul_ediv_add_emod (-n) size
  have hmod := Int.emod_nonneg (-n) hsize.ne'
  have hmod' := Int.emod_lt_of_pos (-n) hsize
  unfold ceilDiv
  rw [hdiv, neg_mul, mul_comm]
  constructor <;> omega

/-- The loop over one direction: it reaches the tiles with a point in the range, and ends with sums that are
`int`s. -/
theorem mem_upTo_tiles {first last size n p : Int} (hsize : 0 < size) (hfirst : 0 ≤ first) (hp : first ≤ p ∧ p < last)
    (hn : n * size ≤ p ∧ p < (n + 1) * size) : n ∈ upTo (first.tdiv size) (ceilDiv last size) := by
  obtain ⟨hceil, -⟩ := ceilDiv_bounds last hsize
  rw [mem_upTo, Int.tdiv_eq_ediv_of_nonneg hfirst]
  constructor
  · have hlt : first / size < n + 1 := Int.ediv_lt_of_lt_mul hsize (by omega)
    omega
  · have hlt : n * size < ceilDiv last size * size := by omega
    exact (lt_of_mul_lt_mul_right hlt hsize.le).le

theorem mul_bounds_of_mem_upTo {first last size n : Int} (hsize : 0 < size) (hfirst : 0 ≤ first)
    (hn : n ∈ upTo (first.tdiv size) (ceilDiv last size)) : 0 ≤ n * size ∧ n * size < last + size := by
  obtain ⟨-, hceil⟩ := ceilDiv_bounds last hsize
  rw [mem_upTo, Int.tdiv_eq_ediv_of_nonneg hfirst] at hn
  have hnonneg : 0 ≤ n := le_trans (Int.ediv_nonneg hfirst hsize.le) hn.1
  exact ⟨Int.mul_nonneg hnonneg hsize.le, lt_of_le_of_lt (Int.mul_le_mul_of_nonneg_right hn.2 hsize.le) hceil⟩

theorem mem_places {area : Rectangle} {j i : Int} : (j, i) ∈ v.places area ↔
    j ∈ upTo (area.x1.tdiv v.tileWidthTwips) (ceilDiv area.x2 v.tileWidthTwips) ∧
      i ∈ upTo (area.y1.tdiv v.tileHeightTwips) (ceilDiv area.y2 v.tileHeightTwips) := by
  unfold places
  simp only [List.mem_flatMap, List.mem_map, Prod.mk.injEq, Rectangle.getTop, Rectangle.getLeft]
  constructor
  · rintro ⟨i', hi, j', hj, rfl, rfl⟩
    exact ⟨hj, hi⟩
  · rintro ⟨hj, hi⟩
    exact ⟨i, hi, j, hj, rfl, rfl⟩

/-! ### The list of tiles -/

/-- What holds of the tiles that were found so far. -/
structure Listed (v : ClientView) (tileCache : TileCache) (part mode : Int) (tiles : List TileDesc) : Prop where
  once : tiles.Pairwise fun a b => a.isEqual b = false
  isTile : ∀ t ∈ tiles, t.isValid = true ∧ t.id = -1 ∧ t.imgSize = 0 ∧
    t.combineParams = (v.tileDesc part mode 0 0).combineParams
  keyframe : ∀ t ∈ tiles, t.oldWireId = 0 ↔ tileCache.lookupTile t = none

/-- The position of a place is one of a tile. -/
def InRange (v : ClientView) (place : Int × Int) : Prop :=
  (0 ≤ place.1 * v.tileWidthTwips ∧ place.1 * v.tileWidthTwips ≤ intMax) ∧
    0 ≤ place.2 * v.tileHeightTwips ∧ place.2 * v.tileHeightTwips ≤ intMax

/-- The tile at a place of the grid. -/
def gridTile (v : ClientView) (part mode : Int) (place : Int × Int) : TileDesc :=
  v.tileDesc part mode (place.1 * v.tileWidthTwips) (place.2 * v.tileHeightTwips)

/-- The area of the tile that the loops compute with. -/
def placeRect (v : ClientView) (place : Int × Int) : Rectangle :=
  .ofExtent (place.1 * v.tileWidthTwips) (place.2 * v.tileHeightTwips) v.tileWidthTwips v.tileHeightTwips

variable {tileCache : TileCache} {part mode : Int} {tiles : List TileDesc}

theorem isEqual_refl (t : TileDesc) : t.isEqual t = true := TileDesc.isEqual_iff.2 rfl

/-- What one pass does: the list keeps its tiles, and the tile of the place is in it if it is invalid. -/
theorem considerTile_spec (invalidateRect : Rectangle) (hv : v.Positive) (hpart : 0 ≤ part) (hmode : 0 ≤ mode)
    {place : Int × Int} (hplace : v.InRange place) (h : v.Listed tileCache part mode tiles) :
    ∃ tiles', v.considerTile tileCache part mode invalidateRect tiles place = some tiles' ∧
      v.Listed tileCache part mode tiles' ∧ tiles ⊆ tiles' ∧
      (invalidateRect.intersects (v.placeRect place) = true →
        ∃ t ∈ tiles', t.isEqual (v.gridTile part mode place) = true) := by
  obtain ⟨hx, hy⟩ := hplace
  have hposX : wrapInt (place.1 * v.tileWidthTwips) = place.1 * v.tileWidthTwips := wrapInt_of_bounds (by omega)
  have hposY : wrapInt (place.2 * v.tileHeightTwips) = place.2 * v.tileHeightTwips := wrapInt_of_bounds (by omega)
  have hpixels := hv.pixels
  have htwips := hv.twips
  have hview := hv.view
  unfold considerTile
  rw [hposX, hposY]
  dsimp only
  change ∃ tiles', (if invalidateRect.intersects (v.placeRect place) = true then
    if (!(v.gridTile part mode place).isValid) = true then none else _ else _) = some tiles' ∧ _
  have hvalid : (v.gridTile part mode place).isValid = true :=
    TileDesc.isValid_iff.2 ⟨hview, hpart, hmode, hpixels.1, hpixels.2, hx.1, hy.1, htwips.1, htwips.2, le_refl _⟩
  by_cases hmeet : invalidateRect.intersects (v.placeRect place) = true
  · rw [if_pos hmeet, if_neg (by simp [hvalid])]
    by_cases hdup : (tiles.any fun it => it.isEqual (v.gridTile part mode place)) = true
    · refine ⟨tiles, if_pos hdup, h, List.Subset.refl _, fun _ => ?_⟩
      obtain ⟨t, ht, heq⟩ := List.any_eq_true.1 hdup
      exact ⟨t, ht, heq⟩
    · refine ⟨_, if_neg hdup, ?_, List.subset_append_left _ _, fun _ => ?_⟩
      · constructor
        · rw [List.pairwise_append]
          refine ⟨h.once, List.pairwise_singleton _ _, fun a ha b hb => ?_⟩
          rw [List.mem_singleton.1 hb]
          rw [Bool.not_eq_true, List.any_eq_false] at hdup
          exact Bool.not_eq_true _ ▸ hdup a ha
        · intro t ht
          rcases List.mem_append.1 ht with ht | ht
          · exact h.isTile t ht
          · rw [List.mem_singleton.1 ht]
            exact ⟨hvalid, rfl, rfl, rfl⟩
        · intro t ht
          rcases List.mem_append.1 ht with ht | ht
          · exact h.keyframe t ht
          · rw [List.mem_singleton.1 ht]
            change (if (tileCache.lookupTile (v.gridTile part mode place)).isNone = true then 0 else 1) = 0 ↔
              tileCache.lookupTile (v.gridTile part mode place) = none
            rw [← Option.isNone_iff_eq_none]
            split <;> simp [*]
      · exact ⟨_, List.mem_append_right _ (List.mem_singleton_self _), isEqual_refl (v.gridTile part mode place)⟩
  · rw [if_neg hmeet]
    exact ⟨tiles, rfl, h, List.Subset.refl _, fun hmeet' => absurd hmeet' hmeet⟩

/-- What the loops do. -/
theorem foldlM_considerTile (invalidateRect : Rectangle) (hv : v.Positive) (hpart : 0 ≤ part) (hmode : 0 ≤ mode)
    {places : List (Int × Int)} (hplaces : ∀ place ∈ places, v.InRange place)
    (h : v.Listed tileCache part mode tiles) :
    ∃ tiles', places.foldlM (v.considerTile tileCache part mode invalidateRect) tiles = some tiles' ∧
      v.Listed tileCache part mode tiles' ∧ tiles ⊆ tiles' ∧
      ∀ place ∈ places, invalidateRect.intersects (v.placeRect place) = true →
        ∃ t ∈ tiles', t.isEqual (v.gridTile part mode place) = true := by
  induction places generalizing tiles with
  | nil => exact ⟨tiles, rfl, h, List.Subset.refl _, by simp⟩
  | cons place places ih =>
    obtain ⟨tiles₁, hstep, hlisted, hsub, hfound⟩ :=
      considerTile_spec invalidateRect hv hpart hmode (hplaces place List.mem_cons_self) h
    obtain ⟨tiles₂, hrun, hlisted₂, hsub₂, hfound₂⟩ :=
      ih (fun place hmem => hplaces place (List.mem_cons_of_mem _ hmem)) hlisted
    refine ⟨tiles₂, ?_, hlisted₂, List.Subset.trans hsub hsub₂, ?_⟩
    · rw [List.foldlM_cons, hstep]
      exact hrun
    · intro place' hmem hmeet
      rcases List.mem_cons.1 hmem with rfl | hmem
      · obtain ⟨t, ht, heq⟩ := hfound hmeet
        exact ⟨t, hsub₂ ht, heq⟩
      · exact hfound₂ place' hmem hmeet

/-! ### The request -/

/-- Two sets of points have one in common. -/
def Meet (a b : Int → Int → Prop) : Prop := ∃ px py, a px py ∧ b px py

theorem rectangle_eq (hfits : v.Fits m) : m.rectangle = ⟨m.x, m.y, m.x + m.width, m.y + m.height⟩ :=
  ofExtent_eq hfits.rectangle.1 hfits.rectangle.2

theorem rectangle_contains (hfits : v.Fits m) {px py : Int} (h : m.Contains px py) : m.rectangle.Contains px py := by
  obtain ⟨hx, hx', hy, hy'⟩ := h
  rw [rectangle_eq hfits]
  exact ⟨hx, hx', hy, hy'⟩

theorem lookupTile_invalidateTilesMsg (t : TileDesc) (canonicalViewId : Int) :
    (tileCache.invalidateTilesMsg m canonicalViewId).lookupTile t = none ↔ tileCache.lookupTile t = none := by
  simp [TileCache.invalidateTilesMsg, TileCache.invalidateTiles, TileCache.lookupTile, TileCache.findTile,
    Table.find_map]

theorem mem_paneRects (hv : v.Positive) (hfits : v.Fits m) {area : Rectangle} :
    area ∈ v.paneRects m.rectangle ↔
      ∃ paneName, v.isSplitPane paneName = true ∧ v.paneArea paneName = area ∧
      area.intersects m.rectangle = true := by
  unfold paneRects
  rw [List.mem_filter, List.mem_map]
  constructor
  · rintro ⟨⟨paneName, hpane, rfl⟩, hmeet⟩
    have hsplit := (List.mem_filter.1 hpane).2
    rw [getNormalizedVisiblePaneArea_eq hv hfits hsplit] at hmeet ⊢
    exact ⟨paneName, hsplit, rfl, hmeet⟩
  · rintro ⟨paneName, hsplit, rfl, hmeet⟩
    refine ⟨⟨paneName, List.mem_filter.2 ⟨?_, hsplit⟩, getNormalizedVisiblePaneArea_eq hv hfits hsplit⟩, hmeet⟩
    cases paneName <;> simp

theorem inRange_of_mem (hv : v.Positive) (hfits : v.Fits m) {place : Int × Int}
    (hplace : place ∈ (v.paneRects m.rectangle).flatMap v.places) : v.InRange place := by
  obtain ⟨area, harea, hplace⟩ := List.mem_flatMap.1 hplace
  obtain ⟨paneName, -, rfl, -⟩ := (mem_paneRects hv hfits).1 harea
  obtain ⟨⟨hleft, hright⟩, htop, hbottom⟩ := paneArea_bounds hv paneName
  obtain ⟨hj, hi⟩ := mem_places.1 hplace
  have hx := mul_bounds_of_mem_upTo hv.twips.1 hleft hj
  have hy := mul_bounds_of_mem_upTo hv.twips.2 htop hi
  have hfitX := hfits.right
  have hfitY := hfits.bottom
  exact ⟨⟨hx.1, by omega⟩, hy.1, by omega⟩

/-- The loops look at the tiles that meet a pane with a point of the rectangle. -/
theorem mem_places_of_meet (hv : v.Positive) (hfits : v.Fits m) {paneName : SplitPaneName} {j i : Int}
    (hpane : Meet m.Contains (v.paneArea paneName).Contains)
    (htile : Meet (v.paneArea paneName).Contains (v.tileArea j i).Contains) :
    (j, i) ∈ (v.paneRects m.rectangle).flatMap v.places := by
  obtain ⟨px, py, hrect, hpoint⟩ := hpane
  obtain ⟨tx, ty, ⟨hx, hx', hy, hy'⟩, hjx, hjx', hiy, hiy'⟩ := htile
  obtain ⟨⟨hleft, -⟩, htop, -⟩ := paneArea_bounds hv paneName
  refine List.mem_flatMap.2 ⟨v.paneArea paneName, (mem_paneRects hv hfits).2
    ⟨paneName, isSplitPane_of_contains hv hpoint, rfl,
    Rectangle.intersects_of_contains hpoint (rectangle_contains hfits hrect)⟩, ?_⟩
  exact mem_places.2 ⟨mem_upTo_tiles hv.twips.1 hleft ⟨hx, hx'⟩ ⟨hjx, hjx'⟩,
    mem_upTo_tiles hv.twips.2 htop ⟨hy, hy'⟩ ⟨hiy, hiy'⟩⟩

/-- The loops compute with the area of a tile that meets a pane. -/
theorem placeRect_eq (hv : v.Positive) (hfits : v.Fits m) {paneName : SplitPaneName} {j i : Int}
    (htile : Meet (v.paneArea paneName).Contains (v.tileArea j i).Contains) :
      v.placeRect (j, i) = v.tileArea j i := by
  obtain ⟨tx, ty, ⟨hx, hx', hy, hy'⟩, hjx, hjx', hiy, hiy'⟩ := htile
  obtain ⟨⟨-, hright⟩, -, hbottom⟩ := paneArea_bounds hv paneName
  have hfitX := hfits.right
  have hfitY := hfits.bottom
  simp only [tileArea] at hjx hjx' hiy hiy'
  unfold placeRect tileArea
  dsimp only
  rw [add_mul, add_mul, one_mul, one_mul]
  exact ofExtent_eq (by omega) (by omega)

/-- The combined request of the tiles that were found lists them as they are. -/
theorem create_listed {first : TileDesc} (h : v.Listed tileCache part mode (first :: tiles)) :
    ∃ combined, TileCombined.create first tiles = some combined ∧ combined.tiles = first :: tiles := by
  obtain ⟨-, -, -, hfirst⟩ := h.isTile first List.mem_cons_self
  have hcombine : ∀ t ∈ first :: tiles, t.id = -1 ∧ t.combineParams = first.combineParams ∧ t.isValid = true := by
    intro t ht
    obtain ⟨hvalid, hid, -, hparams⟩ := h.isTile t ht
    exact ⟨hid, hparams.trans hfirst.symm, hvalid⟩
  obtain ⟨combined, hcreate, htiles⟩ := KitQueue.create_tiles hcombine
  have hsame : ∀ t ∈ first :: tiles, t.dropImgSize = t := by
    intro t ht
    obtain ⟨-, -, himgSize, -⟩ := h.isTile t ht
    unfold TileDesc.dropImgSize
    rw [← himgSize]
  exact ⟨combined, hcreate, htiles.trans ((List.map_congr_left hsame).trans (List.map_id _))⟩

/-- A message about what the client sees is followed by a request that lists, once each, at least the tiles that meet
the rectangle and a pane of which a point was invalidated; a keyframe is what is not in the cache. -/
theorem handleTileInvalidation_complete (hv : v.Positive) (hopen : v.isCloseFrame = false) (hselected : v.Selected m)
    (hfits : v.Fits m) : ∃ request, (v.handleTileInvalidation tileCache m).2 = some request ∧
      (request.elim [] TileCombined.tiles).Pairwise (fun a b => a.isEqual b = false) ∧
      (∀ t ∈ request.elim [] TileCombined.tiles, t.oldWireId = 0 ↔ tileCache.lookupTile t = none) ∧
      ∀ paneName j i, Meet m.Contains (v.tileArea j i).Contains →
        Meet (v.paneArea paneName).Contains (v.tileArea j i).Contains →
        Meet m.Contains (v.paneArea paneName).Contains →
        ∃ t ∈ request.elim [] TileCombined.tiles, t.isEqual (v.gridTile (v.partOf m) m.mode (j, i)) = true := by
  have harea := hv.area
  have hpixels := hv.pixels
  have htwips := hv.twips
  have hseen : ¬ (!v.clientVisibleArea.hasSurface || v.tileWidthPixel == 0 || v.tileHeightPixel == 0 ||
      v.tileWidthTwips == 0 || v.tileHeightTwips == 0 || (v.clientSelectedPart == -1 && !v.isTextDocument)) =
        true := by
    have hpart := hselected.part
    have hsurface : v.clientVisibleArea.hasSurface = true := by simp [Rectangle.hasSurface, harea]
    have htext : (v.clientSelectedPart == -1 && !v.isTextDocument) = false := by
      obtain ⟨hsame, -⟩ | htext := hselected.selected
      · rw [Bool.and_eq_false_iff, beq_eq_false_iff_ne]
        left
        omega
      · simp [htext]
    simp only [hsurface, htext, Bool.not_true, Bool.false_or, Bool.or_false, Bool.or_eq_true, beq_iff_eq, not_or]
    omega
  have hempty : v.Listed (tileCache.invalidateTilesMsg m v.canonicalViewId) (v.partOf m) m.mode [] :=
    ⟨List.Pairwise.nil, by simp, by simp⟩
  obtain ⟨tiles, hrun, hlisted, -, hfound⟩ := foldlM_considerTile m.rectangle hv hselected.part hselected.mode
    (fun place => inRange_of_mem hv hfits) hempty
  -- If no pane is left there are no tiles to list, and the loops find none either.
  obtain ⟨request, hrequest, htiles⟩ : ∃ request,
      v.request (tileCache.invalidateTilesMsg m v.canonicalViewId) m = some request ∧
        request.elim [] TileCombined.tiles = tiles := by
    unfold request
    rw [if_neg hseen, if_neg (by simp [hopen])]
    dsimp only
    by_cases hnone : v.paneRects m.rectangle = []
    · rw [hnone] at hrun ⊢
      exact ⟨none, rfl, Option.some.inj hrun⟩
    · rw [if_neg (by simpa using hnone), if_pos hselected.selected, hrun]
      cases tiles with
      | nil => exact ⟨none, rfl, rfl⟩
      | cons first rest =>
        obtain ⟨combined, hcreate, htiles⟩ := create_listed hlisted
        exact ⟨some combined, by simp only [hcreate, Option.map_some], htiles⟩
  refine ⟨request, hrequest, ?_⟩
  rw [htiles]
  refine ⟨hlisted.once, fun t ht => (hlisted.keyframe t ht).trans (lookupTile_invalidateTilesMsg t _), ?_⟩
  rintro paneName j i ⟨px, py, hrect, htile⟩ hpane hvisible
  refine hfound (j, i) (mem_places_of_meet hv hfits hvisible hpane) ?_
  rw [placeRect_eq hv hfits hpane]
  exact Rectangle.intersects_of_contains (rectangle_contains hfits hrect) htile

/-- The view of a sheet with its first rows and columns frozen. -/
def splitView : ClientView where
  canonicalViewId := 0
  clientVisibleArea := ⟨0, 0, 5000, 5000⟩
  splitX := 1000
  splitY := 500
  clientSelectedPart := 0
  clientSelectedMode := 0
  tileWidthPixel := 256
  tileHeightPixel := 256
  tileWidthTwips := 3840
  tileHeightTwips := 3840
  isTextDocument := false
  isCloseFrame := false

theorem handleTileInvalidation_complete_split : ∃ request,
    (splitView.handleTileInvalidation (TileCache.new false) ⟨-1, 0, 3000, 0, 2000, 100⟩).2 = some request ∧
      ∃ t ∈ request.elim [] TileCombined.tiles, t.isEqual (splitView.gridTile 0 0 (1, 0)) = true := by
  obtain ⟨request, hrequest, -, -, hlisted⟩ := @handleTileInvalidation_complete splitView
    ⟨-1, 0, 3000, 0, 2000, 100⟩ (TileCache.new false)
      ⟨by decide, by decide, by decide, by decide, by decide, by decide⟩ rfl
    ⟨by decide, by decide, .inl (by decide)⟩ ⟨by decide, by decide, by decide, by decide⟩
  exact ⟨request, hrequest, hlisted .TOPRIGHT_PANE 1 0 ⟨3840, 0, by decide, by decide⟩
    ⟨3840, 0, by decide, by decide⟩
    ⟨3000, 0, by decide, by decide⟩⟩

/-- A small window on the first tile. -/
def smallView : ClientView := { splitView with clientVisibleArea := ⟨0, 0, 100, 100⟩, splitX := 0, splitY := 0 }

/-- What was invalidated is in a tile that is visible in part, but is not visible itself. -/
theorem not_handleTileInvalidation_complete : ¬ ∀ (v : ClientView) (tileCache : TileCache) (message : List Char)
    (m : Invalidation) (paneName : SplitPaneName) (j i : Int), Invalidation.parseInvalidateMsg message = some m →
      v.Positive →
    v.isCloseFrame = false → v.Selected m → v.Fits m → Meet m.Contains (v.tileArea j i).Contains →
    Meet (v.paneArea paneName).Contains (v.tileArea j i).Contains →
    ∃ combined, (v.handleTileInvalidation tileCache m).2 = some (some combined) ∧
      ∃ t ∈ combined.tiles, t.isEqual (v.gridTile (v.partOf m) m.mode (j, i)) = true := by
  intro h
  obtain ⟨combined, hcombined, -⟩ := h smallView (TileCache.new false)
    "invalidatetiles: part=0 mode=0 x=2000 y=0 width=100 height=100 wid=2".toList ⟨0, 0, 2000, 0, 100, 100⟩
    .BOTTOMRIGHT_PANE 0 0 (by decide +kernel) ⟨by decide, by decide, by decide, by decide, by decide, by decide⟩ rfl
    ⟨by decide, by decide, .inl (by decide)⟩ ⟨by decide, by decide, by decide, by decide⟩
    ⟨2000, 0, by decide, by decide⟩ ⟨0, 0, by decide, by decide⟩
  have hnone : (smallView.handleTileInvalidation (TileCache.new false) ⟨0, 0, 2000, 0, 100, 100⟩).2 = some none := by
    decide +kernel
  rw [hnone] at hcombined
  cases hcombined

end ClientView

end CollaboraOnline
