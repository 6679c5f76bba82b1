import CollaboraOnline.Lib.Run
import CollaboraOnline.Lib.SortedVector
import CollaboraOnline.Wsd.TileCache

/-!
# The tile queues of the kit

`KitQueue` keeps a sorted vector of tiles for each canonical view.  `popTileQueue` takes the tile of the highest
priority of one view and the tiles around it that can be rendered with it.  The row to the left of the chosen tile is
a list that starts with its neighbour.
-/

namespace CollaboraOnline

open SortedVector

/-- The largest `int`. -/
def intMax : Int := 2147483647

/-- The result of `int` arithmetic. -/
def wrapInt (n : Int) : Int := n.bmod (2 ^ 32)

namespace TileDesc

variable {tile other : TileDesc}

/-- The checks of the constructor. -/
def isValid (tile : TileDesc) : Bool :=
  !(tile.canonicalViewId ≤ -1 || tile.part < 0 || tile.mode < 0 || tile.width ≤ 0 || tile.height ≤ 0 ||
    tile.tilePosX < 0 || tile.tilePosY < 0 || tile.tileWidth ≤ 0 || tile.tileHeight ≤ 0 || tile.imgSize < 0)

theorem isValid_iff : tile.isValid = true ↔ 0 ≤ tile.canonicalViewId ∧ 0 ≤ tile.part ∧ 0 ≤ tile.mode ∧
    0 < tile.width ∧
    0 < tile.height ∧ 0 ≤ tile.tilePosX ∧ 0 ≤ tile.tilePosY ∧ 0 < tile.tileWidth ∧ 0 < tile.tileHeight ∧
      0 ≤ tile.imgSize := by
  simp only [isValid, Bool.not_eq_true', Bool.or_eq_false_iff, decide_eq_false_iff_not]
  omega

def isPreview (tile : TileDesc) : Bool := 0 ≤ tile.id

/-- The tuple of `compareAsAtTilePos`. -/
def tieAt (tile : TileDesc) (tilePosX tilePosY : Int) : List Int :=
  [tile.canonicalViewId, tile.id, tile.mode, tile.part, tile.height, tile.width, tile.tileHeight, tile.tileWidth,
    tilePosY, tilePosX]

/-- What `operator<` compares. -/
def tie (tile : TileDesc) : List Int := tile.tieAt tile.tilePosX tile.tilePosY

/-- `operator==`. -/
def isEqual (tile other : TileDesc) : Bool :=
  tile.part == other.part && tile.width == other.width && tile.height == other.height &&
    tile.tilePosX == other.tilePosX && tile.tilePosY == other.tilePosY && tile.tileWidth == other.tileWidth &&
    tile.tileHeight == other.tileHeight && tile.id == other.id && tile.canonicalViewId == other.canonicalViewId &&
    tile.mode == other.mode

/-- The order and the equality of tiles agree. -/
theorem isEqual_iff : tile.isEqual other = true ↔ tile.tie = other.tie := by
  simp only [isEqual, tie, tieAt, Bool.and_eq_true, beq_iff_eq, List.cons.injEq, and_true]
  tauto

def gridX (tile : TileDesc) : Int := tile.tilePosX / tile.tileWidth

/-- A combined request does not carry the sizes of images. -/
def dropImgSize (tile : TileDesc) : TileDesc := { tile with imgSize := 0 }

theorem sameTileCombineParams_iff : tile.sameTileCombineParams other = true ↔
    other.part = tile.part ∧ other.mode = tile.mode ∧ other.width = tile.width ∧ other.height = tile.height ∧
      other.tileWidth = tile.tileWidth ∧ other.tileHeight = tile.tileHeight ∧
        other.canonicalViewId = tile.canonicalViewId := by
  simp only [sameTileCombineParams, Bool.not_eq_true', Bool.or_eq_false_iff, bne_eq_false_iff_eq]
  tauto

end TileDesc

/-! ### Combined tiles -/

structure CombineParams where
  canonicalViewId : Int
  part : Int
  mode : Int
  width : Int
  height : Int
  tileWidth : Int
  tileHeight : Int
deriving DecidableEq, Repr

/-- The checks of the constructor of `TileCombined`. -/
def CombineParams.isValid (params : CombineParams) : Bool :=
  !(params.part < 0 || params.mode < 0 || params.width ≤ 0 || params.height ≤ 0 || params.tileWidth ≤ 0 ||
    params.tileHeight ≤ 0)

theorem CombineParams.isValid_iff {params : CombineParams} :
    params.isValid = true ↔ 0 ≤ params.part ∧ 0 ≤ params.mode ∧
    0 < params.width ∧ 0 < params.height ∧ 0 < params.tileWidth ∧ 0 < params.tileHeight := by
  simp only [isValid, Bool.not_eq_true', Bool.or_eq_false_iff, decide_eq_false_iff_not]
  omega

/-- What a combined request says of one of its tiles. -/
structure TileFields where
  tilePosX : Int
  tilePosY : Int
  ver : Int
  imgSize : Int
  oldWireId : Nat
  wireId : Nat
deriving DecidableEq, Repr

structure TileCombined extends CombineParams where
  tiles : List TileDesc
  hasWids : Bool
  hasOldWids : Bool
  isCombined : Bool
  hasImgSizes : Bool
deriving DecidableEq, Repr

def TileDesc.combineParams (tile : TileDesc) : CombineParams :=
  ⟨tile.canonicalViewId, tile.part, tile.mode, tile.width, tile.height, tile.tileWidth, tile.tileHeight⟩

theorem TileDesc.isValid_combineParams {tile : TileDesc} (h : tile.isValid = true) :
    tile.combineParams.isValid = true := by
  obtain ⟨-, hpart, hmode, hwidth, hheight, -, -, htileWidth, htileHeight, -⟩ := TileDesc.isValid_iff.1 h
  exact CombineParams.isValid_iff.2 ⟨hpart, hmode, hwidth, hheight, htileWidth, htileHeight⟩

def TileDesc.fields (tile : TileDesc) : TileFields :=
  ⟨tile.tilePosX, tile.tilePosY, tile.ver, tile.imgSize, tile.oldWireId, tile.wireId⟩

namespace TileCombined

/-- The tile at one position of a combined request. -/
def tileOf (params : CombineParams) (fields : TileFields) : TileDesc where
  canonicalViewId := params.canonicalViewId
  part := params.part
  mode := params.mode
  width := params.width
  height := params.height
  tilePosX := fields.tilePosX
  tilePosY := fields.tilePosY
  tileWidth := params.tileWidth
  tileHeight := params.tileHeight
  ver := fields.ver
  imgSize := fields.imgSize
  id := -1
  oldWireId := fields.oldWireId
  wireId := fields.wireId

/-- The constructor from the fields of a request; `none` where it throws. -/
def ofFields (params : CombineParams) (fields : List TileFields) : Option TileCombined :=
  if !params.isValid then none
  else
    let tiles := fields.map (tileOf params)
    if tiles.all TileDesc.isValid then
      some { toCombineParams := params, tiles, hasWids := fields.any fun f => f.wireId ≠ 0,
             hasOldWids := fields.any fun f => f.oldWireId ≠ 0, isCombined := true,
             hasImgSizes := fields.any fun f => f.imgSize ≠ 0 }
    else none

/-- The request of one tile. -/
def ofTile (desc : TileDesc) : TileCombined where
  toCombineParams := desc.combineParams
  tiles := [desc]
  hasWids := desc.wireId ≠ 0
  hasOldWids := desc.oldWireId ≠ 0
  isCombined := false
  hasImgSizes := desc.imgSize ≠ 0

def create (first : TileDesc) (tiles : List TileDesc) : Option TileCombined :=
  ofFields first.combineParams ((first :: tiles).map fun tile => { tile.fields with imgSize := 0 })

end TileCombined

/-! ### Combining tiles -/

inductive Priority where
  | NONE
  | LOWEST
  | LOW
  | NORMAL
  | HIGH
  | VERYHIGH
  | ULTRAHIGH
deriving DecidableEq, Repr

def Priority.value : Priority → Int
  | .NONE => -1
  | .LOWEST => 0
  | .LOW => 1
  | .NORMAL => 2
  | .HIGH => 3
  | .VERYHIGH => 4
  | .ULTRAHIGH => 5

/-- The answers of a prioritizer at one moment. -/
structure TilePrioritizer where
  getTilePriority : TileDesc → Priority
  getViewIdsByInactivity : List Int

namespace KitQueue

def allowCombine (a b : TileDesc) : Bool := if a.isPreview || b.isPreview then false else a.sameTileCombineParams b

def allowCombineIfRow (prioTile : TileDesc) (tilePosY : Int) (candidate : TileDesc) : Bool :=
  tilePosY == candidate.tilePosY && allowCombine prioTile candidate

def maxCombinedGridSpan : Int := 16

/-- The state of the loop of `combineHoriAround`: the tiles to the left and right that it has not taken. -/
structure Row where
  left : List TileDesc
  right : List TileDesc
  destTiles : List TileDesc
  leftGridX : Int
  rightGridX : Int
deriving DecidableEq

/-- The tiles that are not taken, in order. -/
def Row.queue (row : Row) : List TileDesc := row.left.reverse ++ row.right

/-- The next tile of a side can be combined. -/
def canCombine (prioTile : TileDesc) (side : List TileDesc) : Bool :=
  side.head?.any (allowCombineIfRow prioTile prioTile.tilePosY)

/-- The grid column of the next tile of a side. -/
def proposedGridX (prioTile : TileDesc) (side : List TileDesc) (gridX : Int) : Int :=
  if canCombine prioTile side then side.head?.elim gridX fun tile => tile.tilePosX / prioTile.tileWidth else gridX

def leftGridDistance (prioTile : TileDesc) (row : Row) : Int :=
  if canCombine prioTile row.left then prioTile.gridX - proposedGridX prioTile row.left row.leftGridX else intMax

def rightGridDistance (prioTile : TileDesc) (row : Row) : Int :=
  if canCombine prioTile row.right then proposedGridX prioTile row.right row.rightGridX - prioTile.gridX else intMax

/-- The loop; `none` where it reads beyond the end of the queue. -/
def combineHoriAround (prioTile : TileDesc) : Nat → Row → Option Row
  | 0, _ => none
  | n + 1, row =>
    if !canCombine prioTile row.left && !canCombine prioTile row.right then some row
    else
      let leftProposedGridX := proposedGridX prioTile row.left row.leftGridX
      let rightProposedGridX := proposedGridX prioTile row.right row.rightGridX
      if leftGridDistance prioTile row < rightGridDistance prioTile row then
        if maxCombinedGridSpan ≤ row.rightGridX - leftProposedGridX then some row
        else
          match row.left with
          | [] => none
          | tile :: left =>
            combineHoriAround prioTile n
              { row with left, leftGridX := leftProposedGridX
                         destTiles := sortedInsert TileDesc.tie row.destTiles tile }
      else
        if maxCombinedGridSpan ≤ rightProposedGridX - row.leftGridX then some row
        else
          match row.right with
          | [] => none
          | tile :: right =>
            combineHoriAround prioTile n
              { row with right, rightGridX := rightProposedGridX
                         destTiles := sortedInsert TileDesc.tie row.destTiles tile }

/-- The loop of `combineVerticalTiles` from the lower bound on: the tiles that stay, and the tiles to render. -/
def combineRow (prioTile : TileDesc) (tilePosY leftGridX rightGridX : Int) :
    List TileDesc → List TileDesc → List TileDesc × List TileDesc
  | [], destTiles => ([], destTiles)
  | tile :: tileQueue, destTiles =>
    if !allowCombineIfRow prioTile tilePosY tile then (tile :: tileQueue, destTiles)
    else if leftGridX ≤ tile.gridX ∧ tile.gridX ≤ rightGridX then
      combineRow prioTile tilePosY leftGridX rightGridX tileQueue (sortedInsert TileDesc.tie destTiles tile)
    else
      let (kept, destTiles) := combineRow prioTile tilePosY leftGridX rightGridX tileQueue destTiles
      (tile :: kept, destTiles)

def combineVerticalTiles (prioTile : TileDesc) (leftGridX rightGridX vertDirection : Int)
    (tileQueue destTiles : List TileDesc) : List TileDesc × List TileDesc :=
  let tilePosX := wrapInt (leftGridX * prioTile.tileWidth)
  let tilePosY := wrapInt (prioTile.tilePosY + prioTile.tileHeight * vertDirection)
  let before := fun tile : TileDesc => decide (tile.tie < prioTile.tieAt tilePosX tilePosY)
  let (kept, destTiles) :=
    combineRow prioTile tilePosY leftGridX rightGridX (tileQueue.dropWhile before) destTiles
  (tileQueue.takeWhile before ++ kept, destTiles)

/-- The columns of the neighbour rows to look at. -/
def expand (leftGridX rightGridX : Int) : Int × Int :=
  let gridSpan := rightGridX - leftGridX
  if gridSpan < maxCombinedGridSpan then
    let availSpans := maxCombinedGridSpan - gridSpan
    let leftExpand := min leftGridX (availSpans / 2)
    let rightExpand := availSpans - leftExpand
    (leftGridX - leftExpand, wrapInt (rightGridX + rightExpand))
  else (leftGridX, rightGridX)

/-! ### Popping -/

/-- The first tile of the highest priority: `i` is the index of the next tile. -/
def findPrioritized (getTilePriority : TileDesc → Priority) : Nat → Nat → Priority → List TileDesc → Nat × Priority
  | _, prioritized, priority, [] => (prioritized, priority)
  | i, prioritized, priority, tile :: tileQueue =>
    if priority.value < (getTilePriority tile).value then
      findPrioritized getTilePriority (i + 1) i (getTilePriority tile) tileQueue
    else findPrioritized getTilePriority (i + 1) prioritized priority tileQueue

/-- The tiles to render with `msg` and the queue that is left; `left` and `right` are what stands before and after
it. -/
def collectTiles (msg : TileDesc) (left right : List TileDesc) : Option (List TileDesc × List TileDesc) :=
  if msg.isPreview then some ([msg], left.reverse ++ right)
  else
    (combineHoriAround msg (left.length + right.length + 1) ⟨left, right, [msg], msg.gridX, msg.gridX⟩).map fun row =>
      let (leftGridX, rightGridX) := expand row.leftGridX row.rightGridX
      let (tileQueue, tiles) := combineVerticalTiles msg leftGridX rightGridX (-1) row.queue row.destTiles
      let (tileQueue, tiles) := combineVerticalTiles msg leftGridX rightGridX 1 tileQueue tiles
      (tiles, tileQueue)

/-- The combination of tiles that were collected. -/
def combination : List TileDesc → Option TileCombined
  | [] => none
  | [tile] => some (.ofTile tile)
  | first :: tiles => TileCombined.create first tiles

/-- `popTileQueue` of one queue: the combination, the priority, and the queue that is left. -/
def popFrom (getTilePriority : TileDesc → Priority) : List TileDesc → Option (TileCombined × Priority × List TileDesc)
  | [] => none
  | first :: rest =>
    let tileQueue := first :: rest
    let (prioritized, priority) := findPrioritized getTilePriority 1 0 (getTilePriority first) rest
    match tileQueue[prioritized]? with
    | none => none
    | some msg =>
      match collectTiles msg (tileQueue.take prioritized).reverse (tileQueue.drop (prioritized + 1)) with
      | none => none
      | some (tiles, tileQueue) => (combination tiles).map fun combined => (combined, priority, tileQueue)

end KitQueue

/-! ### The queues -/

structure KitQueue where
  tileQueues : List (Int × List TileDesc) := []

namespace KitQueue

/-- Change the queue that `ensureTileQueue` returns. -/
def updateTileQueue (viewId : Int) (f : List TileDesc → List TileDesc) :
    List (Int × List TileDesc) → List (Int × List TileDesc)
  | [] => [(viewId, f [])]
  | queue :: queues => if queue.1 = viewId then (queue.1, f queue.2) :: queues else queue ::
    updateTileQueue viewId f queues

def pushTileQueue (q : KitQueue) (desc : TileDesc) : KitQueue :=
  ⟨updateTileQueue desc.canonicalViewId (fun tileQueue => sortedInsert TileDesc.tie tileQueue desc) q.tileQueues⟩

def pushTileCombineRequest (q : KitQueue) (tileCombined : TileCombined) : KitQueue :=
  ⟨updateTileQueue tileCombined.canonicalViewId
    (fun tileQueue => tileCombined.tiles.foldl (sortedInsert TileDesc.tie) tileQueue) q.tileQueues⟩

def isTileQueueEmpty (q : KitQueue) : Bool := q.tileQueues.all fun queue => queue.2.isEmpty

/-- The index of the queue to pop from. -/
def chooseTileQueue (q : KitQueue) (viewIdsByPrio : List Int) : Option Nat :=
  (viewIdsByPrio.findSome? fun viewId =>
    q.tileQueues.findIdx? fun queue => queue.1 == viewId && !queue.2.isEmpty).or
  (q.tileQueues.findIdx? fun queue => !queue.2.isEmpty)

def popTileQueue (q : KitQueue) (prio : TilePrioritizer) : Option (TileCombined × Priority × KitQueue) :=
  match q.chooseTileQueue prio.getViewIdsByInactivity with
  | none => none
  | some i =>
    match q.tileQueues[i]? with
    | none => none
    | some queue =>
      (popFrom prio.getTilePriority queue.2).map fun (combined, priority, tileQueue) =>
        (combined, priority, ⟨q.tileQueues.set i (queue.1, tileQueue)⟩)

/-- All the tiles that are queued. -/
def tiles (q : KitQueue) : List TileDesc := q.tileQueues.flatMap Prod.snd

end KitQueue

end CollaboraOnline
