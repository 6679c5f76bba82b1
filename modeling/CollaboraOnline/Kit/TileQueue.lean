import CollaboraOnline.Kit.KitQueue

/-!
# What the tile queues keep

Popping moves tiles from the queue of a view to the combination (`SortedVector.Moved`): the loops of the combining
helpers are taken one tile at a time.  A pop whose tile is 2147483647 grid columns right of a tile of its row is left
out: there the distance is taken for that of a tile that is missing.
-/

namespace CollaboraOnline

open SortedVector

namespace KitQueue

variable {prioTile tile msg : TileDesc} {side left right tileQueue destTiles : List TileDesc} {tilePosY : Int}

/-! ### The row of the tile -/

theorem allowCombine_of_row (h : allowCombineIfRow prioTile tilePosY tile = true) :
    allowCombine prioTile tile = true := by
  simp only [allowCombineIfRow, Bool.and_eq_true] at h
  exact h.2

/-- The next tile of a side, where it can be combined. -/
theorem canCombine_cases (h : canCombine prioTile side = true) :
    ∃ tile rest, side = tile :: rest ∧ allowCombineIfRow prioTile prioTile.tilePosY tile = true ∧
      ∀ gridX, proposedGridX prioTile side gridX = tile.tilePosX / prioTile.tileWidth := by
  cases side with
  | nil => simp [canCombine] at h
  | cons tile rest =>
    refine ⟨tile, rest, rfl, by simpa [canCombine] using h, fun gridX => ?_⟩
    simp [proposedGridX, h]

/-- On the left no tile of the row is as far as a missing one, up to one at which the loop stops. -/
def NearLeft (prioTile : TileDesc) : List TileDesc → Prop
  | [] => True
  | tile :: left =>
    (allowCombineIfRow prioTile prioTile.tilePosY tile = true →
      prioTile.gridX - tile.tilePosX / prioTile.tileWidth < intMax) ∧
    (allowCombineIfRow prioTile prioTile.tilePosY tile = true ∧
        maxCombinedGridSpan ≤ prioTile.gridX - tile.tilePosX / prioTile.tileWidth ∨
      NearLeft prioTile left)

/-- The tiles of the row on the right are at most `intMax` columns away. -/
structure Near (prioTile : TileDesc) (left right : List TileDesc) : Prop where
  left : NearLeft prioTile left
  right : ∀ tile ∈ right, allowCombineIfRow prioTile prioTile.tilePosY tile = true →
    prioTile.gridX ≤ tile.tilePosX / prioTile.tileWidth ∧
      tile.tilePosX / prioTile.tileWidth - prioTile.gridX ≤ intMax

theorem Near.rightGridDistance_le {row : Row} (h : Near prioTile row.left row.right) :
    rightGridDistance prioTile row ≤ intMax := by
  unfold rightGridDistance
  split
  · rename_i hright
    obtain ⟨tile, rest, heq, hallow, hgrid⟩ := canCombine_cases hright
    rw [hgrid]
    exact (h.right tile (by simp [heq]) hallow).2
  · exact le_refl _

theorem Near.leftGridDistance_lt {row : Row} (h : Near prioTile row.left row.right)
    (hleft : canCombine prioTile row.left = true) : leftGridDistance prioTile row < intMax := by
  obtain ⟨tile, rest, heq, hallow, hgrid⟩ := canCombine_cases hleft
  have hnear := h.left
  rw [heq] at hnear
  rw [leftGridDistance, if_pos hleft, hgrid]
  exact hnear.1 hallow

/-- What is left when the loop goes on beyond the next tile on the left. -/
theorem Near.tail_left {rest : List TileDesc} {rightGridX : Int} (h : Near prioTile (tile :: rest) right)
    (hright : prioTile.gridX ≤ rightGridX)
    (hspan : rightGridX - tile.tilePosX / prioTile.tileWidth < maxCombinedGridSpan) : Near prioTile rest right := by
  refine ⟨h.left.2.resolve_left fun hstop => ?_, h.right⟩
  omega

theorem Near.tail_right {rest : List TileDesc} (h : Near prioTile left (tile :: rest)) : Near prioTile left rest :=
  ⟨h.left, fun t ht => h.right t (List.mem_cons_of_mem tile ht)⟩

/-- The loop of `combineHoriAround` ends, and only takes tiles that can be combined.  Its next tile is that of the
side with the smaller distance, where the distance `intMax` stands for a side without one. -/
theorem combineHoriAround_moved {n : Nat} (row : Row) (hnear : Near prioTile row.left row.right)
    (hend : prioTile.gridX ≤ row.rightGridX)
    (hn : row.left.length + row.right.length < n) (hsorted : Sorted TileDesc.tie row.destTiles)
    (hdistinct : Distinct TileDesc.tie (row.destTiles ++ row.queue)) :
    ∃ row', combineHoriAround prioTile n row = some row' ∧
      Moved TileDesc.tie (fun tile => allowCombine prioTile tile = true) row.queue row.destTiles row'.queue
        row'.destTiles := by
  induction n generalizing row with
  | zero => omega
  | succ n ih =>
    unfold combineHoriAround
    dsimp only
    have hdone : ∃ row', some row = some row' ∧ Moved TileDesc.tie (fun tile => allowCombine prioTile tile = true)
        row.queue row.destTiles row'.queue row'.destTiles := ⟨row, rfl, Moved.refl hsorted⟩
    split
    · exact hdone
    · rename_i hsome
      split
      · rename_i hlt
        split
        · exact hdone
        · -- a missing tile on the left is not nearer than any tile on the right
          rename_i hspan
          have hleft : canCombine prioTile row.left = true := by
            by_contra hno
            have hdist : leftGridDistance prioTile row = intMax := by simp [leftGridDistance, hno]
            have := hnear.rightGridDistance_le
            omega
          obtain ⟨tile, rest, heq, hallow, hgrid⟩ := canCombine_cases hleft
          rw [hgrid] at hspan
          obtain ⟨left, right, dest, lgx, rgx⟩ := row
          obtain rfl : left = tile :: rest := heq
          have hqueue : (Row.mk (tile :: rest) right dest lgx rgx).queue = rest.reverse ++ tile :: right := by
            simp [Row.queue]
          rw [hqueue] at hdistinct ⊢
          have hone :=
            Moved.one (p := fun tile => allowCombine prioTile tile = true) rest.reverse right hsorted hdistinct
            (allowCombine_of_row hallow)
          obtain ⟨row', hrow', hmoved⟩ := ih
            (⟨rest, right, sortedInsert TileDesc.tie dest tile, proposedGridX prioTile (tile :: rest) lgx, rgx⟩ : Row)
            (hnear.tail_left hend (not_le.1 hspan)) hend
            (by simp only [List.length_cons] at hn ⊢; omega) hone.sorted (hone.distinct hdistinct)
          exact ⟨row', hrow', hone.trans hmoved⟩
      · rename_i hlt
        split
        · exact hdone
        · -- a tile on the left is nearer than a missing one on the right
          have hright : canCombine prioTile row.right = true := by
            by_contra hno
            have hleft : canCombine prioTile row.left = true := by
              cases hleft : canCombine prioTile row.left with
              | true => rfl
              | false => simp [hno, hleft] at hsome
            have hdist : rightGridDistance prioTile row = intMax := by simp [rightGridDistance, hno]
            have := hnear.leftGridDistance_lt hleft
            omega
          obtain ⟨tile, rest, heq, hallow, hgrid⟩ := canCombine_cases hright
          obtain ⟨left, right, dest, lgx, rgx⟩ := row
          obtain rfl : right = tile :: rest := heq
          have hone :=
            Moved.one (p := fun tile => allowCombine prioTile tile = true) left.reverse rest hsorted hdistinct
            (allowCombine_of_row hallow)
          obtain ⟨row', hrow', hmoved⟩ := ih
            (⟨left, rest, sortedInsert TileDesc.tie dest tile, lgx, proposedGridX prioTile (tile :: rest) rgx⟩ : Row)
            hnear.tail_right (by rw [hgrid]; exact (hnear.right tile List.mem_cons_self hallow).1)
            (by simp only [List.length_cons] at hn ⊢; omega) hone.sorted (hone.distinct hdistinct)
          exact ⟨row', hrow', hone.trans hmoved⟩

/-! ### The neighbour rows -/

variable (prioTile) (tilePosY leftGridX rightGridX vertDirection : Int)

theorem combineRow_moved (hsorted : Sorted TileDesc.tie destTiles)
    (hdistinct : Distinct TileDesc.tie (destTiles ++ tileQueue)) :
    Moved TileDesc.tie (fun tile => allowCombine prioTile tile = true) tileQueue destTiles
      (combineRow prioTile tilePosY leftGridX rightGridX tileQueue destTiles).1
      (combineRow prioTile tilePosY leftGridX rightGridX tileQueue destTiles).2 := by
  induction tileQueue generalizing destTiles with
  | nil => exact Moved.refl hsorted
  | cons tile tileQueue ih =>
    unfold combineRow
    split
    · exact Moved.refl hsorted
    · rename_i hallow
      have hallow : allowCombine prioTile tile = true := allowCombine_of_row (by simpa using hallow)
      split
      · have hone := Moved.one (p := fun tile => allowCombine prioTile tile = true) [] tileQueue hsorted hdistinct
          hallow
        exact hone.trans (ih hone.sorted (hone.distinct hdistinct))
      · have hrest : Distinct TileDesc.tie (destTiles ++ tileQueue) :=
          hdistinct.sublist ((List.Sublist.refl destTiles).append (List.sublist_cons_self tile tileQueue))
        exact (ih hsorted hrest).prepend [tile]

theorem combineVerticalTiles_moved (hsorted : Sorted TileDesc.tie destTiles)
    (hdistinct : Distinct TileDesc.tie (destTiles ++ tileQueue)) :
    Moved TileDesc.tie (fun tile => allowCombine prioTile tile = true) tileQueue destTiles
      (combineVerticalTiles prioTile leftGridX rightGridX vertDirection tileQueue destTiles).1
      (combineVerticalTiles prioTile leftGridX rightGridX vertDirection tileQueue destTiles).2 := by
  unfold combineVerticalTiles
  dsimp only
  generalize (fun tile : TileDesc => decide (tile.tie < prioTile.tieAt (wrapInt (leftGridX * prioTile.tileWidth))
    (wrapInt (prioTile.tilePosY + prioTile.tileHeight * vertDirection)))) = before
  have hsplit : tileQueue.takeWhile before ++ tileQueue.dropWhile before = tileQueue :=
    List.takeWhile_append_dropWhile
  have hrest : Distinct TileDesc.tie (destTiles ++ tileQueue.dropWhile before) :=
    hdistinct.sublist ((List.Sublist.refl destTiles).append (List.dropWhile_sublist before))
  have hmoved :=
    (combineRow_moved prioTile (wrapInt (prioTile.tilePosY + prioTile.tileHeight * vertDirection)) leftGridX
    rightGridX hsorted hrest).prepend
      (tileQueue.takeWhile before)
  rwa [hsplit] at hmoved

variable {prioTile}

/-- The tiles to render: the chosen tile, and tiles that can be combined with it unless it is a preview. -/
theorem collectTiles_moved (hnear : msg.isPreview = false → Near msg left right)
    (hdistinct : Distinct TileDesc.tie (msg :: (left.reverse ++ right))) :
    ∃ tiles tileQueue, collectTiles msg left right = some (tiles, tileQueue) ∧
      Moved TileDesc.tie (fun tile => allowCombine msg tile = true) (left.reverse ++ right)
        [msg] tileQueue tiles := by
  have hsorted : Sorted TileDesc.tie [msg] := List.pairwise_singleton _ _
  unfold collectTiles
  cases hpreview : msg.isPreview with
  | true => exact ⟨[msg], left.reverse ++ right, rfl, Moved.refl hsorted⟩
  | false =>
    obtain ⟨row, hrow, hhori⟩ := combineHoriAround_moved
      ⟨left, right, [msg], msg.gridX, msg.gridX⟩ (hnear hpreview) (le_refl _) (Nat.lt_succ_self _) hsorted hdistinct
    have habove := combineVerticalTiles_moved msg (expand row.leftGridX row.rightGridX).1
      (expand row.leftGridX row.rightGridX).2 (-1) hhori.sorted
      (hhori.distinct hdistinct)
    have hupper := hhori.trans habove
    have hbelow := combineVerticalTiles_moved msg (expand row.leftGridX row.rightGridX).1
      (expand row.leftGridX row.rightGridX).2 1 hupper.sorted
      (hupper.distinct hdistinct)
    exact ⟨_, _, by simp [hrow], hupper.trans hbelow⟩

/-! ### The combination -/

theorem tileOf_fields (hid : tile.id = -1) (hparams : tile.combineParams = msg.combineParams) :
    TileCombined.tileOf msg.combineParams { tile.fields with imgSize := 0 } = tile.dropImgSize := by
  rw [← hparams]
  obtain ⟨key, ver, imgSize, id, oldWireId, wireId⟩ := tile
  obtain rfl : id = -1 := hid
  rfl

theorem isValid_dropImgSize (h : tile.isValid = true) : tile.dropImgSize.isValid = true := by
  rw [TileDesc.isValid_iff] at h ⊢
  obtain ⟨hview, hpart, hmode, hwidth, hheight, hx, hy, htileWidth, htileHeight, -⟩ := h
  exact ⟨hview, hpart, hmode, hwidth, hheight, hx, hy, htileWidth, htileHeight, le_refl 0⟩

/-- Tiles with the same parameters, none of them a preview, are combined as they are, but for the image sizes. -/
theorem create_tiles {tiles : List TileDesc}
    (h : ∀ tile ∈ msg :: tiles, tile.id = -1 ∧ tile.combineParams = msg.combineParams ∧ tile.isValid = true) :
    ∃ combined, TileCombined.create msg tiles = some combined ∧
      combined.tiles = (msg :: tiles).map TileDesc.dropImgSize := by
  have htiles : ((msg :: tiles).map fun tile => { tile.fields with imgSize := 0 }).map
      (TileCombined.tileOf msg.combineParams) = (msg :: tiles).map TileDesc.dropImgSize := by
    rw [List.map_map]
    apply List.map_congr_left
    intro tile htile
    exact tileOf_fields (h tile htile).1 (h tile htile).2.1
  have hvalid : ((msg :: tiles).map TileDesc.dropImgSize).all TileDesc.isValid = true := by
    rw [List.all_map, List.all_eq_true]
    intro tile htile
    exact isValid_dropImgSize (h tile htile).2.2
  have hparams := TileDesc.isValid_combineParams (h msg (by simp)).2.2
  unfold TileCombined.create TileCombined.ofFields
  rw [if_neg (by simp [hparams])]
  dsimp only
  rw [htiles, if_pos hvalid]
  exact ⟨_, rfl, rfl⟩

/-! ### Popping from one queue -/

variable {getTilePriority : TileDesc → Priority}

theorem findPrioritized_spec (seen tileQueue : List TileDesc) {prioritized : Nat} {priority : Priority}
    (hbest : seen[prioritized]? = some msg) (hpriority : getTilePriority msg = priority)
    (hmax : ∀ tile ∈ seen, (getTilePriority tile).value ≤ priority.value) :
    ∃ best, (seen ++ tileQueue)[(findPrioritized getTilePriority seen.length prioritized priority tileQueue).1]? =
        some best ∧
      getTilePriority best = (findPrioritized getTilePriority seen.length prioritized priority tileQueue).2 ∧
      ∀ tile ∈ seen ++ tileQueue, (getTilePriority tile).value ≤
        (findPrioritized getTilePriority seen.length prioritized priority tileQueue).2.value := by
  induction tileQueue generalizing seen prioritized priority msg with
  | nil => exact ⟨msg, by simpa [findPrioritized] using hbest, hpriority, by simpa [findPrioritized] using hmax⟩
  | cons tile tileQueue ih =>
    have happend : seen ++ tile :: tileQueue = (seen ++ [tile]) ++ tileQueue := by simp
    have hlength : seen.length + 1 = (seen ++ [tile]).length := by simp
    unfold findPrioritized
    rw [happend, hlength]
    split
    · rename_i hlt
      refine ih (seen ++ [tile]) (List.getElem?_concat_length) rfl fun t ht => ?_
      rcases List.mem_append.1 ht with ht | ht
      · have := hmax t ht
        omega
      · rw [List.mem_singleton.1 ht]
    · rename_i hge
      refine ih (seen ++ [tile]) ?_ hpriority fun t ht => ?_
      · rw [List.getElem?_append_left]
        · exact hbest
        · exact (List.getElem?_eq_some_iff.1 hbest).1
      · rcases List.mem_append.1 ht with ht | ht
        · exact hmax t ht
        · rw [List.mem_singleton.1 ht]
          omega

/-- The tile that `popTileQueue` starts from. -/
def prioritizedTile (getTilePriority : TileDesc → Priority) : List TileDesc → Option TileDesc
  | [] => none
  | first :: rest => (first :: rest)[(findPrioritized getTilePriority 1 0 (getTilePriority first) rest).1]?

/-- What the queues hold: accepted tiles of one view, sorted.  The server writes an id into a request only for a
preview. -/
structure QueueOk (viewId : Int) (tileQueue : List TileDesc) : Prop where
  sorted : Sorted TileDesc.tie tileQueue
  view : ∀ tile ∈ tileQueue, tile.canonicalViewId = viewId
  valid : ∀ tile ∈ tileQueue, tile.isValid = true
  fits : ∀ tile ∈ tileQueue, tile.tilePosX ≤ intMax
  id : ∀ tile ∈ tileQueue, -1 ≤ tile.id

/-- A pop takes tiles that can be rendered together out of the queue, one of the highest priority among them, and
leaves the others. -/
structure Pops (getTilePriority : TileDesc → Priority) (tileQueue : List TileDesc) (combined : TileCombined)
    (priority : Priority) (remaining : List TileDesc) : Prop where
  sublist : remaining.Sublist tileQueue
  conserved : ((combined.tiles ++ remaining).map TileDesc.dropImgSize).Perm (tileQueue.map TileDesc.dropImgSize)
  agree : ∀ tile ∈ combined.tiles, ∀ other ∈ combined.tiles, tile.combineParams = other.combineParams
  maximal : ∃ tile ∈ tileQueue, tile.dropImgSize ∈ combined.tiles.map TileDesc.dropImgSize ∧
    getTilePriority tile = priority ∧ ∀ other ∈ tileQueue, (getTilePriority other).value ≤ priority.value

theorem combineParams_of_allowCombine (h : allowCombine msg tile = true) :
    tile.combineParams = msg.combineParams ∧ tile.isPreview = false ∧ msg.isPreview = false := by
  unfold allowCombine at h
  split at h
  · cases h
  · rename_i hpreview
    obtain ⟨hpart, hmode, hwidth, hheight, htileWidth, htileHeight, hview⟩ := TileDesc.sameTileCombineParams_iff.1 h
    simp only [Bool.or_eq_true, not_or, Bool.not_eq_true] at hpreview
    exact ⟨by simp [TileDesc.combineParams, *], hpreview.2, hpreview.1⟩

/-- The combination holds the tiles that were collected. -/
theorem combination_tiles {tiles : List TileDesc} (hmem : msg ∈ tiles)
    (hcombine : ∀ tile ∈ tiles, tile ∈ [msg] ∨ allowCombine msg tile = true)
    (hdistinct : Distinct TileDesc.tie tiles) (hvalid : ∀ tile ∈ tiles, tile.isValid = true ∧ -1 ≤ tile.id) :
    ∃ combined, combination tiles = some combined ∧
      combined.tiles.map TileDesc.dropImgSize = tiles.map TileDesc.dropImgSize ∧
      ∀ tile ∈ combined.tiles, ∀ other ∈ combined.tiles, tile.combineParams = other.combineParams := by
  have hparams : ∀ tile ∈ tiles, tile.combineParams = msg.combineParams := by
    intro tile htile
    rcases hcombine tile htile with h | h
    · rw [List.mem_singleton.1 h]
    · exact (combineParams_of_allowCombine h).1
  rcases tiles with _ | ⟨first, _ | ⟨second, rest⟩⟩
  · simp at hmem
  · exact ⟨TileCombined.ofTile first, rfl, rfl, by simp [TileCombined.ofTile]⟩
  · -- one of the two first tiles is not the chosen one, so that this is not a preview
    have hne : first ≠ second := by
      rintro rfl
      simp [Distinct] at hdistinct
    have hmsg : msg.isPreview = false := by
      by_cases hfirst : first = msg
      · rcases hcombine second (by simp) with h | h
        · exact absurd (hfirst.trans (List.mem_singleton.1 h).symm) hne
        · exact (combineParams_of_allowCombine h).2.2
      · rcases hcombine first (by simp) with h | h
        · exact absurd (List.mem_singleton.1 h) hfirst
        · exact (combineParams_of_allowCombine h).2.2
    have hall : ∀ tile ∈ first :: second :: rest,
        tile.id = -1 ∧ tile.combineParams = first.combineParams ∧ tile.isValid = true := by
      intro tile htile
      refine ⟨?_, (hparams tile htile).trans (hparams first (by simp)).symm, (hvalid tile htile).1⟩
      have hpreview : tile.isPreview = false := by
        rcases hcombine tile htile with h | h
        · rwa [List.mem_singleton.1 h]
        · exact (combineParams_of_allowCombine h).2.1
      have := (hvalid tile htile).2
      simp only [TileDesc.isPreview, decide_eq_false_iff_not] at hpreview
      omega
    obtain ⟨combined, hcreate, htiles⟩ := create_tiles hall
    refine ⟨combined, hcreate, ?_, ?_⟩
    · rw [htiles, List.map_map]
      rfl
    · have hsame : ∀ tile ∈ combined.tiles, tile.combineParams = first.combineParams := by
        intro tile htile
        rw [htiles] at htile
        obtain ⟨t, ht, rfl⟩ := List.mem_map.1 htile
        exact (hall t ht).2.1
      intro tile htile other hother
      rw [hsame tile htile, hsame other hother]

/-- A tile of the row on the left is as far as a missing one, and none stops the loop before it: at the end of the row
the loop reads beyond the queue on the right. -/
def ReadsBeyond (tileQueue : List TileDesc) (msg : TileDesc) : Prop :=
  (∃ tile ∈ tileQueue, allowCombineIfRow msg msg.tilePosY tile = true ∧ msg.gridX - tile.gridX = intMax) ∧
    ∀ tile ∈ tileQueue, allowCombineIfRow msg msg.tilePosY tile = true →
      msg.gridX - tile.gridX < maxCombinedGridSpan ∨ msg.gridX - tile.gridX = intMax

/-- The tiles of a row differ in their columns only. -/
theorem tie_of_row (hmsg : -1 ≤ msg.id) (htile : -1 ≤ tile.id) (h : allowCombineIfRow msg msg.tilePosY tile = true) :
    tile.tie = msg.tieAt tile.tilePosX msg.tilePosY ∧ tile.tileWidth = msg.tileWidth := by
  obtain ⟨hparams, hpreview, hmsgPreview⟩ := combineParams_of_allowCombine (allowCombine_of_row h)
  simp only [TileDesc.combineParams, CombineParams.mk.injEq] at hparams
  simp only [TileDesc.isPreview, decide_eq_false_iff_not] at hpreview hmsgPreview
  simp only [allowCombineIfRow, Bool.and_eq_true, beq_iff_eq] at h
  obtain ⟨hview, hpart, hmode, hwidth, hheight, htileWidth, htileHeight⟩ := hparams
  have hid : tile.id = msg.id := by omega
  rw [TileDesc.tie, TileDesc.tieAt, TileDesc.tieAt, hview, hid, hmode, hpart, hheight, hwidth, htileHeight,
    htileWidth, h.1]
  exact ⟨rfl, rfl⟩

theorem tieAt_lt_iff {x x' y : Int} : msg.tieAt x y < msg.tieAt x' y ↔ x < x' := by
  simp [TileDesc.tieAt, List.cons_lt_cons_iff]

theorem nearLeft_of_forall (h : ∀ tile ∈ left, allowCombineIfRow prioTile prioTile.tilePosY tile = true →
    prioTile.gridX - tile.tilePosX / prioTile.tileWidth < intMax) : NearLeft prioTile left := by
  induction left with
  | nil => trivial
  | cons tile left ih => exact ⟨h tile (by simp), .inr (ih fun t ht => h t (List.mem_cons_of_mem tile ht))⟩

/-- The tiles before one at which the loop stops are nearer than it. -/
theorem nearLeft_of_stop {stop : TileDesc} (hsorted : left.Pairwise fun a b =>
      allowCombineIfRow prioTile prioTile.tilePosY a = true → allowCombineIfRow prioTile prioTile.tilePosY b = true →
        b.tilePosX / prioTile.tileWidth ≤ a.tilePosX / prioTile.tileWidth)
    (hstop : stop ∈ left) (hallow : allowCombineIfRow prioTile prioTile.tilePosY stop = true)
    (hspan : maxCombinedGridSpan ≤ prioTile.gridX - stop.tilePosX / prioTile.tileWidth)
    (hlt : prioTile.gridX - stop.tilePosX / prioTile.tileWidth < intMax) : NearLeft prioTile left := by
  induction left with
  | nil => cases hstop
  | cons tile left ih =>
    obtain ⟨htile, hrest⟩ := List.pairwise_cons.1 hsorted
    rcases List.mem_cons.1 hstop with rfl | hmem
    · exact ⟨fun _ => hlt, .inl ⟨hallow, hspan⟩⟩
    · refine ⟨fun h => ?_, .inr (ih hrest hmem)⟩
      have := htile stop hmem h hallow
      omega

/-- What the numbers of a sorted queue say of the row of one of its tiles. -/
structure RowColumns (msg : TileDesc) (left right : List TileDesc) : Prop where
  column : ∀ tile ∈ left ++ right, allowCombineIfRow msg msg.tilePosY tile = true →
    tile.tilePosX / msg.tileWidth = tile.gridX
  sortedLeft : left.Pairwise fun a b => allowCombineIfRow msg msg.tilePosY a = true →
    allowCombineIfRow msg msg.tilePosY b = true → b.tilePosX / msg.tileWidth ≤ a.tilePosX / msg.tileWidth
  boundLeft : ∀ tile ∈ left, msg.gridX - tile.gridX ≤ intMax
  behind : ∀ tile ∈ right, allowCombineIfRow msg msg.tilePosY tile = true →
    msg.tilePosX < tile.tilePosX ∧ msg.gridX ≤ tile.gridX ∧ tile.gridX - msg.gridX ≤ intMax

theorem QueueOk.rowColumns {viewId : Int} (h : QueueOk viewId (left.reverse ++ msg :: right)) :
    RowColumns msg left right := by
  have hmem : ∀ tile ∈ left ++ right, tile ∈ left.reverse ++ msg :: right := fun tile htile => by
    simp only [List.mem_append, List.mem_reverse, List.mem_cons] at htile ⊢
    tauto
  have hgrid : ∀ tile ∈ left.reverse ++ msg :: right, 0 ≤ tile.gridX ∧ tile.gridX ≤ intMax := by
    intro tile htile
    obtain ⟨-, -, -, -, -, hx, -, hwidth, -⟩ := TileDesc.isValid_iff.1 (h.valid tile htile)
    exact ⟨Int.ediv_nonneg hx (by omega), (Int.ediv_le_self _ hx).trans (h.fits tile htile)⟩
  have hmsg := hgrid msg (by simp)
  have hwidth : 0 < msg.tileWidth := (TileDesc.isValid_iff.1 (h.valid msg (by simp))).2.2.2.2.2.2.2.1
  have hrow : ∀ tile ∈ left ++ right, allowCombineIfRow msg msg.tilePosY tile = true →
      tile.tie = msg.tieAt tile.tilePosX msg.tilePosY ∧ tile.tileWidth = msg.tileWidth := fun tile htile hallow =>
    tie_of_row (h.id msg (by simp)) (h.id tile (hmem tile htile)) hallow
  have hcolumn : ∀ tile ∈ left ++ right, allowCombineIfRow msg msg.tilePosY tile = true →
      tile.tilePosX / msg.tileWidth = tile.gridX := fun tile htile hallow => by
    rw [TileDesc.gridX, (hrow tile htile hallow).2]
  obtain ⟨hleft, hright, -⟩ := List.pairwise_append.1 h.sorted
  refine ⟨hcolumn, ?_, fun tile htile => ?_, fun tile htile hallow => ?_⟩
  · refine (List.pairwise_reverse.1 hleft).imp_of_mem fun {a b} ha hb hlt hallowA hallowB => ?_
    rw [(hrow a (List.mem_append_left _ ha) hallowA).1, (hrow b (List.mem_append_left _ hb) hallowB).1,
      tieAt_lt_iff] at hlt
    exact Int.ediv_le_ediv hwidth hlt.le
  · have := hgrid tile (hmem tile (List.mem_append_left _ htile))
    omega
  · have hlt := (List.pairwise_cons.1 hright).1 tile htile
    rw [(hrow tile (List.mem_append_right _ htile) hallow).1, TileDesc.tie, tieAt_lt_iff] at hlt
    have hle : msg.tilePosX / msg.tileWidth ≤ tile.tilePosX / msg.tileWidth := Int.ediv_le_ediv hwidth hlt.le
    rw [hcolumn tile (List.mem_append_right _ htile) hallow] at hle
    have := hgrid tile (hmem tile (List.mem_append_right _ htile))
    exact ⟨hlt, hle, by omega⟩

theorem RowColumns.near (h : RowColumns msg left right) (hends : ¬ ReadsBeyond (left.reverse ++ msg :: right) msg) :
    Near msg left right := by
  refine ⟨?_, fun tile htile hallow => ?_⟩
  · have hleft : ∀ tile ∈ left, allowCombineIfRow msg msg.tilePosY tile = true →
        tile.tilePosX / msg.tileWidth = tile.gridX :=
      fun tile htile => h.column tile (List.mem_append_left _ htile)
    by_cases hfar : ∃ tile ∈ left, allowCombineIfRow msg msg.tilePosY tile = true ∧ msg.gridX - tile.gridX = intMax
    · -- another tile of the row stops the loop
      obtain ⟨far, hmem, hfar⟩ := hfar
      have hstop : ∃ stop ∈ left.reverse ++ msg :: right, allowCombineIfRow msg msg.tilePosY stop = true ∧
          maxCombinedGridSpan ≤ msg.gridX - stop.gridX ∧ msg.gridX - stop.gridX ≠ intMax := by
        by_contra hno
        refine hends ⟨⟨far, List.mem_append_left _ (List.mem_reverse.2 hmem), hfar⟩, fun tile htile hallow => ?_⟩
        by_contra hneither
        rw [not_or, not_lt] at hneither
        exact hno ⟨tile, htile, hallow, hneither⟩
      obtain ⟨stop, hin, hallow, hspan, hne⟩ := hstop
      have hstopLeft : stop ∈ left := by
        have hpos : 0 < maxCombinedGridSpan := by decide
        simp only [List.mem_append, List.mem_reverse, List.mem_cons] at hin
        rcases hin with hin | rfl | hin
        · exact hin
        · omega
        · have := (h.behind stop hin hallow).2.1
          omega
      have := h.boundLeft stop hstopLeft
      exact nearLeft_of_stop h.sortedLeft hstopLeft hallow (by rw [hleft stop hstopLeft hallow]; exact hspan)
        (by rw [hleft stop hstopLeft hallow]; omega)
    · refine nearLeft_of_forall fun tile htile hallow => ?_
      rw [hleft tile htile hallow]
      exact lt_of_le_of_ne (h.boundLeft tile htile) fun heq => hfar ⟨tile, htile, hallow, heq⟩
  · rw [h.column tile (List.mem_append_right _ htile) hallow]
    exact (h.behind tile htile hallow).2

/-- A pop of one queue: the tile it starts from, what stands around it, and the tiles it collects. -/
structure Collects (getTilePriority : TileDesc → Priority) (tileQueue : List TileDesc) (msg : TileDesc)
    (left right tiles : List TileDesc) (combined : TileCombined) (priority : Priority) (remaining : List TileDesc) :
    Prop where
  chosen : prioritizedTile getTilePriority tileQueue = some msg
  split : left.reverse ++ msg :: right = tileQueue
  near : Near msg left right
  collect : collectTiles msg left right = some (tiles, remaining)
  moved : Moved TileDesc.tie (fun tile => allowCombine msg tile = true) (left.reverse ++ right) [msg] remaining tiles
  mem : msg ∈ tiles
  tiles : combined.tiles.map TileDesc.dropImgSize = tiles.map TileDesc.dropImgSize
  agree : ∀ tile ∈ combined.tiles, ∀ other ∈ combined.tiles, tile.combineParams = other.combineParams
  urgent : getTilePriority msg = priority
  maximal : ∀ other ∈ tileQueue, (getTilePriority other).value ≤ priority.value

theorem popFrom_collects (getTilePriority : TileDesc → Priority) {viewId : Int} (h : QueueOk viewId tileQueue)
    (hne : tileQueue ≠ [])
    (hends : ∀ msg, prioritizedTile getTilePriority tileQueue = some msg → ¬ ReadsBeyond tileQueue msg) :
    ∃ msg left right tiles combined priority remaining,
      popFrom getTilePriority tileQueue = some (combined, priority, remaining) ∧
        Collects getTilePriority tileQueue msg left right tiles combined priority remaining := by
  cases tileQueue with
  | nil => exact absurd rfl hne
  | cons first rest =>
    obtain ⟨msg, hmsg, hpriority, hmax⟩ := findPrioritized_spec [first] rest
      (show [first][0]? = some first from rfl) (Eq.refl (getTilePriority first)) (by simp)
    have hchosen : prioritizedTile getTilePriority (first :: rest) = some msg := by simpa [prioritizedTile] using hmsg
    have hends := hends msg hchosen
    rw [List.length_singleton] at hmsg hpriority hmax
    rcases hfound : findPrioritized getTilePriority 1 0 (getTilePriority first) rest with ⟨prioritized, priority⟩
    rw [hfound] at hmsg hpriority hmax
    change (first :: rest)[prioritized]? = some msg at hmsg
    obtain ⟨hlt, hget⟩ := List.getElem?_eq_some_iff.1 hmsg
    have hsplit : ((first :: rest).take prioritized).reverse.reverse ++ msg ::
      (first :: rest).drop (prioritized + 1) =
        first :: rest := by
      rw [List.reverse_reverse, ← hget, ← List.drop_eq_getElem_cons hlt, List.take_append_drop]
    generalize hleft : ((first :: rest).take prioritized).reverse = left at hsplit
    generalize hright : (first :: rest).drop (prioritized + 1) = right at hsplit
    rw [← hsplit] at h hends
    have hperm : (msg :: (left.reverse ++ right)).Perm (left.reverse ++ msg :: right) := List.perm_middle.symm
    have hdistinct : Distinct TileDesc.tie (msg :: (left.reverse ++ right)) := h.sorted.distinct.perm hperm.symm
    have hnear := h.rowColumns.near hends
    obtain ⟨tiles, remaining, hcollect, hmoved⟩ := collectTiles_moved (fun _ => hnear) hdistinct
    have hall : (tiles ++ remaining).Perm (left.reverse ++ msg :: right) := hmoved.perm.trans hperm
    have hin : msg ∈ tiles := by
      have : msg ∈ tiles ++ remaining := hall.mem_iff.2 (by simp)
      rcases List.mem_append.1 this with h' | h'
      · exact h'
      · -- the chosen tile is not left in the queue
        have hnot : msg ∉ left.reverse ++ right := fun hm => by
          have := (List.nodup_cons.1 hdistinct).1
          exact this (List.mem_map_of_mem hm)
        exact absurd (hmoved.sublist.subset h') hnot
    obtain ⟨combined, hcombination, htiles, hagree⟩ := combination_tiles hin hmoved.moved hmoved.sorted.distinct
      fun tile htile => by
        have hmem := hall.mem_iff.1 (List.mem_append_left remaining htile)
        exact ⟨h.valid tile hmem, h.id tile hmem⟩
    refine ⟨msg, left, right, tiles, combined, priority, remaining, ?_,
      ⟨hchosen, hsplit, hnear, hcollect, hmoved, hin, htiles, hagree, hpriority, hmax⟩⟩
    unfold popFrom
    simp only [hfound, hmsg, hleft, hright, hcollect, hcombination, Option.map_some]

theorem popFrom_pops (getTilePriority : TileDesc → Priority) {viewId : Int} (h : QueueOk viewId tileQueue)
    (hne : tileQueue ≠ [])
    (hends : ∀ msg, prioritizedTile getTilePriority tileQueue = some msg → ¬ ReadsBeyond tileQueue msg) :
    ∃ combined priority remaining, popFrom getTilePriority tileQueue = some (combined, priority, remaining) ∧
      Pops getTilePriority tileQueue combined priority remaining := by
  obtain ⟨msg, left, right, tiles, combined, priority, remaining, hpop, hcollects⟩ :=
    popFrom_collects getTilePriority h hne hends
  have hmoved := hcollects.moved
  have hall : (tiles ++ remaining).Perm tileQueue := by
    have hperm : (msg :: (left.reverse ++ right)).Perm (left.reverse ++ msg :: right) := List.perm_middle.symm
    rw [← hcollects.split]
    exact hmoved.perm.trans hperm
  refine ⟨combined, priority, remaining, hpop, ?_, ?_, hcollects.agree, msg, ?_, ?_, hcollects.urgent,
    hcollects.maximal⟩
  · rw [← hcollects.split]
    exact hmoved.sublist.trans ((List.Sublist.refl _).append (List.sublist_cons_self msg right))
  · rw [List.map_append, hcollects.tiles, ← List.map_append]
    exact hall.map TileDesc.dropImgSize
  · rw [← hcollects.split]
    simp
  · rw [hcollects.tiles]
    exact List.mem_map_of_mem hcollects.mem

/-! ### Where the tiles come from -/

theorem combineHoriAround_mem {n : Nat} {row row' : Row} (h : combineHoriAround prioTile n row = some row')
    (ht : tile ∈ row'.destTiles ++ row'.queue) : tile ∈ row.destTiles ++ row.queue := by
  induction n generalizing row with
  | zero => cases h
  | succ n ih =>
    unfold combineHoriAround at h
    dsimp only at h
    split at h
    · cases h
      exact ht
    · split at h
      · split at h
        · cases h
          exact ht
        · split at h
          · cases h
          · rename_i taken left hleft
            have hmem := ih h
            simp only [Row.queue, List.mem_append, List.mem_reverse, hleft, List.mem_cons] at hmem ⊢
            rcases hmem with hmem | hmem
            · rcases mem_sortedInsert hmem with rfl | hmem
              · exact .inr (.inl (.inl rfl))
              · exact .inl hmem
            · tauto
      · split at h
        · cases h
          exact ht
        · split at h
          · cases h
          · rename_i taken right hright
            have hmem := ih h
            simp only [Row.queue, List.mem_append, List.mem_reverse, hright, List.mem_cons] at hmem ⊢
            rcases hmem with hmem | hmem
            · rcases mem_sortedInsert hmem with rfl | hmem
              · exact .inr (.inr (.inl rfl))
              · exact .inl hmem
            · tauto

theorem combineRow_mem {leftGridX rightGridX : Int}
    (ht : tile ∈ (combineRow prioTile tilePosY leftGridX rightGridX tileQueue destTiles).2 ++
      (combineRow prioTile tilePosY leftGridX rightGridX tileQueue destTiles).1) : tile ∈ destTiles ++ tileQueue := by
  induction tileQueue generalizing destTiles with
  | nil => exact ht
  | cons first tileQueue ih =>
    unfold combineRow at ht
    split at ht
    · exact ht
    · split at ht
      · have hmem := ih ht
        simp only [List.mem_append, List.mem_cons] at hmem ⊢
        rcases hmem with hmem | hmem
        · rcases mem_sortedInsert hmem with rfl | hmem
          · exact .inr (.inl rfl)
          · exact .inl hmem
        · exact .inr (.inr hmem)
      · have hmem := @ih destTiles
        simp only [List.mem_append, List.mem_cons] at ht hmem ⊢
        tauto

theorem combineVerticalTiles_mem {leftGridX rightGridX vertDirection : Int}
    (ht : tile ∈ (combineVerticalTiles prioTile leftGridX rightGridX vertDirection tileQueue destTiles).2 ++
      (combineVerticalTiles prioTile leftGridX rightGridX vertDirection tileQueue destTiles).1) :
    tile ∈ destTiles ++ tileQueue := by
  unfold combineVerticalTiles at ht
  dsimp only at ht
  generalize (fun tile : TileDesc => decide (tile.tie < prioTile.tieAt (wrapInt (leftGridX * prioTile.tileWidth))
    (wrapInt (prioTile.tilePosY + prioTile.tileHeight * vertDirection)))) = before at ht
  have hsplit : tile ∈ tileQueue ↔ tile ∈ tileQueue.takeWhile before ∨ tile ∈ tileQueue.dropWhile before := by
    rw [← List.mem_append, List.takeWhile_append_dropWhile]
  have hrow := @combineRow_mem prioTile tile (tileQueue.dropWhile before) destTiles
    (wrapInt (prioTile.tilePosY + prioTile.tileHeight * vertDirection)) leftGridX rightGridX
  simp only [List.mem_append, hsplit] at ht hrow ⊢
  tauto

theorem collectTiles_mem {tiles remaining : List TileDesc} (h : collectTiles msg left right = some (tiles, remaining))
    (ht : tile ∈ tiles ++ remaining) : tile ∈ left.reverse ++ msg :: right := by
  have hsplit : tile ∈ left.reverse ++ msg :: right ↔ tile ∈ [msg] ++ (left.reverse ++ right) := by
    simp only [List.mem_append, List.mem_cons, List.not_mem_nil, or_false]
    tauto
  rw [hsplit]
  unfold collectTiles at h
  split at h
  · cases h
    exact ht
  · obtain ⟨row, hrow, heq⟩ := Option.map_eq_some_iff.1 h
    cases heq
    exact combineHoriAround_mem hrow (combineVerticalTiles_mem (combineVerticalTiles_mem ht))

/-- What is popped from a queue, and what is left in it, was in it. -/
theorem popFrom_mem {getTilePriority : TileDesc → Priority} {combined : TileCombined} {priority : Priority}
    {remaining : List TileDesc} (h : popFrom getTilePriority tileQueue = some (combined, priority, remaining)) :
    (∃ tiles, combination tiles = some combined ∧ ∀ tile ∈ tiles, tile ∈ tileQueue) ∧
      ∀ tile ∈ remaining, tile ∈ tileQueue := by
  cases tileQueue with
  | nil => cases h
  | cons first rest =>
    simp only [popFrom] at h
    split at h
    · cases h
    · rename_i msg hmsg
      split at h
      · cases h
      · rename_i tiles tileQueue hcollect
        obtain ⟨other, hcombination, heq⟩ := Option.map_eq_some_iff.1 h
        cases heq
        obtain ⟨hlt, hget⟩ := List.getElem?_eq_some_iff.1 hmsg
        have hall : ∀ tile ∈ tiles ++ remaining, tile ∈ first :: rest := by
          intro tile htile
          have hmem := collectTiles_mem hcollect htile
          rwa [List.reverse_reverse, ← hget, ← List.drop_eq_getElem_cons hlt, List.take_append_drop] at hmem
        exact ⟨⟨tiles, hcombination, fun tile htile => hall tile (List.mem_append_left _ htile)⟩,
          fun tile htile => hall tile (List.mem_append_right _ htile)⟩

/-! ### Runs -/

inductive Event where
  | pushTileQueue (desc : TileDesc)
  | pushTileCombineRequest (params : CombineParams) (fields : List TileFields)
  | popTileQueue (prio : TilePrioritizer)
  | clearTileQueue

/-- A tile that the server requests: accepted, and with an id only if it is a preview. -/
def requested (desc : TileDesc) : Bool := desc.isValid && desc.tilePosX ≤ intMax && -1 ≤ desc.id

/-- Nothing is popped from empty queues. -/
def step (q : KitQueue) : Event → Option KitQueue
  | .pushTileQueue desc => if requested desc then some (q.pushTileQueue desc) else none
  | .pushTileCombineRequest params fields =>
    (TileCombined.ofFields params fields).bind fun tileCombined =>
      if tileCombined.tiles.all requested then some (q.pushTileCombineRequest tileCombined) else none
  | .popTileQueue prio =>
    if q.isTileQueueEmpty then none else (q.popTileQueue prio).map fun (_, _, remaining) => remaining
  | .clearTileQueue => some {}

/-- The queue that `popTileQueue` pops from. -/
def chosenQueue (q : KitQueue) (prio : TilePrioritizer) : Option (Int × List TileDesc) :=
  (q.chooseTileQueue prio.getViewIdsByInactivity).bind fun i => q.tileQueues[i]?

/-- The tile that `popTileQueue` starts from is not `intMax` grid columns right of a tile of its row. -/
def apart (q : KitQueue) (prio : TilePrioritizer) : Bool :=
  (q.chosenQueue prio).all fun queue =>
    (prioritizedTile prio.getTilePriority queue.2).all fun msg =>
      queue.2.all fun tile => !allowCombineIfRow msg msg.tilePosY tile || decide (msg.gridX - tile.gridX ≠ intMax)

/-- The next pop reads beyond the queue. -/
def PopsBeyond (q : KitQueue) (prio : TilePrioritizer) : Prop :=
  ∃ queue msg, q.chosenQueue prio = some queue ∧ prioritizedTile prio.getTilePriority queue.2 = some msg ∧
    ReadsBeyond queue.2 msg

def Apart (q : KitQueue) : Event → Prop
  | .popTileQueue prio => q.apart prio = true
  | _ => True

def Ok (q : KitQueue) : Prop := ∀ queue ∈ q.tileQueues, QueueOk queue.1 queue.2

variable {q : KitQueue} {prio : TilePrioritizer} {viewId : Int}

theorem QueueOk.nil : QueueOk viewId [] := ⟨List.Pairwise.nil, by simp, by simp, by simp, by simp⟩

theorem QueueOk.sublist {remaining : List TileDesc} (h : QueueOk viewId tileQueue)
    (hsub : remaining.Sublist tileQueue) : QueueOk viewId remaining :=
  ⟨h.sorted.sublist hsub, fun t ht => h.view t (hsub.subset ht), fun t ht => h.valid t (hsub.subset ht),
    fun t ht => h.fits t (hsub.subset ht), fun t ht => h.id t (hsub.subset ht)⟩

theorem QueueOk.sortedInsert (h : QueueOk viewId tileQueue) (hview : tile.canonicalViewId = viewId)
    (hrequested : requested tile = true) : QueueOk viewId (sortedInsert TileDesc.tie tileQueue tile) := by
  simp only [requested, Bool.and_eq_true, decide_eq_true_eq] at hrequested
  obtain ⟨⟨hvalid, hfits⟩, hid⟩ := hrequested
  have hall : ∀ {p : TileDesc → Prop}, p tile → (∀ t ∈ tileQueue, p t) →
      ∀ t ∈ SortedVector.sortedInsert TileDesc.tie tileQueue tile, p t := by
    intro p htile hqueue t ht
    rcases mem_sortedInsert ht with rfl | ht
    · exact htile
    · exact hqueue t ht
  exact ⟨h.sorted.sortedInsert, hall hview h.view, hall hvalid h.valid, hall hfits h.fits, hall hid h.id⟩

theorem QueueOk.foldl {tiles : List TileDesc} (h : QueueOk viewId tileQueue)
    (htiles : ∀ tile ∈ tiles, tile.canonicalViewId = viewId ∧ requested tile = true) :
    QueueOk viewId (tiles.foldl (SortedVector.sortedInsert TileDesc.tie) tileQueue) := by
  induction tiles generalizing tileQueue with
  | nil => exact h
  | cons tile tiles ih =>
    obtain ⟨hview, hrequested⟩ := htiles tile (by simp)
    exact ih (h.sortedInsert hview hrequested) fun t ht => htiles t (List.mem_cons_of_mem tile ht)

theorem updateTileQueue_all {p : Int → List TileDesc → Prop} {f : List TileDesc → List TileDesc}
    {queues : List (Int × List TileDesc)} (hnil : p viewId []) (h : ∀ queue ∈ queues, p queue.1 queue.2)
    (hf : ∀ tileQueue, p viewId tileQueue → p viewId (f tileQueue)) :
    ∀ queue ∈ updateTileQueue viewId f queues, p queue.1 queue.2 := by
  induction queues with
  | nil =>
    intro queue hqueue
    obtain rfl := List.mem_singleton.1 hqueue
    exact hf [] hnil
  | cons head queues ih =>
    have hhead := h head (by simp)
    have hrest : ∀ queue ∈ queues, p queue.1 queue.2 := fun queue hq => h queue (List.mem_cons_of_mem head hq)
    unfold updateTileQueue
    split
    · rename_i hview
      intro queue hqueue
      rcases List.mem_cons.1 hqueue with rfl | hqueue
      · rw [← hview] at hf
        exact hf head.2 hhead
      · exact hrest queue hqueue
    · intro queue hqueue
      rcases List.mem_cons.1 hqueue with rfl | hqueue
      · exact hhead
      · exact ih hrest queue hqueue

theorem updateTileQueue_ok {f : List TileDesc → List TileDesc} {queues : List (Int × List TileDesc)}
    (h : ∀ queue ∈ queues, QueueOk queue.1 queue.2)
    (hf : ∀ tileQueue, QueueOk viewId tileQueue → QueueOk viewId (f tileQueue)) :
    ∀ queue ∈ updateTileQueue viewId f queues, QueueOk queue.1 queue.2 :=
  updateTileQueue_all QueueOk.nil h hf

/-- The view whose queue is popped: the least inactive one that has tiles, or any one if no listed view has tiles. -/
def IsLeastInactive (viewIds : List Int) (queues : List (Int × List TileDesc)) (viewId : Int) : Prop :=
  (∃ before after, viewIds = before ++ viewId :: after ∧
    ∀ earlier ∈ before, ∀ queue ∈ queues, queue.1 = earlier → queue.2 = []) ∨
  ∀ earlier ∈ viewIds, ∀ queue ∈ queues, queue.1 = earlier → queue.2 = []

theorem findIdx_none {queues : List (Int × List TileDesc)}
    (h : queues.findIdx? (fun queue => queue.1 == viewId && !queue.2.isEmpty) = none) :
    ∀ queue ∈ queues, queue.1 = viewId → queue.2 = [] := by
  intro queue hqueue hview
  have := List.findIdx?_eq_none_iff.1 h queue hqueue
  simpa [hview] using this

theorem chosenQueue_spec (prio : TilePrioritizer) (hne : q.isTileQueueEmpty = false) :
    ∃ i queue, q.chooseTileQueue prio.getViewIdsByInactivity = some i ∧ q.tileQueues[i]? = some queue ∧
      queue.2 ≠ [] ∧ IsLeastInactive prio.getViewIdsByInactivity q.tileQueues queue.1 := by
  unfold chooseTileQueue
  cases hfirst : prio.getViewIdsByInactivity.findSome? fun viewId =>
      q.tileQueues.findIdx? fun queue => queue.1 == viewId && !queue.2.isEmpty with
  | some i =>
    obtain ⟨before, viewId, after, hviews, hfound, hbefore⟩ := List.findSome?_eq_some_iff.1 hfirst
    obtain ⟨hlt, hqueue, -⟩ := List.findIdx?_eq_some_iff_getElem.1 hfound
    simp only [Bool.and_eq_true, beq_iff_eq, Bool.not_eq_true', List.isEmpty_eq_false_iff] at hqueue
    refine ⟨i, q.tileQueues[i], rfl, List.getElem?_eq_getElem hlt, hqueue.2, Or.inl ⟨before, after, ?_, ?_⟩⟩
    · rw [hviews, hqueue.1]
    · exact fun earlier he => findIdx_none (hbefore earlier he)
  | none =>
    have hnone := List.findSome?_eq_none_iff.1 hfirst
    cases hany : q.tileQueues.findIdx? fun queue => !queue.2.isEmpty with
    | some i =>
      obtain ⟨hlt, hqueue, -⟩ := List.findIdx?_eq_some_iff_getElem.1 hany
      refine ⟨i, q.tileQueues[i], rfl, List.getElem?_eq_getElem hlt, by simpa using hqueue, Or.inr ?_⟩
      exact fun earlier he => findIdx_none (hnone earlier he)
    | none =>
      have hall := List.findIdx?_eq_none_iff.1 hany
      have hempty : q.isTileQueueEmpty = true := by
        rw [isTileQueueEmpty, List.all_eq_true]
        intro queue hqueue
        simpa using hall queue hqueue
      rw [hempty] at hne
      cases hne

/-- What a pop returns and leaves. -/
structure PopResult (q : KitQueue) (prio : TilePrioritizer) (combined : TileCombined) (priority : Priority)
    (q' : KitQueue) : Prop where
  nonempty : combined.tiles ≠ []
  conserved : ((combined.tiles ++ q'.tiles).map TileDesc.dropImgSize).Perm (q.tiles.map TileDesc.dropImgSize)
  agree : ∀ tile ∈ combined.tiles, ∀ other ∈ combined.tiles, tile.combineParams = other.combineParams
  maximal : ∃ queue ∈ q.tileQueues, IsLeastInactive prio.getViewIdsByInactivity q.tileQueues queue.1 ∧
    ∃ tile ∈ queue.2, tile.dropImgSize ∈ combined.tiles.map TileDesc.dropImgSize ∧
      prio.getTilePriority tile = priority ∧
        ∀ other ∈ queue.2, (prio.getTilePriority other).value ≤ priority.value

theorem not_popsBeyond_of_apart (hapart : q.apart prio = true) : ¬ q.PopsBeyond prio := by
  rintro ⟨queue, msg, hchosen, hmsg, ⟨tile, htile, hallow, hdist⟩, -⟩
  simp only [apart, hchosen, Option.all_some, hmsg, List.all_eq_true, Bool.or_eq_true, Bool.not_eq_true',
    decide_eq_true_eq] at hapart
  rcases hapart tile htile with hno | hne
  · rw [hallow] at hno
    cases hno
  · exact hne hdist

theorem popTileQueue_result (h : q.Ok) (hne : q.isTileQueueEmpty = false) (hends : ¬ q.PopsBeyond prio) :
    ∃ combined priority q', q.popTileQueue prio = some (combined, priority, q') ∧ q'.Ok ∧
      PopResult q prio combined priority q' := by
  obtain ⟨i, queue, hchoose, hqueue, hnil, hleast⟩ := chosenQueue_spec prio hne
  obtain ⟨hlt, hget⟩ := List.getElem?_eq_some_iff.1 hqueue
  have hmem : queue ∈ q.tileQueues := List.mem_of_getElem? hqueue
  have hchosen : q.chosenQueue prio = some queue := by simp [chosenQueue, hchoose, hqueue]
  obtain ⟨combined, priority, remaining, hpop, hpops⟩ :=
    popFrom_pops prio.getTilePriority (h queue hmem) hnil fun msg hmsg hbeyond =>
      hends ⟨queue, msg, hchosen, hmsg, hbeyond⟩
  refine ⟨combined, priority, ⟨q.tileQueues.set i (queue.1, remaining)⟩, ?_, ?_, ?_⟩
  · simp [popTileQueue, hchoose, hqueue, hpop]
  · intro other hother
    rcases List.mem_or_eq_of_mem_set hother with hother | rfl
    · exact h other hother
    · exact (h queue hmem).sublist hpops.sublist
  · obtain ⟨tile, htile, hin, hpriority, hmax⟩ := hpops.maximal
    refine ⟨?_, ?_, hpops.agree, ⟨queue, hmem, hleast, tile, htile, hin, hpriority, hmax⟩⟩
    · rintro hnone
      simp [hnone] at hin
    · -- the other queues are not touched
      have hset : q.tileQueues.set i (queue.1, remaining) =
          q.tileQueues.take i ++ (queue.1, remaining) :: q.tileQueues.drop (i + 1) :=
        List.set_eq_take_append_cons_drop.trans (if_pos hlt)
      have hsplit : q.tileQueues = q.tileQueues.take i ++ queue :: q.tileQueues.drop (i + 1) := by
        conv_lhs => rw [← List.take_append_drop i q.tileQueues, List.drop_eq_getElem_cons hlt, hget]
      have htiles : q.tiles =
          (q.tileQueues.take i).flatMap Prod.snd ++ (queue.2 ++ (q.tileQueues.drop (i + 1)).flatMap Prod.snd) := by
        rw [tiles]
        conv_lhs => rw [hsplit]
        rw [List.flatMap_append, List.flatMap_cons]
      rw [htiles, tiles, hset, List.flatMap_append, List.flatMap_cons]
      simp only [List.map_append]
      have hconserved := hpops.conserved
      rw [List.map_append] at hconserved
      refine (List.perm_append_comm_assoc _ _ _).trans (List.Perm.append_left _ ?_)
      rw [← List.append_assoc]
      exact hconserved.append_right _

theorem step_ok {q' : KitQueue} {e : Event} (h : q.Ok) (hends : ∀ prio, e = .popTileQueue prio → ¬ q.PopsBeyond prio)
    (hs : q.step e = some q') : q'.Ok := by
  cases e with
  | pushTileQueue desc =>
    simp only [step] at hs
    split at hs
    · rename_i hrequested
      cases hs
      exact updateTileQueue_ok h fun tileQueue hok => hok.sortedInsert rfl hrequested
    · cases hs
  | pushTileCombineRequest params fields =>
    obtain ⟨tileCombined, hcombined, hs⟩ := Option.bind_eq_some_iff.1 hs
    split at hs
    · rename_i hrequested
      cases hs
      refine updateTileQueue_ok h fun tileQueue hok => hok.foldl fun tile htile => ⟨?_, ?_⟩
      · unfold TileCombined.ofFields at hcombined
        split at hcombined
        · cases hcombined
        · dsimp only at hcombined
          split at hcombined
          · cases hcombined
            obtain ⟨fields, -, rfl⟩ := List.mem_map.1 htile
            rfl
          · cases hcombined
      · exact List.all_eq_true.1 hrequested tile htile
    · cases hs
  | popTileQueue prio =>
    simp only [step] at hs
    split at hs
    · cases hs
    · rename_i hne
      obtain ⟨combined, priority, remaining, hpop, hok, -⟩ :=
        popTileQueue_result h (by simpa using hne) (hends prio rfl)
      rw [hpop] at hs
      cases hs
      exact hok
  | clearTileQueue =>
    cases hs
    intro queue hqueue
    cases hqueue

/-- The queues stay sorted, without equal tiles, and every pop conserves the tiles and returns tiles that can be
combined, one of the highest priority of its view among them. -/
theorem tileQueues_conserved (h : Run.Reachable (fun q => q = {}) step Apart q) :
    (∀ queue ∈ q.tileQueues, Sorted TileDesc.tie queue.2 ∧ queue.2.Pairwise fun a b => a.isEqual b = false) ∧
      ∀ prio : TilePrioritizer, q.isTileQueueEmpty = false → q.apart prio = true →
        ∃ combined priority q', q.popTileQueue prio = some (combined, priority, q') ∧
          PopResult q prio combined priority q' := by
  have hok : q.Ok := by
    refine h.invariant Ok ?_ fun q e q' _ hinv hapart hs => step_ok hinv (fun prio he => ?_) hs
    · rintro q rfl queue hqueue
      cases hqueue
    · subst he
      exact not_popsBeyond_of_apart hapart
  constructor
  · intro queue hqueue
    have hsorted := (hok queue hqueue).sorted
    refine ⟨hsorted, hsorted.imp fun {a b} hlt => ?_⟩
    cases hequal : a.isEqual b with
    | true => exact absurd (TileDesc.isEqual_iff.1 hequal) hlt.ne
    | false => rfl
  · intro prio hne hapart
    obtain ⟨combined, priority, q', hpop, -, hresult⟩ := popTileQueue_result hok hne (not_popsBeyond_of_apart hapart)
    exact ⟨combined, priority, q', hpop, hresult⟩

/-- A tile of a view in the first row. -/
def tileAt (viewId column : Int) : TileDesc where
  canonicalViewId := viewId
  part := 0
  mode := 0
  width := 256
  height := 256
  tilePosX := 3840 * column
  tilePosY := 0
  tileWidth := 3840
  tileHeight := 3840
  ver := 1
  imgSize := 0
  id := -1
  oldWireId := 0
  wireId := 0

/-- The view 1 is the less active one, but its tiles are more urgent. -/
def urgentSecond : TilePrioritizer where
  getTilePriority tile := if tile.canonicalViewId = 1 then .VERYHIGH else .NORMAL
  getViewIdsByInactivity := [0, 1]

/-- Tiles of two views, of which one has three columns. -/
def twoViews : List Event :=
  [.pushTileQueue (tileAt 1 4), .pushTileQueue (tileAt 0 2), .pushTileQueue (tileAt 1 0), .pushTileQueue (tileAt 0 0),
    .pushTileQueue (tileAt 0 1), .pushTileQueue (tileAt 0 20)]

/-- The second column is the most urgent one. -/
def urgentColumn : TilePrioritizer where
  getTilePriority tile := if tile.tilePosX = 3840 then .HIGH else .NORMAL
  getViewIdsByInactivity := [0, 1]

theorem tileQueues_conserved_row : ∃ q, Run.run step {} twoViews = some q ∧ q.tiles.length = 6 ∧
    ∃ combined q', q.popTileQueue urgentColumn = some (combined, .HIGH, q') ∧
      combined.tiles = [tileAt 0 0, tileAt 0 1, tileAt 0 2] ∧
      q'.tileQueues = [(1, [tileAt 1 0, tileAt 1 4]), (0, [tileAt 0 20])] ∧
        PopResult q urgentColumn combined .HIGH q' := by
  obtain ⟨q, hrun, hlength, hpop, hempty, hapart⟩ : ∃ q, Run.run step {} twoViews = some q ∧ q.tiles.length = 6 ∧
      (∃ combined q', q.popTileQueue urgentColumn = some (combined, .HIGH, q') ∧
        combined.tiles = [tileAt 0 0, tileAt 0 1, tileAt 0 2] ∧
          q'.tileQueues = [(1, [tileAt 1 0, tileAt 1 4]), (0, [tileAt 0 20])]) ∧
      q.isTileQueueEmpty = false ∧ q.apart urgentColumn = true :=
    ⟨_, rfl, rfl, ⟨_, _, rfl, rfl, rfl⟩, rfl, rfl⟩
  have hreach : Run.Reachable (fun q => q = {}) step Apart q :=
    Run.Reachable.of_run_of_ok (.start rfl) (by simp [twoViews, Apart]) hrun
  obtain ⟨combined, q', hpop, htiles, hrest⟩ := hpop
  obtain ⟨combined', priority, q'', hpop', hresult⟩ := (tileQueues_conserved hreach).2 urgentColumn hempty hapart
  obtain ⟨rfl, rfl, rfl⟩ : combined = combined' ∧ Priority.HIGH = priority ∧ q' = q'' := by simpa [hpop] using hpop'
  exact ⟨q, hrun, hlength, combined, q', hpop, htiles, hrest, hresult⟩

/-- The priority is compared within a view: a more urgent tile of a view that is less active waits. -/
theorem pops_lower_priority : ¬ ∀ q : KitQueue, Run.Reachable (fun q => q = {}) step Run.Any q →
    ∀ prio combined priority q', q.isTileQueueEmpty = false → q.popTileQueue prio = some (combined, priority, q') →
      ∃ tile ∈ combined.tiles, ∀ other ∈ q.tiles,
        (prio.getTilePriority other).value ≤ (prio.getTilePriority tile).value := by
  intro hall
  have hreach : Run.Reachable (fun q => q = {}) step Run.Any
      ((({} : KitQueue).pushTileQueue (tileAt 0 0)).pushTileQueue (tileAt 1 0)) :=
    .next (e := .pushTileQueue (tileAt 1 0)) (.next (e := .pushTileQueue (tileAt 0 0)) (.start rfl) True.intro rfl)
      True.intro rfl
  obtain ⟨tile, htile, hmax⟩ := hall _ hreach urgentSecond (.ofTile (tileAt 0 0)) .NORMAL
    ⟨[(0, []), (1, [tileAt 1 0])]⟩ rfl rfl
  obtain rfl := List.mem_singleton.1 htile
  exact absurd (hmax (tileAt 1 0) (by decide)) (by decide)

end KitQueue

end CollaboraOnline
