import CollaboraOnline.Browser.TileTransactions
import Mathlib.Data.List.Sort

/-!
# The list of bitmaps

The tiles with an image are listed, the nearest first; a full list decides which tile gives up its bitmap for a new
one.  A tile has an image exactly when it is listed once.  What a tile leaves behind in the caches of images when its
bitmap is reclaimed depends on who made the bitmap: the cache is keyed by `key()` for that of a worker, and only
`toString()` is deleted (`bitmaps_of_run`).
-/

namespace CollaboraOnline

/-- The tiles and the list of those with bitmaps.  A tile that is listed is in the table, under its key. -/
structure TileBitmaps (K P I : Type) [DecidableEq K] where
  manager : TileManager K P I := {}
  tileBitmapList : List K := []

namespace TileManager

variable {K P I : Type} [DecidableEq K]

/-- The tile has an image. -/
def imaged (s : TileManager K P I) (key : K) : Bool := (s.tile key).any (·.image.isSome)

def distanceOf (s : TileManager K P I) (key : K) : Nat := ((s.tile key).map (·.distanceFromView)).getD 0

end TileManager

namespace TileBitmaps

variable {K P I : Type} [DecidableEq K]

def reclaimTileBitmapMemory (b : TileBitmaps K P I) (key : K) : TileBitmaps K P I :=
  if b.manager.imaged key then
    { manager := b.manager.reclaimTileBitmapMemory key, tileBitmapList := b.tileBitmapList.erase key }
  else b

def removeTile (b : TileBitmaps K P I) (key : K) : TileBitmaps K P I :=
  let b := b.reclaimTileBitmapMemory key
  { b with manager := { b.manager with tiles := b.manager.tiles.erase key } }

def removeAllTiles (b : TileBitmaps K P I) : TileBitmaps K P I :=
  (b.manager.tiles.entries.map Prod.fst).foldl removeTile { b with tileBitmapList := [] }

def collectDeltas (b : TileBitmaps K P I) (key : K) : TileBitmaps K P I :=
  match b.manager.tile key with
  | none => b
  | some t =>
    if t.distanceFromView ≠ 0 ∧ t.rawDeltas ≠ [] then
      let b := b.reclaimTileBitmapMemory key
      match b.manager.tile key with
      | none => b
      | some t => { b with manager := b.manager.setTile key { t with rawDeltas := [] } }
    else b

def collectTile (b : TileBitmaps K P I) (key : K) : TileBitmaps K P I :=
  match b.manager.tile key with
  | none => b
  | some t => if t.distanceFromView ≠ 0 then b.removeTile key else b

/-- The tiles that are collected; `c.bitmap` is not used, since the list decides about it. -/
def garbageCollect (b : TileBitmaps K P I) (c : Collect K) : TileBitmaps K P I :=
  c.tiles.foldl collectTile (c.deltas.foldl collectDeltas b)

def highNumBitmaps : Nat := 250

/-- The index of the first tile from `low` on that is as far away. -/
def insertionIndex (distanceFromView : K → Nat) (list : List K) (distance low high : Nat) : Nat :=
  if low < high then
    let mid := (low + high) / 2
    if ((list[mid]?).map distanceFromView).getD 0 < distance then
      insertionIndex distanceFromView list distance (mid + 1) high
    else insertionIndex distanceFromView list distance low mid
  else low
termination_by high - low

/-- The last tile of a list that is full gives up its bitmap. -/
def freeBitmap (b : TileBitmaps K P I) : TileBitmaps K P I :=
  if highNumBitmaps < b.tileBitmapList.length then
    match b.tileBitmapList.getLast? with
    | none => b
    | some last => b.reclaimTileBitmapMemory last
  else b

/-- The tile is put in front if it is current, and else before the first one that is as far away. -/
def insertBitmap (b : TileBitmaps K P I) (key : K) (distance : Nat) : List K :=
  if distance = 0 then key :: b.tileBitmapList
  else
    let low := insertionIndex b.manager.distanceOf b.tileBitmapList distance 0 b.tileBitmapList.length
    b.tileBitmapList.take low ++ key :: b.tileBitmapList.drop low

def setBitmapOnTile (b : TileBitmaps K P I) (key : K) (bitmap : I) : TileBitmaps K P I :=
  match b.manager.tile key with
  | none => b
  | some t =>
    if t.image.isSome then { b with manager := b.manager.setTile key { t with image := some bitmap } }
    else
      let b := b.freeBitmap
      { manager := b.manager.setTile key { t with image := some bitmap }
        tileBitmapList := b.insertBitmap key t.distanceFromView }

def showBitmap (b : TileBitmaps K P I) (x : K × I) : TileBitmaps K P I :=
  let b := b.setBitmapOnTile x.1 x.2
  match b.manager.tile x.1 with
  | none => b
  | some t => if t.isReady then { b with manager := b.manager.tileReady x.1 } else b

def endTransactionHandleBitmaps (b : TileBitmaps K P I) (c : Collect K) (bitmaps : List (K × I)) :
    TileBitmaps K P I :=
  let b := bitmaps.foldl showBitmap b
  let s := if b.manager.visibleTilesReady then { b.manager with pausedForCoherency := false } else b.manager
  let s := if s.nPendingWorkerTasks = 0 then s.callTransactionCallbacks else s
  garbageCollect { b with manager := s } c

def onWorkerEndTransaction (d : TileDecoder K P I) (b : TileBitmaps K P I) (c : Collect K)
    (deltas : List (PendingDelta K P I)) : TileBitmaps K P I :=
  let (s, bitmaps) := TileManager.workerDeltas d
    { b.manager with nPendingWorkerTasks := b.manager.nPendingWorkerTasks - 1 } deltas
  if bitmaps = [] then { b with manager := s } else endTransactionHandleBitmaps { b with manager := s } c bitmaps

/-- The workers are gone, and the tiles are drawn anew. -/
def onWorkerError (b : TileBitmaps K P I) : TileBitmaps K P I :=
  let s := { b.manager with workers := 0, posted := [], pendingDeltas := [], nPendingWorkerTasks := 0 }
  removeAllTiles { b with manager := s.callTransactionCallbacks }

def sortTileBitmapList (b : TileBitmaps K P I) : TileBitmaps K P I :=
  { b with tileBitmapList := b.tileBitmapList.mergeSort fun k k' => b.manager.distanceOf k ≤ b.manager.distanceOf k' }

inductive Event (K P : Type)
  | manager (e : TileManager.Event K P)
  | removeAllTiles

/-- What makes or takes no bitmap does not change the list. -/
def step (d : TileDecoder K P I) (b : TileBitmaps K P I) : Event K P → Option (TileBitmaps K P I)
  | .removeAllTiles => some b.removeAllTiles
  | .manager (.updateAllTileDistances distance) =>
    some (sortTileBitmapList { b with manager := b.manager.updateAllTileDistances distance })
  | .manager (.removeTile key) => some (b.removeTile key)
  | .manager (.reclaimTileBitmapMemory key) => some (b.reclaimTileBitmapMemory key)
  | .manager (.garbageCollect c) => some (b.garbageCollect c)
  | .manager (.answer i c) => do
    let deltas ← (← b.manager.posted[i]?).answer
    some (onWorkerEndTransaction d { b with manager := { b.manager with posted := b.manager.posted.eraseIdx i } }
      c deltas)
  | .manager (.resolve i c) => do
    let bitmaps ← b.manager.bitmapPromises[i]?
    some (endTransactionHandleBitmaps
      { b with manager := { b.manager with bitmapPromises := b.manager.bitmapPromises.eraseIdx i } } c bitmaps)
  | .manager .workerError => if b.manager.workers ≠ 0 then some b.onWorkerError else none
  | .manager e => (b.manager.step d e).map fun s => { b with manager := s }

def IsInit (b : TileBitmaps K P I) : Prop := b = { manager := { workers := b.manager.workers } }

/-- No entry for the tile is left, neither here nor in a worker. -/
def Forgotten (b : TileBitmaps K P I) (key : K) : Prop :=
  b.manager.tileImageCache (.key key) = none ∧ b.manager.tileImageCache (.string key) = none ∧
    ∀ worker < b.manager.workers, b.manager.workerImages worker key = none

end TileBitmaps

/-! ### What the tile manager does to images and caches -/

namespace TileManager

variable {K P I : Type} [DecidableEq K] {d : TileDecoder K P I} {s s' s'' : TileManager K P I} {shown : K → Prop}
  {key k : K} {t t' : BrowserTile P I}

theorem imaged_setTile (s : TileManager K P I) (key k : K) (t : BrowserTile P I) :
    (s.setTile key t).imaged k = if k = key then t.image.isSome else s.imaged k := by
  unfold imaged
  rw [tile_setTile]
  split
  · rfl
  · rfl

theorem imaged_of_tile (h : s.tile key = some t) : s.imaged key = t.image.isSome := by
  unfold imaged
  rw [h]
  rfl

theorem imaged_setTile_same (ht : s.tile key = some t) (himage : t'.image.isSome = t.image.isSome) :
    (s.setTile key t').imaged = s.imaged := by
  funext k
  rw [imaged_setTile]
  split
  · rename_i hk
    rw [hk, imaged_of_tile ht, himage]
  · rfl

theorem reclaim_of_not_imaged (h : s.imaged key = false) : s.reclaimTileBitmapMemory key = s := by
  unfold reclaimTileBitmapMemory
  cases ht : s.tile key with
  | none => rfl
  | some t =>
    rw [imaged_of_tile ht] at h
    dsimp only
    rw [h]
    rfl

theorem imaged_reclaim (s : TileManager K P I) (key k : K) :
    (s.reclaimTileBitmapMemory key).imaged k = if k = key then false else s.imaged k := by
  by_cases hk : k = key
  · rw [if_pos hk, hk]
    unfold reclaimTileBitmapMemory
    cases ht : s.tile key with
    | none =>
      unfold imaged
      rw [ht]
      rfl
    | some t =>
      dsimp only
      split
      · exact (imaged_setTile s key key _).trans (if_pos rfl)
      · rename_i hnone
        rw [imaged_of_tile ht]
        simpa using hnone
  · rw [if_neg hk]
    unfold imaged
    rw [tile_reclaim_of_ne hk]

/-- Images and the strings of tiles in the cache only go, together; what is `shown` may come. -/
structure Keeps (shown : K → Prop) (s s' : TileManager K P I) : Prop where
  workers : s'.workers = s.workers
  posted : s'.posted = s.posted
  pendingDeltas : s'.pendingDeltas = s.pendingDeltas
  bitmapPromises : s'.bitmapPromises = s.bitmapPromises
  keys : ∀ k, s'.tileImageCache (.key k) = s.tileImageCache (.key k)
  strings : ∀ k, s.tileImageCache (.string k) = none → s'.tileImageCache (.string k) = none
  reclaimed : ∀ k, s.imaged k = true → s'.imaged k = false → s'.tileImageCache (.string k) = none
  images : ∀ k, s'.imaged k = true → s.imaged k = true ∨ shown k

namespace Keeps

theorem refl (s : TileManager K P I) : Keeps shown s s :=
  ⟨rfl, rfl, rfl, rfl, fun _ => rfl, fun _ h => h, fun k h h' => (by rw [h] at h'; cases h'), fun _ => .inl⟩

theorem trans (h : Keeps shown s s') (h' : Keeps shown s' s'') : Keeps shown s s'' where
  workers := h'.workers.trans h.workers
  posted := h'.posted.trans h.posted
  pendingDeltas := h'.pendingDeltas.trans h.pendingDeltas
  bitmapPromises := h'.bitmapPromises.trans h.bitmapPromises
  keys := fun k => (h'.keys k).trans (h.keys k)
  strings := fun k hk => h'.strings k (h.strings k hk)
  reclaimed := by
    intro k himage hnone
    cases hmid : s'.imaged k with
    | true => exact h'.reclaimed k hmid hnone
    | false => exact h'.strings k (h.reclaimed k himage hmid)
  images := fun k hk => (h'.images k hk).elim (h.images k) .inr

theorem foldl {α : Type} {f : TileManager K P I → α → TileManager K P I} {l : List α}
    (hf : ∀ s, ∀ a ∈ l, Keeps shown s (f s a)) : Keeps shown s (l.foldl f s) := by
  induction l generalizing s with
  | nil => exact refl s
  | cons a l ih => exact (hf s a List.mem_cons_self).trans (ih fun s a' ha' => hf s a' (List.mem_cons_of_mem a ha'))

/-- A tile is replaced by one that has an image too, or is shown. -/
theorem setTile (h : (s.imaged key = true → t.image.isSome = true) ∧
    (t.image.isSome = true → s.imaged key = true ∨ shown key)) : Keeps shown s (s.setTile key t) := by
  refine ⟨rfl, rfl, rfl, rfl, fun _ => rfl, fun _ hk => hk, fun k himage hnone => ?_, fun k hk => ?_⟩
  · rw [imaged_setTile] at hnone
    split at hnone
    · rename_i hkey
      rw [hkey] at himage
      rw [h.1 himage] at hnone
      cases hnone
    · rw [himage] at hnone
      cases hnone
  · rw [imaged_setTile] at hk
    split at hk
    · rename_i hkey
      rw [hkey]
      exact h.2 hk
    · exact .inl hk

theorem setTile_same (ht : s.tile key = some t) (himage : t'.image.isSome = t.image.isSome) :
    Keeps shown s (s.setTile key t') :=
  setTile (by rw [imaged_of_tile ht, himage]; exact ⟨id, .inl⟩)

end Keeps

theorem keeps_reclaim (s : TileManager K P I) (key : K) : Keeps shown s (s.reclaimTileBitmapMemory key) := by
  have hsame := (calms_reclaim s key).toSameTasks
  cases himage : s.imaged key with
  | false =>
    rw [reclaim_of_not_imaged himage]
    exact .refl s
  | true =>
    have hcache : (s.reclaimTileBitmapMemory key).tileImageCache =
        Function.update s.tileImageCache (.string key) none := by
      obtain ⟨t, ht, ht'⟩ : ∃ t, s.tile key = some t ∧ t.image.isSome = true := by
        unfold imaged at himage
        cases ht : s.tile key with
        | none =>
          rw [ht] at himage
          cases himage
        | some t =>
          rw [ht] at himage
          exact ⟨t, rfl, himage⟩
      unfold reclaimTileBitmapMemory
      rw [ht]
      dsimp only
      rw [if_pos ht']
    refine ⟨hsame.workers, hsame.posted, hsame.pendingDeltas, hsame.bitmapPromises, fun k => ?_, fun k hk => ?_,
      fun k hk hk' => ?_, fun k hk => ?_⟩
    · have hne : CoordsString.key k ≠ CoordsString.string key := by
        intro h
        cases h
      rw [hcache, Function.update_of_ne hne]
    · rw [hcache, Function.update_apply]
      split
      · rfl
      · exact hk
    · rw [imaged_reclaim] at hk'
      split at hk'
      · rename_i hkey
        rw [hcache, hkey, Function.update_self]
      · rw [hk] at hk'
        cases hk'
    · rw [imaged_reclaim] at hk
      split at hk
      · cases hk
      · exact .inl hk

/-- A tile without an image is removed and leaves nothing. -/
theorem keeps_erase (h : s.imaged key = false) : Keeps shown s { s with tiles := s.tiles.erase key } := by
  have himaged : (imaged { s with tiles := s.tiles.erase key }) = s.imaged := by
    funext k
    by_cases hk : k = key
    · rw [hk, h]
      unfold imaged tile
      rw [Table.find_erase_self]
      rfl
    · unfold imaged tile
      rw [Table.find_erase_of_ne hk]
  refine ⟨rfl, rfl, rfl, rfl, fun _ => rfl, fun _ hk => hk, fun k hk hk' => ?_, fun k hk => ?_⟩
  · rw [himaged, hk] at hk'
    cases hk'
  · rw [himaged] at hk
    exact .inl hk

theorem keeps_removeTile (s : TileManager K P I) (key : K) : Keeps shown s (s.removeTile key) :=
  (keeps_reclaim s key).trans (keeps_erase ((imaged_reclaim s key key).trans (if_pos rfl)))

theorem keeps_collectDeltas (s : TileManager K P I) (key : K) : Keeps shown s (s.collectDeltas key) := by
  unfold collectDeltas
  cases s.tile key with
  | none => exact .refl s
  | some t =>
    dsimp only
    split
    · have hreclaim : Keeps shown s (s.reclaimTileBitmapMemory key) := keeps_reclaim s key
      cases ht : (s.reclaimTileBitmapMemory key).tile key with
      | none => exact hreclaim
      | some t => exact hreclaim.trans (.setTile_same ht rfl)
    · exact .refl s

theorem keeps_collectTile (s : TileManager K P I) (key : K) : Keeps shown s (s.collectTile key) := by
  unfold collectTile
  cases s.tile key with
  | none => exact .refl s
  | some t =>
    dsimp only
    split
    · exact keeps_removeTile s key
    · exact .refl s

theorem keeps_garbageCollect (s : TileManager K P I) (c : Collect K) : Keeps shown s (s.garbageCollect c) :=
  (Keeps.foldl fun s key _ => keeps_collectDeltas s key).trans (.foldl fun s key _ => keeps_collectTile s key)

theorem keeps_setBitmapOnTile (s : TileManager K P I) (c : Collect K) (bitmap : I) (hshown : shown key) :
    Keeps shown s (s.setBitmapOnTile c key bitmap) := by
  unfold setBitmapOnTile
  cases s.tile key with
  | none => exact .refl s
  | some t =>
    dsimp only
    split
    · exact .setTile ⟨fun _ => rfl, fun _ => .inr hshown⟩
    · cases (c.bitmap key).filter (· ≠ key) with
      | none => exact .setTile ⟨fun _ => rfl, fun _ => .inr hshown⟩
      | some last => exact (keeps_reclaim s last).trans (.setTile ⟨fun _ => rfl, fun _ => .inr hshown⟩)

theorem keeps_tileReady (s : TileManager K P I) (key : K) : Keeps shown s (s.tileReady key) := by
  unfold tileReady
  cases ht : s.tile key with
  | none => exact .refl s
  | some t => exact .setTile_same ht rfl

theorem keeps_showBitmap (c : Collect K) (s : TileManager K P I) {x : K × I} (hshown : shown x.1) :
    Keeps shown s (showBitmap c s x) := by
  unfold showBitmap
  refine (keeps_setBitmapOnTile s c x.2 hshown).trans ?_
  dsimp only
  cases (s.setBitmapOnTile c x.1 x.2).tile x.1 with
  | none => exact .refl _
  | some t =>
    dsimp only
    split
    · exact keeps_tileReady _ _
    · exact .refl _

theorem imaged_updateAllTileDistances (s : TileManager K P I) (distance : K → Nat) :
    (s.updateAllTileDistances distance).imaged = s.imaged := by
  funext k
  unfold imaged
  rw [tile_updateAllTileDistances]
  cases s.tile k <;> rfl

theorem keeps_updateAllTileDistances (s : TileManager K P I) (distance : K → Nat) :
    Keeps shown s (s.updateAllTileDistances distance) := by
  have himaged := imaged_updateAllTileDistances s distance
  refine ⟨rfl, rfl, rfl, rfl, fun _ => rfl, fun _ hk => hk, fun k hk hk' => ?_, fun k hk => ?_⟩
  · rw [himaged, hk] at hk'
    cases hk'
  · rw [himaged] at hk
    exact .inl hk

/-- Whatever a tile may be shown comes from a worker, if there is one. -/
structure Sources (s : TileManager K P I) : Prop where
  withoutWorkers : s.workers = 0 → s.posted = []
  pending : ∀ x ∈ s.pendingDeltas, x.bitmap = none
  answers : ∀ task ∈ s.posted, ∀ ys, task.answer = some ys → ∀ y ∈ ys, y.bitmap.isSome = true
  promises : s.workers ≠ 0 → s.bitmapPromises = []
  cached : s.workers ≠ 0 → ∀ k, s.imaged k = true → s.tileImageCache (.key k) ≠ none

/-- What a step does to the caches. -/
structure Leads (s s' : TileManager K P I) : Prop where
  sources : Sources s'
  keys : ∀ k, s.tileImageCache (.key k) ≠ none → s'.tileImageCache (.key k) ≠ none
  workers : s.workers = 0 → s'.workers = 0
  reclaimed : s.workers = 0 → ∀ k, s.imaged k = true → s'.imaged k = false →
    s'.tileImageCache (.key k) = s.tileImageCache (.key k) ∧ s'.tileImageCache (.string k) = none

theorem Keeps.sources (h : Keeps shown s s') (hs : Sources s)
    (hshown : s.workers ≠ 0 → ∀ k, shown k → s.tileImageCache (.key k) ≠ none) : Sources s' where
  withoutWorkers := by
    rw [h.workers, h.posted]
    exact hs.withoutWorkers
  pending := by
    rw [h.pendingDeltas]
    exact hs.pending
  answers := by
    rw [h.posted]
    exact hs.answers
  promises := by
    rw [h.workers, h.bitmapPromises]
    exact hs.promises
  cached := by
    rw [h.workers]
    intro hworkers k hk
    rw [h.keys]
    exact (h.images k hk).elim (hs.cached hworkers k) (hshown hworkers k)

theorem Keeps.leads (h : Keeps shown s s') (hs : Sources s)
    (hshown : s.workers ≠ 0 → ∀ k, shown k → s.tileImageCache (.key k) ≠ none) : Leads s s' where
  sources := h.sources hs hshown
  keys := fun k hk => by rwa [h.keys]
  workers := fun hworkers => h.workers.trans hworkers
  reclaimed := fun _ k hk hk' => ⟨h.keys k, h.reclaimed k hk hk'⟩

/-- Images and caches stay; deltas may be queued. -/
structure Quiet (s s' : TileManager K P I) : Prop where
  workers : s'.workers = s.workers
  posted : s'.posted = s.posted
  bitmapPromises : s'.bitmapPromises = s.bitmapPromises
  cache : s'.tileImageCache = s.tileImageCache
  imaged : s'.imaged = s.imaged
  pending : ∀ x ∈ s'.pendingDeltas, x ∈ s.pendingDeltas ∨ x.bitmap = none

namespace Quiet

theorem refl (s : TileManager K P I) : Quiet s s := ⟨rfl, rfl, rfl, rfl, rfl, fun _ => .inl⟩

theorem trans (h : Quiet s s') (h' : Quiet s' s'') : Quiet s s'' where
  workers := h'.workers.trans h.workers
  posted := h'.posted.trans h.posted
  bitmapPromises := h'.bitmapPromises.trans h.bitmapPromises
  cache := h'.cache.trans h.cache
  imaged := h'.imaged.trans h.imaged
  pending := fun x hx => (h'.pending x hx).elim (h.pending x) .inr

theorem setTile (ht : s.tile key = some t) (himage : t'.image.isSome = t.image.isSome) : Quiet s (s.setTile key t') :=
  ⟨rfl, rfl, rfl, rfl, imaged_setTile_same ht himage, fun _ => .inl⟩

theorem leads (h : Quiet s s') (hs : Sources s) : Leads s s' where
  sources := by
    refine ⟨?_, fun x hx => (h.pending x hx).elim (hs.pending x) id, ?_, ?_, ?_⟩
    · rw [h.workers, h.posted]
      exact hs.withoutWorkers
    · rw [h.posted]
      exact hs.answers
    · rw [h.workers, h.bitmapPromises]
      exact hs.promises
    · rw [h.workers, h.imaged, h.cache]
      exact hs.cached
  keys := fun k hk => by rwa [h.cache]
  workers := fun hworkers => h.workers.trans hworkers
  reclaimed := by
    intro _ k hk hk'
    rw [h.imaged, hk] at hk'
    cases hk'

end Quiet

theorem quiet_createTile (s : TileManager K P I) (key : K) (distance : Nat) :
    Quiet s (s.createTile key distance) := by
  unfold createTile
  split
  · exact .refl s
  · rename_i hnone
    refine ⟨rfl, rfl, rfl, rfl, ?_, fun _ => .inl⟩
    funext k
    rw [imaged_setTile]
    split
    · rename_i hk
      unfold imaged
      cases ht : s.tile key with
      | none =>
        rw [hk, ht]
        rfl
      | some t =>
        rw [ht] at hnone
        exact absurd rfl hnone
    · rfl

theorem quiet_rehydrateTile (s : TileManager K P I) (key : K) (wireMessage : Bool) :
    Quiet s (s.rehydrateTile key wireMessage) := by
  unfold rehydrateTile
  cases ht : s.tile key with
  | none => exact .refl s
  | some t =>
    dsimp only
    split
    · have hpause : Quiet s (if t.distanceFromView = 0 then { s with pausedForCoherency := true } else s) := by
        split
        · exact ⟨rfl, rfl, rfl, rfl, rfl, fun _ => .inl⟩
        · exact .refl s
      have htile : (if t.distanceFromView = 0 then { s with pausedForCoherency := true } else s).tile key =
        some t := by
        split
        · exact ht
        · exact ht
      generalize (if t.distanceFromView = 0 then { s with pausedForCoherency := true } else s) = s₁ at hpause htile
      split
      · rename_i first rest last _ _
        have hset : Quiet s₁ (s₁.setTile key { t with lastPendingId := last.id }) := .setTile htile rfl
        refine hpause.trans (hset.trans ?_)
        refine ⟨rfl, rfl, rfl, rfl, rfl, fun x hx => ?_⟩
        rcases List.mem_append.1 hx with hx | hx
        · exact .inl hx
        · rw [List.mem_singleton.1 hx]
          exact .inr rfl
      · exact hpause
    · exact .refl s

theorem quiet_makeTileCurrent (s : TileManager K P I) (key : K) : Quiet s (s.makeTileCurrent key) := by
  unfold makeTileCurrent
  cases ht : s.tile key with
  | none => exact .refl s
  | some t =>
    dsimp only
    have hset : Quiet s (s.setTile key { t with distanceFromView := 0 }) := .setTile ht rfl
    exact hset.trans (quiet_rehydrateTile _ key false)

theorem quiet_onTileMsg (s : TileManager K P I) (key : K) (distance : Nat) (img : Option (TileImage P)) :
    Quiet s (s.onTileMsg key distance img) := by
  unfold onTileMsg
  refine (quiet_createTile s key distance).trans ?_
  dsimp only
  cases ht : (s.createTile key distance).tile key with
  | none => exact .refl _
  | some t =>
    have himage : (storeRawDelta t img).image.isSome = t.image.isSome := by
      unfold storeRawDelta
      cases img with
      | none => rfl
      | some img =>
        dsimp only
        split
        · rfl
        · rfl
    dsimp only
    split
    · exact (Quiet.setTile ht himage).trans (quiet_rehydrateTile _ key true)
    · exact .setTile ht himage

/-! ### Answers and tasks -/

/-- The bitmap of a worker is noted under the key. -/
theorem workerDelta_cache (d : TileDecoder K P I) (s : TileManager K P I) (x : PendingDelta K P I) :
    (∀ k, s.tileImageCache (.key k) ≠ none → (workerDelta d s x).1.tileImageCache (.key k) ≠ none) ∧
      (x.bitmap.isSome = true → (workerDelta d s x).2.isSome = true →
        (workerDelta d s x).1.tileImageCache (.key x.key) ≠ none) ∧
      (x.bitmap = none → ∀ k, (workerDelta d s x).1.tileImageCache (.key k) = s.tileImageCache (.key k)) := by
  have hkey (k : K) (image : Option I) (hk : s.tileImageCache (.key k) ≠ none) :
      Function.update s.tileImageCache (.key x.key) (some image) (.key k) ≠ none := by
    rw [Function.update_apply]
    split
    · exact Option.some_ne_none _
    · exact hk
  have hstring (k : K) (image : Option I) :
      Function.update s.tileImageCache (.string x.key) (some image) (.key k) = s.tileImageCache (.key k) := by
    refine Function.update_of_ne ?_ _ _
    intro h
    cases h
  unfold workerDelta
  cases s.tile x.key with
  | none => exact ⟨fun _ hk => hk, fun _ hsome => absurd hsome Bool.false_ne_true, fun _ _ => rfl⟩
  | some t =>
    dsimp only
    split
    · exact ⟨fun _ hk => hk, fun _ hsome => absurd hsome Bool.false_ne_true, fun _ _ => rfl⟩
    · split
      · exact ⟨fun _ hk => hk, fun _ hsome => absurd hsome Bool.false_ne_true, fun _ _ => rfl⟩
      · cases hb : x.bitmap with
        | some bitmap =>
          refine ⟨fun k hk => hkey k none hk, fun _ _ => ?_, fun hnone => by cases hnone⟩
          show Function.update s.tileImageCache (.key x.key) (some none) (.key x.key) ≠ none
          rw [Function.update_self]
          exact Option.some_ne_none _
        | none =>
          dsimp only
          split
          · exact ⟨fun _ hk => hk, fun hsome => absurd hsome Bool.false_ne_true, fun _ _ => rfl⟩
          · rename_i image _
            refine ⟨fun k hk => ?_, fun hsome => absurd hsome Bool.false_ne_true, fun _ k => hstring k (some image)⟩
            show Function.update s.tileImageCache (.string x.key) (some (some image)) (.key k) ≠ none
            rw [hstring]
            exact hk

theorem workerDeltas_cache (d : TileDecoder K P I) (s : TileManager K P I) (xs : List (PendingDelta K P I)) :
    (∀ k, s.tileImageCache (.key k) ≠ none → (workerDeltas d s xs).1.tileImageCache (.key k) ≠ none) ∧
      ((∀ x ∈ xs, x.bitmap.isSome = true) →
        ∀ y ∈ (workerDeltas d s xs).2, (workerDeltas d s xs).1.tileImageCache (.key y.1) ≠ none) ∧
      ((∀ x ∈ xs, x.bitmap = none) → ∀ k, (workerDeltas d s xs).1.tileImageCache (.key k) =
        s.tileImageCache (.key k)) := by
  induction xs generalizing s with
  | nil => exact ⟨fun _ hk => hk, fun _ y hy => absurd hy List.not_mem_nil, fun _ _ => rfl⟩
  | cons x xs ih =>
    obtain ⟨hkeep, hnoted, hsync⟩ := workerDelta_cache d s x
    obtain ⟨hkeep', hnoted', hsync'⟩ := ih (workerDelta d s x).1
    refine ⟨fun k hk => hkeep' k (hkeep k hk), fun hall y hy => ?_, fun hall k => ?_⟩
    · rcases List.mem_append.1 hy with hy | hy
      · obtain ⟨bitmap, hb, rfl⟩ := Option.map_eq_some_iff.1 (Option.mem_toList.1 hy)
        exact hkeep' x.key (hnoted (hall x List.mem_cons_self) (Option.isSome_iff_exists.2 ⟨bitmap, hb⟩))
      · exact hnoted' (fun z hz => hall z (List.mem_cons_of_mem x hz)) y hy
    · exact (hsync' (fun z hz => hall z (List.mem_cons_of_mem x hz)) k).trans (hsync (hall x List.mem_cons_self) k)

theorem imaged_workerDeltas (d : TileDecoder K P I) (s : TileManager K P I) (xs : List (PendingDelta K P I)) :
    (workerDeltas d s xs).1.imaged = s.imaged := by
  funext k
  unfold imaged
  rw [(workerDeltas_spec s xs).2 k]
  cases s.tile k with
  | none => rfl
  | some t => rfl

theorem work_bitmaps {images : K → Option I} {xs : List (PendingDelta K P I)}
    {r : (K → Option I) × List (PendingDelta K P I)}
    (h : work d images xs = some r) : ∀ y ∈ r.2, y.bitmap.isSome = true := by
  induction xs generalizing images r with
  | nil =>
    obtain rfl := Option.some.inj h
    exact fun y hy => absurd hy List.not_mem_nil
  | cons x xs ih =>
    simp only [work, Option.bind_eq_bind, Option.bind_eq_some_iff] at h
    obtain ⟨image, -, ⟨images', ys⟩, hrest, hr⟩ := h
    obtain rfl := Option.some.inj hr
    intro y hy
    rcases List.mem_cons.1 hy with rfl | hy
    · rfl
    · exact ih hrest y hy

/-- Posting touches no tile and no cache but that of the worker. -/
theorem post_images (ws : List Nat) (deltas : Nat → List (PendingDelta K P I)) (t : TileManager K P I)
    (h : ∀ task ∈ t.posted, ∀ ys, task.answer = some ys → ∀ y ∈ ys, y.bitmap.isSome = true) :
    let t' := ws.foldl (fun (t : TileManager K P I) worker =>
      if deltas worker = [] then t else t.postMessage d worker (deltas worker)) t
    t'.workers = t.workers ∧ t'.bitmapPromises = t.bitmapPromises ∧ t'.tileImageCache = t.tileImageCache ∧
    t'.imaged = t.imaged ∧
      ∀ task ∈ t'.posted, ∀ ys, task.answer = some ys → ∀ y ∈ ys, y.bitmap.isSome = true := by
  induction ws generalizing t with
  | nil => exact ⟨rfl, rfl, rfl, rfl, h⟩
  | cons w ws ih =>
    rw [List.foldl_cons]
    by_cases hw : deltas w = []
    · rw [if_pos hw]
      exact ih t h
    · rw [if_neg hw]
      refine ih (t.postMessage d w (deltas w)) fun task htask ys hys y hy => ?_
      rcases List.mem_append.1 htask with htask | htask
      · exact h task htask ys hys y hy
      · rw [List.mem_singleton.1 htask] at hys
        obtain ⟨r, hr, rfl⟩ := Option.map_eq_some_iff.1 hys
        exact work_bitmaps hr y hy

theorem leads_decompressPendingDeltas (hs : Sources s) : Leads s (s.decompressPendingDeltas d) := by
  unfold decompressPendingDeltas
  by_cases hworkers : s.workers = 0
  · -- the manager decompresses on its own
    rw [if_neg (not_not.2 hworkers)]
    unfold onEndTransaction
    dsimp only
    generalize hs₁ : ({ s with nPendingWorkerTasks := s.nPendingWorkerTasks + 1 - 1 } : TileManager K P I) = s₁
    have hsame := (workerDeltas_spec (d := d) s₁ s.pendingDeltas).1
    have hsync := (workerDeltas_cache d s₁ s.pendingDeltas).2.2 hs.pending
    have himaged := imaged_workerDeltas d s₁ s.pendingDeltas
    generalize workerDeltas d s₁ s.pendingDeltas = r at hsame hsync himaged
    subst hs₁
    have hzero : r.1.workers = 0 := hsame.workers.trans hworkers
    have hposted : r.1.posted = [] := hsame.posted.trans (hs.withoutWorkers hworkers)
    have hleads (promises : List (List (K × I))) :
        Leads s { r.1 with bitmapPromises := promises, pendingDeltas := [] } := by
      refine ⟨⟨fun _ => hposted, fun x hx => absurd hx List.not_mem_nil, fun task htask => ?_,
        fun hne => absurd hzero hne,
        fun hne => absurd hzero hne⟩, fun k hk => ?_, fun _ => hzero, fun _ k hk hk' => ?_⟩
      · have htask : task ∈ r.1.posted := htask
        rw [hposted] at htask
        exact absurd htask List.not_mem_nil
      · show r.1.tileImageCache (.key k) ≠ none
        rw [hsync k]
        exact hk
      · have hk' : r.1.imaged k = false := hk'
        rw [himaged] at hk'
        have hk : imaged { s with nPendingWorkerTasks := s.nPendingWorkerTasks + 1 - 1 } k = true := hk
        rw [hk] at hk'
        cases hk'
    split
    · exact hleads r.1.bitmapPromises
    · exact hleads (r.1.bitmapPromises ++ [r.2])
  · rw [if_pos hworkers]
    obtain ⟨hw, hpromises, hcache, himaged, hanswers⟩ :=
      post_images (d := d) (List.range s.workers) (s.bucketOf d) s hs.answers
    generalize (List.range s.workers).foldl _ s = t at hw hpromises hcache himaged hanswers
    refine ⟨⟨fun hzero => absurd (hw.symm.trans hzero) hworkers, fun x hx => absurd hx List.not_mem_nil, hanswers,
      fun _ => ?_,
      fun _ k hk => ?_⟩, fun k hk => ?_, fun hzero => absurd hzero hworkers, fun hzero => absurd hzero hworkers⟩
    · exact hpromises.trans (hs.promises hworkers)
    · have hk : t.imaged k = true := hk
      show t.tileImageCache (.key k) ≠ none
      rw [hcache]
      exact hs.cached hworkers k (himaged ▸ hk)
    · show t.tileImageCache (.key k) ≠ none
      rw [hcache]
      exact hk

theorem Leads.refl (hs : Sources s) : Leads s s :=
  (Quiet.refl s).leads hs

theorem leads_endTransaction (hs : Sources s) (callback : Option Nat) : Leads s (s.endTransaction d callback) := by
  unfold endTransaction
  dsimp only
  have hquiet (passed called callbacks : List Nat) (n : Nat) :
      Quiet s { s with passed := passed, called := called, transactionCallbacks := callbacks, inTransaction := n } :=
    ⟨rfl, rfl, rfl, rfl, rfl, fun _ => .inl⟩
  split
  · exact (hquiet _ s.called s.transactionCallbacks s.inTransaction).leads hs
  · split
    · exact (hquiet _ s.called _ _).leads hs
    · split
      · cases callback with
        | none => exact (hquiet _ s.called _ _).leads hs
        | some callback => exact (hquiet _ _ _ _).leads hs
      · have hbefore := (hquiet (s.passed ++ callback.toList) s.called (s.transactionCallbacks ++ callback.toList)
          (s.inTransaction - 1)).leads hs
        have hafter := leads_decompressPendingDeltas (d := d) hbefore.sources
        exact ⟨hafter.sources, hafter.keys, hafter.workers, hafter.reclaimed⟩

theorem imaged_decompressPendingDeltas (d : TileDecoder K P I) (s : TileManager K P I) :
    (s.decompressPendingDeltas d).imaged = s.imaged := by
  unfold decompressPendingDeltas
  split
  · obtain ⟨-, -, -, -, -, -, -, -, -, -, -, -, -, htiles⟩ := post_spec (d := d) (s := s) (List.range s.workers) s
    funext k
    unfold imaged tile
    dsimp only
    rw [htiles]
  · unfold onEndTransaction
    dsimp only
    split
    · exact imaged_workerDeltas d _ s.pendingDeltas
    · exact imaged_workerDeltas d _ s.pendingDeltas

theorem imaged_endTransaction (d : TileDecoder K P I) (s : TileManager K P I) (callback : Option Nat) :
    (s.endTransaction d callback).imaged = s.imaged := by
  unfold endTransaction
  dsimp only
  split
  · rfl
  · split
    · rfl
    · split
      · cases callback with
        | none => rfl
        | some callback => rfl
      · exact imaged_decompressPendingDeltas d _

theorem imaged_tileReady (s : TileManager K P I) (key : K) : (s.tileReady key).imaged = s.imaged := by
  unfold tileReady
  cases ht : s.tile key with
  | none => rfl
  | some t => exact imaged_setTile_same ht rfl

end TileManager

/-! ### The list -/

namespace TileBitmaps

open TileManager (Keeps Sources Leads Quiet)

variable {K P I : Type} [DecidableEq K] {d : TileDecoder K P I} {b b' b'' : TileBitmaps K P I} {shown : K → Prop}
  {key k : K}

/-- The tiles with an image are listed, each once. -/
structure Listed (b : TileBitmaps K P I) : Prop where
  nodup : b.tileBitmapList.Nodup
  mem : ∀ k, k ∈ b.tileBitmapList ↔ b.manager.imaged k = true

theorem Listed.congr (h : Listed b) (hlist : b'.tileBitmapList.Perm b.tileBitmapList)
    (himaged : b'.manager.imaged = b.manager.imaged) : Listed b' := by
  refine ⟨hlist.nodup_iff.2 h.nodup, fun k => ?_⟩
  rw [hlist.mem_iff, himaged]
  exact h.mem k

@[simp] theorem reclaim_manager (b : TileBitmaps K P I) (key : K) :
    (b.reclaimTileBitmapMemory key).manager = b.manager.reclaimTileBitmapMemory key := by
  unfold reclaimTileBitmapMemory
  cases himage : b.manager.imaged key with
  | true => rfl
  | false => exact (TileManager.reclaim_of_not_imaged himage).symm

theorem Listed.reclaim (h : Listed b) (key : K) : Listed (b.reclaimTileBitmapMemory key) := by
  refine ⟨?_, fun k => ?_⟩
  · unfold reclaimTileBitmapMemory
    split
    · exact h.nodup.erase key
    · exact h.nodup
  · rw [reclaim_manager, TileManager.imaged_reclaim]
    unfold reclaimTileBitmapMemory
    cases himage : b.manager.imaged key with
    | true =>
      rw [if_pos rfl, h.nodup.mem_erase_iff, h.mem]
      by_cases hk : k = key
      · rw [if_pos hk]
        exact ⟨fun hne => absurd hk hne.1, fun hfalse => absurd hfalse Bool.false_ne_true⟩
      · rw [if_neg hk]
        exact ⟨fun hne => hne.2, fun himaged => ⟨hk, himaged⟩⟩
    | false =>
      rw [if_neg Bool.false_ne_true, h.mem]
      by_cases hk : k = key
      · rw [if_pos hk, hk, himage]
      · rw [if_neg hk]

theorem removeTile_manager (b : TileBitmaps K P I) (key : K) :
    (b.removeTile key).manager = b.manager.removeTile key := by
  unfold removeTile TileManager.removeTile
  dsimp only
  rw [reclaim_manager]

theorem Listed.removeTile (h : Listed b) (key : K) : Listed (b.removeTile key) := by
  refine (h.reclaim key).congr (.refl _) ?_
  rw [removeTile_manager, reclaim_manager]
  funext k
  by_cases hk : k = key
  · rw [TileManager.imaged_reclaim, if_pos hk]
    unfold TileManager.imaged
    rw [TileManager.tile_removeTile, if_pos hk]
    rfl
  · unfold TileManager.imaged
    rw [TileManager.tile_removeTile, if_neg hk]

theorem collectDeltas_manager (b : TileBitmaps K P I) (key : K) :
    (b.collectDeltas key).manager = b.manager.collectDeltas key := by
  unfold collectDeltas TileManager.collectDeltas
  cases b.manager.tile key with
  | none => rfl
  | some t =>
    dsimp only
    split
    · rw [reclaim_manager]
      cases (b.manager.reclaimTileBitmapMemory key).tile key with
      | none => exact reclaim_manager b key
      | some t => rfl
    · rfl

theorem Listed.collectDeltas (h : Listed b) (key : K) : Listed (b.collectDeltas key) := by
  unfold TileBitmaps.collectDeltas
  cases b.manager.tile key with
  | none => exact h
  | some t =>
    dsimp only
    split
    · have hreclaim := h.reclaim key
      cases ht : (b.reclaimTileBitmapMemory key).manager.tile key with
      | none => exact hreclaim
      | some t => exact hreclaim.congr (.refl _) (TileManager.imaged_setTile_same ht rfl)
    · exact h

theorem collectTile_manager (b : TileBitmaps K P I) (key : K) :
    (b.collectTile key).manager = b.manager.collectTile key := by
  unfold collectTile TileManager.collectTile
  cases b.manager.tile key with
  | none => rfl
  | some t =>
    dsimp only
    split
    · exact removeTile_manager b key
    · rfl

theorem Listed.collectTile (h : Listed b) (key : K) : Listed (b.collectTile key) := by
  unfold TileBitmaps.collectTile
  cases b.manager.tile key with
  | none => exact h
  | some t =>
    dsimp only
    split
    · exact h.removeTile key
    · exact h

theorem foldl_manager {f : TileBitmaps K P I → K → TileBitmaps K P I} {g : TileManager K P I → K → TileManager K P I}
    (hf : ∀ b k, (f b k).manager = g b.manager k) (keys : List K) (b : TileBitmaps K P I) :
    (keys.foldl f b).manager = keys.foldl g b.manager := by
  induction keys generalizing b with
  | nil => rfl
  | cons key keys ih => rw [List.foldl_cons, List.foldl_cons, ih, hf]

theorem Listed.foldl {α : Type} {f : TileBitmaps K P I → α → TileBitmaps K P I}
    (hf : ∀ b a, Listed b → Listed (f b a)) (l : List α) (h : Listed b) : Listed (l.foldl f b) := by
  induction l generalizing b with
  | nil => exact h
  | cons a l ih => exact ih (hf b a h)

/-- The garbage collection is that of the tile manager. -/
theorem garbageCollect_manager (b : TileBitmaps K P I) (c : Collect K) :
    (b.garbageCollect c).manager = b.manager.garbageCollect c := by
  unfold garbageCollect TileManager.garbageCollect
  rw [foldl_manager collectTile_manager, foldl_manager collectDeltas_manager]

theorem Listed.garbageCollect (h : Listed b) (c : Collect K) : Listed (b.garbageCollect c) :=
  .foldl (fun _ key hb => hb.collectTile key) c.tiles (.foldl (fun _ key hb => hb.collectDeltas key) c.deltas h)

theorem Listed.freeBitmap (h : Listed b) : Listed b.freeBitmap := by
  unfold TileBitmaps.freeBitmap
  split
  · cases b.tileBitmapList.getLast? with
    | none => exact h
    | some last => exact h.reclaim last
  · exact h

/-- No image comes when a bitmap is freed. -/
theorem imaged_freeBitmap (h : b.manager.imaged k = false) : b.freeBitmap.manager.imaged k = false := by
  unfold TileBitmaps.freeBitmap
  split
  · cases b.tileBitmapList.getLast? with
    | none => exact h
    | some last =>
      dsimp only
      rw [reclaim_manager, TileManager.imaged_reclaim, h]
      split
      · rfl
      · rfl
  · exact h

theorem insertBitmap_perm (b : TileBitmaps K P I) (key : K) (distance : Nat) :
    (b.insertBitmap key distance).Perm (key :: b.tileBitmapList) := by
  unfold insertBitmap
  split
  · exact .refl _
  · dsimp only
    refine List.perm_middle.trans ?_
    rw [List.take_append_drop]

/-- The list says which tile gives up its bitmap. -/
theorem setBitmapOnTile_manager (b : TileBitmaps K P I) (key : K) (bitmap : I) :
    ∃ c, (b.setBitmapOnTile key bitmap).manager = b.manager.setBitmapOnTile c key bitmap := by
  refine ⟨{ Collect.nothing with
    bitmap := fun _ => if highNumBitmaps < b.tileBitmapList.length then b.tileBitmapList.getLast? else none }, ?_⟩
  unfold setBitmapOnTile TileManager.setBitmapOnTile freeBitmap
  cases ht : b.manager.tile key with
  | none => rfl
  | some t =>
    dsimp only
    split
    · rfl
    · rename_i hnone
      by_cases hfull : highNumBitmaps < b.tileBitmapList.length
      · rw [if_pos hfull, if_pos hfull]
        cases b.tileBitmapList.getLast? with
        | none => rfl
        | some last =>
          dsimp only
          rw [reclaim_manager]
          by_cases hlast : last = key
          · have himaged : b.manager.imaged key = false := by
              rw [TileManager.imaged_of_tile ht]
              simpa using hnone
            have hfilter : (some key).filter (· ≠ key) = none := by simp
            rw [hlast, TileManager.reclaim_of_not_imaged himaged, hfilter]
          · have hfilter : (some last).filter (· ≠ key) = some last := by simp [hlast]
            rw [hfilter]
      · rw [if_neg hfull, if_neg hfull]
        rfl

theorem Listed.setBitmapOnTile (h : Listed b) (key : K) (bitmap : I) : Listed (b.setBitmapOnTile key bitmap) := by
  unfold TileBitmaps.setBitmapOnTile
  cases ht : b.manager.tile key with
  | none => exact h
  | some t =>
    dsimp only
    split
    · rename_i himage
      exact h.congr (.refl _) (TileManager.imaged_setTile_same ht himage.symm)
    · rename_i hnone
      have himaged : b.freeBitmap.manager.imaged key = false := by
        refine imaged_freeBitmap ?_
        rw [TileManager.imaged_of_tile ht]
        simpa using hnone
      have hfree := h.freeBitmap
      have hperm := insertBitmap_perm b.freeBitmap key t.distanceFromView
      have hnew : key ∉ b.freeBitmap.tileBitmapList := by
        rw [hfree.mem, himaged]
        exact Bool.false_ne_true
      refine ⟨hperm.nodup_iff.2 (List.nodup_cons.2 ⟨hnew, hfree.nodup⟩), fun k => ?_⟩
      rw [hperm.mem_iff, List.mem_cons, hfree.mem, TileManager.imaged_setTile]
      by_cases hk : k = key
      · rw [if_pos hk]
        exact ⟨fun _ => rfl, fun _ => .inl hk⟩
      · rw [if_neg hk]
        exact ⟨fun hor => hor.resolve_left hk, .inr⟩

theorem keeps_showBitmap (b : TileBitmaps K P I) {x : K × I} (hshown : shown x.1) :
    Keeps shown b.manager (b.showBitmap x).manager := by
  obtain ⟨c, hc⟩ := setBitmapOnTile_manager b x.1 x.2
  have hset : Keeps shown b.manager (b.setBitmapOnTile x.1 x.2).manager := by
    rw [hc]
    exact TileManager.keeps_setBitmapOnTile _ c x.2 hshown
  unfold showBitmap
  refine hset.trans ?_
  dsimp only
  cases (b.setBitmapOnTile x.1 x.2).manager.tile x.1 with
  | none => exact .refl _
  | some t =>
    dsimp only
    split
    · exact TileManager.keeps_tileReady _ _
    · exact .refl _

theorem Listed.showBitmap (h : Listed b) (x : K × I) : Listed (b.showBitmap x) := by
  unfold TileBitmaps.showBitmap
  have hset := h.setBitmapOnTile x.1 x.2
  dsimp only
  cases (b.setBitmapOnTile x.1 x.2).manager.tile x.1 with
  | none => exact hset
  | some t =>
    dsimp only
    split
    · exact hset.congr (.refl _) (TileManager.imaged_tileReady _ _)
    · exact hset

/-! ### Steps -/

theorem keeps_foldl_showBitmap (bitmaps : List (K × I)) (b : TileBitmaps K P I) (hshown : ∀ x ∈ bitmaps, shown x.1) :
    Keeps shown b.manager (bitmaps.foldl showBitmap b).manager := by
  induction bitmaps generalizing b with
  | nil => exact .refl _
  | cons x bitmaps ih =>
    exact (keeps_showBitmap b (hshown x List.mem_cons_self)).trans
      (ih (b.showBitmap x) fun y hy => hshown y (List.mem_cons_of_mem x hy))

/-- Drawing goes on and callbacks are called: no image and no cache is touched. -/
theorem keeps_resume (s : TileManager K P I) (paused : Bool) (callbacks called : List Nat) :
    Keeps shown s { s with pausedForCoherency := paused, transactionCallbacks := callbacks, called := called } := by
  refine ⟨rfl, rfl, rfl, rfl, fun _ => rfl, fun _ hk => hk, fun k hk hk' => ?_, fun _ => .inl⟩
  have hk' : s.imaged k = false := hk'
  rw [hk] at hk'
  cases hk'

theorem endTransactionHandleBitmaps_spec (shown : K → Prop) (b : TileBitmaps K P I) (c : Collect K)
    (bitmaps : List (K × I)) (hshown : ∀ x ∈ bitmaps, shown x.1) :
    Keeps shown b.manager (b.endTransactionHandleBitmaps c bitmaps).manager ∧
      (Listed b → Listed (b.endTransactionHandleBitmaps c bitmaps)) := by
  have hshow := keeps_foldl_showBitmap bitmaps b hshown
  have hlisted (h : Listed b) : Listed (bitmaps.foldl showBitmap b) :=
    .foldl (fun _ x hb => hb.showBitmap x) bitmaps h
  have hcollect (s : TileManager K P I) (hkeeps : Keeps shown (bitmaps.foldl showBitmap b).manager s)
      (himaged : s.imaged = (bitmaps.foldl showBitmap b).manager.imaged) :
      Keeps shown b.manager (garbageCollect { bitmaps.foldl showBitmap b with manager := s } c).manager ∧
        (Listed b → Listed (garbageCollect { bitmaps.foldl showBitmap b with manager := s } c)) := by
    refine ⟨?_, fun h => ?_⟩
    · rw [garbageCollect_manager]
      exact (hshow.trans hkeeps).trans (TileManager.keeps_garbageCollect s c)
    · have hsame : Listed { bitmaps.foldl showBitmap b with manager := s } := (hlisted h).congr (.refl _) himaged
      exact hsame.garbageCollect c
  unfold endTransactionHandleBitmaps
  dsimp only
  split
  · split
    · exact hcollect _ (keeps_resume _ _ _ _) rfl
    · exact hcollect _ (keeps_resume _ _ _ _) rfl
  · split
    · exact hcollect _ (keeps_resume _ _ _ _) rfl
    · exact hcollect _ (.refl _) rfl

theorem removeAllTiles_manager (b : TileBitmaps K P I) :
    b.removeAllTiles.manager = (b.manager.tiles.entries.map Prod.fst).foldl TileManager.removeTile b.manager :=
  foldl_manager removeTile_manager _ _

theorem listed_removeAllTiles (b : TileBitmaps K P I) : Listed b.removeAllTiles := by
  have hlist (keys : List K) (b : TileBitmaps K P I) (h : b.tileBitmapList = []) :
      (keys.foldl removeTile b).tileBitmapList = [] := by
    induction keys generalizing b with
    | nil => exact h
    | cons key keys ih =>
      refine ih (b.removeTile key) ?_
      unfold removeTile reclaimTileBitmapMemory
      dsimp only
      split
      · rw [h]
        rfl
      · exact h
  have hempty : b.removeAllTiles.tileBitmapList = [] := hlist _ _ rfl
  refine ⟨by rw [hempty]; exact List.nodup_nil, fun k => ?_⟩
  have htile : b.removeAllTiles.manager.tile k = none := by
    rw [removeAllTiles_manager]
    refine TileManager.tile_removeAll _ ?_
    cases ht : b.manager.tiles.find k with
    | none =>
      refine .inr ?_
      unfold TileManager.tile
      rw [ht]
      rfl
    | some p => exact .inl (List.mem_map.2 ⟨p, Table.mem_of_find ht, Table.key_of_find ht⟩)
  rw [hempty]
  unfold TileManager.imaged
  rw [htile]
  exact ⟨fun hk => absurd hk List.not_mem_nil, fun hk => absurd hk Bool.false_ne_true⟩

theorem keeps_removeAllTiles (b : TileBitmaps K P I) : Keeps shown b.manager b.removeAllTiles.manager := by
  rw [removeAllTiles_manager]
  exact .foldl fun s key _ => TileManager.keeps_removeTile s key

theorem removeAllTiles_spec (hs : Sources b.manager) :
    Leads b.manager b.removeAllTiles.manager ∧ Listed b.removeAllTiles := by
  have hkeeps : Keeps (fun _ => False) b.manager b.removeAllTiles.manager := keeps_removeAllTiles b
  exact ⟨hkeeps.leads hs fun _ _ hfalse => hfalse.elim, listed_removeAllTiles b⟩

/-- A worker's bitmaps are noted under their keys before they are shown. -/
theorem answer_spec (hs : Sources b.manager) (hl : Listed b) {i : Nat} {task : WorkerTask K P I}
    {deltas : List (PendingDelta K P I)} (htask : b.manager.posted[i]? = some task)
    (hanswer : task.answer = some deltas) (c : Collect K) :
    let b' := onWorkerEndTransaction d
      { b with manager := { b.manager with posted := b.manager.posted.eraseIdx i } } c deltas
    Leads b.manager b'.manager ∧ Listed b' := by
  have hmem := List.mem_of_getElem? htask
  have hworkers : b.manager.workers ≠ 0 := by
    intro hzero
    rw [hs.withoutWorkers hzero] at hmem
    exact absurd hmem List.not_mem_nil
  have hbitmaps := hs.answers task hmem deltas hanswer
  dsimp only
  unfold onWorkerEndTransaction
  dsimp only
  generalize hs₁ : ({ b.manager with posted := b.manager.posted.eraseIdx i
                                     nPendingWorkerTasks := b.manager.nPendingWorkerTasks - 1 } : TileManager K P I) =
                                       s₁
  have hsame := (TileManager.workerDeltas_spec (d := d) s₁ deltas).1
  obtain ⟨hkeys, hnoted, -⟩ := TileManager.workerDeltas_cache d s₁ deltas
  have himaged := TileManager.imaged_workerDeltas d s₁ deltas
  generalize TileManager.workerDeltas d s₁ deltas = r at hsame hkeys hnoted himaged
  subst hs₁
  have hsources : Sources r.1 := by
    refine ⟨fun hzero => absurd (hsame.workers.symm.trans hzero) hworkers, ?_, ?_, fun _ => ?_, fun _ k hk => ?_⟩
    · rw [hsame.pendingDeltas]
      exact hs.pending
    · rw [hsame.posted]
      exact fun task htask => hs.answers task (List.mem_of_mem_eraseIdx htask)
    · rw [hsame.bitmapPromises]
      exact hs.promises hworkers
    · rw [himaged] at hk
      exact hkeys k (hs.cached hworkers k hk)
  have hleads (s : TileManager K P I) (hsources : Sources s)
      (hkeep : ∀ k, r.1.tileImageCache (.key k) ≠ none → s.tileImageCache (.key k) ≠ none) : Leads b.manager s :=
    ⟨hsources, fun k hk => hkeep k (hkeys k hk), fun hzero => absurd hzero hworkers,
    fun hzero => absurd hzero hworkers⟩
  have hlisted : Listed { b with manager := r.1 } := hl.congr (.refl _) himaged
  split
  · exact ⟨hleads r.1 hsources fun _ hk => hk, hlisted⟩
  · obtain ⟨hkeeps, hlist⟩ :=
      endTransactionHandleBitmaps_spec (fun k => ∃ x ∈ r.2, x.1 = k) { b with manager := r.1 } c r.2
      fun x hx => ⟨x, hx, rfl⟩
    have hshown (k : K) (hk : ∃ x ∈ r.2, x.1 = k) : r.1.tileImageCache (.key k) ≠ none := by
      obtain ⟨x, hx, rfl⟩ := hk
      exact hnoted hbitmaps x hx
    exact ⟨hleads _ (hkeeps.sources hsources fun _ => hshown) fun k hk => by rwa [hkeeps.keys], hlist hlisted⟩

/-- Bitmaps are promised without workers only. -/
theorem resolve_spec (hs : Sources b.manager) (hl : Listed b) {i : Nat} {bitmaps : List (K × I)}
    (hbitmaps : b.manager.bitmapPromises[i]? = some bitmaps) (c : Collect K) :
    let b' := endTransactionHandleBitmaps
      { b with manager := { b.manager with bitmapPromises := b.manager.bitmapPromises.eraseIdx i } } c bitmaps
    Leads b.manager b'.manager ∧ Listed b' := by
  have hworkers : b.manager.workers = 0 := by
    by_contra hne
    rw [hs.promises hne] at hbitmaps
    cases hbitmaps
  obtain ⟨hkeeps, hlist⟩ := endTransactionHandleBitmaps_spec (fun _ => True)
    { b with manager := { b.manager with bitmapPromises := b.manager.bitmapPromises.eraseIdx i } } c bitmaps
      fun _ _ => trivial
  have hsources : Sources { b.manager with bitmapPromises := b.manager.bitmapPromises.eraseIdx i } :=
    ⟨hs.withoutWorkers, hs.pending, hs.answers, fun hne => absurd hworkers hne, fun hne => absurd hworkers hne⟩
  have hleads := hkeeps.leads hsources fun hne => absurd hworkers hne
  exact ⟨⟨hleads.sources, hleads.keys, hleads.workers, hleads.reclaimed⟩, hlist (hl.congr (.refl _) rfl)⟩

theorem onWorkerError_spec (hworkers : b.manager.workers ≠ 0) :
    Leads b.manager b.onWorkerError.manager ∧ Listed b.onWorkerError := by
  unfold onWorkerError
  dsimp only
  generalize hs₁ : TileManager.callTransactionCallbacks
    { b.manager with workers := 0, posted := [], pendingDeltas := [], nPendingWorkerTasks := 0 } = s₁
  have hkeeps : Keeps (fun _ => False) s₁ (removeAllTiles { b with manager := s₁ }).manager :=
    keeps_removeAllTiles { b with manager := s₁ }
  have hlisted := listed_removeAllTiles { b with manager := s₁ }
  subst hs₁
  refine ⟨⟨hkeeps.sources ⟨fun _ => rfl, fun x hx => absurd hx List.not_mem_nil,
    fun x hx => absurd hx List.not_mem_nil,
    fun hne => absurd rfl hne, fun hne => absurd rfl hne⟩ fun hne => absurd rfl hne, fun k hk => ?_,
    fun hzero => absurd hzero hworkers, fun hzero => absurd hzero hworkers⟩, hlisted⟩
  rw [hkeeps.keys]
  exact hk

theorem step_spec {e : Event K P} (hs : Sources b.manager) (hl : Listed b) (hstep : step d b e = some b') :
    Leads b.manager b'.manager ∧ Listed b' := by
  have hquiet (s : TileManager K P I) (hq : Quiet b.manager s) :
      Leads b.manager s ∧ Listed { b with manager := s } := ⟨hq.leads hs, hl.congr (.refl _) hq.imaged⟩
  have hkeeps (b' : TileBitmaps K P I) (hk : Keeps (fun _ => False) b.manager b'.manager) (hl' : Listed b') :
      Leads b.manager b'.manager ∧ Listed b' := ⟨hk.leads hs fun _ _ hfalse => hfalse.elim, hl'⟩
  cases e with
  | removeAllTiles =>
    obtain rfl := Option.some.inj hstep
    exact removeAllTiles_spec hs
  | manager e =>
    cases e with
    | beginTransaction =>
      obtain rfl := Option.some.inj hstep
      exact hquiet _ ⟨rfl, rfl, rfl, rfl, rfl, fun _ => .inl⟩
    | endTransaction callback =>
      obtain rfl := Option.some.inj hstep
      exact ⟨TileManager.leads_endTransaction hs callback,
        hl.congr (.refl _) (TileManager.imaged_endTransaction d b.manager callback)⟩
    | tileMsg key distance img =>
      obtain rfl := Option.some.inj hstep
      exact hquiet _ (TileManager.quiet_onTileMsg b.manager key distance img)
    | rehydrateTile key =>
      obtain rfl := Option.some.inj hstep
      exact hquiet _ (TileManager.quiet_rehydrateTile b.manager key false)
    | makeTileCurrent key =>
      obtain rfl := Option.some.inj hstep
      exact hquiet _ (TileManager.quiet_makeTileCurrent b.manager key)
    | updateAllTileDistances distance =>
      obtain rfl := Option.some.inj hstep
      exact hkeeps _ (TileManager.keeps_updateAllTileDistances b.manager distance)
        (hl.congr (List.mergeSort_perm _ _) (TileManager.imaged_updateAllTileDistances b.manager distance))
    | createTile key distance =>
      obtain rfl := Option.some.inj hstep
      exact hquiet _ (TileManager.quiet_createTile b.manager key distance)
    | removeTile key =>
      obtain rfl := Option.some.inj hstep
      exact hkeeps _ (by rw [removeTile_manager]; exact TileManager.keeps_removeTile b.manager key)
        (hl.removeTile key)
    | reclaimTileBitmapMemory key =>
      obtain rfl := Option.some.inj hstep
      exact hkeeps _ (by rw [reclaim_manager]; exact TileManager.keeps_reclaim b.manager key) (hl.reclaim key)
    | garbageCollect c =>
      obtain rfl := Option.some.inj hstep
      exact hkeeps _ (by rw [garbageCollect_manager]; exact TileManager.keeps_garbageCollect b.manager c)
        (hl.garbageCollect c)
    | answer i c =>
      simp only [step, Option.bind_eq_bind, Option.bind_eq_some_iff] at hstep
      obtain ⟨task, htask, deltas, hanswer, hb'⟩ := hstep
      obtain rfl := Option.some.inj hb'
      exact answer_spec hs hl htask hanswer c
    | resolve i c =>
      simp only [step, Option.bind_eq_bind, Option.bind_eq_some_iff] at hstep
      obtain ⟨bitmaps, hbitmaps, hb'⟩ := hstep
      obtain rfl := Option.some.inj hb'
      exact resolve_spec hs hl hbitmaps c
    | workerError =>
      obtain ⟨hworkers, hb'⟩ := Option.ite_none_right_eq_some.1 hstep
      obtain rfl := Option.some.inj hb'
      exact onWorkerError_spec hworkers

/-! ### Runs -/

theorem inv_run (h : Run.Reachable IsInit (step d) Run.Any b) : Sources b.manager ∧ Listed b := by
  refine h.invariant (fun b => Sources b.manager ∧ Listed b) (fun b hinit => ?_) fun b e b' _ hinv _ hstep => ?_
  · rw [hinit]
    exact ⟨⟨fun _ => rfl, fun x hx => absurd hx List.not_mem_nil, fun x hx => absurd hx List.not_mem_nil,
      fun _ => rfl, fun _ k hk => absurd hk Bool.false_ne_true⟩, List.nodup_nil,
      fun k => ⟨fun hk => absurd hk List.not_mem_nil, fun hk => absurd hk Bool.false_ne_true⟩⟩
  · obtain ⟨hleads, hlisted⟩ := step_spec hinv.1 hinv.2 hstep
    exact ⟨hleads.sources, hlisted⟩

/-- In every run a tile has an image exactly when it is listed once; and the step that takes its bitmap leaves no
entry for it in the caches exactly where no bitmap of a worker was drawn on it before. -/
theorem bitmaps_of_run (h : Run.Reachable IsInit (step d) Run.Any b) :
    (∀ k, b.manager.imaged k = true ↔ b.tileBitmapList.count k = 1) ∧
      ∀ e b' k, step d b e = some b' → b.manager.imaged k = true → b'.manager.imaged k = false →
        (Forgotten b' k ↔ b.manager.tileImageCache (.key k) = none) := by
  obtain ⟨hsources, hlisted⟩ := inv_run h
  refine ⟨fun k => ?_, fun e b' k hstep himage hreclaimed => ?_⟩
  · rw [← hlisted.mem]
    constructor
    · exact List.count_eq_one_of_mem hlisted.nodup
    · intro hcount
      exact List.count_pos_iff.1 (by omega)
  · obtain ⟨hleads, -⟩ := step_spec hsources hlisted hstep
    constructor
    · rintro ⟨hkey, -⟩
      by_contra hne
      exact hleads.keys k hne hkey
    · intro hnone
      have hworkers : b.manager.workers = 0 := by
        by_contra hne
        exact hsources.cached hne k himage hnone
      obtain ⟨hkey, hstring⟩ := hleads.reclaimed hworkers k himage hreclaimed
      refine ⟨hkey.trans hnone, hstring, fun worker hworker => ?_⟩
      rw [hleads.workers hworkers] at hworker
      exact absurd hworker (Nat.not_lt_zero worker)

section Examples

open TileManager (lists keyframe)

/-- A keyframe that is drawn without workers. -/
theorem bitmaps_of_run_withoutWorkers : ∃ b b' : TileBitmaps Nat Nat (List Nat), b.tileBitmapList.count 0 = 1 ∧
    step lists b (.manager (.reclaimTileBitmapMemory 0)) = some b' ∧ Forgotten b' 0 := by
  have hinit : IsInit ({} : TileBitmaps Nat Nat (List Nat)) := rfl
  have hrun : ∃ b : TileBitmaps Nat Nat (List Nat), Run.Reachable IsInit (step lists) Run.Any b ∧
      (b.manager.imaged 0 && (b.manager.tileImageCache (.key 0)).isNone) = true :=
    Run.Reachable.exists_of_run {} [.manager .beginTransaction, .manager (.tileMsg 0 0 (some keyframe)),
      .manager (.endTransaction none), .manager (.resolve 0 .nothing)] hinit (by decide +kernel)
  obtain ⟨b, hreach, hb⟩ := hrun
  obtain ⟨himage, hkey⟩ := Bool.and_eq_true_iff.1 hb
  have hreclaimed : (b.reclaimTileBitmapMemory 0).manager.imaged 0 = false := by
    rw [reclaim_manager, TileManager.imaged_reclaim, if_pos rfl]
  obtain ⟨hlisted, hforgotten⟩ := bitmaps_of_run hreach
  exact ⟨b, b.reclaimTileBitmapMemory 0, (hlisted 0).1 himage, rfl,
    (hforgotten (.manager (.reclaimTileBitmapMemory 0)) _ 0 rfl himage hreclaimed).2
    (Option.isNone_iff_eq_none.1 hkey)⟩

/-- A keyframe that a worker decompresses stays in the caches when the bitmap is reclaimed. -/
theorem not_forgotten_of_worker : ¬ ∀ b :
    TileBitmaps Nat Nat (List Nat), Run.Reachable IsInit (step lists) Run.Any b →
    (∀ k, b.manager.imaged k = true ↔ b.tileBitmapList.count k = 1) ∧
      ∀ e b' k, step lists b e = some b' → b.manager.imaged k = true → b'.manager.imaged k = false →
        Forgotten b' k := by
  intro h
  have hinit : IsInit ({ manager := { workers := 1 } } : TileBitmaps Nat Nat (List Nat)) := rfl
  have hrun : ∃ b : TileBitmaps Nat Nat (List Nat), Run.Reachable IsInit (step lists) Run.Any b ∧
      (b.manager.imaged 0 && (b.manager.tileImageCache (.key 0)).isSome) = true :=
    Run.Reachable.exists_of_run { manager := { workers := 1 } } [.manager .beginTransaction,
      .manager (.tileMsg 0 0 (some keyframe)), .manager (.endTransaction none), .manager (.answer 0 .nothing)] hinit
      (by decide +kernel)
  obtain ⟨b, hreach, hb⟩ := hrun
  obtain ⟨himage, hkey⟩ := Bool.and_eq_true_iff.1 hb
  have hreclaimed : (b.reclaimTileBitmapMemory 0).manager.imaged 0 = false := by
    rw [reclaim_manager, TileManager.imaged_reclaim, if_pos rfl]
  obtain ⟨hnone, -⟩ := (h b hreach).2 (.manager (.reclaimTileBitmapMemory 0)) _ 0 rfl himage hreclaimed
  -- what is noted under the key stays
  have hkeeps : Keeps (fun _ => False) b.manager (b.manager.reclaimTileBitmapMemory 0) :=
    TileManager.keeps_reclaim b.manager 0
  have hkeys := hkeeps.keys 0
  rw [← reclaim_manager, hnone] at hkeys
  rw [← hkeys] at hkey
  cases hkey

end Examples

end TileBitmaps

end CollaboraOnline
