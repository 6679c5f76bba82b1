import Mathlib.Data.List.Sort
import Mathlib.Tactic
import CollaboraOnline.Lib.Table

/-!
# The tile cache of the server

Tile descriptors, the chain of blobs of a tile (`TileData`), the renders in flight with their subscribers
(`TileBeingRendered`), the cache itself, and the tracker of what a session was last sent.  Wire ids are natural
numbers; sessions are named by numbers that are never used again, so that a weak pointer to a session is its number.
-/

namespace CollaboraOnline

/-- The fields that `TileDescCacheCompareEq` compares. -/
structure TileKey where
  canonicalViewId : Int
  part : Int
  mode : Int
  width : Int
  height : Int
  tilePosX : Int
  tilePosY : Int
  tileWidth : Int
  tileHeight : Int
deriving DecidableEq, Repr

structure TileDesc extends TileKey where
  ver : Int
  imgSize : Int
  id : Int
  oldWireId : Nat
  wireId : Nat
deriving DecidableEq, Repr

namespace TileDesc

def key (tile : TileDesc) : TileKey := tile.toTileKey

def setCanonicalViewId (tile : TileDesc) (canonicalViewId : Int) : TileDesc :=
  { tile with canonicalViewId := canonicalViewId }

def setVersion (tile : TileDesc) (ver : Int) : TileDesc := { tile with ver := ver }

def setOldWireId (tile : TileDesc) (id : Nat) : TileDesc := { tile with oldWireId := id }

def setWireId (tile : TileDesc) (id : Nat) : TileDesc := { tile with wireId := id }

def forceKeyframe (tile : TileDesc) : TileDesc := tile.setOldWireId 0

def isForcedKeyFrame (tile : TileDesc) : Bool := tile.oldWireId == 0

def sameTileCombineParams (tile other : TileDesc) : Bool :=
  !(other.part != tile.part || other.mode != tile.mode || other.width != tile.width || other.height != tile.height ||
    other.tileWidth != tile.tileWidth || other.tileHeight != tile.tileHeight ||
    other.canonicalViewId != tile.canonicalViewId)

@[simp] theorem key_setVersion (tile : TileDesc) (ver : Int) : (tile.setVersion ver).key = tile.key := rfl

@[simp] theorem key_setOldWireId (tile : TileDesc) (id : Nat) : (tile.setOldWireId id).key = tile.key := rfl

@[simp] theorem key_setWireId (tile : TileDesc) (id : Nat) : (tile.setWireId id).key = tile.key := rfl

@[simp] theorem key_forceKeyframe (tile : TileDesc) : tile.forceKeyframe.key = tile.key := rfl

@[simp] theorem ver_setVersion (tile : TileDesc) (ver : Int) : (tile.setVersion ver).ver = ver := rfl

@[simp] theorem ver_forceKeyframe (tile : TileDesc) : tile.forceKeyframe.ver = tile.ver := rfl

end TileDesc

/-! ### The blobs of a tile -/

/-- The vectors of `TileData`. -/
structure TileBlobs where
  wids : List Nat
  offsets : List Nat
  deltas : List UInt8
deriving DecidableEq, Repr

namespace TileBlobs

/-- One offset for each wire id, none after the end of the data. -/
structure WellFormed (b : TileBlobs) : Prop where
  length_offsets : b.offsets.length = b.wids.length
  sorted : b.offsets.Pairwise (· ≤ ·)
  bounded : ∀ o ∈ b.offsets, o ≤ b.deltas.length

def empty : TileBlobs := ⟨[], [], []⟩

/-- A keyframe (or a png) by its first byte. -/
def isKeyframe (data : List UInt8) : Bool := data.head? == some 90 || data.head? == some 0x89

/-- `appendBlob` after the vectors were cleared for a keyframe. -/
def push (b : TileBlobs) (id : Nat) (data : List UInt8) : TileBlobs :=
  if data.length == 1 && b.offsets.length > 1 && b.offsets.getLast? == some b.deltas.length then
    { b with wids := b.wids.dropLast ++ [id] }
  else
    { wids := b.wids ++ [id], offsets := b.offsets ++ [b.deltas.length], deltas := b.deltas ++ data.tail }

def appendBlob (b : TileBlobs) (id : Nat) (data : List UInt8) : TileBlobs :=
  if isKeyframe data then empty.push id data else b.push id data

theorem empty_wellFormed : empty.WellFormed := ⟨rfl, List.Pairwise.nil, by simp [empty]⟩

theorem push_wellFormed {b : TileBlobs} (h : b.WellFormed) (id : Nat) (data : List UInt8) :
    (b.push id data).WellFormed := by
  unfold push
  split
  · rename_i hbump
    simp only [Bool.and_eq_true, decide_eq_true_eq] at hbump
    refine ⟨?_, h.sorted, h.bounded⟩
    have := h.length_offsets
    simp
    omega
  · refine ⟨by simp [h.length_offsets], ?_, ?_⟩
    · rw [List.pairwise_append]
      refine ⟨h.sorted, by simp, ?_⟩
      intro o ho o' ho'
      rw [List.mem_singleton.1 ho']
      exact h.bounded o ho
    · intro o ho
      rw [List.length_append]
      rcases List.mem_append.1 ho with ho | ho
      · have := h.bounded o ho
        omega
      · rw [List.mem_singleton.1 ho]
        omega

theorem appendBlob_wellFormed {b : TileBlobs} (h : b.WellFormed) (id : Nat) (data : List UInt8) :
    (b.appendBlob id data).WellFormed := by
  unfold appendBlob
  split
  · exact push_wellFormed empty_wellFormed id data
  · exact push_wellFormed h id data

theorem push_wids_ne_nil (b : TileBlobs) (id : Nat) (data : List UInt8) : (b.push id data).wids ≠ [] := by
  unfold push
  split <;> simp

theorem appendBlob_wids_ne_nil (b : TileBlobs) (id : Nat) (data : List UInt8) : (b.appendBlob id data).wids ≠ [] := by
  unfold appendBlob
  split <;> exact push_wids_ne_nil _ _ _

end TileBlobs

/-- A cached tile: its first blob is a keyframe, the others are deltas. -/
structure TileData where
  blobs : TileBlobs
  valid : Bool
  wellFormed : blobs.WellFormed
  wids_ne_nil : blobs.wids ≠ []

instance : DecidableEq TileData := fun s t =>
  decidable_of_iff (s.blobs = t.blobs ∧ s.valid = t.valid) (by cases s; cases t; simp)

namespace TileData

/-- The constructor. -/
def new (start : Nat) (data : List UInt8) : TileData :=
  ⟨TileBlobs.empty.appendBlob start data, true, TileBlobs.appendBlob_wellFormed TileBlobs.empty_wellFormed _ _,
    TileBlobs.appendBlob_wids_ne_nil _ _ _⟩

def appendBlob (tile : TileData) (id : Nat) (data : List UInt8) : TileData :=
  ⟨tile.blobs.appendBlob id data, true, TileBlobs.appendBlob_wellFormed tile.wellFormed _ _,
    TileBlobs.appendBlob_wids_ne_nil _ _ _⟩

def invalidate (tile : TileData) : TileData := { tile with valid := false }

def isValid (tile : TileData) : Bool := tile.valid

def size (tile : TileData) : Nat := tile.blobs.deltas.length

/-- At what point do we stop stacking deltas & render a keyframe? -/
def tooLarge (tile : TileData) : Bool :=
  if tile.blobs.offsets.length ≤ 1 then false else tile.size - tile.blobs.offsets.getD 1 0 > 128 * 1024

def isPng (tile : TileData) : Bool := tile.size > 1 && tile.blobs.deltas.getD 0 0 == 0x89

/-- `_wids.back()` -/
def lastWid (tile : TileData) : Nat := tile.blobs.wids.getLast tile.wids_ne_nil

/-- If we send changes since this seq - do we need to first send the keyframe? -/
def needsKeyframe (tile : TileData) (since : Nat) : Bool := since < tile.blobs.wids.head tile.wids_ne_nil

/-- `appendChangesSince`: the bytes appended, `none` when there is no content. -/
def appendChangesSince (tile : TileData) (since : Nat) : Option (List UInt8) :=
  let i := if since = 0 then 0 else (tile.blobs.wids.takeWhile (· ≤ since)).length
  if i ≥ tile.blobs.wids.length then none else some (tile.blobs.deltas.drop (tile.blobs.offsets.getD i 0))

end TileData

/-! ### The cache -/

def commandTimeoutMs : Nat := 5 * 1000

/-- A render in flight.  Its tile carries the version that is waited for. -/
structure TileBeingRendered where
  subscribers : List Nat
  startTime : Nat
  tile : TileDesc
deriving DecidableEq, Repr

namespace TileBeingRendered

def key (t : TileBeingRendered) : TileKey := t.tile.key

def getVersion (t : TileBeingRendered) : Int := t.tile.ver

def setVersion (t : TileBeingRendered) (ver : Int) : TileBeingRendered := { t with tile := t.tile.setVersion ver }

def isStale (t : TileBeingRendered) (now : Nat) : Bool := now - t.startTime > commandTimeoutMs

end TileBeingRendered

/-- An entry of `_cache`: the description the tile was first stored under, and the tile. -/
structure CachedTile where
  desc : TileDesc
  tile : TileData
deriving DecidableEq

def CachedTile.key (entry : CachedTile) : TileKey := entry.desc.key

structure TileCache where
  cache : Table CachedTile.key
  tilesBeingRendered : Table TileBeingRendered.key
  cacheSize : Int
  maxCacheSize : Int
  dontCache : Bool
deriving DecidableEq

namespace TileCache

def sizeofTile : Nat := 16

def sizeofTileDesc : Nat := 56

def itemCacheSize (tile : TileData) : Nat := sizeofTile + sizeofTileDesc + tile.size

/-- The constructor. -/
def new (dontCache : Bool) : TileCache := ⟨Table.empty, Table.empty, 0, 1024 * 1024, dontCache⟩

def clear (c : TileCache) : TileCache := { c with cache := Table.empty, cacheSize := 0 }

def findTileBeingRendered (c : TileCache) (tile : TileDesc) : Option TileBeingRendered :=
  c.tilesBeingRendered.find tile.key

def hasTileBeingRendered (c : TileCache) (tile : TileDesc) (now : Nat) : Bool :=
  match c.findTileBeingRendered tile with
  | none => false
  | some t => !t.isStale now

def getTileBeingRenderedVersion (c : TileCache) (tile : TileDesc) : Int :=
  match c.findTileBeingRendered tile with
  | none => 0
  | some t => t.getVersion

/-- Forget the tile being rendered if it is the latest version we expect. -/
def forgetTileBeingRendered (c : TileCache) (descForKitReply : TileDesc) (t : TileBeingRendered) : TileCache :=
  if t.getVersion ≤ descForKitReply.ver then { c with tilesBeingRendered := c.tilesBeingRendered.erase t.key }
  else c

/-- `findTile` -/
def findTile (c : TileCache) (desc : TileDesc) : Option TileData := (c.cache.find desc.key).map CachedTile.tile

def lookupTile (c : TileCache) (tile : TileDesc) : Option TileData :=
  if c.dontCache then none else c.findTile tile

/-- `subscribeToTileRendering`; the returned truth value says that there was no subscription yet. -/
def subscribeToTileRendering (c : TileCache) (tile : TileDesc) (subscriber : Nat) (now : Nat) : TileCache × Bool :=
  match c.findTileBeingRendered tile with
  | some t =>
    if subscriber ∈ t.subscribers then
      -- the version stops us unsubscribing when we get there
      ({ c with tilesBeingRendered := c.tilesBeingRendered.put (t.setVersion tile.ver) }, false)
    else
      ({ c with
        tilesBeingRendered := c.tilesBeingRendered.put { t with subscribers := t.subscribers ++ [subscriber] } },
        true)
  | none => ({ c with tilesBeingRendered := c.tilesBeingRendered.put ⟨[subscriber], now, tile⟩ }, true)

/-- The loop that calculates up to which wire id tiles are cleaned out. -/
def widLimit (limit : Int) : Int → Nat → List (Nat × Nat) → Nat
  | _, maxToRemove, [] => maxToRemove
  | total, _, (wid, size) :: wids =>
    if total + size > limit then wid else widLimit limit (total + size) wid wids

/-- `maxToRemove` of `ensureCacheSize`. -/
def maxToRemove (c : TileCache) : Nat :=
  let wids := (c.cache.entries.map fun e => (e.desc.wireId, itemCacheSize e.tile)).insertionSort fun a b => a.1 ≤ b.1
  let front := (wids.head?.map Prod.fst).getD 0
  let back := (wids.getLast?.map Prod.fst).getD 0
  if back - front > 256 * 256 * 256 then back else widLimit (c.maxCacheSize / 4) 0 front wids

/-- The tiles that `ensureCacheSize` keeps: newer ones and those being rendered. -/
def keeps (c : TileCache) (maxToRemove : Nat) (e : CachedTile) : Bool :=
  !(e.desc.wireId ≤ maxToRemove) || (c.tilesBeingRendered.find e.key).isSome

def ensureCacheSize (c : TileCache) : TileCache :=
  if c.cacheSize < c.maxCacheSize || c.cache.entries.length < 2 then c
  else
    let removed := c.cache.entries.filter fun e => !c.keeps c.maxToRemove e
    { c with
      cache := c.cache.filter (c.keeps c.maxToRemove)
      cacheSize := c.cacheSize - (removed.map fun e => (itemCacheSize e.tile : Int)).sum }

theorem find_ensureCacheSize {c : TileCache} {key : TileKey} {e : CachedTile}
    (h : c.ensureCacheSize.cache.find key = some e) : c.cache.find key = some e := by
  unfold ensureCacheSize at h
  split at h
  · exact h
  · dsimp only at h
    rw [Table.find_filter] at h
    exact (Option.filter_eq_some_iff.1 h).1

@[simp] theorem dontCache_ensureCacheSize (c : TileCache) : c.ensureCacheSize.dontCache = c.dontCache := by
  unfold ensureCacheSize
  split <;> rfl

def setMaxCacheSize (c : TileCache) (cacheSize : Int) : TileCache :=
    { c with maxCacheSize := cacheSize }.ensureCacheSize

/-- `saveDataToCache`: the tile that was saved, `none` when a delta was discarded. -/
def saveDataToCache (c : TileCache) (desc : TileDesc) (data : List UInt8) : TileCache × Option TileData :=
  if c.dontCache then (c, some (TileData.new desc.wireId data))
  else
    let c := c.ensureCacheSize
    match c.cache.find desc.key with
    | none =>
      if !TileBlobs.isKeyframe data then (c, none)
      else
        let tile := TileData.new desc.wireId data
        ({ c with cache := c.cache.put ⟨desc, tile⟩, cacheSize := c.cacheSize + itemCacheSize tile }, some tile)
    | some e =>
      let tile := e.tile.appendBlob desc.wireId data
      ({ c with
          cache := c.cache.put ⟨e.desc, tile⟩
          cacheSize := c.cacheSize + ((tile.size : Int) - e.tile.size) }, some tile)

/-- The loop body of `invalidateTiles`, where `intersects` is `intersectsTile` with the invalidated area. -/
def invalidateEntry (intersects : TileDesc → Bool) (e : CachedTile) : CachedTile :=
  if intersects e.desc then { e with tile := e.tile.invalidate } else e

theorem key_invalidateEntry (intersects : TileDesc → Bool) (e : CachedTile) :
    (invalidateEntry intersects e).key = e.key := by
  unfold invalidateEntry
  split <;> rfl

def invalidateTiles (c : TileCache) (intersects : TileDesc → Bool) : TileCache :=
  { c with cache := c.cache.map (invalidateEntry intersects) (key_invalidateEntry intersects) }

end TileCache

/-! ### What a session was last sent -/

/-- `ClientDeltaTracker` -/
abbrev ClientDeltaTracker := Table TileDesc.key

namespace ClientDeltaTracker

/-- The wire id of the last tile sent, 0 if there is none, and the tracker with the tile's wire id. -/
def updateTileSeq (tracker : ClientDeltaTracker) (desc : TileDesc) : Nat × ClientDeltaTracker :=
  match tracker.find desc.key with
  | none => (0, tracker.put desc)
  | some it => (it.wireId, tracker.put (it.setWireId desc.wireId))

def resetTileSeq (tracker : ClientDeltaTracker) (desc : TileDesc) : ClientDeltaTracker :=
  match tracker.find desc.key with
  | none => tracker
  | some it => tracker.put (it.setWireId 0)

end ClientDeltaTracker

end CollaboraOnline
