import CollaboraOnline.Lib.Table
import Mathlib.Data.List.Basic

/-!
# The browser's tiles

The tile manager keeps the raw deltas of every tile and has them decompressed in transactions, by workers or, without
workers, on its own.  The decoder is a parameter.  Which tiles the garbage collection takes, and whose bitmap is given
up for a new one, depends on sizes and distances; here a `Collect` says it.
-/

namespace CollaboraOnline

/-- `cool.RawDelta`. -/
structure RawDelta (P : Type) where
  delta : P
  id : Nat
  isKeyframe : Bool
deriving DecidableEq

structure TileDecoder (K P I : Type) where
  unrle : P → I
  updateImageFromDeltas : I → P → I
  /-- The column and the row of a tile, added and rounded. -/
  bucket : K → Nat

namespace TileDecoder

variable {K P I : Type}

def updates (d : TileDecoder K P I) (image : I) (deltas : List P) : I :=
  deltas.foldl d.updateImageFromDeltas image

/-- The image of a keyframe and the deltas behind it. -/
def keyframe (d : TileDecoder K P I) : List P → Option I
  | [] => none
  | first :: rest => some (d.updates (d.unrle first) rest)

end TileDecoder

/-- The index from which the raw deltas are needed. -/
def lastKeyframe {P : Type} (rawDeltas : List (RawDelta P)) : Nat :=
  match rawDeltas.tail.reverse.findIdx? (·.isKeyframe) with
  | none => 0
  | some j => rawDeltas.length - 1 - j

/-- `Tile`. -/
structure BrowserTile (P I : Type) where
  distanceFromView : Nat := 0
  image : Option I := none
  rawDeltas : List (RawDelta P) := []
  deltaId : Nat := 0
  lastPendingId : Nat := 0
  decompressedId : Nat := 0
  /-- All raw deltas that were stored, also those that were discarded since. -/
  stored : List (RawDelta P) := []
deriving DecidableEq

namespace BrowserTile

variable {P I : Type}

def hasKeyframe (t : BrowserTile P I) : Bool := !t.rawDeltas.isEmpty

def isReady (t : BrowserTile P I) : Bool := t.decompressedId == t.lastPendingId

def needsRehydration (t : BrowserTile P I) : Bool := t.rawDeltas.getLast?.any fun last => t.lastPendingId != last.id

end BrowserTile

/-- What is posted to a worker for a tile, and comes back with a bitmap. -/
structure PendingDelta (K P I : Type) where
  key : K
  rawDelta : List P
  isKeyframe : Bool
  wireMessage : Bool
  ids : Nat × Nat
  bitmap : Option I := none
deriving DecidableEq

/-- A message to a worker; the answer is `none` where the worker throws. -/
structure WorkerTask (K P I : Type) where
  worker : Nat
  deltas : List (PendingDelta K P I)
  answer : Option (List (PendingDelta K P I))
deriving DecidableEq

/-- The tiles that are taken to save memory. -/
structure Collect (K : Type) where
  /-- The tile that gives up its bitmap for that of another one. -/
  bitmap : K → Option K
  deltas : List K
  tiles : List K

def Collect.nothing {K : Type} : Collect K := ⟨fun _ => none, [], []⟩

/-- An image that comes with a tile message. -/
structure TileImage (P : Type) where
  rawData : P
  isEmpty : Bool
  isKeyframe : Bool

/-- The strings of a tile's coordinates in the cache of images: `key()`, and `toString()`, which is never the key of a
tile. -/
inductive CoordsString (K : Type)
  | key (coords : K)
  | string (coords : K)
deriving DecidableEq

structure TileManager (K P I : Type) [DecidableEq K] where
  inTransaction : Nat := 0
  pendingDeltas : List (PendingDelta K P I) := []
  transactionCallbacks : List Nat := []
  nPendingWorkerTasks : Nat := 0
  tiles : Table (Prod.fst : K × BrowserTile P I → K) := Table.empty
  /-- The value is `null` where a worker has the image. -/
  tileImageCache : CoordsString K → Option (Option I) := fun _ => none
  pausedForCoherency : Bool := false
  /-- The workers, their images and the messages they have not answered. -/
  workers : Nat := 0
  workerImages : Nat → K → Option I := fun _ _ => none
  posted : List (WorkerTask K P I) := []
  /-- The bitmaps that are being created without workers. -/
  bitmapPromises : List (List (K × I)) := []
  /-- The keys of the pending deltas are strings, since their decompression threw. -/
  keysReplaced : Bool := false
  /-- The callbacks given to `endTransaction`, and those that were called. -/
  passed : List Nat := []
  called : List Nat := []

namespace TileManager

variable {K P I : Type} [DecidableEq K]

def tile (s : TileManager K P I) (key : K) : Option (BrowserTile P I) := (s.tiles.find key).map Prod.snd

def setTile (s : TileManager K P I) (key : K) (t : BrowserTile P I) : TileManager K P I :=
  { s with tiles := s.tiles.put (key, t) }

/-! ### Memory -/

def reclaimTileBitmapMemory (s : TileManager K P I) (key : K) : TileManager K P I :=
  match s.tile key with
  | none => s
  | some t =>
    if t.image.isSome then
      { s.setTile key { t with image := none, decompressedId := 0, lastPendingId := 0 } with
        tileImageCache := Function.update s.tileImageCache (.string key) none }
    else s

def removeTile (s : TileManager K P I) (key : K) : TileManager K P I :=
  let s := s.reclaimTileBitmapMemory key
  { s with tiles := s.tiles.erase key }

def collectDeltas (s : TileManager K P I) (key : K) : TileManager K P I :=
  match s.tile key with
  | none => s
  | some t =>
    if t.distanceFromView ≠ 0 ∧ t.rawDeltas ≠ [] then
      let s := s.reclaimTileBitmapMemory key
      match s.tile key with
      | none => s
      | some t => s.setTile key { t with rawDeltas := [] }
    else s

def collectTile (s : TileManager K P I) (key : K) : TileManager K P I :=
  match s.tile key with
  | none => s
  | some t => if t.distanceFromView ≠ 0 then s.removeTile key else s

def garbageCollect (s : TileManager K P I) (c : Collect K) : TileManager K P I :=
  c.tiles.foldl collectTile (c.deltas.foldl collectDeltas s)

def setBitmapOnTile (s : TileManager K P I) (c : Collect K) (key : K) (bitmap : I) : TileManager K P I :=
  match s.tile key with
  | none => s
  | some t =>
    if t.image.isSome then s.setTile key { t with image := some bitmap }
    else
      -- the list of bitmaps does not have this tile
      let s := match (c.bitmap key).filter (· ≠ key) with
        | none => s
        | some last => s.reclaimTileBitmapMemory last
      s.setTile key { t with image := some bitmap }

/-! ### Drawing -/

def visibleTilesReady (s : TileManager K P I) : Bool :=
  s.tiles.entries.all fun (p : K × BrowserTile P I) =>
    !(p.2.distanceFromView == 0 && p.2.lastPendingId != 0 && !p.2.isReady)

/-- The part of `tileReady` that changes a tile. -/
def tileReady (s : TileManager K P I) (key : K) : TileManager K P I :=
  match s.tile key with
  | none => s
  | some t => s.setTile key { t with rawDeltas := t.rawDeltas.drop (lastKeyframe t.rawDeltas) }

def showBitmap (c : Collect K) (s : TileManager K P I) (x : K × I) : TileManager K P I :=
  let s := s.setBitmapOnTile c x.1 x.2
  match s.tile x.1 with
  | none => s
  | some t => if t.isReady then s.tileReady x.1 else s

def callTransactionCallbacks (s : TileManager K P I) : TileManager K P I :=
  { s with transactionCallbacks := [], called := s.called ++ s.transactionCallbacks.reverse }

def endTransactionHandleBitmaps (s : TileManager K P I) (c : Collect K) (bitmaps : List (K × I)) :
    TileManager K P I :=
  let s := bitmaps.foldl (showBitmap c) s
  let s := if s.visibleTilesReady then { s with pausedForCoherency := false } else s
  let s := if s.nPendingWorkerTasks = 0 then s.callTransactionCallbacks else s
  s.garbageCollect c

/-! ### Answers of the workers -/

/-- One round of the loop of `onWorkerEndTransaction`, with the bitmap it yields. -/
def workerDelta (d : TileDecoder K P I) (s : TileManager K P I) (x : PendingDelta K P I) :
    TileManager K P I × Option I :=
  match s.tile x.key with
  | none => (s, none)
  | some t =>
    let known := t.rawDeltas.any (·.id == x.ids.1) && t.rawDeltas.any (·.id == x.ids.2)
    let s := s.setTile x.key { t with decompressedId := x.ids.2 }
    if x.wireMessage && !x.isKeyframe && !known then (s, none)
    else if !x.isKeyframe && t.decompressedId == 0 then (s, none)
    else
      match x.bitmap with
      | some bitmap =>
        ({ s with tileImageCache := Function.update s.tileImageCache (.key x.key) (some none) }, some bitmap)
      | none =>
        -- not decompressed by a worker
        let image := if x.isKeyframe then d.keyframe x.rawDelta
          else ((s.tileImageCache (.string x.key)).bind id).map fun image => d.updates image x.rawDelta
        match image with
        | none => (s, none)
        | some image =>
          ({ s with tileImageCache := Function.update s.tileImageCache (.string x.key) (some (some image)) },
          some image)

def workerDeltas (d : TileDecoder K P I) :
    TileManager K P I → List (PendingDelta K P I) → TileManager K P I × List (K × I)
  | s, [] => (s, [])
  | s, x :: xs =>
    let (s, bitmap) := workerDelta d s x
    let (s, bitmaps) := workerDeltas d s xs
    (s, (bitmap.map (x.key, ·)).toList ++ bitmaps)

/-- The answer of a worker. -/
def onWorkerEndTransaction (d : TileDecoder K P I) (s : TileManager K P I) (c : Collect K)
    (deltas : List (PendingDelta K P I)) : TileManager K P I :=
  let s := { s with nPendingWorkerTasks := s.nPendingWorkerTasks - 1 }
  let (s, bitmaps) := workerDeltas d s deltas
  if bitmaps = [] then s else s.endTransactionHandleBitmaps c bitmaps

/-- The same without workers: the bitmaps are promised. -/
def onEndTransaction (d : TileDecoder K P I) (s : TileManager K P I) (deltas : List (PendingDelta K P I)) :
    TileManager K P I :=
  let s := { s with nPendingWorkerTasks := s.nPendingWorkerTasks - 1 }
  let (s, bitmaps) := workerDeltas d s deltas
  if bitmaps = [] then s else { s with bitmapPromises := s.bitmapPromises ++ [bitmaps] }

/-! ### Workers -/

/-- What a worker makes of a delta with the images it has. -/
def decompress (d : TileDecoder K P I) (images : K → Option I) (x : PendingDelta K P I) : Option I :=
  if x.isKeyframe then d.keyframe x.rawDelta else (images x.key).map fun image => d.updates image x.rawDelta

/-- A worker's loop over the tiles; a delta without its image throws. -/
def work (d : TileDecoder K P I) : (K → Option I) → List (PendingDelta K P I) →
    Option ((K → Option I) × List (PendingDelta K P I))
  | images, [] => some (images, [])
  | images, x :: xs => do
    let image ← decompress d images x
    let (images, ys) ← work d (Function.update images x.key (some image)) xs
    some (images, { x with bitmap := some image } :: ys)

/-- The worker first forgets the images that the cache of the message does not have. -/
def postMessage (d : TileDecoder K P I) (s : TileManager K P I) (worker : Nat) (deltas : List (PendingDelta K P I)) :
    TileManager K P I :=
  let images := fun key => if (s.tileImageCache (.key key)).isSome then s.workerImages worker key else none
  let result := work d images deltas
  { s with
    nPendingWorkerTasks := s.nPendingWorkerTasks + 1
    posted := s.posted ++ [⟨worker, deltas, result.map Prod.snd⟩]
    workerImages := Function.update s.workerImages worker ((result.map Prod.fst).getD fun _ => none) }

def bucketOf (d : TileDecoder K P I) (s : TileManager K P I) (worker : Nat) : List (PendingDelta K P I) :=
  s.pendingDeltas.filter fun (x : PendingDelta K P I) => d.bucket x.key % s.workers == worker

def decompressPendingDeltas (d : TileDecoder K P I) (s : TileManager K P I) : TileManager K P I :=
  let s' :=
    if s.workers ≠ 0 then
      (List.range s.workers).foldl
        (fun (t : TileManager K P I) worker =>
          if s.bucketOf d worker = [] then t else t.postMessage d worker (s.bucketOf d worker)) s
    else onEndTransaction d { s with nPendingWorkerTasks := s.nPendingWorkerTasks + 1 } s.pendingDeltas
  { s' with pendingDeltas := [] }

/-! ### Transactions -/

def beginTransaction (s : TileManager K P I) : TileManager K P I := { s with inTransaction := s.inTransaction + 1 }

def endTransaction (d : TileDecoder K P I) (s : TileManager K P I) (callback : Option Nat) : TileManager K P I :=
  let s := { s with passed := s.passed ++ callback.toList }
  if s.inTransaction = 0 then s
  else
    let s := { s with inTransaction := s.inTransaction - 1
                      transactionCallbacks := s.transactionCallbacks ++ callback.toList }
    if s.inTransaction ≠ 0 then s
    else if s.pendingDeltas = [] then
      -- nothing to decompress: the callback that was given is called, and only that one
      match callback with
      | none => s
      | some callback =>
        { s with transactionCallbacks := s.transactionCallbacks.dropLast, called := s.called ++ [callback] }
    else s.decompressPendingDeltas d

/-- How many tasks a decompression posts, or how many deltas it works through without workers. -/
def decompressions (d : TileDecoder K P I) (s : TileManager K P I) : Nat :=
  if s.workers ≠ 0 then (List.range s.workers).countP fun worker => !(s.bucketOf d worker).isEmpty
  else s.pendingDeltas.length

/-- The decompression throws after `n` tasks or deltas.  Workers are terminated then, with all that was posted to
them. -/
def decompressPendingDeltasThrows (d : TileDecoder K P I) (s : TileManager K P I) (n : Nat) : TileManager K P I :=
  if s.workers ≠ 0 then
    { s with workers := 0, posted := [], pendingDeltas := [], nPendingWorkerTasks := s.nPendingWorkerTasks + (n + 1) }
  else if s.keysReplaced then
    -- a string has no `key()`
    { s with nPendingWorkerTasks := s.nPendingWorkerTasks + 1 }
  else
    let s := { (workerDeltas d s (s.pendingDeltas.take n)).1 with keysReplaced := true }
    match s.pendingDeltas[n]? with
    | none => s
    | some x =>
      -- the tile is marked before its delta is decompressed
      match s.tile x.key with
      | none => s
      | some t => s.setTile x.key { t with decompressedId := x.ids.2 }

/-- The branch of `endTransaction` that catches an error: the callback is called, and stays in the list. -/
def endTransactionThrows (d : TileDecoder K P I) (s : TileManager K P I) (callback : Option Nat) (n : Nat) :
    TileManager K P I :=
  let s := { s with passed := s.passed ++ callback.toList
                    transactionCallbacks := s.transactionCallbacks ++ callback.toList }
  let s := s.decompressPendingDeltasThrows d n
  { s with inTransaction := 0, called := s.called ++ callback.toList }

def createTile (s : TileManager K P I) (key : K) (distance : Nat) : TileManager K P I :=
  if (s.tile key).isSome then s else s.setTile key { distanceFromView := distance }

def applyCompressedDelta (s : TileManager K P I) (key : K) (t : BrowserTile P I) (rawDeltas : List (RawDelta P))
    (isKeyframe wireMessage : Bool) (ids : Nat × Nat) : TileManager K P I :=
  { s.setTile key { t with lastPendingId := ids.2 } with
    pendingDeltas := s.pendingDeltas ++ [⟨key, rawDeltas.map (·.delta), isKeyframe, wireMessage, ids, none⟩] }

/-- The index of the first raw delta that a rehydration sends. -/
def firstDelta (t : BrowserTile P I) : Nat :=
  let first := lastKeyframe t.rawDeltas
  if t.rawDeltas[first]?.any fun keyframe => keyframe.id < t.lastPendingId then
    match t.rawDeltas.findIdx? (·.id == t.lastPendingId) with
    | none => first
    | some continued => continued + 1
  else first

def rehydrateTile (s : TileManager K P I) (key : K) (wireMessage : Bool) : TileManager K P I :=
  match s.tile key with
  | none => s
  | some t =>
    if t.needsRehydration then
      let s := if t.distanceFromView = 0 then { s with pausedForCoherency := true } else s
      match t.rawDeltas.drop (firstDelta t), t.rawDeltas.getLast? with
      | first :: rest, some last =>
        s.applyCompressedDelta key t (first :: rest) first.isKeyframe wireMessage (first.id, last.id)
      | _, _ => s
    else s

def makeTileCurrent (s : TileManager K P I) (key : K) : TileManager K P I :=
  match s.tile key with
  | none => s
  | some t => (s.setTile key { t with distanceFromView := 0 }).rehydrateTile key false

/-- The raw delta of a tile message is stored; a delta without a keyframe is not. -/
def storeRawDelta (t : BrowserTile P I) (img : Option (TileImage P)) : BrowserTile P I :=
  match img with
  | none => t
  | some img =>
    if img.isEmpty || (!img.isKeyframe && !t.hasKeyframe) then t
    else
      let rawDelta : RawDelta P := ⟨img.rawData, t.deltaId + 1, img.isKeyframe⟩
      { t with deltaId := t.deltaId + 1, rawDeltas := t.rawDeltas ++ [rawDelta], stored := t.stored ++ [rawDelta] }

/-- `distance` is that of a tile which is new. -/
def onTileMsg (s : TileManager K P I) (key : K) (distance : Nat) (img : Option (TileImage P)) : TileManager K P I :=
  let s := s.createTile key distance
  match s.tile key with
  | none => s
  | some t =>
    let s := s.setTile key (storeRawDelta t img)
    if t.distanceFromView = 0 then s.rehydrateTile key true else s

def updateAllTileDistances (s : TileManager K P I) (distance : K → Nat) : TileManager K P I :=
  { s with tiles := s.tiles.map (fun p => (p.1, { p.2 with distanceFromView := distance p.1 })) fun _ => rfl }

/-- The workers are gone, and every tile is removed. -/
def onWorkerError (s : TileManager K P I) : TileManager K P I :=
  let s := { s with workers := 0, posted := [], pendingDeltas := [], nPendingWorkerTasks := 0 }
  let s := s.callTransactionCallbacks
  (s.tiles.entries.map Prod.fst).foldl removeTile s

end TileManager

end CollaboraOnline
