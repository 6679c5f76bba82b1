import CollaboraOnline.Lib.Run
import CollaboraOnline.Wsd.TileCache

/-!
# Tile requests and replies

The part of `DocumentBroker` between the sessions and the kit: requests of sessions are answered from the tile cache
or sent to the kit as renders, and replies of the kit are stored and handed to the sessions that wait for them.  The
document is loaded, so that there is a tile cache.  `log` records what the broker did, in order, and is read by no
function of the source.
-/

namespace CollaboraOnline

/-- What the broker did. -/
inductive TileLog where
  /-- a `tile` or `tilecombine` request was sent to the kit -/
  | rendering (tiles : List TileDesc)
  /-- `sendTileNow` sent a `tile:` (or else a `delta:`) message -/
  | sent (session : Nat) (isTile : Bool) (desc : TileDesc) (payload : List UInt8)
  /-- a session subscribed for a version of a tile and found this render in flight -/
  | subscribed (session : Nat) (tile : TileDesc) (found : Option TileBeingRendered)
  /-- a reply of the kit was saved to the cache -/
  | stored (desc : TileDesc) (data : List UInt8)
  /-- a reply of the kit was discarded while this render was in flight -/
  | discarded (desc : TileDesc) (found : Option TileBeingRendered)
deriving DecidableEq, Repr

structure ClientSession where
  id : Nat
  canonicalViewId : Int
  tracker : ClientDeltaTracker
  requestedTiles : List TileDesc
  closeFrame : Bool
deriving DecidableEq

structure TileBroker where
  tileCache : TileCache
  tileVersion : Nat
  sessions : Table ClientSession.id
  nextSession : Nat
  log : List TileLog
deriving DecidableEq

namespace TileBroker

def initial (dontCache : Bool) : TileBroker := ⟨TileCache.new dontCache, 0, Table.empty, 0, []⟩

def note (b : TileBroker) (entry : TileLog) : TileBroker := { b with log := b.log ++ [entry] }

/-! ### Sessions -/

def resetTileSeq (b : TileBroker) (sid : Nat) (desc : TileDesc) : TileBroker :=
  match b.sessions.find sid with
  | none => b
  | some session =>
    { b with sessions := b.sessions.put { session with tracker := session.tracker.resetTileSeq desc } }

/-- `ClientSession::sendTileNow`; after the close frame nothing is sent any more. -/
def sendTileNow (b : TileBroker) (sid : Nat) (desc : TileDesc) (tile : TileData) : TileBroker :=
  match b.sessions.find sid with
  | none => b
  | some session =>
    let (lastSentId, tracker) := session.tracker.updateTileSeq desc
    let isTile := tile.needsKeyframe lastSentId || tile.isPng
    let output := (tile.appendChangesSince (if tile.isPng then 0 else lastSentId)).getD []
    let b := { b with sessions := b.sessions.put { session with tracker := tracker } }
    if session.closeFrame then b else b.note (.sent sid isTile desc output)

def setRequestedTiles (b : TileBroker) (sid : Nat) (tiles : List TileDesc) : TileBroker :=
  match b.sessions.find sid with
  | none => b
  | some session => { b with sessions := b.sessions.put { session with requestedTiles := tiles } }

def requestedTiles (b : TileBroker) (sid : Nat) : List TileDesc :=
  match b.sessions.find sid with
  | none => []
  | some session => session.requestedTiles

def canonicalViewId (b : TileBroker) (sid : Nat) : Int :=
  match b.sessions.find sid with
  | none => -1
  | some session => session.canonicalViewId

/-! ### Requests -/

def subscribe (b : TileBroker) (tile : TileDesc) (sid now : Nat) : TileBroker :=
  { b with tileCache := (b.tileCache.subscribeToTileRendering tile sid now).1 }.note
    (.subscribed sid tile (b.tileCache.findTileBeingRendered tile))

def bumpVersion (b : TileBroker) : TileBroker := { b with tileVersion := b.tileVersion + 1 }

/-- `handleTileRequest`.  The request for the kit is the tile as it is serialised before a keyframe is forced. -/
def handleTileRequest (b : TileBroker) (tile : TileDesc) (forceKeyframe : Bool) (sid now : Nat) : TileBroker :=
  let tile := tile.setCanonicalViewId (b.canonicalViewId sid)
  let b := b.bumpVersion
  let tile := tile.setVersion b.tileVersion
  let tileMsg := tile
  let b := if forceKeyframe then b.resetTileSeq sid tile else b
  match b.tileCache.lookupTile tile with
  | some cachedTile =>
    if cachedTile.isValid then
      let tile := if tile.wireId = 0 then tile.setWireId cachedTile.lastWid else tile
      b.sendTileNow sid tile cachedTile
    else
      let tile := if cachedTile.tooLarge then tile.forceKeyframe else tile
      (b.subscribe tile sid now).note (.rendering [tileMsg])
  | none => (b.subscribe tile.forceKeyframe sid now).note (.rendering [tileMsg])

/-- What `requestTileRendering` changes: the broker, the tile, the tiles that need rendering. -/
structure RenderRequest where
  broker : TileBroker
  tile : TileDesc
  tilesNeedsRendering : List TileDesc
  allSamePartAndSize : Bool

/-- Whether `requestTileRendering` asks the kit: no render is in progress, or we need a newer version. -/
def needsRendering (b : TileBroker) (tile : TileDesc) (now : Nat) : Bool :=
  !b.tileCache.hasTileBeingRendered tile now || b.tileCache.getTileBeingRenderedVersion tile < tile.ver

def requestTileRendering (b : TileBroker) (tile : TileDesc) (forceKeyframe : Bool) (version : Nat) (now : Nat)
    (tilesNeedsRendering : List TileDesc) (sid : Nat) : RenderRequest :=
  if b.needsRendering tile now then
    let tile := tile.setVersion version
    let tile := if forceKeyframe then tile.forceKeyframe else tile
    let same := tilesNeedsRendering.getLast?.all fun last => tile.sameTileCombineParams last
    ⟨b.subscribe tile sid now, tile, tilesNeedsRendering ++ [tile], same⟩
  else ⟨b.subscribe tile sid now, tile, tilesNeedsRendering, true⟩

/-- `sendTileCombine` -/
def sendTileCombine (b : TileBroker) (tiles : List TileDesc) : TileBroker := b.note (.rendering tiles)

/-- What the loop over the tiles of a combined request carries. -/
structure CombineLoop where
  broker : TileBroker
  tiles : List TileDesc
  tilesNeedsRendering : List TileDesc

/-- The loop body of `handleTileCombinedRequest`. -/
def combineTile (canForceKeyframe : Bool) (sid now : Nat) (s : CombineLoop) (tile : TileDesc) : CombineLoop :=
  let tile := tile.setVersion s.broker.tileVersion
  let forced := canForceKeyframe && tile.isForcedKeyFrame
  let b := if forced then s.broker.resetTileSeq sid tile else s.broker
  -- don't force a keyframe to be rendered, only to be sent
  let tile := if forced then tile.setOldWireId 1 else tile
  let cachedTile := b.tileCache.lookupTile tile
  let tooLarge := cachedTile.any TileData.tooLarge
  if cachedTile.all (fun cached => !cached.isValid) || tooLarge then
    let forceKeyFrame := cachedTile.isNone || tooLarge
    let tile := if forceKeyFrame then tile.forceKeyframe else tile
    let r := b.requestTileRendering tile forceKeyFrame b.tileVersion now s.tilesNeedsRendering sid
    ⟨r.broker, s.tiles ++ [r.tile], r.tilesNeedsRendering⟩
  else ⟨b, s.tiles ++ [tile], s.tilesNeedsRendering⟩

/-- The first old tile at the place of `newTile` takes over its version and wire ids. -/
def replaceRequested (newTile : TileDesc) : List TileDesc → Option (List TileDesc)
  | [] => none
  | oldTile :: rest =>
    if oldTile.tilePosX == newTile.tilePosX && oldTile.tilePosY == newTile.tilePosY &&
        oldTile.sameTileCombineParams newTile then
      some ({ oldTile with ver := newTile.ver, oldWireId := newTile.oldWireId, wireId := newTile.wireId } :: rest)
    else (replaceRequested newTile rest).map (oldTile :: ·)

/-- The accumulation of the tiles of a combined request in the requested tiles of the session. -/
def accumulateTiles (canonicalViewId : Int) (requested tiles : List TileDesc) : List TileDesc :=
  if requested.isEmpty then tiles
  else
    let requested := requested.map fun t => t.setCanonicalViewId canonicalViewId
    tiles.foldl (fun requested newTile => (replaceRequested newTile requested).getD (requested ++ [newTile]))
      requested

/-- What the loop of `sendRequestedTiles` carries. -/
structure SendLoop where
  broker : TileBroker
  tilesNeedsRendering : List TileDesc
  bumpedVersion : Bool
  allSamePartAndSize : Bool

/-- A tile of `sendRequestedTiles` that is not cached or not valid. -/
def requestTile (sid now : Nat) (s : SendLoop) (tile : TileDesc) (forceKeyFrame : Bool) : SendLoop :=
  let b := if s.bumpedVersion then s.broker else s.broker.bumpVersion
  let r := b.requestTileRendering tile forceKeyFrame b.tileVersion now s.tilesNeedsRendering sid
  ⟨r.broker, r.tilesNeedsRendering, true, s.allSamePartAndSize && r.allSamePartAndSize⟩

/-- A tile of `sendRequestedTiles` that is cached.  A request without a wire id gets that of the tile. -/
def sendCached (sid : Nat) (s : SendLoop) (tile : TileDesc) (cachedTile : TileData) : SendLoop :=
  let tile := if tile.wireId = 0 then tile.setWireId cachedTile.lastWid else tile
  { s with broker := s.broker.sendTileNow sid tile cachedTile }

/-- The loop of `sendRequestedTiles`, with the tiles it leaves; `room` is how many more tiles may be on the fly. -/
def sendLoop (sid now : Nat) : Nat → SendLoop → List TileDesc → SendLoop × List TileDesc
  | _, s, [] => (s, [])
  | 0, s, tile :: rest => (s, tile :: rest)
  | room + 1, s, tile :: rest =>
    match s.broker.tileCache.lookupTile tile with
    | some cachedTile =>
      if cachedTile.isValid then sendLoop sid now room (sendCached sid s tile cachedTile) rest
      else sendLoop sid now (room + 1) (requestTile sid now s tile false) rest
    | none => sendLoop sid now (room + 1) (requestTile sid now s tile true) rest

/-- Put a tile into the first group it matches, or into a new one. -/
def insertGroup (tile : TileDesc) : List (List TileDesc) → List (List TileDesc)
  | [] => [[tile]]
  | group :: groups =>
    if group.head?.all fun first => tile.sameTileCombineParams first then (group ++ [tile]) :: groups
    else group :: insertGroup tile groups

def groupTiles (tiles : List TileDesc) : List (List TileDesc) :=
  tiles.foldl (fun groups tile => insertGroup tile groups) []

def sendRequestedTiles (b : TileBroker) (sid now room : Nat) : TileBroker :=
  let (s, rest) := sendLoop sid now room ⟨b, [], false, true⟩ (b.requestedTiles sid)
  let b := s.broker.setRequestedTiles sid rest
  if s.tilesNeedsRendering.isEmpty then b
  else if s.allSamePartAndSize then b.sendTileCombine s.tilesNeedsRendering
  else (groupTiles s.tilesNeedsRendering).foldl sendTileCombine b

def handleTileCombinedRequest (b : TileBroker) (tiles : List TileDesc) (canForceKeyframe : Bool)
    (sid now room : Nat) : TileBroker :=
  let s := tiles.foldl (combineTile canForceKeyframe sid now) ⟨b.bumpVersion, [], []⟩
  let b := if s.tilesNeedsRendering.isEmpty then s.broker else s.broker.sendTileCombine s.tilesNeedsRendering
  let b := b.setRequestedTiles sid (accumulateTiles (b.canonicalViewId sid) (b.requestedTiles sid) s.tiles)
  b.sendRequestedTiles sid now room

/-- The tiles that `handleTileInvalidation` asks for: a keyframe where there is nothing in the cache. -/
def invalidTiles (b : TileBroker) (tiles : List TileDesc) : List TileDesc :=
  tiles.map fun tile => (tile.setOldWireId (if (b.tileCache.lookupTile tile).isNone then 0 else 1)).setWireId 0

/-! ### Replies -/

/-- `saveTileAndNotify` -/
def saveTileAndNotify (b : TileBroker) (desc : TileDesc) (data : List UInt8) : TileBroker :=
  let tileBeingRendered := b.tileCache.findTileBeingRendered desc
  let (tileCache, tile) := b.tileCache.saveDataToCache desc data
  let b := { b with tileCache := tileCache }
  let b := b.note (if tile.isSome then .stored desc data else .discarded desc tileBeingRendered)
  match tileBeingRendered with
  | none => b
  | some t =>
    let b := match tile with
      | none => b
      | some tile => t.subscribers.foldl (fun b sid => b.sendTileNow sid desc tile) b
    { b with tileCache := b.tileCache.forgetTileBeingRendered desc t }

/-! ### Steps -/

/-- What can happen to the broker.  `now` is the time, `room` how many tiles may be put on the fly. -/
inductive Event where
  | joins (canonicalViewId : Int)
  | leaves (sid : Nat)
  | closes (sid : Nat)
  | setCanonicalViewId (sid : Nat) (canonicalViewId : Int)
  | tile (sid : Nat) (tile : TileDesc) (now : Nat)
  | tilecombine (sid : Nat) (tiles : List TileDesc) (now room : Nat)
  | invalidation (sid : Nat) (tiles : List TileDesc) (now room : Nat)
  | tileprocessed (sid now room : Nat)
  | reply (desc : TileDesc) (data : List UInt8)
  | invalidatetiles (intersects : TileDesc → Bool)
  | setMaxCacheSize (cacheSize : Int)

/-- `TileCombined::hasDuplicates`, for tiles that share the parameters of one combined request. -/
def hasDuplicates : List TileDesc → Bool
  | [] => false
  | a :: rest => rest.any (fun b => a.tilePosX == b.tilePosX && a.tilePosY == b.tilePosY) || hasDuplicates rest

/-- Tiles of one `TileCombined`. -/
def combinable (tiles : List TileDesc) : Bool :=
  tiles.all (fun a => tiles.all fun b => a.sameTileCombineParams b) && !hasDuplicates tiles

/-- The kit was asked for this version of the tile. -/
def wasRequested (b : TileBroker) (desc : TileDesc) : Bool :=
  b.log.any fun
    | .rendering tiles => tiles.any fun t => t.key == desc.key && t.ver == desc.ver
    | _ => false

def updateSession (b : TileBroker) (sid : Nat) (f : ClientSession → ClientSession) : Option TileBroker :=
  (b.sessions.find sid).map fun session => { b with sessions := b.sessions.put (f session) }

def step (b : TileBroker) : Event → Option TileBroker
  | .joins canonicalViewId =>
    some { b with sessions := b.sessions.put ⟨b.nextSession, canonicalViewId, Table.empty, [], false⟩,
                  nextSession := b.nextSession + 1 }
  | .leaves sid => some { b with sessions := b.sessions.erase sid }
  | .closes sid => b.updateSession sid fun session => { session with closeFrame := true }
  | .setCanonicalViewId sid canonicalViewId =>
    b.updateSession sid fun session => { session with canonicalViewId := canonicalViewId }
  | .tile sid tile now => if (b.sessions.find sid).isSome then some (b.handleTileRequest tile true sid now) else none
  | .tilecombine sid tiles now room =>
    let tiles := tiles.map fun t => t.setCanonicalViewId (b.canonicalViewId sid)
    if (b.sessions.find sid).isSome && combinable tiles then
      some (b.handleTileCombinedRequest tiles true sid now room)
    else none
  | .invalidation sid tiles now room =>
    let tiles := b.invalidTiles (tiles.map fun t => t.setCanonicalViewId (b.canonicalViewId sid))
    if (b.sessions.find sid).isSome && combinable tiles then
      some (b.handleTileCombinedRequest tiles false sid now room)
    else none
  | .tileprocessed sid now room =>
    if (b.sessions.find sid).isSome then some (b.sendRequestedTiles sid now room) else none
  | .reply desc data => if b.wasRequested desc then some (b.saveTileAndNotify desc data) else none
  | .invalidatetiles intersects => some { b with tileCache := b.tileCache.invalidateTiles intersects }
  | .setMaxCacheSize cacheSize => some { b with tileCache := b.tileCache.setMaxCacheSize cacheSize }

end TileBroker

end CollaboraOnline
