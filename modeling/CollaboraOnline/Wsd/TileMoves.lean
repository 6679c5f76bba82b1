import Mathlib.Logic.Relation
import CollaboraOnline.Wsd.TileBroker

/-!
# The moves of a tile request

Every handler of a tile request is a sequence of small moves: a tile is sent from the cache, the tracker of a session
is reset, a session subscribes to a render, the kit is asked for tiles, the requested tiles of a session change, the
tile version is raised.  `requestWid` is what is known of the wire ids that requests carry.
-/

namespace CollaboraOnline

namespace TileBroker

inductive TileMove (requestWid : Nat → Prop) : TileBroker → TileBroker → Prop
  | send {b : TileBroker} {desc : TileDesc} {tile : TileData} (sid : Nat) : b.tileCache.lookupTile desc = some tile →
      desc.wireId = tile.lastWid ∨ requestWid desc.wireId ∧ desc.wireId ≠ 0 →
      TileMove requestWid b (b.sendTileNow sid desc tile)
  | reset {b : TileBroker} (sid : Nat) (desc : TileDesc) : TileMove requestWid b (b.resetTileSeq sid desc)
  | subscribe {b : TileBroker} (tile : TileDesc) (sid now : Nat) : TileMove requestWid b (b.subscribe tile sid now)
  | render {b : TileBroker} (tiles : List TileDesc) : TileMove requestWid b (b.note (.rendering tiles))
  | setRequested {b : TileBroker} {tiles : List TileDesc} (sid : Nat) : (∀ t ∈ tiles, requestWid t.wireId) →
      TileMove requestWid b (b.setRequestedTiles sid tiles)
  | bump {b : TileBroker} : TileMove requestWid b b.bumpVersion

abbrev TileMoves (requestWid : Nat → Prop) : TileBroker → TileBroker → Prop :=
  Relation.ReflTransGen (TileMove requestWid)

variable {requestWid : Nat → Prop} {b b' : TileBroker}

/-- The requested tiles that sessions keep carry wire ids of requests. -/
def RequestsOk (requestWid : Nat → Prop) (b : TileBroker) : Prop :=
  ∀ sid, ∀ t ∈ b.requestedTiles sid, requestWid t.wireId

/-! ### What moves leave alone -/

theorem requestedTiles_congr {sid : Nat}
    (h : (b'.sessions.find sid).map ClientSession.requestedTiles =
      (b.sessions.find sid).map ClientSession.requestedTiles) : b'.requestedTiles sid = b.requestedTiles sid := by
  unfold requestedTiles
  cases hb : b.sessions.find sid <;> cases hb' : b'.sessions.find sid <;> simp_all

/-- Putting a session back with another tracker keeps the requested tiles of all sessions. -/
theorem requestedTiles_put {session : ClientSession} {sid : Nat} (hs : b.sessions.find sid = some session)
    (tracker : ClientDeltaTracker) (sid' : Nat) :
    ({ b with sessions := b.sessions.put { session with tracker := tracker } } : TileBroker).requestedTiles sid' =
      b.requestedTiles sid' := by
  apply requestedTiles_congr
  simp only [Table.find_put]
  split
  · rename_i h
    have hid : session.id = sid := Table.key_of_find hs
    rw [h, hid, hs]
    rfl
  · rfl

@[simp] theorem requestedTiles_resetTileSeq (sid sid' : Nat) (desc : TileDesc) :
    (b.resetTileSeq sid desc).requestedTiles sid' = b.requestedTiles sid' := by
  unfold resetTileSeq
  split
  · rfl
  · rename_i session hs
    exact requestedTiles_put hs _ sid'

@[simp] theorem requestedTiles_sendTileNow (sid sid' : Nat) (desc : TileDesc) (tile : TileData) :
    (b.sendTileNow sid desc tile).requestedTiles sid' = b.requestedTiles sid' := by
  unfold sendTileNow
  split
  · rfl
  · rename_i session hs
    dsimp only
    split <;> exact requestedTiles_put hs _ sid'

theorem mem_requestedTiles_setRequestedTiles {sid sid' : Nat} {tiles : List TileDesc} {t : TileDesc}
    (h : t ∈ (b.setRequestedTiles sid tiles).requestedTiles sid') : t ∈ tiles ∨ t ∈ b.requestedTiles sid' := by
  unfold setRequestedTiles at h
  split at h
  · exact .inr h
  · unfold requestedTiles at h ⊢
    dsimp only at h
    rw [Table.find_put] at h
    by_cases hid : sid' = ClientSession.id { (‹ClientSession› : ClientSession) with requestedTiles := tiles }
    · rw [if_pos hid] at h
      exact .inl h
    · rw [if_neg hid] at h
      exact .inr h

@[simp] theorem tileCache_resetTileSeq (sid : Nat) (desc : TileDesc) :
    (b.resetTileSeq sid desc).tileCache = b.tileCache := by
  unfold resetTileSeq
  split <;> rfl

@[simp] theorem log_resetTileSeq (sid : Nat) (desc : TileDesc) : (b.resetTileSeq sid desc).log = b.log := by
  unfold resetTileSeq
  split <;> rfl

@[simp] theorem tileCache_setRequestedTiles (sid : Nat) (tiles : List TileDesc) :
    (b.setRequestedTiles sid tiles).tileCache = b.tileCache := by
  unfold setRequestedTiles
  split <;> rfl

@[simp] theorem log_setRequestedTiles (sid : Nat) (tiles : List TileDesc) :
    (b.setRequestedTiles sid tiles).log = b.log := by
  unfold setRequestedTiles
  split <;> rfl

@[simp] theorem tileCache_sendTileNow (sid : Nat) (desc : TileDesc) (tile : TileData) :
    (b.sendTileNow sid desc tile).tileCache = b.tileCache := by
  unfold sendTileNow
  split
  · rfl
  · dsimp only
    split <;> rfl

theorem log_sendTileNow (sid : Nat) (desc : TileDesc) (tile : TileData) :
    ∃ new, (b.sendTileNow sid desc tile).log = b.log ++ new ∧
      ∀ entry ∈ new, ∃ isTile payload, entry = .sent sid isTile desc payload := by
  unfold sendTileNow
  split
  · exact ⟨[], by simp, by simp⟩
  · dsimp only
    split
    · exact ⟨[], by simp, by simp⟩
    · exact ⟨_, rfl, fun entry he => ⟨_, _, List.mem_singleton.1 he⟩⟩

theorem RequestsOk.move (h : RequestsOk requestWid b) (hm : TileMove requestWid b b') : RequestsOk requestWid b' := by
  intro sid' t ht
  cases hm with
  | send sid _ _ => exact h sid' t (by simpa using ht)
  | reset sid desc => exact h sid' t (by simpa using ht)
  | subscribe tile sid now => exact h sid' t ht
  | render tiles => exact h sid' t ht
  | setRequested sid htiles =>
    rcases mem_requestedTiles_setRequestedTiles ht with ht | ht
    · exact htiles t ht
    · exact h sid' t ht
  | bump => exact h sid' t ht

theorem RequestsOk.moves (h : RequestsOk requestWid b) (hm : TileMoves requestWid b b') :
    RequestsOk requestWid b' := by
  induction hm with
  | refl => exact h
  | tail _ hm ih => exact ih.move hm

/-! ### The handlers -/

@[simp] theorem lookupTile_setWireId (c : TileCache) (desc : TileDesc) (wid : Nat) :
    c.lookupTile (desc.setWireId wid) = c.lookupTile desc := rfl

@[simp] theorem lookupTile_setVersion (c : TileCache) (desc : TileDesc) (ver : Int) :
    c.lookupTile (desc.setVersion ver) = c.lookupTile desc := rfl

/-- A tile is sent from the cache under the wire id of its request, or else under the last one of the tile. -/
theorem sendCachedTile_moves {tile : TileDesc} {cachedTile : TileData}
    (hc : b.tileCache.lookupTile tile = some cachedTile) (hw : requestWid tile.wireId) (sid : Nat) :
    TileMoves requestWid b
      (b.sendTileNow sid (if tile.wireId = 0 then tile.setWireId cachedTile.lastWid else tile) cachedTile) := by
  apply Relation.ReflTransGen.single
  split
  · exact .send sid hc (.inl rfl)
  · rename_i h
    exact .send sid hc (.inr ⟨hw, h⟩)

theorem resetTileSeq_moves (force : Bool) (sid : Nat) (desc : TileDesc) :
    TileMoves requestWid b (if force then b.resetTileSeq sid desc else b) := by
  split
  · exact .single (.reset sid desc)
  · exact .refl

theorem handleTileRequest_moves {tile : TileDesc} (hw : requestWid tile.wireId) (forceKeyframe : Bool)
    (sid now : Nat) : TileMoves requestWid b (b.handleTileRequest tile forceKeyframe sid now) := by
  unfold handleTileRequest
  extract_lets tile₁ b₁ tile₂ tileMsg b₂
  have hb₂ : TileMoves requestWid b b₂ := Relation.ReflTransGen.head .bump (resetTileSeq_moves _ _ _)
  have hrender (tile : TileDesc) : TileMoves requestWid b ((b₂.subscribe tile sid now).note (.rendering [tileMsg])) :=
    (hb₂.tail (.subscribe tile sid now)).tail (.render _)
  split
  · rename_i cachedTile hc
    split
    · exact hb₂.trans (sendCachedTile_moves hc hw sid)
    · exact hrender _
  · exact hrender _

theorem requestTileRendering_moves (tile : TileDesc) (forceKeyframe : Bool) (version now : Nat)
    (tiles : List TileDesc) (sid : Nat) :
    TileMoves requestWid b (b.requestTileRendering tile forceKeyframe version now tiles sid).broker := by
  unfold requestTileRendering
  split <;> exact .single (.subscribe _ _ _)

private theorem wireId_ite_forceKeyframe (force : Bool) (tile : TileDesc) :
    (if force then tile.forceKeyframe else tile).wireId = tile.wireId := by
  cases force <;> rfl

theorem requestTileRendering_wireId (tile : TileDesc) (forceKeyframe : Bool) (version now : Nat)
    (tiles : List TileDesc) (sid : Nat) :
    (b.requestTileRendering tile forceKeyframe version now tiles sid).tile.wireId = tile.wireId := by
  unfold requestTileRendering
  split
  · exact wireId_ite_forceKeyframe _ _
  · rfl

/-- What the loop over a combined request keeps: its tiles still carry wire ids of requests. -/
def CombineLoop.Ok (requestWid : Nat → Prop) (b : TileBroker) (s : CombineLoop) : Prop :=
  TileMoves requestWid b s.broker ∧ ∀ t ∈ s.tiles, requestWid t.wireId

theorem combineTile_ok {s : CombineLoop} (hs : s.Ok requestWid b) (canForceKeyframe : Bool) (sid now : Nat)
    {tile : TileDesc} (hw : requestWid tile.wireId) :
    (combineTile canForceKeyframe sid now s tile).Ok requestWid b := by
  unfold combineTile
  extract_lets tile₁ forced b₁ tile₂ cachedTile tooLarge
  have hb₁ : TileMoves requestWid b b₁ := hs.1.trans (resetTileSeq_moves forced sid tile₁)
  have hw₂ : requestWid tile₂.wireId := by
    unfold tile₂
    split <;> exact hw
  have happend {t : TileDesc} (ht : t.wireId = tile₂.wireId) : ∀ t' ∈ s.tiles ++ [t], requestWid t'.wireId := by
    intro t' ht'
    rcases List.mem_append.1 ht' with ht' | ht'
    · exact hs.2 t' ht'
    · rw [List.mem_singleton.1 ht', ht]
      exact hw₂
  split
  · refine ⟨hb₁.trans (requestTileRendering_moves _ _ _ _ _ _), happend ?_⟩
    rw [requestTileRendering_wireId]
    exact wireId_ite_forceKeyframe _ _
  · exact ⟨hb₁, happend rfl⟩

theorem foldl_combineTile_ok {tiles : List TileDesc} {s : CombineLoop} (hs : s.Ok requestWid b)
    (hw : ∀ t ∈ tiles, requestWid t.wireId) (canForceKeyframe : Bool) (sid now : Nat) :
    (tiles.foldl (combineTile canForceKeyframe sid now) s).Ok requestWid b := by
  induction tiles generalizing s with
  | nil => exact hs
  | cons tile tiles ih =>
    exact ih (combineTile_ok hs _ _ _ (hw tile List.mem_cons_self)) fun t ht => hw t (List.mem_cons_of_mem _ ht)

theorem replaceRequested_wireId {newTile t : TileDesc} {requested requested' : List TileDesc}
    (h : replaceRequested newTile requested = some requested') (ht : t ∈ requested') :
    t.wireId = newTile.wireId ∨ t ∈ requested := by
  induction requested generalizing requested' with
  | nil => simp [replaceRequested] at h
  | cons oldTile rest ih =>
    unfold replaceRequested at h
    split at h
    · obtain rfl := Option.some.inj h
      rcases List.mem_cons.1 ht with rfl | ht
      · exact .inl rfl
      · exact .inr (List.mem_cons_of_mem _ ht)
    · obtain ⟨rest', hrest, rfl⟩ := Option.map_eq_some_iff.1 h
      rcases List.mem_cons.1 ht with rfl | ht
      · exact .inr List.mem_cons_self
      · exact (ih hrest ht).imp id (List.mem_cons_of_mem _)

theorem accumulateTiles_wireId {canonicalViewId : Int} {requested tiles : List TileDesc}
    (hr : ∀ t ∈ requested, requestWid t.wireId) (ht : ∀ t ∈ tiles, requestWid t.wireId) :
    ∀ t ∈ accumulateTiles canonicalViewId requested tiles, requestWid t.wireId := by
  unfold accumulateTiles
  split
  · exact ht
  · dsimp only
    have hr' : ∀ t ∈ requested.map fun t => t.setCanonicalViewId canonicalViewId, requestWid t.wireId := by
      simpa [TileDesc.setCanonicalViewId] using hr
    generalize requested.map (fun t => t.setCanonicalViewId canonicalViewId) = acc at hr'
    induction tiles generalizing acc with
    | nil => exact hr'
    | cons newTile tiles ih =>
      refine ih (fun t h => ht t (List.mem_cons_of_mem _ h)) _ ?_
      intro t hmem
      dsimp only at hmem
      cases hrep : replaceRequested newTile acc with
      | none =>
        rw [hrep, Option.getD_none, List.mem_append, List.mem_singleton] at hmem
        rcases hmem with hmem | rfl
        · exact hr' t hmem
        · exact ht t List.mem_cons_self
      | some acc' =>
        rw [hrep, Option.getD_some] at hmem
        rcases replaceRequested_wireId hrep hmem with heq | hmem
        · rw [heq]
          exact ht newTile List.mem_cons_self
        · exact hr' t hmem

theorem sendLoop_moves {tiles : List TileDesc} {s : SendLoop} (hs : TileMoves requestWid b s.broker)
    (hw : ∀ t ∈ tiles, requestWid t.wireId) (sid now room : Nat) :
    TileMoves requestWid b (sendLoop sid now room s tiles).1.broker ∧
      ∀ t ∈ (sendLoop sid now room s tiles).2, requestWid t.wireId := by
  induction tiles generalizing s room with
  | nil => exact ⟨by simpa [sendLoop] using hs, by simp [sendLoop]⟩
  | cons tile rest ih =>
    have hrest : ∀ t ∈ rest, requestWid t.wireId := fun t ht => hw t (List.mem_cons_of_mem _ ht)
    have hrequest (forceKeyFrame : Bool) :
        TileMoves requestWid b (requestTile sid now s tile forceKeyFrame).broker := by
      unfold requestTile
      refine Relation.ReflTransGen.trans ?_ (requestTileRendering_moves _ _ _ _ _ _)
      split
      · exact hs
      · exact hs.tail .bump
    cases room with
    | zero => exact ⟨hs, hw⟩
    | succ room =>
      unfold sendLoop
      split
      · rename_i cachedTile hc
        split
        · exact ih (hs.trans (sendCachedTile_moves hc (hw tile List.mem_cons_self) sid)) hrest room
        · exact ih (hrequest false) hrest (room + 1)
      · exact ih (hrequest true) hrest (room + 1)

theorem foldl_sendTileCombine_moves (groups : List (List TileDesc)) :
    TileMoves requestWid b (groups.foldl sendTileCombine b) := by
  induction groups generalizing b with
  | nil => exact .refl
  | cons group groups ih => exact Relation.ReflTransGen.head (.render group) ih

theorem sendRequestedTiles_moves (hb : RequestsOk requestWid b) (sid now room : Nat) :
    TileMoves requestWid b (b.sendRequestedTiles sid now room) := by
  obtain ⟨hloop, hrest⟩ := sendLoop_moves (s := ⟨b, [], false, true⟩) .refl (hb sid) sid now room
  unfold sendRequestedTiles
  generalize sendLoop sid now room ⟨b, [], false, true⟩ (b.requestedTiles sid) = r at hloop hrest
  obtain ⟨s, rest⟩ := r
  have hset := hloop.tail (.setRequested sid hrest)
  dsimp only at hset ⊢
  split
  · exact hset
  · split
    · exact hset.tail (.render _)
    · exact hset.trans (foldl_sendTileCombine_moves _)

theorem handleTileCombinedRequest_moves (hb : RequestsOk requestWid b) {tiles : List TileDesc}
    (hw : ∀ t ∈ tiles, requestWid t.wireId) (canForceKeyframe : Bool) (sid now room : Nat) :
    TileMoves requestWid b (b.handleTileCombinedRequest tiles canForceKeyframe sid now room) := by
  unfold handleTileCombinedRequest
  extract_lets s b₁ b₂
  obtain ⟨hs, hwids⟩ : s.Ok requestWid b :=
    foldl_combineTile_ok ⟨.single .bump, by simp⟩ hw canForceKeyframe sid now
  have hb₁ : TileMoves requestWid b b₁ := by
    unfold b₁
    split
    · exact hs
    · exact hs.tail (.render _)
  have hb₂ : TileMoves requestWid b b₂ :=
    hb₁.tail (.setRequested sid (accumulateTiles_wireId (hb.moves hb₁ sid) hwids))
  exact hb₂.trans (sendRequestedTiles_moves (hb.moves hb₂) sid now room)

/-! ### The steps -/

/-- The requests of an event carry such wire ids. -/
def Event.RequestWid (requestWid : Nat → Prop) : Event → Prop
  | .tile _ t _ => requestWid t.wireId
  | .tilecombine _ tiles _ _ => ∀ t ∈ tiles, requestWid t.wireId
  | .invalidation .. => requestWid 0
  | _ => True

/-- What a step does: a reply of the kit, a change of the sessions or of the cache from outside, or moves. -/
inductive StepCases (requestWid : Nat → Prop) (b : TileBroker) : Event → TileBroker → Prop
  | joins (canonicalViewId : Int) : StepCases requestWid b (.joins canonicalViewId)
      { b with sessions := b.sessions.put ⟨b.nextSession, canonicalViewId, Table.empty, [], false⟩,
               nextSession := b.nextSession + 1 }
  | leaves (sid : Nat) : StepCases requestWid b (.leaves sid) { b with sessions := b.sessions.erase sid }
  | closes {sid : Nat} {session : ClientSession} : b.sessions.find sid = some session →
      StepCases requestWid b (.closes sid) { b with sessions := b.sessions.put { session with closeFrame := true } }
  | setCanonicalViewId {sid : Nat} {session : ClientSession} (canonicalViewId : Int) :
      b.sessions.find sid = some session → StepCases requestWid b (.setCanonicalViewId sid canonicalViewId)
        { b with sessions := b.sessions.put { session with canonicalViewId := canonicalViewId } }
  | moves {e : Event} {b' : TileBroker} : (∀ desc data, e ≠ .reply desc data) → TileMoves requestWid b b' →
      StepCases requestWid b e b'
  | reply {desc : TileDesc} {data : List UInt8} : b.wasRequested desc →
      StepCases requestWid b (.reply desc data) (b.saveTileAndNotify desc data)
  | invalidatetiles (intersects : TileDesc → Bool) : StepCases requestWid b (.invalidatetiles intersects)
      { b with tileCache := b.tileCache.invalidateTiles intersects }
  | setMaxCacheSize (cacheSize : Int) : StepCases requestWid b (.setMaxCacheSize cacheSize)
      { b with tileCache := b.tileCache.setMaxCacheSize cacheSize }

theorem step_cases {e : Event} (hb : RequestsOk requestWid b) (he : e.RequestWid requestWid)
    (h : step b e = some b') : StepCases requestWid b e b' := by
  cases e with
  | joins canonicalViewId =>
    obtain rfl := Option.some.inj h
    exact .joins canonicalViewId
  | leaves sid =>
    obtain rfl := Option.some.inj h
    exact .leaves sid
  | closes sid =>
    obtain ⟨session, hs, rfl⟩ := Option.map_eq_some_iff.1 h
    exact .closes hs
  | setCanonicalViewId sid canonicalViewId =>
    obtain ⟨session, hs, rfl⟩ := Option.map_eq_some_iff.1 h
    exact .setCanonicalViewId canonicalViewId hs
  | tile sid tile now =>
    obtain ⟨-, h⟩ := Option.ite_none_right_eq_some.1 h
    obtain rfl := Option.some.inj h
    exact .moves (by simp) (handleTileRequest_moves he true sid now)
  | tilecombine sid tiles now room =>
    obtain ⟨-, h⟩ := Option.ite_none_right_eq_some.1 h
    obtain rfl := Option.some.inj h
    refine .moves (by simp) (handleTileCombinedRequest_moves hb ?_ true sid now room)
    intro t ht
    obtain ⟨t', ht', rfl⟩ := List.mem_map.1 ht
    exact he t' ht'
  | invalidation sid tiles now room =>
    obtain ⟨-, h⟩ := Option.ite_none_right_eq_some.1 h
    obtain rfl := Option.some.inj h
    refine .moves (by simp) (handleTileCombinedRequest_moves hb ?_ false sid now room)
    intro t ht
    obtain ⟨t', -, rfl⟩ := List.mem_map.1 ht
    exact he
  | tileprocessed sid now room =>
    obtain ⟨-, h⟩ := Option.ite_none_right_eq_some.1 h
    obtain rfl := Option.some.inj h
    exact .moves (by simp) (sendRequestedTiles_moves hb sid now room)
  | reply desc data =>
    obtain ⟨hreq, h⟩ := Option.ite_none_right_eq_some.1 h
    obtain rfl := Option.some.inj h
    exact .reply hreq
  | invalidatetiles intersects =>
    obtain rfl := Option.some.inj h
    exact .invalidatetiles intersects
  | setMaxCacheSize cacheSize =>
    obtain rfl := Option.some.inj h
    exact .setMaxCacheSize cacheSize

end TileBroker

end CollaboraOnline
