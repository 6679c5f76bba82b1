import CollaboraOnline.Wsd.DeltaChain
import CollaboraOnline.Wsd.TileCombinedText

/-!
# Keyframes for missing tiles

A render that has nothing to extend is to be a keyframe, which the kit is asked for by an old wire id of zero.  A
combined request forces it before the request is serialised, a single one after that; and the queue of a session only
forces it for a tile that is absent, so that the tiles in it must carry the zero if what is cached of them becomes too
large.
-/

namespace CollaboraOnline

namespace TileBroker

/-- The tile is absent from the cache, or too large to extend. -/
def missing (c : TileCache) (tile : TileDesc) : Bool := (c.lookupTile tile).all TileData.tooLarge

/-! ### The text of a request -/

/-- The text that is sent for one tile, or for some tiles that are combined. -/
def requestText : Bool → List TileDesc → Option (List Char)
  | true, [tile] => some ("tile ".toList ++ tile.serialize [] [])
  | _, first :: tiles => (TileCombined.create first tiles).map fun c => c.serialize "tilecombine".toList []
  | _, [] => none

/-- The tiles that the kit reads. -/
def readRequest (single : Bool) (text : List Char) : Option (List TileDesc) :=
  if single then (TileDesc.parse text).map fun tile => [tile] else (TileCombined.parse text).map fun c => c.tiles

/-- A `tile` request is handled, the tiles of which are not combined. -/
def Event.isSingle : Event → Bool
  | .tile _ _ _ => true
  | _ => false

/-- The text reads back to descriptions of the tiles, with the old wire id zero for those that are missing. -/
def AsksKeyframes (cache : TileCache) (single : Bool) (tiles : List TileDesc) : Prop :=
  ∃ text read, requestText single tiles = some text ∧ readRequest single text = some read ∧
    List.Forall₂ (fun tile desc => desc.key = tile.key ∧ (missing cache tile = true → desc.oldWireId = 0)) tiles read

/-- What a step sends to the kit asks for keyframes of what is missing. -/
def Keyframes (b : TileBroker) (e : Event) (b' : TileBroker) : Prop :=
  ∃ new, b'.log = b.log ++ new ∧ ∀ tiles, .rendering tiles ∈ new → AsksKeyframes b.tileCache e.isSingle tiles

/-- The numbers of a tile, up to the version, are `int`s that the constructor admits. -/
structure Ranged (t : TileDesc) : Prop where
  admitted : t.Admitted
  ints : ∀ n ∈ [t.canonicalViewId, t.part, t.mode, t.width, t.height, t.tilePosX, t.tilePosY, t.tileWidth,
    t.tileHeight, t.imgSize, t.id], -intMax - 1 ≤ n ∧ n ≤ intMax
  wids : t.oldWireId < 2 ^ 32 ∧ t.wireId < 2 ^ 32

/-- The numbers of the place of a tile are read back: they are less than the largest `int`. -/
def Small (t : TileDesc) : Prop :=
  ∀ n ∈ [t.canonicalViewId, t.part, t.mode, t.width, t.height, t.tilePosX, t.tilePosY, t.tileWidth, t.tileHeight],
    n < intMax

/-- Tiles of one combined request. -/
structure Asked (cache : TileCache) (tiles : List TileDesc) : Prop where
  nonempty : tiles ≠ []
  params : ∀ t ∈ tiles, ∀ t' ∈ tiles, t.combineParams = t'.combineParams
  isTile : ∀ t ∈ tiles, t.IsTile
  keyframe : ∀ t ∈ tiles, missing cache t = true → t.oldWireId = 0

variable {b b' : TileBroker} {cache : TileCache} {e : Event} {tiles : List TileDesc} {tile t : TileDesc}
  {sid now room : Nat}

theorem Ranged.isTile (h : Ranged t) (hver : 0 ≤ t.ver ∧ t.ver ≤ intMax) : t.IsTile := by
  refine ⟨h.admitted, ?_, h.wids⟩
  have hints := h.ints
  have hmin : -intMax - 1 ≤ (0 : Int) := by decide
  simp only [List.forall_mem_cons, List.not_mem_nil, false_imp_iff, implies_true, and_true] at hints ⊢
  obtain ⟨hview, hpart, hmode, hwidth, hheight, hx, hy, htileWidth, htileHeight, himg, hid⟩ := hints
  exact ⟨hview, hpart, hmode, hwidth, hheight, hx, hy, htileWidth, htileHeight, ⟨hmin.trans hver.1, hver.2⟩,
    himg, hid⟩

theorem Asked.asksKeyframes (h : Asked cache tiles) : AsksKeyframes cache false tiles := by
  cases tiles with
  | nil => exact absurd rfl h.nonempty
  | cons first rest =>
    obtain ⟨c, hcreate, htiles, hnumbers⟩ := TileCombined.create_spec
      fun t ht => ⟨h.isTile t ht, h.params t ht first List.mem_cons_self⟩
    have hparse : TileCombined.parse (c.serialize "tilecombine".toList []) = some c :=
      TileCombined.parse_serialize_create hcreate hnumbers (by decide) (by simp)
    refine ⟨c.serialize "tilecombine".toList [], c.tiles, ?_, ?_, ?_⟩
    · rw [requestText, hcreate, Option.map_some]
      simp
    · rw [readRequest, if_neg Bool.false_ne_true, hparse, Option.map_some]
    · rw [htiles, List.forall₂_map_right_iff, List.forall₂_same]
      exact fun t ht => ⟨rfl, h.keyframe t ht⟩

theorem tokenize_tile (x : List Char) :
    COOLProtocol.tokenize ("tile ".toList ++ ' ' :: x) = COOLProtocol.tokenize ("tile".toList ++ ' ' :: x) := rfl

/-- The text of a single request: two blanks follow its name. -/
theorem parse_tileRequest (t : TileDesc) : TileDesc.parse ("tile ".toList ++ t.serialize [] []) =
    if t.readBack.Admitted then some t.readBack else none := by
  have hpre : TileDesc.IsPrefix "tile".toList := by decide
  have hsuffix : ∀ c ∈ ([] : List Char).head?, c = '\n' := by simp
  obtain ⟨x, hx⟩ : ∃ x, t.textFields.flatMap (fun f => ' ' :: TileDesc.field f) = ' ' :: x := ⟨_, rfl⟩
  rw [← TileDesc.parse_serialize_eq t hpre hsuffix]
  unfold TileDesc.parse TileDesc.serialize
  rw [hx, List.append_nil, List.nil_append, List.append_nil, tokenize_tile]

theorem readBack_key (h : Ranged t) (hsmall : Small t) : t.readBack.key = t.key ∧ t.readBack.Admitted := by
  obtain ⟨hview, hpart, hmode, hwidth, hheight, hx, hy, htileWidth, htileHeight, himg⟩ := h.admitted
  have hints := h.ints
  unfold Small at hsmall
  simp only [List.forall_mem_cons, List.not_mem_nil, false_imp_iff, implies_true, and_true] at hints hsmall
  obtain ⟨sview, spart, smode, swidth, sheight, sx, sy, stileWidth, stileHeight⟩ := hsmall
  have hback {v : Int} (h : 0 ≤ v) (hlt : v < intMax) : TileDesc.ParseResults.readBack 0 v = v :=
    (TileDesc.readBack_nonneg h hlt.le).2 hlt
  have hmodes : (if t.mode ≠ 0 then TileDesc.ParseResults.readBack 0 t.mode else 0) = t.mode := by
    split
    · exact hback hmode smode
    · rename_i hzero
      exact (not_not.1 hzero).symm
  have himgs : 0 ≤ t.readBack.imgSize := by
    unfold TileDesc.readBack TileDesc.ParseResults.readBack Util.clamp intMax
    dsimp only
    repeat' split
    all_goals omega
  have hkey : t.readBack.key = t.key := by
    unfold TileDesc.readBack TileDesc.key
    dsimp only
    rw [hmodes, hback hview sview, hback hpart spart, hback hwidth.le swidth, hback hheight.le sheight, hback hx sx,
      hback hy sy,
      hback htileWidth.le stileWidth, hback htileHeight.le stileHeight]
  refine ⟨hkey, ?_⟩
  have hfields := hkey
  unfold TileDesc.key at hfields
  unfold TileDesc.Admitted
  rw [hfields]
  exact ⟨hview, hpart, hmode, hwidth, hheight, hx, hy, htileWidth, htileHeight, himgs⟩

/-- The numbers that are read are less than the largest `int`. -/
def ReadInts (r : TileDesc.ParseResults) : Prop :=
  (∀ n ∈ [r.height, r.id, r.imgsize, r.mode, r.nviewid, r.part, r.tileheight, r.tileposx, r.tileposy,
    r.tilewidth, r.ver, r.width], -intMax - 1 ≤ n ∧ n < intMax) ∧ r.oldWireId < 2 ^ 32 ∧ r.wireId < 2 ^ 32

theorem getUInt32_lt {token key : List Char} {value : Nat} (h : value < 2 ^ 32) :
    (StringVector.getUInt32 token key value).2 < 2 ^ 32 := by
  unfold StringVector.getUInt32
  split
  · dsimp only
    omega
  · exact h

theorem ReadInts.ite {r r' : TileDesc.ParseResults} {c : Prop} [Decidable c] (h : ReadInts r) (h' : ReadInts r') :
    ReadInts (if c then r else r') := by
  split
  · exact h
  · exact h'

theorem ReadInts.set {r : TileDesc.ParseResults} (h : ReadInts r) (arg : List Char) {value : Int}
    (hvalue : -intMax - 1 ≤ value ∧ value < intMax) : ReadInts (r.set arg value) := by
  obtain ⟨hints, hwids⟩ := h
  simp only [List.forall_mem_cons, List.not_mem_nil, false_imp_iff, implies_true, and_true] at hints
  obtain ⟨hheight, hid, himg, hmode, hview, hpart, htileHeight, hx, hy, htileWidth, hver, hwidth⟩ := hints
  unfold TileDesc.ParseResults.set
  repeat' apply ReadInts.ite
  all_goals
    refine ⟨?_, hwids⟩
    simp only [List.forall_mem_cons, List.not_mem_nil, false_imp_iff, implies_true, and_true]
    refine ⟨?_, ?_, ?_, ?_, ?_, ?_, ?_, ?_, ?_, ?_, ?_, ?_⟩ <;> assumption

theorem ReadInts.token {r : TileDesc.ParseResults} (h : ReadInts r) (token : List Char) :
    ReadInts (r.token token) := by
  have hold : ReadInts { r with oldWireId := (StringVector.getUInt32 token "oldwid".toList r.oldWireId).2 } :=
    ⟨h.1, getUInt32_lt h.2.1, h.2.2⟩
  unfold TileDesc.ParseResults.token
  extract_lets oldwid r₁ wid r₂
  have hwid : ReadInts r₂ := ⟨hold.1, hold.2.1, getUInt32_lt hold.2.2⟩
  split
  · exact hold
  · split
    · exact hwid
    · split
      · rename_i name value hpair
        unfold StringVector.getNameIntegerPair at hpair
        split at hpair
        · dsimp only at hpair
          split at hpair
          · rename_i hrange
            cases hpair
            exact hwid.set _ ⟨by omega, hrange.2⟩
          · cases hpair
        · cases hpair
      · exact hwid

/-- What a request is parsed to has such numbers. -/
theorem parse_ranged {message : List Char} (h : TileDesc.parse message = some t) : Ranged t ∧ Small t := by
  have hread : ReadInts ((COOLProtocol.tokenize message).foldl TileDesc.ParseResults.token {}) := by
    have hstart : ReadInts {} := by
      unfold ReadInts intMax
      simp
    generalize COOLProtocol.tokenize message = tokens
    generalize ({} : TileDesc.ParseResults) = r at hstart
    induction tokens generalizing r with
    | nil => exact hstart
    | cons token tokens ih => exact ih _ (hstart.token token)
  obtain ⟨hadmitted, heq⟩ := Option.ite_none_right_eq_some.1 h
  obtain rfl := Option.some.inj heq
  unfold ReadInts at hread
  simp only [List.forall_mem_cons, List.not_mem_nil, false_imp_iff, implies_true, and_true] at hread
  obtain ⟨⟨hheight, hid, himg, hmode, hview, hpart, htileHeight, hx, hy, htileWidth, hver, hwidth⟩, hwids⟩ := hread
  refine ⟨⟨hadmitted, ?_, hwids⟩, ?_⟩
  · simp only [List.forall_mem_cons, List.not_mem_nil, false_imp_iff, implies_true, and_true]
    exact ⟨⟨hview.1, hview.2.le⟩, ⟨hpart.1, hpart.2.le⟩, ⟨hmode.1, hmode.2.le⟩, ⟨hwidth.1, hwidth.2.le⟩,
      ⟨hheight.1, hheight.2.le⟩, ⟨hx.1, hx.2.le⟩, ⟨hy.1, hy.2.le⟩, ⟨htileWidth.1, htileWidth.2.le⟩,
      ⟨htileHeight.1, htileHeight.2.le⟩, ⟨himg.1, himg.2.le⟩, ⟨hid.1, hid.2.le⟩⟩
  · unfold Small
    simp only [List.forall_mem_cons, List.not_mem_nil, false_imp_iff, implies_true, and_true]
    exact ⟨hview.2, hpart.2, hmode.2, hwidth.2, hheight.2, hx.2, hy.2, htileWidth.2, htileHeight.2⟩

/-- A single request asks for what its old wire id says when it is serialised. -/
theorem asksKeyframes_single (cache : TileCache) (h : Ranged t) (hsmall : Small t) :
    AsksKeyframes cache true [t] ↔ (missing cache t = true → t.oldWireId = 0) := by
  obtain ⟨hkey, hadmitted⟩ := readBack_key h hsmall
  have hread : readRequest true ("tile ".toList ++ t.serialize [] []) = some [t.readBack] := by
    rw [readRequest, if_pos rfl, parse_tileRequest, if_pos hadmitted, Option.map_some]
  have hzero : t.readBack.oldWireId = 0 ↔ t.oldWireId = 0 := by
    unfold TileDesc.readBack intMax
    dsimp only
    omega
  constructor
  · rintro ⟨text, read, htext, hread', hall⟩ hmissing
    obtain rfl := Option.some.inj htext
    rw [hread] at hread'
    obtain rfl := Option.some.inj hread'
    exact hzero.1 ((List.forall₂_cons.1 hall).1.2 hmissing)
  · intro hold
    exact ⟨_, _, rfl, hread, .cons ⟨hkey, fun hmissing => hzero.2 (hold hmissing)⟩ .nil⟩

/-! ### What the handlers keep -/

/-- The handlers change no cached tile and no view, and send renders of which `p` holds. -/
structure Kept (p : List TileDesc → Prop) (b b' : TileBroker) : Prop where
  log : ∃ new, b'.log = b.log ++ new ∧ ∀ tiles, .rendering tiles ∈ new → p tiles
  lookup : ∀ t, b'.tileCache.lookupTile t = b.tileCache.lookupTile t
  view : ∀ sid, b'.canonicalViewId sid = b.canonicalViewId sid
  queue : ∀ sid, ∀ t ∈ b'.requestedTiles sid, t ∈ b.requestedTiles sid

variable {p : List TileDesc → Prop}

theorem Kept.refl : Kept p b b := ⟨⟨[], by simp, by simp⟩, fun _ => rfl, fun _ => rfl, fun _ _ h => h⟩

theorem Kept.trans {b'' : TileBroker} (h : Kept p b b') (h' : Kept p b' b'') : Kept p b b'' := by
  obtain ⟨new, hnew, hp⟩ := h.log
  obtain ⟨new', hnew', hp'⟩ := h'.log
  refine ⟨⟨new ++ new', by rw [hnew', hnew, List.append_assoc], fun tiles ht => ?_⟩,
    fun t => (h'.lookup t).trans (h.lookup t), fun sid => (h'.view sid).trans (h.view sid),
    fun sid t ht => h.queue sid t (h'.queue sid t ht)⟩
  rcases List.mem_append.1 ht with ht | ht
  · exact hp tiles ht
  · exact hp' tiles ht

theorem canonicalViewId_put {session session' : ClientSession} (hs : b.sessions.find sid = some session)
    (hid : session'.id = session.id) (hview : session'.canonicalViewId = session.canonicalViewId) (sid' : Nat) :
    ({ b with sessions := b.sessions.put session' } : TileBroker).canonicalViewId sid' = b.canonicalViewId sid' := by
  unfold canonicalViewId
  dsimp only
  rw [Table.find_put]
  have hkey := Table.key_of_find hs
  by_cases h : sid' = session'.id
  · obtain rfl : sid' = sid := h.trans (hid.trans hkey)
    rw [if_pos h, hs]
    exact hview
  · rw [if_neg h]

theorem lookupTile_subscribe (b : TileBroker) (tile : TileDesc) (sid now : Nat) (t : TileDesc) :
    (b.subscribe tile sid now).tileCache.lookupTile t = b.tileCache.lookupTile t := by
  unfold subscribe note TileCache.subscribeToTileRendering
  dsimp only
  split
  · split <;> rfl
  · rfl

theorem Kept.subscribe (tile : TileDesc) (sid now : Nat) : Kept p b (b.subscribe tile sid now) :=
  ⟨⟨[_], rfl, by simp⟩, lookupTile_subscribe b tile sid now, fun _ => rfl, fun _ _ h => h⟩

theorem Kept.render (h : p tiles) : Kept p b (b.note (.rendering tiles)) :=
  ⟨⟨[.rendering tiles], rfl, by simpa using h⟩, fun _ => rfl, fun _ => rfl, fun _ _ h => h⟩

theorem Kept.bump : Kept p b b.bumpVersion :=
  ⟨⟨[], by simp [bumpVersion], by simp⟩, fun _ => rfl, fun _ => rfl, fun _ _ h => h⟩

theorem Kept.resetTileSeq (sid : Nat) (desc : TileDesc) : Kept p b (b.resetTileSeq sid desc) := by
  refine ⟨⟨[], by simp, by simp⟩, by simp, fun sid' => ?_, fun sid' t ht => by simpa using ht⟩
  unfold TileBroker.resetTileSeq
  split
  · rfl
  · rename_i session hs
    exact canonicalViewId_put hs (by rfl) (by rfl) sid'

theorem Kept.sendTileNow (sid : Nat) (desc : TileDesc) (tile : TileData) :
    Kept p b (b.sendTileNow sid desc tile) := by
  obtain ⟨new, hnew, hsent⟩ := b.log_sendTileNow sid desc tile
  refine ⟨⟨new, hnew, fun tiles ht => ?_⟩, by simp, fun sid' => ?_, fun sid' t ht => by simpa using ht⟩
  · obtain ⟨isTile, payload, heq⟩ := hsent _ ht
    cases heq
  · unfold TileBroker.sendTileNow
    split
    · rfl
    · rename_i session hs
      dsimp only
      split
      · exact canonicalViewId_put hs (by rfl) (by rfl) sid'
      · exact canonicalViewId_put hs (by rfl) (by rfl) sid'

theorem canonicalViewId_setRequestedTiles (sid : Nat) (tiles : List TileDesc) (sid' : Nat) :
    (b.setRequestedTiles sid tiles).canonicalViewId sid' = b.canonicalViewId sid' := by
  unfold TileBroker.setRequestedTiles
  split
  · rfl
  · rename_i session hs
    exact canonicalViewId_put hs (by rfl) (by rfl) sid'

theorem Kept.missing_eq (h : Kept p b b') (t : TileDesc) : missing b'.tileCache t = missing b.tileCache t := by
  unfold missing
  rw [h.lookup]

/-- A tile that is asked for as a keyframe where it is missing. -/
structure Forced (cache : TileCache) (t : TileDesc) : Prop extends Ranged t where
  keyframe : missing cache t = true → t.oldWireId = 0

theorem Ranged.setVersion (h : Ranged t) (ver : Int) : Ranged (t.setVersion ver) := ⟨h.admitted, h.ints, h.wids⟩

theorem Ranged.setOldWireId (h : Ranged t) {wid : Nat} (hwid : wid < 2 ^ 32) : Ranged (t.setOldWireId wid) :=
  ⟨h.admitted, h.ints, hwid, h.wids.2⟩

theorem Forced.setVersion (h : Forced cache t) (ver : Int) : Forced cache (t.setVersion ver) :=
  ⟨h.toRanged.setVersion ver, h.keyframe⟩

theorem Forced.forceKeyframe (h : Ranged t) : Forced cache t.forceKeyframe :=
  ⟨h.setOldWireId (by norm_num), fun _ => rfl⟩

/-- What `requestTileRendering` changes, for a tile that is forced where it is missing. -/
theorem requestTileRendering_spec (p : List TileDesc → Prop) (b : TileBroker) (sid now : Nat) (force : Bool)
    (version : Nat) (needs : List TileDesc) (h : Ranged t)
    (hforce : force = true ∨ Forced cache t) :
    Kept p b (b.requestTileRendering t force version now needs sid).broker ∧
      (b.requestTileRendering t force version now needs sid).broker.tileVersion = b.tileVersion ∧
      (Forced cache t → Forced cache (b.requestTileRendering t force version now needs sid).tile) ∧
      (b.requestTileRendering t force version now needs sid).tile.combineParams = t.combineParams ∧
      ((b.requestTileRendering t force version now needs sid).tilesNeedsRendering = needs ∨
        ∃ new, (b.requestTileRendering t force version now needs sid).tilesNeedsRendering = needs ++ [new] ∧
          Forced cache new ∧ new.combineParams = t.combineParams ∧ new.ver = version ∧
          ((b.requestTileRendering t force version now needs sid).allSamePartAndSize = true →
            ∀ last ∈ needs.getLast?, new.combineParams = last.combineParams)) := by
  have hnew : Forced cache (if force then (t.setVersion version).forceKeyframe else t.setVersion version) := by
    cases force with
    | true => exact .forceKeyframe (h.setVersion version)
    | false => exact (hforce.resolve_left Bool.false_ne_true).setVersion version
  have hparams : (if force then (t.setVersion version).forceKeyframe else t.setVersion version).combineParams =
      t.combineParams := by
    split <;> rfl
  have hver : (if force then (t.setVersion version).forceKeyframe else t.setVersion version).ver = version := by
    split <;> rfl
  unfold requestTileRendering
  split
  · refine ⟨.subscribe _ _ _, rfl, fun _ => hnew, hparams,
      .inr ⟨_, rfl, hnew, hparams, hver, fun hsame last hlast => ?_⟩⟩
    dsimp only at hsame
    rw [Option.mem_def.1 hlast, Option.all_some] at hsame
    obtain ⟨hpart, hmode, hwidth, hheight, htileWidth, htileHeight, hview⟩ :=
      TileDesc.sameTileCombineParams_iff.1 hsame
    simp [TileDesc.combineParams, *]
  · exact ⟨.subscribe _ _ _, rfl, id, rfl, .inl rfl⟩

/-! ### Combined requests -/

/-- What the loop over a combined request has asked for. -/
structure CombineLoop.Asks (b : TileBroker) (params : CombineParams) (s : CombineLoop) : Prop where
  kept : Kept (fun _ => False) b s.broker
  version : s.broker.tileVersion = b.tileVersion
  tiles : ∀ t ∈ s.tiles, Forced b.tileCache t
  asked : ∀ t ∈ s.tilesNeedsRendering, Forced b.tileCache t ∧ t.combineParams = params ∧ t.ver = b.tileVersion

variable {params : CombineParams} {s : CombineLoop}

theorem resetTileSeq_version (sid : Nat) (desc : TileDesc) :
    (b.resetTileSeq sid desc).tileVersion = b.tileVersion := by
  unfold resetTileSeq
  split <;> rfl

theorem sendTileNow_version (sid : Nat) (desc : TileDesc) (tile : TileData) :
    (b.sendTileNow sid desc tile).tileVersion = b.tileVersion := by
  unfold sendTileNow
  split
  · rfl
  · dsimp only
    split <;> rfl

theorem setRequestedTiles_version (sid : Nat) (tiles : List TileDesc) :
    (b.setRequestedTiles sid tiles).tileVersion = b.tileVersion := by
  unfold setRequestedTiles
  split <;> rfl

theorem combineTile_asks (h : s.Asks b params) (canForceKeyframe : Bool) (sid now : Nat) (ht : Ranged t)
    (hparams : t.combineParams = params) : (combineTile canForceKeyframe sid now s t).Asks b params := by
  unfold combineTile
  extract_lets tile₁ forced b₁ tile₂ cachedTile tooLarge forceKeyFrame tile₃ r
  have hreset : Kept (fun _ => False) s.broker b₁ := by
    unfold b₁
    split
    · exact .resetTileSeq sid tile₁
    · exact .refl
  have hversion : b₁.tileVersion = b.tileVersion := by
    unfold b₁
    split
    · rw [resetTileSeq_version, h.version]
    · exact h.version
  have hkept := h.kept.trans hreset
  have hranged : Ranged tile₂ := by
    unfold tile₂
    split
    · exact (ht.setVersion _).setOldWireId (by norm_num)
    · exact ht.setVersion _
  have hparams₂ : tile₂.combineParams = params := by
    unfold tile₂
    split <;> exact hparams
  have hmissing : missing b.tileCache tile₂ = (cachedTile.isNone || tooLarge) := by
    rw [← hkept.missing_eq]
    unfold missing tooLarge
    change cachedTile.all TileData.tooLarge = (cachedTile.isNone || cachedTile.any TileData.tooLarge)
    cases cachedTile <;> rfl
  have happend {t' : TileDesc} (ht' : Forced b.tileCache t') : ∀ t'' ∈ s.tiles ++ [t'], Forced b.tileCache t'' := by
    intro t'' hmem
    rcases List.mem_append.1 hmem with hmem | hmem
    · exact h.tiles t'' hmem
    · rw [List.mem_singleton.1 hmem]
      exact ht'
  split
  · have hforced : Forced b.tileCache tile₃ := by
      unfold tile₃
      split
      · exact .forceKeyframe hranged
      · rename_i hno
        exact ⟨hranged, fun hmiss => absurd (hmissing.symm.trans hmiss) hno⟩
    have hparams₃ : tile₃.combineParams = params := by
      unfold tile₃
      split <;> exact hparams₂
    obtain ⟨hkept', hversion', htile, -, hneeds⟩ :=
      requestTileRendering_spec (fun _ => False) b₁ sid now forceKeyFrame
      b₁.tileVersion s.tilesNeedsRendering hforced.toRanged (.inr hforced)
    refine ⟨hkept.trans hkept', hversion'.trans hversion, happend (htile hforced), ?_⟩
    rcases hneeds with heq | ⟨new, heq, hnew, hnewParams, hver, -⟩
    · change ∀ t ∈ r.tilesNeedsRendering, _
      rw [show r.tilesNeedsRendering = s.tilesNeedsRendering from heq]
      exact h.asked
    · intro t' ht'
      rw [show r.tilesNeedsRendering = s.tilesNeedsRendering ++ [new] from heq] at ht'
      rcases List.mem_append.1 ht' with ht' | ht'
      · exact h.asked t' ht'
      · rw [List.mem_singleton.1 ht']
        exact ⟨hnew, hnewParams.trans hparams₃, by rw [hver, hversion]⟩
  · rename_i hno
    refine ⟨hkept, hversion, happend ⟨hranged, fun hmiss => ?_⟩, h.asked⟩
    rw [hmissing] at hmiss
    exfalso
    apply hno
    cases hc : cachedTile with
    | none => rfl
    | some cached =>
      rw [hc] at hmiss
      simpa [hc] using Or.inr hmiss

theorem foldl_combineTile_asks (h : s.Asks b params) (canForceKeyframe : Bool) (sid now : Nat)
    (htiles : ∀ t ∈ tiles, Ranged t ∧ t.combineParams = params) :
    (tiles.foldl (combineTile canForceKeyframe sid now) s).Asks b params := by
  induction tiles generalizing s with
  | nil => exact h
  | cons t tiles ih =>
    obtain ⟨hranged, hparams⟩ := htiles t List.mem_cons_self
    exact ih (combineTile_asks h canForceKeyframe sid now hranged hparams) fun t' ht' =>
      htiles t' (List.mem_cons_of_mem t ht')

/-! ### The queue of a session -/

/-- A queued tile carries the old wire id zero if what is cached of it is not valid and too large. -/
structure Queued (cache : TileCache) (t : TileDesc) : Prop extends Ranged t where
  keyframe : ∀ cached ∈ cache.lookupTile t, cached.isValid = false → cached.tooLarge = true → t.oldWireId = 0

theorem Forced.queued (h : Forced cache t) : Queued cache t := by
  refine ⟨h.toRanged, fun cached hcached _ hlarge => h.keyframe ?_⟩
  unfold missing
  rw [Option.mem_def.1 hcached]
  exact hlarge

theorem replaceRequested_queued {newTile : TileDesc} {requested requested' : List TileDesc}
    (hnew : Forced cache newTile)
    (hold : ∀ t ∈ requested, Queued cache t) (h : replaceRequested newTile requested = some requested') :
    ∀ t ∈ requested', Queued cache t := by
  induction requested generalizing requested' with
  | nil => cases h
  | cons oldTile rest ih =>
    have hrest : ∀ t ∈ rest, Queued cache t := fun t ht => hold t (List.mem_cons_of_mem oldTile ht)
    have holdTile := hold oldTile List.mem_cons_self
    unfold replaceRequested at h
    split at h
    · rename_i hsame
      obtain rfl := Option.some.inj h
      simp only [Bool.and_eq_true, beq_iff_eq] at hsame
      obtain ⟨⟨hx, hy⟩, hparams⟩ := hsame
      obtain ⟨hpart, hmode, hwidth, hheight, htileWidth, htileHeight, hview⟩ :=
        TileDesc.sameTileCombineParams_iff.1 hparams
      have hkey : oldTile.key = newTile.key := by
        obtain ⟨⟨view, part, mode, width, height, x, y, tileWidth, tileHeight⟩, ver, imgSize, id, oldWireId,
            wireId⟩ := oldTile
        obtain ⟨⟨view', part', mode', width', height', x', y', tileWidth', tileHeight'⟩, ver', imgSize', id',
          oldWireId', wireId'⟩ := newTile
        simp_all [TileDesc.key]
      refine List.forall_mem_cons.2
        ⟨⟨⟨holdTile.admitted, holdTile.ints, hnew.wids⟩, fun cached hcached _ hlarge => ?_⟩, hrest⟩
      refine hnew.keyframe ?_
      have hlookup : cache.lookupTile newTile = some cached := by
        rw [← Option.mem_def.1 hcached]
        unfold TileCache.lookupTile TileCache.findTile
        rw [← hkey]
        rfl
      unfold missing
      rw [hlookup]
      exact hlarge
    · obtain ⟨rest', hrest', rfl⟩ := Option.map_eq_some_iff.1 h
      exact List.forall_mem_cons.2 ⟨holdTile, ih hrest hrest'⟩

theorem accumulateTiles_queued {canonicalViewId : Int} {requested : List TileDesc}
    (hold : ∀ t ∈ requested, Queued cache (t.setCanonicalViewId canonicalViewId))
    (hnew : ∀ t ∈ tiles, Forced cache t) : ∀ t ∈ accumulateTiles canonicalViewId requested tiles, Queued cache t := by
  unfold accumulateTiles
  split
  · exact fun t ht => (hnew t ht).queued
  · dsimp only
    have hmap : ∀ t ∈ requested.map fun t => t.setCanonicalViewId canonicalViewId, Queued cache t := by
      intro t ht
      obtain ⟨t', ht', rfl⟩ := List.mem_map.1 ht
      exact hold t' ht'
    generalize requested.map (fun t => t.setCanonicalViewId canonicalViewId) = acc at hmap
    induction tiles generalizing acc with
    | nil => exact hmap
    | cons newTile tiles ih =>
      have hfirst := hnew newTile List.mem_cons_self
      refine ih (fun t ht => hnew t (List.mem_cons_of_mem newTile ht)) _ ?_
      cases hrep : replaceRequested newTile acc with
      | none =>
        intro t ht
        dsimp only at ht
        rw [hrep, Option.getD_none, List.mem_append, List.mem_singleton] at ht
        rcases ht with ht | rfl
        · exact hmap t ht
        · exact hfirst.queued
      | some acc' =>
        intro t ht
        dsimp only at ht
        rw [hrep, Option.getD_some] at ht
        exact replaceRequested_queued hfirst hmap hrep t ht

/-- What the loop over the queue has asked for. -/
structure SendLoop.Asks (b : TileBroker) (s : SendLoop) : Prop where
  kept : Kept (fun _ => False) b s.broker
  version : s.broker.tileVersion = b.tileVersion + if s.bumpedVersion then 1 else 0
  asked : ∀ t ∈ s.tilesNeedsRendering, Forced b.tileCache t ∧ t.ver = (b.tileVersion + 1 : Nat)
  same : s.allSamePartAndSize = true →
    ∀ t ∈ s.tilesNeedsRendering, ∀ t' ∈ s.tilesNeedsRendering, t.combineParams = t'.combineParams

theorem requestTile_asks {s : SendLoop} {force : Bool} (h : s.Asks b) (sid now : Nat) (ht : Ranged t)
    (hforce : force = true ∨ Forced b.tileCache t) : (requestTile sid now s t force).Asks b := by
  unfold requestTile
  extract_lets b₁ r
  have hkept : Kept (fun _ => False) b b₁ := by
    unfold b₁
    split
    · exact h.kept
    · exact h.kept.trans .bump
  have hversion : b₁.tileVersion = b.tileVersion + 1 := by
    have hver := h.version
    unfold b₁
    split
    · rename_i hbumped
      rwa [if_pos hbumped] at hver
    · rename_i hbumped
      rw [if_neg hbumped] at hver
      simp [bumpVersion, hver]
  obtain ⟨hkept', hversion', -, -, hneeds⟩ :=
    requestTileRendering_spec (fun _ => False) b₁ sid now force b₁.tileVersion
    s.tilesNeedsRendering ht hforce
  refine ⟨hkept.trans hkept', by rw [if_pos rfl]; exact hversion'.trans hversion, ?_, ?_⟩
  · rcases hneeds with heq | ⟨new, heq, hnew, -, hver, -⟩
    · intro t' ht'
      exact h.asked t' (heq ▸ ht')
    · intro t' ht'
      dsimp only at ht'
      rw [show r.tilesNeedsRendering = s.tilesNeedsRendering ++ [new] from heq] at ht'
      rcases List.mem_append.1 ht' with ht' | ht'
      · exact h.asked t' ht'
      · rw [List.mem_singleton.1 ht']
        exact ⟨hnew, by rw [hver, hversion]⟩
  · intro hsame
    simp only [Bool.and_eq_true] at hsame
    have hold := h.same hsame.1
    rcases hneeds with heq | ⟨new, heq, -, -, -, hlast⟩
    · intro t' ht' t'' ht''
      exact hold t' (heq ▸ ht') t'' (heq ▸ ht'')
    · -- the new tile is as the last one, and that as all others
      have hall : ∀ t' ∈ s.tilesNeedsRendering, new.combineParams = t'.combineParams := by
        intro t' ht'
        cases hget : s.tilesNeedsRendering.getLast? with
        | none =>
          rw [List.getLast?_eq_none_iff.1 hget] at ht'
          cases ht'
        | some last => exact (hlast hsame.2 last hget).trans (hold last (List.mem_of_getLast? hget) t' ht')
      dsimp only
      rw [show r.tilesNeedsRendering = s.tilesNeedsRendering ++ [new] from heq]
      intro t' ht' t'' ht''
      rcases List.mem_append.1 ht' with ht' | ht' <;> rcases List.mem_append.1 ht'' with ht'' | ht''
      · exact hold t' ht' t'' ht''
      · rw [List.mem_singleton.1 ht'']
        exact (hall t' ht').symm
      · rw [List.mem_singleton.1 ht']
        exact hall t'' ht''
      · rw [List.mem_singleton.1 ht', List.mem_singleton.1 ht'']

theorem sendLoop_asks {s : SendLoop} (h : s.Asks b) (sid now room : Nat)
    (htiles : ∀ t ∈ tiles, Queued b.tileCache t) :
    (sendLoop sid now room s tiles).1.Asks b ∧ ∀ t ∈ (sendLoop sid now room s tiles).2, t ∈ tiles := by
  induction tiles generalizing s room with
  | nil =>
    rw [sendLoop]
    exact ⟨h, fun t ht => ht⟩
  | cons tile rest ih =>
    have htile := htiles tile List.mem_cons_self
    have hrest : ∀ t ∈ rest, Queued b.tileCache t := fun t ht => htiles t (List.mem_cons_of_mem tile ht)
    have hnext {s' : SendLoop} (h' : s'.Asks b) (room : Nat) : (sendLoop sid now room s' rest).1.Asks b ∧
        ∀ t ∈ (sendLoop sid now room s' rest).2, t ∈ tile :: rest :=
      ⟨(ih h' room hrest).1, fun t ht => List.mem_cons_of_mem tile ((ih h' room hrest).2 t ht)⟩
    cases room with
    | zero => exact ⟨h, fun t ht => ht⟩
    | succ room =>
      unfold sendLoop
      split
      · rename_i cachedTile hc
        split
        · have hsent : (sendCached sid s tile cachedTile).Asks b := by
            refine ⟨h.kept.trans (.sendTileNow _ _ _), ?_, h.asked, h.same⟩
            exact (sendTileNow_version _ _ _).trans h.version
          exact hnext hsent room
        · rename_i hinvalid
          refine hnext (requestTile_asks h sid now htile.toRanged (.inr ⟨htile.toRanged, fun hmissing => ?_⟩))
            (room + 1)
          rw [h.kept.lookup] at hc
          unfold missing at hmissing
          rw [hc] at hmissing
          exact htile.keyframe cachedTile hc (by simpa using hinvalid) hmissing
      · exact hnext (requestTile_asks h sid now htile.toRanged (.inl rfl)) (room + 1)

/-! ### Groups -/

theorem insertGroup_spec (tile : TileDesc) {groups : List (List TileDesc)}
    (h : ∀ group ∈ groups, group ≠ [] ∧ ∀ t ∈ group, ∀ t' ∈ group, t.combineParams = t'.combineParams) :
    ∀ group ∈ insertGroup tile groups, (group ≠ [] ∧ ∀ t ∈ group, ∀ t' ∈ group, t.combineParams = t'.combineParams) ∧
      ∀ t ∈ group, t = tile ∨ ∃ old ∈ groups, t ∈ old := by
  induction groups with
  | nil =>
    intro group hgroup
    rw [insertGroup, List.mem_singleton] at hgroup
    subst hgroup
    simp
  | cons first groups ih =>
    obtain ⟨⟨hne, hfirst⟩, hrest⟩ := List.forall_mem_cons.1 h
    unfold insertGroup
    split
    · rename_i hmatch
      obtain ⟨head, tail, rfl⟩ := List.exists_cons_of_ne_nil hne
      rw [List.head?_cons, Option.all_some] at hmatch
      obtain ⟨hpart, hmode, hwidth, hheight, htileWidth, htileHeight, hview⟩ :=
        TileDesc.sameTileCombineParams_iff.1 hmatch
      have hhead : head.combineParams = tile.combineParams := by simp [TileDesc.combineParams, *]
      have hall : ∀ t ∈ head :: tail ++ [tile], t.combineParams = head.combineParams := by
        intro t ht
        rcases List.mem_append.1 ht with ht | ht
        · exact hfirst t ht head List.mem_cons_self
        · rw [List.mem_singleton.1 ht, hhead]
      intro group hgroup
      rcases List.mem_cons.1 hgroup with rfl | hgroup
      · refine ⟨⟨by simp, fun t ht t' ht' => (hall t ht).trans (hall t' ht').symm⟩, fun t ht => ?_⟩
        rcases List.mem_append.1 ht with ht | ht
        · exact .inr ⟨head :: tail, List.mem_cons_self, ht⟩
        · exact .inl (List.mem_singleton.1 ht)
      · exact ⟨hrest group hgroup, fun t ht => .inr ⟨group, List.mem_cons_of_mem _ hgroup, ht⟩⟩
    · intro group hgroup
      rcases List.mem_cons.1 hgroup with rfl | hgroup
      · exact ⟨⟨hne, hfirst⟩, fun t ht => .inr ⟨group, List.mem_cons_self, ht⟩⟩
      · obtain ⟨hspec, hmem⟩ := ih hrest group hgroup
        refine ⟨hspec, fun t ht => (hmem t ht).imp id ?_⟩
        rintro ⟨old, hold, hin⟩
        exact ⟨old, List.mem_cons_of_mem first hold, hin⟩

theorem groupTiles_spec (tiles : List TileDesc) : ∀ group ∈ groupTiles tiles,
    (group ≠ [] ∧ ∀ t ∈ group, ∀ t' ∈ group, t.combineParams = t'.combineParams) ∧ ∀ t ∈ group, t ∈ tiles := by
  unfold groupTiles
  suffices hgen : ∀ (seen : List TileDesc) (groups : List (List TileDesc)),
      (∀ group ∈ groups, (group ≠ [] ∧ ∀ t ∈ group, ∀ t' ∈ group, t.combineParams = t'.combineParams) ∧
        ∀ t ∈ group, t ∈ seen) →
      ∀ group ∈ tiles.foldl (fun groups tile => insertGroup tile groups) groups,
        (group ≠ [] ∧ ∀ t ∈ group, ∀ t' ∈ group, t.combineParams = t'.combineParams) ∧
        ∀ t ∈ group, t ∈ seen ++ tiles by
    simpa using hgen [] [] (by simp)
  induction tiles with
  | nil =>
    intro seen groups h
    simpa using h
  | cons tile tiles ih =>
    intro seen groups h group hgroup
    have hinsert := insertGroup_spec tile fun group hg => (h group hg).1
    obtain ⟨hspec, hmem⟩ := ih (seen ++ [tile]) (insertGroup tile groups) (fun group hg => by
      refine ⟨(hinsert group hg).1, fun t ht => ?_⟩
      rcases (hinsert group hg).2 t ht with rfl | ⟨old, hold, hin⟩
      · simp
      · exact List.mem_append_left _ ((h old hold).2 t hin)) group hgroup
    exact ⟨hspec, fun t ht => by simpa using hmem t ht⟩

/-! ### The handlers -/

theorem Asked.of_forced (hne : tiles ≠ []) (hparams : ∀ t ∈ tiles, ∀ t' ∈ tiles, t.combineParams = t'.combineParams)
    (h : ∀ t ∈ tiles, Forced cache t ∧ 0 ≤ t.ver ∧ t.ver ≤ intMax) : Asked cache tiles :=
  ⟨hne, hparams, fun t ht => (h t ht).1.isTile (h t ht).2, fun t ht => (h t ht).1.keyframe⟩

theorem foldl_sendTileCombine_kept {groups : List (List TileDesc)} (h : ∀ group ∈ groups, p group) :
    Kept p b (groups.foldl sendTileCombine b) := by
  induction groups generalizing b with
  | nil => exact .refl
  | cons group groups ih =>
    exact (Kept.render (h group List.mem_cons_self)).trans
      (ih fun group' hg => h group' (List.mem_cons_of_mem group hg))

theorem Kept.mono {p' : List TileDesc → Prop} (h : Kept p b b') (hp : ∀ tiles, p tiles → p' tiles) :
    Kept p' b b' := by
  obtain ⟨new, hnew, hrendering⟩ := h.log
  exact ⟨⟨new, hnew, fun tiles ht => hp tiles (hrendering tiles ht)⟩, h.lookup, h.view, h.queue⟩

theorem mem_queue_setRequestedTiles {sid' : Nat} (h : t ∈ (b.setRequestedTiles sid tiles).requestedTiles sid') :
    (sid' = sid ∧ t ∈ tiles) ∨ (sid' ≠ sid ∧ t ∈ b.requestedTiles sid') := by
  unfold setRequestedTiles at h
  split at h
  · rename_i hs
    refine .inr ⟨?_, h⟩
    rintro rfl
    unfold requestedTiles at h
    rw [hs] at h
    cases h
  · rename_i session hs
    have hkey : session.id = sid := Table.key_of_find hs
    unfold requestedTiles at h ⊢
    dsimp only at h
    rw [Table.find_put] at h
    by_cases hid : sid' = ClientSession.id { session with requestedTiles := tiles }
    · rw [if_pos hid] at h
      exact .inl ⟨hid.trans hkey, h⟩
    · rw [if_neg hid] at h
      exact .inr ⟨fun heq => hid (heq.trans hkey.symm), h⟩

/-- The queue of a session is changed to tiles that were in it. -/
theorem Kept.setRequestedTiles {rest : List TileDesc} (h : Kept p b b')
    (hrest : ∀ t ∈ rest, t ∈ b.requestedTiles sid) : Kept p b (b'.setRequestedTiles sid rest) := by
  refine ⟨by simpa using h.log, by simpa using h.lookup,
    fun sid' => (canonicalViewId_setRequestedTiles sid rest sid').trans (h.view sid'), fun sid' t ht => ?_⟩
  rcases mem_queue_setRequestedTiles ht with ⟨rfl, hmem⟩ | ⟨-, hmem⟩
  · exact hrest t hmem
  · exact h.queue sid' t hmem

theorem sendRequestedTiles_kept (sid now room : Nat) (hversion : (b.tileVersion : Int) + 1 ≤ intMax)
    (hqueue : ∀ t ∈ b.requestedTiles sid, Queued b.tileCache t) :
    Kept (Asked b.tileCache) b (b.sendRequestedTiles sid now room) := by
  have hstart : (SendLoop.mk b [] false true).Asks b := ⟨.refl, rfl, by simp, by simp⟩
  obtain ⟨hasks, hrest⟩ := sendLoop_asks hstart sid now room hqueue
  unfold sendRequestedTiles
  generalize sendLoop sid now room ⟨b, [], false, true⟩ (b.requestedTiles sid) = r at hasks hrest
  obtain ⟨s, rest⟩ := r
  dsimp only at hasks hrest ⊢
  have hkept : Kept (Asked b.tileCache) b (s.broker.setRequestedTiles sid rest) :=
    (hasks.kept.mono fun _ hfalse => hfalse.elim).setRequestedTiles hrest
  have hforced : ∀ t ∈ s.tilesNeedsRendering, Forced b.tileCache t ∧ 0 ≤ t.ver ∧ t.ver ≤ intMax := by
    intro t ht
    obtain ⟨hforced, hver⟩ := hasks.asked t ht
    refine ⟨hforced, ?_, ?_⟩ <;> rw [hver] <;> push_cast <;> omega
  split
  · exact hkept
  · rename_i hne
    split
    · rename_i hsame
      exact hkept.trans (.render (.of_forced (by simpa using hne) (hasks.same hsame) hforced))
    · refine hkept.trans (foldl_sendTileCombine_kept fun group hgroup => ?_)
      obtain ⟨⟨hnonempty, hparams⟩, hmem⟩ := groupTiles_spec s.tilesNeedsRendering group hgroup
      exact .of_forced hnonempty hparams fun t ht => hforced t (hmem t ht)

/-- What a combined request keeps, but for the queue of its session. -/
structure Handled (b b' : TileBroker) (sid : Nat) : Prop where
  log : ∃ new, b'.log = b.log ++ new ∧ ∀ tiles, .rendering tiles ∈ new → Asked b.tileCache tiles
  queue : ∀ sid', ∀ t ∈ b'.requestedTiles sid', t ∈ b.requestedTiles sid' ∨ (sid' = sid ∧ Ranged t)

theorem handleTileCombinedRequest_handled {canForceKeyframe : Bool} (sid now room : Nat)
    (hversion : (b.tileVersion : Int) + 2 ≤ intMax) (htiles : ∀ t ∈ tiles, Ranged t ∧ t.combineParams = params)
    (hqueue : ∀ t ∈ b.requestedTiles sid, Queued b.tileCache (t.setCanonicalViewId (b.canonicalViewId sid))) :
    Handled b (b.handleTileCombinedRequest tiles canForceKeyframe sid now room) sid := by
  unfold handleTileCombinedRequest
  extract_lets s b₁ b₂
  have hstart : (CombineLoop.mk b.bumpVersion [] []).Asks b.bumpVersion params := ⟨.refl, rfl, by simp, by simp⟩
  have hasks : s.Asks b.bumpVersion params := foldl_combineTile_asks hstart canForceKeyframe sid now htiles
  have hver : b.bumpVersion.tileVersion = b.tileVersion + 1 := rfl
  have hb₁ : Kept (Asked b.tileCache) b b₁ ∧ b₁.tileVersion = b.tileVersion + 1 := by
    have hloop : Kept (Asked b.tileCache) b s.broker := Kept.bump.trans (hasks.kept.mono fun _ hfalse => hfalse.elim)
    unfold b₁
    split
    · exact ⟨hloop, hasks.version⟩
    · rename_i hne
      refine ⟨hloop.trans (.render (.of_forced (by simpa using hne) (fun t ht t' ht' => ?_) fun t ht => ?_)),
        hasks.version⟩
      · exact (hasks.asked t ht).2.1.trans (hasks.asked t' ht').2.1.symm
      · obtain ⟨hforced, -, hver'⟩ := hasks.asked t ht
        refine ⟨hforced, ?_, ?_⟩ <;> rw [hver', hver] <;> push_cast <;> omega
  obtain ⟨hkept, hversion₁⟩ := hb₁
  have haccumulated : ∀ t ∈ accumulateTiles (b₁.canonicalViewId sid) (b₁.requestedTiles sid) s.tiles,
      Queued b.tileCache t := by
    rw [hkept.view]
    exact accumulateTiles_queued (fun t ht => hqueue t (hkept.queue sid t ht)) hasks.tiles
  have hcache : ∀ t, b₂.tileCache.lookupTile t = b.tileCache.lookupTile t := fun t => by
    rw [← hkept.lookup t]
    simp [b₂]
  have hmissing : ∀ t, missing b₂.tileCache t = missing b.tileCache t := fun t => by rw [missing, missing, hcache]
  have hqueue₂ : ∀ t ∈ b₂.requestedTiles sid, Queued b₂.tileCache t := by
    intro t ht
    rcases mem_queue_setRequestedTiles ht with ⟨-, hmem⟩ | ⟨hne, -⟩
    · obtain ⟨hranged, hold⟩ := haccumulated t hmem
      exact ⟨hranged, fun cached hcached => hold cached (by rwa [hcache] at hcached)⟩
    · exact absurd rfl hne
  have hversion₂ : (b₂.tileVersion : Int) + 1 ≤ intMax := by
    have : b₂.tileVersion = b₁.tileVersion := setRequestedTiles_version sid _
    rw [this, hversion₁]
    push_cast
    omega
  have hsent := sendRequestedTiles_kept sid now room hversion₂ hqueue₂
  constructor
  · obtain ⟨new, hnew, hasked⟩ := hkept.log
    obtain ⟨new', hnew', hasked'⟩ := hsent.log
    refine ⟨new ++ new', ?_, fun tiles ht => ?_⟩
    · rw [hnew', ← List.append_assoc, ← hnew]
      simp [b₂]
    · rcases List.mem_append.1 ht with ht | ht
      · exact hasked tiles ht
      · obtain ⟨hne, hparams, hisTile, hkeyframe⟩ := hasked' tiles ht
        exact ⟨hne, hparams, hisTile, fun t ht hmiss => hkeyframe t ht ((hmissing t).trans hmiss)⟩
  · intro sid' t ht
    rcases mem_queue_setRequestedTiles (hsent.queue sid' t ht) with ⟨hsid, hmem⟩ | ⟨-, hmem⟩
    · exact .inr ⟨hsid, (haccumulated t hmem).toRanged⟩
    · exact .inl (hkept.queue sid' t hmem)

/-! ### Runs -/

/-- A single request was parsed, and combined ones hold `int`s that the constructors admit; the view and the version
are `int`s as well. -/
def InInts (b : TileBroker) : Event → Prop
  | .tile sid tile _ => (∃ message, TileDesc.parse message = some tile) ∧
      (0 ≤ b.canonicalViewId sid ∧ b.canonicalViewId sid < intMax) ∧ (b.tileVersion : Int) + 1 ≤ intMax
  | .tilecombine sid tiles _ _ | .invalidation sid tiles _ _ => (∀ t ∈ tiles, Ranged t) ∧
      (0 ≤ b.canonicalViewId sid ∧ b.canonicalViewId sid ≤ intMax) ∧ (b.tileVersion : Int) + 2 ≤ intMax
  | .tileprocessed _ _ _ => (b.tileVersion : Int) + 1 ≤ intMax
  | _ => True

/-- A single request that is not answered from the cache does not carry an old wire id for a tile that is missing; and
when the queue of a session is handled, it holds no tile with an old wire id of which what is cached is not valid and
too large. -/
def ForcesKeyframes (b : TileBroker) : Event → Prop
  | .tile sid tile _ => (∀ cached ∈ b.tileCache.lookupTile (tile.setCanonicalViewId (b.canonicalViewId sid)),
      cached.isValid = false) → missing b.tileCache (tile.setCanonicalViewId (b.canonicalViewId sid)) = true →
        tile.oldWireId = 0
  | .tilecombine sid _ _ _ | .invalidation sid _ _ _ => ∀ t ∈ b.requestedTiles sid,
      ∀ cached ∈ b.tileCache.lookupTile (t.setCanonicalViewId (b.canonicalViewId sid)), cached.isValid = false →
        cached.tooLarge = true → t.oldWireId = 0
  | .tileprocessed sid _ _ => ∀ t ∈ b.requestedTiles sid, ∀ cached ∈ b.tileCache.lookupTile t,
    cached.isValid = false →
      cached.tooLarge = true → t.oldWireId = 0
  | _ => True

def QueuesRanged (b : TileBroker) : Prop := ∀ sid, ∀ t ∈ b.requestedTiles sid, Ranged t

theorem Ranged.setCanonicalViewId (h : Ranged t) {v : Int} (hv : 0 ≤ v ∧ v ≤ intMax) :
    Ranged (t.setCanonicalViewId v) := by
  obtain ⟨hview, hpart, hmode, hwidth, hheight, hx, hy, htileWidth, htileHeight, himg⟩ := h.admitted
  have hints := h.ints
  have hmin : -intMax - 1 ≤ (0 : Int) := by decide
  refine ⟨⟨hv.1, hpart, hmode, hwidth, hheight, hx, hy, htileWidth, htileHeight, himg⟩, ?_, h.wids⟩
  simp only [List.forall_mem_cons, List.not_mem_nil, false_imp_iff, implies_true, and_true,
    TileDesc.setCanonicalViewId]
    at hints ⊢
  exact ⟨⟨hmin.trans hv.1, hv.2⟩, hints.2⟩

theorem mem_requestedTiles : t ∈ b.requestedTiles sid ↔
    ∃ session, b.sessions.find sid = some session ∧ t ∈ session.requestedTiles := by
  unfold requestedTiles
  cases b.sessions.find sid <;> simp

theorem handleTileRequest_log (tile : TileDesc) (sid now : Nat) :
    ∃ new, (b.handleTileRequest tile true sid now).log = b.log ++ new ∧
      ∀ tiles, .rendering tiles ∈ new ↔
        tiles = [(tile.setCanonicalViewId (b.canonicalViewId sid)).setVersion (b.tileVersion + 1 : Nat)] ∧
          ∀ cached ∈ b.tileCache.lookupTile (tile.setCanonicalViewId (b.canonicalViewId sid)),
            cached.isValid = false := by
  unfold handleTileRequest
  extract_lets tile₁ b₁ tile₂ tileMsg b₂
  have hlog : b₂.log = b.log := by
    unfold b₂
    rw [if_pos rfl, log_resetTileSeq]
    rfl
  have hlookup : b₂.tileCache.lookupTile tile₂ = b.tileCache.lookupTile tile₁ := by
    unfold b₂
    rw [if_pos rfl, tileCache_resetTileSeq]
    rfl
  have hrender (t : TileDesc) : ∃ new, ((b₂.subscribe t sid now).note (.rendering [tileMsg])).log = b.log ++ new ∧
      ∀ tiles, .rendering tiles ∈ new ↔ tiles = [tileMsg] := by
    refine ⟨[.subscribed sid t (b₂.tileCache.findTileBeingRendered t), .rendering [tileMsg]], ?_, by simp⟩
    simp [subscribe, note, hlog]
  rw [← hlookup]
  split
  · rename_i cached hc
    split
    · rename_i hvalid
      obtain ⟨new, hnew, hsent⟩ := b₂.log_sendTileNow sid
        (if tile₂.wireId = 0 then tile₂.setWireId cached.lastWid else tile₂) cached
      refine ⟨new, by rw [hnew, hlog], fun tiles => ⟨fun ht => ?_, fun ⟨_, hinvalid⟩ => ?_⟩⟩
      · obtain ⟨isTile, payload, heq⟩ := hsent _ ht
        cases heq
      · rw [hinvalid cached hc] at hvalid
        cases hvalid
    · rename_i hinvalid
      obtain ⟨new, hnew, hmem⟩ := hrender (if cached.tooLarge then tile₂.forceKeyframe else tile₂)
      refine ⟨new, hnew, fun tiles => (hmem tiles).trans ⟨fun h => ⟨h, fun other hother => ?_⟩, fun h => h.1⟩⟩
      rw [hc] at hother
      obtain rfl := Option.some.inj hother
      simpa using hinvalid
  · rename_i hc
    obtain ⟨new, hnew, hmem⟩ := hrender tile₂.forceKeyframe
    refine ⟨new, hnew, fun tiles => (hmem tiles).trans ⟨fun h => ⟨h, fun other hother => ?_⟩, fun h => h.1⟩⟩
    rw [hc] at hother
    cases hother

/-- A single request asks for a keyframe of a missing tile exactly if it carries no old wire id. -/
theorem keyframes_tile {tile : TileDesc} (h : b.InInts (.tile sid tile now)) :
    Keyframes b (.tile sid tile now) (b.handleTileRequest tile true sid now) ↔
      b.ForcesKeyframes (.tile sid tile now) := by
  obtain ⟨⟨message, hmessage⟩, hview, hversion⟩ := h
  obtain ⟨hranged, hsmall⟩ := parse_ranged hmessage
  obtain ⟨new, hnew, hmem⟩ := b.handleTileRequest_log tile sid now
  have hsent : Ranged ((tile.setCanonicalViewId (b.canonicalViewId sid)).setVersion (b.tileVersion + 1 : Nat)) :=
    (hranged.setCanonicalViewId ⟨hview.1, hview.2.le⟩).setVersion _
  have hsmallSent : Small
      ((tile.setCanonicalViewId (b.canonicalViewId sid)).setVersion (b.tileVersion + 1 : Nat)) := by
    unfold Small at hsmall ⊢
    simp only [List.forall_mem_cons, List.not_mem_nil, false_imp_iff, implies_true, and_true,
      TileDesc.setCanonicalViewId, TileDesc.setVersion] at hsmall ⊢
    exact ⟨hview.2, hsmall.2⟩
  have hasks := asksKeyframes_single b.tileCache hsent hsmallSent
  constructor
  · rintro ⟨new', hnew', hall⟩ hinvalid
    obtain rfl : new' = new := List.append_cancel_left (hnew'.symm.trans hnew)
    exact hasks.1 (hall _ ((hmem _).2 ⟨rfl, hinvalid⟩))
  · intro hforces
    refine ⟨new, hnew, fun tiles ht => ?_⟩
    obtain ⟨rfl, hinvalid⟩ := (hmem tiles).1 ht
    exact hasks.2 (hforces hinvalid)

theorem combinable_params (h : combinable tiles = true) : ∃ params, ∀ t ∈ tiles, t.combineParams = params := by
  cases tiles with
  | nil => exact ⟨⟨0, 0, 0, 0, 0, 0, 0⟩, by simp⟩
  | cons first rest =>
    refine ⟨first.combineParams, fun t ht => ?_⟩
    simp only [combinable, Bool.and_eq_true, List.all_eq_true] at h
    obtain ⟨hpart, hmode, hwidth, hheight, htileWidth, htileHeight, hview⟩ :=
      TileDesc.sameTileCombineParams_iff.1 (h.1 t ht first List.mem_cons_self)
    simp [TileDesc.combineParams, *]

theorem Handled.keyframes (h : Handled b b' sid) (he : e.isSingle = false) : Keyframes b e b' := by
  obtain ⟨new, hnew, hasked⟩ := h.log
  exact ⟨new, hnew, fun tiles ht => he ▸ (hasked tiles ht).asksKeyframes⟩

theorem Kept.handled (h : Kept (Asked b.tileCache) b b') : Handled b b' sid :=
  ⟨h.log, fun sid' t ht => .inl (h.queue sid' t ht)⟩

theorem Keyframes.of_quiet (new : List TileLog) (hnew : b'.log = b.log ++ new)
    (hquiet : ∀ tiles, .rendering tiles ∉ new) :
    Keyframes b e b' := ⟨new, hnew, fun tiles ht => absurd ht (hquiet tiles)⟩

theorem foldl_sendTileNow_kept (desc : TileDesc) (tile : TileData) (sids : List Nat) :
    Kept p b (sids.foldl (fun b sid => b.sendTileNow sid desc tile) b) := by
  induction sids generalizing b with
  | nil => exact .refl
  | cons sid sids ih => exact (Kept.sendTileNow sid desc tile).trans ih

theorem saveTileAndNotify_log (desc : TileDesc) (data : List UInt8) :
    ∃ new, (b.saveTileAndNotify desc data).log = b.log ++ new ∧ ∀ tiles, .rendering tiles ∉ new := by
  unfold saveTileAndNotify
  generalize b.tileCache.saveDataToCache desc data = r
  obtain ⟨cache, tile⟩ := r
  cases b.tileCache.findTileBeingRendered desc with
  | none =>
    refine ⟨[_], rfl, fun tiles ht => ?_⟩
    have hentry := List.mem_singleton.1 ht
    split at hentry <;> cases hentry
  | some render =>
    cases tile with
    | none => exact ⟨[.discarded desc (some render)], rfl, by simp⟩
    | some tile =>
      obtain ⟨new, hnew, hquiet⟩ := (foldl_sendTileNow_kept (p := fun _ => False)
        (b := { b with tileCache := cache }.note (.stored desc data)) desc tile render.subscribers).log
      refine ⟨.stored desc data :: new, ?_, fun tiles ht => ?_⟩
      · exact hnew.trans (by simp [note])
      · rcases List.mem_cons.1 ht with heq | ht
        · cases heq
        · exact hquiet tiles ht

theorem handled_combined {canForceKeyframe : Bool} (hcombinable : combinable tiles = true)
    (hranged : ∀ t ∈ tiles, Ranged t) (hview : 0 ≤ b.canonicalViewId sid ∧ b.canonicalViewId sid ≤ intMax)
    (hversion : (b.tileVersion : Int) + 2 ≤ intMax)
    (hqueues : b.QueuesRanged)
    (hforces : ∀ t ∈ b.requestedTiles sid,
    ∀ cached ∈ b.tileCache.lookupTile (t.setCanonicalViewId (b.canonicalViewId sid)),
      cached.isValid = false → cached.tooLarge = true → t.oldWireId = 0) :
    Handled b (b.handleTileCombinedRequest tiles canForceKeyframe sid now room) sid := by
  obtain ⟨params, hparams⟩ := combinable_params hcombinable
  exact handleTileCombinedRequest_handled sid now room hversion (fun t ht => ⟨hranged t ht, hparams t ht⟩)
    fun t ht => ⟨(hqueues sid t ht).setCanonicalViewId hview, hforces t ht⟩

theorem ranged_invalidTiles {view : Int} (hview : 0 ≤ view ∧ view ≤ intMax) (h : ∀ t ∈ tiles, Ranged t) :
    ∀ t ∈ b.invalidTiles (tiles.map fun t => t.setCanonicalViewId view), Ranged t := by
  intro t ht
  obtain ⟨t', ht', rfl⟩ := List.mem_map.1 ht
  obtain ⟨t'', ht'', rfl⟩ := List.mem_map.1 ht'
  have hranged := (h t'' ht'').setCanonicalViewId hview
  refine ⟨hranged.admitted, hranged.ints, ?_, by norm_num [TileDesc.setWireId]⟩
  simp only [TileDesc.setWireId, TileDesc.setOldWireId]
  split <;> norm_num

/-- A step that meets the condition asks for keyframes of what is missing. -/
theorem step_keyframes (hqueues : b.QueuesRanged) (hints : b.InInts e) (hforces : b.ForcesKeyframes e)
    (hs : step b e = some b') : Keyframes b e b' := by
  cases e with
  | tile sid tile now =>
    obtain ⟨-, hs⟩ := Option.ite_none_right_eq_some.1 hs
    obtain rfl := Option.some.inj hs
    exact (keyframes_tile hints).2 hforces
  | tilecombine sid tiles now room =>
    obtain ⟨hok, hs⟩ := Option.ite_none_right_eq_some.1 hs
    obtain rfl := Option.some.inj hs
    obtain ⟨hranged, hview, hversion⟩ := hints
    refine (handled_combined (Bool.and_eq_true_iff.1 hok).2 (fun t ht => ?_) hview hversion hqueues hforces).keyframes
      rfl
    obtain ⟨t', ht', rfl⟩ := List.mem_map.1 ht
    exact (hranged t' ht').setCanonicalViewId hview
  | invalidation sid tiles now room =>
    obtain ⟨hok, hs⟩ := Option.ite_none_right_eq_some.1 hs
    obtain rfl := Option.some.inj hs
    obtain ⟨hranged, hview, hversion⟩ := hints
    exact (handled_combined (Bool.and_eq_true_iff.1 hok).2 (ranged_invalidTiles hview hranged) hview hversion hqueues
      hforces).keyframes rfl
  | tileprocessed sid now room =>
    obtain ⟨-, hs⟩ := Option.ite_none_right_eq_some.1 hs
    obtain rfl := Option.some.inj hs
    have hkept := sendRequestedTiles_kept sid now room hints fun t ht => ⟨hqueues sid t ht, hforces t ht⟩
    have hhandled : Handled b (b.sendRequestedTiles sid now room) sid := hkept.handled
    exact hhandled.keyframes rfl
  | reply desc data =>
    obtain ⟨-, hs⟩ := Option.ite_none_right_eq_some.1 hs
    obtain rfl := Option.some.inj hs
    obtain ⟨new, hnew, hquiet⟩ := b.saveTileAndNotify_log desc data
    exact .of_quiet new hnew hquiet
  | closes sid =>
    obtain ⟨session, -, rfl⟩ := Option.map_eq_some_iff.1 hs
    exact .of_quiet [] (by simp) (by simp)
  | setCanonicalViewId sid canonicalViewId =>
    obtain ⟨session, -, rfl⟩ := Option.map_eq_some_iff.1 hs
    exact .of_quiet [] (by simp) (by simp)
  | joins canonicalViewId =>
    obtain rfl := Option.some.inj hs
    exact .of_quiet [] (by simp) (by simp)
  | leaves sid =>
    obtain rfl := Option.some.inj hs
    exact .of_quiet [] (by simp) (by simp)
  | invalidatetiles intersects =>
    obtain rfl := Option.some.inj hs
    exact .of_quiet [] (by simp) (by simp)
  | setMaxCacheSize cacheSize =>
    obtain rfl := Option.some.inj hs
    exact .of_quiet [] (by simp) (by simp)

theorem handleTileRequest_kept (tile : TileDesc) (sid now : Nat) :
    Kept (fun _ => True) b (b.handleTileRequest tile true sid now) := by
  unfold handleTileRequest
  extract_lets tile₁ b₁ tile₂ tileMsg b₂
  have hb₂ : Kept (fun _ => True) b b₂ := Kept.bump.trans (.resetTileSeq sid tile₂)
  have hrender (t : TileDesc) : Kept (fun _ => True) b ((b₂.subscribe t sid now).note (.rendering [tileMsg])) :=
    (hb₂.trans (.subscribe t sid now)).trans (.render True.intro)
  split
  · split
    · exact hb₂.trans (.sendTileNow _ _ _)
    · exact hrender _
  · exact hrender _

theorem QueuesRanged.kept (h : b.QueuesRanged) (hkept : Kept p b b') : b'.QueuesRanged :=
  fun sid t ht => h sid t (hkept.queue sid t ht)

theorem QueuesRanged.handled (h : b.QueuesRanged) (hhandled : Handled b b' sid) : b'.QueuesRanged := by
  intro sid' t ht
  rcases hhandled.queue sid' t ht with hold | ⟨-, hranged⟩
  · exact h sid' t hold
  · exact hranged

/-- A session is put back with tiles of its queue, or none. -/
theorem QueuesRanged.put (h : b.QueuesRanged) {session : ClientSession} (nextSession : Nat)
    (hsession : ∀ t ∈ session.requestedTiles, Ranged t) :
    QueuesRanged { b with sessions := b.sessions.put session, nextSession := nextSession } := by
  intro sid t ht
  obtain ⟨found, hfound, hmem⟩ := mem_requestedTiles.1 ht
  rw [Table.find_put] at hfound
  split at hfound
  · obtain rfl := Option.some.inj hfound
    exact hsession t hmem
  · exact h sid t (mem_requestedTiles.2 ⟨found, hfound, hmem⟩)

theorem step_queues (h : b.QueuesRanged) (hints : b.InInts e) (hforces : b.ForcesKeyframes e)
    (hs : step b e = some b') : b'.QueuesRanged := by
  cases e with
  | tile sid tile now =>
    obtain ⟨-, hs⟩ := Option.ite_none_right_eq_some.1 hs
    obtain rfl := Option.some.inj hs
    exact h.kept (handleTileRequest_kept tile sid now)
  | tilecombine sid tiles now room =>
    obtain ⟨hok, hs⟩ := Option.ite_none_right_eq_some.1 hs
    obtain rfl := Option.some.inj hs
    obtain ⟨hranged, hview, hversion⟩ := hints
    refine h.handled (handled_combined (Bool.and_eq_true_iff.1 hok).2 (fun t ht => ?_) hview hversion h hforces)
    obtain ⟨t', ht', rfl⟩ := List.mem_map.1 ht
    exact (hranged t' ht').setCanonicalViewId hview
  | invalidation sid tiles now room =>
    obtain ⟨hok, hs⟩ := Option.ite_none_right_eq_some.1 hs
    obtain rfl := Option.some.inj hs
    obtain ⟨hranged, hview, hversion⟩ := hints
    exact h.handled
      (handled_combined (Bool.and_eq_true_iff.1 hok).2 (ranged_invalidTiles hview hranged) hview hversion h hforces)
  | tileprocessed sid now room =>
    obtain ⟨-, hs⟩ := Option.ite_none_right_eq_some.1 hs
    obtain rfl := Option.some.inj hs
    exact h.kept (sendRequestedTiles_kept sid now room hints fun t ht => ⟨h sid t ht, hforces t ht⟩)
  | reply desc data =>
    obtain ⟨-, hs⟩ := Option.ite_none_right_eq_some.1 hs
    obtain rfl := Option.some.inj hs
    intro sid t ht
    rw [requestedTiles_saveTileAndNotify] at ht
    exact h sid t ht
  | closes sid =>
    obtain ⟨session, hfind, rfl⟩ := Option.map_eq_some_iff.1 hs
    exact h.put b.nextSession fun t ht => h sid t (mem_requestedTiles.2 ⟨session, hfind, ht⟩)
  | setCanonicalViewId sid canonicalViewId =>
    obtain ⟨session, hfind, rfl⟩ := Option.map_eq_some_iff.1 hs
    exact h.put b.nextSession fun t ht => h sid t (mem_requestedTiles.2 ⟨session, hfind, ht⟩)
  | joins canonicalViewId =>
    obtain rfl := Option.some.inj hs
    exact h.put (b.nextSession + 1) (by simp)
  | leaves sid =>
    obtain rfl := Option.some.inj hs
    intro sid' t ht
    obtain ⟨session, hfind, hmem⟩ := mem_requestedTiles.1 ht
    by_cases hsid : sid' = sid
    · subst hsid
      rw [Table.find_erase_self] at hfind
      cases hfind
    · rw [Table.find_erase_of_ne hsid] at hfind
      exact h sid' t (mem_requestedTiles.2 ⟨session, hfind, hmem⟩)
  | invalidatetiles intersects =>
    obtain rfl := Option.some.inj hs
    exact h
  | setMaxCacheSize cacheSize =>
    obtain rfl := Option.some.inj hs
    exact h

/-- In every run whose steps meet the condition, each step asks for keyframes of what is missing; a single request
does exactly if it meets the condition. -/
theorem keyframes_asked {dontCache : Bool}
    (h : Run.Reachable (· = initial dontCache) step (fun b e => b.InInts e ∧ b.ForcesKeyframes e) b)
    (hints : b.InInts e) (hs : step b e = some b') : (b.ForcesKeyframes e → Keyframes b e b') ∧
      (∀ sid tile now, e = .tile sid tile now → Keyframes b e b' → b.ForcesKeyframes e) := by
  have hqueues : b.QueuesRanged := by
    refine h.invariant QueuesRanged ?_ fun b e b' _ hb hok hs => step_queues hb hok.1 hok.2 hs
    rintro b rfl sid t ht
    obtain ⟨session, hfind, -⟩ := mem_requestedTiles.1 ht
    cases hfind
  refine ⟨fun hforces => step_keyframes hqueues hints hforces hs, ?_⟩
  rintro sid tile now rfl hkeyframes
  obtain ⟨-, hs⟩ := Option.ite_none_right_eq_some.1 hs
  obtain rfl := Option.some.inj hs
  exact (keyframes_tile hints).1 hkeyframes

/-- A tile request with old wire id `oldWireId` for a tile that is not cached. -/
def rerequested (oldWireId : Nat) : TileDesc := ⟨⟨0, 0, 0, 256, 256, 0, 0, 3840, 3840⟩, -1, 0, -1, oldWireId, 0⟩

theorem rerequested_inInts {oldWireId : Nat} (h : ∃ message, TileDesc.parse message = some (rerequested oldWireId))
    {b : TileBroker} (hview : b.canonicalViewId 0 = 0) (hversion : b.tileVersion = 0) :
    b.InInts (.tile 0 (rerequested oldWireId) 0) := by
  refine ⟨h, ?_, ?_⟩
  · simp [hview, intMax]
  · simp [hversion, intMax]

/-- The tile at `tilePosX` of a combined request. -/
def askedTile (tilePosX : Int) (oldWireId : Nat) : TileDesc :=
  ⟨⟨0, 0, 0, 256, 256, tilePosX, 0, 3840, 3840⟩, -1, 0, -1, oldWireId, 0⟩

theorem askedTile_ranged {tilePosX : Int} {oldWireId : Nat} (hx : tilePosX ∈ [(0 : Int), 3840])
    (hwid : oldWireId < 2 ^ 32) : Ranged (askedTile tilePosX oldWireId) := by
  simp only [List.mem_cons, List.not_mem_nil, or_false] at hx
  obtain rfl | rfl := hx
  · have hranged : Ranged (askedTile 0 0) := ⟨by decide, by decide, by decide, by decide⟩
    exact ⟨hranged.admitted, hranged.ints, hwid, hranged.wids.2⟩
  · have hranged : Ranged (askedTile 3840 0) := ⟨by decide, by decide, by decide, by decide⟩
    exact ⟨hranged.admitted, hranged.ints, hwid, hranged.wids.2⟩

/-- Two tiles are rendered, the first one is evicted, and the session asks for deltas to both. -/
def evictedTile : List Event :=
  [.joins 0, .tilecombine 0 [askedTile 0 0, askedTile 3840 0] 0 10,
    .reply (((askedTile 0 0).setVersion 1).setWireId 5) [90, 1],
    .reply (((askedTile 3840 0).setVersion 1).setWireId 6) [90, 2], .setMaxCacheSize 100,
      .invalidatetiles fun _ => true]

/-- The condition on the steps of such a run, evaluated. -/
def combinesAsked (b : TileBroker) : Event → Bool
  | .tilecombine sid tiles _ _ => (tiles.all fun t => t == askedTile t.tilePosX t.oldWireId &&
      [0, 3840].contains t.tilePosX && t.oldWireId < 2 ^ 32) && b.canonicalViewId sid == 0 && b.tileVersion < 100 &&
      (b.requestedTiles sid).isEmpty
  | .joins _ | .reply _ _ | .setMaxCacheSize _ | .invalidatetiles _ => true
  | _ => false

theorem of_combinesAsked (h : b.combinesAsked e = true) : b.InInts e ∧ b.ForcesKeyframes e := by
  cases e with
  | tilecombine sid tiles now room =>
    simp only [combinesAsked, Bool.and_eq_true, List.all_eq_true, beq_iff_eq, decide_eq_true_eq,
      List.contains_iff_mem, List.isEmpty_iff] at h
    obtain ⟨⟨⟨htiles, hview⟩, hversion⟩, hqueue⟩ := h
    refine ⟨⟨fun t ht => ?_, ?_, ?_⟩, fun t ht => ?_⟩
    · obtain ⟨⟨hasked, hx⟩, hwid⟩ := htiles t ht
      rw [hasked]
      exact askedTile_ranged hx hwid
    · simp [hview, intMax]
    · simp only [intMax]
      omega
    · rw [hqueue] at ht
      cases ht
  | joins | reply | setMaxCacheSize | invalidatetiles => exact ⟨True.intro, True.intro⟩
  | _ => cases h

/-- The kit is asked for a keyframe of the evicted tile, and for a delta of the other one. -/
theorem keyframes_asked_evictedTile : ∃ b b', b.tileCache.lookupTile (askedTile 0 5) = none ∧
    step b (.tilecombine 0 [askedTile 0 5, askedTile 3840 6] 0 10) = some b' ∧
    (b'.log.any fun entry => match entry with
      | .rendering tiles => tiles.map TileDesc.oldWireId == [0, 6]
      | _ => false) = true ∧
    Keyframes b (.tilecombine 0 [askedTile 0 5, askedTile 3840 6] 0 10) b' := by
  obtain ⟨b, hr, hb⟩ : ∃ b, Run.Reachable (· = initial false) (Run.guarded step combinesAsked) Run.Any b ∧
      ((b.tileCache.lookupTile (askedTile 0 5)).isNone &&
        b.combinesAsked (.tilecombine 0 [askedTile 0 5, askedTile 3840 6] 0 10) &&
        (step b (.tilecombine 0 [askedTile 0 5, askedTile 3840 6] 0 10)).any fun b' =>
          b'.log.any fun entry => match entry with
            | .rendering tiles => tiles.map TileDesc.oldWireId == [0, 6]
            | _ => false) = true :=
    Run.Reachable.exists_of_run (initial false) evictedTile rfl (by decide +kernel)
  simp only [Bool.and_eq_true, Option.isNone_iff_eq_none, Option.any_eq_true] at hb
  obtain ⟨⟨hnone, hasked⟩, b', hs, hlog⟩ := hb
  have hok := of_combinesAsked hasked
  have hreach : Run.Reachable (· = initial false) step (fun b e => b.InInts e ∧ b.ForcesKeyframes e) b :=
    hr.of_guarded fun _ _ => of_combinesAsked
  exact ⟨b, b', hnone, hs, hlog, (keyframes_asked hreach hok.1 hs).1 hok.2⟩

/-- The text of a single request is written before the keyframe is forced: a tile that was evicted is asked for as a
delta. -/
theorem not_keyframes_asked : ¬ ∀ (dontCache : Bool) (b b' : TileBroker) (e : Event),
    Run.Reachable (· = initial dontCache) step InInts b → b.InInts e → step b e = some b' → Keyframes b e b' := by
  intro hall
  obtain ⟨b, hb, hview, hversion, hcache⟩ : ∃ b, step (initial false) (.joins 0) = some b ∧ b.canonicalViewId 0 = 0 ∧
      b.tileVersion = 0 ∧ ∀ t, b.tileCache.lookupTile t = none := ⟨_, rfl, rfl, rfl, fun _ => rfl⟩
  obtain ⟨b', hb'⟩ : ∃ b', step b (.tile 0 (rerequested 7) 0) = some b' := by
    obtain rfl := Option.some.inj hb
    exact ⟨_, rfl⟩
  have hmessage : ∃ message, TileDesc.parse message = some (rerequested 7) :=
    ⟨"tile part=0 width=256 height=256 tileposx=0 tileposy=0 tilewidth=3840 tileheight=3840 oldwid=7".toList,
      by decide +kernel⟩
  have hints : b.InInts (.tile 0 (rerequested 7) 0) := rerequested_inInts hmessage hview hversion
  have hkeyframes :=
    hall false b b' (.tile 0 (rerequested 7) 0) (.next (e := .joins 0) (.start rfl) True.intro hb) hints hb'
  obtain ⟨-, hs⟩ := Option.ite_none_right_eq_some.1 hb'
  obtain rfl := Option.some.inj hs
  have hforces := (keyframes_tile hints).1 hkeyframes
  have hseven : (rerequested 7).oldWireId = 0 := hforces (by simp [hcache]) (by simp [missing, hcache])
  cases hseven

end TileBroker

end CollaboraOnline
