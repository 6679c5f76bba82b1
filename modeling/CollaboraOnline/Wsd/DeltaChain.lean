import Mathlib.Data.List.GetD
import Mathlib.Data.List.TakeWhile
import CollaboraOnline.Lib.FrameChain
import CollaboraOnline.Wsd.TileMoves

/-!
# The chain of deltas from the server to a client

The replies of the kit for a tile form a chain of frames, `TileData` holds the current chain, and a client holds what
it was sent: a `tile:` message replaces its data, a `delta:` message is appended.  If the wire ids of the replies grow
and requests carry no wire id of their own, then every client holds the chain at the wire id it was last sent.
-/

namespace CollaboraOnline

abbrev TileFrame := Frame Nat UInt8

/-! ### The data of a tile -/

/-- The blobs hold a chain of frames: the bytes after each wire id are the payloads of the later frames. -/
structure TileBlobs.Holds (b : TileBlobs) (c : List TileFrame) : Prop where
  sorted : b.wids.Pairwise (· < ·)
  pos : ∀ w ∈ b.wids, 0 < w
  head : b.wids.head? = c.head?.map Frame.version
  last : b.wids.getLast? = c.getLast?.map Frame.version
  deltas : b.deltas = Frame.data c
  ordered : Frame.Ordered c
  since : ∀ w, (if (b.wids.takeWhile (· ≤ w)).length < b.wids.length then
    b.deltas.drop (b.offsets.getD (b.wids.takeWhile (· ≤ w)).length 0) else []) = Frame.data (Frame.after w c)

namespace TileBlobs

/-- The frame that `appendBlob` adds. -/
def frame (id : Nat) (data : List UInt8) : TileFrame := ⟨id, isKeyframe data, data.tail⟩

/-- How many of the wire ids are at most `w`, when they are sorted. -/
private theorem length_takeWhile_concat (l : List Nat) (id w : Nat) :
    ((l ++ [id]).takeWhile (· ≤ w)).length =
      if l.takeWhile (· ≤ w) = l then l.length + (if id ≤ w then 1 else 0) else (l.takeWhile (· ≤ w)).length := by
  rw [List.takeWhile_append]
  by_cases h : l.takeWhile (· ≤ w) = l
  · rw [if_pos (by rw [h]), if_pos h, List.length_append]
    by_cases hid : id ≤ w
    · simp [hid]
    · simp [hid]
  · have hlt : (l.takeWhile (· ≤ w)).length ≠ l.length :=
      fun heq => h ((List.takeWhile_prefix _).eq_of_length heq)
    rw [if_neg hlt, if_neg h]

private theorem length_takeWhile_lt {l : List Nat} {w : Nat} (h : l.takeWhile (· ≤ w) ≠ l) :
    (l.takeWhile (· ≤ w)).length < l.length :=
  lt_of_le_of_ne (List.takeWhile_prefix _).length_le fun heq => h ((List.takeWhile_prefix _).eq_of_length heq)

private theorem exists_gt_of_takeWhile_ne {l : List Nat} {w : Nat} (h : l.takeWhile (· ≤ w) ≠ l) :
    ∃ x ∈ l, w < x := by
  by_contra hno
  push Not at hno
  exact h (List.takeWhile_eq_self_iff.2 (by simpa using hno))

variable {b : TileBlobs} {c : List TileFrame} {id : Nat} {data : List UInt8}

private theorem Holds.wids_le_last (h : b.Holds c) {last : Nat} (hlast : b.wids.getLast? = some last) :
    ∀ w ∈ b.wids, w ≤ last := by
  obtain ⟨l, hl⟩ := List.getLast?_eq_some_iff.1 hlast
  intro w hw
  have hsorted := h.sorted
  rw [hl, List.pairwise_append] at hsorted
  rw [hl] at hw
  rcases List.mem_append.1 hw with hw | hw
  · exact (hsorted.2.2 w hw last (List.mem_singleton_self last)).le
  · exact (List.mem_singleton.1 hw).le

/-- A wire id after all frames is after all wire ids of the blobs. -/
private theorem Holds.wids_lt (h : b.Holds c) (hid : ∀ f ∈ c, f.version < id) : ∀ w ∈ b.wids, w < id := by
  intro w hw
  cases hlast : c.getLast? with
  | none =>
    have hnil : b.wids = [] := by simpa [hlast] using h.last
    simp [hnil] at hw
  | some f =>
    have hw' := h.wids_le_last (by rw [h.last, hlast]; rfl) w hw
    exact hw'.trans_lt (hid f (List.mem_of_getLast? hlast))

theorem holds_empty : empty.Holds [] :=
  ⟨List.Pairwise.nil, by simp [empty], rfl, rfl, rfl, List.Pairwise.nil,
  fun w => by simp [empty, Frame.after, Frame.data]⟩

private theorem after_concat (w : Nat) (f : TileFrame) :
    Frame.after w (c ++ [f]) = Frame.after w c ++ if w < f.version then [f] else [] := by
  rw [Frame.after_append]
  by_cases hw : w < f.version
  · simp [Frame.after, hw]
  · simp [Frame.after, hw]

/-- An empty delta after an empty delta takes over its place. -/
private theorem Holds.bump (hwf : b.WellFormed) (h : b.Holds c) (hid : ∀ f ∈ c, f.version < id)
    (hlen : data.length = 1) (hoffsets : 1 < b.offsets.length) (hlast : b.offsets.getLast? = some b.deltas.length) :
    ({ b with wids := b.wids.dropLast ++ [id] } : TileBlobs).Holds (c ++ [frame id data]) := by
  have hwids := h.wids_lt hid
  have hne : b.wids ≠ [] := by
    rintro hnil
    have hlength := hwf.length_offsets
    rw [hnil, List.length_nil] at hlength
    omega
  obtain ⟨l, x, hl⟩ : ∃ l x, b.wids = l ++ [x] := ⟨_, _, (List.dropLast_concat_getLast hne).symm⟩
  have hoff : b.offsets.length = l.length + 1 := by rw [hwf.length_offsets, hl]; simp
  have hdrop : b.wids.dropLast = l := by rw [hl, List.dropLast_concat]
  have hpayload : (frame id data).payload = [] := by
    obtain ⟨d, rfl⟩ := List.length_eq_one_iff.1 hlen
    rfl
  have hx : x < id := hwids x (by simp [hl])
  have hl' : ∀ y ∈ l, y < id := fun y hy => hwids y (by simp [hl, hy])
  have hatlast : b.offsets.getD l.length 0 = b.deltas.length := by
    rw [List.getLast?_eq_getElem?, hoff] at hlast
    simp [List.getD_eq_getElem?_getD] at hlast ⊢
    simp [hlast]
  rw [hdrop]
  refine ⟨?_, ?_, ?_, ?_, ?_, ?_, ?_⟩
  · have hsorted := h.sorted
    rw [hl, List.pairwise_append] at hsorted
    exact List.pairwise_append.2 ⟨hsorted.1, List.pairwise_singleton _ _, by simpa using hl'⟩
  · intro w hw
    rcases List.mem_append.1 hw with hw | hw
    · exact h.pos w (by simp [hl, hw])
    · rw [List.mem_singleton.1 hw]
      omega
  · cases l with
    | nil => simp at hoff; omega
    | cons y l =>
      have hhead := h.head
      rw [hl] at hhead
      cases c with
      | nil => simp at hhead
      | cons f c => simpa using hhead
  · simp [frame]
  · rw [Frame.data_append, Frame.data_singleton, hpayload, List.append_nil, h.deltas]
  · exact Frame.ordered_concat.2 ⟨h.ordered, hid⟩
  · intro w
    have hold := h.since w
    rw [hl, length_takeWhile_concat] at hold
    rw [after_concat, Frame.data_append, ← hold, length_takeWhile_concat]
    have hnew : Frame.data (if w < (frame id data).version then [frame id data] else []) = [] := by
      split <;> simp [hpayload, Frame.data]
    rw [hnew, List.append_nil]
    simp only [List.length_append, List.length_singleton]
    by_cases hall : l.takeWhile (· ≤ w) = l
    · simp only [if_pos hall]
      by_cases hxw : x ≤ w
      · -- everything before the bumped delta was sent already
        rw [if_pos hxw, if_neg (lt_irrefl _)]
        by_cases hidw : id ≤ w
        · rw [if_pos hidw, if_neg (lt_irrefl _)]
        · rw [if_neg hidw, if_pos (by omega), Nat.add_zero, hatlast, List.drop_length]
      · rw [if_neg hxw, if_neg (fun h : id ≤ w => hxw (by omega))]
    · simp only [if_neg hall]

private theorem Holds.append (hwf : b.WellFormed) (h : b.Holds c) (hid : ∀ f ∈ c, f.version < id) (hpos : 0 < id)
    (data : List UInt8) :
    (TileBlobs.mk (b.wids ++ [id]) (b.offsets ++ [b.deltas.length]) (b.deltas ++ data.tail)).Holds
      (c ++ [frame id data]) := by
  have hwids := h.wids_lt hid
  refine ⟨?_, ?_, ?_, by simp [frame], ?_, Frame.ordered_concat.2 ⟨h.ordered, hid⟩, ?_⟩
  · exact List.pairwise_append.2 ⟨h.sorted, List.pairwise_singleton _ _, by simpa using hwids⟩
  · intro w hw
    rcases List.mem_append.1 hw with hw | hw
    · exact h.pos w hw
    · rwa [List.mem_singleton.1 hw]
  · rw [List.head?_append, List.head?_append, h.head]
    cases c <;> simp [frame]
  · rw [Frame.data_append, Frame.data_singleton, h.deltas]
    rfl
  · intro w
    have hold := h.since w
    rw [after_concat, Frame.data_append, ← hold, length_takeWhile_concat]
    simp only [List.length_append, List.length_singleton]
    have hversion : (frame id data).version = id := rfl
    by_cases hall : b.wids.takeWhile (· ≤ w) = b.wids
    · rw [if_pos hall, hall, if_neg (lt_irrefl _), List.nil_append, hversion]
      by_cases hidw : id ≤ w
      · rw [if_pos hidw, if_neg (lt_irrefl _), if_neg (by omega)]
        rfl
      · have hoffset : (b.offsets ++ [b.deltas.length]).getD (b.wids.length + 0) 0 = b.deltas.length := by
          rw [Nat.add_zero, ← hwf.length_offsets]
          simp [List.getD_eq_getElem?_getD]
        rw [if_neg hidw, if_pos (by omega), hoffset, List.drop_left, if_pos (by omega), Frame.data_singleton]
        rfl
    · have hlt := length_takeWhile_lt hall
      obtain ⟨x, hx, hxw⟩ := exists_gt_of_takeWhile_ne hall
      have hxid := hwids x hx
      rw [if_neg hall, if_pos (by omega), if_pos hlt, hversion, if_pos (by omega), Frame.data_singleton]
      have hlt' : (b.wids.takeWhile (· ≤ w)).length < b.offsets.length := by rwa [hwf.length_offsets]
      have hoffset : (b.offsets ++ [b.deltas.length]).getD (b.wids.takeWhile (· ≤ w)).length 0 =
          b.offsets.getD (b.wids.takeWhile (· ≤ w)).length 0 := by
        simp only [List.getD_eq_getElem?_getD, List.getElem?_append_left hlt']
      have hbound : b.offsets.getD (b.wids.takeWhile (· ≤ w)).length 0 ≤ b.deltas.length := by
        rw [List.getD_eq_getElem _ _ hlt']
        exact hwf.bounded _ (List.getElem_mem hlt')
      rw [hoffset, List.drop_append_of_le_length hbound]
      rfl

theorem Holds.push (hwf : b.WellFormed) (h : b.Holds c) (hid : ∀ f ∈ c, f.version < id) (hpos : 0 < id)
    (data : List UInt8) : (b.push id data).Holds (c ++ [frame id data]) := by
  unfold TileBlobs.push
  split
  · rename_i hbump
    simp only [Bool.and_eq_true, beq_iff_eq, decide_eq_true_eq] at hbump
    exact h.bump hwf hid hbump.1.1 hbump.1.2 hbump.2
  · exact h.append hwf hid hpos data

/-- Appending a blob continues the chain of frames. -/
theorem Holds.appendBlob {fs : List TileFrame} (hwf : b.WellFormed) (h : b.Holds (Frame.chain fs))
    (hid : ∀ f ∈ fs, f.version < id) (hpos : 0 < id) (data : List UInt8) :
    (b.appendBlob id data).Holds (Frame.chain (fs ++ [frame id data])) := by
  rw [Frame.chain_concat]
  unfold TileBlobs.appendBlob
  cases hk : isKeyframe data with
  | true =>
    have := holds_empty.push empty_wellFormed (by simp) hpos data
    simpa [frame, hk] using this
  | false =>
    have := h.push hwf (fun f hf => hid f (Frame.chain_suffix.subset hf)) hpos data
    simpa [frame, hk] using this

end TileBlobs

namespace TileData

variable {tile : TileData} {c : List TileFrame}

theorem lastWid_eq (tile : TileData) : tile.blobs.wids.getLast? = some tile.lastWid :=
  List.getLast?_eq_some_getLast tile.wids_ne_nil

theorem appendChangesSince_eq (h : tile.blobs.Holds c) (since : Nat) :
    (tile.appendChangesSince since).getD [] = Frame.data (Frame.after since c) := by
  -- for 0 the loop is not entered, and no wire id is 0
  have hcount : (if since = 0 then 0 else (tile.blobs.wids.takeWhile (· ≤ since)).length) =
      (tile.blobs.wids.takeWhile (· ≤ since)).length := by
    split
    · rename_i hzero
      cases hw : tile.blobs.wids with
      | nil => rfl
      | cons w wids =>
        have := h.pos w (by simp [hw])
        rw [List.takeWhile_cons_of_neg (by simp; omega)]
        rfl
    · rfl
  rw [← h.since since]
  unfold appendChangesSince
  dsimp only
  rw [hcount]
  split
  · rename_i hge
    rw [if_neg (by omega)]
    rfl
  · rename_i hlt
    rw [if_pos (by omega)]
    rfl

theorem needsKeyframe_eq (h : tile.blobs.Holds c) {f : TileFrame} (hf : c.head? = some f) (since : Nat) :
    tile.needsKeyframe since = decide (since < f.version) := by
  have hhead := h.head
  rw [hf, List.head?_eq_some_head tile.wids_ne_nil] at hhead
  simp only [needsKeyframe, Option.some.inj hhead]

end TileData

/-! ### Clients -/

/-- What a client holds of a tile: its blobs and the wire id it was last sent. -/
structure ClientTile where
  blobs : List UInt8
  wid : Option Nat
deriving DecidableEq

/-- A `tile:` message replaces the blobs and a `delta:` message is appended to them. -/
def ClientTile.receive (sid : Nat) (key : TileKey) (client : ClientTile) : TileLog → ClientTile
  | .sent session isTile desc payload =>
    if session = sid ∧ desc.key = key then
      ⟨if isTile then payload else client.blobs ++ payload, some desc.wireId⟩
    else client
  | _ => client

/-- The frame that was stored for the tile. -/
def TileLog.frame (key : TileKey) : TileLog → Option TileFrame
  | .stored desc data => if desc.key = key then some (TileBlobs.frame desc.wireId data) else none
  | _ => none

namespace TileBroker

/-- What the client of a session holds of a tile. -/
def client (b : TileBroker) (sid : Nat) (key : TileKey) : ClientTile :=
  b.log.foldl (ClientTile.receive sid key) ⟨[], none⟩

/-- The frames of a tile that were stored. -/
def frames (b : TileBroker) (key : TileKey) : List TileFrame := b.log.filterMap (TileLog.frame key)

/-- Every client holds the chain of frames at the wire id it was last sent. -/
def HoldsChain (b : TileBroker) : Prop :=
  ∀ sid key w, (b.client sid key).wid = some w →
    (b.client sid key).blobs = Frame.data (Frame.chain (Frame.upTo w (b.frames key)))

/-- What the broker believes it last sent to an open session, 0 if nothing. -/
def trackedWid (b : TileBroker) (sid : Nat) (key : TileKey) : Nat :=
  match b.sessions.find sid with
  | none => 0
  | some session => if session.closeFrame then 0 else ((session.tracker.find key).map TileDesc.wireId).getD 0

/-- The cache, the trackers and the clients are in step. -/
structure InStep (b : TileBroker) : Prop where
  caches : b.tileCache.dontCache = false
  ordered : ∀ key, Frame.Ordered (b.frames key)
  pos : ∀ key, ∀ f ∈ b.frames key, 0 < f.version
  tile : ∀ key e, b.tileCache.cache.find key = some e → e.tile.blobs.Holds (Frame.chain (b.frames key))
  tracked : ∀ sid key, b.trackedWid sid key ≠ 0 → (b.client sid key).wid = some (b.trackedWid sid key)
  sent : ∀ sid key w, (b.client sid key).wid = some w → ∃ f ∈ b.frames key, f.version = w
  holds : b.HoldsChain

variable {b b' : TileBroker}

theorem client_append {new : List TileLog} (h : b'.log = b.log ++ new) (sid : Nat) (key : TileKey) :
    b'.client sid key = new.foldl (ClientTile.receive sid key) (b.client sid key) := by
  rw [client, h, List.foldl_append, client]

theorem frames_append {new : List TileLog} (h : b'.log = b.log ++ new) (key : TileKey) :
    b'.frames key = b.frames key ++ new.filterMap (TileLog.frame key) := by
  rw [frames, h, List.filterMap_append, frames]

/-- The entry is neither a message to a client nor a stored frame. -/
def Silent : TileLog → Prop
  | .sent .. => False
  | .stored .. => False
  | _ => True

theorem client_of_silent {new : List TileLog} (h : b'.log = b.log ++ new) (hnew : ∀ entry ∈ new, Silent entry)
    (sid : Nat) (key : TileKey) : b'.client sid key = b.client sid key := by
  rw [client_append h]
  generalize b.client sid key = client
  clear h
  induction new with
  | nil => rfl
  | cons entry new ih =>
    have hentry : client.receive sid key entry = client := by
      cases entry <;> first | rfl | exact (hnew _ List.mem_cons_self).elim
    rw [List.foldl_cons, hentry]
    exact ih fun entry he => hnew entry (List.mem_cons_of_mem _ he)

theorem frames_of_silent {new : List TileLog} (h : b'.log = b.log ++ new) (hnew : ∀ entry ∈ new, Silent entry)
    (key : TileKey) : b'.frames key = b.frames key := by
  rw [frames_append h, List.filterMap_eq_nil_iff.2, List.append_nil]
  intro entry he
  cases entry <;> first | rfl | exact (hnew _ he).elim

/-- Nothing is sent or stored, tiles only leave the cache or change otherwise, and trackers only lose entries. -/
theorem InStep.congr (h : b.InStep) (new : List TileLog) (hlog : b'.log = b.log ++ new)
    (hnew : ∀ entry ∈ new, Silent entry) (hcaches : b'.tileCache.dontCache = b.tileCache.dontCache)
    (htile : ∀ key e, b'.tileCache.cache.find key = some e →
      ∃ e₀, b.tileCache.cache.find key = some e₀ ∧ e.tile.blobs = e₀.tile.blobs)
    (htracked : ∀ sid key, b'.trackedWid sid key ≠ 0 → b'.trackedWid sid key = b.trackedWid sid key) :
    b'.InStep := by
  have hclient := client_of_silent hlog hnew
  have hframes := frames_of_silent hlog hnew
  refine ⟨hcaches.trans h.caches, ?_, ?_, ?_, ?_, ?_, ?_⟩
  · intro key
    rw [hframes]
    exact h.ordered key
  · intro key
    rw [hframes]
    exact h.pos key
  · intro key e he
    obtain ⟨e₀, he₀, hblobs⟩ := htile key e he
    rw [hframes, hblobs]
    exact h.tile key e₀ he₀
  · intro sid key hne
    rw [hclient, htracked sid key hne]
    exact h.tracked sid key (htracked sid key hne ▸ hne)
  · intro sid key
    rw [hclient, hframes]
    exact h.sent sid key
  · intro sid key
    rw [hclient, hframes]
    exact h.holds sid key

/-- Putting a session back changes only what is tracked for it. -/
theorem trackedWid_put {session : ClientSession} (sid : Nat) (key : TileKey) :
    ({ b with sessions := b.sessions.put session } : TileBroker).trackedWid sid key =
      if sid = session.id then
        if session.closeFrame then 0 else ((session.tracker.find key).map TileDesc.wireId).getD 0
      else b.trackedWid sid key := by
  simp only [trackedWid, Table.find_put]
  by_cases h : sid = session.id
  · simp [h]
  · simp [h]

theorem trackedWid_of_find {sid : Nat} {session : ClientSession} (hs : b.sessions.find sid = some session)
    (key : TileKey) : b.trackedWid sid key =
      if session.closeFrame then 0 else ((session.tracker.find key).map TileDesc.wireId).getD 0 := by
  simp only [trackedWid, hs]

/-- A session that is put back with less in its tracker, or closed, or new. -/
theorem InStep.putSession (h : b.InStep) (session : ClientSession) (nextSession : Nat)
    (htracked : ∀ key, session.closeFrame = false → ((session.tracker.find key).map TileDesc.wireId).getD 0 ≠ 0 →
      ((session.tracker.find key).map TileDesc.wireId).getD 0 = b.trackedWid session.id key) :
    ({ b with sessions := b.sessions.put session, nextSession := nextSession } : TileBroker).InStep := by
  refine h.congr [] (by simp) (by simp) rfl (fun key e he => ⟨e, he, rfl⟩) ?_
  intro sid key hne
  have hsame :
      ({ b with sessions := b.sessions.put session, nextSession := nextSession } : TileBroker).trackedWid sid key =
        ({ b with sessions := b.sessions.put session } : TileBroker).trackedWid sid key := rfl
  rw [hsame, trackedWid_put] at hne ⊢
  by_cases hid : sid = session.id
  · rw [if_pos hid] at hne ⊢
    cases hclose : session.closeFrame with
    | true => simp [hclose] at hne
    | false =>
      rw [hclose, if_neg Bool.false_ne_true] at hne
      rw [if_neg Bool.false_ne_true, hid]
      exact htracked key hclose hne
  · rw [if_neg hid]

/-! ### Sending -/

theorem tracker_updateTileSeq (tracker : ClientDeltaTracker) (desc : TileDesc) (key : TileKey) :
    (((tracker.updateTileSeq desc).2.find key).map TileDesc.wireId).getD 0 =
      if key = desc.key then desc.wireId else ((tracker.find key).map TileDesc.wireId).getD 0 := by
  unfold ClientDeltaTracker.updateTileSeq
  cases hfind : tracker.find desc.key with
  | none =>
    simp only [Table.find_put]
    split <;> rfl
  | some it =>
    have hkey : it.key = desc.key := Table.key_of_find hfind
    have hkey : (it.setWireId desc.wireId).key = desc.key := hkey
    simp only [Table.find_put, hkey]
    split <;> rfl

theorem lastSent_updateTileSeq (tracker : ClientDeltaTracker) (desc : TileDesc) :
    (tracker.updateTileSeq desc).1 = ((tracker.find desc.key).map TileDesc.wireId).getD 0 := by
  unfold ClientDeltaTracker.updateTileSeq
  cases tracker.find desc.key <;> rfl

/-- The tile holds the current chain and is sent under its last wire id. -/
structure Sendable (b : TileBroker) (desc : TileDesc) (tile : TileData) : Prop where
  holds : tile.blobs.Holds (Frame.chain (b.frames desc.key))
  last : desc.wireId = tile.lastWid

theorem Sendable.getLast? {desc : TileDesc} {tile : TileData} (h : b.Sendable desc tile) :
    ∃ f, (b.frames desc.key).getLast? = some f ∧ f.version = desc.wireId := by
  have hlast := h.holds.last
  rw [tile.lastWid_eq, Frame.getLast?_chain, ← h.last] at hlast
  obtain ⟨f, hf, hw⟩ := Option.map_eq_some_iff.1 hlast.symm
  exact ⟨f, hf, hw⟩

/-- The message that is sent takes the client from what is tracked for it to the whole chain. -/
theorem blobs_sent {desc : TileDesc} {tile : TileData} (h : b.InStep) (hs : b.Sendable desc tile) {sid since : Nat}
    (hsince : since ≠ 0 → (b.client sid desc.key).wid = some since) :
    (if tile.needsKeyframe since || tile.isPng then
        (tile.appendChangesSince (if tile.isPng then 0 else since)).getD []
      else (b.client sid desc.key).blobs ++ (tile.appendChangesSince (if tile.isPng then 0 else since)).getD []) =
      Frame.data (Frame.chain (b.frames desc.key)) := by
  obtain ⟨last, hlast, -⟩ := hs.getLast?
  obtain ⟨first, hfirst⟩ : ∃ f, (Frame.chain (b.frames desc.key)).head? = some f := by
    rw [← Option.isSome_iff_exists, List.isSome_head?]
    rintro hnil
    have : (Frame.chain (b.frames desc.key)).getLast? = some last := Frame.getLast?_chain.trans hlast
    simp [hnil] at this
  have hmem : first ∈ b.frames desc.key := Frame.chain_suffix.subset (List.mem_of_head? hfirst)
  have hpos : 0 < first.version := h.pos _ first hmem
  -- a frame of the chain is not before the first one
  have hle : ∀ f ∈ Frame.chain (b.frames desc.key), first.version ≤ f.version := by
    obtain ⟨rest, hrest⟩ := List.head?_eq_some_iff.1 hfirst
    have hordered := hs.holds.ordered
    rw [hrest] at hordered ⊢
    intro f hf
    rcases List.mem_cons.1 hf with rfl | hf
    · exact le_rfl
    · exact (List.rel_of_pairwise_cons hordered hf).le
  have hwhole {w : Nat} (hw : w < first.version) :
      (tile.appendChangesSince w).getD [] = Frame.data (Frame.chain (b.frames desc.key)) := by
    rw [TileData.appendChangesSince_eq hs.holds, Frame.after_eq_self fun f hf => hw.trans_le (hle f hf)]
  rw [TileData.needsKeyframe_eq hs.holds hfirst]
  cases hpng : tile.isPng with
  | true =>
    rw [Bool.or_true, if_pos rfl, if_pos rfl]
    exact hwhole hpos
  | false =>
    rw [Bool.or_false, if_neg Bool.false_ne_true]
    by_cases hlt : since < first.version
    · rw [if_pos (decide_eq_true hlt)]
      exact hwhole hlt
    · -- the client holds a part of this chain, and what follows is sent
      rw [if_neg (by simpa using hlt), h.holds sid desc.key since (hsince (by omega)),
        TileData.appendChangesSince_eq hs.holds, ← Frame.data_append, ← Frame.chain_split (h.ordered desc.key)]
      rw [hfirst]
      simpa using hlt

theorem sendTileNow_inStep (h : b.InStep) {desc : TileDesc} {tile : TileData} (hs : b.Sendable desc tile)
    (sid : Nat) :
    (b.sendTileNow sid desc tile).InStep := by
  unfold sendTileNow
  cases hfind : b.sessions.find sid with
  | none => exact h
  | some session =>
    have hid : session.id = sid := Table.key_of_find hfind
    dsimp only
    by_cases hclose : session.closeFrame = true
    · rw [if_pos hclose]
      exact h.putSession { session with tracker := (session.tracker.updateTileSeq desc).2 } b.nextSession
        (by simp [hclose])
    · rw [if_neg hclose]
      rw [Bool.not_eq_true] at hclose
      have htracked (key : TileKey) :
          b.trackedWid sid key = ((session.tracker.find key).map TileDesc.wireId).getD 0 := by
        rw [trackedWid_of_find hfind, hclose, if_neg Bool.false_ne_true]
      rw [lastSent_updateTileSeq, ← htracked]
      have hblobs := blobs_sent h hs (h.tracked sid desc.key)
      generalize hsent : TileLog.sent sid (tile.needsKeyframe (b.trackedWid sid desc.key) || tile.isPng) desc
        ((tile.appendChangesSince (if tile.isPng then 0 else b.trackedWid sid desc.key)).getD []) = entry
      set b₁ : TileBroker :=
        { b with
          sessions := b.sessions.put { session with tracker := (session.tracker.updateTileSeq desc).2 } } with hb₁
      have hlog : (b₁.note entry).log = b.log ++ [entry] := rfl
      have hclient (sid' : Nat) (key : TileKey) : (b₁.note entry).client sid' key =
          if sid = sid' ∧ desc.key = key then
            ⟨Frame.data (Frame.chain (b.frames desc.key)), some desc.wireId⟩
          else b.client sid' key := by
        rw [client_append hlog, List.foldl_cons, List.foldl_nil, ← hsent, ClientTile.receive]
        by_cases heq : sid = sid' ∧ desc.key = key
        · obtain ⟨rfl, rfl⟩ := heq
          have hself : sid = sid ∧ desc.key = desc.key := ⟨rfl, rfl⟩
          rw [if_pos hself, hblobs, if_pos hself]
        · rw [if_neg heq, if_neg heq]
      have hframes (key : TileKey) : (b₁.note entry).frames key = b.frames key := by
        rw [frames_append hlog, ← hsent]
        exact List.append_nil _
      have htracked' (sid' : Nat) (key : TileKey) : (b₁.note entry).trackedWid sid' key =
          if sid = sid' ∧ desc.key = key then desc.wireId else b.trackedWid sid' key := by
        rw [show (b₁.note entry).trackedWid sid' key = b₁.trackedWid sid' key from rfl, hb₁, trackedWid_put]
        by_cases hsid : sid = sid'
        · subst hsid
          rw [if_pos hid.symm, hclose, if_neg Bool.false_ne_true, tracker_updateTileSeq, htracked]
          simp only [true_and, eq_comm]
        · rw [if_neg fun heq => hsid (hid ▸ heq.symm), if_neg fun heq => hsid heq.1]
      obtain ⟨last, hlast, hversion⟩ := hs.getLast?
      refine ⟨h.caches, ?_, ?_, ?_, ?_, ?_, ?_⟩
      · simpa only [hframes] using h.ordered
      · simpa only [hframes] using h.pos
      · intro key e he
        rw [hframes]
        exact h.tile key e he
      · intro sid' key hne
        rw [htracked'] at hne ⊢
        rw [hclient]
        by_cases heq : sid = sid' ∧ desc.key = key
        · rw [if_pos heq, if_pos heq]
        · rw [if_neg heq] at hne ⊢
          rw [if_neg heq]
          exact h.tracked sid' key hne
      · intro sid' key w hw
        rw [hclient] at hw
        rw [hframes]
        by_cases heq : sid = sid' ∧ desc.key = key
        · rw [if_pos heq] at hw
          exact ⟨last, heq.2 ▸ List.mem_of_getLast? hlast, hversion.trans (Option.some.inj hw)⟩
        · rw [if_neg heq] at hw
          exact h.sent sid' key w hw
      · intro sid' key w hw
        rw [hclient] at hw ⊢
        rw [hframes]
        by_cases heq : sid = sid' ∧ desc.key = key
        · rw [if_pos heq] at hw ⊢
          obtain ⟨-, rfl⟩ := heq
          obtain rfl : desc.wireId = w := Option.some.inj hw
          rw [Frame.upTo_eq_self]
          intro f hf
          exact hversion ▸ (h.ordered desc.key).le_getLast hlast f hf
        · rw [if_neg heq] at hw ⊢
          exact h.holds sid' key w hw

theorem frames_sendTileNow (sid : Nat) (desc : TileDesc) (tile : TileData) (key : TileKey) :
    (b.sendTileNow sid desc tile).frames key = b.frames key := by
  obtain ⟨new, hlog, hnew⟩ := log_sendTileNow (b := b) sid desc tile
  rw [frames_append hlog, List.filterMap_eq_nil_iff.2, List.append_nil]
  intro entry he
  obtain ⟨isTile, payload, rfl⟩ := hnew entry he
  rfl

theorem foldl_sendTileNow_inStep (h : b.InStep) {desc : TileDesc} {tile : TileData} (hs : b.Sendable desc tile)
    (sids : List Nat) : (sids.foldl (fun b sid => b.sendTileNow sid desc tile) b).InStep := by
  induction sids generalizing b with
  | nil => exact h
  | cons sid sids ih =>
    refine ih (sendTileNow_inStep h hs sid) ⟨?_, hs.last⟩
    rw [frames_sendTileNow]
    exact hs.holds

/-! ### Moves -/

theorem lookupTile_eq_some (h : b.InStep) {desc : TileDesc} {tile : TileData}
    (hl : b.tileCache.lookupTile desc = some tile) : tile.blobs.Holds (Frame.chain (b.frames desc.key)) := by
  rw [TileCache.lookupTile, h.caches, if_neg Bool.false_ne_true] at hl
  obtain ⟨e, he, rfl⟩ := Option.map_eq_some_iff.1 hl
  exact h.tile desc.key e he

theorem trackedWid_resetTileSeq (session : ClientSession) (desc : TileDesc) (key : TileKey) :
    (((session.tracker.resetTileSeq desc).find key).map TileDesc.wireId).getD 0 =
      if key = desc.key then 0 else ((session.tracker.find key).map TileDesc.wireId).getD 0 := by
  unfold ClientDeltaTracker.resetTileSeq
  cases hfind : session.tracker.find desc.key with
  | none =>
    dsimp only
    split
    · rename_i hkey
      rw [hkey, hfind]
      rfl
    · rfl
  | some it =>
    have hkey : it.key = desc.key := Table.key_of_find hfind
    have hkey : (it.setWireId 0).key = desc.key := hkey
    simp only [Table.find_put, hkey]
    split <;> rfl

/-- What is known of an open session that is put back: it is tracked as the broker tracked it. -/
theorem tracked_of_open {sid : Nat} {session : ClientSession} (hs : b.sessions.find sid = some session)
    (hopen : session.closeFrame = false) (key : TileKey) :
    ((session.tracker.find key).map TileDesc.wireId).getD 0 = b.trackedWid session.id key := by
  have hid : session.id = sid := Table.key_of_find hs
  rw [hid, trackedWid_of_find hs, hopen, if_neg Bool.false_ne_true]

theorem TileMove.inStep (h : b.InStep) (hm : TileMove (· = 0) b b') : b'.InStep := by
  cases hm with
  | send sid hl hwid =>
    rcases hwid with hwid | ⟨hzero, hne⟩
    · exact sendTileNow_inStep h ⟨lookupTile_eq_some h hl, hwid⟩ sid
    · exact absurd hzero hne
  | reset sid desc =>
    unfold resetTileSeq
    cases hs : b.sessions.find sid with
    | none => exact h
    | some session =>
      refine h.putSession { session with tracker := session.tracker.resetTileSeq desc } b.nextSession ?_
      intro key hopen
      dsimp only
      rw [trackedWid_resetTileSeq]
      split
      · exact fun hne => absurd rfl hne
      · exact fun _ => tracked_of_open hs hopen key
  | subscribe tile sid now =>
    refine h.congr _ rfl ?_ ?_ ?_ fun _ _ _ => rfl
    · intro entry he
      rw [List.mem_singleton.1 he]
      exact True.intro
    · unfold TileBroker.subscribe TileCache.subscribeToTileRendering
      split
      · split <;> rfl
      · rfl
    · have hcache : (b.subscribe tile sid now).tileCache.cache = b.tileCache.cache := by
        unfold TileBroker.subscribe TileCache.subscribeToTileRendering
        split
        · split <;> rfl
        · rfl
      intro key e he
      exact ⟨e, hcache ▸ he, rfl⟩
  | render tiles =>
    refine h.congr _ rfl ?_ rfl (fun key e he => ⟨e, he, rfl⟩) fun _ _ _ => rfl
    intro entry he
    rw [List.mem_singleton.1 he]
    exact True.intro
  | setRequested sid _ =>
    unfold setRequestedTiles
    cases hs : b.sessions.find sid with
    | none => exact h
    | some session =>
      exact h.putSession { session with requestedTiles := _ } b.nextSession
        fun key hopen _ => tracked_of_open hs hopen key
  | bump => exact h.congr [] (by simp [bumpVersion]) (by simp) rfl (fun key e he => ⟨e, he, rfl⟩) fun _ _ _ => rfl

theorem TileMoves.inStep (h : b.InStep) (hm : TileMoves (· = 0) b b') : b'.InStep := by
  induction hm with
  | refl => exact h
  | tail _ hm ih => exact TileMove.inStep ih hm

/-! ### Replies -/

/-- A reply of the kit carries a wire id that is larger than those before it. -/
def NewWireId (b : TileBroker) (desc : TileDesc) : Prop :=
  0 < desc.wireId ∧ ∀ f ∈ b.frames desc.key, f.version < desc.wireId

/-- What saving a reply does: a delta is discarded, or the tile then holds the chain with the new frame. -/
theorem saveDataToCache_cases (h : b.InStep) {desc : TileDesc} (hwid : b.NewWireId desc) (data : List UInt8) :
    let r := b.tileCache.saveDataToCache desc data
    r.1.dontCache = false ∧
      (∀ key e, key ≠ desc.key → r.1.cache.find key = some e → b.tileCache.cache.find key = some e) ∧
      ((r.2 = none ∧ ∀ e, r.1.cache.find desc.key = some e → b.tileCache.cache.find desc.key = some e) ∨
        ∃ tile, r.2 = some tile ∧
          tile.blobs.Holds (Frame.chain (b.frames desc.key ++ [TileBlobs.frame desc.wireId data])) ∧
          ∀ e, r.1.cache.find desc.key = some e → e.tile = tile) := by
  have hput {c : TileCache} {e₀ : CachedTile} (hkey : e₀.key = desc.key) (key : TileKey) (e : CachedTile)
      (hc : ∀ e, c.cache.find key = some e → b.tileCache.cache.find key = some e) (hne : key ≠ desc.key)
      (he : (c.cache.put e₀).find key = some e) : b.tileCache.cache.find key = some e := by
    rw [Table.find_put_of_ne (hkey ▸ hne)] at he
    exact hc e he
  unfold TileCache.saveDataToCache
  rw [h.caches, if_neg Bool.false_ne_true]
  have hcaches : b.tileCache.ensureCacheSize.dontCache = false :=
    (TileCache.dontCache_ensureCacheSize _).trans h.caches
  dsimp only
  cases hfind : b.tileCache.ensureCacheSize.cache.find desc.key with
  | none =>
    dsimp only
    cases hk : TileBlobs.isKeyframe data with
    | false =>
      rw [Bool.not_false, if_pos rfl]
      exact ⟨hcaches, fun key e _ he => TileCache.find_ensureCacheSize he,
        .inl ⟨rfl, fun e he => TileCache.find_ensureCacheSize he⟩⟩
    | true =>
      rw [Bool.not_true, if_neg Bool.false_ne_true]
      refine ⟨hcaches, fun key e hne he => hput rfl key e (fun e he => TileCache.find_ensureCacheSize he) hne he,
        .inr ⟨_, rfl, ?_, ?_⟩⟩
      · have hrestarts : (TileBlobs.frame desc.wireId data).restarts = true := hk
        have hempty : TileBlobs.empty.Holds (Frame.chain []) := TileBlobs.holds_empty
        have hnew := hempty.appendBlob TileBlobs.empty_wellFormed (by simp) hwid.1 data
        rw [Frame.chain_concat, if_pos hrestarts] at hnew ⊢
        exact hnew
      · intro e he
        rw [show desc.key = (CachedTile.mk desc (TileData.new desc.wireId data)).key from rfl,
          Table.find_put_self] at he
        rw [← Option.some.inj he]
  | some e₀ =>
    have hkey : e₀.key = desc.key := Table.key_of_find hfind
    have hold := h.tile desc.key e₀ (TileCache.find_ensureCacheSize hfind)
    have hkey : (CachedTile.mk e₀.desc (e₀.tile.appendBlob desc.wireId data)).key = desc.key := hkey
    refine ⟨hcaches, fun key e hne he => hput hkey key e (fun e he => TileCache.find_ensureCacheSize he) hne he,
      .inr ⟨_, rfl, hold.appendBlob e₀.tile.wellFormed hwid.2 hwid.1 data, ?_⟩⟩
    intro e he
    dsimp only at he
    rw [← hkey, Table.find_put_self] at he
    rw [← Option.some.inj he]

/-- Storing a frame keeps what the clients hold: they were sent older wire ids. -/
theorem store_inStep (h : b.InStep) {desc : TileDesc} (hwid : b.NewWireId desc) {data : List UInt8}
    {cache : TileCache} {tile : TileData} (hcaches : cache.dontCache = false)
    (hold : ∀ key e, key ≠ desc.key → cache.cache.find key = some e → b.tileCache.cache.find key = some e)
    (htile : tile.blobs.Holds (Frame.chain (b.frames desc.key ++ [TileBlobs.frame desc.wireId data])))
    (hnew : ∀ e, cache.cache.find desc.key = some e → e.tile = tile) :
    let b' := ({ b with tileCache := cache } : TileBroker).note (.stored desc data)
    b'.InStep ∧ b'.Sendable desc tile := by
  intro b'
  have hlog : b'.log = b.log ++ [.stored desc data] := rfl
  have hframes (key : TileKey) : b'.frames key =
      b.frames key ++ if desc.key = key then [TileBlobs.frame desc.wireId data] else [] := by
    rw [frames_append hlog, List.filterMap_cons, List.filterMap_nil, TileLog.frame]
    by_cases hkey : desc.key = key
    · simp [hkey]
    · simp [hkey]
  have hself : b'.frames desc.key = b.frames desc.key ++ [TileBlobs.frame desc.wireId data] := by
    rw [hframes, if_pos rfl]
  have hother {key : TileKey} (hne : desc.key ≠ key) : b'.frames key = b.frames key := by
    rw [hframes, if_neg hne, List.append_nil]
  have hclient (sid : Nat) (key : TileKey) : b'.client sid key = b.client sid key := by
    rw [client_append hlog]
    rfl
  refine ⟨⟨hcaches, ?_, ?_, ?_, ?_, ?_, ?_⟩, ?_, ?_⟩
  · intro key
    by_cases hkey : desc.key = key
    · subst hkey
      rw [hself]
      exact Frame.ordered_concat.2 ⟨h.ordered _, hwid.2⟩
    · rw [hother hkey]
      exact h.ordered key
  · intro key f hf
    rw [hframes] at hf
    rcases List.mem_append.1 hf with hf | hf
    · exact h.pos key f hf
    · split at hf
      · rw [List.mem_singleton.1 hf]
        exact hwid.1
      · cases hf
  · intro key e he
    by_cases hkey : desc.key = key
    · subst hkey
      rw [hself, hnew e he]
      exact htile
    · rw [hother hkey]
      exact h.tile key e (hold key e (Ne.symm hkey) he)
  · intro sid key hne
    rw [hclient]
    exact h.tracked sid key hne
  · intro sid key w hw
    rw [hclient] at hw
    obtain ⟨f, hf, hfw⟩ := h.sent sid key w hw
    rw [hframes]
    exact ⟨f, List.mem_append_left _ hf, hfw⟩
  · intro sid key w hw
    rw [hclient] at hw ⊢
    by_cases hkey : desc.key = key
    · subst hkey
      obtain ⟨f, hf, rfl⟩ := h.sent sid desc.key w hw
      rw [hself, Frame.upTo_concat_of_lt (hwid.2 f hf)]
      exact h.holds sid desc.key _ hw
    · rw [hother hkey]
      exact h.holds sid key w hw
  · rw [hself]
    exact htile
  · have hlast := htile.last
    rw [tile.lastWid_eq, Frame.getLast?_chain, List.getLast?_concat] at hlast
    exact (Option.some.inj hlast).symm

theorem saveTileAndNotify_inStep (h : b.InStep) {desc : TileDesc} (hwid : b.NewWireId desc) (data : List UInt8) :
    (b.saveTileAndNotify desc data).InStep := by
  obtain ⟨hcaches, hold, hcases⟩ := saveDataToCache_cases h hwid data
  unfold saveTileAndNotify
  generalize b.tileCache.saveDataToCache desc data = r at hcaches hold hcases
  obtain ⟨cache, tile⟩ := r
  -- forgetting a render changes neither tiles nor sessions nor the log
  have hforget {b₁ : TileBroker} (h₁ : b₁.InStep) (t : TileBeingRendered) :
      ({ b₁ with tileCache := b₁.tileCache.forgetTileBeingRendered desc t } : TileBroker).InStep := by
    refine h₁.congr [] (by simp) (by simp) ?_ ?_ fun _ _ _ => rfl
    · unfold TileCache.forgetTileBeingRendered
      split <;> rfl
    · intro key e he
      unfold TileCache.forgetTileBeingRendered at he
      split at he <;> exact ⟨e, he, rfl⟩
  dsimp only at hcaches hold hcases ⊢
  generalize b.tileCache.findTileBeingRendered desc = found
  rcases hcases with ⟨rfl, hsame⟩ | ⟨tile, rfl, htile, hnew⟩
  · have hdiscarded : (({ b with tileCache := cache } : TileBroker).note (.discarded desc found)).InStep := by
      refine h.congr _ rfl ?_ (hcaches.trans h.caches.symm) ?_ fun _ _ _ => rfl
      · intro entry he
        rw [List.mem_singleton.1 he]
        exact True.intro
      · intro key e he
        by_cases hkey : key = desc.key
        · subst hkey
          exact ⟨e, hsame e he, rfl⟩
        · exact ⟨e, hold key e hkey he, rfl⟩
    cases found with
    | none => exact hdiscarded
    | some t => exact hforget hdiscarded t
  · obtain ⟨hstored, hsendable⟩ := store_inStep h hwid hcaches hold htile hnew
    cases found with
    | none => exact hstored
    | some t => exact hforget (foldl_sendTileNow_inStep hstored hsendable t.subscribers) t

/-! ### Runs -/

/-- The replies of the kit for a tile have growing wire ids. -/
def RepliesInOrder (b : TileBroker) : Event → Prop
  | .reply desc _ => b.NewWireId desc
  | _ => True

/-- The condition on a step: moreover requests carry no wire id. -/
def ChainOrder (b : TileBroker) (e : Event) : Prop := b.RepliesInOrder e ∧ e.RequestWid (· = 0)

theorem foldl_sendTileNow_requestedTiles (desc : TileDesc) (tile : TileData) (sids : List Nat) (sid : Nat) :
    (sids.foldl (fun b sid => b.sendTileNow sid desc tile) b).requestedTiles sid = b.requestedTiles sid := by
  induction sids generalizing b with
  | nil => rfl
  | cons sid' sids ih => rw [List.foldl_cons, ih, requestedTiles_sendTileNow]

theorem requestedTiles_saveTileAndNotify (desc : TileDesc) (data : List UInt8) (sid : Nat) :
    (b.saveTileAndNotify desc data).requestedTiles sid = b.requestedTiles sid := by
  unfold saveTileAndNotify
  generalize b.tileCache.saveDataToCache desc data = r
  obtain ⟨cache, tile⟩ := r
  cases b.tileCache.findTileBeingRendered desc with
  | none => rfl
  | some t =>
    cases tile with
    | none => rfl
    | some tile => exact foldl_sendTileNow_requestedTiles desc tile t.subscribers sid

/-- A session that is put back asks for nothing else, or for nothing. -/
theorem RequestsOk.putSession {requestWid : Nat → Prop} (h : RequestsOk requestWid b) {session : ClientSession}
    (nextSession : Nat) (hs : ∀ t ∈ session.requestedTiles, requestWid t.wireId) :
    RequestsOk requestWid { b with sessions := b.sessions.put session, nextSession := nextSession } := by
  intro sid t ht
  unfold requestedTiles at ht
  dsimp only at ht
  rw [Table.find_put] at ht
  by_cases hid : sid = session.id
  · rw [if_pos hid] at ht
    exact hs t ht
  · rw [if_neg hid] at ht
    exact h sid t ht

theorem RequestsOk.of_find {requestWid : Nat → Prop} (h : RequestsOk requestWid b) {sid : Nat}
    {session : ClientSession} (hs : b.sessions.find sid = some session) :
    ∀ t ∈ session.requestedTiles, requestWid t.wireId := by
  have hsid := h sid
  rwa [requestedTiles, hs] at hsid

theorem step_inStep {e : Event} (h : b.InStep ∧ RequestsOk (· = 0) b) (hok : b.ChainOrder e)
    (hs : step b e = some b') :
    b'.InStep ∧ RequestsOk (· = 0) b' := by
  obtain ⟨hin, hreq⟩ := h
  cases step_cases hreq hok.2 hs with
  | joins canonicalViewId =>
    refine ⟨hin.putSession _ _ ?_, hreq.putSession _ (by simp)⟩
    intro key _ hne
    exact absurd rfl hne
  | leaves sid =>
    have hfind {sid' : Nat} {session : ClientSession} (hs : (b.sessions.erase sid).find sid' = some session) :
        b.sessions.find sid' = some session := by
      by_cases hsid : sid' = sid
      · rw [hsid, Table.find_erase_self] at hs
        cases hs
      · rwa [Table.find_erase_of_ne hsid] at hs
    constructor
    · refine hin.congr [] (by simp) (by simp) rfl (fun key e he => ⟨e, he, rfl⟩) ?_
      intro sid' key hne
      unfold trackedWid at hne ⊢
      dsimp only at hne ⊢
      cases hs : (b.sessions.erase sid).find sid' with
      | none => simp [hs] at hne
      | some session => rw [hfind hs]
    · intro sid' t ht
      unfold requestedTiles at ht
      dsimp only at ht
      cases hs : (b.sessions.erase sid).find sid' with
      | none => simp [hs] at ht
      | some session =>
        rw [hs] at ht
        exact hreq.of_find (hfind hs) t ht
  | closes hfind =>
    have htiles := hreq.of_find hfind
    exact ⟨hin.putSession _ _ (by simp), hreq.putSession _ htiles⟩
  | setCanonicalViewId canonicalViewId hfind =>
    have htiles := hreq.of_find hfind
    exact ⟨hin.putSession _ _ fun key hopen _ => tracked_of_open hfind hopen key, hreq.putSession _ htiles⟩
  | moves _ hm => exact ⟨hm.inStep hin, hreq.moves hm⟩
  | reply _ =>
    refine ⟨saveTileAndNotify_inStep hin hok.1 _, ?_⟩
    intro sid t ht
    rw [requestedTiles_saveTileAndNotify] at ht
    exact hreq sid t ht
  | invalidatetiles intersects =>
    refine ⟨hin.congr [] (by simp) (by simp) rfl ?_ fun _ _ _ => rfl, hreq⟩
    intro key e he
    dsimp only [TileCache.invalidateTiles] at he
    rw [Table.find_map] at he
    obtain ⟨e₀, he₀, rfl⟩ := Option.map_eq_some_iff.1 he
    refine ⟨e₀, he₀, ?_⟩
    unfold TileCache.invalidateEntry
    split <;> rfl
  | setMaxCacheSize cacheSize =>
    refine ⟨hin.congr [] (by simp) (by simp) (TileCache.dontCache_ensureCacheSize _) ?_ fun _ _ _ => rfl, hreq⟩
    intro key e he
    exact ⟨e, TileCache.find_ensureCacheSize (c := { b.tileCache with maxCacheSize := cacheSize }) he, rfl⟩

theorem initial_inStep : (initial false).InStep :=
  ⟨rfl, fun _ => List.Pairwise.nil, fun _ _ hf => absurd hf (List.not_mem_nil),
  fun _ _ he => absurd he (by simp [initial, TileCache.new]),
    fun _ _ hne => absurd rfl hne, fun _ _ _ hw => absurd hw (by simp [client, initial]),
    fun _ _ _ hw => absurd hw (by simp [client, initial])⟩

/-- In every run in which the replies of the kit have growing wire ids and requests carry none, each client holds of
each tile the payloads of the chain of frames at the wire id it was last sent, and the cache holds the current
chain. -/
theorem clients_hold_chain (h : Run.Reachable (· = initial false) step ChainOrder b) :
    b.HoldsChain ∧ ∀ desc tile, b.tileCache.lookupTile desc = some tile →
      tile.blobs.deltas = Frame.data (Frame.chain (b.frames desc.key)) := by
  obtain ⟨hin, -⟩ := h.invariant (fun b => b.InStep ∧ RequestsOk (· = 0) b)
    (by rintro _ rfl; exact ⟨initial_inStep, fun _ _ ht => absurd ht (by simp [requestedTiles, initial])⟩)
    (fun b e b' _ hb hok hs => step_inStep hb hok hs)
  exact ⟨hin.holds, fun desc tile hl => (lookupTile_eq_some hin hl).deltas⟩

/-! ### Requests with and without a wire id -/

/-- The condition on a step, evaluated. -/
def repliesInOrder (b : TileBroker) : Event → Bool
  | .reply desc _ => 0 < desc.wireId && (b.frames desc.key).all fun f => f.version < desc.wireId
  | _ => true

theorem repliesInOrder_of_eq_true {e : Event} (h : b.repliesInOrder e = true) : b.RepliesInOrder e := by
  cases e with
  | reply desc data => simpa [repliesInOrder, RepliesInOrder, NewWireId] using h
  | _ => exact True.intro

/-- The requests of the event carry no wire id, evaluated. -/
def Event.withoutWireId : Event → Bool
  | .tile _ t _ => t.wireId == 0
  | .tilecombine _ tiles _ _ => tiles.all fun t => t.wireId == 0
  | _ => true

theorem Event.requestWid_of_withoutWireId {e : Event} (h : e.withoutWireId = true) : e.RequestWid (· = 0) := by
  cases e with
  | tile sid t now => simpa [withoutWireId, RequestWid] using h
  | tilecombine sid tiles now room => simpa [withoutWireId, RequestWid] using h
  | invalidation => exact rfl
  | _ => exact True.intro

def firstTile : TileDesc := ⟨⟨0, 0, 0, 256, 256, 0, 0, 3840, 3840⟩, 0, 0, 0, 1, 0⟩

/-- A keyframe and a delta are stored, the tile is sent again for a request with wire id `wid`, and a second delta
arrives. -/
def resentTile (wid : Nat) : List Event :=
  [.joins 0, .tile 0 firstTile 0,
    .reply ((firstTile.setVersion 1).setWireId 5) [90, 1, 2], .reply ((firstTile.setVersion 1).setWireId 6) [68, 3],
    .tile 0 (firstTile.setWireId wid) 0, .invalidatetiles fun _ => true, .tilecombine 0 [firstTile] 0 10,
    .reply ((firstTile.setVersion 3).setWireId 7) [68, 4]]

/-- A request with a wire id of its own breaks the chain: the client is sent the first delta twice. -/
theorem wireId_of_request_breaks_chain :
    ∃ b, Run.Reachable (· = initial false) step RepliesInOrder b ∧
    b.client 0 firstTile.key = ⟨[1, 2, 3, 3, 4], some 7⟩ ∧
      ¬ b.HoldsChain := by
  obtain ⟨b, hr, hb⟩ : ∃ b, Run.Reachable (· = initial false) (Run.guarded step repliesInOrder) Run.Any b ∧
      (b.client 0 firstTile.key == ⟨[1, 2, 3, 3, 4], some 7⟩ &&
        Frame.data (Frame.chain (Frame.upTo 7 (b.frames firstTile.key))) == [1, 2, 3, 4]) = true :=
    Run.Reachable.exists_of_run (initial false) (resentTile 5) rfl (by decide)
  simp only [Bool.and_eq_true, beq_iff_eq] at hb
  obtain ⟨hclient, hchain⟩ := hb
  refine ⟨b, hr.of_guarded fun b e => repliesInOrder_of_eq_true, hclient, fun hholds => ?_⟩
  have hblobs := hholds 0 firstTile.key 7 (by rw [hclient])
  rw [hclient, hchain] at hblobs
  simp at hblobs

/-- The same run without a wire id in the request: the client is sent the second delta alone. -/
theorem clients_hold_chain_of_resentTile :
    ∃ b, Run.Reachable (· = initial false) step ChainOrder b ∧ b.client 0 firstTile.key = ⟨[1, 2, 3, 4], some 7⟩ ∧
      b.HoldsChain := by
  obtain ⟨b, hr, hb⟩ : ∃ b, Run.Reachable (· = initial false)
      (Run.guarded step fun b e => b.repliesInOrder e && e.withoutWireId) Run.Any b ∧
      (b.client 0 firstTile.key == ⟨[1, 2, 3, 4], some 7⟩) = true :=
    Run.Reachable.exists_of_run (initial false) (resentTile 0) rfl (by decide)
  have hr : Run.Reachable (· = initial false) step ChainOrder b := by
    refine hr.of_guarded fun b e hok => ?_
    rw [Bool.and_eq_true] at hok
    exact ⟨repliesInOrder_of_eq_true hok.1, Event.requestWid_of_withoutWireId hok.2⟩
  exact ⟨b, hr, by simpa using hb, (clients_hold_chain hr).1⟩

end TileBroker

end CollaboraOnline
