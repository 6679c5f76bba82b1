import CollaboraOnline.Wsd.TileMoves

/-!
# Subscriptions to renders in flight

A session that waits for a render stays subscribed until a reply of at least the version it asked for is handed to it,
in every run in which the version that a session subscribes for is recorded by the end of the step and no reply that
ends a render is discarded.  Without this condition a session can wait for ever: one that joins the render of another
session for a newer version, and one whose reply is a delta for a tile that left the cache.
-/

namespace CollaboraOnline

/-- The version of the tile that this entry says the session subscribed for. -/
def TileLog.askedBy (sid : Nat) (key : TileKey) : TileLog → Option Int
  | .subscribed session tile _ => if session = sid ∧ tile.key = key then some tile.ver else none
  | _ => none

namespace TileBroker

/-- The version of the last render of the tile that the session subscribed for. -/
def lastAsked (b : TileBroker) (sid : Nat) (key : TileKey) : Option Int :=
  (b.log.filterMap (TileLog.askedBy sid key)).getLast?

/-- The session is subscribed to the render in flight of the tile. -/
def waiting (b : TileBroker) (sid : Nat) (key : TileKey) : Bool :=
  (b.tileCache.tilesBeingRendered.find key).any fun t => sid ∈ t.subscribers

/-- The session is there and still gets messages. -/
def isOpen (b : TileBroker) (sid : Nat) : Bool := (b.sessions.find sid).any fun session => !session.closeFrame

/-- What was logged since `b`. -/
def logSince (b b' : TileBroker) : List TileLog := b'.log.drop b.log.length

/-- A subscription ends only by a reply of the version asked for, which is handed to the session. -/
def NoLostSubscription (b : TileBroker) (e : Event) (b' : TileBroker) : Prop :=
  ∀ sid key, b.waiting sid key → b'.isOpen sid → b'.waiting sid key ∨
    ∃ desc data, e = .reply desc data ∧ desc.key = key ∧ (∃ v, b.lastAsked sid key = some v ∧ v ≤ desc.ver) ∧
      ∃ isTile payload, .sent sid isTile desc payload ∈ b.logSince b'

/-- The session, already subscribed, asks again for at least version `v`, which is recorded. -/
def Renews (key : TileKey) (v : Int) : TileLog → Prop
  | .subscribed sid tile (some t) => sid ∈ t.subscribers ∧ tile.key = key ∧ v ≤ tile.ver
  | _ => False

/-- The version asked for is recorded: a session that joins a render asks for no newer version than that of the
render, and one that is already subscribed asks for no older one; or else a later subscription of the step makes it
good. -/
def RecordsVersion (later : List TileLog) : TileLog → Prop
  | .subscribed sid tile (some t) =>
    (if sid ∈ t.subscribers then t.getVersion ≤ tile.ver else tile.ver ≤ t.getVersion) ∨
      ∃ entry ∈ later, Renews tile.key (max tile.ver t.getVersion) entry
  | _ => True

def RecordsVersions : List TileLog → Prop
  | [] => True
  | entry :: later => RecordsVersion later entry ∧ RecordsVersions later

/-- A reply that ends the render of its tile is not discarded: it is a keyframe, or the tile is still cached. -/
def EndsWithTile (b : TileBroker) (desc : TileDesc) (data : List UInt8) : Prop :=
  ∀ t, b.tileCache.findTileBeingRendered desc = some t → t.getVersion ≤ desc.ver →
    b.tileCache.dontCache ∨ TileBlobs.isKeyframe data ∨ (b.tileCache.ensureCacheSize.findTile desc).isSome

/-- The condition on a step. -/
def InOrder (b : TileBroker) (e : Event) : Prop :=
  (∀ b', step b e = some b' → RecordsVersions (b.logSince b')) ∧
    ∀ desc data, e = .reply desc data → b.EndsWithTile desc data

/-- Every render in flight has at least the version that each of its subscribers asked for last, or will be renewed
for that version in the entries still to come. -/
def Recorded (b : TileBroker) (later : List TileLog) : Prop :=
  ∀ key t, b.tileCache.tilesBeingRendered.find key = some t → ∀ sid ∈ t.subscribers,
    ∃ v, b.lastAsked sid key = some v ∧ (v ≤ t.getVersion ∨ ∃ entry ∈ later, Renews key v entry)

variable {b b' b'' : TileBroker}

/-! ### The log -/

theorem logSince_eq {new : List TileLog} (h : b'.log = b.log ++ new) : b.logSince b' = new := by
  rw [logSince, h, List.drop_left]

theorem lastAsked_append {new : List TileLog} (h : b'.log = b.log ++ new) (sid : Nat) (key : TileKey) :
    b'.lastAsked sid key = (new.filterMap (TileLog.askedBy sid key)).getLast?.or (b.lastAsked sid key) := by
  rw [lastAsked, h, List.filterMap_append, List.getLast?_append, lastAsked]

/-- Entries that are no subscriptions leave the versions asked for as they are. -/
theorem lastAsked_of_not_asked {new : List TileLog} (h : b'.log = b.log ++ new)
    (hnew : ∀ entry ∈ new, ∀ sid key, entry.askedBy sid key = none) (sid : Nat) (key : TileKey) :
    b'.lastAsked sid key = b.lastAsked sid key := by
  have : new.filterMap (TileLog.askedBy sid key) = [] := by
    rw [List.filterMap_eq_nil_iff]
    exact fun entry he => hnew entry he sid key
  rw [lastAsked_append h, this]
  rfl

theorem waiting_iff {sid : Nat} {key : TileKey} :
    b.waiting sid key ↔ ∃ t, b.tileCache.tilesBeingRendered.find key = some t ∧ sid ∈ t.subscribers := by
  simp [waiting, Option.any_eq_true]

theorem recordsVersions_append_right {new later : List TileLog} (h : RecordsVersions (new ++ later)) :
    RecordsVersions later := by
  induction new with
  | nil => exact h
  | cons entry new ih => exact ih h.2

theorem not_renews_of_not_asked {entry : TileLog} (h : ∀ sid key, entry.askedBy sid key = none) (key : TileKey)
    (v : Int) : ¬ Renews key v entry := by
  intro hr
  unfold Renews at hr
  split at hr
  · rename_i sid tile t
    simpa [TileLog.askedBy] using h sid tile.key
  · exact hr

/-! ### Moves keep subscriptions -/

/-- What a part of a step does to subscriptions: as long as versions are recorded, all sessions go on waiting. -/
def KeepsWaiting (b b' : TileBroker) : Prop :=
  ∃ new, b'.log = b.log ++ new ∧ ∀ later, RecordsVersions (new ++ later) → b.Recorded (new ++ later) →
    b'.Recorded later ∧ ∀ sid key, b.waiting sid key → b'.waiting sid key

theorem KeepsWaiting.refl : KeepsWaiting b b := ⟨[], by simp, fun _ _ h => ⟨h, fun _ _ h => h⟩⟩

theorem KeepsWaiting.trans (h : KeepsWaiting b b') (h' : KeepsWaiting b' b'') : KeepsWaiting b b'' := by
  obtain ⟨new, hlog, hk⟩ := h
  obtain ⟨new', hlog', hk'⟩ := h'
  refine ⟨new ++ new', by rw [hlog', hlog, List.append_assoc], ?_⟩
  intro later hver hb
  rw [List.append_assoc] at hver hb
  obtain ⟨hrec, hwait⟩ := hk (new' ++ later) hver hb
  obtain ⟨hrec', hwait'⟩ := hk' later (recordsVersions_append_right hver) hrec
  exact ⟨hrec', fun sid key hw => hwait' sid key (hwait sid key hw)⟩

theorem Recorded.mono {later later' : List TileLog} (h : b.Recorded later) (hsub : later ⊆ later') :
    b.Recorded later' := by
  intro key t ht sid hsid
  obtain ⟨v, hv, hle | ⟨entry, he, hr⟩⟩ := h key t ht sid hsid
  · exact ⟨v, hv, .inl hle⟩
  · exact ⟨v, hv, .inr ⟨entry, hsub he, hr⟩⟩

/-- Where no render and no subscription is touched, nothing changes. -/
theorem Recorded.congr {new later : List TileLog} (h : b.Recorded (new ++ later)) (hlog : b'.log = b.log ++ new)
    (hnew : ∀ entry ∈ new, ∀ sid key, entry.askedBy sid key = none)
    (hfind : ∀ key t, b'.tileCache.tilesBeingRendered.find key = some t →
      b.tileCache.tilesBeingRendered.find key = some t) : b'.Recorded later := by
  intro key t ht sid hsid
  rw [lastAsked_of_not_asked hlog hnew]
  obtain ⟨v, hv, hle | ⟨entry, he, hr⟩⟩ := h key t (hfind key t ht) sid hsid
  · exact ⟨v, hv, .inl hle⟩
  · rcases List.mem_append.1 he with he | he
    · exact absurd hr (not_renews_of_not_asked (hnew entry he) key v)
    · exact ⟨v, hv, .inr ⟨entry, he, hr⟩⟩

theorem KeepsWaiting.of_renders_eq (new : List TileLog) (hlog : b'.log = b.log ++ new)
    (hnew : ∀ entry ∈ new, ∀ sid key, entry.askedBy sid key = none)
    (hrenders : b'.tileCache.tilesBeingRendered = b.tileCache.tilesBeingRendered) : KeepsWaiting b b' := by
  refine ⟨new, hlog, fun later _ hb => ⟨hb.congr hlog hnew (by simp [hrenders]), ?_⟩⟩
  intro sid key hw
  rwa [waiting, hrenders]

theorem renews_mono {key : TileKey} {v v' : Int} (hle : v ≤ v') {entry : TileLog} (h : Renews key v' entry) :
    Renews key v entry := by
  unfold Renews at h ⊢
  split at h
  · exact ⟨h.1, h.2.1, hle.trans h.2.2⟩
  · exact h.elim

theorem renews_key {key : TileKey} {v : Int} {sid : Nat} {tile : TileDesc} {found : Option TileBeingRendered}
    (h : Renews key v (.subscribed sid tile found)) : tile.key = key := by
  cases found with
  | none => exact h.elim
  | some t => exact h.2.1

/-- What subscribing does to the render: a session is added, or the version changes, or a render begins. -/
theorem find_subscribe (tile : TileDesc) (sid now : Nat) :
    ∃ t', (b.subscribe tile sid now).tileCache.tilesBeingRendered = b.tileCache.tilesBeingRendered.put t' ∧
      t'.key = tile.key ∧ sid ∈ t'.subscribers ∧
      ((b.tileCache.findTileBeingRendered tile = none ∧ t'.subscribers = [sid] ∧ t'.getVersion = tile.ver) ∨
        ∃ t, b.tileCache.findTileBeingRendered tile = some t ∧
          ((sid ∈ t.subscribers ∧ t'.subscribers = t.subscribers ∧ t'.getVersion = tile.ver) ∨
            (sid ∉ t.subscribers ∧ t'.subscribers = t.subscribers ++ [sid] ∧ t'.getVersion = t.getVersion))) := by
  unfold subscribe TileCache.subscribeToTileRendering
  cases hfind : b.tileCache.findTileBeingRendered tile with
  | none => exact ⟨⟨[sid], now, tile⟩, rfl, rfl, List.mem_singleton_self sid, .inl ⟨rfl, rfl, rfl⟩⟩
  | some t =>
    have hkey : t.key = tile.key := Table.key_of_find hfind
    by_cases hsid : sid ∈ t.subscribers
    · exact ⟨t.setVersion tile.ver, by simp [hsid, note], hkey, hsid, .inr ⟨t, rfl, .inl ⟨hsid, rfl, rfl⟩⟩⟩
    · exact ⟨{ t with subscribers := t.subscribers ++ [sid] }, by simp [hsid, note], hkey, by simp,
        .inr ⟨t, rfl, .inr ⟨hsid, rfl, rfl⟩⟩⟩

theorem lastAsked_subscribe (tile : TileDesc) (sid now sid' : Nat) (key : TileKey) :
    (b.subscribe tile sid now).lastAsked sid' key =
      if sid = sid' ∧ tile.key = key then some tile.ver else b.lastAsked sid' key := by
  rw [lastAsked_append (b := b) rfl]
  simp only [List.filterMap_cons, List.filterMap_nil, TileLog.askedBy]
  by_cases h : sid = sid' ∧ tile.key = key
  · simp [h]
  · simp [h]

/-- After a subscription the render of its tile has, or will have, the version that each subscriber asked for. -/
theorem subscribe_recorded {tile : TileDesc} {sid now : Nat} {later : List TileLog}
    (hver : RecordsVersion later (.subscribed sid tile (b.tileCache.findTileBeingRendered tile)))
    (hb : b.Recorded (.subscribed sid tile (b.tileCache.findTileBeingRendered tile) :: later)) :
    (b.subscribe tile sid now).Recorded later := by
  obtain ⟨t', hput, hkey', -, hcases⟩ := find_subscribe (b := b) tile sid now
  intro key t ht s hs
  rw [hput, Table.find_put] at ht
  rw [lastAsked_subscribe]
  split at ht
  · rename_i hkey
    obtain rfl := Option.some.inj ht
    obtain rfl : tile.key = key := hkey'.symm.trans hkey.symm
    rcases hcases with ⟨-, hsubs, hver'⟩ | ⟨t, hfind, hcases⟩
    · obtain rfl : s = sid := by simpa [hsubs] using hs
      exact ⟨tile.ver, by simp, .inl hver'.ge⟩
    · simp only [hfind, RecordsVersion] at hver hb
      have hasked := hb tile.key t hfind
      -- a version that is at most what this subscription or the render asked for is recorded or made good
      have hmade {v : Int} (hle : v ≤ max tile.ver t.getVersion) (hrest : v ≤ t'.getVersion ∨
          ∃ entry ∈ later, Renews tile.key (max tile.ver t.getVersion) entry) :
          v ≤ t'.getVersion ∨ ∃ entry ∈ later, Renews tile.key v entry := by
        rcases hrest with h | ⟨entry, he, hr⟩
        · exact .inl h
        · exact .inr ⟨entry, he, renews_mono hle hr⟩
      rcases hcases with ⟨hmem, hsubs, hver'⟩ | ⟨hmem, hsubs, hver'⟩
      · rw [if_pos hmem] at hver
        by_cases heq : sid = s
        · exact ⟨tile.ver, by simp [heq], .inl hver'.ge⟩
        · obtain ⟨v, hv, hle | ⟨entry, he, hr⟩⟩ := hasked s (hsubs ▸ hs)
          · refine ⟨v, by simp [heq, hv], hmade (le_max_of_le_right hle) (hver.imp_left ?_)⟩
            omega
          · refine ⟨v, by simp [heq, hv], ?_⟩
            rcases List.mem_cons.1 he with rfl | he
            · exact .inl (hver' ▸ hr.2.2)
            · exact .inr ⟨entry, he, hr⟩
      · rw [if_neg hmem] at hver
        by_cases heq : sid = s
        · exact ⟨tile.ver, by simp [heq], hmade (le_max_left _ _) (hver.imp_left (hver' ▸ ·))⟩
        · have hs : s ∈ t.subscribers := by
            rcases List.mem_append.1 (hsubs ▸ hs) with hs | hs
            · exact hs
            · exact absurd (List.mem_singleton.1 hs).symm heq
          obtain ⟨v, hv, hle | ⟨entry, he, hr⟩⟩ := hasked s hs
          · exact ⟨v, by simp [heq, hv], .inl (hver' ▸ hle)⟩
          · refine ⟨v, by simp [heq, hv], .inr ⟨entry, ?_, hr⟩⟩
            rcases List.mem_cons.1 he with rfl | he
            · exact absurd hr.1 hmem
            · exact he
  · -- another tile
    rename_i hkey
    have hkey : tile.key ≠ key := fun h => hkey (h.symm.trans hkey'.symm)
    obtain ⟨v, hv, hle | ⟨entry, he, hr⟩⟩ := hb key t ht s hs
    · exact ⟨v, by simp [hkey, hv], .inl hle⟩
    · refine ⟨v, by simp [hkey, hv], .inr ⟨entry, ?_, hr⟩⟩
      rcases List.mem_cons.1 he with rfl | he
      · exact absurd (renews_key hr) hkey
      · exact he

theorem subscribe_waiting {sid' : Nat} {key : TileKey} (hw : b.waiting sid' key) (tile : TileDesc) (sid now : Nat) :
    (b.subscribe tile sid now).waiting sid' key := by
  obtain ⟨t', hput, hkey', -, hcases⟩ := find_subscribe (b := b) tile sid now
  obtain ⟨t, ht, hs⟩ := waiting_iff.1 hw
  rw [waiting_iff, hput]
  by_cases hkey : key = t'.key
  · refine ⟨t', by rw [hkey, Table.find_put_self], ?_⟩
    rw [hkey, hkey'] at ht
    rcases hcases with ⟨hnone, -⟩ | ⟨t₀, hfind, hcases⟩
    · exact absurd (hnone.symm.trans ht) (by simp)
    · obtain rfl : t₀ = t := Option.some.inj (hfind.symm.trans ht)
      rcases hcases with ⟨-, hsubs, -⟩ | ⟨-, hsubs, -⟩
      · rwa [hsubs]
      · rw [hsubs]
        exact List.mem_append_left _ hs
  · exact ⟨t, by rw [Table.find_put_of_ne hkey, ht], hs⟩

theorem subscribe_keepsWaiting (tile : TileDesc) (sid now : Nat) : KeepsWaiting b (b.subscribe tile sid now) :=
  ⟨[.subscribed sid tile (b.tileCache.findTileBeingRendered tile)], rfl, fun _ hver hb =>
    ⟨subscribe_recorded hver.1 hb, fun _ _ hw => subscribe_waiting hw tile sid now⟩⟩

theorem TileMove.keepsWaiting {requestWid : Nat → Prop} (h : TileMove requestWid b b') : KeepsWaiting b b' := by
  cases h with
  | @send desc tile sid _ _ =>
    obtain ⟨new, hlog, hnew⟩ := log_sendTileNow (b := b) sid desc tile
    refine .of_renders_eq new hlog ?_ (by rw [tileCache_sendTileNow])
    intro entry he sid key
    obtain ⟨isTile, payload, rfl⟩ := hnew entry he
    rfl
  | reset sid desc => exact .of_renders_eq [] (by simp) (by simp) (by simp)
  | subscribe tile sid now => exact subscribe_keepsWaiting tile sid now
  | render tiles => exact .of_renders_eq [.rendering tiles] rfl (by simp [TileLog.askedBy]) rfl
  | setRequested sid _ => exact .of_renders_eq [] (by simp) (by simp) (by simp)
  | bump => exact .of_renders_eq [] (by simp [bumpVersion]) (by simp) rfl

theorem TileMoves.keepsWaiting {requestWid : Nat → Prop} (h : TileMoves requestWid b b') : KeepsWaiting b b' := by
  induction h with
  | refl => exact .refl
  | tail _ hm ih => exact ih.trans hm.keepsWaiting

/-! ### Replies -/

@[simp] theorem tilesBeingRendered_ensureCacheSize (c : TileCache) :
    c.ensureCacheSize.tilesBeingRendered = c.tilesBeingRendered := by
  unfold TileCache.ensureCacheSize
  split <;> rfl

@[simp] theorem tilesBeingRendered_saveDataToCache (c : TileCache) (desc : TileDesc) (data : List UInt8) :
    (c.saveDataToCache desc data).1.tilesBeingRendered = c.tilesBeingRendered := by
  unfold TileCache.saveDataToCache
  split
  · rfl
  · extract_lets c'
    split
    · split <;> exact tilesBeingRendered_ensureCacheSize c
    · exact tilesBeingRendered_ensureCacheSize c

/-- A reply that ends its render is saved as a tile. -/
theorem saveDataToCache_isSome {desc : TileDesc} {data : List UInt8}
    (h : b.tileCache.dontCache ∨ TileBlobs.isKeyframe data ∨ (b.tileCache.ensureCacheSize.findTile desc).isSome) :
    (b.tileCache.saveDataToCache desc data).2.isSome := by
  unfold TileCache.saveDataToCache
  split
  · rfl
  · rename_i hd
    dsimp only
    split
    · rename_i hfind
      split
      · rename_i hk
        rw [Bool.not_eq_true'] at hk
        simp [hd, hk, TileCache.findTile, hfind] at h
      · rfl
    · rfl

/-- Sending leaves the sessions open, and closed ones closed. -/
@[simp] theorem isOpen_sendTileNow (sid sid' : Nat) (desc : TileDesc) (tile : TileData) :
    (b.sendTileNow sid desc tile).isOpen sid' = b.isOpen sid' := by
  unfold sendTileNow
  split
  · rfl
  · rename_i session hs
    have hid : session.id = sid := Table.key_of_find hs
    have hput : (b.sessions.put { session with tracker := (session.tracker.updateTileSeq desc).2 }).find sid' =
        if sid' = sid then some { session with tracker := (session.tracker.updateTileSeq desc).2 }
        else b.sessions.find sid' := by
      rw [Table.find_put]
      simp [hid]
    have hopen : ((b.sessions.put { session with tracker := (session.tracker.updateTileSeq desc).2 }).find sid').any
        (fun session => !session.closeFrame) = b.isOpen sid' := by
      rw [hput, isOpen]
      by_cases h : sid' = sid
      · simp [h, hs]
      · simp [h]
    dsimp only
    split <;> exact hopen

theorem sendTileNow_sent {sid : Nat} (h : b.isOpen sid) (desc : TileDesc) (tile : TileData) :
    ∃ isTile payload, (b.sendTileNow sid desc tile).log = b.log ++ [.sent sid isTile desc payload] := by
  obtain ⟨session, hs, hopen⟩ : ∃ session, b.sessions.find sid = some session ∧ session.closeFrame = false := by
    simpa [isOpen, Option.any_eq_true] using h
  let lastSentId := (session.tracker.updateTileSeq desc).1
  refine ⟨tile.needsKeyframe lastSentId || tile.isPng,
    (tile.appendChangesSince (if tile.isPng then 0 else lastSentId)).getD [], ?_⟩
  simp [sendTileNow, hs, hopen, note, lastSentId]

/-- Handing a tile to the subscribers: each one that is open gets it. -/
theorem foldl_sendTileNow (desc : TileDesc) (tile : TileData) (sids : List Nat) (b : TileBroker) :
    let b' := sids.foldl (fun b sid => b.sendTileNow sid desc tile) b
    b'.tileCache = b.tileCache ∧ (∀ sid, b'.isOpen sid = b.isOpen sid) ∧
      ∃ new, b'.log = b.log ++ new ∧ (∀ entry ∈ new, ∃ sid isTile payload, entry = .sent sid isTile desc payload) ∧
        ∀ sid ∈ sids, b.isOpen sid → ∃ isTile payload, .sent sid isTile desc payload ∈ new := by
  induction sids generalizing b with
  | nil => exact ⟨rfl, fun _ => rfl, [], by simp, by simp, by simp⟩
  | cons sid sids ih =>
    obtain ⟨hcache, hopen, new, hlog, hnew, hsent⟩ := ih (b.sendTileNow sid desc tile)
    obtain ⟨first, hfirst, hsends⟩ := log_sendTileNow (b := b) sid desc tile
    refine ⟨hcache.trans (tileCache_sendTileNow sid desc tile), fun sid' => (hopen sid').trans (by simp),
      first ++ new, ?_, ?_, ?_⟩
    · rw [List.foldl_cons, hlog, hfirst, List.append_assoc]
    · intro entry he
      rcases List.mem_append.1 he with he | he
      · obtain ⟨isTile, payload, rfl⟩ := hsends entry he
        exact ⟨sid, isTile, payload, rfl⟩
      · exact hnew entry he
    · intro sid' hmem hopen'
      rcases List.mem_cons.1 hmem with rfl | hmem
      · obtain ⟨isTile, payload, hlog'⟩ := sendTileNow_sent hopen' desc tile
        have : first = [.sent sid' isTile desc payload] := List.append_cancel_left (hfirst.symm.trans hlog')
        exact ⟨isTile, payload, List.mem_append_left _ (by simp [this])⟩
      · obtain ⟨isTile, payload, hin⟩ := hsent sid' hmem (by simpa using hopen')
        exact ⟨isTile, payload, List.mem_append_right _ hin⟩

/-- What a reply does: it sends the tile, if it is saved, and then forgets the render, if it is the latest version. -/
theorem saveTileAndNotify_cases (desc : TileDesc) (data : List UInt8) :
    let b' := b.saveTileAndNotify desc data
    (∀ sid, b'.isOpen sid = b.isOpen sid) ∧
      (∃ new, b'.log = b.log ++ new ∧ (∀ entry ∈ new, ∀ sid key, entry.askedBy sid key = none) ∧
        ∀ t, b.tileCache.findTileBeingRendered desc = some t → (b.tileCache.saveDataToCache desc data).2.isSome →
          ∀ sid ∈ t.subscribers, b.isOpen sid → ∃ isTile payload, .sent sid isTile desc payload ∈ new) ∧
      ((b'.tileCache.tilesBeingRendered = b.tileCache.tilesBeingRendered) ∨
        ∃ t, b.tileCache.findTileBeingRendered desc = some t ∧ t.getVersion ≤ desc.ver ∧
          b'.tileCache.tilesBeingRendered = b.tileCache.tilesBeingRendered.erase desc.key) := by
  intro b'
  have hsame := tilesBeingRendered_saveDataToCache b.tileCache desc data
  generalize hsave : b.tileCache.saveDataToCache desc data = saved at hsame
  obtain ⟨cache, tile⟩ := saved
  let entry := if tile.isSome then TileLog.stored desc data
    else .discarded desc (b.tileCache.findTileBeingRendered desc)
  let b₂ := ({ b with tileCache := cache } : TileBroker).note entry
  have hlog₂ : b₂.log = b.log ++ [entry] := rfl
  have hentry (sid : Nat) (key : TileKey) : entry.askedBy sid key = none := by
    unfold entry
    split <;> rfl
  have hrenders₂ : b₂.tileCache.tilesBeingRendered = b.tileCache.tilesBeingRendered := hsame
  have hopen₂ (sid : Nat) : b₂.isOpen sid = b.isOpen sid := rfl
  cases hfind : b.tileCache.findTileBeingRendered desc with
  | none =>
    have hb' : b' = b₂ := by
      simp only [b', saveTileAndNotify, hsave, hfind, b₂, entry]
    rw [hb']
    exact ⟨hopen₂, ⟨[entry], hlog₂, by simpa using hentry, by simp⟩, .inl hrenders₂⟩
  | some t =>
    have hkey : t.key = desc.key := Table.key_of_find hfind
    have hforget (c : TileCache) (hc : c.tilesBeingRendered = b.tileCache.tilesBeingRendered) :
        (c.forgetTileBeingRendered desc t).tilesBeingRendered = b.tileCache.tilesBeingRendered ∨
          ∃ t', some t = some t' ∧ t'.getVersion ≤ desc.ver ∧
            (c.forgetTileBeingRendered desc t).tilesBeingRendered =
              b.tileCache.tilesBeingRendered.erase desc.key := by
      unfold TileCache.forgetTileBeingRendered
      split
      · rename_i hver
        exact .inr ⟨t, rfl, hver, by rw [← hkey, ← hc]⟩
      · exact .inl hc
    cases tile with
    | none =>
      have hb' : b' = { b₂ with tileCache := b₂.tileCache.forgetTileBeingRendered desc t } := by
        simp only [b', saveTileAndNotify, hsave, hfind, b₂, entry]
      rw [hb']
      exact ⟨hopen₂, ⟨[entry], hlog₂, by simpa using hentry, by simp⟩, hforget _ hrenders₂⟩
    | some tile =>
      let b₃ := t.subscribers.foldl (fun b sid => b.sendTileNow sid desc tile) b₂
      have hb' : b' = { b₃ with tileCache := b₃.tileCache.forgetTileBeingRendered desc t } := by
        simp only [b', saveTileAndNotify, hsave, hfind, b₃, b₂, entry]
      rw [hb']
      obtain ⟨hcache, hopen, new, hlog, hnew, hsent⟩ := foldl_sendTileNow desc tile t.subscribers b₂
      refine ⟨hopen, ⟨entry :: new, ?_, ?_, ?_⟩, hforget _ (by rw [hcache, hrenders₂])⟩
      · rw [hlog, hlog₂, List.append_assoc, List.singleton_append]
      · intro entry' he sid key
        rcases List.mem_cons.1 he with rfl | he
        · exact hentry sid key
        · obtain ⟨sid', isTile, payload, rfl⟩ := hnew entry' he
          rfl
      · intro t' ht' _ sid hsid hopen'
        obtain rfl := Option.some.inj ht'
        obtain ⟨isTile, payload, hin⟩ := hsent sid hsid hopen'
        exact ⟨isTile, payload, List.mem_cons_of_mem _ hin⟩

theorem Recorded.saveTileAndNotify (h : b.Recorded []) (desc : TileDesc) (data : List UInt8) :
    (b.saveTileAndNotify desc data).Recorded [] := by
  obtain ⟨-, ⟨new, hlog, hnew, -⟩, hrenders⟩ := saveTileAndNotify_cases (b := b) desc data
  refine (h.mono (List.nil_subset _)).congr hlog hnew ?_
  intro key t ht
  rcases hrenders with heq | ⟨-, -, -, heq⟩
  · rwa [heq] at ht
  · rw [heq] at ht
    by_cases hkey : key = desc.key
    · rw [hkey, Table.find_erase_self] at ht
      cases ht
    · rwa [Table.find_erase_of_ne hkey] at ht

theorem saveTileAndNotify_noLostSubscription (h : b.Recorded []) {desc : TileDesc} {data : List UInt8}
    (hend : b.EndsWithTile desc data) :
    NoLostSubscription b (.reply desc data) (b.saveTileAndNotify desc data) := by
  obtain ⟨hopen, ⟨new, hlog, -, hsent⟩, hrenders⟩ := saveTileAndNotify_cases (b := b) desc data
  intro sid key hw ho
  obtain ⟨t, ht, hsid⟩ := waiting_iff.1 hw
  rcases hrenders with heq | ⟨t', hfind, hver, heq⟩
  · exact .inl (by rwa [waiting, heq])
  · by_cases hkey : key = desc.key
    · -- the render of this tile is forgotten: its version is at least what the session asked for
      right
      subst hkey
      obtain rfl : t' = t := Option.some.inj (hfind.symm.trans ht)
      obtain ⟨v, hv, hle | ⟨entry, he, -⟩⟩ := h _ _ ht sid hsid
      on_goal 2 => cases he
      obtain ⟨isTile, payload, hin⟩ :=
        hsent t' hfind (saveDataToCache_isSome (hend t' hfind hver)) sid hsid ((hopen sid).symm.trans ho)
      exact ⟨desc, data, rfl, rfl, ⟨v, hv, hle.trans hver⟩, isTile, payload, by rwa [logSince_eq hlog]⟩
    · left
      rw [waiting_iff, heq]
      exact ⟨t, by rw [Table.find_erase_of_ne hkey, ht], hsid⟩

/-! ### Runs -/

theorem requestsOk_any : RequestsOk (fun _ => True) b := fun _ _ _ => True.intro

theorem requestWid_any (e : Event) : e.RequestWid fun _ => True := by
  cases e <;> simp [Event.RequestWid]

/-- Steps that are no replies keep all subscriptions, and replies end them only as they should. -/
theorem step_noLostSubscription {e : Event} (h : b.Recorded []) (hok : InOrder b e) (hs : step b e = some b') :
    b'.Recorded [] ∧ NoLostSubscription b e b' := by
  have hkeeps (hk : KeepsWaiting b b') : b'.Recorded [] ∧ NoLostSubscription b e b' := by
    obtain ⟨new, hlog, hk⟩ := hk
    have hver : RecordsVersions (new ++ []) := by
      rw [List.append_nil, ← logSince_eq hlog]
      exact hok.1 b' hs
    obtain ⟨hrec, hwait⟩ := hk [] hver (h.mono (List.nil_subset _))
    exact ⟨hrec, fun sid key hw _ => .inl (hwait sid key hw)⟩
  cases step_cases requestsOk_any (requestWid_any e) hs with
  | joins canonicalViewId => exact hkeeps (.of_renders_eq [] (by simp) (by simp) rfl)
  | leaves sid => exact hkeeps (.of_renders_eq [] (by simp) (by simp) rfl)
  | closes _ => exact hkeeps (.of_renders_eq [] (by simp) (by simp) rfl)
  | setCanonicalViewId _ _ => exact hkeeps (.of_renders_eq [] (by simp) (by simp) rfl)
  | moves _ hm => exact hkeeps hm.keepsWaiting
  | reply _ => exact ⟨h.saveTileAndNotify _ _, saveTileAndNotify_noLostSubscription h (hok.2 _ _ rfl)⟩
  | invalidatetiles intersects => exact hkeeps (.of_renders_eq [] (by simp) (by simp) rfl)
  | setMaxCacheSize cacheSize =>
    refine hkeeps (.of_renders_eq [] (by simp) (by simp) ?_)
    exact tilesBeingRendered_ensureCacheSize _

theorem Recorded.of_reachable {dontCache : Bool} (h : Run.Reachable (· = initial dontCache) step InOrder b) :
    b.Recorded [] := by
  refine h.invariant (fun b => b.Recorded []) ?_ ?_
  · rintro _ rfl
    intro key t ht
    cases ht
  · intro b e b' _ hrec hok hs
    exact (step_noLostSubscription hrec hok hs).1

/-- No session is dropped from a render in flight before the version it asked for is handed to it, in every run in
which subscriptions record their versions and no reply that ends a render is discarded. -/
theorem noLostSubscription_of_inOrder {dontCache : Bool} {e : Event}
    (h : Run.Reachable (· = initial dontCache) step InOrder b) (hok : InOrder b e) (hs : step b e = some b') :
    NoLostSubscription b e b' :=
  (step_noLostSubscription (Recorded.of_reachable h) hok hs).2

/-! ### Two lost subscriptions and one that is kept -/

instance (key : TileKey) (v : Int) (entry : TileLog) : Decidable (Renews key v entry) := by
  unfold Renews
  split <;> infer_instance

instance (later : List TileLog) (entry : TileLog) : Decidable (RecordsVersion later entry) := by
  unfold RecordsVersion
  split <;> infer_instance

instance decidableRecordsVersions : (log : List TileLog) → Decidable (RecordsVersions log)
  | [] => isTrue True.intro
  | entry :: later =>
    have := decidableRecordsVersions later
    inferInstanceAs (Decidable (RecordsVersion later entry ∧ RecordsVersions later))

/-- The condition on a step, evaluated. -/
def inOrder (b : TileBroker) (e : Event) : Bool :=
  ((step b e).all fun b' => decide (RecordsVersions (b.logSince b'))) &&
    match e with
    | .reply desc data => (b.tileCache.findTileBeingRendered desc).all fun t => !(t.getVersion ≤ desc.ver) ||
        b.tileCache.dontCache || TileBlobs.isKeyframe data || (b.tileCache.ensureCacheSize.findTile desc).isSome
    | _ => true

theorem inOrder_of_eq_true {e : Event} (h : b.inOrder e = true) : InOrder b e := by
  simp only [inOrder, Bool.and_eq_true] at h
  obtain ⟨hrec, hend⟩ := h
  constructor
  · intro b' hs
    rw [hs, Option.all_some] at hrec
    exact of_decide_eq_true hrec
  · rintro desc data rfl t ht hver
    simpa [ht, hver, or_assoc] using hend

def cornerTile : TileDesc := ⟨⟨0, 0, 0, 256, 256, 0, 0, 3840, 3840⟩, 0, 0, 0, 0, 0⟩

/-- The last state of a run breaks the property at session `sid`: it is open and waits for version `v` of the corner
tile, and no longer waits after the reply, which either is too old or was not sent to it. -/
private def losesSubscription (sid : Nat) (e : Event) (b : TileBroker) : Bool :=
  (step b e).any fun b' => b.waiting sid cornerTile.key && b'.isOpen sid && !b'.waiting sid cornerTile.key &&
    match e with
    | .reply desc _ => (b.lastAsked sid cornerTile.key).all (fun v => desc.ver < v) ||
        !(b.logSince b').any fun
          | .sent session _ tile _ => session == sid && tile == desc
          | _ => false
    | _ => false

private theorem not_noLostSubscription {sid : Nat} {e : Event} (h : losesSubscription sid e b = true) :
    ∃ b', step b e = some b' ∧ ¬ NoLostSubscription b e b' := by
  obtain ⟨b', hs, h⟩ := (Option.any_eq_true _ _).1 h
  simp only [Bool.and_eq_true, Bool.not_eq_true'] at h
  obtain ⟨⟨⟨hw, ho⟩, hw'⟩, hbad⟩ := h
  refine ⟨b', hs, fun hno => ?_⟩
  rcases hno sid cornerTile.key hw ho with h | ⟨desc, data, rfl, -, ⟨v, hv, hle⟩, isTile, payload, hin⟩
  · rw [h] at hw'
    cases hw'
  · rcases Bool.or_eq_true_iff.1 hbad with hbad | hbad
    · simp only [hv, Option.all_some, decide_eq_true_eq] at hbad
      omega
    · rw [Bool.not_eq_true', List.any_eq_false] at hbad
      have := hbad _ hin
      simp at this

/-- Session 1 joins the render that session 0 asked for and asks for version 3, and the reply with version 1 ends its
subscription.  Session 0 asks for a tile that is not cached, and the reply, a delta, is discarded. -/
theorem loses_subscriptions :
    (∃ b b', Run.Reachable (· = initial false) step Run.Any b ∧
      step b (.reply (cornerTile.setVersion 1) [90]) = some b' ∧
      ¬ NoLostSubscription b (.reply (cornerTile.setVersion 1) [90]) b') ∧
    ∃ b b', Run.Reachable (· = initial false) step Run.Any b ∧
      step b (.reply (cornerTile.setVersion 1) [68]) = some b' ∧
      ¬ NoLostSubscription b (.reply (cornerTile.setVersion 1) [68]) b' := by
  constructor
  · obtain ⟨b, hr, hb⟩ : ∃ b, Run.Reachable (· = initial false) step Run.Any b ∧
        losesSubscription 1 (.reply (cornerTile.setVersion 1) [90]) b = true :=
      Run.Reachable.exists_of_run (initial false)
        [.joins 0, .joins 0, .tilecombine 0 [cornerTile] 0 10, .tile 1 cornerTile 0] rfl (by decide)
    obtain ⟨b', hs, hno⟩ := not_noLostSubscription hb
    exact ⟨b, b', hr, hs, hno⟩
  · obtain ⟨b, hr, hb⟩ : ∃ b, Run.Reachable (· = initial false) step Run.Any b ∧
        losesSubscription 0 (.reply (cornerTile.setVersion 1) [68]) b = true :=
      Run.Reachable.exists_of_run (initial false) [.joins 0, .tilecombine 0 [cornerTile] 0 10] rfl (by decide)
    obtain ⟨b', hs, hno⟩ := not_noLostSubscription hb
    exact ⟨b, b', hr, hs, hno⟩

/-- Two sessions ask for the same tile, and the reply of the last version is handed to both. -/
theorem noLostSubscription_of_two_sessions :
    ∃ b b', Run.Reachable (· = initial false) step InOrder b ∧ b.waiting 0 cornerTile.key ∧
    b.waiting 1 cornerTile.key ∧
      step b (.reply (cornerTile.setVersion 4) [90]) = some b' ∧
      NoLostSubscription b (.reply (cornerTile.setVersion 4) [90]) b' := by
  let e : Event := .reply (cornerTile.setVersion 4) [90]
  obtain ⟨b, hr, hb⟩ : ∃ b, Run.Reachable (· = initial false) (Run.guarded step inOrder) Run.Any b ∧
      (b.waiting 0 cornerTile.key && b.waiting 1 cornerTile.key && (step b e).isSome && b.inOrder e) = true :=
    Run.Reachable.exists_of_run (initial false)
      [.joins 0, .joins 0, .tilecombine 0 [cornerTile] 0 10, .tilecombine 1 [cornerTile] 0 10] rfl (by decide)
  simp only [Bool.and_eq_true] at hb
  obtain ⟨⟨⟨hw, hw'⟩, hs⟩, hok⟩ := hb
  obtain ⟨b', hs⟩ := Option.isSome_iff_exists.1 hs
  have hr := hr.of_guarded fun b e => inOrder_of_eq_true
  exact ⟨b, b', hr, hw, hw', hs, noLostSubscription_of_inOrder hr (inOrder_of_eq_true hok) hs⟩

end TileBroker

end CollaboraOnline
