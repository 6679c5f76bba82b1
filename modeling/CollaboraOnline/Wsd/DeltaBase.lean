import CollaboraOnline.Kit.DeltaProgram
import CollaboraOnline.Kit.KitQueue
import CollaboraOnline.Lib.Run

/-!
# The base of a delta

The kit keeps the bitmap it last rendered at each `TileLocation` and computes deltas against it; the server appends
them to the tile with the key of the request.  The two keys differ: a location has no tile height and no size in
pixels.  `DeltaPipeline` is both caches, with the requests that were rendered and those that were stored, the newest
first, and for each delta that was appended its base and the bitmap of the frame before it.
-/

namespace CollaboraOnline

structure TileLocation where
  left : Int
  top : Int
  size : Int
  part : Int
  canonicalViewId : Int
  viewMode : Int
deriving DecidableEq, Repr

/-- The location that `doRender` gives to a tile. -/
def TileDesc.location (tile : TileDesc) : TileLocation :=
  ⟨tile.tilePosX, tile.tilePosY, tile.tileWidth, tile.part, tile.canonicalViewId, tile.mode⟩

/-- An entry of `_deltaEntries`. -/
structure DeltaEntry where
  loc : TileLocation
  wid : Nat
  data : DeltaData

structure DeltaGenerator where
  deltaEntries : Table DeltaEntry.loc
  maxEntries : Nat

section

variable (simd : Simd) (mode : TileMode) (zstd : List UInt8 → List UInt8)

namespace DeltaGenerator

def new : DeltaGenerator := ⟨Table.empty, 0⟩

/-- `rebalanceDeltasT`: the entries with the smallest wire ids go. -/
def rebalanceDeltas (g : DeltaGenerator) (dropAll : Bool) : DeltaGenerator :=
  let entries := g.deltaEntries.entries
  if g.maxEntries < entries.length || dropAll then
    let toRemove := if dropAll then entries.length else entries.length - g.maxEntries * 3 / 4
    let removed :=
      (((entries.map fun e => (e.wid, e.loc)).insertionSort fun a b => a.1 ≤ b.1).take toRemove).map Prod.snd
    { g with deltaEntries := g.deltaEntries.filter fun e => decide (e.loc ∉ removed) }
  else g

def setSessionCount (g : DeltaGenerator) (count : Nat) : DeltaGenerator :=
  { g with maxEntries := max count 1 * 96 }.rebalanceDeltas false

def dropCache (g : DeltaGenerator) : DeltaGenerator := g.rebalanceDeltas true

/-- `createDelta` on a bitmap of an accepted size; `update` is the new bitmap. -/
def createDelta (g : DeltaGenerator) (loc : TileLocation) (wid : Nat) (update : DeltaData) (forceKeyframe : Bool) :
    DeltaGenerator × Option (List UInt8) :=
  match g.deltaEntries.find loc with
  | none => ({ g with deltaEntries := g.deltaEntries.put ⟨loc, wid, update⟩ }, none)
  | some cacheEntry =>
    ({ g with deltaEntries := g.deltaEntries.put ⟨loc, wid, update⟩ },
      if forceKeyframe then none
      else (makeDelta simd mode cacheEntry.data update).map fun output =>
        68 :: if output.isEmpty then [] else zstd output)

/-- `compressOrDelta`: the bytes of a delta or of a keyframe. -/
def compressOrDelta (g : DeltaGenerator) (loc : TileLocation) (wid : Nat) (update : DeltaData)
    (forceKeyframe : Bool) : DeltaGenerator × List UInt8 :=
  match g.createDelta simd mode zstd loc wid update forceKeyframe with
  | (g, some delta) => (g, delta)
  | (g, none) => (g, 90 :: zstd (update.packKeyframe simd mode))

end DeltaGenerator

/-! ### Both caches -/

/-- A request that was rendered, under the wire id it got, and its bitmap. -/
structure Rendered where
  desc : TileDesc
  data : DeltaData

/-- A delta that was appended: what it was computed against, and the bitmap of the frame before it. -/
structure AppendedDelta where
  base : DeltaData
  previous : Option DeltaData

structure DeltaPipeline where
  gen : DeltaGenerator
  cache : TileCache
  nextId : Nat
  rendered : List Rendered := []
  stored : List Rendered := []
  appended : List AppendedDelta := []

namespace DeltaPipeline

/-- The newest of some requests with a key. -/
def newest (requests : List Rendered) (key : TileKey) : Option Rendered :=
  requests.find? fun r => decide (r.desc.key = key)

/-- The newest request that was rendered by the delta generator at a location. -/
def newestAt (requests : List Rendered) (loc : TileLocation) : Option Rendered :=
  requests.find? fun r => !r.desc.isPreview && decide (r.desc.location = loc)

/-- The reply for a tile reaches the server: `saveDataToCache`. -/
def store (s : DeltaPipeline) (r : Rendered) (bytes : List UInt8) (base : Option DeltaData) : DeltaPipeline :=
  let appends := !TileBlobs.isKeyframe bytes && (s.cache.ensureCacheSize.cache.find r.desc.key).isSome
  let (cache, tile) := s.cache.saveDataToCache r.desc bytes
  { s with
    cache
    rendered := r :: s.rendered
    stored := if tile.isSome then r :: s.stored else s.stored
    appended :=
      match base with
      | some base => if appends then ⟨base, (newest s.stored r.desc.key).map Rendered.data⟩ ::
        s.appended else s.appended
      | none => s.appended }

inductive Event where
  | render (tile : TileDesc) (bitmap : Subbuffer tile.width.toNat tile.height.toNat) (png : List UInt8)
  | rebalanceDeltas
  | setSessionCount (count : Nat)
  | dropCache
  | subscribe (tile : TileDesc) (session now : Nat)
  | forget (tile : TileDesc)
  | setMaxCacheSize (cacheSize : Int)
  | clear
  | invalidateTiles (intersects : TileDesc → Bool)

/-- A tile of a size that is refused takes the kit down. -/
def step (s : DeltaPipeline) : Event → Option DeltaPipeline
  | .render tile bitmap png =>
    let wireId := s.nextId + 1
    let data := DeltaData.ofPixmap simd bitmap
    let desc := tile.setWireId wireId
    if !tile.isValid then none
    else if tile.isPreview then some ({ s with nextId := wireId }.store ⟨desc, data⟩ (0x89 :: png) none)
    else if !createDeltaAccepts tile.width.toNat tile.height.toNat then none
    else
      let base := (s.gen.deltaEntries.find tile.location).map DeltaEntry.data
      let (gen, bytes) := s.gen.compressOrDelta simd mode zstd tile.location wireId data tile.isForcedKeyFrame
      some ({ s with nextId := wireId, gen }.store ⟨desc, data⟩ bytes base)
  | .rebalanceDeltas => some { s with gen := s.gen.rebalanceDeltas false }
  | .setSessionCount count => some { s with gen := s.gen.setSessionCount count }
  | .dropCache => some { s with gen := s.gen.dropCache }
  | .subscribe tile session now => some { s with cache := (s.cache.subscribeToTileRendering tile session now).1 }
  | .forget tile =>
    match s.cache.findTileBeingRendered tile with
    | none => none
    | some t => some { s with cache := s.cache.forgetTileBeingRendered tile t }
  | .setMaxCacheSize cacheSize => some { s with cache := s.cache.setMaxCacheSize cacheSize }
  | .clear => some { s with cache := s.cache.clear }
  | .invalidateTiles intersects => some { s with cache := s.cache.invalidateTiles intersects }

def IsInitial (s : DeltaPipeline) : Prop := s = { gen := .new, cache := .new false, nextId := 0 }

/-- Every delta that was appended was computed against the bitmap of the frame before it. -/
def BasesAgree (s : DeltaPipeline) : Prop := ∀ delta ∈ s.appended, delta.previous = some delta.base

/-- The condition on a request that may be answered by a delta: the newest request with its key is the newest one that
was rendered at its location, or that one has another size in pixels. -/
def sameTile (s : DeltaPipeline) : Event → Bool
  | .render tile _ _ =>
    tile.isPreview || tile.isForcedKeyFrame ||
      match newestAt s.rendered tile.location with
      | none => true
      | some r =>
        r.desc.width ≠ tile.width || r.desc.height ≠ tile.height ||
          decide ((newest s.rendered tile.key).map Rendered.desc = some r.desc)
  | _ => true

/-! ### The invariant -/

/-- What holds in the runs whose requests meet the condition: an entry of the kit is the newest bitmap of its
location, and a tile of the server ends with the newest bitmap of its key. -/
structure InStep (s : DeltaPipeline) : Prop where
  caches : s.cache.dontCache = false
  entry : ∀ loc e, s.gen.deltaEntries.find loc = some e → ∃ r, newestAt s.rendered loc = some r ∧ r.data = e.data
  tile : ∀ key e, s.cache.cache.find key = some e → newest s.stored key = newest s.rendered key
  size : ∀ r ∈ s.rendered, r.desc.isValid = true ∧ r.data.width = r.desc.width.toNat ∧
  r.data.height = r.desc.height.toNat
  wids : (s.rendered.map fun r => r.desc.wireId).Nodup
  fresh : ∀ r ∈ s.rendered, r.desc.wireId ≤ s.nextId
  agree : s.BasesAgree

variable {s s' : DeltaPipeline} {r : Rendered} {requests : List Rendered} {key : TileKey} {loc : TileLocation}

theorem newest_cons_of_ne (h : r.desc.key ≠ key) : newest (r :: requests) key = newest requests key := by
  simp [newest, h]

theorem newest_cons_self : newest (r :: requests) r.desc.key = some r := by simp [newest]

theorem newestAt_cons_of_ne (h : r.desc.location ≠ loc) : newestAt (r :: requests) loc = newestAt requests loc := by
  simp [newestAt, h]

theorem newestAt_cons_preview (h : r.desc.isPreview = true) :
    newestAt (r :: requests) loc = newestAt requests loc := by
  simp [newestAt, h]

theorem newestAt_cons_self (h : r.desc.isPreview = false) : newestAt (r :: requests) r.desc.location = some r := by
  simp [newestAt, h]

/-- The caches may lose entries. -/
theorem InStep.drop (h : s.InStep) (hgen : ∀ loc e, s'.gen.deltaEntries.find loc = some e →
      s.gen.deltaEntries.find loc = some e)
    (hcache : ∀ key e, s'.cache.cache.find key = some e → ∃ e', s.cache.cache.find key = some e')
    (hdont : s'.cache.dontCache = s.cache.dontCache) (hnext : s'.nextId = s.nextId)
    (hrendered : s'.rendered = s.rendered) (hstored : s'.stored = s.stored) (happended : s'.appended = s.appended) :
    s'.InStep := by
  refine ⟨hdont.trans h.caches, ?_, ?_, ?_, ?_, ?_, ?_⟩
  · intro loc e he
    rw [hrendered]
    exact h.entry loc e (hgen loc e he)
  · intro key e he
    obtain ⟨e', he'⟩ := hcache key e he
    rw [hrendered, hstored]
    exact h.tile key e' he'
  · rw [hrendered]
    exact h.size
  · rw [hrendered]
    exact h.wids
  · rw [hrendered, hnext]
    exact h.fresh
  · unfold BasesAgree
    rw [happended]
    exact h.agree

/-- What storing a reply does to the cache: a tile that is there then ends with the reply. -/
theorem saveDataToCache_find {c : TileCache} {desc : TileDesc} {bytes : List UInt8} (hdont : c.dontCache = false)
    {e : CachedTile} (he : (c.saveDataToCache desc bytes).1.cache.find key = some e) :
    (key = desc.key → (c.saveDataToCache desc bytes).2.isSome = true) ∧
      (key ≠ desc.key → ∃ e', c.cache.find key = some e') := by
  unfold TileCache.saveDataToCache at he ⊢
  rw [hdont, if_neg Bool.false_ne_true] at he ⊢
  dsimp only at he ⊢
  cases hfind : c.ensureCacheSize.cache.find desc.key with
  | none =>
    rw [hfind] at he
    dsimp only at he ⊢
    split at he
    · rename_i hdelta
      rw [if_pos hdelta]
      refine ⟨?_, fun _ => ⟨e, TileCache.find_ensureCacheSize he⟩⟩
      rintro rfl
      rw [hfind] at he
      cases he
    · rename_i hkey
      rw [if_neg hkey]
      refine ⟨fun _ => rfl, fun hne => ⟨e, TileCache.find_ensureCacheSize ?_⟩⟩
      have hne : key ≠ CachedTile.key ⟨desc, TileData.new desc.wireId bytes⟩ := hne
      exact (Table.find_put_of_ne hne).symm.trans he
  | some e₀ =>
    rw [hfind] at he
    dsimp only at he ⊢
    refine ⟨fun _ => rfl, fun hne => ⟨e, TileCache.find_ensureCacheSize ?_⟩⟩
    have hkey : e₀.key = desc.key := Table.key_of_find hfind
    exact (Table.find_put_of_ne (hkey ▸ hne)).symm.trans he

theorem dontCache_saveDataToCache {c : TileCache} {desc : TileDesc} {bytes : List UInt8} :
    (c.saveDataToCache desc bytes).1.dontCache = c.dontCache := by
  unfold TileCache.saveDataToCache
  split
  · rfl
  · dsimp only
    split
    · split
      · exact TileCache.dontCache_ensureCacheSize c
      · exact TileCache.dontCache_ensureCacheSize c
    · exact TileCache.dontCache_ensureCacheSize c

/-- Storing the reply for a new request. -/
theorem InStep.store {bytes : List UInt8} {base : Option DeltaData} {gen : DeltaGenerator} (h : s.InStep)
    (hvalid : r.desc.isValid = true)
    (hsize : r.data.width = r.desc.width.toNat ∧ r.data.height = r.desc.height.toNat)
    (hwid : r.desc.wireId = s.nextId + 1)
    (hgen : ∀ loc e, gen.deltaEntries.find loc = some e →
      ∃ r', newestAt (r :: s.rendered) loc = some r' ∧ r'.data = e.data)
    (hbase : ∀ b, base = some b → TileBlobs.isKeyframe bytes = false → ∀ e, s.cache.cache.find r.desc.key = some e →
      (newest s.stored r.desc.key).map Rendered.data = some b) :
    ({ s with nextId := s.nextId + 1, gen }.store r bytes base).InStep := by
  refine ⟨dontCache_saveDataToCache.trans h.caches, hgen, ?_, ?_, ?_, ?_, ?_⟩
  · intro key e he
    obtain ⟨hself, hother⟩ := saveDataToCache_find h.caches he
    change newest (if (s.cache.saveDataToCache r.desc bytes).2.isSome then r :: s.stored else s.stored) key =
      newest (r :: s.rendered) key
    by_cases hkey : key = r.desc.key
    · rw [if_pos (hself hkey), hkey, newest_cons_self, newest_cons_self]
    · obtain ⟨e', he'⟩ := hother hkey
      have hne : r.desc.key ≠ key := fun heq => hkey heq.symm
      rw [newest_cons_of_ne hne, ← h.tile key e' he']
      split
      · exact newest_cons_of_ne hne
      · rfl
  · intro r' hr'
    rcases List.mem_cons.1 hr' with rfl | hr'
    · exact ⟨hvalid, hsize⟩
    · exact h.size r' hr'
  · refine List.nodup_cons.2 ⟨?_, h.wids⟩
    intro hin
    obtain ⟨r', hr', heq⟩ := List.mem_map.1 hin
    dsimp only at heq
    have := h.fresh r' hr'
    omega
  · intro r' hr'
    change r'.desc.wireId ≤ s.nextId + 1
    rcases List.mem_cons.1 hr' with rfl | hr'
    · omega
    · have := h.fresh r' hr'
      omega
  · intro delta hdelta
    simp only [DeltaPipeline.store] at hdelta
    cases hb : base with
    | none =>
      rw [hb] at hdelta
      exact h.agree delta hdelta
    | some b =>
      rw [hb] at hdelta
      dsimp only at hdelta
      split at hdelta
      · rename_i happends
        simp only [Bool.and_eq_true, Bool.not_eq_true'] at happends
        rcases List.mem_cons.1 hdelta with rfl | hdelta
        · obtain ⟨e, he⟩ := Option.isSome_iff_exists.1 happends.2
          exact hbase b hb happends.1 e (TileCache.find_ensureCacheSize he)
        · exact h.agree delta hdelta
      · exact h.agree delta hdelta

theorem find_of_filter {g : DeltaGenerator} {dropAll : Bool} {e : DeltaEntry}
    (h : (g.rebalanceDeltas dropAll).deltaEntries.find loc = some e) : g.deltaEntries.find loc = some e := by
  unfold DeltaGenerator.rebalanceDeltas at h
  dsimp only at h
  split at h
  · rw [Table.find_filter] at h
    exact (Option.filter_eq_some_iff.1 h).1
  · exact h

/-- Rendering puts the new bitmap in the place of the one at its location. -/
theorem find_compressOrDelta {g : DeltaGenerator} {wid : Nat} {update : DeltaData} {forceKeyframe : Bool}
    {loc' : TileLocation} {e : DeltaEntry}
    (h : (g.compressOrDelta simd mode zstd loc wid update forceKeyframe).1.deltaEntries.find loc' = some e) :
    (loc' = loc ∧ e.data = update) ∨ (loc' ≠ loc ∧ g.deltaEntries.find loc' = some e) := by
  have hput : (g.compressOrDelta simd mode zstd loc wid update forceKeyframe).1.deltaEntries =
      g.deltaEntries.put ⟨loc, wid, update⟩ := by
    unfold DeltaGenerator.compressOrDelta DeltaGenerator.createDelta
    cases g.deltaEntries.find loc with
    | none => rfl
    | some cacheEntry =>
      dsimp only
      split <;> rename_i heq <;> rw [← congrArg (fun p => p.1.deltaEntries) heq]
  rw [hput, Table.find_put] at h
  split at h
  · rename_i hloc
    exact Or.inl ⟨hloc, by rw [← Option.some.inj h]⟩
  · rename_i hloc
    exact Or.inr ⟨hloc, h⟩

/-- A reply that is not a keyframe was computed against the entry of the location, which has the same size. -/
theorem delta_of_compressOrDelta {g : DeltaGenerator} {wid : Nat} {update : DeltaData} {forceKeyframe : Bool}
    (h : TileBlobs.isKeyframe (g.compressOrDelta simd mode zstd loc wid update forceKeyframe).2 = false) :
    forceKeyframe = false ∧ ∃ e, g.deltaEntries.find loc = some e ∧ e.data.width = update.width ∧
      e.data.height = update.height := by
  unfold DeltaGenerator.compressOrDelta DeltaGenerator.createDelta at h
  cases hfind : g.deltaEntries.find loc with
  | none =>
    rw [hfind] at h
    cases h
  | some cacheEntry =>
    rw [hfind] at h
    cases hforce : forceKeyframe with
    | true =>
      rw [hforce] at h
      cases h
    | false =>
      refine ⟨rfl, cacheEntry, rfl, ?_⟩
      rw [hforce] at h
      by_contra hsize
      have hnone : makeDelta simd mode cacheEntry.data update = none := by
        rw [makeDelta, if_pos]
        simp only [Bool.or_eq_true, bne_iff_ne]
        tauto
      dsimp only at h
      rw [hnone] at h
      cases h

theorem newestAt_spec (h : newestAt requests loc = some r) :
    r ∈ requests ∧ r.desc.isPreview = false ∧ r.desc.location = loc := by
  have hfound := List.find?_some h
  simp only [Bool.and_eq_true, Bool.not_eq_true', decide_eq_true_eq] at hfound
  exact ⟨List.mem_of_find?_eq_some h, hfound.1, hfound.2⟩

/-- The newest request with a key is found again by its description. -/
theorem InStep.newest_eq (h : s.InStep) (hr : r ∈ s.rendered)
    (hdesc : (newest s.rendered key).map Rendered.desc = some r.desc) : newest s.rendered key = some r := by
  obtain ⟨r', hr', hd⟩ := Option.map_eq_some_iff.1 hdesc
  have hmem : r' ∈ s.rendered := List.mem_of_find?_eq_some hr'
  rw [hr', List.inj_on_of_nodup_map h.wids hmem hr (by rw [hd])]

theorem InStep.render {tile : TileDesc} {bitmap : Subbuffer tile.width.toNat tile.height.toNat} (h : s.InStep)
    (hvalid : tile.isValid = true) (hpreview : tile.isPreview = false)
    (hsame : s.sameTile (.render tile bitmap []) = true) :
    ({ s with
        nextId := s.nextId + 1
        gen := (s.gen.compressOrDelta simd mode zstd tile.location (s.nextId + 1) (DeltaData.ofPixmap simd bitmap)
          tile.isForcedKeyFrame).1 }.store ⟨tile.setWireId (s.nextId + 1), DeltaData.ofPixmap simd bitmap⟩
      (s.gen.compressOrDelta simd mode zstd tile.location (s.nextId + 1) (DeltaData.ofPixmap simd bitmap)
        tile.isForcedKeyFrame).2 ((s.gen.deltaEntries.find tile.location).map DeltaEntry.data)).InStep := by
  refine h.store (r := ⟨tile.setWireId (s.nextId + 1), DeltaData.ofPixmap simd bitmap⟩) hvalid ⟨rfl, rfl⟩ rfl ?_ ?_
  · intro loc e he
    rcases find_compressOrDelta simd mode zstd he with ⟨rfl, hdata⟩ | ⟨hloc, he⟩
    · exact ⟨_, newestAt_cons_self hpreview, hdata.symm⟩
    · obtain ⟨r, hr, hdata⟩ := h.entry loc e he
      exact ⟨r, (newestAt_cons_of_ne fun heq => hloc heq.symm).trans hr, hdata⟩
  · intro b hb hdelta e he
    obtain ⟨hforce, entry, hentry, hwidth, hheight⟩ := delta_of_compressOrDelta simd mode zstd hdelta
    rw [hentry, Option.map_some] at hb
    obtain rfl := Option.some.inj hb
    obtain ⟨r, hr, hdata⟩ := h.entry tile.location entry hentry
    obtain ⟨hmem, -, -⟩ := newestAt_spec hr
    obtain ⟨hrvalid, hrwidth, hrheight⟩ := h.size r hmem
    -- the newest bitmap at the location has the size of the request, so that the condition speaks of its key
    have hsize : r.desc.width = tile.width ∧ r.desc.height = tile.height := by
      rw [TileDesc.isValid_iff] at hrvalid hvalid
      rw [← hdata] at hwidth hheight
      have hwidth : r.data.width = tile.width.toNat := hwidth
      have hheight : r.data.height = tile.height.toNat := hheight
      omega
    have hkey : (newest s.rendered tile.key).map Rendered.desc = some r.desc := by
      simpa [sameTile, hpreview, hforce, hr, hsize.1, hsize.2] using hsame
    change (newest s.stored tile.key).map Rendered.data = some entry.data
    rw [h.tile tile.key e he, h.newest_eq hmem hkey, ← hdata, Option.map_some]

theorem cache_subscribeToTileRendering (c : TileCache) (tile : TileDesc) (session now : Nat) :
    (c.subscribeToTileRendering tile session now).1.cache = c.cache ∧
      (c.subscribeToTileRendering tile session now).1.dontCache = c.dontCache := by
  unfold TileCache.subscribeToTileRendering
  split
  · split <;> exact ⟨rfl, rfl⟩
  · exact ⟨rfl, rfl⟩

theorem InStep.step {e : Event} (h : s.InStep) (hsame : s.sameTile e = true)
    (hs : s.step simd mode zstd e = some s') : s'.InStep := by
  cases e with
  | render tile bitmap png =>
    simp only [DeltaPipeline.step] at hs
    split at hs
    · cases hs
    · rename_i hvalid
      have hvalid : tile.isValid = true := by simpa using hvalid
      split at hs
      · rename_i hpreview
        cases hs
        refine h.store (r := ⟨tile.setWireId (s.nextId + 1), DeltaData.ofPixmap simd bitmap⟩) hvalid
          ⟨rfl, rfl⟩ rfl ?_ ?_
        · intro loc e he
          rw [newestAt_cons_preview hpreview]
          exact h.entry loc e he
        · intro b hb
          cases hb
      · rename_i hpreview
        split at hs
        · cases hs
        · cases hs
          exact h.render simd mode zstd hvalid (by simpa using hpreview) hsame
  | rebalanceDeltas =>
    cases hs
    exact h.drop (fun _ _ => find_of_filter) (fun _ e he => ⟨e, he⟩) rfl rfl rfl rfl rfl
  | setSessionCount count =>
    cases hs
    exact h.drop (fun _ _ he => find_of_filter (g := { s.gen with maxEntries := max count 1 * 96 }) he)
      (fun _ e he => ⟨e, he⟩) rfl rfl rfl rfl rfl
  | dropCache =>
    cases hs
    exact h.drop (fun _ _ => find_of_filter) (fun _ e he => ⟨e, he⟩) rfl rfl rfl rfl rfl
  | subscribe tile session now =>
    cases hs
    obtain ⟨hcache, hdont⟩ := cache_subscribeToTileRendering s.cache tile session now
    exact h.drop (fun _ _ he => he) (fun _ e he => ⟨e, hcache ▸ he⟩) hdont rfl rfl rfl rfl
  | forget tile =>
    simp only [DeltaPipeline.step] at hs
    split at hs
    · cases hs
    · cases hs
      unfold TileCache.forgetTileBeingRendered
      split <;> exact h.drop (fun _ _ he => he) (fun _ e he => ⟨e, he⟩) rfl rfl rfl rfl rfl
  | setMaxCacheSize cacheSize =>
    cases hs
    exact h.drop (fun _ _ he => he)
      (fun _ e he => ⟨e, TileCache.find_ensureCacheSize (c := { s.cache with maxCacheSize := cacheSize }) he⟩)
      (TileCache.dontCache_ensureCacheSize _) rfl rfl rfl rfl
  | clear =>
    cases hs
    exact h.drop (fun _ _ he => he) (fun _ e he => by cases he) rfl rfl rfl rfl rfl
  | invalidateTiles intersects =>
    cases hs
    refine h.drop (fun _ _ he => he) (fun _ e he => ?_) rfl rfl rfl rfl rfl
    rw [TileCache.invalidateTiles] at he
    dsimp only at he
    rw [Table.find_map, Option.map_eq_some_iff] at he
    obtain ⟨e', he', -⟩ := he
    exact ⟨e', he'⟩

/-- In the runs whose requests meet the condition, every delta is appended to the frame it was computed against. -/
theorem basesAgree_of_sameTile
    (h : Run.Reachable IsInitial (DeltaPipeline.step simd mode zstd) (fun s e => s.sameTile e = true) s) :
    s.BasesAgree := by
  have hstep : s.InStep := by
    refine h.invariant InStep ?_ fun s e s' _ hin hsame hs => hin.step simd mode zstd hsame hs
    rintro s rfl
    refine ⟨rfl, ?_, ?_, ?_, List.nodup_nil, ?_, ?_⟩
    · intro loc e he
      cases he
    · intro key e he
      cases he
    · intro r hr
      cases hr
    · intro r hr
      cases hr
    · intro delta hdelta
      cases hdelta
  exact hstep.agree

end DeltaPipeline

end

namespace DeltaPipeline

/-- A bitmap of one colour. -/
theorem solid_fits : 0 + 2 ≤ 2 := Nat.le_refl 2

theorem length_solid (pix : Pixel) : (List.replicate 4 pix).length = 2 * 2 := List.length_replicate

def solid (pix : Pixel) : Subbuffer 2 2 :=
  ⟨List.replicate 4 pix, 0, 0, 2, 2, solid_fits, solid_fits, length_solid pix⟩

/-- A tile in the corner; `oldWireId` is 0 for a keyframe. -/
def corner (tileHeight : Int) (oldWireId : Nat) : TileDesc where
  canonicalViewId := 0
  part := 0
  mode := 0
  width := 2
  height := 2
  tilePosX := 0
  tilePosY := 0
  tileWidth := 3840
  tileHeight := tileHeight
  ver := 1
  imgSize := 0
  id := -1
  oldWireId := oldWireId
  wireId := 0

/-- The pixels that the rows of a bitmap keep. -/
def rowData (data : DeltaData) : List (List Pixel) := data.rows.map DeltaBitmapRow.rleData

def start : DeltaPipeline := { gen := .new, cache := .new false, nextId := 0 }

/-- Two tiles that differ in the tile height share the base in the kit. -/
theorem shares_base : ¬ ∀ s, Run.Reachable IsInitial (step ⟨false, false⟩ .rgba id) Run.Any s → s.BasesAgree := by
  intro hall
  obtain ⟨s, hreach, hs⟩ : ∃ s, Run.Reachable IsInitial (step ⟨false, false⟩ .rgba id) Run.Any s ∧
      (s.appended.any fun delta => decide (delta.previous.map rowData ≠ some (rowData delta.base))) = true :=
    Run.Reachable.exists_of_run start
      [.render (corner 3840 0) (solid ⟨255, 0, 0, 255⟩) [], .render (corner 1920 0) (solid ⟨0, 255, 0, 255⟩) [],
        .render (corner 3840 1) (solid ⟨255, 0, 0, 255⟩) []]
      (show IsInitial start from rfl) (by decide +kernel)
  obtain ⟨delta, hdelta, hne⟩ := List.any_eq_true.1 hs
  exact of_decide_eq_true hne (by rw [hall s hreach delta hdelta, Option.map_some])

theorem basesAgree_of_corner : ∃ s : DeltaPipeline, s.BasesAgree ∧ s.appended.length = 1 := by
  obtain ⟨s, hreach, hs⟩ : ∃ s,
    Run.Reachable IsInitial (Run.guarded (step ⟨false, false⟩ .rgba id) sameTile) Run.Any s ∧
      decide (s.appended.length = 1) = true :=
    Run.Reachable.exists_of_run start
      [.render (corner 3840 0) (solid ⟨255, 0, 0, 255⟩) [], .render (corner 3840 1) (solid ⟨0, 255, 0, 255⟩) []]
      (show IsInitial start from rfl) (by decide +kernel)
  exact ⟨s, basesAgree_of_sameTile ⟨false, false⟩ .rgba id (hreach.of_guarded fun _ _ h => h), of_decide_eq_true hs⟩

end DeltaPipeline

end CollaboraOnline
