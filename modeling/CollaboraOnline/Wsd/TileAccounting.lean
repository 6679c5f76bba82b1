import CollaboraOnline.Wsd.TileCache

/-!
# The accounting of the tile cache

`_cache` maps tiles to pointers, and `_cache[desc]` adds a null pointer where there is none.  `PointerCache` has these
pointers, and `none` is the dereference of a null one.  It refines to `TileCache`, whose tiles are there and carry
their well-formedness (`PointerCache.step_ofCache`); the recorded size is the sum over its tiles
(`TileCache.Accounted`).
-/

namespace CollaboraOnline

/-! ### The recorded size -/

namespace TileCache

/-- The sum of `itemCacheSize` over cached tiles. -/
def recalcSize (entries : List CachedTile) : Int := (entries.map fun e => (itemCacheSize e.tile : Int)).sum

def Accounted (c : TileCache) : Prop := c.cacheSize = recalcSize c.cache.entries

variable {c : TileCache}

theorem recalcSize_filter (keeps : CachedTile → Bool) (entries : List CachedTile) :
    recalcSize (entries.filter keeps) + recalcSize (entries.filter fun e => !keeps e) = recalcSize entries := by
  induction entries with
  | nil => rfl
  | cons e entries ih =>
    unfold recalcSize at ih ⊢
    by_cases he : keeps e = true
    · simp only [List.filter_cons, he, if_true, Bool.not_true, Bool.false_eq_true, if_false, List.map_cons,
        List.sum_cons]
      omega
    · have he' : keeps e = false := Bool.eq_false_iff.2 he
      simp only [List.filter_cons, he', Bool.not_false, if_true, Bool.false_eq_true, if_false, List.map_cons,
        List.sum_cons]
      omega

/-- What `erase` takes away is the item of the tile, if there is one. -/
theorem recalcSize_erase (cache : Table CachedTile.key) (k : TileKey) :
    recalcSize (cache.erase k).entries + ((cache.find k).map fun e => (itemCacheSize e.tile : Int)).getD 0 =
      recalcSize cache.entries := by
  obtain ⟨entries, hnodup⟩ := cache
  unfold Table.erase Table.filter Table.find
  dsimp only
  induction entries with
  | nil => rfl
  | cons e entries ih =>
    rw [List.map_cons, List.nodup_cons] at hnodup
    by_cases hk : e.key = k
    · have hrest : (entries.filter fun e => decide (e.key ≠ k)) = entries := by
        rw [List.filter_eq_self]
        intro e' he'
        have hne : e'.key ≠ k := fun h => hnodup.1 (hk.trans h.symm ▸ List.mem_map_of_mem he')
        simp [hne]
      rw [List.filter_cons_of_neg (by simp [hk]), hrest, List.find?_cons_of_pos (by simp [hk])]
      simp [recalcSize]
      omega
    · have hsum := ih hnodup.2
      rw [List.filter_cons_of_pos (by simp [hk]), List.find?_cons_of_neg (by simp [hk])]
      simp only [recalcSize, List.map_cons, List.sum_cons] at hsum ⊢
      omega

theorem recalcSize_put (cache : Table CachedTile.key) (e : CachedTile) :
    recalcSize (cache.put e).entries =
      recalcSize cache.entries - ((cache.find e.key).map fun e => (itemCacheSize e.tile : Int)).getD 0 +
        itemCacheSize e.tile := by
  have herase := recalcSize_erase cache e.key
  have hput : recalcSize (cache.put e).entries = itemCacheSize e.tile + recalcSize (cache.erase e.key).entries := by
    simp [Table.put, recalcSize]
  omega

theorem accounted_new (dontCache : Bool) : (new dontCache).Accounted := rfl

theorem accounted_clear : c.clear.Accounted := rfl

theorem Accounted.ensureCacheSize (h : c.Accounted) : c.ensureCacheSize.Accounted := by
  unfold TileCache.ensureCacheSize
  split
  · exact h
  · have hsum := recalcSize_filter (c.keeps c.maxToRemove) c.cache.entries
    unfold Accounted at h ⊢
    dsimp only [Table.filter]
    rw [h, ← hsum]
    unfold recalcSize
    omega

theorem Accounted.setMaxCacheSize (h : c.Accounted) (cacheSize : Int) : (c.setMaxCacheSize cacheSize).Accounted :=
  Accounted.ensureCacheSize (c := { c with maxCacheSize := cacheSize }) h

theorem Accounted.saveDataToCache (h : c.Accounted) (desc : TileDesc) (data : List UInt8) :
    (c.saveDataToCache desc data).1.Accounted := by
  unfold TileCache.saveDataToCache
  split
  · exact h
  · have hensured := h.ensureCacheSize
    generalize c.ensureCacheSize = c at hensured
    unfold Accounted at hensured ⊢
    dsimp only
    split
    · rename_i hfind
      split
      · exact hensured
      · have hput := recalcSize_put c.cache ⟨desc, TileData.new desc.wireId data⟩
        have hkey : CachedTile.key ⟨desc, TileData.new desc.wireId data⟩ = desc.key := rfl
        rw [hkey, hfind] at hput
        dsimp only [Option.map_none, Option.getD_none] at hput ⊢
        omega
    · rename_i e hfind
      have hput := recalcSize_put c.cache ⟨e.desc, e.tile.appendBlob desc.wireId data⟩
      have hkey : CachedTile.key ⟨e.desc, e.tile.appendBlob desc.wireId data⟩ = desc.key := by
        change e.key = desc.key
        exact Table.key_of_find hfind
      rw [hkey, hfind] at hput
      dsimp only [Option.map_some, Option.getD_some, itemCacheSize] at hput ⊢
      omega

theorem Accounted.invalidateTiles (h : c.Accounted) (intersects : TileDesc → Bool) :
    (c.invalidateTiles intersects).Accounted := by
  have hitem : ∀ e : CachedTile, itemCacheSize (invalidateEntry intersects e).tile = itemCacheSize e.tile := by
    intro e
    unfold invalidateEntry
    split <;> rfl
  unfold Accounted recalcSize TileCache.invalidateTiles Table.map
  dsimp only
  rw [List.map_map, h, recalcSize]
  congr 1
  apply List.map_congr_left
  intro e _
  rw [Function.comp_apply, hitem]

/-- A tile that is being rendered stays. -/
theorem mem_ensureCacheSize {e : CachedTile} (he : e ∈ c.cache.entries)
    (hrender : (c.tilesBeingRendered.find e.key).isSome) : e ∈ c.ensureCacheSize.cache.entries := by
  unfold TileCache.ensureCacheSize
  split
  · exact he
  · have hkeeps : c.keeps c.maxToRemove e = true := by rw [keeps, hrender, Bool.or_true]
    exact List.mem_filter.2 ⟨he, hkeeps⟩

end TileCache

/-! ### Pointers -/

/-- The fields of `TileData`. -/
structure TilePointee where
  blobs : TileBlobs
  valid : Bool
deriving DecidableEq

/-- An entry of `_cache`; a null pointer is `none`. -/
structure TileSlot where
  desc : TileDesc
  tile : Option TilePointee
deriving DecidableEq

def TileSlot.key (slot : TileSlot) : TileKey := slot.desc.key

structure PointerCache where
  slots : Table TileSlot.key
  tilesBeingRendered : Table TileBeingRendered.key
  cacheSize : Int
  maxCacheSize : Int
  dontCache : Bool
deriving DecidableEq

namespace PointerCache

def new (dontCache : Bool) : PointerCache := ⟨Table.empty, Table.empty, 0, 1024 * 1024, dontCache⟩

def itemCacheSize (tile : TilePointee) : Nat :=
    TileCache.sizeofTile + TileCache.sizeofTileDesc + tile.blobs.deltas.length

def clear (c : PointerCache) : PointerCache := { c with slots := Table.empty, cacheSize := 0 }

/-- `operator[]`: the pointer, and the map with an entry for it. -/
def subscript (c : PointerCache) (desc : TileDesc) : PointerCache × Option TilePointee :=
  match c.slots.find desc.key with
  | some slot => (c, slot.tile)
  | none => ({ c with slots := c.slots.put ⟨desc, none⟩ }, none)

/-- Which entries `ensureCacheSize` erases. -/
def cleans (c : PointerCache) (maxToRemove : Nat) (slot : TileSlot) : Bool :=
  slot.desc.wireId ≤ maxToRemove && !(c.tilesBeingRendered.find slot.key).isSome

/-- The size after the loop that erases. -/
def cleanOut (cleans : TileSlot → Bool) : List TileSlot → Int → Option Int
  | [], size => some size
  | slot :: slots, size =>
    if cleans slot then slot.tile.bind fun tile => cleanOut cleans slots (size - itemCacheSize tile)
    else cleanOut cleans slots size

def widSize (slot : TileSlot) : Option (Nat × Nat) := slot.tile.map fun tile => (slot.desc.wireId, itemCacheSize tile)

/-- `maxToRemove` of `ensureCacheSize`. -/
def maxToRemove (c : PointerCache) (wids : List (Nat × Nat)) : Nat :=
  let wids := wids.insertionSort fun a b => a.1 ≤ b.1
  let front := (wids.head?.map Prod.fst).getD 0
  let back := (wids.getLast?.map Prod.fst).getD 0
  if back - front > 256 * 256 * 256 then back else TileCache.widLimit (c.maxCacheSize / 4) 0 front wids

def ensureCacheSize (c : PointerCache) : Option PointerCache :=
  if c.cacheSize < c.maxCacheSize || c.slots.entries.length < 2 then some c
  else
    (c.slots.entries.mapM widSize).bind fun wids =>
      (cleanOut (c.cleans (c.maxToRemove wids)) c.slots.entries c.cacheSize).map fun cacheSize =>
        { c with slots := c.slots.filter fun slot => !c.cleans (c.maxToRemove wids) slot, cacheSize }

def setMaxCacheSize (c : PointerCache) (cacheSize : Nat) : Option PointerCache :=
  { c with maxCacheSize := cacheSize }.ensureCacheSize

def saveDataToCache (c : PointerCache) (desc : TileDesc) (data : List UInt8) : Option PointerCache :=
  if c.dontCache then some c
  else
    c.ensureCacheSize.map fun c =>
      match c.subscript desc with
      | (c, none) =>
        if !TileBlobs.isKeyframe data then { c with slots := c.slots.erase desc.key }
        else
          let tile : TilePointee := ⟨TileBlobs.empty.appendBlob desc.wireId data, true⟩
          { c with slots := c.slots.put ⟨desc, some tile⟩, cacheSize := c.cacheSize + itemCacheSize tile }
      | (c, some tile) =>
        -- the key stays the description that the tile was first stored under
        let first := ((c.slots.find desc.key).map TileSlot.desc).getD desc
        let tile' : TilePointee := ⟨tile.blobs.appendBlob desc.wireId data, true⟩
        { c with
          slots := c.slots.put ⟨first, some tile'⟩
          cacheSize := c.cacheSize + ((tile'.blobs.deltas.length : Int) - tile.blobs.deltas.length) }

def invalidateSlot (intersects : TileDesc → Bool) (slot : TileSlot) : TileSlot :=
  if intersects slot.desc then { slot with tile := slot.tile.map fun tile => { tile with valid := false } } else slot

theorem key_invalidateSlot (intersects : TileDesc → Bool) (slot : TileSlot) :
    (invalidateSlot intersects slot).key = slot.key := by
  unfold invalidateSlot
  split <;> rfl

def invalidateTiles (c : PointerCache) (intersects : TileDesc → Bool) : Option PointerCache :=
  if c.slots.entries.all fun slot => !intersects slot.desc || slot.tile.isSome then
    some { c with slots := c.slots.map (invalidateSlot intersects) (key_invalidateSlot intersects) }
  else none

end PointerCache

/-! ### Runs -/

/-- What is done to a tile cache. -/
inductive TileCacheOp
  | saveDataToCache (desc : TileDesc) (data : List UInt8)
  | invalidateTiles (intersects : TileDesc → Bool)
  | clear
  | setMaxCacheSize (cacheSize : Nat)
  | ensureCacheSize
  /-- Renders start and end. -/
  | render (tilesBeingRendered : Table TileBeingRendered.key)

def PointerCache.step (c : PointerCache) : TileCacheOp → Option PointerCache
  | .saveDataToCache desc data => c.saveDataToCache desc data
  | .invalidateTiles intersects => c.invalidateTiles intersects
  | .clear => some c.clear
  | .setMaxCacheSize cacheSize => c.setMaxCacheSize cacheSize
  | .ensureCacheSize => c.ensureCacheSize
  | .render tilesBeingRendered => some { c with tilesBeingRendered }

def TileCache.step (c : TileCache) : TileCacheOp → TileCache
  | .saveDataToCache desc data => (c.saveDataToCache desc data).1
  | .invalidateTiles intersects => c.invalidateTiles intersects
  | .clear => c.clear
  | .setMaxCacheSize cacheSize => c.setMaxCacheSize cacheSize
  | .ensureCacheSize => c.ensureCacheSize
  | .render tilesBeingRendered => { c with tilesBeingRendered }

theorem TileCache.Accounted.step {c : TileCache} (h : c.Accounted) (op : TileCacheOp) : (c.step op).Accounted := by
  cases op with
  | saveDataToCache desc data => exact h.saveDataToCache desc data
  | invalidateTiles intersects => exact h.invalidateTiles intersects
  | clear => exact accounted_clear
  | setMaxCacheSize cacheSize => exact h.setMaxCacheSize cacheSize
  | ensureCacheSize => exact h.ensureCacheSize
  | render tilesBeingRendered => exact h

/-! ### The refinement -/

namespace PointerCache

def pointee (tile : TileData) : TilePointee := ⟨tile.blobs, tile.valid⟩

def ofEntry (e : CachedTile) : TileSlot := ⟨e.desc, some (pointee e.tile)⟩

def ofTable (cache : Table CachedTile.key) : Table TileSlot.key :=
  ⟨cache.entries.map ofEntry, by
    rw [List.map_map]
    exact cache.nodup⟩

/-- The pointers of a cache. -/
def ofCache (c : TileCache) : PointerCache :=
  ⟨ofTable c.cache, c.tilesBeingRendered, c.cacheSize, c.maxCacheSize, c.dontCache⟩

variable {c : TileCache} {cache : Table CachedTile.key}

theorem find_ofTable (k : TileKey) : (ofTable cache).find k = (cache.find k).map ofEntry := by
  unfold Table.find ofTable
  rw [List.find?_map]
  rfl

theorem filter_ofTable {p : TileSlot → Bool} {q : CachedTile → Bool} (h : ∀ e, p (ofEntry e) = q e) :
    (ofTable cache).filter p = ofTable (cache.filter q) := by
  apply Table.ext
  unfold Table.filter ofTable
  dsimp only
  rw [List.filter_map]
  congr 2
  funext e
  exact h e

theorem erase_ofTable (k : TileKey) : (ofTable cache).erase k = ofTable (cache.erase k) := filter_ofTable fun _ => rfl

theorem put_ofTable (cache : Table CachedTile.key) (e : CachedTile) :
    (ofTable cache).put (ofEntry e) = ofTable (cache.put e) := by
  apply Table.ext
  have herase : ((ofTable cache).erase e.key).entries = (ofTable (cache.erase e.key)).entries := by
    rw [erase_ofTable]
  exact congrArg (ofEntry e :: ·) herase

theorem mapM_widSize (entries : List CachedTile) : (entries.map ofEntry).mapM widSize =
    some (entries.map fun e => (e.desc.wireId, TileCache.itemCacheSize e.tile)) := by
  induction entries with
  | nil => rfl
  | cons e entries ih =>
    rw [List.map_cons, List.mapM_cons, ih]
    rfl

theorem cleanOut_ofEntry (cleans : TileSlot → Bool) (entries : List CachedTile) (size : Int) :
    cleanOut cleans (entries.map ofEntry) size =
      some
        (size - ((entries.filter fun e => cleans (ofEntry e)).map fun e =>
        (TileCache.itemCacheSize e.tile : Int)).sum) := by
  induction entries generalizing size with
  | nil => simp [cleanOut]
  | cons e entries ih =>
    rw [List.map_cons, cleanOut]
    by_cases he : cleans (ofEntry e) = true
    · have hbind : (ofEntry e).tile.bind
        (fun tile => cleanOut cleans (entries.map ofEntry) (size - itemCacheSize tile)) =
          cleanOut cleans (entries.map ofEntry) (size - TileCache.itemCacheSize e.tile) := rfl
      rw [if_pos he, List.filter_cons_of_pos (by exact he), hbind, ih, List.map_cons, List.sum_cons]
      congr 1
      omega
    · rw [if_neg he, List.filter_cons_of_neg (by exact he), ih]

theorem ensureCacheSize_ofCache : (ofCache c).ensureCacheSize = some (ofCache c.ensureCacheSize) := by
  have hlength : (ofCache c).slots.entries.length = c.cache.entries.length := List.length_map ..
  unfold ensureCacheSize TileCache.ensureCacheSize
  rw [hlength]
  by_cases hsmall : (decide (c.cacheSize < c.maxCacheSize) || decide (c.cache.entries.length < 2)) = true
  · rw [if_pos hsmall, if_pos (by exact hsmall)]
  · rw [if_neg hsmall, if_neg (by exact hsmall)]
    have hcleans : ∀ (n : Nat) (e : CachedTile), (ofCache c).cleans n (ofEntry e) = !c.keeps n e := by
      intro n e
      rw [TileCache.keeps, Bool.not_or, Bool.not_not]
      rfl
    have hwids := mapM_widSize c.cache.entries
    have hslots : (ofCache c).slots.entries = c.cache.entries.map ofEntry := rfl
    have hmax : (ofCache c).maxToRemove
      (c.cache.entries.map fun e => (e.desc.wireId, TileCache.itemCacheSize e.tile)) =
        c.maxToRemove := rfl
    rw [hslots, hwids, Option.bind_some, hmax, cleanOut_ofEntry, Option.map_some]
    simp only [hcleans]
    have hfilter : (ofCache c).slots.filter (fun slot => !(ofCache c).cleans c.maxToRemove slot) =
        ofTable (c.cache.filter (c.keeps c.maxToRemove)) := by
      refine filter_ofTable fun e => ?_
      rw [hcleans, Bool.not_not]
    rw [hfilter]
    rfl

theorem saveDataToCache_ofCache (desc : TileDesc) (data : List UInt8) :
    (ofCache c).saveDataToCache desc data = some (ofCache (c.saveDataToCache desc data).1) := by
  unfold saveDataToCache TileCache.saveDataToCache
  by_cases hdont : c.dontCache = true
  · rw [if_pos (by exact hdont), if_pos hdont]
  · rw [if_neg (by exact hdont), if_neg hdont, ensureCacheSize_ofCache, Option.map_some]
    generalize c.ensureCacheSize = c
    have hslots : (ofCache c).slots = ofTable c.cache := rfl
    congr 1
    unfold subscript
    dsimp only
    rw [hslots, find_ofTable]
    cases hfind : c.cache.find desc.key with
    | none =>
      have hnull : TileSlot.key ⟨desc, none⟩ = desc.key := rfl
      have hfind' : (ofTable c.cache).find desc.key = none := by rw [find_ofTable, hfind, Option.map_none]
      dsimp only [Option.map_none]
      by_cases hkey : (!TileBlobs.isKeyframe data) = true
      · -- the null pointer that the subscript added is erased
        have herase : ((ofTable c.cache).put ⟨desc, none⟩).erase desc.key = ofTable c.cache := by
          rw [← hnull, Table.erase_put, hnull, Table.erase_of_find_none hfind']
        rw [if_pos hkey, if_pos hkey, herase]
        rfl
      · have hput_put : ((ofTable c.cache).put ⟨desc, none⟩).put
              ⟨desc, some ⟨TileBlobs.empty.appendBlob desc.wireId data, true⟩⟩ =
            (ofTable c.cache).put ⟨desc, some ⟨TileBlobs.empty.appendBlob desc.wireId data, true⟩⟩ :=
              Table.put_put rfl
        rw [if_neg hkey, if_neg hkey, hput_put]
        have hput := put_ofTable c.cache ⟨desc, TileData.new desc.wireId data⟩
        unfold ofCache
        dsimp only
        rw [← hput]
        rfl
    | some e =>
      have hput := put_ofTable c.cache ⟨e.desc, e.tile.appendBlob desc.wireId data⟩
      dsimp only [Option.map_some, ofEntry, pointee, Option.getD_some]
      unfold ofCache
      dsimp only
      rw [← hput, find_ofTable, hfind]
      rfl

theorem invalidateTiles_ofCache (intersects : TileDesc → Bool) :
    (ofCache c).invalidateTiles intersects = some (ofCache (c.invalidateTiles intersects)) := by
  have hnull : ((ofCache c).slots.entries.all fun slot => !intersects slot.desc || slot.tile.isSome) = true := by
    rw [List.all_eq_true]
    intro slot hslot
    obtain ⟨e, _, rfl⟩ := List.mem_map.1 hslot
    exact Bool.or_true _
  have hslot : ∀ e, invalidateSlot intersects (ofEntry e) = ofEntry (TileCache.invalidateEntry intersects e) := by
    intro e
    unfold invalidateSlot TileCache.invalidateEntry ofEntry
    dsimp only
    split <;> rfl
  have hmap : (ofTable c.cache).map (invalidateSlot intersects) (key_invalidateSlot intersects) =
      ofTable (c.cache.map (TileCache.invalidateEntry intersects) (TileCache.key_invalidateEntry intersects)) := by
    apply Table.ext
    unfold Table.map ofTable
    dsimp only
    rw [List.map_map, List.map_map]
    exact List.map_congr_left fun e _ => hslot e
  unfold invalidateTiles TileCache.invalidateTiles
  rw [if_pos hnull]
  unfold ofCache
  dsimp only
  rw [hmap]

theorem step_ofCache (c : TileCache) (op : TileCacheOp) : (ofCache c).step op = some (ofCache (c.step op)) := by
  cases op with
  | saveDataToCache desc data => exact saveDataToCache_ofCache desc data
  | invalidateTiles intersects => exact invalidateTiles_ofCache intersects
  | clear => rfl
  | setMaxCacheSize cacheSize => exact ensureCacheSize_ofCache (c := { c with maxCacheSize := cacheSize })
  | ensureCacheSize => exact ensureCacheSize_ofCache
  | render tilesBeingRendered => rfl

/-- A run from a new cache is a run of `TileCache`: no null pointer is ever dereferenced. -/
theorem run_new (dontCache : Bool) (ops : List TileCacheOp) : ∃ c : TileCache, c.Accounted ∧
    ops.foldlM step (new dontCache) = some (ofCache c) := by
  have hrun : ∀ c : TileCache, c.Accounted → ∃ c' : TileCache, c'.Accounted ∧
      ops.foldlM step (ofCache c) = some (ofCache c') := by
    induction ops with
    | nil => exact fun c hc => ⟨c, hc, rfl⟩
    | cons op ops ih =>
      intro c hc
      obtain ⟨c', hc', hrun⟩ := ih (c.step op) (hc.step op)
      refine ⟨c', hc', ?_⟩
      rw [List.foldlM_cons, step_ofCache]
      exact hrun
  exact hrun (TileCache.new dontCache) (TileCache.accounted_new dontCache)

/-! ### The accounting -/

/-- One offset for each wire id, in order, none after the end of the data. -/
def TilePointee.Sound (tile : TilePointee) : Prop :=
  tile.blobs.wids.length = tile.blobs.offsets.length ∧ tile.blobs.offsets.Pairwise (· ≤ ·) ∧
    ∀ offset ∈ tile.blobs.offsets, offset ≤ tile.blobs.deltas.length

/-- The size that `assertCacheSize` calculates, `none` at a null tile. -/
def recalcSize (slots : List TileSlot) : Option Int :=
  (slots.mapM fun (slot : TileSlot) => slot.tile.map fun tile => (itemCacheSize tile : Int)).map List.sum

theorem accounting (dontCache : Bool) (ops : List TileCacheOp) :
    ∃ c, ops.foldlM step (new dontCache) = some c ∧ recalcSize c.slots.entries = some c.cacheSize ∧
      (∀ slot ∈ c.slots.entries, ∃ tile, slot.tile = some tile ∧ TilePointee.Sound tile) ∧
      ∃ c', c.ensureCacheSize = some c' ∧
        ∀ slot ∈ c.slots.entries, (c.tilesBeingRendered.find slot.key).isSome → slot ∈ c'.slots.entries := by
  obtain ⟨c, hc, hrun⟩ := run_new dontCache ops
  refine ⟨ofCache c, hrun, ?_, ?_, ofCache c.ensureCacheSize, ensureCacheSize_ofCache, ?_⟩
  · have hsizes : ∀ entries : List CachedTile,
        (entries.map ofEntry).mapM (fun (slot : TileSlot) => slot.tile.map fun tile => (itemCacheSize tile : Int)) =
          some (entries.map fun e => (TileCache.itemCacheSize e.tile : Int)) := by
      intro entries
      induction entries with
      | nil => rfl
      | cons e entries ih =>
        rw [List.map_cons, List.mapM_cons, ih]
        rfl
    have hslots : (ofCache c).slots.entries = c.cache.entries.map ofEntry := rfl
    rw [recalcSize, hslots, hsizes, Option.map_some]
    exact congrArg some hc.symm
  · intro slot hslot
    obtain ⟨e, _, rfl⟩ := List.mem_map.1 hslot
    have hwell := e.tile.wellFormed
    exact ⟨pointee e.tile, rfl, hwell.length_offsets.symm, hwell.sorted, hwell.bounded⟩
  · intro slot hslot hrender
    obtain ⟨e, he, rfl⟩ := List.mem_map.1 hslot
    exact List.mem_map_of_mem (TileCache.mem_ensureCacheSize he hrender)

end PointerCache

end CollaboraOnline
