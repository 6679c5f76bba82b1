import CollaboraOnline.Browser.TilesMiddleware
import CollaboraOnline.Lib.Run

/-!
# Transactions of tiles finish

Every callback is called once and drawing is resumed, in every run where what comes back from the workers is drawn.  A
tile is ready, or the last of its outstanding deltas will make it so (`Steady.ready`); where nothing is open, nobody
waits (`Inv.idle`).
-/

namespace CollaboraOnline

namespace TileManager

variable {K P I : Type} [DecidableEq K] {d : TileDecoder K P I} {s s' : TileManager K P I}

inductive Event (K P : Type)
  | beginTransaction
  | endTransaction (callback : Option Nat)
  | tileMsg (key : K) (distance : Nat) (img : Option (TileImage P))
  | rehydrateTile (key : K)
  | makeTileCurrent (key : K)
  | updateAllTileDistances (distance : K → Nat)
  | createTile (key : K) (distance : Nat)
  | removeTile (key : K)
  | reclaimTileBitmapMemory (key : K)
  | garbageCollect (c : Collect K)
  | answer (i : Nat) (c : Collect K)
  | resolve (i : Nat) (c : Collect K)
  | workerError

/-- Tiles are also rehydrated outside transactions; their deltas wait for the next one then. -/
def step (d : TileDecoder K P I) (s : TileManager K P I) : Event K P → Option (TileManager K P I)
  | .beginTransaction => some s.beginTransaction
  | .endTransaction callback => some (s.endTransaction d callback)
  | .tileMsg key distance img => some (s.onTileMsg key distance img)
  | .rehydrateTile key => some (s.rehydrateTile key false)
  | .makeTileCurrent key => some (s.makeTileCurrent key)
  | .updateAllTileDistances distance => some (s.updateAllTileDistances distance)
  | .createTile key distance => some (s.createTile key distance)
  | .removeTile key => some (s.removeTile key)
  | .reclaimTileBitmapMemory key => some (s.reclaimTileBitmapMemory key)
  | .garbageCollect c => some (s.garbageCollect c)
  | .answer i c => do
    let deltas ← (← s.posted[i]?).answer
    some (onWorkerEndTransaction d { s with posted := s.posted.eraseIdx i } c deltas)
  | .resolve i c => do
    let bitmaps ← s.bitmapPromises[i]?
    some (endTransactionHandleBitmaps { s with bitmapPromises := s.bitmapPromises.eraseIdx i } c bitmaps)
  | .workerError => if s.workers ≠ 0 then some s.onWorkerError else none

/-- An event, or the end of a transaction whose decompression throws after `n` tasks or deltas. -/
inductive TransactionEvent (K P : Type)
  | event (e : Event K P)
  | endTransactionThrows (callback : Option Nat) (n : Nat)

/-- Deltas whose keys were replaced throw whenever they are to be decompressed. -/
def transactionStep (d : TileDecoder K P I) (s : TileManager K P I) :
    TransactionEvent K P → Option (TileManager K P I)
  | .event (.endTransaction callback) =>
    if s.keysReplaced = true ∧ s.inTransaction = 1 ∧ s.pendingDeltas ≠ [] then none
    else step d s (.endTransaction callback)
  | .event e => step d s e
  | .endTransactionThrows callback n =>
    if s.inTransaction = 1 ∧ n < s.decompressions d then some (s.endTransactionThrows d callback n) else none

def IsInit (s : TileManager K P I) : Prop := s = { workers := s.workers }

/-- No transaction, no task and no promise is open. -/
def Quiescent (s : TileManager K P I) : Prop := s.inTransaction = 0 ∧ s.posted = [] ∧ s.bitmapPromises = []

/-- No callback waits, and drawing goes on. -/
def Idle (s : TileManager K P I) : Prop := s.transactionCallbacks = [] ∧ s.pausedForCoherency = false

/-- Every callback is called once, or waits; where nothing is open, none waits and drawing goes on. -/
def Finishes (s : TileManager K P I) : Prop :=
  (s.called ++ s.transactionCallbacks).Perm s.passed ∧ (Quiescent s → Idle s)

/-! ### The condition -/

/-- The delta changes what is shown: its tile is there, and it is a keyframe or an update of a tile that was not
reclaimed. -/
def Draws (s : TileManager K P I) (x : PendingDelta K P I) : Prop :=
  ∃ t, s.tile x.key = some t ∧
    (x.isKeyframe = true ∨
      t.decompressedId ≠ 0 ∧
        (x.wireMessage = true → t.rawDeltas.any (·.id == x.ids.1) = true ∧
        t.rawDeltas.any (·.id == x.ids.2) = true)) ∧
    (x.bitmap.isSome = true ∨
      if x.isKeyframe then x.rawDelta ≠ [] else ((s.tileImageCache (.string x.key)).bind id).isSome = true)

/-- A visible tile waits for a delta that is still to be decompressed. -/
def Waits (s : TileManager K P I) : Prop :=
  ∃ x ∈ s.pendingDeltas, ∃ t, s.tile x.key = some t ∧ t.distanceFromView = 0 ∧ t.lastPendingId ≠ 0

/-- No task that was posted before is for one of the same tiles. -/
def InOrder (s : TileManager K P I) (i : Nat) : Prop :=
  ∀ x ∈ (s.posted[i]?.map (·.deltas)).getD [], ∀ y ∈ (s.posted.take i).flatMap (·.deltas), y.key ≠ x.key

/-- Transactions match; the answers for a tile come in order; where nothing is open, no visible tile is rehydrated;
what ends the last task or promise is drawn, unless nobody waits for it, and leaves no visible tile to a transaction
that is not open. -/
def Drawn (s : TileManager K P I) : Event K P → Prop
  | .endTransaction callback =>
    (0 < s.inTransaction ∨ callback = none) ∧ (s.inTransaction = 1 → s.posted = [] → s.bitmapPromises = [] →
      if s.pendingDeltas = [] then Idle s
      else s.workers ≠ 0 ∨ (∃ x ∈ s.pendingDeltas, Draws s x) ∨ (callback = none ∧ Idle s))
  | .tileMsg key distance img => Quiescent s → ∀ t ∈ (s.createTile key distance).tile key, t.distanceFromView = 0 →
    (∀ x ∈ img, x.isEmpty = true ∨ x.isKeyframe = false ∧ t.hasKeyframe = false) ∧ t.needsRehydration = false
  | .rehydrateTile key => Quiescent s → ∀ t ∈ s.tile key, t.distanceFromView = 0 → t.needsRehydration = false
  | .makeTileCurrent key => Quiescent s → ∀ t ∈ s.tile key, t.needsRehydration = false
  | .answer i _ =>
    InOrder s i ∧
      (0 < s.inTransaction ∨ s.posted.length ≠ 1 ∨ s.bitmapPromises ≠ [] ∨ Idle s ∨
        ((∃ x ∈ (s.posted[i]?.bind (·.answer)).getD [], Draws s x) ∧ (s.pausedForCoherency = true → ¬ Waits s)))
  | .resolve _ _ =>
    0 < s.inTransaction ∨ s.posted ≠ [] ∨ s.bitmapPromises.length ≠ 1 ∨ (s.pausedForCoherency = true → ¬ Waits s)
  | .workerError => 0 < s.inTransaction ∨ s.pausedForCoherency = false
  | _ => True

/-- And no decompression throws. -/
def TransactionEvent.Drawn (s : TileManager K P I) : TransactionEvent K P → Prop
  | .event e => TileManager.Drawn s e
  | .endTransactionThrows _ _ => False

/-! ### Tiles -/

theorem tile_setTile (key key' : K) (t : BrowserTile P I) :
    (s.setTile key t).tile key' = if key' = key then some t else s.tile key' := by
  unfold tile setTile
  rw [Table.find_put]
  split <;> rfl

/-- Everything is the same but the tiles and the cache of their images. -/
structure SameTasks (s s' : TileManager K P I) : Prop where
  inTransaction : s'.inTransaction = s.inTransaction
  pendingDeltas : s'.pendingDeltas = s.pendingDeltas
  transactionCallbacks : s'.transactionCallbacks = s.transactionCallbacks
  nPendingWorkerTasks : s'.nPendingWorkerTasks = s.nPendingWorkerTasks
  pausedForCoherency : s'.pausedForCoherency = s.pausedForCoherency
  workers : s'.workers = s.workers
  workerImages : s'.workerImages = s.workerImages
  posted : s'.posted = s.posted
  bitmapPromises : s'.bitmapPromises = s.bitmapPromises
  passed : s'.passed = s.passed
  called : s'.called = s.called

theorem SameTasks.trans {s'' : TileManager K P I} (h : SameTasks s s') (h' : SameTasks s' s'') : SameTasks s s'' :=
  ⟨h'.1.trans h.1, h'.2.trans h.2, h'.3.trans h.3, h'.4.trans h.4, h'.5.trans h.5, h'.6.trans h.6, h'.7.trans h.7,
    h'.8.trans h.8, h'.9.trans h.9, h'.10.trans h.10, h'.11.trans h.11⟩

theorem sameTasks_setTile (s : TileManager K P I) (key : K) (t : BrowserTile P I) : SameTasks s (s.setTile key t) :=
  ⟨rfl, rfl, rfl, rfl, rfl, rfl, rfl, rfl, rfl, rfl, rfl⟩

/-- Nothing happens to the tasks, and to a tile nothing that it waits for, unless it is reset. -/
structure Calms (s s' : TileManager K P I) : Prop extends SameTasks s s' where
  tiles : ∀ key t', s'.tile key = some t' → t'.lastPendingId = 0 ∨
    ∃ t, s.tile key = some t ∧ t'.lastPendingId = t.lastPendingId ∧ t'.decompressedId = t.decompressedId ∧
      (t.image.isSome = true → t'.image.isSome = true)
  rawDeltas : (∀ key t, s.tile key = some t → ∀ r ∈ t.rawDeltas, r.id ≠ 0) →
    ∀ key t, s'.tile key = some t → ∀ r ∈ t.rawDeltas, r.id ≠ 0

namespace Calms

theorem refl (s : TileManager K P I) : Calms s s :=
  ⟨⟨rfl, rfl, rfl, rfl, rfl, rfl, rfl, rfl, rfl, rfl, rfl⟩, fun _ t h => .inr ⟨t, h, rfl, rfl, id⟩, id⟩

theorem trans {s'' : TileManager K P I} (h : Calms s s') (h' : Calms s' s'') : Calms s s'' where
  toSameTasks := h.toSameTasks.trans h'.toSameTasks
  tiles := by
    intro key t'' ht''
    rcases h'.tiles key t'' ht'' with hzero | ⟨t', ht', hpending', hid', himage'⟩
    · exact .inl hzero
    · rcases h.tiles key t' ht' with hzero | ⟨t, ht, hpending, hid, himage⟩
      · exact .inl (hpending'.trans hzero)
      · exact .inr ⟨t, ht, hpending'.trans hpending, hid'.trans hid, himage' ∘ himage⟩
  rawDeltas := h'.rawDeltas ∘ h.rawDeltas

theorem foldl {α : Type} {f : TileManager K P I → α → TileManager K P I} (hf : ∀ s a, Calms s (f s a)) (l : List α) :
    Calms s (l.foldl f s) := by
  induction l generalizing s with
  | nil => exact refl s
  | cons a l ih => exact (hf s a).trans ih

/-- A tile that is there is replaced by one with its ids, or none. -/
theorem setTile {key : K} {t t' : BrowserTile P I} (ht : s.tile key = some t)
    (hids : t'.lastPendingId = 0 ∨ t'.lastPendingId = t.lastPendingId ∧ t'.decompressedId = t.decompressedId ∧
      (t.image.isSome = true → t'.image.isSome = true))
    (hraw : (∀ r ∈ t.rawDeltas, r.id ≠ 0) → ∀ r ∈ t'.rawDeltas, r.id ≠ 0) : Calms s (s.setTile key t') := by
  refine ⟨sameTasks_setTile s key _, fun key' u hu => ?_, fun h key' u hu => ?_⟩
  · rw [tile_setTile] at hu
    split at hu
    · rename_i hkey
      obtain rfl := Option.some.inj hu
      exact hids.imp_right fun h => ⟨t, hkey ▸ ht, h⟩
    · exact .inr ⟨u, hu, rfl, rfl, id⟩
  · rw [tile_setTile] at hu
    split at hu
    · obtain rfl := Option.some.inj hu
      exact hraw (h key t ht)
    · exact h key' u hu

end Calms

theorem calms_reclaim (s : TileManager K P I) (key : K) : Calms s (s.reclaimTileBitmapMemory key) := by
  unfold reclaimTileBitmapMemory
  cases ht : s.tile key with
  | none => exact .refl s
  | some t =>
    dsimp only
    split
    · have hset : Calms s (s.setTile key { t with image := none, decompressedId := 0, lastPendingId := 0 }) :=
        .setTile ht (.inl rfl) id
      exact ⟨⟨rfl, rfl, rfl, rfl, rfl, rfl, rfl, rfl, rfl, rfl, rfl⟩, hset.tiles, hset.rawDeltas⟩
    · exact .refl s

theorem tile_removeTile (key key' : K) :
    (s.removeTile key).tile key' = if key' = key then none else (s.reclaimTileBitmapMemory key).tile key' := by
  unfold removeTile tile
  split
  · rename_i h
    rw [h, Table.find_erase_self]
    rfl
  · rename_i h
    rw [Table.find_erase_of_ne h]

theorem calms_removeTile (s : TileManager K P I) (key : K) : Calms s (s.removeTile key) := by
  refine (calms_reclaim s key).trans ?_
  refine ⟨⟨rfl, rfl, rfl, rfl, rfl, rfl, rfl, rfl, rfl, rfl, rfl⟩, fun key' t ht => ?_, fun h key' t ht => ?_⟩
  · rw [tile_removeTile] at ht
    split at ht
    · cases ht
    · exact .inr ⟨t, ht, rfl, rfl, id⟩
  · rw [tile_removeTile] at ht
    split at ht
    · cases ht
    · exact h key' t ht

theorem calms_collectDeltas (s : TileManager K P I) (key : K) : Calms s (s.collectDeltas key) := by
  unfold collectDeltas
  cases s.tile key with
  | none => exact .refl s
  | some t =>
    dsimp only
    split
    · have hreclaim := calms_reclaim s key
      cases ht : (s.reclaimTileBitmapMemory key).tile key with
      | none => exact hreclaim
      | some t => exact hreclaim.trans (.setTile ht (.inr ⟨rfl, rfl, id⟩) fun _ r hr => nomatch hr)
    · exact .refl s

theorem calms_collectTile (s : TileManager K P I) (key : K) : Calms s (s.collectTile key) := by
  unfold collectTile
  cases s.tile key with
  | none => exact .refl s
  | some t =>
    dsimp only
    split
    · exact calms_removeTile s key
    · exact .refl s

theorem calms_garbageCollect (s : TileManager K P I) (c : Collect K) : Calms s (s.garbageCollect c) :=
  (Calms.foldl calms_collectDeltas c.deltas).trans (.foldl calms_collectTile c.tiles)

theorem tile_reclaim_of_ne {key key' : K} (h : key' ≠ key) :
    (s.reclaimTileBitmapMemory key).tile key' = s.tile key' := by
  unfold reclaimTileBitmapMemory
  cases s.tile key with
  | none => rfl
  | some t =>
    dsimp only
    split
    · exact (tile_setTile key key' _).trans (if_neg h)
    · rfl

theorem calms_setBitmapOnTile (s : TileManager K P I) (c : Collect K) (key : K) (bitmap : I) :
    Calms s (s.setBitmapOnTile c key bitmap) := by
  unfold setBitmapOnTile
  cases ht : s.tile key with
  | none => exact .refl s
  | some t =>
    dsimp only
    split
    · exact .setTile ht (.inr ⟨rfl, rfl, fun _ => rfl⟩) id
    · cases hlast : (c.bitmap key).filter (· ≠ key) with
      | none => exact .setTile ht (.inr ⟨rfl, rfl, fun _ => rfl⟩) id
      | some last =>
        have hne : last ≠ key := by simpa using (Option.filter_eq_some_iff.1 hlast).2
        exact (calms_reclaim s last).trans
          (.setTile ((tile_reclaim_of_ne hne.symm).trans ht) (.inr ⟨rfl, rfl, fun _ => rfl⟩) id)

theorem calms_tileReady (s : TileManager K P I) (key : K) : Calms s (s.tileReady key) := by
  unfold tileReady
  cases ht : s.tile key with
  | none => exact .refl s
  | some t => exact .setTile ht (.inr ⟨rfl, rfl, id⟩) fun h r hr => h r (List.mem_of_mem_drop hr)

theorem calms_showBitmap (c : Collect K) (s : TileManager K P I) (x : K × I) : Calms s (showBitmap c s x) := by
  unfold showBitmap
  refine (calms_setBitmapOnTile s c x.1 x.2).trans ?_
  dsimp only
  cases (s.setBitmapOnTile c x.1 x.2).tile x.1 with
  | none => exact .refl _
  | some t =>
    dsimp only
    split
    · exact calms_tileReady _ _
    · exact .refl _

/-- No tile is new, and none is nearer. -/
def KeepsDistances (s s' : TileManager K P I) : Prop :=
  ∀ key t', s'.tile key = some t' → ∃ t, s.tile key = some t ∧ t.distanceFromView = t'.distanceFromView

namespace KeepsDistances

theorem refl (s : TileManager K P I) : KeepsDistances s s := fun _ t h => ⟨t, h, rfl⟩

theorem trans {s'' : TileManager K P I} (h : KeepsDistances s s') (h' : KeepsDistances s' s'') :
    KeepsDistances s s'' := by
  intro key t'' ht''
  obtain ⟨t', ht', hdistance'⟩ := h' key t'' ht''
  obtain ⟨t, ht, hdistance⟩ := h key t' ht'
  exact ⟨t, ht, hdistance.trans hdistance'⟩

theorem foldl {α : Type} {f : TileManager K P I → α → TileManager K P I} (hf : ∀ s a, KeepsDistances s (f s a))
    (l : List α) : KeepsDistances s (l.foldl f s) := by
  induction l generalizing s with
  | nil => exact refl s
  | cons a l ih => exact (hf s a).trans ih

theorem setTile {key : K} {t t' : BrowserTile P I} (ht : s.tile key = some t)
    (hdistance : t'.distanceFromView = t.distanceFromView) : KeepsDistances s (s.setTile key t') := by
  intro key' u hu
  rw [tile_setTile] at hu
  split at hu
  · rename_i hkey
    obtain rfl := Option.some.inj hu
    exact ⟨t, hkey ▸ ht, hdistance.symm⟩
  · exact ⟨u, hu, rfl⟩

theorem reclaim (s : TileManager K P I) (key : K) : KeepsDistances s (s.reclaimTileBitmapMemory key) := by
  unfold reclaimTileBitmapMemory
  cases ht : s.tile key with
  | none => exact refl s
  | some t =>
    dsimp only
    split
    · exact setTile ht (show { t with image := none, decompressedId := 0, lastPendingId := 0 }.distanceFromView =
        _ from rfl)
    · exact refl s

theorem setBitmapOnTile (s : TileManager K P I) (c : Collect K) (key : K) (bitmap : I) :
    KeepsDistances s (s.setBitmapOnTile c key bitmap) := by
  unfold TileManager.setBitmapOnTile
  cases ht : s.tile key with
  | none => exact refl s
  | some t =>
    dsimp only
    split
    · exact setTile ht rfl
    · cases hlast : (c.bitmap key).filter (· ≠ key) with
      | none => exact setTile ht rfl
      | some last =>
        have hne : last ≠ key := by simpa using (Option.filter_eq_some_iff.1 hlast).2
        exact (reclaim s last).trans (setTile ((tile_reclaim_of_ne hne.symm).trans ht) rfl)

theorem showBitmap (c : Collect K) (s : TileManager K P I) (x : K × I) : KeepsDistances s (showBitmap c s x) := by
  unfold TileManager.showBitmap
  refine (setBitmapOnTile s c x.1 x.2).trans ?_
  dsimp only
  cases ht : (s.setBitmapOnTile c x.1 x.2).tile x.1 with
  | none => exact refl _
  | some t =>
    dsimp only
    split
    · unfold tileReady
      rw [ht]
      exact setTile ht rfl
    · exact refl _

end KeepsDistances

theorem calms_createTile (s : TileManager K P I) (key : K) (distance : Nat) :
    Calms s (s.createTile key distance) := by
  unfold createTile
  split
  · exact .refl s
  · refine ⟨⟨rfl, rfl, rfl, rfl, rfl, rfl, rfl, rfl, rfl, rfl, rfl⟩, fun key' u hu => ?_, fun h key' u hu => ?_⟩
    · rw [tile_setTile] at hu
      split at hu
      · obtain rfl := Option.some.inj hu
        exact .inl rfl
      · exact .inr ⟨u, hu, rfl, rfl, id⟩
    · rw [tile_setTile] at hu
      split at hu
      · obtain rfl := Option.some.inj hu
        exact fun r hr => nomatch hr
      · exact h key' u hu

theorem tile_updateAllTileDistances (distance : K → Nat) (key : K) :
    (s.updateAllTileDistances distance).tile key =
      (s.tile key).map fun t => { t with distanceFromView := distance key } := by
  unfold updateAllTileDistances tile
  dsimp only
  rw [Table.find_map]
  cases h : s.tiles.find key with
  | none => rfl
  | some p =>
    have hkey : p.1 = key := Table.key_of_find h
    simp [hkey]

theorem calms_updateAllTileDistances (s : TileManager K P I) (distance : K → Nat) :
    Calms s (s.updateAllTileDistances distance) := by
  refine ⟨⟨rfl, rfl, rfl, rfl, rfl, rfl, rfl, rfl, rfl, rfl, rfl⟩, fun key u hu => ?_, fun h key u hu => ?_⟩
  · rw [tile_updateAllTileDistances] at hu
    obtain ⟨t, ht, rfl⟩ := Option.map_eq_some_iff.1 hu
    exact .inr ⟨t, ht, rfl, rfl, id⟩
  · rw [tile_updateAllTileDistances] at hu
    obtain ⟨t, ht, rfl⟩ := Option.map_eq_some_iff.1 hu
    exact h key t ht

/-! ### What the answers change -/

/-- The ids of the last delta for `key`. -/
def lastIds (deltas : List (PendingDelta K P I)) (key : K) : Option (Nat × Nat) :=
  (deltas.filter fun (x : PendingDelta K P I) => x.key = key).getLast?.map (·.ids)

theorem lastIds_append (xs ys : List (PendingDelta K P I)) (key : K) :
    lastIds (xs ++ ys) key = (lastIds ys key).or (lastIds xs key) := by
  unfold lastIds
  rw [List.filter_append, List.getLast?_append]
  cases (ys.filter fun (x : PendingDelta K P I) => x.key = key).getLast? <;> simp

theorem lastIds_eq_none {deltas : List (PendingDelta K P I)} {key : K} :
    lastIds deltas key = none ↔ ∀ x ∈ deltas, x.key ≠ key := by
  simp [lastIds]

theorem lastIds_cons (x : PendingDelta K P I) (xs : List (PendingDelta K P I)) (key : K) :
    lastIds (x :: xs) key = (lastIds xs key).or (if x.key = key then some x.ids else none) := by
  rw [← List.singleton_append, lastIds_append]
  congr 1
  unfold lastIds
  split <;> rename_i h <;> simp [h]

/-- The delta marks its tile as decompressed, whether it yields a bitmap or not. -/
theorem workerDelta_spec (s : TileManager K P I) (x : PendingDelta K P I) :
    SameTasks s (workerDelta d s x).1 ∧ ∀ key, (workerDelta d s x).1.tile key =
      (s.tile key).map fun t => if x.key = key then { t with decompressedId := x.ids.2 } else t := by
  unfold workerDelta
  cases ht : s.tile x.key with
  | none =>
    refine ⟨⟨rfl, rfl, rfl, rfl, rfl, rfl, rfl, rfl, rfl, rfl, rfl⟩, fun key => ?_⟩
    by_cases hkey : x.key = key
    · rw [← hkey, ht]
      rfl
    · simp [hkey]
  | some t =>
    have hset : ∀ key, (s.setTile x.key { t with decompressedId := x.ids.2 }).tile key =
        (s.tile key).map fun t => if x.key = key then { t with decompressedId := x.ids.2 } else t := by
      intro key
      rw [tile_setTile]
      by_cases hkey : x.key = key
      · rw [if_pos hkey.symm, ← hkey, ht]
        simp
      · rw [if_neg (Ne.symm hkey)]
        simp [hkey]
    dsimp only
    split
    · exact ⟨⟨rfl, rfl, rfl, rfl, rfl, rfl, rfl, rfl, rfl, rfl, rfl⟩, hset⟩
    · split
      · exact ⟨⟨rfl, rfl, rfl, rfl, rfl, rfl, rfl, rfl, rfl, rfl, rfl⟩, hset⟩
      · split
        · exact ⟨⟨rfl, rfl, rfl, rfl, rfl, rfl, rfl, rfl, rfl, rfl, rfl⟩, hset⟩
        · split
          · exact ⟨⟨rfl, rfl, rfl, rfl, rfl, rfl, rfl, rfl, rfl, rfl, rfl⟩, hset⟩
          · exact ⟨⟨rfl, rfl, rfl, rfl, rfl, rfl, rfl, rfl, rfl, rfl, rfl⟩, hset⟩

/-- After all deltas a tile is decompressed up to the last one for it. -/
theorem workerDeltas_spec (s : TileManager K P I) (xs : List (PendingDelta K P I)) :
    SameTasks s (workerDeltas d s xs).1 ∧ ∀ key, (workerDeltas d s xs).1.tile key =
      (s.tile key).map fun t =>
      { t with decompressedId := ((lastIds xs key).map Prod.snd).getD t.decompressedId } := by
  induction xs generalizing s with
  | nil =>
    refine ⟨⟨rfl, rfl, rfl, rfl, rfl, rfl, rfl, rfl, rfl, rfl, rfl⟩, fun key => ?_⟩
    change s.tile key = (s.tile key).map fun t => { t with decompressedId := t.decompressedId }
    cases s.tile key <;> rfl
  | cons x xs ih =>
    obtain ⟨hsame, htile⟩ := workerDelta_spec (d := d) s x
    obtain ⟨hsame', htile'⟩ := ih (workerDelta d s x).1
    refine ⟨hsame.trans hsame', fun key => ?_⟩
    change (workerDeltas d (workerDelta d s x).1 xs).1.tile key = _
    rw [htile', htile, lastIds_cons, Option.map_map]
    congr 1
    funext t
    by_cases hkey : x.key = key
    · cases lastIds xs key <;> simp [hkey]
    · cases lastIds xs key <;> simp [hkey]

/-- Later deltas find what they need where it was before. -/
theorem Draws.workerDelta {x y : PendingDelta K P I} (h : Draws s x) (hy : y.ids.2 ≠ 0)
    (hnone : (workerDelta d s y).2 = none) : Draws (workerDelta d s y).1 x := by
  obtain ⟨t, ht, hdraw, hbitmap⟩ := h
  have hcache : (TileManager.workerDelta d s y).1.tileImageCache = s.tileImageCache := by
    unfold TileManager.workerDelta at hnone ⊢
    cases hy : s.tile y.key with
    | none => rfl
    | some u =>
      simp only [hy] at hnone ⊢
      split
      · rfl
      · rename_i h₁
        rw [if_neg h₁] at hnone
        split
        · rfl
        · rename_i h₂
          rw [if_neg h₂] at hnone
          cases hb : y.bitmap with
          | some bitmap => simp [hb] at hnone
          | none =>
            simp only [hb] at hnone ⊢
            split
            · rfl
            · rename_i image himage
              rw [himage] at hnone
              cases hnone
  obtain ⟨-, htile⟩ := workerDelta_spec (d := d) s y
  refine ⟨_, by rw [htile, ht]; rfl, ?_, by rwa [hcache]⟩
  by_cases hkey : y.key = x.key
  · simp only [hkey, if_true]
    rcases hdraw with hkeyframe | ⟨-, hknown⟩
    · exact .inl hkeyframe
    · exact .inr ⟨hy, hknown⟩
  · simp only [hkey, if_false]
    exact hdraw

/-- A delta that is drawn yields a bitmap. -/
theorem Draws.isSome {x : PendingDelta K P I} (h : Draws s x) : (TileManager.workerDelta d s x).2.isSome = true := by
  obtain ⟨t, ht, hdraw, hbitmap⟩ := h
  unfold TileManager.workerDelta
  simp only [ht]
  rw [if_neg, if_neg]
  · cases hb : x.bitmap with
    | some bitmap => rfl
    | none =>
      rw [hb] at hbitmap
      simp only [Option.isSome_none, Bool.false_eq_true, false_or] at hbitmap
      by_cases hkeyframe : x.isKeyframe = true
      · simp only [hkeyframe, if_true] at hbitmap ⊢
        obtain ⟨first, rest, hraw⟩ := List.exists_cons_of_ne_nil hbitmap
        rw [hraw]
        rfl
      · simp only [hkeyframe, Bool.false_eq_true, if_false] at hbitmap ⊢
        obtain ⟨image, himage⟩ := Option.isSome_iff_exists.1 hbitmap
        have hsame : ((s.setTile x.key { t with decompressedId := x.ids.2 }).tileImageCache (.string x.key)).bind id =
          some image :=
          himage
        rw [hsame]
        rfl
  · rcases hdraw with hkeyframe | ⟨hid, -⟩
    · simp [hkeyframe]
    · simp [hid]
  · rcases hdraw with hkeyframe | ⟨-, hknown⟩
    · simp [hkeyframe]
    · cases hwire : x.wireMessage with
      | false => simp
      | true => simp [hknown hwire]

theorem workerDeltas_ne_nil {xs : List (PendingDelta K P I)} (hids : ∀ x ∈ xs, x.ids.2 ≠ 0)
    (h : ∃ x ∈ xs, Draws s x) : (workerDeltas d s xs).2 ≠ [] := by
  induction xs generalizing s with
  | nil =>
    obtain ⟨x, hx, -⟩ := h
    cases hx
  | cons y ys ih =>
    obtain ⟨x, hx, hdraw⟩ := h
    change ((TileManager.workerDelta d s y).2.map (y.key, ·)).toList ++
      (workerDeltas d (TileManager.workerDelta d s y).1 ys).2
      ≠ []
    cases hb : (TileManager.workerDelta d s y).2 with
    | some bitmap => simp
    | none =>
      rcases List.mem_cons.1 hx with rfl | hx
      · have := hdraw.isSome (d := d)
        rw [hb] at this
        cases this
      · have hy : y.ids.2 ≠ 0 := hids y List.mem_cons_self
        have hrest := ih (fun x hx => hids x (List.mem_cons_of_mem _ hx)) ⟨x, hx, hdraw.workerDelta hy hb⟩
        simpa using hrest

/-! ### The invariant -/

/-- The deltas whose answers are still to come, in the order of a tile's answers. -/
def outstanding (s : TileManager K P I) : List (PendingDelta K P I) := s.posted.flatMap (·.deltas) ++ s.pendingDeltas

/-- A tile is decompressed up to what it waits for, or the last of its deltas will see to it. -/
def Ready (s : TileManager K P I) : Prop :=
  ∀ key t, s.tile key = some t → t.lastPendingId ≠ 0 →
    ((lastIds s.outstanding key).map Prod.snd).getD t.decompressedId = t.lastPendingId

/-- What holds also between the parts of a step. -/
structure Steady (s : TileManager K P I) : Prop where
  balance : (s.called ++ s.transactionCallbacks).Perm s.passed
  tasks : s.nPendingWorkerTasks = s.posted.length
  withoutWorkers : s.workers = 0 → s.posted = []
  rawDeltas : ∀ key t, s.tile key = some t → ∀ r ∈ t.rawDeltas, r.id ≠ 0
  ids : ∀ x ∈ s.outstanding, x.ids.2 ≠ 0
  answers : ∀ task ∈ s.posted, ∀ ys, task.answer = some ys →
    ys.map (fun y => (y.key, y.ids)) = task.deltas.map fun x => (x.key, x.ids)
  ready : Ready s

structure Inv (s : TileManager K P I) : Prop extends Steady s where
  idle : Quiescent s → Idle s

theorem inv_init (h : IsInit s) : Inv s := by
  have htile : ∀ key, s.tile key = none := by
    intro key
    rw [h]
    rfl
  have houtstanding : s.outstanding = [] := by
    rw [h]
    rfl
  rw [h]
  rw [h] at htile houtstanding
  refine ⟨⟨.refl _, rfl, fun _ => rfl, fun key t ht => ?_, fun x hx => ?_, nofun, fun key t ht => ?_⟩,
    fun _ => ⟨rfl, rfl⟩⟩
  · rw [htile] at ht
    cases ht
  · rw [houtstanding] at hx
    cases hx
  · rw [htile] at ht
    cases ht

theorem SameTasks.outstanding (h : SameTasks s s') : s'.outstanding = s.outstanding := by
  unfold TileManager.outstanding
  rw [h.posted, h.pendingDeltas]

theorem Steady.calms (hs : Steady s) (h : Calms s s') : Steady s' where
  balance := by rw [h.called, h.transactionCallbacks, h.passed]; exact hs.balance
  tasks := by rw [h.nPendingWorkerTasks, h.posted]; exact hs.tasks
  withoutWorkers := by rw [h.workers, h.posted]; exact hs.withoutWorkers
  rawDeltas := h.rawDeltas hs.rawDeltas
  ids := by rw [h.toSameTasks.outstanding]; exact hs.ids
  answers := by rw [h.posted]; exact hs.answers
  ready := by
    intro key t' ht' hpending
    rw [h.toSameTasks.outstanding]
    rcases h.tiles key t' ht' with hzero | ⟨t, ht, hp, hd, -⟩
    · exact absurd hzero hpending
    · rw [hp, hd]
      exact hs.ready key t ht (hp ▸ hpending)

theorem Inv.calms (hs : Inv s) (h : Calms s s') : Inv s' where
  toSteady := hs.toSteady.calms h
  idle := by
    unfold Quiescent Idle
    rw [h.inTransaction, h.posted, h.bitmapPromises, h.transactionCallbacks, h.pausedForCoherency]
    exact hs.idle

/-- Where no task is open and no visible tile waits for a delta, no visible tile is waited for. -/
theorem Steady.visibleTilesReady (h : Steady s) (hposted : s.posted = []) (hwaits : ¬ Waits s) :
    s.visibleTilesReady = true := by
  unfold TileManager.visibleTilesReady
  rw [List.all_eq_true]
  rintro ⟨key, t⟩ hmem
  have ht : s.tile key = some t := by
    unfold tile
    rw [Table.find_of_mem (t := s.tiles) (e := (key, t)) hmem]
    rfl
  by_cases hvisible : t.distanceFromView = 0
  case neg => simp [hvisible]
  by_cases hpending : t.lastPendingId = 0
  case pos => simp [hpending]
  have hready := h.ready key t ht hpending
  have hnone : lastIds s.outstanding key = none := by
    rw [lastIds_eq_none]
    intro x hx hkey
    unfold outstanding at hx
    rw [hposted] at hx
    exact hwaits ⟨x, hx, t, hkey ▸ ht, hvisible, hpending⟩
  rw [hnone] at hready
  have hready : t.decompressedId = t.lastPendingId := hready
  simp [BrowserTile.isReady, hready]

/-! ### Bitmaps -/

theorem Quiescent.of_calms (hcalms : Calms s s') (h : Quiescent s') : Quiescent s :=
  ⟨hcalms.inTransaction ▸ h.1, hcalms.posted ▸ h.2.1, hcalms.bitmapPromises ▸ h.2.2⟩

theorem Waits.of_shown (hcalms : Calms s s') (hdistances : KeepsDistances s s') (h : Waits s') : Waits s := by
  obtain ⟨x, hx, t', ht', hvisible, hpending⟩ := h
  obtain ⟨t, ht, hdistance⟩ := hdistances x.key t' ht'
  refine ⟨x, hcalms.pendingDeltas ▸ hx, t, ht, hdistance.trans hvisible, ?_⟩
  rcases hcalms.tiles x.key t' ht' with hzero | ⟨u, hu, hsame, -, -⟩
  · exact absurd hzero hpending
  · obtain rfl := Option.some.inj (ht.symm.trans hu)
    exact hsame ▸ hpending

/-- Whoever waits is served when bitmaps come, unless something else is still to come. -/
theorem inv_endTransactionHandleBitmaps (h : Steady s) (c : Collect K) (bitmaps : List (K × I))
    (hwaits : Quiescent s → s.pausedForCoherency = true → ¬ Waits s) :
      Inv (s.endTransactionHandleBitmaps c bitmaps) := by
  unfold endTransactionHandleBitmaps
  refine .calms ?_ (calms_garbageCollect _ c)
  have hcalms : Calms s (bitmaps.foldl (showBitmap c) s) := .foldl (calms_showBitmap c) bitmaps
  have hdistances : KeepsDistances s (bitmaps.foldl (showBitmap c) s) := .foldl (KeepsDistances.showBitmap c) bitmaps
  have hshown := h.calms hcalms
  generalize bitmaps.foldl (showBitmap c) s = s₁ at hcalms hdistances hshown
  have hwaits₁ : Quiescent s₁ → s₁.pausedForCoherency = true → s₁.visibleTilesReady = true := by
    intro hquiet hpaused
    rw [hcalms.pausedForCoherency] at hpaused
    refine hshown.visibleTilesReady hquiet.2.1 fun hw => ?_
    exact hwaits (hquiet.of_calms hcalms) hpaused (hw.of_shown hcalms hdistances)
  -- drawing
  set s₂ := if s₁.visibleTilesReady then { s₁ with pausedForCoherency := false } else s₁ with hs₂
  have hdrawn : Steady s₂ ∧ (Quiescent s₂ → s₂.pausedForCoherency = false) := by
    rw [hs₂]
    split
    · exact ⟨⟨hshown.1, hshown.2, hshown.3, hshown.4, hshown.5, hshown.6, hshown.7⟩, fun _ => rfl⟩
    · rename_i hnot
      exact ⟨hshown, fun hquiet => Bool.eq_false_iff.2 fun hpaused => hnot (hwaits₁ hquiet hpaused)⟩
  obtain ⟨hsteady, hpaused⟩ := hdrawn
  clear_value s₂
  -- callbacks
  split <;> rename_i htasks
  · refine ⟨⟨?_, hsteady.2, hsteady.3, hsteady.4, hsteady.5, hsteady.6, hsteady.7⟩,
      fun hquiet => ⟨rfl, hpaused hquiet⟩⟩
    change ((s₂.called ++ s₂.transactionCallbacks.reverse) ++ []).Perm s₂.passed
    rw [List.append_nil]
    exact (List.Perm.append_left _ (List.reverse_perm _)).trans hsteady.balance
  · refine ⟨hsteady, fun hquiet => ?_⟩
    rw [hsteady.tasks, hquiet.2.1] at htasks
    exact absurd rfl htasks

/-! ### Answers -/

theorem lastIds_congr {xs ys : List (PendingDelta K P I)}
    (h : ys.map (fun y => (y.key, y.ids)) = xs.map fun x => (x.key, x.ids)) (key : K) :
      lastIds ys key = lastIds xs key := by
  have hof : ∀ zs : List (PendingDelta K P I), lastIds zs key =
      ((zs.map fun x => (x.key, x.ids)).filter fun (p : K × Nat × Nat) => p.1 = key).getLast?.map Prod.snd := by
    intro zs
    unfold lastIds
    rw [List.filter_map, List.getLast?_map, Option.map_map]
    rfl
  rw [hof, hof, h]

/-- The deltas of an answer, taken away from the outstanding ones, leave their tiles ready. -/
theorem ready_workerDeltas {deltas : List (PendingDelta K P I)} (hready : Ready s)
    {before after : List (PendingDelta K P I)} (hout : s.outstanding = before ++ deltas ++ after)
    (hold : ∀ x ∈ deltas, ∀ y ∈ before, y.key ≠ x.key) {t : TileManager K P I}
    (htile : ∀ key, t.tile key = (s.tile key).map fun u =>
      { u with decompressedId := ((lastIds deltas key).map Prod.snd).getD u.decompressedId })
    (hrest : t.outstanding = before ++ after) : Ready t := by
  intro key u hu hpending
  rw [htile] at hu
  obtain ⟨v, hv, rfl⟩ := Option.map_eq_some_iff.1 hu
  have hthen := hready key v hv hpending
  rw [hout, lastIds_append, lastIds_append] at hthen
  rw [hrest, lastIds_append]
  dsimp only
  cases hafter : lastIds after key with
  | some ids =>
    rw [hafter] at hthen
    exact hthen
  | none =>
    rw [hafter] at hthen
    simp only [Option.none_or] at hthen ⊢
    cases hdeltas : lastIds deltas key with
    | none =>
      rw [hdeltas] at hthen
      simpa using hthen
    | some ids =>
      rw [hdeltas] at hthen
      -- the tile has a delta here, so none before
      have hnone : lastIds before key = none := by
        rw [lastIds_eq_none]
        intro y hy hkey
        have : ¬ ∀ x ∈ deltas, x.key ≠ key := fun h => by rw [lastIds_eq_none.2 h] at hdeltas; cases hdeltas
        push Not at this
        obtain ⟨x, hx, hxkey⟩ := this
        exact hold x hx y hy (hkey.trans hxkey.symm)
      rw [hnone]
      simpa using hthen

/-- An answer comes, and its task is done. -/
theorem inv_answer (h : Inv s) {i : Nat} {task : WorkerTask K P I} {deltas : List (PendingDelta K P I)}
    (c : Collect K) (htask : s.posted[i]? = some task) (hanswer : task.answer = some deltas) (horder : InOrder s i)
    (hdraws : 0 < s.inTransaction ∨ s.posted.length ≠ 1 ∨ s.bitmapPromises ≠ [] ∨ Idle s ∨
      ((∃ x ∈ deltas, Draws s x) ∧ (s.pausedForCoherency = true → ¬ Waits s))) :
    Inv (onWorkerEndTransaction d { s with posted := s.posted.eraseIdx i } c deltas) := by
  obtain ⟨hi, hget⟩ := List.getElem?_eq_some_iff.1 htask
  have hsplit : s.posted = s.posted.take i ++ task :: s.posted.drop (i + 1) := by
    rw [← hget, ← List.drop_eq_getElem_cons hi, List.take_append_drop]
  have herase : s.posted.eraseIdx i = s.posted.take i ++ s.posted.drop (i + 1) := List.eraseIdx_eq_take_drop_succ ..
  have hsame : deltas.map (fun y => (y.key, y.ids)) = task.deltas.map fun x => (x.key, x.ids) :=
    h.answers task (List.mem_of_getElem? htask) deltas hanswer
  unfold onWorkerEndTransaction
  set s₁ : TileManager K P I :=
    { s with posted := s.posted.eraseIdx i, nPendingWorkerTasks := s.nPendingWorkerTasks - 1 } with hs₁
  obtain ⟨hkept, htile⟩ := workerDeltas_spec (d := d) s₁ deltas
  have hout : s.outstanding = (s.posted.take i).flatMap (·.deltas) ++ task.deltas ++
      ((s.posted.drop (i + 1)).flatMap (·.deltas) ++ s.pendingDeltas) := by
    unfold outstanding
    conv_lhs => rw [hsplit]
    simp only [List.flatMap_append, List.flatMap_cons, List.append_assoc]
  have hrest : s₁.outstanding = (s.posted.take i).flatMap (·.deltas) ++
      ((s.posted.drop (i + 1)).flatMap (·.deltas) ++ s.pendingDeltas) := by
    unfold outstanding
    rw [hs₁]
    dsimp only
    rw [herase, List.flatMap_append, List.append_assoc]
  have hids : ∀ x ∈ deltas, x.ids.2 ≠ 0 := by
    intro x hx
    have hmem : (x.key, x.ids) ∈ task.deltas.map fun x => (x.key, x.ids) := hsame ▸ List.mem_map_of_mem hx
    obtain ⟨y, hy, heq⟩ := List.mem_map.1 hmem
    have hne := h.ids y (by rw [hout]; simp [hy])
    have heq : y.ids = x.ids := (Prod.ext_iff.1 heq).2
    rwa [heq] at hne
  have hold : ∀ x ∈ task.deltas, ∀ y ∈ (s.posted.take i).flatMap (·.deltas), y.key ≠ x.key := by
    intro x hx
    refine horder x ?_
    rw [htask]
    exact hx
  have hmid : Steady (workerDeltas d s₁ deltas).1 := by
    obtain ⟨k₁, k₂, k₃, k₄, k₅, k₆, -, k₇, k₈, k₉, k₁₀⟩ := hkept
    have hout₂ : (workerDeltas d s₁ deltas).1.outstanding = s₁.outstanding := by
      unfold outstanding
      rw [k₇, k₂]
    refine ⟨?_, ?_, ?_, ?_, ?_, ?_, ?_⟩
    · rw [k₁₀, k₃, k₉]
      exact h.balance
    · rw [k₄, k₇]
      change s.nPendingWorkerTasks - 1 = (s.posted.eraseIdx i).length
      rw [List.length_eraseIdx, if_pos hi, h.tasks]
    · rw [k₆, k₇]
      intro hnone
      change s.posted.eraseIdx i = []
      rw [h.withoutWorkers hnone]
      rfl
    · intro key t ht
      rw [htile] at ht
      obtain ⟨u, hu, rfl⟩ := Option.map_eq_some_iff.1 ht
      exact h.rawDeltas key u hu
    · intro x hx
      rw [hout₂, hrest] at hx
      refine h.ids x ?_
      rw [hout]
      simp only [List.mem_append] at hx ⊢
      tauto
    · rw [k₇]
      exact fun t ht => h.answers t (List.mem_of_mem_eraseIdx ht)
    · refine ready_workerDeltas h.ready hout hold ?_ (hout₂.trans hrest)
      intro key
      rw [htile, lastIds_congr hsame]
      rfl
  -- where nothing is open now, this was the last task
  have hlast : Quiescent (workerDeltas d s₁ deltas).1 →
      Idle s ∨ ((∃ x ∈ deltas, Draws s x) ∧ (s.pausedForCoherency = true → ¬ Waits s)) := by
    rintro ⟨htransaction, hposted, hpromises⟩
    rw [hkept.inTransaction] at htransaction
    rw [hkept.posted] at hposted
    rw [hkept.bitmapPromises] at hpromises
    have hone : s.posted.length = 1 := by
      have hlength := congrArg List.length hposted
      change (s.posted.eraseIdx i).length = 0 at hlength
      rw [List.length_eraseIdx, if_pos hi] at hlength
      omega
    rcases hdraws with hopen | hopen | hopen | hidle
    · exact absurd htransaction (Nat.pos_iff_ne_zero.1 hopen)
    · exact absurd hone hopen
    · exact absurd hpromises hopen
    · exact hidle
  have hidle : Idle s → Idle (workerDeltas d s₁ deltas).1 := by
    unfold Idle
    rw [hkept.transactionCallbacks, hkept.pausedForCoherency]
    exact id
  dsimp only
  split
  · rename_i hempty
    refine ⟨hmid, fun hquiet => hidle ((hlast hquiet).resolve_right ?_)⟩
    rintro ⟨hex, -⟩
    exact workerDeltas_ne_nil (d := d) (s := s₁) hids hex hempty
  · refine inv_endTransactionHandleBitmaps hmid c _ fun hquiet hpaused hwaits => ?_
    rw [hkept.pausedForCoherency] at hpaused
    rcases hlast hquiet with hidle | ⟨-, hnot⟩
    · exact absurd (hidle.2.symm.trans hpaused) nofun
    · refine hnot hpaused ?_
      obtain ⟨x, hx, t, ht, hvisible, hpending⟩ := hwaits
      rw [htile] at ht
      obtain ⟨u, hu, rfl⟩ := Option.map_eq_some_iff.1 ht
      exact ⟨x, hkept.pendingDeltas ▸ hx, u, hu, hvisible, hpending⟩

theorem inv_resolve (h : Inv s) {i : Nat} (c : Collect K) {bitmaps : List (K × I)} (hi : i < s.bitmapPromises.length)
    (hok : 0 < s.inTransaction ∨ s.posted ≠ [] ∨ s.bitmapPromises.length ≠ 1 ∨
      (s.pausedForCoherency = true → ¬ Waits s)) :
    Inv (endTransactionHandleBitmaps { s with bitmapPromises := s.bitmapPromises.eraseIdx i } c bitmaps) := by
  have hsteady : Steady { s with bitmapPromises := s.bitmapPromises.eraseIdx i } :=
    ⟨h.balance, h.tasks, h.withoutWorkers, h.rawDeltas, h.ids, h.answers, h.ready⟩
  refine inv_endTransactionHandleBitmaps hsteady c bitmaps ?_
  rintro ⟨htransaction, hposted, hpromises⟩
  have hlength := congrArg List.length hpromises
  change (s.bitmapPromises.eraseIdx i).length = 0 at hlength
  rw [List.length_eraseIdx, if_pos hi] at hlength
  rcases hok with hopen | hopen | hopen | hwaits
  · exact absurd htransaction (Nat.pos_iff_ne_zero.1 hopen)
  · exact absurd hposted hopen
  · omega
  · exact hwaits

/-! ### Rehydration -/

theorem lastKeyframe_lt {rawDeltas : List (RawDelta P)} (h : rawDeltas ≠ []) :
    lastKeyframe rawDeltas < rawDeltas.length := by
  have hpos := List.length_pos_of_ne_nil h
  unfold lastKeyframe
  split <;> omega

theorem firstDelta_lt {t : BrowserTile P I} (h : t.needsRehydration = true) : firstDelta t < t.rawDeltas.length := by
  unfold BrowserTile.needsRehydration at h
  obtain ⟨last, hlast, hne⟩ := (Option.any_eq_true _ _).1 h
  have hnil : t.rawDeltas ≠ [] := by
    intro hnil
    rw [hnil] at hlast
    cases hlast
  unfold firstDelta
  dsimp only
  split
  · cases hfind : t.rawDeltas.findIdx? (·.id == t.lastPendingId) with
    | none => exact lastKeyframe_lt hnil
    | some j =>
      obtain ⟨hj, hid, -⟩ := List.findIdx?_eq_some_iff_getElem.1 hfind
      -- the last raw delta is another one
      have hnotlast : j ≠ t.rawDeltas.length - 1 := by
        intro hj'
        rw [List.getLast?_eq_getElem?, ← hj', List.getElem?_eq_getElem hj] at hlast
        rw [Option.some.inj hlast] at hid
        simp only [beq_iff_eq] at hid
        simp [hid] at hne
      dsimp only
      omega
  · exact lastKeyframe_lt hnil

theorem inv_rehydrateTile (h : Inv s) (key : K) (wireMessage : Bool)
    (hok : Quiescent s → ∀ t ∈ s.tile key, t.distanceFromView = 0 → t.needsRehydration = false) :
    Inv (s.rehydrateTile key wireMessage) := by
  unfold rehydrateTile
  cases ht : s.tile key with
  | none => exact h
  | some t =>
    dsimp only
    split
    case isFalse => exact h
    rename_i hneeds
    have hlt := firstDelta_lt hneeds
    obtain ⟨last, hlast, -⟩ := (Option.any_eq_true _ _).1 hneeds
    rw [List.drop_eq_getElem_cons hlt, hlast]
    dsimp only
    set x : PendingDelta K P I :=
      ⟨key, (t.rawDeltas[firstDelta t] :: t.rawDeltas.drop (firstDelta t + 1)).map (·.delta),
      t.rawDeltas[firstDelta t].isKeyframe, wireMessage, (t.rawDeltas[firstDelta t].id, last.id), none⟩ with hx
    have hid : last.id ≠ 0 := h.rawDeltas key t ht last (List.mem_of_getLast? hlast)
    -- whether drawing pauses now or not
    have hpush : ∀ b : Bool, (Quiescent s → b = false) → Inv { s.setTile key { t with lastPendingId := last.id } with
        pendingDeltas := s.pendingDeltas ++ [x], pausedForCoherency := b } := by
      intro b hb
      have hout : outstanding { s.setTile key { t with lastPendingId := last.id } with
          pendingDeltas := s.pendingDeltas ++ [x], pausedForCoherency := b } = s.outstanding ++ [x] :=
        (List.append_assoc _ _ _).symm
      have htile : ∀ key', tile { s.setTile key { t with lastPendingId := last.id } with
          pendingDeltas := s.pendingDeltas ++ [x], pausedForCoherency := b } key' =
          if key' = key then some { t with lastPendingId := last.id } else s.tile key' := fun key' =>
        tile_setTile key key' _
      refine ⟨⟨h.balance, h.tasks, h.withoutWorkers, ?_, ?_, h.answers, ?_⟩,
        fun hquiet => ⟨(h.idle hquiet).1, hb hquiet⟩⟩
      · intro key' u hu
        rw [htile] at hu
        split at hu
        · obtain rfl := Option.some.inj hu
          exact h.rawDeltas key t ht
        · exact h.rawDeltas key' u hu
      · intro y hy
        rw [hout, List.mem_append, List.mem_singleton] at hy
        rcases hy with hy | rfl
        · exact h.ids y hy
        · exact hid
      · intro key' u hu hpending
        rw [htile] at hu
        rw [hout, lastIds_append]
        split at hu
        · rename_i hkey
          obtain rfl := Option.some.inj hu
          have hlastx : lastIds [x] key' = some x.ids := by simp [lastIds, hx, hkey]
          rw [hlastx]
          rfl
        · rename_i hkey
          have hlastx : lastIds [x] key' = none := by
            rw [lastIds_eq_none]
            intro y hy
            rw [List.mem_singleton.1 hy]
            exact Ne.symm hkey
          rw [hlastx, Option.none_or]
          exact h.ready key' u hu hpending
    split
    · rename_i hvisible
      refine hpush true fun hquiet => ?_
      rw [hok hquiet t ht hvisible] at hneeds
      cases hneeds
    · exact hpush s.pausedForCoherency fun hquiet => (h.idle hquiet).2

theorem calms_storeRawDelta {key : K} {t : BrowserTile P I} (ht : s.tile key = some t) (img : Option (TileImage P)) :
    Calms s (s.setTile key (storeRawDelta t img)) := by
  unfold storeRawDelta
  cases img with
  | none => exact .setTile ht (.inr ⟨rfl, rfl, id⟩) id
  | some img =>
    dsimp only
    split
    · exact .setTile ht (.inr ⟨rfl, rfl, id⟩) id
    · refine .setTile ht (.inr ⟨rfl, rfl, id⟩) fun h r hr => ?_
      rcases List.mem_append.1 hr with hr | hr
      · exact h r hr
      · rw [List.mem_singleton.1 hr]
        exact Nat.succ_ne_zero _

theorem storeRawDelta_of_ignored {t : BrowserTile P I} {img : Option (TileImage P)}
    (h : ∀ x ∈ img, x.isEmpty = true ∨ x.isKeyframe = false ∧ t.hasKeyframe = false) : storeRawDelta t img = t := by
  unfold storeRawDelta
  cases img with
  | none => rfl
  | some x =>
    dsimp only
    rw [if_pos]
    rcases h x rfl with hempty | ⟨hkeyframe, hnone⟩
    · simp [hempty]
    · simp [hkeyframe, hnone]

theorem inv_onTileMsg (h : Inv s) {key : K} {distance : Nat} {img : Option (TileImage P)}
    (hok : Drawn s (.tileMsg key distance img)) : Inv (s.onTileMsg key distance img) := by
  unfold onTileMsg
  dsimp only
  have hcreate := calms_createTile s key distance
  cases ht : (s.createTile key distance).tile key with
  | none => exact h.calms hcreate
  | some t =>
    have hstore := hcreate.trans (calms_storeRawDelta ht img)
    dsimp only
    split
    case isFalse => exact h.calms hstore
    rename_i hvisible
    refine inv_rehydrateTile (h.calms hstore) key true fun hquiet u hu _ => ?_
    obtain ⟨hignored, hneeds⟩ := hok (hquiet.of_calms hstore) t ht hvisible
    rw [tile_setTile, if_pos rfl, storeRawDelta_of_ignored hignored] at hu
    obtain rfl := Option.some.inj hu
    exact hneeds

theorem inv_makeTileCurrent (h : Inv s) {key : K} (hok : Drawn s (.makeTileCurrent (P := P) key)) :
    Inv (s.makeTileCurrent key) := by
  unfold makeTileCurrent
  cases ht : s.tile key with
  | none => exact h
  | some t =>
    have hset : Calms s (s.setTile key { t with distanceFromView := 0 }) := .setTile ht (.inr ⟨rfl, rfl, id⟩) id
    refine inv_rehydrateTile (h.calms hset) key false fun hquiet u hu _ => ?_
    rw [tile_setTile, if_pos rfl] at hu
    obtain rfl := Option.some.inj hu
    exact hok (hquiet.of_calms hset) t ht

/-! ### Posting -/

theorem work_same {images : K → Option I} {xs : List (PendingDelta K P I)}
    {r : (K → Option I) × List (PendingDelta K P I)}
    (h : work d images xs = some r) : r.2.map (fun y => (y.key, y.ids)) = xs.map fun x => (x.key, x.ids) := by
  induction xs generalizing images r with
  | nil =>
    obtain rfl := Option.some.inj h
    rfl
  | cons x xs ih =>
    simp only [work, Option.bind_eq_bind, Option.bind_eq_some_iff] at h
    obtain ⟨image, -, ⟨images', ys⟩, hrest, hr⟩ := h
    obtain rfl := Option.some.inj hr
    simp only [List.map_cons]
    exact congrArg (_ :: ·) (ih hrest)

/-- The tasks that are posted for some of the workers. -/
theorem post_spec (ws : List Nat) (t : TileManager K P I) :
    ∃ new, let t' := ws.foldl (fun (t : TileManager K P I) worker =>
        if s.bucketOf d worker = [] then t else t.postMessage d worker (s.bucketOf d worker)) t
      t'.posted = t.posted ++ new ∧ new.flatMap (·.deltas) = ws.flatMap (s.bucketOf d) ∧
        t'.nPendingWorkerTasks = t.nPendingWorkerTasks + new.length ∧
        (∀ task ∈ new, ∀ ys, task.answer = some ys →
          ys.map (fun y => (y.key, y.ids)) = task.deltas.map fun x => (x.key, x.ids)) ∧
        t'.inTransaction = t.inTransaction ∧ t'.pendingDeltas = t.pendingDeltas ∧
        t'.transactionCallbacks = t.transactionCallbacks ∧ t'.pausedForCoherency = t.pausedForCoherency ∧
        t'.workers = t.workers ∧ t'.bitmapPromises = t.bitmapPromises ∧ t'.passed = t.passed ∧ t'.called = t.called ∧
        t'.tiles = t.tiles := by
  induction ws generalizing t with
  | nil => exact ⟨[], by simp⟩
  | cons w ws ih =>
    rw [List.foldl_cons]
    by_cases hw : s.bucketOf d w = []
    · rw [if_pos hw]
      obtain ⟨new, h⟩ := ih t
      refine ⟨new, ?_⟩
      rw [List.flatMap_cons, hw, List.nil_append]
      exact h
    · rw [if_neg hw]
      obtain ⟨new, h₁, h₂, h₃, h₄, h₅, h₆, h₇, h₈, h₉, h₁₀, h₁₁, h₁₂, h₁₃⟩ := ih (t.postMessage d w (s.bucketOf d w))
      refine ⟨⟨w, s.bucketOf d w,
        (work d (fun key => if (t.tileImageCache (.key key)).isSome then t.workerImages w key else none)
        (s.bucketOf d w)).map Prod.snd⟩ :: new, ?_, ?_, ?_, ?_, h₅, h₆, h₇, h₈, h₉, h₁₀, h₁₁, h₁₂, h₁₃⟩
      · rw [h₁]
        exact List.append_assoc _ _ _
      · rw [List.flatMap_cons, List.flatMap_cons, h₂]
      · rw [h₃, List.length_cons]
        change t.nPendingWorkerTasks + 1 + new.length = _
        omega
      · intro task htask ys hys
        rcases List.mem_cons.1 htask with rfl | htask
        · obtain ⟨r, hr, rfl⟩ := Option.map_eq_some_iff.1 hys
          exact work_same hr
        · exact h₄ task htask ys hys

theorem flatMap_ite_eq {α : Type} {l : List Nat} (hl : l.Nodup) {j : Nat} (hj : j ∈ l) (xs : List α) :
    (l.flatMap fun i => if i = j then xs else []) = xs := by
  induction l with
  | nil => cases hj
  | cons a l ih =>
    rw [List.nodup_cons] at hl
    rw [List.flatMap_cons]
    rcases List.mem_cons.1 hj with rfl | hj
    · rw [if_pos rfl]
      have hnone : (l.flatMap fun i => if i = j then xs else []) = [] := by
        rw [List.flatMap_eq_nil_iff]
        intro i hi
        rw [if_neg]
        rintro rfl
        exact hl.1 hi
      rw [hnone, List.append_nil]
    · have hne : a ≠ j := by
        rintro rfl
        exact hl.1 hj
      rw [if_neg hne, List.nil_append, ih hl.2 hj]

theorem filter_bucketOf (i : Nat) (key : K) :
    (s.bucketOf d i).filter (fun (x : PendingDelta K P I) => x.key = key) =
      if i = d.bucket key % s.workers then s.pendingDeltas.filter fun (x : PendingDelta K P I) => x.key = key
      else [] := by
  unfold bucketOf
  rw [List.filter_filter]
  split
  · rename_i hi
    refine List.filter_congr fun x _ => ?_
    by_cases hx : x.key = key <;> simp [hx, hi]
  · rename_i hi
    rw [List.filter_eq_nil_iff]
    intro x _
    by_cases hx : x.key = key
    · simp [hx, Ne.symm hi]
    · simp [hx]

/-- All deltas of a tile go to one worker, in their order. -/
theorem filter_buckets (hworkers : s.workers ≠ 0) (key : K) :
    ((List.range s.workers).flatMap (s.bucketOf d)).filter (fun (x : PendingDelta K P I) => x.key = key) =
      s.pendingDeltas.filter fun (x : PendingDelta K P I) => x.key = key := by
  rw [List.filter_flatMap]
  simp only [filter_bucketOf]
  exact flatMap_ite_eq List.nodup_range (List.mem_range.2 (Nat.mod_lt _ (Nat.pos_of_ne_zero hworkers))) _

theorem mem_buckets (hworkers : s.workers ≠ 0) (x : PendingDelta K P I) :
    x ∈ (List.range s.workers).flatMap (s.bucketOf d) ↔ x ∈ s.pendingDeltas := by
  have hx := congrArg (x ∈ ·) (filter_buckets (d := d) hworkers x.key)
  simpa using hx

/-! ### The end of a transaction -/

theorem lastIds_of_filter {xs ys : List (PendingDelta K P I)} {key : K}
    (h : (xs.filter fun (x : PendingDelta K P I) => x.key = key) =
      ys.filter fun (x : PendingDelta K P I) => x.key = key) :
    lastIds xs key = lastIds ys key := by
  unfold lastIds
  rw [h]

/-- The deltas go to the workers; whoever waits now waits for them. -/
theorem inv_post (h : Steady s) (hworkers : s.workers ≠ 0) (hpending : s.pendingDeltas ≠ []) (n : Nat) :
    Inv (decompressPendingDeltas d { s with inTransaction := n }) := by
  unfold decompressPendingDeltas
  rw [if_pos hworkers]
  obtain ⟨new, h₁, h₂, h₃, h₄, h₅, h₆, h₇, h₈, h₉, h₁₀, h₁₁, h₁₂, h₁₃⟩ :=
    post_spec (d := d) (s := { s with inTransaction := n }) (List.range s.workers) { s with inTransaction := n }
  have hmem : ∀ x, x ∈ new.flatMap (·.deltas) ↔ x ∈ s.pendingDeltas := by
    intro x
    rw [h₂]
    exact mem_buckets (s := { s with inTransaction := n }) hworkers x
  have hnew : new ≠ [] := by
    rintro rfl
    obtain ⟨x, hx⟩ := List.exists_mem_of_ne_nil _ hpending
    exact absurd ((hmem x).2 hx) List.not_mem_nil
  have hlast : ∀ key, lastIds (new.flatMap (·.deltas)) key = lastIds s.pendingDeltas key := by
    intro key
    refine lastIds_of_filter ?_
    rw [h₂]
    exact filter_buckets (s := { s with inTransaction := n }) hworkers key
  generalize (List.range s.workers).foldl _ _ = t at h₁ h₂ h₃ h₄ h₅ h₆ h₇ h₈ h₉ h₁₀ h₁₁ h₁₂ h₁₃
  have hposted : t.posted ≠ [] := by
    rw [h₁]
    exact List.append_ne_nil_of_right_ne_nil _ hnew
  have hout : outstanding { t with pendingDeltas := [] } = s.posted.flatMap (·.deltas) ++ new.flatMap (·.deltas) := by
    unfold outstanding
    dsimp only
    rw [h₁, List.flatMap_append, List.append_nil]
  refine ⟨⟨?_, ?_, ?_, ?_, ?_, ?_, ?_⟩, fun hquiet => absurd hquiet.2.1 hposted⟩
  · change (t.called ++ t.transactionCallbacks).Perm t.passed
    rw [h₁₂, h₇, h₁₁]
    exact h.balance
  · change t.nPendingWorkerTasks = t.posted.length
    rw [h₃, h₁, List.length_append]
    exact congrArg (· + new.length) h.tasks
  · change t.workers = 0 → t.posted = []
    rw [h₉]
    exact fun hnone => absurd hnone hworkers
  · intro key u hu
    have hu : t.tile key = some u := hu
    unfold tile at hu
    rw [h₁₃] at hu
    exact h.rawDeltas key u hu
  · intro x hx
    rw [hout, List.mem_append, hmem] at hx
    exact h.ids x (List.mem_append.2 hx)
  · intro task htask
    have htask : task ∈ t.posted := htask
    rw [h₁, List.mem_append] at htask
    rcases htask with htask | htask
    · exact h.answers task htask
    · exact h₄ task htask
  · intro key u hu hne
    have hu : t.tile key = some u := hu
    unfold tile at hu
    rw [h₁₃] at hu
    rw [hout, lastIds_append, hlast, ← lastIds_append]
    exact h.ready key u hu hne

/-- Without workers the deltas are decompressed at once. -/
theorem inv_decompress (h : Steady s) (hworkers : s.workers = 0) (n : Nat)
    (hdraws : s.bitmapPromises = [] → (∃ x ∈ s.pendingDeltas, Draws s x) ∨ Idle s) :
    Inv (decompressPendingDeltas d { s with inTransaction := n }) := by
  have hposted : s.posted = [] := h.withoutWorkers hworkers
  unfold decompressPendingDeltas
  rw [if_neg (not_not.2 hworkers)]
  unfold onEndTransaction
  set s₁ : TileManager K P I :=
    { s with inTransaction := n, nPendingWorkerTasks := s.nPendingWorkerTasks + 1 - 1 } with hs₁
  obtain ⟨hkept, htile⟩ := workerDeltas_spec (d := d) s₁ s.pendingDeltas
  have hids : ∀ x ∈ s.pendingDeltas, x.ids.2 ≠ 0 := fun x hx => h.ids x (List.mem_append_right _ hx)
  have hout : s.outstanding = [] ++ s.pendingDeltas ++ [] := by
    unfold outstanding
    rw [hposted]
    simp
  have hthen : ∀ promises : List (List (K × I)), (promises = [] → Idle s) →
      Inv { (workerDeltas d s₁ s.pendingDeltas).1 with pendingDeltas := [], bitmapPromises := promises } := by
    intro promises hpromises
    obtain ⟨k₁, k₂, k₃, k₄, k₅, k₆, -, k₇, k₈, k₉, k₁₀⟩ := hkept
    refine ⟨⟨?_, ?_, ?_, ?_, ?_, ?_, ?_⟩, ?_⟩
    · change ((workerDeltas d s₁ s.pendingDeltas).1.called ++
        (workerDeltas d s₁ s.pendingDeltas).1.transactionCallbacks).Perm
        (workerDeltas d s₁ s.pendingDeltas).1.passed
      rw [k₁₀, k₃, k₉]
      exact h.balance
    · change (workerDeltas d s₁ s.pendingDeltas).1.nPendingWorkerTasks =
        (workerDeltas d s₁ s.pendingDeltas).1.posted.length
      rw [k₄, k₇]
      exact h.tasks
    · intro _
      exact k₇.trans hposted
    · intro key t ht
      have ht : (workerDeltas d s₁ s.pendingDeltas).1.tile key = some t := ht
      rw [htile] at ht
      obtain ⟨u, hu, rfl⟩ := Option.map_eq_some_iff.1 ht
      exact h.rawDeltas key u hu
    · intro x hx
      have hx : x ∈ (workerDeltas d s₁ s.pendingDeltas).1.posted.flatMap (·.deltas) ++ [] := hx
      rw [k₇, hs₁] at hx
      dsimp only at hx
      rw [hposted] at hx
      cases hx
    · intro task htask
      have htask : task ∈ (workerDeltas d s₁ s.pendingDeltas).1.posted := htask
      rw [k₇] at htask
      exact h.answers task htask
    · refine ready_workerDeltas h.ready hout (fun _ _ _ hy => nomatch hy) htile ?_
      change (workerDeltas d s₁ s.pendingDeltas).1.posted.flatMap (·.deltas) ++ [] = [] ++ []
      rw [k₇, hs₁]
      dsimp only
      rw [hposted]
      rfl
    · intro hquiet
      have hidle := hpromises hquiet.2.2
      exact ⟨k₃.trans hidle.1, k₅.trans hidle.2⟩
  have hpromises : (workerDeltas d s₁ s.pendingDeltas).1.bitmapPromises = s.bitmapPromises := hkept.bitmapPromises
  dsimp only
  split
  · rename_i hempty
    have hnodraw : ¬ ∃ x ∈ s.pendingDeltas, Draws s x := by
      intro hex
      exact workerDeltas_ne_nil (d := d) (s := s₁) hids hex hempty
    have hkeep := hthen s.bitmapPromises fun hnil => (hdraws hnil).resolve_left hnodraw
    rw [← hpromises] at hkeep
    exact hkeep
  · refine hthen _ fun hnil => ?_
    exact absurd hnil (List.append_ne_nil_of_right_ne_nil _ (List.cons_ne_nil _ _))

theorem inv_endTransaction (h : Inv s) (callback : Option Nat)
    (hok : Drawn s (.endTransaction (K := K) (P := P) callback)) : Inv (s.endTransaction d callback) := by
  obtain ⟨hmatched, hok⟩ := hok
  have hbalance : (s.called ++ (s.transactionCallbacks ++ callback.toList)).Perm (s.passed ++ callback.toList) := by
    rw [← List.append_assoc]
    exact h.balance.append_right _
  unfold endTransaction
  dsimp only
  by_cases hnone : s.inTransaction = 0
  · -- mismatched, and without a callback
    rw [if_pos hnone]
    obtain rfl := hmatched.resolve_left (by omega)
    refine ⟨⟨?_, h.tasks, h.withoutWorkers, h.rawDeltas, h.ids, h.answers, h.ready⟩, h.idle⟩
    change (s.called ++ s.transactionCallbacks).Perm (s.passed ++ [])
    rw [List.append_nil]
    exact h.balance
  rw [if_neg hnone]
  by_cases hnested : s.inTransaction - 1 ≠ 0
  · rw [if_pos hnested]
    exact ⟨⟨hbalance, h.tasks, h.withoutWorkers, h.rawDeltas, h.ids, h.answers, h.ready⟩,
      fun hquiet => absurd hquiet.1 hnested⟩
  rw [if_neg hnested]
  have hok := hok (by omega)
  by_cases hpending : s.pendingDeltas = []
  · -- nothing to decompress
    rw [if_pos hpending]
    have hidle : s.posted = [] → s.bitmapPromises = [] → Idle s := by
      intro hposted hpromises
      have := hok hposted hpromises
      rwa [if_pos hpending] at this
    cases callback with
    | none =>
      refine ⟨⟨hbalance, h.tasks, h.withoutWorkers, h.rawDeltas, h.ids, h.answers, h.ready⟩, fun hquiet => ?_⟩
      obtain ⟨hcallbacks, hpaused⟩ := hidle hquiet.2.1 hquiet.2.2
      exact ⟨(List.append_nil _).trans hcallbacks, hpaused⟩
    | some callback =>
      refine ⟨⟨?_, h.tasks, h.withoutWorkers, h.rawDeltas, h.ids, h.answers, h.ready⟩, fun hquiet => ?_⟩
      · change ((s.called ++ [callback]) ++ (s.transactionCallbacks ++ [callback]).dropLast).Perm
          (s.passed ++ [callback])
        rw [List.dropLast_concat]
        refine List.Perm.trans ?_ hbalance
        rw [List.append_assoc]
        exact List.Perm.append_left _ List.perm_append_comm
      · obtain ⟨hcallbacks, hpaused⟩ := hidle hquiet.2.1 hquiet.2.2
        refine ⟨?_, hpaused⟩
        change (s.transactionCallbacks ++ [callback]).dropLast = []
        rw [List.dropLast_concat, hcallbacks]
  · rw [if_neg hpending]
    have hsteady : Steady { s with passed := s.passed ++ callback.toList
                                   transactionCallbacks := s.transactionCallbacks ++ callback.toList } :=
      ⟨hbalance, h.tasks, h.withoutWorkers, h.rawDeltas, h.ids, h.answers, h.ready⟩
    by_cases hworkers : s.workers = 0
    · refine inv_decompress hsteady hworkers (s.inTransaction - 1) fun hnil => ?_
      have := hok (h.withoutWorkers hworkers) hnil
      rw [if_neg hpending] at this
      rcases this with hw | hdraws | ⟨rfl, hcallbacks, hpaused⟩
      · exact absurd hworkers hw
      · exact .inl hdraws
      · exact .inr ⟨(List.append_nil _).trans hcallbacks, hpaused⟩
    · exact inv_post hsteady hworkers hpending (s.inTransaction - 1)

/-! ### Errors of the workers -/

theorem tile_removeAll (keys : List K) {key : K} (h : key ∈ keys ∨ s.tile key = none) :
    (keys.foldl removeTile s).tile key = none := by
  induction keys generalizing s with
  | nil => exact h.resolve_left List.not_mem_nil
  | cons k keys ih =>
    refine ih ?_
    by_cases hk : key = k
    · exact .inr (by rw [tile_removeTile, if_pos hk])
    · rcases h with h | h
      · exact .inl ((List.mem_cons.1 h).resolve_left hk)
      · refine .inr ?_
        rw [tile_removeTile, if_neg hk, tile_reclaim_of_ne hk, h]

/-- The tasks are dropped, and no tile is left. -/
theorem onWorkerError_spec (s : TileManager K P I) :
    Calms (callTransactionCallbacks
      { s with workers := 0, posted := [], pendingDeltas := [], nPendingWorkerTasks := 0 })
      s.onWorkerError ∧ ∀ key, s.onWorkerError.tile key = none := by
  unfold onWorkerError
  dsimp only
  set s₁ : TileManager K P I := callTransactionCallbacks
    { s with workers := 0, posted := [], pendingDeltas := [], nPendingWorkerTasks := 0 } with hs₁
  refine ⟨.foldl calms_removeTile _, fun key => tile_removeAll _ ?_⟩
  cases ht : s₁.tiles.find key with
  | none => exact .inr (by unfold tile; rw [ht]; rfl)
  | some p => exact .inl (List.mem_map.2 ⟨p, Table.mem_of_find ht, Table.key_of_find ht⟩)

theorem inv_onWorkerError (h : Inv s) (hok : 0 < s.inTransaction ∨ s.pausedForCoherency = false) :
    Inv s.onWorkerError := by
  obtain ⟨hcalms, hnone⟩ := onWorkerError_spec s
  generalize s.onWorkerError = t at hcalms hnone
  refine ⟨⟨?_, ?_, ?_, ?_, ?_, ?_, ?_⟩, ?_⟩
  · rw [hcalms.called, hcalms.transactionCallbacks, hcalms.passed]
    change ((s.called ++ s.transactionCallbacks.reverse) ++ []).Perm s.passed
    rw [List.append_nil]
    exact (List.Perm.append_left _ (List.reverse_perm _)).trans h.balance
  · rw [hcalms.nPendingWorkerTasks, hcalms.posted]
    rfl
  · rw [hcalms.posted]
    exact fun _ => rfl
  · intro key u hu
    rw [hnone] at hu
    cases hu
  · rw [hcalms.toSameTasks.outstanding]
    exact fun x hx => nomatch hx
  · rw [hcalms.posted]
    exact fun x hx => nomatch hx
  · intro key u hu
    rw [hnone] at hu
    cases hu
  · intro hquiet
    have htransaction : s.inTransaction = 0 := hcalms.inTransaction.symm.trans hquiet.1
    have hpaused : s.pausedForCoherency = false := hok.resolve_left (by omega)
    exact ⟨hcalms.transactionCallbacks, hcalms.pausedForCoherency.trans hpaused⟩

/-! ### Runs -/

theorem inv_step {e : Event K P} (h : Inv s) (hok : Drawn s e) (hstep : step d s e = some s') : Inv s' := by
  cases e with
  | beginTransaction =>
    obtain rfl := Option.some.inj hstep
    exact ⟨⟨h.balance, h.tasks, h.withoutWorkers, h.rawDeltas, h.ids, h.answers, h.ready⟩,
      fun hquiet => absurd hquiet.1 (Nat.succ_ne_zero _)⟩
  | endTransaction callback =>
    obtain rfl := Option.some.inj hstep
    exact inv_endTransaction h callback hok
  | tileMsg key distance img =>
    obtain rfl := Option.some.inj hstep
    exact inv_onTileMsg h hok
  | rehydrateTile key =>
    obtain rfl := Option.some.inj hstep
    exact inv_rehydrateTile h key false hok
  | makeTileCurrent key =>
    obtain rfl := Option.some.inj hstep
    exact inv_makeTileCurrent h hok
  | updateAllTileDistances distance =>
    obtain rfl := Option.some.inj hstep
    exact h.calms (calms_updateAllTileDistances s distance)
  | createTile key distance =>
    obtain rfl := Option.some.inj hstep
    exact h.calms (calms_createTile s key distance)
  | removeTile key =>
    obtain rfl := Option.some.inj hstep
    exact h.calms (calms_removeTile s key)
  | reclaimTileBitmapMemory key =>
    obtain rfl := Option.some.inj hstep
    exact h.calms (calms_reclaim s key)
  | garbageCollect c =>
    obtain rfl := Option.some.inj hstep
    exact h.calms (calms_garbageCollect s c)
  | answer i c =>
    simp only [step, Option.bind_eq_bind, Option.bind_eq_some_iff] at hstep
    obtain ⟨task, htask, deltas, hanswer, hs'⟩ := hstep
    obtain rfl := Option.some.inj hs'
    obtain ⟨horder, hdraws⟩ := hok
    refine inv_answer h c htask hanswer horder ?_
    rw [htask, Option.bind_some, hanswer] at hdraws
    exact hdraws
  | resolve i c =>
    simp only [step, Option.bind_eq_bind, Option.bind_eq_some_iff] at hstep
    obtain ⟨bitmaps, hbitmaps, hs'⟩ := hstep
    obtain rfl := Option.some.inj hs'
    obtain ⟨hi, -⟩ := List.getElem?_eq_some_iff.1 hbitmaps
    exact inv_resolve h c hi hok
  | workerError =>
    obtain ⟨-, hs'⟩ := Option.ite_none_right_eq_some.1 hstep
    obtain rfl := Option.some.inj hs'
    exact inv_onWorkerError h hok

theorem step_of_transactionStep {e : Event K P} (h : transactionStep d s (.event e) = some s') :
    step d s e = some s' := by
  cases e with
  | endTransaction callback => exact (Option.ite_none_left_eq_some.1 h).2
  | _ => exact h

theorem finishes_of_drawn (h : Run.Reachable IsInit (transactionStep d) TransactionEvent.Drawn s) : Finishes s := by
  have hinv : Inv s := by
    refine h.invariant Inv (fun _ hinit => inv_init hinit) fun _ e _ _ hinv hok hstep => ?_
    cases e with
    | event e => exact inv_step hinv hok (step_of_transactionStep hstep)
    | endTransactionThrows callback n => exact hok.elim
  exact ⟨hinv.balance, hinv.idle⟩

/-! ### Runs -/

instance (s : TileManager K P I) (x : PendingDelta K P I) : Decidable (Draws s x) :=
  inferInstanceAs (Decidable (∃ t ∈ s.tile x.key, _ ∧ _))

instance (s : TileManager K P I) : Decidable (Quiescent s) := instDecidableAnd

instance (s : TileManager K P I) : Decidable (Idle s) := instDecidableAnd

instance (s : TileManager K P I) : Decidable (Waits s) :=
  inferInstanceAs (Decidable (∃ x ∈ s.pendingDeltas, ∃ t ∈ s.tile x.key, _ ∧ _))

instance (s : TileManager K P I) (i : Nat) : Decidable (InOrder s i) :=
  inferInstanceAs (Decidable (∀ x ∈ _, ∀ y ∈ _, _))

instance (s : TileManager K P I) : (e : Event K P) → Decidable (Drawn s e)
  | .endTransaction _ => instDecidableAnd
  | .tileMsg _ _ _ => inferInstanceAs (Decidable (_ → _))
  | .rehydrateTile _ => inferInstanceAs (Decidable (_ → _))
  | .makeTileCurrent _ => inferInstanceAs (Decidable (_ → _))
  | .answer _ _ => instDecidableAnd
  | .resolve _ _ => instDecidableOr
  | .workerError => instDecidableOr
  | .beginTransaction => .isTrue trivial
  | .updateAllTileDistances _ => .isTrue trivial
  | .createTile _ _ => .isTrue trivial
  | .removeTile _ => .isTrue trivial
  | .reclaimTileBitmapMemory _ => .isTrue trivial
  | .garbageCollect _ => .isTrue trivial

instance (s : TileManager K P I) : (e : TransactionEvent K P) → Decidable (e.Drawn s)
  | .event e => inferInstanceAs (Decidable (Drawn s e))
  | .endTransactionThrows _ _ => .isFalse id

/-- Images as the lists of what was drawn. -/
def lists : TileDecoder Nat Nat (List Nat) where
  unrle p := [p]
  updateImageFromDeltas image p := image ++ [p]
  bucket key := key

def keyframe : TileImage Nat := ⟨7, false, true⟩

theorem not_finishes_of_not_idle {s : TileManager Nat Nat (List Nat)} (hquiet : Quiescent s) (h : ¬ Idle s) :
    ¬ Finishes s :=
  fun hfinishes => h (hfinishes.2 hquiet)

/-- A tile that is removed while it is decompressed: the callback is not called.  A tile that comes into view outside
a transaction: drawing stays paused.  A decompression that throws while a bitmap is promised: its callback is called
twice. -/
theorem exists_not_finishes :
    (∃ s : TileManager Nat Nat (List Nat), Run.Reachable IsInit (transactionStep lists) Run.Any s ∧
      s.transactionCallbacks = [1] ∧ ¬ Finishes s) ∧
    (∃ s : TileManager Nat Nat (List Nat), Run.Reachable IsInit (transactionStep lists) Run.Any s ∧
      s.pausedForCoherency = true ∧ ¬ Finishes s) ∧
    (∃ s : TileManager Nat Nat (List Nat), Run.Reachable IsInit (transactionStep lists) Run.Any s ∧
      s.passed = [1, 2] ∧ s.called = [2, 2, 1] ∧ ¬ Finishes s) := by
  have hworkers : IsInit ({ workers := 4 } : TileManager Nat Nat (List Nat)) := rfl
  have hnone : IsInit ({} : TileManager Nat Nat (List Nat)) := rfl
  have hremoved : ∃ s : TileManager Nat Nat (List Nat), Run.Reachable IsInit (transactionStep lists) Run.Any s ∧
      (decide (Quiescent s) && s.transactionCallbacks == [1]) = true :=
    Run.Reachable.exists_of_run { workers := 4 } [.event .beginTransaction, .event (.tileMsg 0 0 (some keyframe)),
      .event (.endTransaction (some 1)), .event (.removeTile 0), .event (.answer 0 .nothing)] hworkers
        (by decide +kernel)
  have hcurrent : ∃ s : TileManager Nat Nat (List Nat), Run.Reachable IsInit (transactionStep lists) Run.Any s ∧
      (decide (Quiescent s) && s.pausedForCoherency) = true :=
    Run.Reachable.exists_of_run { workers := 4 } [.event .beginTransaction, .event (.tileMsg 0 5 (some keyframe)),
      .event (.endTransaction (some 1)), .event (.makeTileCurrent 0)] hworkers (by decide +kernel)
  have hthrows : ∃ s : TileManager Nat Nat (List Nat), Run.Reachable IsInit (transactionStep lists) Run.Any s ∧
      (s.passed == [1, 2] && s.called == [2, 2, 1]) = true :=
    Run.Reachable.exists_of_run {} [.event .beginTransaction, .event (.tileMsg 0 0 (some keyframe)),
      .event (.endTransaction (some 1)), .event .beginTransaction, .event (.tileMsg 1 0 (some keyframe)),
      .endTransactionThrows (some 2) 0, .event (.resolve 0 .nothing)] hnone (by decide +kernel)
  refine ⟨?_, ?_, ?_⟩
  · obtain ⟨s, hs, hp⟩ := hremoved
    obtain ⟨hquiet, hcallbacks⟩ := by simpa only [Bool.and_eq_true, decide_eq_true_eq, beq_iff_eq] using hp
    refine ⟨s, hs, hcallbacks, not_finishes_of_not_idle hquiet fun hidle => ?_⟩
    exact absurd (hcallbacks.symm.trans hidle.1) (List.cons_ne_nil _ _)
  · obtain ⟨s, hs, hp⟩ := hcurrent
    obtain ⟨hquiet, hpaused⟩ := by simpa only [Bool.and_eq_true, decide_eq_true_eq] using hp
    refine ⟨s, hs, hpaused, not_finishes_of_not_idle hquiet fun hidle => ?_⟩
    exact absurd (hpaused.symm.trans hidle.2) nofun
  · obtain ⟨s, hs, hp⟩ := hthrows
    obtain ⟨hpassed, hcalled⟩ := by simpa only [Bool.and_eq_true, beq_iff_eq] using hp
    refine ⟨s, hs, hpassed, hcalled, fun hfinishes => ?_⟩
    have hlength := hfinishes.1.length_eq
    rw [List.length_append, hcalled, hpassed] at hlength
    simp only [List.length_cons, List.length_nil] at hlength
    omega

/-- Three callbacks of nested transactions, where a tile is made current outside them and another one is removed. -/
theorem finishes_nested : ∃ s : TileManager Nat Nat (List Nat), Finishes s ∧ Quiescent s ∧ s.passed = [1, 2, 3] ∧
    s.called = [3, 2, 1] := by
  have hinit : IsInit ({ workers := 4 } : TileManager Nat Nat (List Nat)) := rfl
  have hrun : ∃ s : TileManager Nat Nat (List Nat),
      Run.Reachable IsInit (Run.guarded (transactionStep lists) fun s e => decide (TransactionEvent.Drawn s e))
          Run.Any s ∧
        (decide (Quiescent s) && s.passed == [1, 2, 3] && s.called == [3, 2, 1]) = true :=
    Run.Reachable.exists_of_run { workers := 4 } [.event .beginTransaction, .event .beginTransaction,
      .event (.tileMsg 0 0 (some keyframe)), .event (.endTransaction (some 1)), .event (.tileMsg 1 0 (some keyframe)),
      .event (.tileMsg 2 5 (some keyframe)), .event (.endTransaction (some 2)), .event (.makeTileCurrent 2),
      .event (.answer 1 .nothing), .event .beginTransaction, .event (.endTransaction (some 3)),
        .event (.removeTile 0),
      .event (.answer 0 .nothing), .event (.answer 0 .nothing)] hinit (by decide +kernel)
  obtain ⟨s, hs, hp⟩ := hrun
  obtain ⟨⟨hquiet, hpassed⟩, hcalled⟩ := by simpa only [Bool.and_eq_true, decide_eq_true_eq, beq_iff_eq] using hp
  exact ⟨s, finishes_of_drawn (hs.of_guarded fun _ _ => of_decide_eq_true), hquiet, hpassed, hcalled⟩

end TileManager

end CollaboraOnline
