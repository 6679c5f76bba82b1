import CollaboraOnline.Browser.TileDeltas

/-!
# A ready tile shows its newest data

The image of a tile is that of its decompressed id, unless the raw deltas of that id are gone (`Shows`).  It holds
where a key is used again only when nothing is under way for it (`Kept`); otherwise the answer for a tile that was
removed is drawn on the new one.
-/

namespace CollaboraOnline

namespace TileManager

variable {K P I : Type} [DecidableEq K] {d : TileDecoder K P I} {s s' : TileManager K P I}

/-! ### The invariant -/

/-- The image of every tile that is ready and not to be rehydrated is that of its raw deltas. -/
def ShowsNewest (d : TileDecoder K P I) (s : TileManager K P I) : Prop :=
  ∀ key t image, s.tile key = some t → t.image = some image → t.isReady = true → t.needsRehydration = false →
    d.imageOf t.rawDeltas = some image

/-- An image of the tile is that of its decompressed id, unless the raw deltas of that id are gone. -/
def Shows (d : TileDecoder K P I) (t : BrowserTile P I) (image : Option I) : Prop :=
  ∀ img, image = some img → t.decompressedId ≠ 0 ∧
    (Decodes d (t.stored.take t.decompressedId) img ∨ ∀ r ∈ t.rawDeltas, t.decompressedId < r.id)

/-- `image` is what the tile shows, or will show at the end of the step. -/
structure Fine (d : TileDecoder K P I) (s : TileManager K P I) (key : K) (t : BrowserTile P I) (image : Option I) :
    Prop where
  history : History t
  bound : t.decompressedId ≤ t.stored.length
  chain : ∃ q, Knows d t.stored (s.workerImages (d.bucket key % s.workers) key) q ∧
    Chain t.stored q (s.pendingDeltas.filter fun (x : PendingDelta K P I) => x.key = key) t.lastPendingId
  answers : ∀ task ∈ s.posted, ∀ ys, task.answer = some ys → ∀ y ∈ ys, y.key = key → Answers d t.stored y
  shows : Shows d t image
  empty : t.rawDeltas = [] → t.lastPendingId = 0 ∨ (image = none ∧ ∀ x ∈ s.outstanding, x.key ≠ key)

/-- `shown` are the bitmaps that the tiles are still to be given in this step. -/
def AllFine (d : TileDecoder K P I) (s : TileManager K P I) (shown : K → Option I) : Prop :=
  ∀ key t, s.tile key = some t → Fine d s key t ((shown key).or t.image)

structure Newest (d : TileDecoder K P I) (s : TileManager K P I) : Prop where
  fine : AllFine d s fun _ => none
  promises : s.bitmapPromises = []
  keys : ∀ task ∈ s.posted, ∀ ys, task.answer = some ys → ys.map (·.key) = task.deltas.map (·.key)

theorem Newest.showsNewest (h : Newest d s) : ShowsNewest d s := by
  intro key t image ht himage hready hneeds
  have hfine : Fine d s key t t.image := h.fine key t ht
  obtain ⟨hne, hshows⟩ := hfine.shows image himage
  have hready : t.decompressedId = t.lastPendingId := by simpa [BrowserTile.isReady] using hready
  by_cases hraw : t.rawDeltas = []
  · rcases hfine.empty hraw with hzero | ⟨hnone, -⟩
    · exact absurd (hready.trans hzero) hne
    · rw [himage] at hnone
      cases hnone
  obtain ⟨m, hdrop, hhead⟩ := hfine.history.rawDeltas
  have hm : m < t.stored.length := by
    by_contra hle
    rw [List.drop_eq_nil_of_le (by omega)] at hdrop
    exact hraw hdrop
  have hpos : t.stored.length - 1 < t.stored.length := by omega
  -- the last raw delta is the last one that was stored
  have hlast : t.rawDeltas.getLast? = some (t.stored[t.stored.length - 1]) := by
    rw [hdrop, List.getLast?_drop, if_neg (by omega), List.getLast?_eq_getElem?, List.getElem?_eq_getElem]
  have hid : t.lastPendingId = t.stored.length := by
    unfold BrowserTile.needsRehydration at hneeds
    rw [hlast] at hneeds
    simp only [Option.any_some, bne_eq_false_iff_eq] at hneeds
    rw [hneeds, hfine.history.ids]
    omega
  rcases hshows with hdecodes | hgone
  · rw [hready, hid, List.take_length, ← List.take_append_drop m t.stored, ← hdrop] at hdecodes
    refine (hdecodes.of_append ?_).imageOf
    obtain ⟨first, rest, hcons⟩ := List.exists_cons_of_ne_nil hraw
    exact ⟨first, by rw [hcons]; exact List.mem_cons_self, hhead first (by rw [hcons]; rfl)⟩
  · have hmem : t.stored[t.stored.length - 1] ∈ t.rawDeltas := List.mem_of_getLast? hlast
    have := hgone _ hmem
    rw [hfine.history.ids] at this
    omega

/-! ### What happens to one tile -/

section Tile

variable {key : K} {t : BrowserTile P I} {image : Option I}

theorem Fine.congr (h : Fine d s key t image) (hposted : ∀ task ∈ s'.posted, task ∈ s.posted)
    (hpending : s'.pendingDeltas = s.pendingDeltas) (himages : s'.workerImages = s.workerImages)
    (hworkers : s'.workers = s.workers) : Fine d s' key t image where
  history := h.history
  bound := h.bound
  chain := by rw [hpending, himages, hworkers]; exact h.chain
  answers := fun task htask => h.answers task (hposted task htask)
  shows := h.shows
  empty := by
    intro hraw
    refine (h.empty hraw).imp_right fun ⟨hnone, hout⟩ => ⟨hnone, fun x hx => hout x ?_⟩
    unfold outstanding at hx ⊢
    rw [hpending] at hx
    rcases List.mem_append.1 hx with hx | hx
    · obtain ⟨task, htask, hx⟩ := List.mem_flatMap.1 hx
      exact List.mem_append_left _ (List.mem_flatMap.2 ⟨task, hposted task htask, hx⟩)
    · exact List.mem_append_right _ hx

theorem Fine.same (h : Fine d s key t image) (hsame : SameTasks s s') : Fine d s' key t image :=
  h.congr (fun _ htask => hsame.posted ▸ htask) hsame.pendingDeltas hsame.workerImages hsame.workers

theorem Fine.reclaimed (h : Fine d s key t image) :
    Fine d s key { t with image := none, decompressedId := 0, lastPendingId := 0 } none where
  history := ⟨h.history.length, h.history.ids, h.history.rawDeltas⟩
  bound := Nat.zero_le _
  chain := by
    obtain ⟨q, hknows, hchain⟩ := h.chain
    exact ⟨q, hknows, hchain.reset⟩
  answers := h.answers
  shows := nofun
  empty := fun _ => .inl rfl

theorem Fine.cleared (h : Fine d s key t image)
    (hfree : t.lastPendingId = 0 ∨ (image = none ∧ ∀ x ∈ s.outstanding, x.key ≠ key)) :
    Fine d s key { t with rawDeltas := [] } image where
  history := by
    refine ⟨h.history.length, h.history.ids, t.stored.length, ?_, nofun⟩
    exact (List.drop_length).symm
  bound := h.bound
  chain := h.chain
  answers := h.answers
  shows := by
    intro img himg
    exact ⟨(h.shows img himg).1, .inr fun r hr => nomatch hr⟩
  empty := fun _ => hfree

theorem Fine.trimmed (h : Fine d s key t image) :
    Fine d s key { t with rawDeltas := t.rawDeltas.drop (lastKeyframe t.rawDeltas) } image where
  history := by
    obtain ⟨m, hdrop, hhead⟩ := h.history.rawDeltas
    refine ⟨h.history.length, h.history.ids, m + lastKeyframe t.rawDeltas, ?_, drop_lastKeyframe hhead⟩
    dsimp only
    conv_lhs => rw [hdrop, List.drop_drop]
    rw [hdrop]
  bound := h.bound
  chain := h.chain
  answers := h.answers
  shows := by
    intro img himg
    obtain ⟨hne, hshows⟩ := h.shows img himg
    exact ⟨hne, hshows.imp_right fun hgone r hr => hgone r (List.mem_of_mem_drop hr)⟩
  empty := by
    intro hnil
    refine h.empty ?_
    by_contra hne
    have hlt := lastKeyframe_lt hne
    have hlen := congrArg List.length hnil
    rw [List.length_drop, List.length_nil] at hlen
    omega

/-- The image itself and the distance play no part. -/
theorem Fine.of_eq {t' : BrowserTile P I} (h : Fine d s key t image) (hstored : t'.stored = t.stored)
    (hraw : t'.rawDeltas = t.rawDeltas) (hdelta : t'.deltaId = t.deltaId)
    (hpending : t'.lastPendingId = t.lastPendingId)
    (hdone : t'.decompressedId = t.decompressedId) : Fine d s key t' image := by
  obtain ⟨distance, img, raw, delta, pending, done, stored⟩ := t
  obtain ⟨distance', img', raw', delta', pending', done', stored'⟩ := t'
  obtain rfl : stored' = stored := hstored
  obtain rfl : raw' = raw := hraw
  obtain rfl : delta' = delta := hdelta
  obtain rfl : pending' = pending := hpending
  obtain rfl : done' = done := hdone
  exact ⟨⟨h.history.1, h.history.2, h.history.3⟩, h.bound, h.chain, h.answers, h.shows, h.empty⟩

/-- Raw deltas come in. -/
theorem Fine.stores (h : Fine d s key t image) (img : Option (TileImage P)) :
    Fine d s key (storeRawDelta t img) image := by
  unfold storeRawDelta
  cases img with
  | none => exact h
  | some img =>
    dsimp only
    split
    · exact h
    rename_i hkept
    have hlen := h.history.length
    obtain ⟨m, hdrop, hhead⟩ := h.history.rawDeltas
    have hkeyframe : t.rawDeltas = [] → img.isKeyframe = true := by
      intro hraw
      by_contra hdelta
      exact hkept (by simp [BrowserTile.hasKeyframe, hraw, hdelta])
    refine ⟨⟨?_, ?_, ?_⟩, ?_, ?_, ?_, ?_, ?_⟩
    · rw [List.length_append, hlen]
      rfl
    · intro i hi
      rw [List.length_append, List.length_singleton] at hi
      by_cases hlt : i < t.stored.length
      · simp only [List.getElem_append_left hlt]
        exact h.history.ids i hlt
      · obtain rfl : i = t.stored.length := by omega
        simp [hlen]
    · by_cases hm : m ≤ t.stored.length
      · refine ⟨m, ?_, ?_⟩
        · rw [hdrop, List.drop_append_of_le_length hm]
        · intro r hr
          cases hraw : t.rawDeltas with
          | nil =>
            simp only [hraw, List.nil_append, List.head?_cons, Option.mem_def, Option.some.injEq] at hr
            rw [← hr]
            exact hkeyframe hraw
          | cons first rest =>
            refine hhead r ?_
            rw [hraw] at hr ⊢
            exact hr
      · have hraw : t.rawDeltas = [] := by
          rw [hdrop]
          exact List.drop_eq_nil_of_le (by omega)
        refine ⟨t.stored.length, by simp [hraw], ?_⟩
        intro r hr
        simp only [hraw, List.nil_append, List.head?_cons, Option.mem_def, Option.some.injEq] at hr
        rw [← hr]
        exact hkeyframe hraw
    · rw [List.length_append]
      exact Nat.le_trans h.bound (Nat.le_add_right _ _)
    · obtain ⟨q, hknows, hchain⟩ := h.chain
      exact ⟨q, hknows.append _, hchain.append _⟩
    · exact fun task htask ys hys y hy hkey => (h.answers task htask ys hys y hy hkey).append _
    · intro shown hshown
      obtain ⟨hne, hshows⟩ := h.shows shown hshown
      refine ⟨hne, hshows.imp (fun hdecodes => ?_) fun hgone r hr => ?_⟩
      · dsimp only
        rw [List.take_append_of_le_length h.bound]
        exact hdecodes
      · rcases List.mem_append.1 hr with hr | hr
        · exact hgone r hr
        · rw [List.mem_singleton.1 hr]
          have := h.bound
          dsimp only
          omega
    · intro hnil
      simp at hnil

end Tile

/-! ### The tiles of the manager -/

section Manager

variable {shown : K → Option I}

/-- One tile changes. -/
theorem AllFine.setTile (h : AllFine d s shown) {key : K} {t : BrowserTile P I} {shown' : K → Option I}
    (ht : Fine d s key t ((shown' key).or t.image)) (hothers : ∀ k, k ≠ key → shown' k = shown k) :
    AllFine d (s.setTile key t) shown' := by
  intro k u hu
  rw [tile_setTile] at hu
  split at hu
  · rename_i hk
    obtain rfl := Option.some.inj hu
    exact (hk ▸ ht).same (sameTasks_setTile s key t)
  · rename_i hk
    rw [hothers k hk]
    exact (h k u hu).same (sameTasks_setTile s key t)

theorem AllFine.same (h : AllFine d s shown) (hsame : SameTasks s s') (htile : ∀ key, s'.tile key = s.tile key) :
    AllFine d s' shown := by
  intro key t ht
  rw [htile] at ht
  exact (h key t ht).same hsame

theorem allFine_reclaim (h : AllFine d s shown) {key : K} (hkey : shown key = none) :
    AllFine d (s.reclaimTileBitmapMemory key) shown := by
  unfold reclaimTileBitmapMemory
  cases ht : s.tile key with
  | none => exact h
  | some t =>
    dsimp only
    split
    · have hset : AllFine d (s.setTile key { t with image := none, decompressedId := 0, lastPendingId := 0 })
        shown := by
        refine h.setTile ?_ fun _ _ => rfl
        rw [hkey]
        exact (h key t ht).reclaimed
      exact hset.same ⟨rfl, rfl, rfl, rfl, rfl, rfl, rfl, rfl, rfl, rfl, rfl⟩ fun _ => rfl
    · exact h

theorem allFine_removeTile (h : AllFine d s shown) (key : K) : AllFine d (s.removeTile key) shown := by
  intro k t ht
  have hcalms := calms_removeTile s key
  rw [tile_removeTile] at ht
  split at ht
  · cases ht
  · rename_i hk
    rw [tile_reclaim_of_ne hk] at ht
    exact (h k t ht).same hcalms.toSameTasks

/-- The raw deltas of the tile can be collected: its bitmap is reclaimed with them, or nothing is under way. -/
def Collectable (s : TileManager K P I) (key : K) : Prop :=
  ∀ t, s.tile key = some t → t.image ≠ none ∨ t.lastPendingId = 0 ∨ ∀ x ∈ s.outstanding, x.key ≠ key

theorem Collectable.calms {key : K} (h : Collectable s key) (hcalms : Calms s s') : Collectable s' key := by
  intro t' ht'
  rw [hcalms.toSameTasks.outstanding]
  rcases hcalms.tiles key t' ht' with hzero | ⟨t, ht, hpending, -, himage⟩
  · exact .inr (.inl hzero)
  · rcases h t ht with hsome | hrest
    · exact .inl (Option.isSome_iff_ne_none.1 (himage (Option.isSome_iff_ne_none.2 hsome)))
    · rw [hpending]
      exact .inr hrest

theorem allFine_collectDeltas (h : AllFine d s fun _ => none) {key : K} (hfree : Collectable s key) :
    AllFine d (s.collectDeltas key) fun _ => none := by
  unfold collectDeltas
  cases ht : s.tile key with
  | none => exact h
  | some t =>
    dsimp only
    split
    · have hreclaimed : AllFine d (s.reclaimTileBitmapMemory key) fun _ => none := allFine_reclaim h rfl
      have hcalms := calms_reclaim s key
      cases ht' : (s.reclaimTileBitmapMemory key).tile key with
      | none => exact hreclaimed
      | some t' =>
        refine hreclaimed.setTile ?_ fun _ _ => rfl
        refine (hreclaimed key t' ht').cleared ?_
        -- the bitmap is gone by now
        have hnone : t'.image = none ∨ t'.lastPendingId = 0 := by
          unfold reclaimTileBitmapMemory at ht'
          rw [ht] at ht'
          dsimp only at ht'
          split at ht'
          · have ht' : (s.setTile key { t with image := none, decompressedId := 0, lastPendingId := 0 }).tile key =
              some t' :=
              ht'
            rw [tile_setTile, if_pos rfl] at ht'
            obtain rfl := Option.some.inj ht'
            exact .inl rfl
          · rename_i hsome
            rw [ht] at ht'
            obtain rfl := Option.some.inj ht'
            exact .inl (by simpa using hsome)
        rcases hnone with hnone | hzero
        · refine (hfree.calms hcalms t' ht').resolve_left (not_not.2 hnone) |>.imp_right fun hout => ⟨hnone, hout⟩
        · exact .inl hzero
    · exact h

theorem allFine_garbageCollect (h : AllFine d s fun _ => none) {c : Collect K}
    (hfree : ∀ key ∈ c.deltas, Collectable s key) : AllFine d (s.garbageCollect c) fun _ => none := by
  have hdeltas : ∀ (keys : List K) (s : TileManager K P I), AllFine d s (fun _ => none) →
      (∀ key ∈ keys, Collectable s key) → AllFine d (keys.foldl collectDeltas s) fun _ => none := by
    intro keys
    induction keys with
    | nil => exact fun _ h _ => h
    | cons key keys ih =>
      intro s h hfree
      refine ih _ (allFine_collectDeltas h (hfree key List.mem_cons_self)) fun k hk => ?_
      exact (hfree k (List.mem_cons_of_mem _ hk)).calms (calms_collectDeltas s key)
  have htiles : ∀ (keys : List K) (s : TileManager K P I), AllFine d s (fun _ => none) →
      AllFine d (keys.foldl collectTile s) fun _ => none := by
    intro keys
    induction keys with
    | nil => exact fun _ h => h
    | cons key keys ih =>
      intro s h
      refine ih _ ?_
      unfold collectTile
      cases s.tile key with
      | none => exact h
      | some t =>
        dsimp only
        split
        · exact allFine_removeTile h key
        · exact h
  exact htiles _ _ (hdeltas _ _ h hfree)

/-! ### Bitmaps -/

/-- The last bitmap for each tile. -/
def lastBitmap (bitmaps : List (K × I)) (key : K) : Option I :=
  (bitmaps.filter fun (b : K × I) => b.1 = key).getLast?.map Prod.snd

theorem lastBitmap_cons (b : K × I) (bitmaps : List (K × I)) (key : K) :
    lastBitmap (b :: bitmaps) key = (lastBitmap bitmaps key).or (if b.1 = key then some b.2 else none) := by
  unfold lastBitmap
  by_cases hb : b.1 = key
  · rw [List.filter_cons_of_pos (by simpa using hb), List.getLast?_cons, if_pos hb]
    cases (bitmaps.filter fun (b : K × I) => b.1 = key).getLast? <;> rfl
  · rw [List.filter_cons_of_neg (by simpa using hb), if_neg hb, Option.or_none]

theorem lastBitmap_eq_none {bitmaps : List (K × I)} {key : K} (h : ∀ b ∈ bitmaps, b.1 ≠ key) :
    lastBitmap bitmaps key = none := by
  simpa [lastBitmap] using fun k i hb => h (k, i) hb

/-- One bitmap is shown; the tile that gives up its bitmap for it gets none itself. -/
theorem allFine_showBitmap {c : Collect K} {b : K × I} {bitmaps : List (K × I)}
    (h : AllFine d s (lastBitmap (b :: bitmaps)))
    (hevict : ∀ b' ∈ bitmaps, c.bitmap b.1 ≠ some b'.1) : AllFine d (showBitmap c s b) (lastBitmap bitmaps) := by
  have hothers : ∀ k, k ≠ b.1 → lastBitmap bitmaps k = lastBitmap (b :: bitmaps) k := by
    intro k hk
    rw [lastBitmap_cons, if_neg (Ne.symm hk), Option.or_none]
  -- the bitmap is set
  have hset : ∀ (s : TileManager K P I) (t : BrowserTile P I), AllFine d s (lastBitmap (b :: bitmaps)) →
      s.tile b.1 = some t → AllFine d (s.setTile b.1 { t with image := some b.2 }) (lastBitmap bitmaps) := by
    intro s t h ht
    refine h.setTile ?_ hothers
    have hfine := h b.1 t ht
    rw [lastBitmap_cons, if_pos rfl] at hfine
    have hor : ((lastBitmap bitmaps b.1).or (some b.2)).or t.image = (lastBitmap bitmaps b.1).or (some b.2) := by
      cases lastBitmap bitmaps b.1 <;> rfl
    rw [hor] at hfine
    exact hfine.of_eq rfl rfl rfl rfl rfl
  have hbitmap : AllFine d (s.setBitmapOnTile c b.1 b.2) (lastBitmap bitmaps) := by
    unfold setBitmapOnTile
    cases ht : s.tile b.1 with
    | none =>
      intro k t hk
      by_cases hkey : k = b.1
      · rw [hkey, ht] at hk
        cases hk
      · rw [hothers k hkey]
        exact h k t hk
    | some t =>
      dsimp only
      split
      · exact hset s t h ht
      · cases hlast : (c.bitmap b.1).filter (· ≠ b.1) with
        | none => exact hset s t h ht
        | some last =>
          obtain ⟨hlast, hne⟩ := Option.filter_eq_some_iff.1 hlast
          have hne : last ≠ b.1 := by simpa using hne
          have hnone : lastBitmap (b :: bitmaps) last = none := by
            refine lastBitmap_eq_none fun b' hb' hkey => ?_
            rcases List.mem_cons.1 hb' with rfl | hb'
            · exact hne hkey.symm
            · exact hevict b' hb' (hkey ▸ hlast)
          exact hset _ t (allFine_reclaim h hnone) ((tile_reclaim_of_ne hne.symm).trans ht)
  unfold showBitmap
  dsimp only
  cases ht : (s.setBitmapOnTile c b.1 b.2).tile b.1 with
  | none => exact hbitmap
  | some t =>
    dsimp only
    split
    · unfold tileReady
      rw [ht]
      exact hbitmap.setTile (hbitmap b.1 t ht).trimmed fun _ _ => rfl
    · exact hbitmap

theorem allFine_showBitmaps {c : Collect K} {bitmaps : List (K × I)} (h : AllFine d s (lastBitmap bitmaps))
    (hevict : bitmaps.Pairwise fun b b' => c.bitmap b.1 ≠ some b'.1) :
    AllFine d (bitmaps.foldl (showBitmap c) s) fun _ => none := by
  induction bitmaps generalizing s with
  | nil => exact h
  | cons b bitmaps ih =>
    obtain ⟨hfirst, hrest⟩ := List.pairwise_cons.1 hevict
    exact ih (allFine_showBitmap h hfirst) hrest

theorem allFine_endTransactionHandleBitmaps {c : Collect K} {bitmaps : List (K × I)}
    (h : AllFine d s (lastBitmap bitmaps)) (hevict : bitmaps.Pairwise fun b b' => c.bitmap b.1 ≠ some b'.1)
    (hfree : ∀ key ∈ c.deltas, Collectable s key) :
    AllFine d (s.endTransactionHandleBitmaps c bitmaps) fun _ => none := by
  unfold endTransactionHandleBitmaps
  have hshown := allFine_showBitmaps h hevict
  have hfree : ∀ key ∈ c.deltas, Collectable (bitmaps.foldl (showBitmap c) s) key := fun key hkey =>
    (hfree key hkey).calms (.foldl (calms_showBitmap c) bitmaps)
  generalize bitmaps.foldl (showBitmap c) s = s₁ at hshown hfree
  have hof : ∀ s₂ : TileManager K P I, s₂.tiles = s₁.tiles → s₂.pendingDeltas = s₁.pendingDeltas →
      s₂.workerImages = s₁.workerImages → s₂.workers = s₁.workers → s₂.posted = s₁.posted →
      AllFine d (s₂.garbageCollect c) fun _ => none := by
    intro s₂ htiles hpending himages hworkers hposted
    refine allFine_garbageCollect ?_ fun key hkey t ht => ?_
    · intro key t ht
      unfold tile at ht
      rw [htiles] at ht
      exact (hshown key t ht).congr (fun task htask => hposted ▸ htask) hpending himages hworkers
    · unfold tile at ht
      rw [htiles] at ht
      unfold outstanding
      rw [hposted, hpending]
      exact hfree key hkey t ht
  dsimp only
  split <;> split <;> exact hof _ rfl rfl rfl rfl rfl

/-! ### Answers -/

theorem workerDelta_eq {x : PendingDelta K P I} {t : BrowserTile P I} {image : I} (ht : s.tile x.key = some t)
    (hbitmap : x.bitmap = some image) : (workerDelta d s x).2 =
      if x.wireMessage && !x.isKeyframe &&
          !(t.rawDeltas.any (·.id == x.ids.1) && t.rawDeltas.any (·.id == x.ids.2)) then
        none
      else if !x.isKeyframe && t.decompressedId == 0 then none else some image := by
  unfold workerDelta
  simp only [ht, hbitmap]
  split
  · rfl
  · split <;> rfl

theorem allFine_workerDelta {x : PendingDelta K P I} (h : AllFine d s shown)
    (hx : ∀ t, s.tile x.key = some t → Answers d t.stored x ∧ (t.rawDeltas = [] → t.lastPendingId = 0)) :
    AllFine d (workerDelta d s x).1 fun k => (if x.key = k then (workerDelta d s x).2 else none).or (shown k) := by
  obtain ⟨hsame, htile⟩ := workerDelta_spec (d := d) s x
  intro key u hu
  rw [htile] at hu
  obtain ⟨t, ht, rfl⟩ := Option.map_eq_some_iff.1 hu
  have hfine := h key t ht
  by_cases hkey : x.key = key
  swap
  · simp only [if_neg hkey, Option.none_or]
    exact hfine.same hsame
  subst hkey
  simp only [if_true]
  obtain ⟨⟨hpiece, image, hbitmap, hdecodes⟩, hempty⟩ := hx t ht
  rw [workerDelta_eq ht hbitmap]
  have hdone : x.ids.2 ≠ 0 := by
    have := hpiece.first
    have := hpiece.order
    omega
  have hthen : ∀ img : Option I, Shows d { t with decompressedId := x.ids.2 } img →
      Fine d (workerDelta d s x).1 x.key { t with decompressedId := x.ids.2 } img := by
    intro img hshows
    have hnow : Fine d s x.key { t with decompressedId := x.ids.2 } img :=
      ⟨⟨hfine.history.1, hfine.history.2, hfine.history.3⟩, hpiece.bound, hfine.chain, hfine.answers, hshows,
        fun hraw => .inl (hempty hraw)⟩
    exact hnow.same hsame
  by_cases hskip : (x.wireMessage && !x.isKeyframe &&
      !(t.rawDeltas.any (·.id == x.ids.1) && t.rawDeltas.any (·.id == x.ids.2))) = true
  · rw [if_pos hskip, Option.none_or]
    simp only [Bool.and_eq_true, Bool.not_eq_true'] at hskip
    obtain ⟨⟨-, hdelta⟩, hunknown⟩ := hskip
    have hgone := hpiece.gone hfine.history hdelta hunknown
    exact hthen _ fun img _ => ⟨hdone, .inr hgone⟩
  rw [if_neg hskip]
  by_cases hreset : (!x.isKeyframe && t.decompressedId == 0) = true
  · rw [if_pos hreset, Option.none_or]
    simp only [Bool.and_eq_true, beq_iff_eq] at hreset
    -- a tile that is not decompressed has no image
    exact hthen _ fun img himg => absurd hreset.2 (hfine.shows img himg).1
  · rw [if_neg hreset, Option.some_or, Option.some_or]
    refine hthen _ fun img himg => ⟨hdone, .inl ?_⟩
    obtain rfl := Option.some.inj himg
    exact hdecodes

theorem lastBitmap_toList_append (bitmap : Option I) (key' : K) (bitmaps : List (K × I)) (key : K) :
    lastBitmap ((bitmap.map (key', ·)).toList ++ bitmaps) key =
      (lastBitmap bitmaps key).or (if key' = key then bitmap else none) := by
  cases bitmap with
  | none =>
    change lastBitmap bitmaps key = _
    split <;> exact (Option.or_none).symm
  | some bitmap => exact lastBitmap_cons (key', bitmap) bitmaps key

theorem allFine_workerDeltas {xs : List (PendingDelta K P I)} (h : AllFine d s shown)
    (hxs : ∀ x ∈ xs, ∀ t, s.tile x.key = some t → Answers d t.stored x ∧ (t.rawDeltas = [] → t.lastPendingId = 0)) :
    AllFine d (workerDeltas d s xs).1 fun k => (lastBitmap (workerDeltas d s xs).2 k).or (shown k) := by
  induction xs generalizing s shown with
  | nil => exact h
  | cons x xs ih =>
    obtain ⟨-, htile⟩ := workerDelta_spec (d := d) s x
    have hrest := ih (allFine_workerDelta h (hxs x List.mem_cons_self)) fun y hy u hu => by
      rw [htile] at hu
      obtain ⟨t, ht, rfl⟩ := Option.map_eq_some_iff.1 hu
      have hy := hxs y (List.mem_cons_of_mem _ hy) t ht
      split <;> exact hy
    have hshown : (fun k => (lastBitmap (workerDeltas d s (x :: xs)).2 k).or (shown k)) = fun k =>
        (lastBitmap (workerDeltas d (workerDelta d s x).1 xs).2 k).or
          ((if x.key = k then (workerDelta d s x).2 else none).or (shown k)) := by
      have hcons : (workerDeltas d s (x :: xs)).2 =
          ((workerDelta d s x).2.map (x.key, ·)).toList ++ (workerDeltas d (workerDelta d s x).1 xs).2 := rfl
      funext k
      rw [hcons, lastBitmap_toList_append, Option.or_assoc]
    rw [hshown]
    exact hrest

theorem keys_workerDeltas (s : TileManager K P I) (xs : List (PendingDelta K P I)) :
    ((workerDeltas d s xs).2.map Prod.fst).Sublist (xs.map (·.key)) := by
  induction xs generalizing s with
  | nil => exact List.Sublist.slnil
  | cons x xs ih =>
    have hcons : (workerDeltas d s (x :: xs)).2 =
        ((workerDelta d s x).2.map (x.key, ·)).toList ++ (workerDeltas d (workerDelta d s x).1 xs).2 := rfl
    rw [hcons, List.map_append, List.map_cons]
    cases (workerDelta d s x).2 with
    | none => exact (ih _).cons _
    | some bitmap => exact (ih _).cons_cons _

theorem allFine_answer (h : Newest d s) {i : Nat} {c : Collect K} {task : WorkerTask K P I}
    {deltas : List (PendingDelta K P I)} (htask : s.posted[i]? = some task) (hanswer : task.answer = some deltas)
    (hevict : (deltas.map (·.key)).Pairwise fun k k' => c.bitmap k ≠ some k')
    (hfree : ∀ key ∈ c.deltas, Collectable { s with posted := s.posted.eraseIdx i } key) :
    AllFine d (onWorkerEndTransaction d { s with posted := s.posted.eraseIdx i } c deltas) fun _ => none := by
  have hmem : task ∈ s.posted := List.mem_of_getElem? htask
  unfold onWorkerEndTransaction
  set s₁ : TileManager K P I :=
    { s with posted := s.posted.eraseIdx i, nPendingWorkerTasks := s.nPendingWorkerTasks - 1 } with hs₁
  have hfine : AllFine d s₁ fun _ => none := by
    intro key t ht
    refine (h.fine key t ht).congr (fun task htask => ?_) rfl rfl rfl
    exact List.mem_of_mem_eraseIdx htask
  have hdeltas := allFine_workerDeltas hfine fun x (hx : x ∈ deltas) t ht => by
    have ht := h.fine x.key t ht
    refine ⟨ht.answers task hmem deltas hanswer x hx rfl, fun hraw => ?_⟩
    refine (ht.empty hraw).resolve_right ?_
    rintro ⟨-, hout⟩
    -- the delta was outstanding until now
    have hkey : x.key ∈ task.deltas.map (·.key) := h.keys task hmem deltas hanswer ▸ List.mem_map_of_mem hx
    obtain ⟨y, hy, hyx⟩ := List.mem_map.1 hkey
    exact hout y (List.mem_append_left _ (List.mem_flatMap.2 ⟨task, hmem, hy⟩)) hyx
  obtain ⟨hkept, htile⟩ := workerDeltas_spec (d := d) s₁ deltas
  dsimp only
  split
  · rename_i hempty
    rw [hempty] at hdeltas
    exact hdeltas
  · refine allFine_endTransactionHandleBitmaps
      (by simpa only [Option.or_none] using hdeltas) ?_ fun key hkey t ht => ?_
    · exact List.pairwise_map.1 (hevict.sublist (keys_workerDeltas s₁ deltas))
    · rw [hkept.outstanding]
      rw [htile] at ht
      obtain ⟨u, hu, rfl⟩ := Option.map_eq_some_iff.1 ht
      exact hfree key hkey u hu

theorem posted_endTransactionHandleBitmaps (s : TileManager K P I) (c : Collect K) (bitmaps : List (K × I)) :
    (s.endTransactionHandleBitmaps c bitmaps).posted = s.posted ∧
      (s.endTransactionHandleBitmaps c bitmaps).bitmapPromises = s.bitmapPromises := by
  have hshown : Calms s (bitmaps.foldl (showBitmap c) s) := .foldl (calms_showBitmap c) bitmaps
  unfold endTransactionHandleBitmaps
  dsimp only
  rw [(calms_garbageCollect _ c).posted, (calms_garbageCollect _ c).bitmapPromises, ← hshown.posted,
    ← hshown.bitmapPromises]
  split <;> split <;> exact ⟨rfl, rfl⟩

/-- An answer comes. -/
theorem newest_answer (h : Newest d s) {i : Nat} {c : Collect K} {task : WorkerTask K P I}
    {deltas : List (PendingDelta K P I)} (htask : s.posted[i]? = some task) (hanswer : task.answer = some deltas)
    (hevict : (deltas.map (·.key)).Pairwise fun k k' => c.bitmap k ≠ some k')
    (hfree : ∀ key ∈ c.deltas, Collectable { s with posted := s.posted.eraseIdx i } key) :
    Newest d (onWorkerEndTransaction d { s with posted := s.posted.eraseIdx i } c deltas) := by
  have hfine := allFine_answer h htask hanswer hevict hfree
  have hsame : (onWorkerEndTransaction d { s with posted := s.posted.eraseIdx i } c deltas).posted =
    s.posted.eraseIdx i ∧
      (onWorkerEndTransaction d { s with posted := s.posted.eraseIdx i } c deltas).bitmapPromises =
        s.bitmapPromises := by
    unfold onWorkerEndTransaction
    dsimp only
    generalize hs₁ : { s with posted := s.posted.eraseIdx i, nPendingWorkerTasks := s.nPendingWorkerTasks - 1 } = s₁
    have hkept := (workerDeltas_spec (d := d) s₁ deltas).1
    have hposted : s₁.posted = s.posted.eraseIdx i ∧ s₁.bitmapPromises = s.bitmapPromises := hs₁ ▸ ⟨rfl, rfl⟩
    split
    · exact ⟨hkept.posted.trans hposted.1, hkept.bitmapPromises.trans hposted.2⟩
    · obtain ⟨hp, hb⟩ :=
        posted_endTransactionHandleBitmaps (workerDeltas d s₁ deltas).1 c (workerDeltas d s₁ deltas).2
      exact ⟨hp.trans (hkept.posted.trans hposted.1), hb.trans (hkept.bitmapPromises.trans hposted.2)⟩
  refine ⟨hfine, hsame.2.trans h.promises, fun task htask => ?_⟩
  rw [hsame.1] at htask
  exact h.keys task (List.mem_of_mem_eraseIdx htask)

/-! ### Rehydration -/

theorem Fine.pushed {key : K} {t : BrowserTile P I} {image : Option I} (h : Fine d s key t image)
    {x : PendingDelta K P I} (hx : Piece t.stored x) (hkey : x.key = key) (hraw : t.rawDeltas ≠ [])
    (hnext : x.isKeyframe = false → t.lastPendingId ≠ 0 ∧ x.ids.1 = t.lastPendingId + 1)
    (hposted : s'.posted = s.posted) (hpending : s'.pendingDeltas = s.pendingDeltas ++ [x])
    (himages : s'.workerImages = s.workerImages) (hworkers : s'.workers = s.workers) :
    Fine d s' key { t with lastPendingId := x.ids.2 } image where
  history := ⟨h.history.1, h.history.2, h.history.3⟩
  bound := h.bound
  chain := by
    obtain ⟨q, hknows, hchain⟩ := h.chain
    refine ⟨q, by rw [himages, hworkers]; exact hknows, ?_⟩
    rw [hpending, List.filter_append, List.filter_cons_of_pos (by simpa using hkey)]
    exact hchain.push hx hnext
  answers := by rw [hposted]; exact h.answers
  shows := h.shows
  empty := fun hnil => absurd hnil hraw

theorem Fine.others {key : K} {t : BrowserTile P I} {image : Option I} (h : Fine d s key t image)
    {x : PendingDelta K P I}
    (hkey : x.key ≠ key) (hposted : s'.posted = s.posted) (hpending : s'.pendingDeltas = s.pendingDeltas ++ [x])
    (himages : s'.workerImages = s.workerImages) (hworkers : s'.workers = s.workers) : Fine d s' key t image where
  history := h.history
  bound := h.bound
  chain := by
    rw [hpending, List.filter_append, List.filter_cons_of_neg (by simpa using hkey), List.filter_nil, List.append_nil,
      himages, hworkers]
    exact h.chain
  answers := by rw [hposted]; exact h.answers
  shows := h.shows
  empty := by
    intro hraw
    refine (h.empty hraw).imp_right fun ⟨hnone, hout⟩ => ⟨hnone, fun y hy => ?_⟩
    unfold outstanding at hy
    rw [hposted, hpending, ← List.append_assoc] at hy
    rcases List.mem_append.1 hy with hy | hy
    · exact hout y hy
    · rwa [List.mem_singleton.1 hy]

theorem allFine_rehydrateTile (h : AllFine d s fun _ => none) (key : K) (wireMessage : Bool) :
    AllFine d (s.rehydrateTile key wireMessage) fun _ => none := by
  unfold rehydrateTile
  cases ht : s.tile key with
  | none => exact h
  | some t =>
    dsimp only
    split
    case isFalse => exact h
    rename_i hneeds
    have hlt := firstDelta_lt hneeds
    have hfine := h key t ht
    obtain ⟨last, hlast, -⟩ := (Option.any_eq_true _ _).1 hneeds
    obtain ⟨-, hpiece⟩ := piece_rehydrate hfine.history key wireMessage hlt hlast
    have hraw : t.rawDeltas ≠ [] := List.ne_nil_of_length_pos (Nat.zero_lt_of_lt hlt)
    rw [List.drop_eq_getElem_cons hlt] at hpiece ⊢
    rw [hlast]
    dsimp only
    have hnext : t.rawDeltas[firstDelta t].isKeyframe = false →
        t.lastPendingId ≠ 0 ∧ t.rawDeltas[firstDelta t].id = t.lastPendingId + 1 := by
      intro hkey
      rcases firstDelta_spec hfine.history hlt with ⟨hkeyframe, -⟩ | ⟨-, hcontinues⟩
      · rw [hkey] at hkeyframe
        cases hkeyframe
      · exact hcontinues
    generalize hx : (⟨key, (t.rawDeltas[firstDelta t] :: t.rawDeltas.drop (firstDelta t + 1)).map (·.delta),
      t.rawDeltas[firstDelta t].isKeyframe, wireMessage, (t.rawDeltas[firstDelta t].id, last.id), none⟩ :
        PendingDelta K P I) = x at hpiece
    have hpush : ∀ s' : TileManager K P I, s'.posted = s.posted → s'.pendingDeltas = s.pendingDeltas ++ [x] →
        s'.workerImages = s.workerImages → s'.workers = s.workers →
        (∀ k, s'.tile k = if k = key then some { t with lastPendingId := last.id } else s.tile k) →
        AllFine d s' fun _ => none := by
      intro s' hposted hpending himages hworkers htile k u hu
      rw [htile] at hu
      split at hu
      · rename_i hk
        obtain rfl := Option.some.inj hu
        have hid : x.ids.2 = last.id := by rw [← hx]
        have hpushed :=
          hfine.pushed hpiece (by rw [← hx]) hraw (by rw [← hx]; exact hnext) hposted hpending himages hworkers
        rw [hid] at hpushed
        rw [hk]
        exact hpushed
      · rename_i hk
        exact (h k u hu).others (by rw [← hx]; exact Ne.symm hk) hposted hpending himages hworkers
    unfold applyCompressedDelta
    dsimp only
    rw [hx]
    split <;> exact hpush _ rfl rfl rfl rfl fun k => tile_setTile key k _

theorem promises_rehydrateTile (s : TileManager K P I) (key : K) (wireMessage : Bool) :
    (s.rehydrateTile key wireMessage).bitmapPromises = s.bitmapPromises ∧
      (s.rehydrateTile key wireMessage).posted = s.posted := by
  unfold rehydrateTile
  cases s.tile key with
  | none => exact ⟨rfl, rfl⟩
  | some t =>
    dsimp only
    split
    · split <;> split <;> exact ⟨rfl, rfl⟩
    · exact ⟨rfl, rfl⟩

/-! ### Tile messages -/

/-- Nothing is under way for the key. -/
def Unused (s : TileManager K P I) (key : K) : Prop := s.tile key = none → ∀ x ∈ s.outstanding, x.key ≠ key

theorem newest_createTile (h : Newest d s) {key : K} (hunused : Unused s key) (distance : Nat) :
    Newest d (s.createTile key distance) := by
  unfold createTile
  split
  · exact h
  rename_i hnone
  have hnone : s.tile key = none := by simpa using hnone
  have hunused := hunused hnone
  have hnew : Fine d s key { distanceFromView := distance } none := ?_
  · exact ⟨h.fine.setTile hnew fun _ _ => rfl, h.promises, h.keys⟩
  refine ⟨⟨rfl, fun i hi => absurd hi (Nat.not_lt_zero i), 0, rfl, nofun⟩, Nat.zero_le _, ⟨none, nofun, ?_⟩,
    ?_, nofun, fun _ => .inl rfl⟩
  · have hempty : (s.pendingDeltas.filter fun (x : PendingDelta K P I) => x.key = key) = [] := by
      rw [List.filter_eq_nil_iff]
      intro x hx
      simpa using hunused x (List.mem_append_right _ hx)
    rw [hempty]
    exact fun hne => absurd rfl hne
  · intro task htask ys hys y hy hkey
    have hmem : y.key ∈ task.deltas.map (·.key) := h.keys task htask ys hys ▸ List.mem_map_of_mem hy
    obtain ⟨x, hx, hxy⟩ := List.mem_map.1 hmem
    exact absurd (hxy.trans hkey) (hunused x (List.mem_append_left _ (List.mem_flatMap.2 ⟨task, htask, hx⟩)))

theorem newest_rehydrateTile (h : Newest d s) (key : K) (wireMessage : Bool) :
    Newest d (s.rehydrateTile key wireMessage) := by
  obtain ⟨hpromises, hposted⟩ := promises_rehydrateTile s key wireMessage
  exact ⟨allFine_rehydrateTile h.fine key wireMessage, hpromises.trans h.promises, by rw [hposted]; exact h.keys⟩

theorem newest_onTileMsg (h : Newest d s) {key : K} (hunused : Unused s key) (distance : Nat)
    (img : Option (TileImage P)) : Newest d (s.onTileMsg key distance img) := by
  unfold onTileMsg
  dsimp only
  have hcreated := newest_createTile h hunused distance
  cases ht : (s.createTile key distance).tile key with
  | none => exact hcreated
  | some t =>
    have himage : (storeRawDelta t img).image = t.image := by
      unfold storeRawDelta
      cases img with
      | none => rfl
      | some img =>
        dsimp only
        split <;> rfl
    have hfine : AllFine d ((s.createTile key distance).setTile key (storeRawDelta t img)) fun _ => none := by
      refine hcreated.fine.setTile ?_ fun _ _ => rfl
      rw [himage]
      exact (hcreated.fine key t ht).stores img
    have hstored : Newest d ((s.createTile key distance).setTile key (storeRawDelta t img)) :=
      ⟨hfine, hcreated.promises, hcreated.keys⟩
    dsimp only
    split
    · exact newest_rehydrateTile hstored key true
    · exact hstored

theorem newest_makeTileCurrent (h : Newest d s) (key : K) : Newest d (s.makeTileCurrent key) := by
  unfold makeTileCurrent
  cases ht : s.tile key with
  | none => exact h
  | some t =>
    refine newest_rehydrateTile ⟨h.fine.setTile ?_ fun _ _ => rfl, h.promises, h.keys⟩ key false
    exact (h.fine key t ht).of_eq rfl rfl rfl rfl rfl

theorem newest_updateAllTileDistances (h : Newest d s) (distance : K → Nat) :
    Newest d (s.updateAllTileDistances distance) := by
  refine ⟨fun key u hu => ?_, h.promises, h.keys⟩
  rw [tile_updateAllTileDistances] at hu
  obtain ⟨t, ht, rfl⟩ := Option.map_eq_some_iff.1 hu
  have hfine : Fine d s key { t with distanceFromView := distance key } t.image :=
    (h.fine key t ht).of_eq rfl rfl rfl rfl rfl
  exact hfine.same (calms_updateAllTileDistances s distance).toSameTasks

theorem Newest.calms (h : Newest d s) (hcalms : Calms s s') (hfine : AllFine d s' fun _ => none) : Newest d s' :=
  ⟨hfine, hcalms.bitmapPromises.trans h.promises, by rw [hcalms.posted]; exact h.keys⟩

/-! ### The end of a transaction -/

/-- What becomes of one tile when its deltas are posted: `worker` has its image. -/
theorem post_tile {stored : List (RawDelta P)} {key : K} {p : Nat} {ws : List Nat} (hws : ws.Nodup)
    {t : TileManager K P I}
    (hanswers : ∀ task ∈ t.posted, ∀ ys, task.answer = some ys → ∀ y ∈ ys, y.key = key → Answers d stored y)
    (hchain : ∃ q, Knows d stored (t.workerImages (d.bucket key % s.workers) key) q ∧
      Chain stored q (if d.bucket key % s.workers ∈ ws then
        s.pendingDeltas.filter fun (x : PendingDelta K P I) => x.key = key else []) p) :
    let t' := ws.foldl (fun (t : TileManager K P I) worker =>
      if s.bucketOf d worker = [] then t else t.postMessage d worker (s.bucketOf d worker)) t
    (∀ task ∈ t'.posted, ∀ ys, task.answer = some ys → ∀ y ∈ ys, y.key = key → Answers d stored y) ∧
      ∃ q, Knows d stored (t'.workerImages (d.bucket key % s.workers) key) q ∧
        Chain stored q ([] : List (PendingDelta K P I)) p := by
  induction ws generalizing t with
  | nil =>
    rw [if_neg List.not_mem_nil] at hchain
    exact ⟨hanswers, hchain⟩
  | cons w ws ih =>
    obtain ⟨hw, hws⟩ := List.nodup_cons.1 hws
    have hbucket := filter_bucketOf (d := d) (s := s) w key
    rw [List.foldl_cons]
    by_cases hempty : s.bucketOf d w = []
    · rw [if_pos hempty]
      refine ih hws hanswers ?_
      obtain ⟨q, hknows, hchain⟩ := hchain
      refine ⟨q, hknows, ?_⟩
      by_cases hmine : w = d.bucket key % s.workers
      · rw [hempty, if_pos hmine, List.filter_nil] at hbucket
        rw [← hbucket, ite_self] at hchain
        rwa [← hbucket, ite_self]
      · simpa only [List.mem_cons, Ne.symm hmine, false_or] using hchain
    · rw [if_neg hempty]
      have hposted : ∀ q p', Knows d stored (t.workerImages w key) q →
          Chain stored q ((s.bucketOf d w).filter fun (x : PendingDelta K P I) => x.key = key) p' →
          (∀ task ∈ (t.postMessage d w (s.bucketOf d w)).posted, ∀ ys, task.answer = some ys → ∀ y ∈ ys, y.key = key →
            Answers d stored y) ∧
          ∃ q', Knows d stored ((t.postMessage d w (s.bucketOf d w)).workerImages w key) q' ∧
            Chain stored q' ([] : List (PendingDelta K P I)) p' := by
        intro q p' hknows hchain
        have hpurged := hknows.purged (t.tileImageCache (.key key)).isSome
        unfold postMessage
        dsimp only
        rw [Function.update_self]
        cases hwork : work d (fun key => if (t.tileImageCache (.key key)).isSome then t.workerImages w key else none)
            (s.bucketOf d w) with
        | none =>
          refine ⟨fun task htask ys hys => ?_, chain_thrown hpurged hchain⟩
          rcases List.mem_append.1 htask with htask | htask
          · exact hanswers task htask ys hys
          · rw [List.mem_singleton.1 htask] at hys
            cases hys
        | some r =>
          obtain ⟨hq, hys⟩ := work_chain hpurged hchain hwork
          refine ⟨fun task htask ys hanswer => ?_, hq⟩
          rcases List.mem_append.1 htask with htask | htask
          · exact hanswers task htask ys hanswer
          · rw [List.mem_singleton.1 htask] at hanswer
            obtain rfl := Option.some.inj hanswer
            exact hys
      by_cases hmine : w = d.bucket key % s.workers
      · obtain ⟨q, hknows, hchain⟩ := hchain
        rw [if_pos (hmine ▸ List.mem_cons_self)] at hchain
        rw [if_pos hmine] at hbucket
        rw [← hmine] at hknows
        obtain ⟨hanswers, hq⟩ := hposted q p hknows (by rwa [hbucket])
        refine ih hws hanswers ?_
        rw [if_neg (hmine ▸ hw), ← hmine]
        exact hq
      · rw [if_neg hmine] at hbucket
        obtain ⟨hanswers, -⟩ := hposted none 0 nofun (by rw [hbucket]; exact fun hne => absurd rfl hne)
        refine ih hws hanswers ?_
        obtain ⟨q, hknows, hchain⟩ := hchain
        refine ⟨q, ?_, ?_⟩
        · unfold postMessage
          dsimp only
          rwa [Function.update_of_ne (Ne.symm hmine)]
        · simpa only [List.mem_cons, Ne.symm hmine, false_or] using hchain

/-- Only the tiles, the tasks and the images of the workers play a part. -/
theorem Newest.congr (h : Newest d s) (htiles : s'.tiles = s.tiles) (hposted : s'.posted = s.posted)
    (hpending : s'.pendingDeltas = s.pendingDeltas) (himages : s'.workerImages = s.workerImages)
    (hworkers : s'.workers = s.workers) (hpromises : s'.bitmapPromises = s.bitmapPromises) : Newest d s' := by
  refine ⟨fun key t ht => ?_, hpromises.trans h.promises, by rw [hposted]; exact h.keys⟩
  unfold tile at ht
  rw [htiles] at ht
  exact (h.fine key t ht).congr (fun task htask => hposted ▸ htask) hpending himages hworkers

/-- The deltas go to the workers. -/
theorem newest_post (h : Newest d s) (hworkers : s.workers ≠ 0) : Newest d (s.decompressPendingDeltas d) := by
  unfold decompressPendingDeltas
  rw [if_pos hworkers]
  have hposts : ∀ key t, s.tile key = some t → _ := fun key t ht =>
    post_tile (d := d) (s := s) (p := t.lastPendingId) (t := s) (List.nodup_range (n := s.workers))
      (h.fine key t ht).answers (by
        rw [if_pos (List.mem_range.2 (Nat.mod_lt _ (Nat.pos_of_ne_zero hworkers)))]
        exact (h.fine key t ht).chain)
  obtain ⟨new, h₁, h₂, -, h₄, -, h₆, -, -, h₉, h₁₀, -, -, h₁₃⟩ := post_spec (d := d) (s := s) (List.range s.workers) s
  dsimp only at hposts
  generalize (List.range s.workers).foldl _ _ = t' at h₁ h₄ h₆ h₉ h₁₀ h₁₃ hposts
  have hout : ∀ x ∈ outstanding { t' with pendingDeltas := [] }, x ∈ s.outstanding := by
    intro x hx
    unfold outstanding at hx
    dsimp only at hx
    rw [List.append_nil, h₁, List.flatMap_append, h₂, List.mem_append] at hx
    exact List.mem_append.2 (hx.imp_right (mem_buckets hworkers x).1)
  refine ⟨fun key t ht => ?_, h₁₀.trans h.promises, fun task htask ys hys => ?_⟩
  · have ht : t'.tile key = some t := ht
    unfold tile at ht
    rw [h₁₃] at ht
    obtain ⟨hanswers, q, hknows, hchain⟩ := hposts key t ht
    have hfine := h.fine key t ht
    refine ⟨hfine.history, hfine.bound, ⟨q, ?_, hchain⟩, hanswers, hfine.shows, fun hraw => ?_⟩
    · rw [← h₉] at hknows
      exact hknows
    · exact (hfine.empty hraw).imp_right fun ⟨hnone, hold⟩ => ⟨hnone, fun x hx => hold x (hout x hx)⟩
  · have htask : task ∈ t'.posted := htask
    rw [h₁, List.mem_append] at htask
    rcases htask with htask | htask
    · exact h.keys task htask ys hys
    · have hsame := congrArg (List.map Prod.fst) (h₄ task htask ys hys)
      simpa only [List.map_map, Function.comp_def] using hsame

theorem newest_endTransaction (h : Newest d s) (callback : Option Nat)
    (hworkers : s.inTransaction = 1 → s.pendingDeltas ≠ [] → s.workers ≠ 0) :
      Newest d (s.endTransaction d callback) := by
  have hsame : ∀ passed transaction callbacks called, Newest d { s with
      passed := passed, inTransaction := transaction, transactionCallbacks := callbacks, called := called } :=
    fun _ _ _ _ => h.congr rfl rfl rfl rfl rfl rfl
  unfold endTransaction
  dsimp only
  by_cases hopen : s.inTransaction = 0
  · rw [if_pos hopen]
    exact hsame _ _ _ _
  rw [if_neg hopen]
  by_cases hnested : s.inTransaction - 1 ≠ 0
  · rw [if_pos hnested]
    exact hsame _ _ _ _
  rw [if_neg hnested]
  by_cases hpending : s.pendingDeltas = []
  · rw [if_pos hpending]
    cases callback <;> exact hsame _ _ _ _
  · rw [if_neg hpending]
    exact newest_post (hsame _ _ _ _) (hworkers (by omega) hpending)

/-! ### Runs -/

theorem newest_init (h : IsInit s) : Newest d s := by
  rw [h]
  refine ⟨fun key t ht => ?_, rfl, fun task htask => nomatch htask⟩
  cases ht

theorem newest_onWorkerError (h : Newest d s) : Newest d s.onWorkerError := by
  obtain ⟨hcalms, hnone⟩ := onWorkerError_spec s
  refine ⟨fun key t ht => ?_, hcalms.bitmapPromises.trans h.promises, ?_⟩
  · rw [hnone] at ht
    cases ht
  · rw [hcalms.posted]
    exact fun task htask => nomatch htask

/-- A key is used again only when nothing is under way for it; deltas are decompressed by workers; what is collected
has a bitmap or nothing under way; and no tile loses its bitmap for another one when its own comes in the same
answer. -/
def Kept (s : TileManager K P I) : Event K P → Prop
  | .tileMsg key _ _ => Unused s key
  | .createTile key _ => Unused s key
  | .endTransaction _ => s.inTransaction = 1 → s.pendingDeltas ≠ [] → s.workers ≠ 0
  | .garbageCollect c => ∀ key ∈ c.deltas, Collectable s key
  | .answer i c =>
    ((((s.posted[i]?).bind (·.answer)).getD []).map (·.key)).Pairwise (fun k k' => c.bitmap k ≠ some k') ∧
      ∀ key ∈ c.deltas, Collectable { s with posted := s.posted.eraseIdx i } key
  | _ => True

theorem newest_step {e : Event K P} (h : Newest d s) (hok : Kept s e) (hstep : step d s e = some s') :
    Newest d s' := by
  cases e with
  | beginTransaction =>
    obtain rfl := Option.some.inj hstep
    exact h.congr rfl rfl rfl rfl rfl rfl
  | endTransaction callback =>
    obtain rfl := Option.some.inj hstep
    exact newest_endTransaction h callback hok
  | tileMsg key distance img =>
    obtain rfl := Option.some.inj hstep
    exact newest_onTileMsg h hok distance img
  | rehydrateTile key =>
    obtain rfl := Option.some.inj hstep
    exact newest_rehydrateTile h key false
  | makeTileCurrent key =>
    obtain rfl := Option.some.inj hstep
    exact newest_makeTileCurrent h key
  | updateAllTileDistances distance =>
    obtain rfl := Option.some.inj hstep
    exact newest_updateAllTileDistances h distance
  | createTile key distance =>
    obtain rfl := Option.some.inj hstep
    exact newest_createTile h hok distance
  | removeTile key =>
    obtain rfl := Option.some.inj hstep
    exact h.calms (calms_removeTile s key) (allFine_removeTile h.fine key)
  | reclaimTileBitmapMemory key =>
    obtain rfl := Option.some.inj hstep
    exact h.calms (calms_reclaim s key) (allFine_reclaim h.fine rfl)
  | garbageCollect c =>
    obtain rfl := Option.some.inj hstep
    exact h.calms (calms_garbageCollect s c) (allFine_garbageCollect h.fine hok)
  | answer i c =>
    simp only [step, Option.bind_eq_bind, Option.bind_eq_some_iff] at hstep
    obtain ⟨task, htask, deltas, hanswer, hs'⟩ := hstep
    obtain rfl := Option.some.inj hs'
    obtain ⟨hevict, hfree⟩ := hok
    rw [htask, Option.bind_some, hanswer] at hevict
    exact newest_answer h htask hanswer hevict hfree
  | resolve i c =>
    simp only [step, Option.bind_eq_bind, Option.bind_eq_some_iff] at hstep
    obtain ⟨bitmaps, hbitmaps, -⟩ := hstep
    rw [h.promises] at hbitmaps
    cases hbitmaps
  | workerError =>
    obtain ⟨-, hs'⟩ := Option.ite_none_right_eq_some.1 hstep
    obtain rfl := Option.some.inj hs'
    exact newest_onWorkerError h

theorem showsNewest_of_kept (h : Run.Reachable IsInit (step d) Kept s) : ShowsNewest d s :=
  (h.invariant (Newest d) (fun _ hinit => newest_init hinit) fun _ _ _ _ hnewest hok hstep =>
    newest_step hnewest hok hstep).showsNewest

/-! ### A tile that is created again -/

/-- The answers for a tile come in the order of its tasks. -/
def Orderly (s : TileManager K P I) : Event K P → Prop
  | .answer i _ => InOrder s i
  | _ => True

def otherKeyframe : TileImage Nat := ⟨8, false, true⟩

/-- The tile is removed while it is decompressed, and created again: the answer for the old one is drawn. -/
theorem exists_not_showsNewest : ∃ s : TileManager Nat Nat (List Nat),
    Run.Reachable IsInit (step lists) Orderly s ∧ ¬ ShowsNewest lists s := by
  have hinit : IsInit ({ workers := 4 } : TileManager Nat Nat (List Nat)) := rfl
  let s₀ : TileManager Nat Nat (List Nat) := { workers := 4 }
  let s₁ := (s₀.beginTransaction.onTileMsg 0 0 (some keyframe)).endTransaction lists none
  let s₂ := ((s₁.removeTile 0).beginTransaction.onTileMsg 0 0 (some otherKeyframe)).endTransaction lists none
  let x : PendingDelta Nat Nat (List Nat) := ⟨0, [7], true, true, (1, 1), some [7]⟩
  let s₃ := onWorkerEndTransaction lists { s₂ with posted := s₂.posted.eraseIdx 0 } .nothing [x]
  have h₁ : Run.Reachable IsInit (step lists) Orderly s₁ := by
    refine .next (e := .endTransaction none) ?_ trivial rfl
    refine .next (s := s₀.beginTransaction) (e := .tileMsg 0 0 (some keyframe)) ?_ trivial rfl
    exact .next (e := .beginTransaction) (.start hinit) trivial rfl
  have h₂ : Run.Reachable IsInit (step lists) Orderly s₂ := by
    refine .next (e := .endTransaction none) ?_ trivial rfl
    refine .next (s := (s₁.removeTile 0).beginTransaction) (e := .tileMsg 0 0 (some otherKeyframe)) ?_ trivial rfl
    refine .next (e := .beginTransaction) ?_ trivial rfl
    exact .next (e := .removeTile 0) h₁ trivial rfl
  have hanswer : (s₂.posted[0]?.bind (·.answer)) = some [x] := by decide +kernel
  have h₃ : Run.Reachable IsInit (step lists) Orderly s₃ := by
    refine .next (e := .answer 0 .nothing) h₂ (fun _ _ _ hz => nomatch hz) ?_
    obtain ⟨task, htask, hanswer⟩ := Option.bind_eq_some_iff.1 hanswer
    simp only [step, htask, Option.bind_eq_bind, Option.bind_some, hanswer]
    rfl
  refine ⟨s₃, h₃, fun hshows => ?_⟩
  have htile : s₃.tile 0 = some { image := some [7], rawDeltas := [⟨8, 1, true⟩], deltaId := 1, lastPendingId := 1,
                                  decompressedId := 1, stored := [⟨8, 1, true⟩] } := by decide +kernel
  have himage := hshows 0 _ _ htile rfl rfl rfl
  exact absurd himage (by decide +kernel)

/-- A tile that is removed when its answer has come, and created again. -/
theorem showsNewest_created_again : ∃ s : TileManager Nat Nat (List Nat), ShowsNewest lists s ∧
    (s.tile 0).bind (·.image) = some [8] := by
  have hinit : IsInit ({ workers := 4 } : TileManager Nat Nat (List Nat)) := rfl
  let s₀ : TileManager Nat Nat (List Nat) := { workers := 4 }
  let s₁ := (s₀.beginTransaction.onTileMsg 0 0 (some keyframe)).endTransaction lists none
  let x : PendingDelta Nat Nat (List Nat) := ⟨0, [7], true, true, (1, 1), some [7]⟩
  let s₂ := onWorkerEndTransaction lists { s₁ with posted := s₁.posted.eraseIdx 0 } .nothing [x]
  let s₃ := ((s₂.removeTile 0).beginTransaction.onTileMsg 0 0 (some otherKeyframe)).endTransaction lists none
  let y : PendingDelta Nat Nat (List Nat) := ⟨0, [8], true, true, (1, 1), some [8]⟩
  let s₄ := onWorkerEndTransaction lists { s₃ with posted := s₃.posted.eraseIdx 0 } .nothing [y]
  have hanswers : ∀ (s : TileManager Nat Nat (List Nat)) (z : PendingDelta Nat Nat (List Nat)),
      s.posted[0]?.bind (·.answer) = some [z] → Run.Reachable IsInit (step lists) Kept s →
      Run.Reachable IsInit (step lists) Kept
        (onWorkerEndTransaction lists { s with posted := s.posted.eraseIdx 0 } .nothing [z]) := by
    intro s z hanswer h
    refine .next (e := .answer 0 .nothing) h ⟨?_, fun key hkey => absurd hkey List.not_mem_nil⟩ ?_
    · rw [hanswer]
      exact List.pairwise_singleton _ _
    · obtain ⟨task, htask, hanswer⟩ := Option.bind_eq_some_iff.1 hanswer
      simp only [step, htask, Option.bind_eq_bind, Option.bind_some, hanswer]
  have h₁ : Run.Reachable IsInit (step lists) Kept s₁ := by
    refine .next (e := .endTransaction none) ?_ (fun _ _ => by decide +kernel) rfl
    refine .next (s := s₀.beginTransaction) (e := .tileMsg 0 0 (some keyframe)) ?_
      (fun _ z hz => absurd hz List.not_mem_nil) rfl
    exact .next (e := .beginTransaction) (.start hinit) trivial rfl
  have h₂ : Run.Reachable IsInit (step lists) Kept s₂ := hanswers s₁ x (by decide +kernel) h₁
  have h₃ : Run.Reachable IsInit (step lists) Kept s₃ := by
    refine .next (e := .endTransaction none) ?_ (fun _ _ => by decide +kernel) rfl
    have hnone : (s₂.removeTile 0).beginTransaction.outstanding = [] := by decide +kernel
    refine .next (s := (s₂.removeTile 0).beginTransaction) (e := .tileMsg 0 0 (some otherKeyframe)) ?_
      (fun _ z hz => absurd (hnone ▸ hz) List.not_mem_nil) rfl
    refine .next (e := .beginTransaction) ?_ trivial rfl
    exact .next (e := .removeTile 0) h₂ trivial rfl
  have h₄ : Run.Reachable IsInit (step lists) Kept s₄ := hanswers s₃ y (by decide +kernel) h₃
  exact ⟨s₄, showsNewest_of_kept h₄, by decide +kernel⟩

end Manager

end TileManager

end CollaboraOnline
