import CollaboraOnline.Kit.Callbacks

/-!
# Invalidations that are merged

The area that the queued invalidations of a view, a part and a mode cover, in exact integers.  Merging keeps all of it
as long as the loop computes no `int` that overflows (`putCallback_covers`).
-/

namespace CollaboraOnline

open COOLProtocol

/-! ### Numbers in a payload -/

namespace COOLProtocol

theorem ne_nil_of_mem_tokensFrom {token p t : List Char} (ht : t ∈ tokensFrom token p) : t ≠ [] := by
  have hhere : ∀ token : List Char, t ∈ (if token = [] then [] else [token]) → t ≠ [] := by
    intro token ht
    split at ht
    · cases ht
    · rename_i hne
      rw [List.mem_singleton.1 ht]
      exact hne
  induction p generalizing token with
  | nil =>
    rw [tokensFrom] at ht
    exact hhere token ht
  | cons c p ih =>
    rw [tokensFrom] at ht
    split at ht
    · exact hhere token ht
    · split at ht
      · rcases List.mem_append.1 ht with ht | ht
        · exact hhere token ht
        · exact ih ht
      · exact ih ht

theorem ne_nil_of_mem_tokenize {data t : List Char} (ht : t ∈ tokenize data) : t ≠ [] := by
  unfold tokenize at ht
  split at ht
  · cases ht
  · exact ne_nil_of_mem_tokensFrom ht

/-- A number ends at the comma behind it. -/
theorem strtol_comma {n : Int} (hlow : -(2 ^ 63 : Int) ≤ n) (hhigh : n ≤ 2 ^ 63 - 1) :
    strtol (toString n ++ [',']) = some n := by
  obtain ⟨hne, hdigits, hvalue⟩ := digits_spec n.natAbs
  obtain ⟨c, rest, hcons⟩ := List.exists_cons_of_ne_nil hne
  have htake : (digits n.natAbs ++ [',']).takeWhile Char.isDigit = digits n.natAbs := by
    rw [List.takeWhile_append_of_pos hdigits, List.takeWhile_cons_of_neg (by decide), List.append_nil]
  obtain ⟨hspace, hminus, hplus, -⟩ := digit_ne (hdigits c (by rw [hcons]; exact List.mem_cons_self))
  unfold strtol toString
  by_cases hneg : n < 0
  · have hsign : sign ('-' :: (digits n.natAbs ++ [','])) = (true, digits n.natAbs ++ [',']) := rfl
    rw [if_pos hneg, List.singleton_append, List.cons_append, List.dropWhile_cons_of_neg (by decide), hsign]
    dsimp only
    rw [htake, if_neg hne, hvalue, if_pos rfl]
    congr 1
    omega
  · have hdrop : (digits n.natAbs ++ [',']).dropWhile isspace = digits n.natAbs ++ [','] := by
      rw [hcons, List.cons_append, List.dropWhile_cons_of_neg (by simp [hspace])]
    have hsign : sign (digits n.natAbs ++ [',']) = (false, digits n.natAbs ++ [',']) := by
      rw [hcons, List.cons_append, sign, if_neg hminus, if_neg hplus]
    rw [if_neg hneg, List.nil_append, hdrop, hsign]
    dsimp only
    rw [htake, if_neg hne, hvalue, if_neg Bool.false_ne_true]
    congr 1
    omega

theorem head_toString (n : Int) (q : List Char) : ∀ c ∈ (toString n ++ q).head?, c ≠ '\x00' := by
  obtain ⟨hne, hdigits, -⟩ := digits_spec n.natAbs
  obtain ⟨d, rest, hcons⟩ := List.exists_cons_of_ne_nil hne
  have hd : d ≠ '\x00' := by
    rintro rfl
    exact absurd (hdigits '\x00' (by rw [hcons]; exact List.mem_cons_self)) (by decide)
  unfold toString
  split
  · intro c hc
    obtain rfl : '-' = c := Option.some.inj hc
    decide
  · rw [hcons]
    intro c hc
    obtain rfl : d = c := Option.some.inj hc
    exact hd

end COOLProtocol

theorem wrapInt_of_int {n : Int} (hlow : -intMax - 1 ≤ n) (hhigh : n ≤ intMax) : wrapInt n = n := by
  unfold intMax at hlow hhigh
  unfold wrapInt
  rw [Int.bmod_eq_of_le] <;> omega

namespace TileArea

variable {msg msg' queued r : TileArea} {px py : Int} {tokens : List (List Char)} {view : Int}
  {callbacks : List Callback}

theorem atoi_comma {n : Int} (hlow : -intMax - 1 ≤ n) (hhigh : n ≤ intMax) :
    atoi (COOLProtocol.toString n ++ [',']) = n := by
  have hwrap := wrapInt_of_int hlow hhigh
  unfold intMax at hlow hhigh
  unfold atoi
  rw [strtol_comma (by omega) (by omega), Option.map_some, Option.getD_some, hwrap]

theorem atoi_bounds (s : List Char) : -intMax - 1 ≤ atoi s ∧ atoi s ≤ intMax := by
  unfold atoi
  cases strtol s with
  | none => decide
  | some n => exact wrapInt_bounds n

/-! ### Areas -/

/-- The points of an area, in exact integers. -/
def Contains (r : TileArea) (px py : Int) : Prop := r.x ≤ px ∧ px < r.x + r.w ∧ r.y ≤ py ∧ py < r.y + r.h

/-- The numbers of an area fit an `int`. -/
structure IsInt (r : TileArea) : Prop where
  x : -intMax - 1 ≤ r.x ∧ r.x ≤ intMax
  y : -intMax - 1 ≤ r.y ∧ r.y ≤ intMax
  w : -intMax - 1 ≤ r.w ∧ r.w ≤ intMax
  h : -intMax - 1 ≤ r.h ∧ r.h ≤ intMax

/-- The sums that are the ends of an area do not overflow. -/
structure EndsFit (r : TileArea) : Prop where
  right : -intMax - 1 ≤ r.x + r.w ∧ r.x + r.w ≤ intMax
  bottom : -intMax - 1 ≤ r.y + r.h ∧ r.y + r.h ≤ intMax

/-- The differences that are the extents of the joined area do not overflow. -/
structure JoinFits (msg queued : TileArea) : Prop where
  w : max (msg.x + msg.w) (queued.x + queued.w) - min msg.x queued.x ≤ intMax
  h : max (msg.y + msg.h) (queued.y + queued.h) - min msg.y queued.y ≤ intMax

instance (r : TileArea) : Decidable r.EndsFit :=
  decidable_of_iff ((-intMax - 1 ≤ r.x + r.w ∧ r.x + r.w ≤ intMax) ∧ -intMax - 1 ≤ r.y + r.h ∧ r.y + r.h ≤ intMax)
    ⟨fun h => ⟨h.1, h.2⟩, fun h => ⟨h.right, h.bottom⟩⟩

instance (msg queued : TileArea) : Decidable (msg.JoinFits queued) :=
  decidable_of_iff (max (msg.x + msg.w) (queued.x + queued.w) - min msg.x queued.x ≤ intMax ∧
    max (msg.y + msg.h) (queued.y + queued.h) - min msg.y queued.y ≤ intMax)
      ⟨fun h => ⟨h.1, h.2⟩, fun h => ⟨h.w, h.h⟩⟩

theorem EndsFit.right_eq (h : r.EndsFit) : r.right = r.x + r.w := wrapInt_of_int h.right.1 h.right.2

theorem EndsFit.bottom_eq (h : r.EndsFit) : r.bottom = r.y + r.h := wrapInt_of_int h.bottom.1 h.bottom.2

theorem extractRectangle_isInt (h : extractRectangle tokens = some r) : r.IsInt := by
  have hzero : -intMax - 1 ≤ 0 ∧ (0 : Int) ≤ intMax := by decide
  have hmax : -intMax - 1 ≤ intMax ∧ intMax ≤ intMax := by decide
  unfold extractRectangle at h
  split at h
  · split at h
    · cases h
      exact ⟨hzero, hzero, hmax, hmax⟩
    · split at h
      · cases h
        exact ⟨atoi_bounds _, atoi_bounds _, atoi_bounds _, atoi_bounds _⟩
      · cases h
  · cases h

/-- What counts as covered lies in the message. -/
theorem contains_of_covers (hmsg : msg.EndsFit) (hqueued : queued.EndsFit) (h : msg.covers queued = true)
    (hp : queued.Contains px py) : msg.Contains px py := by
  simp only [covers, Bool.and_eq_true, decide_eq_true_eq, hmsg.right_eq, hqueued.right_eq, hmsg.bottom_eq,
    hqueued.bottom_eq] at h
  unfold Contains at hp ⊢
  omega

/-- The numbers of a joined area are exact. -/
theorem join_exact (hmsg : msg.EndsFit) (hqueued : queued.EndsFit) (hfits : msg.JoinFits queued)
    (h : rectanglesIntersect msg queued = true) :
    (msg.join queued).w = max (msg.x + msg.w) (queued.x + queued.w) - min msg.x queued.x ∧
      (msg.join queued).h = max (msg.y + msg.h) (queued.y + queued.h) - min msg.y queued.y := by
  simp only [rectanglesIntersect, Bool.and_eq_true, decide_eq_true_eq, hmsg.right_eq, hqueued.right_eq,
    hmsg.bottom_eq, hqueued.bottom_eq] at h
  obtain ⟨hw, hh⟩ := hfits
  unfold join
  rw [hmsg.right_eq, hqueued.right_eq, hmsg.bottom_eq, hqueued.bottom_eq]
  unfold intMax at *
  exact ⟨wrapInt_of_int (by unfold intMax; omega) hw, wrapInt_of_int (by unfold intMax; omega) hh⟩

theorem join_isInt (hmsg : msg.IsInt) (hqueued : queued.IsInt) : (msg.join queued).IsInt := by
  have hx := hmsg.x
  have hy := hmsg.y
  have hx' := hqueued.x
  have hy' := hqueued.y
  refine ⟨?_, ?_, wrapInt_bounds _, wrapInt_bounds _⟩
  · change -intMax - 1 ≤ min msg.x queued.x ∧ min msg.x queued.x ≤ intMax
    omega
  · change -intMax - 1 ≤ min msg.y queued.y ∧ min msg.y queued.y ≤ intMax
    omega

/-- A joined area holds both. -/
theorem contains_join (hmsg : msg.EndsFit) (hqueued : queued.EndsFit) (hfits : msg.JoinFits queued)
    (h : rectanglesIntersect msg queued = true) (hp : msg.Contains px py ∨ queued.Contains px py) :
    (msg.join queued).Contains px py := by
  obtain ⟨hw, hh⟩ := join_exact hmsg hqueued hfits h
  unfold Contains at hp ⊢
  rw [hw, hh]
  change min msg.x queued.x ≤ px ∧ _ ∧ min msg.y queued.y ≤ py ∧ _
  change _ ∧ px < min msg.x queued.x + _ ∧ _ ∧ py < min msg.y queued.y + _
  omega

/-! ### The loop -/

/-- No `int` that the loop computes overflows. -/
def noOverflow (view : Int) : TileArea → List Callback → Bool
  | _, [] => true
  | msg, it :: callbacks =>
    match queuedArea view msg it with
    | none => noOverflow view msg callbacks
    | some queued =>
      decide msg.EndsFit && decide queued.EndsFit &&
        (msg.covers queued || !rectanglesIntersect msg queued || decide (msg.JoinFits queued)) &&
          match round msg queued with
          | .joined msg => noOverflow view msg callbacks
          | _ => noOverflow view msg callbacks

theorem round_covered (h : round msg queued = .covered) : msg.covers queued = true := by
  unfold round at h
  split at h
  · assumption
  · split at h
    · split at h <;> cases h
    · cases h

theorem round_joined (h : round msg queued = .joined msg') : msg.covers queued = false ∧
    rectanglesIntersect msg queued = true ∧ msg' = msg.join queued ∧ (msg.join queued).w ≤ reasonableSizeX := by
  unfold round at h
  split at h
  · cases h
  · rename_i hcovers
    split at h
    · rename_i hintersect
      split at h
      · cases h
      · rename_i hsize
        cases h
        exact ⟨by simpa using hcovers, hintersect, rfl, by omega⟩
    · cases h

theorem queuedArea_spec {it : Callback} (h : queuedArea view msg it = some queued) :
    it.type = .LOK_CALLBACK_INVALIDATE_TILES ∧ it.view = view ∧ extractRectangle (tokenize it.payload) = some queued ∧
      queued.part = msg.part ∧ queued.mode = msg.mode := by
  unfold queuedArea at h
  split at h
  · rename_i hlike
    obtain ⟨hextract, hsame⟩ := Option.filter_eq_some_iff.1 h
    simp only [Callback.isLike, Bool.and_eq_true, beq_iff_eq] at hlike
    simp only [decide_eq_true_eq] at hsame
    exact ⟨hlike.1, hlike.2, hextract, hsame.1.symm, hsame.2.symm⟩
  · cases h

end TileArea

/-- The rectangle that a callback invalidates. -/
def Callback.area (c : Callback) : Option TileArea :=
  if c.type = .LOK_CALLBACK_INVALIDATE_TILES then TileArea.extractRectangle (tokenize c.payload) else none

/-- A point is in an area that the queue invalidates for the view, the part and the mode. -/
def Invalidates (callbacks : List Callback) (view part mode px py : Int) : Prop :=
  ∃ c ∈ callbacks, c.view = view ∧ ∃ r, c.area = some r ∧ r.part = part ∧ r.mode = mode ∧ r.Contains px py

namespace TileArea

variable {msg msg' queued r : TileArea} {px py part mode view' : Int} {tokens : List (List Char)} {view : Int}
  {callbacks : List Callback} {it : Callback}

theorem invalidates_cons : Invalidates (it :: callbacks) view' part mode px py ↔
    Invalidates [it] view' part mode px py ∨ Invalidates callbacks view' part mode px py := by
  simp [Invalidates]

/-- A point in the area of the message, or of the queue. -/
def Pending (view : Int) (msg : TileArea) (callbacks : List Callback) (view' part mode px py : Int) : Prop :=
  Invalidates callbacks view' part mode px py ∨
    (view' = view ∧ part = msg.part ∧ mode = msg.mode ∧ msg.Contains px py)

/-- The loop loses no point. -/
theorem elide_pending (h : noOverflow view msg callbacks = true)
    (hp : Pending view msg callbacks view' part mode px py) :
    Pending view (msg.elide view callbacks).1 (msg.elide view callbacks).2.2 view' part mode px py := by
  induction callbacks generalizing msg with
  | nil => exact hp
  | cons it callbacks ih =>
    have hkeep : noOverflow view msg callbacks = true →
        Pending view (msg.elide view callbacks).1 (it :: (msg.elide view callbacks).2.2) view' part mode px py := by
      intro h
      unfold Pending at hp ⊢
      rw [invalidates_cons, or_assoc] at hp ⊢
      rcases hp with hit | hp
      · exact .inl hit
      · exact .inr (ih h hp)
    unfold noOverflow at h
    unfold elide
    cases harea : queuedArea view msg it with
    | none =>
      rw [harea] at h
      exact hkeep h
    | some queued =>
      rw [harea] at h
      simp only [Bool.and_eq_true, decide_eq_true_eq] at h
      dsimp only
      obtain ⟨⟨⟨hmsg, hqueued⟩, hfits⟩, hrest⟩ := h
      obtain ⟨htype, hview, hextract, hpart, hmode⟩ := queuedArea_spec harea
      -- what the erased callback invalidates
      have hit : Invalidates [it] view' part mode px py →
          view' = view ∧ part = msg.part ∧ mode = msg.mode ∧ queued.Contains px py := by
        rintro ⟨c, hc, rfl, r, hr, rfl, rfl, hin⟩
        obtain rfl := List.mem_singleton.1 hc
        unfold Callback.area at hr
        rw [if_pos htype, hextract] at hr
        obtain rfl := Option.some.inj hr
        exact ⟨hview, hpart, hmode, hin⟩
      cases hround : round msg queued with
      | kept =>
        rw [hround] at hrest
        exact hkeep hrest
      | covered =>
        rw [hround] at hrest
        refine ih hrest ?_
        rcases hp with hp | hp
        · rcases invalidates_cons.1 hp with hp | hp
          · obtain ⟨rfl, rfl, rfl, hin⟩ := hit hp
            exact .inr ⟨rfl, rfl, rfl, contains_of_covers hmsg hqueued (round_covered hround) hin⟩
          · exact .inl hp
        · exact .inr hp
      | joined msg' =>
        rw [hround] at hrest
        obtain ⟨hcovers, hintersect, rfl, -⟩ := round_joined hround
        have hjoin : msg.JoinFits queued := by simpa [hcovers, hintersect] using hfits
        refine ih hrest ?_
        rcases hp with hp | ⟨rfl, rfl, rfl, hin⟩
        · rcases invalidates_cons.1 hp with hp | hp
          · obtain ⟨rfl, rfl, rfl, hin⟩ := hit hp
            exact .inr ⟨rfl, rfl, rfl, contains_join hmsg hqueued hjoin hintersect (.inr hin)⟩
          · exact .inl hp
        · exact .inr ⟨rfl, rfl, rfl, contains_join hmsg hqueued hjoin hintersect (.inl hin)⟩

/-- The message keeps its part and mode, and stays as it is where nothing is joined. -/
theorem elide_msg (view : Int) (hint : msg.IsInt) (callbacks : List Callback) : (msg.elide view callbacks).1.IsInt ∧
    (msg.elide view callbacks).1.part = msg.part ∧ (msg.elide view callbacks).1.mode = msg.mode ∧
      ((msg.elide view callbacks).2.1 = false → (msg.elide view callbacks).1 = msg) := by
  induction callbacks generalizing msg with
  | nil => exact ⟨hint, rfl, rfl, fun _ => rfl⟩
  | cons it callbacks ih =>
    unfold elide
    cases harea : queuedArea view msg it with
    | none => exact ih hint
    | some queued =>
      have hqueued := extractRectangle_isInt (queuedArea_spec harea).2.2.1
      dsimp only
      cases hround : round msg queued with
      | kept => exact ih hint
      | covered => exact ih hint
      | joined msg' =>
        obtain ⟨-, -, rfl, -⟩ := round_joined hround
        obtain ⟨hint', hpart, hmode, -⟩ := ih (join_isInt hint hqueued)
        refine ⟨hint', hpart, hmode, ?_⟩
        intro h
        cases h

/-- A message that is joined is no larger than what it is joined to. -/
theorem elide_merged (h : noOverflow view msg callbacks = true) (hmerge : (msg.elide view callbacks).2.1 = true) :
    msg.w ≤ reasonableSizeX := by
  induction callbacks generalizing msg with
  | nil => cases hmerge
  | cons it callbacks ih =>
    unfold noOverflow at h
    unfold elide at hmerge
    cases harea : queuedArea view msg it with
    | none =>
      rw [harea] at h hmerge
      exact ih h hmerge
    | some queued =>
      rw [harea] at h hmerge
      simp only [Bool.and_eq_true, decide_eq_true_eq] at h
      dsimp only at hmerge
      obtain ⟨⟨⟨hmsg, hqueued⟩, hfits⟩, hrest⟩ := h
      cases hround : round msg queued with
      | kept =>
        rw [hround] at hrest hmerge
        exact ih hrest hmerge
      | covered =>
        rw [hround] at hrest hmerge
        exact ih hrest hmerge
      | joined msg' =>
        obtain ⟨hcovers, hintersect, rfl, hsize⟩ := round_joined hround
        have hjoin : msg.JoinFits queued := by simpa [hcovers, hintersect] using hfits
        rw [(join_exact hmsg hqueued hjoin hintersect).1] at hsize
        omega

/-! ### The merged payload -/

theorem intercalate_blank (w : List Char) (ws : List (List Char)) :
    [' '].intercalate (w :: ws) = w ++ ws.flatMap fun w => ' ' :: w := by
  induction ws generalizing w with
  | nil => simp
  | cons w' ws ih =>
    rw [List.intercalate_cons_cons, ih, List.flatMap_cons]
    simp

/-- The merged payload is read back as the merged area, with the part and the mode of the message. -/
theorem extractRectangle_newPayload {payload : List Char} (hextract : extractRectangle (tokenize payload) = some msg)
    (hw : msg.w ≤ reasonableSizeX) (hint : r.IsInt) (hpart : r.part = msg.part) (hmode : r.mode = msg.mode) :
    extractRectangle (tokenize (r.newPayload (tokenize payload))) = some r := by
  have hword : ∀ t ∈ tokenize payload, t ≠ [] ∧ ∀ c ∈ t, isSeparator c = false :=
    fun t ht => ⟨ne_nil_of_mem_tokenize ht, (mem_tokenize ht).1⟩
  generalize tokenize payload = tokens at hextract hword
  unfold extractRectangle at hextract
  split at hextract
  · rename_i first second rest
    split at hextract
    · -- everything is too large to be joined
      cases hextract
      have hlarge : ¬ intMax ≤ reasonableSizeX := by decide
      exact absurd hw hlarge
    · split at hextract
      · rename_i w h part more
        cases hextract
        have hnumber : ∀ n : Int, COOLProtocol.toString n ++ [','] ≠ [] ∧
            ∀ c ∈ COOLProtocol.toString n ++ [','], isSeparator c = false := by
          intro n
          refine ⟨by simp, fun c hc => ?_⟩
          rcases List.mem_append.1 hc with hc | hc
          · exact toString_noSeparator n c hc
          · rw [List.mem_singleton.1 hc]
            decide
        have htext : r.newPayload (first :: second :: w :: h :: part :: more) =
            (COOLProtocol.toString r.x ++ [',']) ++
            ([COOLProtocol.toString r.y ++ [','], COOLProtocol.toString r.w ++ [','],
              COOLProtocol.toString r.h ++ [','], part] ++ more).flatMap (fun w => ' ' :: w) := by
          have hcomma : ", ".toList = [',', ' '] := by decide
          have hrest : (first :: second :: w :: h :: part :: more).drop 4 = part :: more := rfl
          unfold newPayload
          rw [hrest, intercalate_blank, hcomma]
          simp
        have hwords : ∀ w' ∈ [COOLProtocol.toString r.y ++ [','], COOLProtocol.toString r.w ++ [','],
            COOLProtocol.toString r.h ++ [','], part] ++ more, w' ≠ [] ∧ ∀ c ∈ w', isSeparator c = false := by
          intro w' hw'
          rcases List.mem_append.1 hw' with hw' | hw'
          · simp only [List.mem_cons, List.not_mem_nil, or_false] at hw'
            rcases hw' with rfl | rfl | rfl | rfl
            · exact hnumber _
            · exact hnumber _
            · exact hnumber _
            · exact hword _ (by simp)
          · exact hword _ (by simp [hw'])
        have hhead : ∀ c ∈ ((COOLProtocol.toString r.x ++ [',']) ++ ([COOLProtocol.toString r.y ++ [','],
            COOLProtocol.toString r.w ++ [','], COOLProtocol.toString r.h ++ [','], part] ++ more).flatMap
              (fun w => ' ' :: w)).head?, c ≠ '\x00' := by
          intro c hc
          rw [List.append_assoc] at hc
          exact head_toString r.x _ c hc
        rw [htext, TileDesc.tokenize_eq_tokensFrom hhead, TileDesc.tokensFrom_append (hnumber r.x).2, List.nil_append,
          ← List.append_nil (List.flatMap _ _), TileDesc.tokensFrom_words hwords (by simp), if_neg (hnumber r.x).1]
        have hempty : COOLProtocol.toString r.x ++ [','] ≠ "EMPTY,".toList := by
          intro heq
          have hnone : strtol "EMPTY,".toList = none := by decide
          rw [← heq, strtol_comma (by have := hint.x; unfold intMax at this; omega)
            (by have := hint.x; unfold intMax at this; omega)] at hnone
          cases hnone
        simp only [List.cons_append, List.nil_append, extractRectangle, if_neg hempty, atoi_comma hint.x.1 hint.x.2,
          atoi_comma hint.y.1 hint.y.2, atoi_comma hint.w.1 hint.w.2, atoi_comma hint.h.1 hint.h.2]
        obtain ⟨x, y, w', h', part', mode'⟩ := r
        obtain rfl : part' = _ := hpart
        obtain rfl : mode' = _ := hmode
        rfl
      · cases hextract
  · cases hextract

end TileArea

namespace KitQueue

variable (extractViewId : List Char → Option (List Char)) {callbacks : List Callback} {view : Int}
  {payload : List Char}

theorem invalidates_append {a b : List Callback} {view part mode px py : Int} :
    Invalidates (a ++ b) view part mode px py ↔
    Invalidates a view part mode px py ∨ Invalidates b view part mode px py := by
  simp only [Invalidates, List.mem_append, or_and_right, exists_or]

/-- For every view, part and mode: the queue covers what it covered before, and the new rectangle, where no `int` that
the loop computes overflows. -/
theorem putCallback_covers (callbacks : List Callback) (view : Int) (payload : List Char)
    (h : ∀ msg, TileArea.extractRectangle (tokenize payload) = some msg → msg.noOverflow view callbacks = true) :
    ∃ callbacks', putCallback extractViewId callbacks view .LOK_CALLBACK_INVALIDATE_TILES payload = some callbacks' ∧
      ∀ view' part mode px py,
        Invalidates (callbacks ++ [⟨view, .LOK_CALLBACK_INVALIDATE_TILES, payload⟩]) view' part mode px py →
          Invalidates callbacks' view' part mode px py := by
  unfold putCallback elideDuplicateCallback
  by_cases hnil : callbacks = []
  · rw [if_pos hnil]
    exact ⟨_, rfl, fun _ _ _ _ _ hp => hp⟩
  · rw [if_neg hnil, if_pos rfl]
    dsimp only
    cases hextract : TileArea.extractRectangle (tokenize payload) with
    | none => exact ⟨_, rfl, fun _ _ _ _ _ hp => hp⟩
    | some msg =>
      have hover := h msg hextract
      obtain ⟨hint, hpart, hmode, hsame⟩ :=
        TileArea.elide_msg view (TileArea.extractRectangle_isInt hextract) callbacks
      have hpending : ∀ view' part mode px py,
          Invalidates (callbacks ++ [⟨view, .LOK_CALLBACK_INVALIDATE_TILES, payload⟩]) view' part mode px py →
            TileArea.Pending view (msg.elide view callbacks).1
              (msg.elide view callbacks).2.2 view' part mode px py := by
        intro view' part mode px py hp
        refine TileArea.elide_pending hover ?_
        rcases invalidates_append.1 hp with hp | ⟨c, hc, rfl, r, hr, rfl, rfl, hin⟩
        · exact .inl hp
        · obtain rfl := List.mem_singleton.1 hc
          unfold Callback.area at hr
          rw [if_pos rfl, hextract] at hr
          obtain rfl := Option.some.inj hr
          exact .inr ⟨rfl, rfl, rfl, hin⟩
      -- what the last callback invalidates
      have hlast : ∀ last, TileArea.extractRectangle (tokenize last) = some (msg.elide view callbacks).1 →
          ∀ view' part mode px py,
            TileArea.Pending view (msg.elide view callbacks).1 (msg.elide view callbacks).2.2 view' part mode px py →
              Invalidates ((msg.elide view callbacks).2.2 ++ [⟨view, .LOK_CALLBACK_INVALIDATE_TILES, last⟩])
                view' part mode px py := by
        rintro last hread view' part mode px py (hp | ⟨rfl, rfl, rfl, hin⟩)
        · exact invalidates_append.2 (.inl hp)
        · exact invalidates_append.2
            (.inr ⟨_, List.mem_singleton_self _, rfl, _, (if_pos rfl).trans hread, rfl, rfl, hin⟩)
      cases hmerged : (msg.elide view callbacks).2.1 with
      | true =>
        have hread := TileArea.extractRectangle_newPayload hextract
          (TileArea.elide_merged hover hmerged) hint hpart hmode
        refine ⟨_, by dsimp only; rw [hmerged]; rfl, fun view' part mode px py hp => ?_⟩
        exact hlast _ hread view' part mode px py (hpending view' part mode px py hp)
      | false =>
        have hread : TileArea.extractRectangle (tokenize payload) = some (msg.elide view callbacks).1 := by
          rw [hsame hmerged]
          exact hextract
        refine ⟨_, by dsimp only; rw [hmerged]; rfl, fun view' part mode px py hp => ?_⟩
        exact hlast _ hread view' part mode px py (hpending view' part mode px py hp)

/-- The second invalidation intersects the first one. -/
theorem putCallback_covers_join : ∃ callbacks',
    putCallback (fun _ => none) [⟨0, .LOK_CALLBACK_INVALIDATE_TILES, "284, 1418, 11105, 275, 0".toList⟩] 0
        .LOK_CALLBACK_INVALIDATE_TILES "4299, 1418, 7090, 275, 0".toList = some callbacks' ∧
      ∀ view' part mode px py,
        Invalidates ([⟨0, .LOK_CALLBACK_INVALIDATE_TILES, "284, 1418, 11105, 275, 0".toList⟩] ++
          [⟨0, .LOK_CALLBACK_INVALIDATE_TILES, "4299, 1418, 7090, 275, 0".toList⟩]) view' part mode px py →
            Invalidates callbacks' view' part mode px py := by
  refine putCallback_covers _ _ _ _ fun msg hmsg => ?_
  have hread : TileArea.extractRectangle (tokenize "4299, 1418, 7090, 275, 0".toList) =
      some ⟨4299, 1418, 7090, 275, 0, 0⟩ := by
    decide +kernel
  rw [hread] at hmsg
  cases hmsg
  decide +kernel

/-- The end of the queued rectangle overflows, so it counts as covered. -/
theorem not_putCallback_covers :
    ¬ ∀ (extractViewId : List Char → Option (List Char)) callbacks view payload, ∃ callbacks',
    putCallback extractViewId callbacks view .LOK_CALLBACK_INVALIDATE_TILES payload = some callbacks' ∧
      ∀ view' part mode px py,
        Invalidates (callbacks ++ [⟨view, .LOK_CALLBACK_INVALIDATE_TILES, payload⟩]) view' part mode px py →
          Invalidates callbacks' view' part mode px py := by
  intro h
  obtain ⟨callbacks', hput, hcovers⟩ := h (fun _ => none)
    [⟨0, .LOK_CALLBACK_INVALIDATE_TILES, "2147483000, 0, 2000, 50, 0".toList⟩] 0 "0, 0, 100, 100, 0".toList
  have hqueue : putCallback (fun _ => none)
    [⟨0, .LOK_CALLBACK_INVALIDATE_TILES, "2147483000, 0, 2000, 50, 0".toList⟩] 0
      .LOK_CALLBACK_INVALIDATE_TILES "0, 0, 100, 100, 0".toList =
        some [⟨0, .LOK_CALLBACK_INVALIDATE_TILES, "0, 0, 100, 100, 0".toList⟩] := by decide +kernel
  rw [hqueue] at hput
  obtain rfl := Option.some.inj hput
  have hfirst : TileArea.extractRectangle (tokenize "2147483000, 0, 2000, 50, 0".toList) =
      some ⟨2147483000, 0, 2000, 50, 0, 0⟩ := by decide +kernel
  have hsecond : TileArea.extractRectangle (tokenize "0, 0, 100, 100, 0".toList) = some ⟨0, 0, 100, 100, 0, 0⟩ := by
    decide +kernel
  obtain ⟨c, hc, -, r, hr, -, -, hin⟩ := hcovers 0 0 0 2147483000 0
    ⟨_, List.mem_append_left _ (List.mem_singleton_self _), rfl, _, (if_pos rfl).trans hfirst, rfl, rfl, by
      unfold TileArea.Contains; decide⟩
  obtain rfl := List.mem_singleton.1 hc
  rw [Callback.area, if_pos rfl, hsecond] at hr
  obtain rfl := Option.some.inj hr
  have hright : (2147483000 : Int) < 0 + 100 := hin.2.1
  exact absurd hright (by decide)

end KitQueue

end CollaboraOnline
