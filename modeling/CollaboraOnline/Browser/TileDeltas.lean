import CollaboraOnline.Browser.TileTransactions

/-!
# The deltas of a tile

What a worker sends back for a tile is the image of some of the raw deltas that the tile ever stored (`Answers`): the
deltas that are sent continue the image which the worker has, or start at a keyframe (`Chain`).
-/

namespace CollaboraOnline

/-! ### Decoding -/

section Decoding

variable {K P I : Type} {d : TileDecoder K P I}

/-- The result of decoding the raw deltas from the last keyframe on. -/
def TileDecoder.imageOf (d : TileDecoder K P I) (rawDeltas : List (RawDelta P)) : Option I :=
  d.keyframe ((rawDeltas.drop (lastKeyframe rawDeltas)).map (·.delta))

/-- The image of a keyframe and what follows it, without another keyframe. -/
def Decodes (d : TileDecoder K P I) (rawDeltas : List (RawDelta P)) (image : I) : Prop :=
  ∃ before first rest, rawDeltas = before ++ first :: rest ∧ first.isKeyframe = true ∧
    (∀ r ∈ rest, r.isKeyframe = false) ∧ image = d.updates (d.unrle first.delta) (rest.map (·.delta))

theorem lastKeyframe_append {before rest : List (RawDelta P)} {first : RawDelta P} (hfirst : first.isKeyframe = true)
    (hrest : ∀ r ∈ rest, r.isKeyframe = false) : lastKeyframe (before ++ first :: rest) = before.length := by
  have hnone : rest.reverse.findIdx? (·.isKeyframe) = none := by
    rw [List.findIdx?_eq_none_iff]
    intro r hr
    exact hrest r (List.mem_reverse.1 hr)
  cases before with
  | nil =>
    unfold lastKeyframe
    rw [List.nil_append, List.tail_cons, hnone]
    rfl
  | cons b before =>
    have hfind : (rest.reverse ++ (first :: before.reverse)).findIdx? (·.isKeyframe) = some rest.length := by
      rw [List.findIdx?_append, hnone, List.findIdx?_cons, hfirst]
      simp
    unfold lastKeyframe
    rw [List.cons_append, List.tail_cons, List.reverse_append, List.reverse_cons, List.append_assoc,
      List.singleton_append, hfind]
    simp only [List.length_cons, List.length_append]
    omega

theorem drop_lastKeyframe {rawDeltas : List (RawDelta P)} (h : ∀ r ∈ rawDeltas.head?, r.isKeyframe = true) :
    ∀ r ∈ (rawDeltas.drop (lastKeyframe rawDeltas)).head?, r.isKeyframe = true := by
  unfold lastKeyframe
  cases hfind : rawDeltas.tail.reverse.findIdx? (·.isKeyframe) with
  | none => exact h
  | some j =>
    obtain ⟨hj, hkey, -⟩ := List.findIdx?_eq_some_iff_getElem.1 hfind
    intro r hr
    rw [List.length_reverse, List.length_tail] at hj
    rw [List.head?_drop] at hr
    obtain ⟨hi, rfl⟩ := List.getElem?_eq_some_iff.1 hr
    rw [List.getElem_reverse, List.getElem_tail] at hkey
    have hindex : rawDeltas.tail.length - 1 - j + 1 = rawDeltas.length - 1 - j := by
      rw [List.length_tail]
      omega
    simpa only [hindex] using hkey

/-- There is no keyframe behind the last one. -/
theorem drop_succ_lastKeyframe (rawDeltas : List (RawDelta P)) :
    ∀ r ∈ rawDeltas.drop (lastKeyframe rawDeltas + 1), r.isKeyframe = false := by
  rw [← List.drop_tail]
  unfold lastKeyframe
  cases hfind : rawDeltas.tail.reverse.findIdx? (·.isKeyframe) with
  | none =>
    intro r hr
    rw [List.findIdx?_eq_none_iff] at hfind
    exact hfind r (List.mem_reverse.2 (List.mem_of_mem_drop hr))
  | some j =>
    obtain ⟨hj, -, hlater⟩ := List.findIdx?_eq_some_iff_getElem.1 hfind
    dsimp only
    intro r hr
    rw [List.length_reverse, List.length_tail] at hj
    obtain ⟨i, hi, rfl⟩ := List.mem_iff_getElem.1 hr
    rw [List.length_drop, List.length_tail] at hi
    have hbefore := hlater (rawDeltas.length - 2 - (rawDeltas.length - 1 - j + i)) (by omega)
    simp only [List.getElem_reverse, List.length_tail] at hbefore
    rw [List.getElem_drop]
    have hindex : rawDeltas.length - 1 - 1 - (rawDeltas.length - 2 - (rawDeltas.length - 1 - j + i)) =
        rawDeltas.length - 1 - j + i := by omega
    simpa only [hindex, Bool.not_eq_true] using hbefore

theorem Decodes.imageOf {rawDeltas : List (RawDelta P)} {image : I} (h : Decodes d rawDeltas image) :
    d.imageOf rawDeltas = some image := by
  obtain ⟨before, first, rest, rfl, hfirst, hrest, rfl⟩ := h
  unfold TileDecoder.imageOf
  rw [lastKeyframe_append hfirst hrest, List.drop_left]
  rfl

/-- Raw deltas in front of a keyframe do not matter. -/
theorem Decodes.of_append {front rawDeltas : List (RawDelta P)} {image : I} (h : Decodes d (front ++ rawDeltas) image)
    (hhead : ∃ r ∈ rawDeltas, r.isKeyframe = true) : Decodes d rawDeltas image := by
  obtain ⟨before, first, rest, heq, hfirst, hrest, rfl⟩ := h
  rcases List.append_eq_append_iff.1 heq with ⟨as, rfl, hraw⟩ | ⟨bs, rfl, hraw⟩
  · exact ⟨as, first, rest, hraw, hfirst, hrest, rfl⟩
  · cases bs with
    | nil => exact ⟨[], first, rest, hraw.symm, hfirst, hrest, rfl⟩
    | cons b bs =>
      obtain ⟨rfl, rfl⟩ := List.cons.inj hraw
      obtain ⟨r, hr, hkey⟩ := hhead
      have := hrest r (List.mem_append_right _ hr)
      rw [hkey] at this
      cases this

theorem decodes_keyframe {before seg : List (RawDelta P)} {image : I}
    (hseg : ∃ first rest, seg = first :: rest ∧ first.isKeyframe = true ∧ ∀ r ∈ rest, r.isKeyframe = false)
    (himage : d.keyframe (seg.map (·.delta)) = some image) : Decodes d (before ++ seg) image := by
  obtain ⟨first, rest, rfl, hfirst, hrest⟩ := hseg
  exact ⟨before, first, rest, rfl, hfirst, hrest, (Option.some.inj himage).symm⟩

theorem Decodes.updates {before seg : List (RawDelta P)} {image : I} (h : Decodes d before image)
    (hseg : ∀ r ∈ seg, r.isKeyframe = false) : Decodes d (before ++ seg) (d.updates image (seg.map (·.delta))) := by
  obtain ⟨front, first, rest, rfl, hfirst, hrest, rfl⟩ := h
  refine ⟨front, first, rest ++ seg, by simp, hfirst, fun r hr => ?_, ?_⟩
  · exact (List.mem_append.1 hr).elim (hrest r) (hseg r)
  · simp [TileDecoder.updates]

end Decoding

namespace TileManager

variable {K P I : Type} {d : TileDecoder K P I}

/-! ### What a tile stores -/

/-- The raw deltas are the end of all that were stored, from a keyframe on. -/
structure History (t : BrowserTile P I) : Prop where
  length : t.stored.length = t.deltaId
  ids : ∀ i (h : i < t.stored.length), t.stored[i].id = i + 1
  rawDeltas : ∃ m, t.rawDeltas = t.stored.drop m ∧ ∀ r ∈ t.rawDeltas.head?, r.isKeyframe = true

theorem History.id_lt {t : BrowserTile P I} (h : History t) {m n : Nat} (hraw : t.rawDeltas = t.stored.drop m)
    (hn : n ≤ m) : ∀ r ∈ t.rawDeltas, n < r.id := by
  intro r hr
  rw [hraw, List.mem_iff_getElem] at hr
  obtain ⟨i, hi, rfl⟩ := hr
  rw [List.length_drop] at hi
  rw [List.getElem_drop, h.ids]
  omega

/-- A piece of what was stored, as it is sent to a worker. -/
structure Piece (stored : List (RawDelta P)) (x : PendingDelta K P I) : Prop where
  first : 1 ≤ x.ids.1
  order : x.ids.1 ≤ x.ids.2
  bound : x.ids.2 ≤ stored.length
  rawDelta : x.rawDelta = ((stored.take x.ids.2).drop (x.ids.1 - 1)).map (·.delta)
  keyframe : x.isKeyframe = true → ∃ first rest, (stored.take x.ids.2).drop (x.ids.1 - 1) = first :: rest ∧
    first.isKeyframe = true ∧ ∀ r ∈ rest, r.isKeyframe = false
  delta : x.isKeyframe = false → ∀ r ∈ (stored.take x.ids.2).drop (x.ids.1 - 1), r.isKeyframe = false

theorem Piece.append {stored : List (RawDelta P)} {x : PendingDelta K P I} (h : Piece stored x)
    (new : List (RawDelta P)) : Piece (stored ++ new) x := by
  have htake : (stored ++ new).take x.ids.2 = stored.take x.ids.2 := List.take_append_of_le_length h.bound
  refine ⟨h.first, h.order, ?_, ?_, ?_, ?_⟩
  · rw [List.length_append]
    exact Nat.le_trans h.bound (Nat.le_add_right _ _)
  · rw [htake]
    exact h.rawDelta
  · rw [htake]
    exact h.keyframe
  · rw [htake]
    exact h.delta

/-- The image that a worker makes of a piece. -/
theorem Piece.decodes {stored : List (RawDelta P)} {x : PendingDelta K P I} (h : Piece stored x)
    {images : K → Option I} {image : I} (himage : decompress d images x = some image)
    (hbase : x.isKeyframe = false → ∀ base, images x.key = some base → Decodes d (stored.take (x.ids.1 - 1)) base) :
    Decodes d (stored.take x.ids.2) image := by
  have hsplit : stored.take x.ids.2 = stored.take (x.ids.1 - 1) ++ (stored.take x.ids.2).drop (x.ids.1 - 1) := by
    conv_lhs => rw [← List.take_append_drop (x.ids.1 - 1) (stored.take x.ids.2)]
    rw [List.take_take, Nat.min_eq_left (by have := h.order; omega)]
  unfold decompress at himage
  rw [h.rawDelta] at himage
  rw [hsplit]
  by_cases hkey : x.isKeyframe = true
  · rw [if_pos hkey] at himage
    exact decodes_keyframe (h.keyframe hkey) himage
  · rw [if_neg hkey] at himage
    have hkey : x.isKeyframe = false := by simpa using hkey
    obtain ⟨base, hbase', rfl⟩ := Option.map_eq_some_iff.1 himage
    exact (hbase hkey base hbase').updates (h.delta hkey)

/-- What has been decompressed is gone from the raw deltas, where its ids are not known. -/
theorem Piece.gone {t : BrowserTile P I} {x : PendingDelta K P I} (h : History t) (hx : Piece t.stored x)
    (hkey : x.isKeyframe = false)
    (hunknown : (t.rawDeltas.any (·.id == x.ids.1) && t.rawDeltas.any (·.id == x.ids.2)) = false) :
    ∀ r ∈ t.rawDeltas, x.ids.2 < r.id := by
  obtain ⟨m, hdrop, hhead⟩ := h.rawDeltas
  have hbound := hx.bound
  have horder := hx.order
  have hfirst := hx.first
  refine h.id_lt hdrop ?_
  by_contra hm
  have hm : m < x.ids.2 := by omega
  have hknown : ∀ n, m < n → n ≤ t.stored.length → t.rawDeltas.any (·.id == n) = true := by
    intro n hlow hhigh
    rw [List.any_eq_true]
    refine ⟨t.stored[n - 1], ?_, ?_⟩
    · rw [hdrop, List.mem_iff_getElem]
      refine ⟨n - 1 - m, by rw [List.length_drop]; omega, ?_⟩
      simp only [List.getElem_drop]
      congr 1
      omega
    · rw [h.ids, beq_iff_eq]
      omega
  rw [hknown _ hm hbound, Bool.and_true] at hunknown
  have hlow : x.ids.1 ≤ m := by
    by_contra hlt
    rw [hknown _ (by omega) (by omega)] at hunknown
    cases hunknown
  -- the keyframe at the head of the raw deltas would be among what was sent
  have hkeyframe : t.stored[m].isKeyframe = true := by
    refine hhead _ ?_
    rw [hdrop, List.head?_drop]
    exact List.getElem?_eq_getElem _
  have hdelta : t.stored[m].isKeyframe = false := by
    refine hx.delta hkey _ ?_
    rw [List.mem_iff_getElem]
    refine ⟨m - (x.ids.1 - 1), by rw [List.length_drop, List.length_take]; omega, ?_⟩
    simp only [List.getElem_drop, List.getElem_take]
    congr 1
    omega
  rw [hkeyframe] at hdelta
  cases hdelta

/-- What the worker will have for the tile when it comes to the deltas `xs`: the image up to the id `q`, or nothing;
each delta continues it or is a keyframe, and the last one ends at `p` unless that was reset. -/
def Chain (stored : List (RawDelta P)) : Option Nat → List (PendingDelta K P I) → Nat → Prop
  | q, [], p => p ≠ 0 → q = some p
  | q, x :: xs, p => Piece stored x ∧ (x.isKeyframe = false → q = some (x.ids.1 - 1)) ∧
    Chain stored (some x.ids.2) xs p

theorem Chain.append {stored : List (RawDelta P)} {q : Option Nat} {xs : List (PendingDelta K P I)} {p : Nat}
    (h : Chain stored q xs p) (new : List (RawDelta P)) : Chain (stored ++ new) q xs p := by
  induction xs generalizing q with
  | nil => exact h
  | cons x xs ih => exact ⟨h.1.append new, h.2.1, ih h.2.2⟩

theorem Chain.reset {stored : List (RawDelta P)} {q : Option Nat} {xs : List (PendingDelta K P I)} {p : Nat}
    (h : Chain stored q xs p) : Chain stored q xs 0 := by
  induction xs generalizing q with
  | nil => exact fun h => absurd rfl h
  | cons x xs ih => exact ⟨h.1, h.2.1, ih h.2.2⟩

/-- A new delta starts at a keyframe or behind the last one. -/
theorem Chain.push {stored : List (RawDelta P)} {q : Option Nat} {xs : List (PendingDelta K P I)} {p : Nat}
    (h : Chain stored q xs p) {x : PendingDelta K P I} (hx : Piece stored x)
    (hnext : x.isKeyframe = false → p ≠ 0 ∧ x.ids.1 = p + 1) : Chain stored q (xs ++ [x]) x.ids.2 := by
  induction xs generalizing q with
  | nil =>
    refine ⟨hx, fun hkey => ?_, fun _ => rfl⟩
    obtain ⟨hp, hid⟩ := hnext hkey
    rw [h hp, hid]
    rfl
  | cons y ys ih => exact ⟨h.1, h.2.1, ih h.2.2⟩

/-- The image that a worker has, if any, is that of the id `q`. -/
def Knows (d : TileDecoder K P I) (stored : List (RawDelta P)) (image : Option I) (q : Option Nat) : Prop :=
  ∀ n, q = some n → n ≤ stored.length ∧ ∀ base, image = some base → Decodes d (stored.take n) base

theorem Knows.append {stored : List (RawDelta P)} {image : Option I} {q : Option Nat} (h : Knows d stored image q)
    (new : List (RawDelta P)) : Knows d (stored ++ new) image q := by
  intro n hn
  obtain ⟨hle, hbase⟩ := h n hn
  rw [List.take_append_of_le_length hle, List.length_append]
  exact ⟨Nat.le_trans hle (Nat.le_add_right _ _), hbase⟩

theorem Knows.purged {stored : List (RawDelta P)} {image : Option I} {q : Option Nat} (h : Knows d stored image q)
    (b : Bool) : Knows d stored (if b then image else none) q := by
  intro n hn
  obtain ⟨hle, hbase⟩ := h n hn
  refine ⟨hle, fun base hb => ?_⟩
  cases b with
  | true => exact hbase base hb
  | false => cases hb

/-- An answer has the image of the id it ends at. -/
def Answers (d : TileDecoder K P I) (stored : List (RawDelta P)) (y : PendingDelta K P I) : Prop :=
  Piece stored y ∧ ∃ image, y.bitmap = some image ∧ Decodes d (stored.take y.ids.2) image

theorem Answers.append {stored : List (RawDelta P)} {y : PendingDelta K P I} (h : Answers d stored y)
    (new : List (RawDelta P)) : Answers d (stored ++ new) y := by
  obtain ⟨hpiece, image, hbitmap, hdecodes⟩ := h
  refine ⟨hpiece.append new, image, hbitmap, ?_⟩
  rw [List.take_append_of_le_length hpiece.bound]
  exact hdecodes

/-! ### What is sent -/

theorem History.id_getElem {t : BrowserTile P I} (h : History t) {m : Nat} (hdrop : t.rawDeltas = t.stored.drop m)
    {i : Nat} (hi : i < t.rawDeltas.length) : t.rawDeltas[i].id = m + i + 1 := by
  have hlen : i < (t.stored.drop m).length := hdrop ▸ hi
  have hget : t.rawDeltas[i] = (t.stored.drop m)[i] := by simp only [hdrop]
  rw [hget, List.getElem_drop, h.ids]

/-- What is sent starts at the last keyframe, or continues what was sent before. -/
theorem firstDelta_spec {t : BrowserTile P I} (h : History t) (hlt : firstDelta t < t.rawDeltas.length) :
    (t.rawDeltas[firstDelta t].isKeyframe = true ∧ ∀ r ∈ t.rawDeltas.drop (firstDelta t + 1), r.isKeyframe = false) ∨
      (∀ r ∈ t.rawDeltas.drop (firstDelta t), r.isKeyframe = false) ∧ t.lastPendingId ≠ 0 ∧
        t.rawDeltas[firstDelta t].id = t.lastPendingId + 1 := by
  obtain ⟨m, hdrop, hhead⟩ := h.rawDeltas
  have hnil : t.rawDeltas ≠ [] := List.ne_nil_of_length_pos (Nat.zero_lt_of_lt hlt)
  have hkeyframe : ∀ hk : lastKeyframe t.rawDeltas < t.rawDeltas.length,
      t.rawDeltas[lastKeyframe t.rawDeltas].isKeyframe = true ∧
        ∀ r ∈ t.rawDeltas.drop (lastKeyframe t.rawDeltas + 1), r.isKeyframe = false := by
    refine fun hk => ⟨drop_lastKeyframe hhead _ ?_, drop_succ_lastKeyframe _⟩
    rw [List.head?_drop]
    exact List.getElem?_eq_getElem hk
  by_cases hpending : (t.rawDeltas[lastKeyframe t.rawDeltas]?.any fun keyframe => keyframe.id < t.lastPendingId) =
    true
  · cases hfind : t.rawDeltas.findIdx? (·.id == t.lastPendingId) with
    | none =>
      have hfirst : firstDelta t = lastKeyframe t.rawDeltas := by
        unfold firstDelta
        rw [if_pos hpending, hfind]
      simp only [hfirst] at hlt ⊢
      exact .inl (hkeyframe hlt)
    | some j =>
      have hfirst : firstDelta t = j + 1 := by
        unfold firstDelta
        rw [if_pos hpending, hfind]
      obtain ⟨hj, hid, -⟩ := List.findIdx?_eq_some_iff_getElem.1 hfind
      have hk := lastKeyframe_lt hnil
      rw [List.getElem?_eq_getElem hk, Option.any_some, decide_eq_true_eq, h.id_getElem hdrop hk] at hpending
      rw [beq_iff_eq, h.id_getElem hdrop hj] at hid
      simp only [hfirst] at hlt ⊢
      rw [h.id_getElem hdrop hlt]
      refine .inr ⟨fun r hr => ?_, by omega, by omega⟩
      -- what was sent last is not before the keyframe
      have hle : lastKeyframe t.rawDeltas + 1 ≤ j + 1 := by omega
      exact (hkeyframe hk).2 r ((List.drop_subset_drop_left _ hle) hr)
  · have hfirst : firstDelta t = lastKeyframe t.rawDeltas := by
      unfold firstDelta
      rw [if_neg hpending]
    simp only [hfirst] at hlt ⊢
    exact .inl (hkeyframe hlt)

/-- The piece that a rehydration sends. -/
theorem piece_rehydrate {t : BrowserTile P I} (h : History t) (key : K) (wireMessage : Bool)
    (hlt : firstDelta t < t.rawDeltas.length) {last : RawDelta P} (hlast : t.rawDeltas.getLast? = some last) :
    last.id = t.stored.length ∧ Piece t.stored (⟨key, (t.rawDeltas.drop (firstDelta t)).map (·.delta),
      t.rawDeltas[firstDelta t].isKeyframe, wireMessage, (t.rawDeltas[firstDelta t].id, last.id), none⟩ :
        PendingDelta K P I) := by
  have hspec := firstDelta_spec h hlt
  obtain ⟨m, hdrop, -⟩ := h.rawDeltas
  have hlen : t.rawDeltas.length = t.stored.length - m := by
    rw [hdrop, List.length_drop]
  have hfirst : t.rawDeltas[firstDelta t].id = m + firstDelta t + 1 := h.id_getElem hdrop hlt
  have hid : last.id = t.stored.length := by
    rw [List.getLast?_eq_getElem?, List.getElem?_eq_getElem (by omega)] at hlast
    rw [← Option.some.inj hlast, h.id_getElem hdrop]
    omega
  have hseg : (t.stored.take last.id).drop (t.rawDeltas[firstDelta t].id - 1) = t.rawDeltas.drop (firstDelta t) := by
    rw [hid, List.take_length, hfirst, Nat.add_sub_cancel, hdrop, List.drop_drop]
  have hcons : t.rawDeltas.drop (firstDelta t) = t.rawDeltas[firstDelta t] :: t.rawDeltas.drop (firstDelta t + 1) :=
    List.drop_eq_getElem_cons hlt
  refine ⟨hid, ⟨?_, ?_, Nat.le_of_eq hid, ?_, ?_, ?_⟩⟩
  · dsimp only
    omega
  · dsimp only
    omega
  · exact congrArg (List.map (·.delta)) hseg.symm
  · intro hkey
    dsimp only at hkey ⊢
    rw [hseg, hcons]
    refine ⟨_, _, rfl, hkey, ?_⟩
    rcases hspec with ⟨-, hrest⟩ | ⟨hnone, -⟩
    · exact hrest
    · rw [hnone _ (by rw [hcons]; exact List.mem_cons_self)] at hkey
      cases hkey
  · intro hkey
    dsimp only at hkey ⊢
    rw [hseg]
    rcases hspec with ⟨hkeyframe, -⟩ | ⟨hnone, -⟩
    · rw [hkey] at hkeyframe
      cases hkeyframe
    · exact hnone

/-! ### The worker -/

/-- A worker that threw has nothing. -/
theorem chain_thrown {stored : List (RawDelta P)} {xs : List (PendingDelta K P I)} {image : Option I} {q : Option Nat}
    {p : Nat} (hknows : Knows d stored image q) (hchain : Chain stored q xs p) :
    ∃ q', Knows d stored none q' ∧ Chain stored q' ([] : List (PendingDelta K P I)) p := by
  induction xs generalizing q image with
  | nil => exact ⟨q, fun n hn => ⟨(hknows n hn).1, nofun⟩, hchain⟩
  | cons x xs ih =>
    obtain ⟨hpiece, -, hchain⟩ := hchain
    have hnone : Knows d stored none (some x.ids.2) := by
      intro n hn
      obtain rfl := Option.some.inj hn
      exact ⟨hpiece.bound, nofun⟩
    exact ih hnone hchain

variable [DecidableEq K] {s s' : TileManager K P I}

/-- The chain is worked off, and the answers are right. -/
theorem work_chain {stored : List (RawDelta P)} {key : K} {images : K → Option I} {xs : List (PendingDelta K P I)}
    {q : Option Nat} {p : Nat} (hknows : Knows d stored (images key) q)
    (hchain : Chain stored q (xs.filter fun (x : PendingDelta K P I) => x.key = key) p)
    {r : (K → Option I) × List (PendingDelta K P I)} (hwork : work d images xs = some r) :
    (∃ q', Knows d stored (r.1 key) q' ∧ Chain stored q' ([] : List (PendingDelta K P I)) p) ∧
      ∀ y ∈ r.2, y.key = key → Answers d stored y := by
  induction xs generalizing images q r with
  | nil =>
    obtain rfl := Option.some.inj hwork
    exact ⟨⟨q, hknows, hchain⟩, fun y hy => nomatch hy⟩
  | cons x xs ih =>
    simp only [work, Option.bind_eq_bind, Option.bind_eq_some_iff] at hwork
    obtain ⟨image, himage, ⟨images', ys⟩, hrest, hr⟩ := hwork
    obtain rfl := Option.some.inj hr
    by_cases hx : x.key = key
    · rw [List.filter_cons_of_pos (by simpa using hx)] at hchain
      obtain ⟨hpiece, hcontinues, hchain⟩ := hchain
      have hdecodes : Decodes d (stored.take x.ids.2) image := by
        refine hpiece.decodes himage fun hkey base hbase => ?_
        rw [hx] at hbase
        exact (hknows _ (hcontinues hkey)).2 base hbase
      have hnow : Knows d stored (Function.update images x.key (some image) key) (some x.ids.2) := by
        intro n hn
        obtain rfl := Option.some.inj hn
        refine ⟨hpiece.bound, fun base hbase => ?_⟩
        rw [hx, Function.update_self] at hbase
        obtain rfl := Option.some.inj hbase
        exact hdecodes
      obtain ⟨hq, hys⟩ := ih hnow hchain hrest
      refine ⟨hq, fun y hy hkey => ?_⟩
      rcases List.mem_cons.1 hy with rfl | hy
      · exact ⟨⟨hpiece.1, hpiece.2, hpiece.3, hpiece.4, hpiece.5, hpiece.6⟩, image, rfl, hdecodes⟩
      · exact hys y hy hkey
    · rw [List.filter_cons_of_neg (by simpa using hx)] at hchain
      have hother : Knows d stored (Function.update images x.key (some image) key) q := by
        rwa [Function.update_of_ne (Ne.symm hx)]
      obtain ⟨hq, hys⟩ := ih hother hchain hrest
      refine ⟨hq, fun y hy hkey => ?_⟩
      rcases List.mem_cons.1 hy with rfl | hy
      · exact absurd hkey hx
      · exact hys y hy hkey

end TileManager

end CollaboraOnline
