import CollaboraOnline.Browser.DeltaStream
import CollaboraOnline.Wsd.DeltaChain

/-!
# From the kit's bitmaps to every client's image

The kit renders bitmaps and encodes each as a keyframe, or as a delta to the bitmap before it.  The broker caches the
frames, and sends them to any number of clients at any time.  What a client has been sent of a tile, decompressed and
decoded by its worker, is the bitmap that the kit rendered for the wire id it was last sent (`client_image`).

`zstd` is what decompresses a sequence of frames; a frame of some content is one that a compressor may give for it.
-/

namespace CollaboraOnline

open CanvasTileUtils

/-- The functions of zstd that the kit and the worker use. -/
structure Zstd where
  /-- The second bytes are a frame that a compression of the first ones may give. -/
  Compresses : List UInt8 → List UInt8 → Prop
  decompress : List UInt8 → Option (List UInt8)
  /-- Frames one after the other decompress to their contents one after the other. -/
  decompress_frames : ∀ frames : List (List UInt8 × List UInt8), (∀ f ∈ frames, Compresses f.1 f.2) →
    decompress (frames.flatMap Prod.snd) = some (frames.flatMap Prod.fst)

variable {width height : Nat}

section Stream

variable (zstd : Zstd) (simd : Simd) (mode : TileMode) (bitmap : Nat → Subbuffer width height)

/-- The keyframe of a bitmap, before the compression. -/
def keyframeOf (wid : Nat) : List UInt8 := (DeltaData.ofPixmap simd (bitmap wid)).packKeyframe simd mode

/-- The delta from one bitmap to another, before the compression. -/
def deltaOf (base wid : Nat) : Option (List UInt8) :=
  makeDelta simd mode (DeltaData.ofPixmap simd (bitmap base)) (DeltaData.ofPixmap simd (bitmap wid))

/-- What the kit answers for wire id `wid`: a keyframe, or a delta to the bitmap of the last frame.  The delta of an
unchanged bitmap has no content. -/
def IsEncoded (last : Option Nat) (wid : Nat) (data : List UInt8) : Prop :=
  (∃ frame, zstd.Compresses (keyframeOf simd mode bitmap wid) frame ∧ data = 90 :: frame) ∨
    ∃ base delta, last = some base ∧ deltaOf simd mode bitmap base wid = some delta ∧
      if delta = [] then data = [68] else ∃ frame, zstd.Compresses delta frame ∧ data = 68 :: frame

/-- Each frame is what the kit answers after the frames before it. -/
inductive Encoded : List TileFrame → Prop
  | nil : Encoded []
  | concat {fs : List TileFrame} {wid : Nat} {data : List UInt8} : Encoded fs →
      IsEncoded zstd simd mode bitmap (fs.getLast?.map Frame.version) wid data →
      Encoded (fs ++ [TileBlobs.frame wid data])

variable {zstd simd mode bitmap}

theorem Encoded.of_append {fs gs : List TileFrame} (h : Encoded zstd simd mode bitmap (fs ++ gs)) :
    Encoded zstd simd mode bitmap fs := by
  induction gs using List.reverseRecOn with
  | nil => rwa [List.append_nil] at h
  | append_singleton gs g ih =>
    rw [← List.append_assoc] at h
    generalize hl : fs ++ gs ++ [g] = l at h
    cases h with
    | nil => simp at hl
    | concat hfs _ =>
      obtain ⟨hl, -⟩ := List.append_inj' hl rfl
      exact ih (hl ▸ hfs)

theorem makeDeltas_concat {first : Subbuffer width height} {rest : List (Subbuffer width height)}
    {deltas : List (List UInt8)} {delta : List UInt8} {cur : Subbuffer width height}
    (h : makeDeltas simd mode first rest = some deltas)
    (hdelta : makeDelta simd mode (DeltaData.ofPixmap simd (rest.getLastD first)) (DeltaData.ofPixmap simd cur) =
      some delta) : makeDeltas simd mode first (rest ++ [cur]) = some (deltas ++ [delta]) := by
  induction rest generalizing first deltas with
  | nil =>
    obtain rfl : [] = deltas := Option.some.inj h
    rw [List.getLastD_nil] at hdelta
    simp [makeDeltas, hdelta]
  | cons b rest ih =>
    rw [List.getLastD_cons] at hdelta
    simp only [makeDeltas, Option.bind_eq_bind, Option.bind_eq_some_iff, Option.some.injEq] at h
    obtain ⟨d, hd, ds, hds, rfl⟩ := h
    simp [makeDeltas, hd, ih hds hdelta]

/-- The chain is a keyframe and the deltas between the bitmaps after it, compressed, up to the bitmap of its last
frame. -/
theorem Encoded.chain {fs : List TileFrame} (h : Encoded zstd simd mode bitmap fs) {last : TileFrame}
    (hlast : fs.getLast? = some last) :
    ∃ first rest deltas, makeDeltas simd mode (bitmap first) rest = some deltas ∧
      rest.getLastD (bitmap first) = bitmap last.version ∧
      ∃ frames : List (List UInt8 × List UInt8), (∀ f ∈ frames, zstd.Compresses f.1 f.2) ∧
        Frame.data (Frame.chain fs) = frames.flatMap Prod.snd ∧
        keyframeOf simd mode bitmap first ++ deltas.flatten = frames.flatMap Prod.fst := by
  induction h generalizing last with
  | nil => cases hlast
  | @concat fs wid data hfs hdata ih =>
    obtain rfl : TileBlobs.frame wid data = last := by simpa using hlast
    obtain ⟨frame, hframe, rfl⟩ | ⟨base, delta, hbase, hdelta, hdata⟩ := hdata
    · -- a keyframe starts the chain again
      refine ⟨wid, [], [], rfl, rfl, [(keyframeOf simd mode bitmap wid, frame)], by simpa using hframe, ?_, by simp⟩
      rw [Frame.chain_concat, if_pos (by simp [TileBlobs.frame, TileBlobs.isKeyframe]), Frame.data_singleton]
      simp [TileBlobs.frame]
    · obtain ⟨prev, hprev, rfl⟩ := Option.map_eq_some_iff.1 hbase
      obtain ⟨first, rest, deltas, hdeltas, hrest, frames, hframes, hsnd, hfst⟩ := ih hprev
      have hmake : makeDeltas simd mode (bitmap first) (rest ++ [bitmap wid]) = some (deltas ++ [delta]) :=
        makeDeltas_concat hdeltas (by rw [hrest]; exact hdelta)
      have hrestarts : (TileBlobs.frame wid data).restarts = false := by
        split at hdata
        · rw [hdata]
          rfl
        · obtain ⟨frame, -, rfl⟩ := hdata
          rfl
      refine ⟨first, rest ++ [bitmap wid], deltas ++ [delta], hmake, by simp [TileBlobs.frame], ?_⟩
      rw [Frame.chain_concat, hrestarts, if_neg Bool.false_ne_true, Frame.data_append, Frame.data_singleton, hsnd,
        List.flatten_append, ← List.append_assoc, hfst]
      split at hdata
      case isTrue hempty =>
        refine ⟨frames, hframes, ?_, by simp [hempty]⟩
        rw [hdata]
        simp [TileBlobs.frame]
      case isFalse =>
        obtain ⟨frame, hframe, rfl⟩ := hdata
        refine ⟨frames ++ [(delta, frame)], ?_, by simp [TileBlobs.frame], by simp⟩
        intro f hf
        obtain hf | hf := List.mem_append.1 hf
        · exact hframes f hf
        · rw [List.mem_singleton.1 hf]
          exact hframe

/-- The worker's decoder on such a stream. -/
theorem decodeKeyframeTile_deltas (haccept : createDeltaAccepts width height = true) {first : Nat}
    {rest : List (Subbuffer width height)} {deltas : List (List UInt8)}
    (h : makeDeltas simd mode (bitmap first) rest = some deltas) :
    ∃ offset, decodeKeyframeTile (keyframeOf simd mode bitmap first ++ deltas.flatten) width height =
      some ((rest.getLastD (bitmap first)).pixels.flatMap mode.clientBytes, offset) := by
  obtain ⟨hw, hh⟩ := createDeltaAccepts_le haccept
  have hunrle := unrle_packKeyframe simd mode (bitmap first) hw deltas.flatten (List.replicate (width * height * 4) 0)
    (by simp [Nat.mul_comm])
  obtain ⟨deltas', hdeltas', hupdate⟩ := updateChunks_makeDeltas simd mode hw hh
    ((keyframeOf simd mode bitmap first ++ deltas.flatten).length + 1) (bitmap first) rest
    (keyframeOf simd mode bitmap first)
  obtain rfl : deltas = deltas' := Option.some.inj (h.symm.trans hdeltas')
  refine ⟨(keyframeOf simd mode bitmap first ++ deltas.flatten).length, ?_⟩
  simp only [decodeKeyframeTile, keyframeOf, hunrle, Option.bind_eq_bind, Option.bind_some, updateImageFromDeltas]
  exact hupdate (by simp only [List.length_append]; omega)

end Stream

namespace TileBroker

variable {b b' : TileBroker} {zstd : Zstd} {simd : Simd} {mode : TileMode}
  {bitmap : TileKey → Nat → Subbuffer width height}

/-! ### The frames of a run -/

theorem TileMove.frames (h : TileMove (· = 0) b b') (key : TileKey) : b'.frames key = b.frames key := by
  cases h with
  | send sid _ _ => exact frames_sendTileNow sid _ _ key
  | reset sid desc =>
    unfold resetTileSeq
    split <;> rfl
  | subscribe tile sid now => exact frames_of_silent rfl (by simp [Silent]) key
  | render tiles => exact frames_of_silent rfl (by simp [Silent]) key
  | setRequested sid _ =>
    unfold setRequestedTiles
    split <;> rfl
  | bump => rfl

theorem TileMoves.frames (h : TileMoves (· = 0) b b') (key : TileKey) : b'.frames key = b.frames key := by
  induction h with
  | refl => rfl
  | tail _ hm ih => exact (TileMove.frames hm key).trans ih

theorem frames_foldl_sendTileNow (desc : TileDesc) (tile : TileData) (sids : List Nat) (key : TileKey) :
    (sids.foldl (fun b sid => b.sendTileNow sid desc tile) b).frames key = b.frames key := by
  induction sids generalizing b with
  | nil => rfl
  | cons sid sids ih => rw [List.foldl_cons, ih, frames_sendTileNow]

/-- A reply is stored as the next frame of its tile, or discarded. -/
theorem frames_saveTileAndNotify (b : TileBroker) (desc : TileDesc) (data : List UInt8) (key : TileKey) :
    (b.saveTileAndNotify desc data).frames key = b.frames key ∨ key = desc.key ∧
      (b.saveTileAndNotify desc data).frames key = b.frames key ++ [TileBlobs.frame desc.wireId data] := by
  have hframes : (b.saveTileAndNotify desc data).frames key = b.frames key ++
      [if (b.tileCache.saveDataToCache desc data).2.isSome then TileLog.stored desc data
        else .discarded desc (b.tileCache.findTileBeingRendered desc)].filterMap (TileLog.frame key) := by
    unfold saveTileAndNotify
    generalize b.tileCache.saveDataToCache desc data = r
    obtain ⟨cache, tile⟩ := r
    have hnote : ∀ entry, (({ b with tileCache := cache } : TileBroker).note entry).frames key =
        b.frames key ++ [entry].filterMap (TileLog.frame key) := fun entry => frames_append rfl key
    rw [← hnote]
    -- the messages to the subscribers and the forgotten render leave the frames
    cases b.tileCache.findTileBeingRendered desc with
    | none => rfl
    | some t =>
      cases tile with
      | none => rfl
      | some tile => exact frames_foldl_sendTileNow desc tile t.subscribers key
  rw [hframes]
  cases (b.tileCache.saveDataToCache desc data).2 with
  | none => exact .inl (by simp [TileLog.frame])
  | some tile =>
    by_cases hkey : desc.key = key
    · exact .inr ⟨hkey.symm, by simp [TileLog.frame, hkey]⟩
    · exact .inl (by simp [TileLog.frame, hkey])

/-! ### Rendered replies -/

/-- The reply encodes the bitmap that was rendered for its wire id. -/
def IsRendered (zstd : Zstd) (simd : Simd) (mode : TileMode) (bitmap : TileKey → Nat → Subbuffer width height)
    (b : TileBroker) : Event → Prop
  | .reply desc data =>
    IsEncoded zstd simd mode (bitmap desc.key) ((b.frames desc.key).getLast?.map Frame.version) desc.wireId data
  | _ => True

theorem encoded_step {e : Event} (hreq : RequestsOk (· = 0) b) (hwid : e.RequestWid (· = 0))
    (h : ∀ key, Encoded zstd simd mode (bitmap key) (b.frames key)) (hok : b.IsRendered zstd simd mode bitmap e)
    (hs : step b e = some b') (key : TileKey) : Encoded zstd simd mode (bitmap key) (b'.frames key) := by
  cases step_cases hreq hwid hs with
  | joins | leaves | closes | setCanonicalViewId | invalidatetiles | setMaxCacheSize => exact h key
  | moves _ hm =>
    rw [TileMoves.frames hm]
    exact h key
  | @reply desc data _ =>
    obtain hframes | ⟨rfl, hframes⟩ := b.frames_saveTileAndNotify desc data key
    · rw [hframes]
      exact h key
    · rw [hframes]
      exact .concat (h _) hok

/-- In every run in which the kit answers with growing wire ids, each delta is to the bitmap of the frame stored
before it, and requests carry no wire id of their own, whatever else is requested, invalidated or evicted: what a
client has been sent of a tile decodes to the bitmap rendered for the wire id it was last sent. -/
theorem client_image (haccept : createDeltaAccepts width height = true)
    (h : Run.Reachable (· = initial false) step (fun b e => b.ChainOrder e ∧ b.IsRendered zstd simd mode bitmap e) b)
    {sid w : Nat} {key : TileKey} (hw : (b.client sid key).wid = some w) :
    ∃ data offset, zstd.decompress (b.client sid key).blobs = some data ∧
      decodeKeyframeTile data width height = some ((bitmap key w).pixels.flatMap mode.clientBytes, offset) := by
  obtain ⟨⟨hin, -⟩, hencoded⟩ := h.invariant (fun b => (b.InStep ∧ RequestsOk (· = 0) b) ∧
      ∀ key, Encoded zstd simd mode (bitmap key) (b.frames key))
    (by
      rintro _ rfl
      exact ⟨⟨initial_inStep, fun _ _ ht => absurd ht (by simp [requestedTiles, initial])⟩, fun _ => .nil⟩)
    (fun b e b' _ hb hok hs => ⟨step_inStep hb.1 hok.1 hs, encoded_step hb.1.2 hok.1.2 hb.2 hok.2 hs⟩)
  -- the frames up to `w` end with the frame of `w`
  obtain ⟨f, hf, rfl⟩ := hin.sent sid key w hw
  obtain ⟨l, r, hlr⟩ := List.append_of_mem hf
  have hordered := hin.ordered key
  rw [hlr, Frame.Ordered, List.pairwise_append, List.pairwise_cons] at hordered
  obtain ⟨-, ⟨hafter, -⟩, hbefore⟩ := hordered
  have hupTo : Frame.upTo f.version (b.frames key) = l ++ [f] := by
    rw [hlr, Frame.upTo, List.filter_append, List.filter_cons_of_pos (by simp)]
    have hl : l.filter (fun g => g.version ≤ f.version) = l := by
      refine List.filter_eq_self.2 fun g hg => ?_
      simpa using Nat.le_of_lt (hbefore g hg f List.mem_cons_self)
    have hr : r.filter (fun g => g.version ≤ f.version) = [] := by
      refine List.filter_eq_nil_iff.2 fun g hg => ?_
      simpa using hafter g hg
    rw [hl, hr]
  have hstart := hencoded key
  rw [hlr, ← List.singleton_append, ← List.append_assoc] at hstart
  obtain ⟨first, rest, deltas, hdeltas, hrest, frames, hframes, hsnd, hfst⟩ :=
    hstart.of_append.chain (show (l ++ [f]).getLast? = some f by simp)
  obtain ⟨offset, hdecode⟩ := decodeKeyframeTile_deltas haccept hdeltas
  refine ⟨keyframeOf simd mode (bitmap key) first ++ deltas.flatten, offset, ?_, ?_⟩
  · rw [hin.holds sid key f.version hw, hupTo, hsnd, hfst]
    exact zstd.decompress_frames frames hframes
  · rw [hdecode, hrest]

/-! ### A keyframe and a delta -/

/-- What zstd writes in front of a content of `n` bytes, fewer than 256, that stays as it is: the magic number, the
flag of a single segment with the size of the content in one byte, and the header of the last block, which is raw. -/
def rawFrameHeader (n : Nat) : List UInt8 :=
  [0x28, 0xb5, 0x2f, 0xfd, 0x20, n.toUInt8, (8 * n + 1).toUInt8, ((8 * n + 1) / 256).toUInt8, 0]

def rawFrame (content : List UInt8) : List UInt8 := rawFrameHeader content.length ++ content

/-- At most `fuel` such frames. -/
def readRawFrames : Nat → List UInt8 → Option (List UInt8)
  | 0, bytes => if bytes = [] then some [] else none
  | fuel + 1, bytes =>
    let n := (bytes.getD 5 0).toNat
    if bytes = [] then some []
    else if bytes.take 9 = rawFrameHeader n ∧ 9 + n ≤ bytes.length then
      (readRawFrames fuel (bytes.drop (9 + n))).map ((bytes.drop 9).take n ++ ·)
    else none

theorem readRawFrames_flatMap {frames : List (List UInt8 × List UInt8)} {fuel : Nat} (hfuel : frames.length ≤ fuel)
    (h : ∀ f ∈ frames, f.1.length < 256 ∧ f.2 = rawFrame f.1) :
    readRawFrames fuel (frames.flatMap Prod.snd) = some (frames.flatMap Prod.fst) := by
  induction frames generalizing fuel with
  | nil => cases fuel <;> rfl
  | cons f frames ih =>
    obtain ⟨⟨hlt, hf⟩, hrest⟩ := List.forall_mem_cons.1 h
    obtain ⟨fuel, rfl⟩ : ∃ n, fuel = n + 1 := ⟨fuel - 1, by simp at hfuel; omega⟩
    have hsize : f.1.length.toUInt8.toNat = f.1.length := by
      rw [Nat.toUInt8, UInt8.toNat_ofNat']
      omega
    have hbytes : (f :: frames).flatMap Prod.snd = rawFrameHeader f.1.length ++ (f.1 ++ frames.flatMap Prod.snd) := by
      rw [List.flatMap_cons, hf, rawFrame, List.append_assoc]
    rw [hbytes, readRawFrames]
    have hfifth : ((rawFrameHeader f.1.length ++ (f.1 ++ frames.flatMap Prod.snd)).getD 5 0).toNat = f.1.length :=
      hsize
    have hnine : (rawFrameHeader f.1.length).length = 9 := rfl
    have hne : rawFrameHeader f.1.length ++ (f.1 ++ frames.flatMap Prod.snd) ≠ [] := nofun
    rw [hfifth, if_neg hne, List.take_left' hnine, if_pos ⟨rfl, by simp [hnine]⟩, ← List.drop_drop,
      List.drop_left' hnine, List.drop_left, List.take_left, ih (by simpa using hfuel) hrest]
    rfl

/-- Zstd on frames of one raw block. -/
def Zstd.raw : Zstd where
  Compresses content frame := content.length < 256 ∧ frame = rawFrame content
  decompress bytes := readRawFrames bytes.length bytes
  decompress_frames frames h := by
    refine readRawFrames_flatMap ?_ h
    have hlength : ∀ n ∈ frames.map fun f => f.2.length, 1 ≤ n := by
      intro n hn
      obtain ⟨f, hf, rfl⟩ := List.mem_map.1 hn
      rw [(h f hf).2]
      exact Nat.succ_le_succ (Nat.zero_le _)
    rw [List.length_flatMap]
    simpa using List.length_le_sum_of_one_le _ hlength

/-- The red tile, and then the one with a green pixel. -/
def renderedTiles (wid : Nat) : Subbuffer 2 2 := if wid = 5 then redTile else greenDotTile

def renderedReplies : List Event :=
  [.joins 0, .tile 0 firstTile 0,
    .reply ((firstTile.setVersion 1).setWireId 5) (90 :: rawFrame (keyframeOf ⟨false, false⟩ .rgba renderedTiles 5)),
    .reply ((firstTile.setVersion 1).setWireId 6)
      (68 :: rawFrame ((deltaOf ⟨false, false⟩ .rgba renderedTiles 5 6).getD [])),
    .tile 0 firstTile 0]

/-- The condition on a reply, evaluated. -/
def isRawReply (b : TileBroker) : Event → Bool
  | .reply desc data =>
    let keyframe := keyframeOf ⟨false, false⟩ .rgba renderedTiles desc.wireId
    keyframe.length < 256 && data == 90 :: rawFrame keyframe ||
      (b.frames desc.key).getLast?.any fun f => (deltaOf ⟨false, false⟩ .rgba renderedTiles f.version desc.wireId).any
        fun delta => delta != [] && delta.length < 256 && data == 68 :: rawFrame delta
  | _ => true

theorem isRendered_of_eq_true {e : Event} (h : b.isRawReply e = true) :
    b.IsRendered Zstd.raw ⟨false, false⟩ .rgba (fun _ => renderedTiles) e := by
  cases e with
  | reply desc data =>
    simp only [isRawReply, Bool.or_eq_true, Bool.and_eq_true, beq_iff_eq, bne_iff_ne, decide_eq_true_eq,
      Option.any_eq_true] at h
    obtain ⟨hlt, rfl⟩ | ⟨f, hf, delta, hdelta, ⟨hne, hlt⟩, rfl⟩ := h
    · exact .inl ⟨_, ⟨hlt, rfl⟩, rfl⟩
    · refine .inr ⟨f.version, delta, by rw [hf]; rfl, hdelta, ?_⟩
      rw [if_neg hne]
      exact ⟨_, ⟨hlt, rfl⟩, rfl⟩
  | _ => exact True.intro

theorem client_image_renderedReplies : ∃ b : TileBroker, (b.client 0 firstTile.key).wid = some 6 ∧
    ∃ data offset, Zstd.raw.decompress (b.client 0 firstTile.key).blobs = some data ∧
      decodeKeyframeTile data 2 2 = some (greenDotTile.pixels.flatMap TileMode.rgba.clientBytes, offset) := by
  obtain ⟨b, hr, hb⟩ : ∃ b, Run.Reachable (· = initial false)
      (Run.guarded step fun b e => b.repliesInOrder e && e.withoutWireId && b.isRawReply e) Run.Any b ∧
      ((b.client 0 firstTile.key).wid == some 6) = true :=
    Run.Reachable.exists_of_run (initial false) renderedReplies rfl (by decide +kernel)
  have hwid := beq_iff_eq.1 hb
  have hr : Run.Reachable (· = initial false) step
      (fun b e => b.ChainOrder e ∧ b.IsRendered Zstd.raw ⟨false, false⟩ .rgba (fun _ => renderedTiles) e) b := by
    refine hr.of_guarded fun b e hok => ?_
    simp only [Bool.and_eq_true] at hok
    exact ⟨⟨repliesInOrder_of_eq_true hok.1.1, Event.requestWid_of_withoutWireId hok.1.2⟩,
      isRendered_of_eq_true hok.2⟩
  exact ⟨b, hwid, client_image (by decide) hr hwid⟩

end TileBroker

end CollaboraOnline
