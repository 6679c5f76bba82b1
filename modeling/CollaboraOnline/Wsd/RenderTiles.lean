import CollaboraOnline.Wsd.TileCombinedText

/-!
# The response with rendered tiles

The tasks that compress the tiles of a request finish in any order; each appends its bytes and its description under a
lock.  The broker cuts the payload by the sizes of the descriptions.  Bytes are characters.
-/

namespace CollaboraOnline

/-! ### The kit -/

namespace TileCombined

/-- The builder at the start. -/
def uninitialized : TileCombined where
  canonicalViewId := -1
  part := -1
  mode := -1
  width := -1
  height := -1
  tileWidth := -1
  tileHeight := -1
  tiles := []
  hasWids := false
  hasOldWids := false
  isCombined := false
  hasImgSizes := false

def initFrom (c : TileCombined) (desc : TileDesc) : TileCombined where
  toCombineParams := desc.combineParams
  tiles := c.tiles ++ [desc]
  hasWids := desc.wireId ≠ 0
  hasOldWids := desc.oldWireId ≠ 0
  isCombined := false
  hasImgSizes := desc.imgSize ≠ 0

/-- The last tile with its wire id and its size. -/
def pushRendered (c : TileCombined) (desc : TileDesc) (wireId : Nat) (imgSize : Nat) : TileCombined :=
  let c := if c.part < 0 ∧ c.mode < 0 ∧ c.width ≤ 0 then c.initFrom desc else { c with tiles := c.tiles ++ [desc] }
  { c with
    tiles := c.tiles.dropLast ++
      (c.tiles.getLast?.map fun tile => { tile with wireId, imgSize := wrapInt imgSize }).toList
    hasWids := true, hasImgSizes := true, isCombined := 1 < c.tiles.length }

end TileCombined

namespace RenderTiles

/-- What the tasks share. -/
structure Rendered where
  output : List Char := []
  renderedTiles : TileCombined := .uninitialized

/-- The end of a task under the lock; a picture that cannot be encoded adds nothing. -/
def finish (tile : TileDesc) (wireId : Nat) (data : Option (List Char)) (s : Rendered) : Rendered :=
  match data with
  | none => s
  | some data =>
    { output := s.output ++ data, renderedTiles := s.renderedTiles.pushRendered tile wireId data.length }

/-- The wire id of a tile, after the last one. -/
def wireIdAt (nextId : Nat) (tileIndex : Nat) : Nat := (nextId + tileIndex + 1) % 2 ^ 32

/-- The tasks finish in this order. -/
def run (tiles : List TileDesc) (nextId : Nat) (compress : Fin tiles.length → Option (List Char))
    (order : List (Fin tiles.length)) : Rendered :=
  order.foldl (fun s i => finish (tiles.get i) (wireIdAt nextId i) (compress i) s) {}

/-- The message of `doRender` for a combined request. -/
def response (s : Rendered) : List Char := s.renderedTiles.serialize "tilecombine:".toList "\n".toList ++ s.output

end RenderTiles

/-! ### The broker -/

namespace DocumentBroker

/-- What `saveTileAndNotify` is called with: a tile, and the place of its bytes in the message. -/
structure SavedTile where
  tile : TileDesc
  offset : Nat
  size : Nat

/-- The loop over the tiles. -/
def savedFrom (offset : Nat) : List TileDesc → List SavedTile
  | [] => []
  | tile :: tiles => ⟨tile, offset, tile.imgSize.toNat⟩ :: savedFrom (offset + tile.imgSize.toNat) tiles

def firstLine (message : List Char) : List Char := message.takeWhile (· != '\n')

/-- An empty response, and one that throws, is dropped. -/
def handleTileCombinedResponse (message : List Char) : List SavedTile :=
  if message = [] ∨ (firstLine message).length ≤ message.length - 1 then
    match TileCombined.parse (firstLine message) with
    | some tileCombined => savedFrom ((firstLine message).length + 1) tileCombined.tiles
    | none => []
  else []

/-- The bytes at the place. -/
def SavedTile.bytes (s : SavedTile) (message : List Char) : List Char := (message.drop s.offset).take s.size

/-- Every byte that is read is in the message. -/
def ReadsWithin (message : List Char) : Prop :=
  ∀ s ∈ handleTileCombinedResponse message, ∀ i, s.offset ≤ i → i < s.offset + s.size → i < message.length

/-- The sum of the sizes that the first line of a response announces. -/
def announced (message : List Char) : Nat :=
  if '\n' ∈ message then
    match TileCombined.parse (firstLine message) with
    | some tileCombined => (tileCombined.tiles.map fun tile => tile.imgSize.toNat).sum
    | none => 0
  else 0

end DocumentBroker

/-! ### What the kit sends -/

namespace TileCombined

theorem tiles_pushRendered (c : TileCombined) (desc : TileDesc) (wireId imgSize : Nat) :
    (c.pushRendered desc wireId imgSize).tiles = c.tiles ++ [{ desc with wireId, imgSize := wrapInt imgSize }] := by
  have hlast (d : TileCombined) (hd : d.tiles = c.tiles ++ [desc]) :
      d.tiles.dropLast ++ (d.tiles.getLast?.map fun tile => { tile with wireId, imgSize := wrapInt imgSize }).toList =
        c.tiles ++ [{ desc with wireId, imgSize := wrapInt imgSize }] := by
    rw [hd, List.dropLast_concat, List.getLast?_concat]
    rfl
  unfold pushRendered
  dsimp only
  split
  · exact hlast (c.initFrom desc) rfl
  · exact hlast { c with tiles := c.tiles ++ [desc] } rfl

end TileCombined

namespace RenderTiles

open TileCombined (uninitialized tiles_pushRendered)
open DocumentBroker

variable {tiles : List TileDesc} {nextId : Nat} {compress : Fin tiles.length → Option (List Char)}
  {params : CombineParams}

/-- A tile with its bytes, as it was pushed. -/
def pushed (nextId : Nat) (compress : Fin tiles.length → Option (List Char)) (i : Fin tiles.length) :
    Option (TileDesc × List Char) :=
  (compress i).map fun data =>
    ({ tiles.get i with wireId := wireIdAt nextId i, imgSize := wrapInt data.length }, data)

/-- The builder after some tasks: descriptions and bytes are in the same order. -/
structure Built (params : CombineParams) (items : List (TileDesc × List Char)) (s : Rendered) : Prop where
  output : s.output = (items.map Prod.snd).flatten
  tiles : s.renderedTiles.tiles = items.map Prod.fst
  start : items = [] → s.renderedTiles = uninitialized
  later : items ≠ [] → s.renderedTiles.toCombineParams = params ∧ s.renderedTiles.hasWids = true ∧
  s.renderedTiles.hasImgSizes = true

theorem built_run (hparams : ∀ tile ∈ tiles, 0 ≤ tile.part ∧ tile.combineParams = params)
    (order : List (Fin tiles.length)) :
    Built params (order.filterMap (pushed nextId compress)) (run tiles nextId compress order) := by
  induction order using List.reverseRecOn with
  | nil => exact ⟨rfl, rfl, fun _ => rfl, fun h => absurd rfl h⟩
  | append_singleton order i ih =>
    have hstep : run tiles nextId compress (order ++ [i]) =
        finish (tiles.get i) (wireIdAt nextId i) (compress i) (run tiles nextId compress order) := by
      unfold run
      rw [List.foldl_append, List.foldl_cons, List.foldl_nil]
    obtain ⟨hpart, hcombine⟩ := hparams _ (List.get_mem tiles i)
    rw [hstep, List.filterMap_append, List.filterMap_cons, List.filterMap_nil]
    cases hdata : compress i with
    | none =>
      have hpushed : pushed nextId compress i = none := by rw [pushed, hdata, Option.map_none]
      rw [hpushed]
      simpa [finish] using ih
    | some data =>
      have hpushed : pushed nextId compress i =
          some ({ tiles.get i with wireId := wireIdAt nextId i, imgSize := wrapInt data.length }, data) := by
        rw [pushed, hdata, Option.map_some]
      rw [hpushed]
      refine ⟨?_, ?_, fun h => ?_, fun _ => ?_⟩
      · show _ ++ data = _
        rw [ih.output]
        simp
      · show (TileCombined.pushRendered _ _ _ _).tiles = _
        rw [tiles_pushRendered, ih.tiles]
        simp
      · simp at h
      · -- The first tile gives the builder its parameters.
        refine ⟨?_, rfl, rfl⟩
        show (TileCombined.pushRendered _ _ _ _).toCombineParams = params
        unfold TileCombined.pushRendered
        dsimp only
        by_cases hitems : order.filterMap (pushed nextId compress) = []
        · rw [ih.start hitems, if_pos (by decide)]
          exact hcombine
        · obtain ⟨hsame, -⟩ := ih.later hitems
          have hnonneg : ¬ ((run tiles nextId compress order).renderedTiles.part < 0 ∧
              (run tiles nextId compress order).renderedTiles.mode < 0 ∧
              (run tiles nextId compress order).renderedTiles.width ≤ 0) := by
            have hpart' : (run tiles nextId compress order).renderedTiles.part = (tiles.get i).part := by
              rw [hsame, ← hcombine]
              rfl
            omega
          rw [if_neg hnonneg]
          exact hsame

end RenderTiles

/-! ### What the broker reads -/

namespace DocumentBroker

/-- The bytes that are read are those between the start and the sum of the sizes. -/
theorem reads_iff (tiles : List TileDesc) (offset i : Nat) :
    (∃ s ∈ savedFrom offset tiles, s.offset ≤ i ∧ i < s.offset + s.size) ↔
      offset ≤ i ∧ i < offset + (tiles.map fun tile => tile.imgSize.toNat).sum := by
  induction tiles generalizing offset with
  | nil => simp [savedFrom]
  | cons tile tiles ih =>
    rw [savedFrom]
    simp only [List.mem_cons, exists_eq_or_imp, ih, List.map_cons, List.sum_cons]
    omega

/-- Each tile is saved with its own bytes. -/
theorem bytes_savedFrom {message rest : List Char} {items : List (TileDesc × List Char)} {offset : Nat}
    (hsize : ∀ p ∈ items, p.1.imgSize = p.2.length)
    (hdrop : message.drop offset = (items.map Prod.snd).flatten ++ rest) :
    (savedFrom offset (items.map Prod.fst)).map (fun s => (s.tile, s.bytes message)) = items := by
  induction items generalizing offset with
  | nil => rfl
  | cons p items ih =>
    obtain ⟨hp, hsize⟩ := List.forall_mem_cons.1 hsize
    have hp : p.1.imgSize.toNat = p.2.length := by rw [hp, Int.toNat_natCast]
    rw [List.map_cons, List.flatten_cons, List.append_assoc] at hdrop
    have hbytes : (message.drop offset).take p.1.imgSize.toNat = p.2 := by
      rw [hdrop, hp, List.take_left]
    have hnext : message.drop (offset + p.1.imgSize.toNat) = (items.map Prod.snd).flatten ++ rest := by
      rw [← List.drop_drop, hdrop, hp, List.drop_left]
    rw [List.map_cons, savedFrom, List.map_cons, ih hsize hnext]
    unfold SavedTile.bytes
    dsimp only
    rw [hbytes]

theorem length_firstLine {message : List Char} (h : '\n' ∈ message) :
    (firstLine message).length < message.length := by
  have hle := (List.takeWhile_prefix (l := message) (· != '\n')).length_le
  have hne : (firstLine message).length ≠ message.length := by
    intro heq
    have hself : firstLine message = message := (List.takeWhile_prefix _).eq_of_length heq
    have hall := List.takeWhile_eq_self_iff.1 hself '\n' h
    simp at hall
  unfold firstLine at hne ⊢
  omega

/-- No read goes past the message if and only if the announced sizes do not exceed the payload. -/
theorem readsWithin_iff (message : List Char) :
    ReadsWithin message ↔ announced message ≤ message.length - (firstLine message).length - 1 := by
  unfold ReadsWithin announced handleTileCombinedResponse
  by_cases hline : '\n' ∈ message
  · have hlength := length_firstLine hline
    rw [if_pos hline, if_pos (.inr (by omega))]
    cases hparse : TileCombined.parse (firstLine message) with
    | none => simp
    | some tileCombined =>
      dsimp only
      have hreads := reads_iff tileCombined.tiles ((firstLine message).length + 1)
      constructor
      · intro h
        -- The last byte that is announced is read.
        by_contra hgt
        obtain ⟨s, hs, hfrom, hto⟩ := (hreads message.length).2 (by omega)
        exact absurd (h s hs message.length hfrom hto) (lt_irrefl _)
      · intro hle s hs i hfrom hto
        have := (hreads i).1 ⟨s, hs, hfrom, hto⟩
        omega
  · rw [if_neg hline]
    have hdropped : (if message = [] ∨ (firstLine message).length ≤ message.length - 1 then
        match TileCombined.parse (firstLine message) with
        | some tileCombined => savedFrom ((firstLine message).length + 1) tileCombined.tiles
        | none => []
      else []) = [] := by
      by_cases hempty : message = []
      · rw [hempty]
        decide +kernel
      · have hself : firstLine message = message := by
          refine List.takeWhile_eq_self_iff.2 fun c hc => ?_
          rw [bne_iff_ne]
          rintro rfl
          exact hline hc
        have hpos := List.length_pos_of_ne_nil hempty
        rw [if_neg]
        rw [hself]
        rintro (hnil | hle)
        · exact hempty hnil
        · omega
    constructor
    · intro _
      exact Nat.zero_le _
    · intro _ s hs
      rw [hdropped] at hs
      cases hs

end DocumentBroker

/-! ### Every tile gets its bytes -/

namespace RenderTiles

open TileCombined (uninitialized)
open DocumentBroker

variable {tiles : List TileDesc} {nextId : Nat} {compress : Fin tiles.length → Option (List Char)}
  {params : CombineParams}

/-- The first line is the text of the descriptions, and the payload is behind it. -/
theorem firstLine_response (s : Rendered) :
    firstLine (response s) = s.renderedTiles.serialize "tilecombine:".toList [] ∧
      (response s).drop ((firstLine (response s)).length + 1) = s.output ∧ '\n' ∈ response s := by
  have hsplit : response s = s.renderedTiles.serialize "tilecombine:".toList [] ++ '\n' :: s.output := by
    unfold response TileCombined.serialize
    simp
  have hnone : ∀ c ∈ s.renderedTiles.serialize "tilecombine:".toList [], (c != '\n') = true := by
    intro c hc
    unfold TileCombined.serialize at hc
    rw [List.append_nil] at hc
    rcases List.mem_append.1 hc with hc | hc
    · exact List.all_eq_true.1 (by decide : "tilecombine:".toList.all (· != '\n') = true) c hc
    · obtain ⟨f, hf, hc⟩ := List.mem_flatMap.1 hc
      rcases List.mem_cons.1 hc with rfl | hc
      · decide
      · have hword := (TileCombined.field_words s.renderedTiles _ (List.mem_map_of_mem hf)).2 c hc
        rw [bne_iff_ne]
        rintro rfl
        exact absurd hword (by decide)
  have hfirst : firstLine (response s) = s.renderedTiles.serialize "tilecombine:".toList [] := by
    rw [hsplit, firstLine, List.takeWhile_append_of_pos hnone, List.takeWhile_cons_of_neg (by simp), List.append_nil]
  refine ⟨hfirst, ?_, ?_⟩
  · rw [hfirst, hsplit, ← List.drop_drop, List.drop_left]
    rfl
  · rw [hsplit]
    simp

theorem mem_pushed {order : List (Fin tiles.length)} {p : TileDesc × List Char}
    (hp : p ∈ order.filterMap (pushed nextId compress)) : ∃ i data, compress i = some data ∧
      p = ({ tiles.get i with wireId := wireIdAt nextId i, imgSize := wrapInt data.length }, data) := by
  obtain ⟨i, -, hi⟩ := List.mem_filterMap.1 hp
  obtain ⟨data, hdata, rfl⟩ := Option.map_eq_some_iff.1 hi
  exact ⟨i, data, hdata, rfl⟩

/-- A size that is an `int` is announced as it is. -/
theorem wrapInt_length {data : List Char} (h : (data.length : Int) ≤ intMax) : wrapInt data.length = data.length := by
  have hlt : (data.length : Int) < 2 ^ 32 := lt_of_le_of_lt h (by decide)
  rw [wrapInt_of_nonneg (Int.natCast_nonneg _) hlt, if_pos h]

/-- The wire id and the size are no part of the key; here they are variables, so that no size is computed. -/
theorem fields_pushed (tile : TileDesc) (wireId : Nat) (imgSize : Int) (data : List Char) :
    (({ tile with wireId := wireId, imgSize := imgSize } : TileDesc).key, wireId, (data.length : Int), data) =
      (tile.key, wireId, (data.length : Int), data) := rfl

theorem map_pushed (nextId : Nat) (compress : Fin tiles.length → Option (List Char))
    (order : List (Fin tiles.length)) :
    ((order.filterMap (pushed nextId compress)).map fun p => (p.1.key, p.1.wireId, (p.2.length : Int), p.2)) =
      order.filterMap fun i => (compress i).map fun data =>
        ((tiles.get i).key, wireIdAt nextId i, (data.length : Int), data) := by
  rw [List.map_filterMap]
  refine List.filterMap_congr fun i _ => ?_
  unfold pushed
  rw [Option.map_map]
  refine Option.map_congr fun data _ => ?_
  exact fields_pushed (tiles.get i) (wireIdAt nextId i) (wrapInt data.length) data

/-- What the broker reads of a description that was pushed. -/
theorem received_spec {c : TileCombined} {tile : TileDesc} (hcombine : tile.combineParams = params)
    (himgSizes : c.hasImgSizes = true) (hwids : c.hasWids = true) (wireId : Nat) (imgSize : Int) {t : TileDesc}
    (ht : t = { tile with wireId := wireId, imgSize := imgSize }) :
    (TileCombined.tileOf params (c.writtenFields t)).key = t.key ∧
      (TileCombined.tileOf params (c.writtenFields t)).wireId = t.wireId ∧
      (TileCombined.tileOf params (c.writtenFields t)).imgSize = t.imgSize ∧
      (tile.IsTile → 0 ≤ t.imgSize → (TileCombined.tileOf params (c.writtenFields t)).isValid = true) := by
  have himg : (c.writtenFields t).imgSize = t.imgSize := by
    unfold TileCombined.writtenFields
    rw [himgSizes, if_pos rfl]
  have hwid : (c.writtenFields t).wireId = t.wireId := by
    unfold TileCombined.writtenFields
    rw [hwids, if_pos rfl]
  subst ht hcombine
  refine ⟨rfl, hwid, himg, fun htile hpos => ?_⟩
  obtain ⟨hview, hpart, hmode, hwidth, hheight, hx, hy, htileWidth, htileHeight, -⟩ := htile.admitted
  refine TileDesc.isValid_iff.2 ⟨hview, hpart, hmode, hwidth, hheight, hx, hy, htileWidth, htileHeight, ?_⟩
  show 0 ≤ (c.writtenFields _).imgSize
  rw [himg]
  exact hpos

/-- A tile that was pushed is one of the request with a wire id and a size that are announced as they are. -/
theorem pushed_spec (htiles : ∀ tile ∈ tiles, tile.IsTile ∧ tile.combineParams = params)
    (hsize : ∀ i data, compress i = some data → (data.length : Int) ≤ intMax) {order : List (Fin tiles.length)}
    {p : TileDesc × List Char} (hp : p ∈ order.filterMap (pushed nextId compress)) :
    ∃ tile : TileDesc, tile.IsTile ∧ tile.combineParams = params ∧ p.1.imgSize = (p.2.length : Int) ∧
      (p.2.length : Int) ≤ intMax ∧ p.1 = { tile with wireId := p.1.wireId, imgSize := p.1.imgSize } ∧
      p.1.wireId < 2 ^ 32 := by
  obtain ⟨i, data, hdata, rfl⟩ := mem_pushed hp
  obtain ⟨htile, hcombine⟩ := htiles _ (List.get_mem tiles i)
  have himg : wrapInt data.length = (data.length : Int) := wrapInt_length (hsize i data hdata)
  have hwid : wireIdAt nextId i < 2 ^ 32 := by
    unfold wireIdAt
    omega
  dsimp only
  rw [himg]
  exact ⟨tiles.get i, htile, hcombine, rfl, hsize i data hdata, rfl, hwid⟩

theorem parse_uninitialized : TileCombined.parse (uninitialized.serialize "tilecombine:".toList []) = none := by
  decide +kernel

/-- Whatever the order of the tasks, the broker saves each tile that was compressed, with its wire id and size, and
with the bytes of its task. -/
theorem saved_response (htiles : ∀ tile ∈ tiles, tile.IsTile ∧ tile.combineParams = params)
    (hsize : ∀ i data, compress i = some data → (data.length : Int) ≤ intMax) (order : List (Fin tiles.length)) :
    (handleTileCombinedResponse (response (run tiles nextId compress order))).map
      (fun s => (s.tile.key, s.tile.wireId, s.tile.imgSize, s.bytes (response (run tiles nextId compress order)))) =
    order.filterMap fun i => (compress i).map fun data =>
      ((tiles.get i).key, wireIdAt nextId i, (data.length : Int), data) := by
  have hbuilt : Built params (order.filterMap (pushed nextId compress)) (run tiles nextId compress order) :=
    built_run (fun tile htile => ⟨(htiles tile htile).1.admitted.2.1, (htiles tile htile).2⟩) order
  obtain ⟨hfirst, hpayload, hline⟩ := firstLine_response (run tiles nextId compress order)
  have hguard : response (run tiles nextId compress order) = [] ∨
      (firstLine (response (run tiles nextId compress order))).length ≤
      (response (run tiles nextId compress order)).length - 1 := by
    have := length_firstLine hline
    right
    omega
  unfold handleTileCombinedResponse
  rw [if_pos hguard]
  rw [← map_pushed]
  by_cases hitems : order.filterMap (pushed nextId compress) = []
  · -- No task added anything, and the text is no request.
    have hnone : TileCombined.parse (firstLine (response (run tiles nextId compress order))) = none := by
      rw [hfirst, hbuilt.start hitems]
      exact parse_uninitialized
    rw [hnone, hitems, List.map_nil, List.map_nil]
  · obtain ⟨hparams, hwids, himgSizes⟩ := hbuilt.later hitems
    have hnumbers : (run tiles nextId compress order).renderedTiles.Numbers := by
      constructor
      · obtain ⟨p, hp⟩ := List.exists_mem_of_ne_nil _ hitems
        obtain ⟨tile, htile, hcombine, -⟩ := pushed_spec htiles hsize hp
        have hranges := (TileCombined.isTile_ranges htile).1
        rw [← hcombine] at hparams
        have hlist : [(run tiles nextId compress order).renderedTiles.canonicalViewId,
            (run tiles nextId compress order).renderedTiles.part,
            (run tiles nextId compress order).renderedTiles.mode,
            (run tiles nextId compress order).renderedTiles.width,
            (run tiles nextId compress order).renderedTiles.height,
            (run tiles nextId compress order).renderedTiles.tileWidth,
            (run tiles nextId compress order).renderedTiles.tileHeight] =
            [tile.canonicalViewId, tile.part, tile.mode, tile.width, tile.height, tile.tileWidth,
            tile.tileHeight] := by
          rw [hparams]
          rfl
        rw [hlist]
        exact hranges
      · intro tile htile
        rw [hbuilt.tiles] at htile
        obtain ⟨p, hp, rfl⟩ := List.mem_map.1 htile
        obtain ⟨tile, htile, -, himg, hlen, heq, hwid⟩ := pushed_spec htiles hsize hp
        have hranges := (TileCombined.isTile_ranges htile).2
        simp only [List.forall_mem_cons, List.not_mem_nil, false_imp_iff, implies_true, and_true] at hranges ⊢
        obtain ⟨hx, hy, hver, -⟩ := hranges
        rw [heq]
        refine ⟨⟨hx, hy, hver, ?_⟩, htile.wids.1, hwid⟩
        have hpos : -intMax - 1 ≤ p.1.imgSize ∧ p.1.imgSize ≤ intMax := by
          rw [himg]
          unfold intMax at hlen ⊢
          omega
        exact hpos
    have hread : TileDesc.IsPrefix "tilecombine:".toList := by decide
    have hnothing : ∀ c ∈ ([] : List Char).head?, c = '\n' := by simp
    have hparse := TileCombined.parse_serialize_fields hnumbers hread hnothing
    -- The broker reads the descriptions as they were pushed, but for ids and old wire ids.
    let received (tile : TileDesc) : TileDesc :=
      TileCombined.tileOf params ((run tiles nextId compress order).renderedTiles.writtenFields tile)
    have hparsed : ∃ c, TileCombined.parse (firstLine (response (run tiles nextId compress order))) = some c ∧
        c.tiles = (order.filterMap (pushed nextId compress)).map fun p => received p.1 := by
      have hvalid : (((run tiles nextId compress order).renderedTiles.tiles.map
          (run tiles nextId compress order).renderedTiles.writtenFields).map (TileCombined.tileOf params)).all
            TileDesc.isValid = true := by
        rw [hbuilt.tiles, List.map_map, List.map_map, List.all_map, List.all_eq_true]
        intro p hp
        obtain ⟨tile, htile, hcombine, himg, hlen, heq, -⟩ := pushed_spec htiles hsize hp
        have hpos : 0 ≤ p.1.imgSize := by
          rw [himg]
          exact Int.natCast_nonneg _
        exact (received_spec hcombine himgSizes hwids _ _ heq).2.2.2 htile hpos
      have hparamsValid : params.isValid = true := by
        obtain ⟨p, hp⟩ := List.exists_mem_of_ne_nil _ hitems
        obtain ⟨tile, htile, hcombine, -⟩ := pushed_spec htiles hsize hp
        obtain ⟨-, hpart, hmode, hwidth, hheight, -, -, htileWidth, htileHeight, -⟩ := htile.admitted
        rw [← hcombine]
        exact CombineParams.isValid_iff.2 ⟨hpart, hmode, hwidth, hheight, htileWidth, htileHeight⟩
      rw [hfirst, hparse, hparams]
      unfold TileCombined.ofFields
      rw [if_neg (by simp [hparamsValid])]
      dsimp only
      rw [if_pos hvalid]
      refine ⟨_, rfl, ?_⟩
      dsimp only
      rw [hbuilt.tiles, List.map_map, List.map_map]
      rfl
    obtain ⟨c, hc, hctiles⟩ := hparsed
    have hsizes : ∀ p ∈ (order.filterMap (pushed nextId compress)).map fun p => (received p.1, p.2),
        p.1.imgSize = p.2.length := by
      intro q hq
      obtain ⟨p, hp, rfl⟩ := List.mem_map.1 hq
      obtain ⟨-, -, -, himg, -⟩ := pushed_spec htiles hsize hp
      show (if _ then _ else _) = _
      rw [himgSizes, if_pos rfl, himg]
    have hbytes : (response (run tiles nextId compress order)).drop
        ((firstLine (response (run tiles nextId compress order))).length + 1) =
        ((((order.filterMap (pushed nextId compress)).map fun p => (received p.1, p.2)).map Prod.snd).flatten ++
          []) := by
      rw [hpayload, hbuilt.output, List.append_nil, List.map_map]
      rfl
    have hsaved := bytes_savedFrom hsizes hbytes
    rw [hc]
    dsimp only
    rw [hctiles]
    have hpairs := congrArg (List.map fun q => (q.1.key, q.1.wireId, q.1.imgSize, q.2)) hsaved
    rw [List.map_map, List.map_map, List.map_map] at hpairs
    refine hpairs.trans (List.map_congr_left fun p hp => ?_)
    obtain ⟨tile, -, hcombine, himg, -, heq, -⟩ := pushed_spec htiles hsize hp
    obtain ⟨hkey, hwid, hsizeOf, -⟩ := received_spec hcombine himgSizes hwids _ _ heq
    show ((received p.1).key, (received p.1).wireId, (received p.1).imgSize, p.2) = _
    rw [hkey, hwid, hsizeOf, himg]

/-- A response is cut as it was put together, and for any message no read goes past its end if and only if the
announced sizes do not exceed the payload. -/
theorem payloads_reach_tiles (message : List Char) :
    (∀ (tiles : List TileDesc) (params : CombineParams) (nextId : Nat)
      (compress : Fin tiles.length → Option (List Char))
      (order : List (Fin tiles.length)), (∀ tile ∈ tiles, tile.IsTile ∧ tile.combineParams = params) →
      (∀ i data, compress i = some data → (data.length : Int) ≤ intMax) → order.Perm (List.finRange tiles.length) →
      (handleTileCombinedResponse (response (run tiles nextId compress order))).map
        (fun s => (s.tile.key, s.tile.wireId, s.tile.imgSize, s.bytes (response (run tiles nextId compress order)))) =
      order.filterMap fun i => (compress i).map fun data =>
        ((tiles.get i).key, wireIdAt nextId i, (data.length : Int), data)) ∧
    (ReadsWithin message ↔ announced message ≤ message.length - (firstLine message).length - 1) := by
  constructor
  · intro tiles params nextId compress order htiles hsize _
    exact saved_response htiles hsize order
  · exact readsWithin_iff message

section Examples

/-- One byte, of which a hundred are announced. -/
def shortResponse : List Char :=
  ("tilecombine: nviewid=0 part=0 width=256 height=256 tileposx=0 tileposy=0 imgsize=100 tilewidth=3840" ++
    " tileheight=3840 ver=1 wid=1\nZ").toList

theorem not_readsWithin : ¬ ∀ message, ReadsWithin message := by
  intro h
  have hle := (readsWithin_iff shortResponse).1 (h shortResponse)
  revert hle
  decide +kernel

theorem payloads_reach_tiles_two : (handleTileCombinedResponse (response (run [TileDesc.lateTile, TileDesc.lateTile] 0
    (fun i => some (if i.val = 0 then ['Z', 'a'] else ['D'])) [1, 0]))).map
      (fun s => (s.tile.wireId, s.tile.imgSize, s.bytes (response (run [TileDesc.lateTile, TileDesc.lateTile] 0
        (fun i => some (if i.val = 0 then ['Z', 'a'] else ['D'])) [1, 0])))) =
      [(2, 1, ['D']), (1, 2, ['Z', 'a'])] := by
  have hlate : TileDesc.lateTile.IsTile := ⟨by decide, by decide, by decide⟩
  have htiles : ∀ tile ∈ [TileDesc.lateTile, TileDesc.lateTile],
      tile.IsTile ∧ tile.combineParams = TileDesc.lateTile.combineParams := by
    intro tile htile
    obtain rfl : tile = TileDesc.lateTile := by simpa using htile
    exact ⟨hlate, rfl⟩
  have hall := (payloads_reach_tiles shortResponse).1
    [TileDesc.lateTile, TileDesc.lateTile] TileDesc.lateTile.combineParams 0
    (fun i => some (if i.val = 0 then ['Z', 'a'] else ['D'])) [1, 0] htiles
    (by intro i data hdata; obtain rfl := Option.some.inj hdata; split <;> decide) (by decide)
  have hpairs := congrArg (List.map fun q => (q.2.1, q.2.2.1, q.2.2.2)) hall
  rw [List.map_map] at hpairs
  exact hpairs

end Examples

end RenderTiles

end CollaboraOnline
