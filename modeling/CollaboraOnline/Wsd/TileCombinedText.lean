import CollaboraOnline.Wsd.TileInvalidation

/-!
# The text of combined tiles

`TileCombined::serialize` writes the shared fields once, and the others as lists with commas.  `TileCombined::parse`
reads the numbers with `strtol`, not with the reader of `TileDesc::parse`.
-/

namespace CollaboraOnline

namespace COOLProtocol

/-! ### Reading -/

/-- The loop of `tokenize` for any delimiter, with the token that was begun. -/
def tokensBy (delimiter : Char) : List Char → List Char → List (List Char)
  | token, [] => if token = [] then [] else [token]
  | token, c :: p =>
    if c = '\n' then if token = [] then [] else [token]
    else if c = delimiter then (if token = [] then [] else [token]) ++ tokensBy delimiter [] p
    else tokensBy delimiter (token ++ [c]) p

def tokenizeBy (delimiter : Char) (data : List Char) : List (List Char) :=
  match data with
  | '\x00' :: _ => []
  | _ => tokensBy delimiter [] data

def stringToUInt32 (input : List Char) : Option Nat := (stringToInteger input).map fun value => (value % 2 ^ 32).toNat

def parseNameValuePair (token : List Char) : Option (List Char × List Char) :=
  if '=' ∈ token then some (token.takeWhile (· != '='), (token.dropWhile (· != '=')).tail) else none

end COOLProtocol

open COOLProtocol

namespace TileCombined

/-- The lists of a request. -/
structure Lists where
  tilePositionsX : List Char := []
  tilePositionsY : List Char := []
  vers : List Char := []
  imgSizes : List Char := []
  oldWireIds : List Char := []
  wireIds : List Char := []

/-- The body of the loop of the constructor; `none` where it throws. -/
def Lists.fieldsAt (l : Lists) (i : Nat) : Option TileFields :=
  let positionXtokens := tokenizeBy ',' l.tilePositionsX
  let positionYtokens := tokenizeBy ',' l.tilePositionsY
  let imgSizeTokens := tokenizeBy ',' l.imgSizes
  let verTokens := tokenizeBy ',' l.vers
  let oldWireIdTokens := tokenizeBy ',' l.oldWireIds
  let wireIdTokens := tokenizeBy ',' l.wireIds
  (stringToInteger (positionXtokens.getD i [])).bind fun x =>
  (stringToInteger (positionYtokens.getD i [])).bind fun y =>
  (if imgSizeTokens.isEmpty then some 0 else stringToInteger (imgSizeTokens.getD i [])).bind fun imgSize =>
  (if verTokens.isEmpty || (verTokens.getD i []).isEmpty then some (-1) else stringToInteger
    (verTokens.getD i [])).bind fun ver =>
  (if oldWireIdTokens.isEmpty then some 0 else stringToUInt32 (oldWireIdTokens.getD i [])).bind fun oldWireId =>
  (if wireIdTokens.isEmpty then some 0 else stringToUInt32 (wireIdTokens.getD i [])).map fun wireId =>
    { tilePosX := x, tilePosY := y, ver, imgSize, oldWireId, wireId }

/-- The check of the lengths. -/
def Lists.Unequal (l : Lists) : Prop :=
  let numberOfPositions := (tokenizeBy ',' l.tilePositionsX).length
  numberOfPositions ≠ (tokenizeBy ',' l.tilePositionsY).length ∨
    (l.imgSizes ≠ [] ∧ numberOfPositions ≠ (tokenizeBy ',' l.imgSizes).length) ∨
    (l.vers ≠ [] ∧ numberOfPositions ≠ (tokenizeBy ',' l.vers).length) ∨
    (l.oldWireIds ≠ [] ∧ numberOfPositions ≠ (tokenizeBy ',' l.oldWireIds).length) ∨
    (l.wireIds ≠ [] ∧ numberOfPositions ≠ (tokenizeBy ',' l.wireIds).length)

instance (l : Lists) : Decidable l.Unequal := by
  unfold Lists.Unequal
  infer_instance

/-- The constructor from the lists; `none` where it throws. -/
def ofLists (params : CombineParams) (l : Lists) : Option TileCombined :=
  if !params.isValid then none
  else if l.Unequal then none
  else ((List.range (tokenizeBy ',' l.tilePositionsX).length).mapM l.fieldsAt).bind (ofFields params)

structure ParseResults extends Lists where
  height : Int := 0
  mode : Int := 0
  nviewid : Int := 0
  part : Int := 0
  tileheight : Int := 0
  tilewidth : Int := 0
  width : Int := 0

namespace ParseResults

def set (r : ParseResults) (arg : List Char) (value : Int) : ParseResults :=
  if arg = "height".toList then { r with height := value }
  else if arg = "mode".toList then { r with mode := value }
  else if arg = "nviewid".toList then { r with nviewid := value }
  else if arg = "part".toList then { r with part := value }
  else if arg = "tileheight".toList then { r with tileheight := value }
  else if arg = "tilewidth".toList then { r with tilewidth := value }
  else if arg = "width".toList then { r with width := value }
  else r

/-- The body of the loop over the tokens. -/
def token (r : ParseResults) (token : List Char) : ParseResults :=
  match parseNameValuePair token with
  | none => r
  | some (name, value) =>
    if name = "tileposx".toList then { r with tilePositionsX := value }
    else if name = "tileposy".toList then { r with tilePositionsY := value }
    else if name = "imgsize".toList then { r with imgSizes := value }
    else if name = "ver".toList then { r with vers := value }
    else if name = "oldwid".toList then { r with oldWireIds := value }
    else if name = "wid".toList then { r with wireIds := value }
    else
      match stringToInteger value with
      | some v => r.set name v
      | none => r

def combineParams (r : ParseResults) : CombineParams :=
  ⟨r.nviewid, r.part, r.mode, r.width, r.height, r.tilewidth, r.tileheight⟩

end ParseResults

def parse (message : List Char) : Option TileCombined :=
  let r := (tokenize message).foldl ParseResults.token {}
  ofLists r.combineParams r.toLists

/-! ### Writing -/

/-- Numbers with commas between them. -/
def commaList (l : List Int) : List Char := [','].intercalate (l.map COOLProtocol.toString)

/-- The fields in the order of the text. -/
def textFields (c : TileCombined) : List (List Char × List Char) :=
  [("nviewid".toList, COOLProtocol.toString c.canonicalViewId), ("part".toList, COOLProtocol.toString c.part),
    ("width".toList, COOLProtocol.toString c.width), ("height".toList, COOLProtocol.toString c.height),
    ("tileposx".toList, commaList (c.tiles.map (·.tilePosX))),
    ("tileposy".toList, commaList (c.tiles.map (·.tilePosY)))] ++
  (if c.hasImgSizes then [("imgsize".toList, commaList (c.tiles.map (·.imgSize)))] else []) ++
  [("tilewidth".toList, COOLProtocol.toString c.tileWidth), ("tileheight".toList, COOLProtocol.toString c.tileHeight),
    ("ver".toList, commaList (c.tiles.map (·.ver)))] ++
  (if c.hasOldWids then [("oldwid".toList, commaList (c.tiles.map fun tile => (tile.oldWireId : Int)))] else []) ++
  (if c.hasWids then [("wid".toList, commaList (c.tiles.map fun tile => (tile.wireId : Int)))] else []) ++
  (if c.mode ≠ 0 then [("mode".toList, COOLProtocol.toString c.mode)] else [])

def field (f : List Char × List Char) : List Char := f.1 ++ '=' :: f.2

def serialize (c : TileCombined) (pre suffix : List Char) : List Char :=
  pre ++ c.textFields.flatMap (fun f => ' ' :: field f) ++ suffix

/-- The lists that `create` makes, with a comma at the end of each. -/
def listsOf (tiles : List TileDesc) : Lists where
  tilePositionsX := tiles.flatMap fun tile => COOLProtocol.toString tile.tilePosX ++ [',']
  tilePositionsY := tiles.flatMap fun tile => COOLProtocol.toString tile.tilePosY ++ [',']
  vers := tiles.flatMap fun tile => COOLProtocol.toString tile.ver ++ [',']
  oldWireIds := tiles.flatMap fun tile => COOLProtocol.toString tile.oldWireId ++ [',']
  wireIds := tiles.flatMap fun tile => COOLProtocol.toString tile.wireId ++ [',']

end TileCombined

/-! ### Numbers -/

namespace COOLProtocol

theorem longFrom_toString (n : Int) : longFrom (COOLProtocol.toString n) = some n := by
  obtain ⟨hne, hdigits, hvalue⟩ := digits_spec n.natAbs
  have htake : (digits n.natAbs).takeWhile Char.isDigit = digits n.natAbs := by
    rw [List.takeWhile_eq_self_iff]
    exact hdigits
  unfold longFrom
  rw [Util.sign_toString]
  dsimp only
  rw [htake, if_neg hne, hvalue]
  by_cases hneg : n < 0
  · rw [decide_eq_true hneg, if_pos rfl]
    congr 1
    omega
  · rw [decide_eq_false hneg, if_neg Bool.false_ne_true]
    congr 1
    omega

theorem stringToInteger_of_longFrom {s : List Char} {n : Int} (h : longFrom s = some n) (hmin : -intMax - 1 ≤ n)
    (hmax : n ≤ intMax) : stringToInteger s = some n := by
  unfold intMax at hmin hmax
  have hwrap : wrapInt n = n := by
    unfold wrapInt
    exact Int.bmod_eq_of_le (by omega) (by omega)
  unfold stringToInteger
  rw [h, Option.bind_some, if_pos (by omega), hwrap]

theorem stringToInteger_toString {n : Int} (hmin : -intMax - 1 ≤ n) (hmax : n ≤ intMax) :
    stringToInteger (COOLProtocol.toString n) = some n :=
  stringToInteger_of_longFrom (longFrom_toString n) hmin hmax

theorem stringToUInt32_of_longFrom {s : List Char} {n : Nat} (h : longFrom s = some (n : Int)) (hn : n < 2 ^ 32) :
    stringToUInt32 s = some n := by
  unfold stringToUInt32 stringToInteger
  have hmod : wrapInt (n : Int) % 2 ^ 32 = n := by
    have hemod : wrapInt (n : Int) % ((2 ^ 32 : Nat) : Int) = n % ((2 ^ 32 : Nat) : Int) := Int.bmod_emod
    omega
  rw [h, Option.bind_some, if_pos (by omega), Option.map_some, hmod, Int.toNat_natCast]

theorem stringToUInt32_toString {n : Nat} (hn : n < 2 ^ 32) : stringToUInt32 (COOLProtocol.toString n) = some n :=
  stringToUInt32_of_longFrom (longFrom_toString n) hn

/-- The loop of `safe_atoi` stops at what is no digit. -/
theorem atoiLoop_eq (multiplier : Int) (s : List Char) {ret : Nat} (hret : (ret : Int) < intMax) :
    Util.atoiLoop multiplier ret s =
      multiplier * min intMax
        (((s.takeWhile Char.isDigit).foldl (fun n c => n * 10 + (c.toNat - 48)) ret : Nat) : Int) := by
  induction s generalizing ret with
  | nil => rw [Util.atoiLoop, List.takeWhile_nil, List.foldl_nil, min_eq_right hret.le]
  | cons c s ih =>
    rw [Util.atoiLoop]
    by_cases hc : c.isDigit = true
    · rw [if_pos hc, List.takeWhile_cons_of_pos hc, List.foldl_cons]
      dsimp only
      by_cases hnext : intMax ≤ ((ret * 10 + (c.toNat - 48) : Nat) : Int)
      · have hge := Util.foldl_decimal_ge (s.takeWhile Char.isDigit) (ret * 10 + (c.toNat - 48))
        rw [if_pos hnext, min_eq_left (by omega)]
      · rw [if_neg hnext]
        exact ih (by omega)
    · rw [if_neg hc, List.takeWhile_cons_of_neg hc, List.foldl_nil, min_eq_right hret.le]

/-- Below the largest `int` the two readers agree. -/
theorem safe_atoi_of_longFrom {s : List Char} {n : Int} (h : longFrom s = some n) (hmin : -intMax ≤ n)
    (hmax : n ≤ intMax) : Util.safe_atoi s = n := by
  unfold longFrom at h
  dsimp only at h
  split at h
  · cases h
  have hn := Option.some.inj h
  have hzero : ((0 : Nat) : Int) < intMax := by decide
  unfold Util.safe_atoi
  dsimp only
  unfold decimal at hn
  rw [atoiLoop_eq _ _ hzero]
  cases hsign : (sign (s.dropWhile isspace)).1 with
  | true =>
    rw [hsign, if_pos rfl] at hn
    rw [if_pos rfl]
    omega
  | false =>
    rw [hsign, if_neg Bool.false_ne_true] at hn
    rw [if_neg Bool.false_ne_true]
    omega

/-! ### Lists -/

theorem tokensBy_token {delimiter : Char} {w : List Char} (hw : ∀ c ∈ w, c ≠ delimiter ∧ c ≠ '\n')
    (token q : List Char) : tokensBy delimiter token (w ++ q) = tokensBy delimiter (token ++ w) q := by
  induction w generalizing token with
  | nil => rw [List.nil_append, List.append_nil]
  | cons c w ih =>
    obtain ⟨⟨hc, hn⟩, hw⟩ := List.forall_mem_cons.1 hw
    rw [List.cons_append, tokensBy, if_neg hn, if_neg hc, ih hw, List.append_assoc, List.singleton_append]

/-- A text without the delimiter and line breaks is one token. -/
theorem tokensBy_one {delimiter : Char} {w : List Char} (hne : w ≠ []) (hw : ∀ c ∈ w, c ≠ delimiter ∧ c ≠ '\n') :
    tokensBy delimiter [] w = [w] := by
  have hall := tokensBy_token hw [] []
  rw [List.append_nil] at hall
  rw [hall, List.nil_append, tokensBy, if_neg hne]

/-- Words with the delimiter after each, and a last one without. -/
theorem tokensBy_words {delimiter : Char} (hd : delimiter ≠ '\n') {ws : List (List Char)}
    (hws : ∀ w ∈ ws, w ≠ [] ∧ ∀ c ∈ w, c ≠ delimiter ∧ c ≠ '\n') (q : List Char) :
    tokensBy delimiter [] (ws.flatMap (fun w => w ++ [delimiter]) ++ q) = ws ++ tokensBy delimiter [] q := by
  induction ws with
  | nil => rfl
  | cons w ws ih =>
    obtain ⟨⟨hne, hw⟩, hws⟩ := List.forall_mem_cons.1 hws
    rw [List.flatMap_cons, List.append_assoc, List.append_assoc, tokensBy_token hw, List.nil_append,
      List.singleton_append, tokensBy, if_neg hd, if_pos rfl, if_neg hne, ih hws]
    rfl

theorem toString_spec (n : Int) :
    COOLProtocol.toString n ≠ [] ∧ ∀ c ∈ COOLProtocol.toString n, c ≠ ',' ∧ c ≠ '\n' ∧ c ≠ '\x00' ∧ c ≠ '=' ∧
    c ≠ ' ' := by
  obtain ⟨hne, hdigits, -⟩ := digits_spec n.natAbs
  have hdigit : ∀ c : Char, c.isDigit = true → c ≠ ',' ∧ c ≠ '\n' ∧ c ≠ '\x00' ∧ c ≠ '=' ∧ c ≠ ' ' := by
    intro c hc
    refine ⟨?_, ?_, ?_, ?_, ?_⟩ <;> rintro rfl <;> exact absurd hc (by decide)
  unfold COOLProtocol.toString
  constructor
  · exact List.append_ne_nil_of_right_ne_nil _ hne
  · intro c hc
    rcases List.mem_append.1 hc with hc | hc
    · split at hc
      · rw [List.mem_singleton.1 hc]
        decide
      · cases hc
    · exact hdigit c (hdigits c hc)

theorem tokenizeBy_eq {delimiter : Char} {data : List Char} (h : ∀ c ∈ data.head?, c ≠ '\x00') :
    tokenizeBy delimiter data = tokensBy delimiter [] data := by
  unfold tokenizeBy
  split
  · exact absurd rfl (h _ rfl)
  · rfl

end COOLProtocol

namespace TileCombined

/-! ### The lists of numbers -/

theorem commaList_concat (l : List Int) (n : Int) :
    commaList (l ++ [n]) = (l.map COOLProtocol.toString).flatMap (fun w => w ++ [',']) ++
      COOLProtocol.toString n := by
  unfold commaList
  induction l with
  | nil => simp [List.intercalate]
  | cons m l ih =>
    obtain ⟨k, rest, hcons⟩ :=
      List.exists_cons_of_ne_nil (List.append_ne_nil_of_right_ne_nil l (List.cons_ne_nil n []))
    rw [hcons] at ih
    rw [List.cons_append, hcons]
    simp only [List.map_cons, List.intercalate_cons_cons, List.flatMap_cons, List.append_assoc] at ih ⊢
    rw [ih]

theorem commaList_spec (l : List Int) : (∀ c ∈ commaList l, isSeparator c = false ∧ c ≠ '\x00' ∧ c ≠ '=') ∧
    (commaList l = [] ↔ l = []) := by
  induction l using List.reverseRecOn with
  | nil => simp [commaList]
  | append_singleton l n _ =>
    rw [commaList_concat]
    obtain ⟨hne, hn⟩ := toString_spec n
    constructor
    · intro c hc
      have hspec : c = ',' ∨ ∃ m : Int, c ∈ COOLProtocol.toString m := by
        rcases List.mem_append.1 hc with hc | hc
        · obtain ⟨w, hw, hc⟩ := List.mem_flatMap.1 hc
          obtain ⟨m, -, rfl⟩ := List.mem_map.1 hw
          rcases List.mem_append.1 hc with hc | hc
          · exact .inr ⟨m, hc⟩
          · exact .inl (List.mem_singleton.1 hc)
        · exact .inr ⟨n, hc⟩
      rcases hspec with rfl | ⟨m, hm⟩
      · decide
      · obtain ⟨-, hline, hzero, heq, hblank⟩ := (toString_spec m).2 c hm
        exact ⟨by simp [isSeparator, hline, hblank], hzero, heq⟩
    · constructor
      · intro h
        exact absurd (List.append_eq_nil_iff.1 h).2 hne
      · intro h
        exact absurd h (List.append_ne_nil_of_right_ne_nil _ (List.cons_ne_nil _ _))

theorem tokenizeBy_commaList (l : List Int) : tokenizeBy ',' (commaList l) = l.map COOLProtocol.toString := by
  rw [tokenizeBy_eq]
  · induction l using List.reverseRecOn with
    | nil => rfl
    | append_singleton l n _ =>
      have hws : ∀ w ∈ l.map COOLProtocol.toString, w ≠ [] ∧ ∀ c ∈ w, c ≠ ',' ∧ c ≠ '\n' := by
        intro w hw
        obtain ⟨m, -, rfl⟩ := List.mem_map.1 hw
        exact ⟨(toString_spec m).1, fun c hc => ⟨((toString_spec m).2 c hc).1, ((toString_spec m).2 c hc).2.1⟩⟩
      obtain ⟨hne, hn⟩ := toString_spec n
      rw [commaList_concat, tokensBy_words (by decide) hws, tokensBy_one hne fun c hc => ⟨(hn c hc).1, (hn c hc).2.1⟩,
        List.map_append]
      rfl
  · intro c hc
    exact ((commaList_spec l).1 c (List.mem_of_mem_head? hc)).2.1

/-- What is read at every index is read by the loop. -/
theorem mapM_range {α : Type*} {f : Nat → Option α} {l : List α} (s : Nat)
    (h : ∀ i (hi : i < l.length), f (s + i) = some l[i]) : (List.range' s l.length).mapM f = some l := by
  induction l generalizing s with
  | nil => rfl
  | cons a l ih =>
    have hfirst : f s = some a := h 0 (Nat.succ_pos _)
    have hrest : (List.range' (s + 1) l.length).mapM f = some l := by
      refine ih (s + 1) fun i hi => ?_
      have := h (i + 1) (Nat.succ_lt_succ hi)
      rwa [List.getElem_cons_succ, show s + (i + 1) = s + 1 + i by omega] at this
    rw [List.length_cons, List.range'_succ, List.mapM_cons, hfirst, hrest]
    rfl

/-! ### What is read back -/

/-- The numbers have 32 bits. -/
structure Numbers (c : TileCombined) : Prop where
  params : ∀ n ∈ [c.canonicalViewId, c.part, c.mode, c.width, c.height, c.tileWidth, c.tileHeight], -intMax - 1 ≤ n ∧
  n ≤ intMax
  tiles : ∀ tile ∈ c.tiles,
    (∀ n ∈ [tile.tilePosX, tile.tilePosY, tile.ver, tile.imgSize], -intMax - 1 ≤ n ∧ n ≤ intMax) ∧
    tile.oldWireId < 2 ^ 32 ∧ tile.wireId < 2 ^ 32

/-- The lists that are written. -/
def writtenLists (c : TileCombined) : Lists where
  tilePositionsX := commaList (c.tiles.map (·.tilePosX))
  tilePositionsY := commaList (c.tiles.map (·.tilePosY))
  vers := commaList (c.tiles.map (·.ver))
  imgSizes := if c.hasImgSizes then commaList (c.tiles.map (·.imgSize)) else []
  oldWireIds := if c.hasOldWids then commaList (c.tiles.map fun tile => (tile.oldWireId : Int)) else []
  wireIds := if c.hasWids then commaList (c.tiles.map fun tile => (tile.wireId : Int)) else []

/-- What is written of a tile. -/
def writtenFields (c : TileCombined) (tile : TileDesc) : TileFields where
  tilePosX := tile.tilePosX
  tilePosY := tile.tilePosY
  ver := tile.ver
  imgSize := if c.hasImgSizes then tile.imgSize else 0
  oldWireId := if c.hasOldWids then tile.oldWireId else 0
  wireId := if c.hasWids then tile.wireId else 0

theorem parseNameValuePair_field {f : List Char × List Char} (h : '=' ∉ f.1) :
    parseNameValuePair (field f) = some f := by
  have hne : ∀ c ∈ f.1, (c != '=') = true := by
    intro c hc
    rw [bne_iff_ne]
    rintro rfl
    exact h hc
  have htake : (field f).takeWhile (· != '=') = f.1 := by
    rw [field, List.takeWhile_append_of_pos hne, List.takeWhile_cons_of_neg (by simp), List.append_nil]
  have hdrop : (field f).dropWhile (· != '=') = '=' :: f.2 := by
    rw [field, List.dropWhile_append_of_pos hne, List.dropWhile_cons_of_neg (by simp)]
  unfold parseNameValuePair
  rw [if_pos (by simp [field]), htake, hdrop]
  rfl

namespace ParseResults

/-- The names of the fields that are one number. -/
def numberNames : List (List Char) :=
  ["height".toList, "mode".toList, "nviewid".toList, "part".toList, "tileheight".toList, "tilewidth".toList,
  "width".toList]

/-- The names of the fields that are lists. -/
def listNames : List (List Char) :=
  ["tileposx".toList, "tileposy".toList, "imgsize".toList, "ver".toList, "oldwid".toList, "wid".toList]

theorem token_number {name value : List Char} (hname : name ∈ numberNames) {n : Int}
    (hn : stringToInteger value = some n) (r : ParseResults) : r.token (field (name, value)) = r.set name n := by
  have hall : ∀ name ∈ numberNames, '=' ∉ name ∧ name ≠ "tileposx".toList ∧ name ≠ "tileposy".toList ∧
      name ≠ "imgsize".toList ∧ name ≠ "ver".toList ∧ name ≠ "oldwid".toList ∧ name ≠ "wid".toList := by decide
  obtain ⟨heq, hx, hy, himg, hver, hold, hwid⟩ := hall name hname
  unfold token
  rw [parseNameValuePair_field heq]
  dsimp only
  rw [if_neg hx, if_neg hy, if_neg himg, if_neg hver, if_neg hold, if_neg hwid, hn]

theorem foldl_textFields {c : TileCombined} (h : c.Numbers) : (c.textFields.map field).foldl token {} =
    { toLists := c.writtenLists, height := c.height, mode := c.mode, nviewid := c.canonicalViewId, part := c.part
      tileheight := c.tileHeight, tilewidth := c.tileWidth, width := c.width } := by
  have hparams := h.params
  simp only [List.forall_mem_cons, List.not_mem_nil, false_imp_iff, implies_true, and_true] at hparams
  obtain ⟨hview, hpart, hmode, hwidth, hheight, htileWidth, htileHeight⟩ := hparams
  have hnumber (name : List Char) (hname : name ∈ numberNames) {n : Int} (hn : -intMax - 1 ≤ n ∧ n ≤ intMax)
      (r : ParseResults) : r.token (field (name, COOLProtocol.toString n)) = r.set name n :=
    token_number hname (stringToInteger_toString hn.1 hn.2) r
  have hview := hnumber "nviewid".toList (by decide) hview
  have hpart := hnumber "part".toList (by decide) hpart
  have hmode := hnumber "mode".toList (by decide) hmode
  have hwidth := hnumber "width".toList (by decide) hwidth
  have hheight := hnumber "height".toList (by decide) hheight
  have htileWidth := hnumber "tilewidth".toList (by decide) htileWidth
  have htileHeight := hnumber "tileheight".toList (by decide) htileHeight
  have hpair (name : List Char) (hname : '=' ∉ name) (v : List Char) : parseNameValuePair (field (name, v)) =
      some (name, v) :=
    parseNameValuePair_field hname
  have hx (r : ParseResults) (v : List Char) : r.token (field ("tileposx".toList, v)) =
      { r with tilePositionsX := v } := by
    unfold token
    rw [hpair "tileposx".toList (by decide)]
    rfl
  have hy (r : ParseResults) (v : List Char) : r.token (field ("tileposy".toList, v)) =
      { r with tilePositionsY := v } := by
    unfold token
    rw [hpair "tileposy".toList (by decide)]
    rfl
  have hver (r : ParseResults) (v : List Char) : r.token (field ("ver".toList, v)) = { r with vers := v } := by
    unfold token
    rw [hpair "ver".toList (by decide)]
    rfl
  -- A list that is not written stays empty.
  have himg (b : Bool) (v : List Char) (r : ParseResults) (hr : r.imgSizes = []) :
      ((if b then [("imgsize".toList, v)] else []).map field).foldl token r =
      { r with imgSizes := if b then v else [] } := by
    cases b with
    | true =>
      rw [if_pos rfl, if_pos rfl, List.map_singleton, List.foldl_cons, List.foldl_nil, token,
        hpair "imgsize".toList (by decide)]
      rfl
    | false =>
      show r = { r with imgSizes := [] }
      rw [← hr]
  have hold (b : Bool) (v : List Char) (r : ParseResults) (hr : r.oldWireIds = []) :
      ((if b then [("oldwid".toList, v)] else []).map field).foldl token r =
      { r with oldWireIds := if b then v else [] } := by
    cases b with
    | true =>
      rw [if_pos rfl, if_pos rfl, List.map_singleton, List.foldl_cons, List.foldl_nil, token,
        hpair "oldwid".toList (by decide)]
      rfl
    | false =>
      show r = { r with oldWireIds := [] }
      rw [← hr]
  have hwid (b : Bool) (v : List Char) (r : ParseResults) (hr : r.wireIds = []) :
      ((if b then [("wid".toList, v)] else []).map field).foldl token r =
      { r with wireIds := if b then v else [] } := by
    cases b with
    | true =>
      rw [if_pos rfl, if_pos rfl, List.map_singleton, List.foldl_cons, List.foldl_nil, token,
        hpair "wid".toList (by decide)]
      rfl
    | false =>
      show r = { r with wireIds := [] }
      rw [← hr]
  have hmode' (r : ParseResults) (hr : r.mode = 0) :
      ((if c.mode ≠ 0 then [("mode".toList, COOLProtocol.toString c.mode)] else []).map field).foldl token r =
        { r with mode := c.mode } := by
    by_cases hzero : c.mode = 0
    · rw [if_neg (not_not.2 hzero), hzero, ← hr]
      rfl
    · rw [if_pos hzero]
      exact hmode r
  unfold textFields
  simp only [List.map_append, List.foldl_append, List.map_cons, List.map_nil, List.foldl_cons, List.foldl_nil,
    hview, hpart, hwidth, hheight, hx, hy, htileWidth, htileHeight, hver]
  rw [himg _ _ _ rfl, hold _ _ _ rfl, hwid _ _ _ rfl, hmode' _ rfl]
  rfl

end ParseResults

/-- The lists hold the numbers of the tiles. -/
structure Lists.Holds (l : Lists) (c : TileCombined) : Prop where
  tilePositionsX : tokenizeBy ',' l.tilePositionsX = c.tiles.map fun tile => COOLProtocol.toString tile.tilePosX
  tilePositionsY : tokenizeBy ',' l.tilePositionsY = c.tiles.map fun tile => COOLProtocol.toString tile.tilePosY
  vers : tokenizeBy ',' l.vers = c.tiles.map fun tile => COOLProtocol.toString tile.ver
  imgSizes : if c.hasImgSizes then tokenizeBy ',' l.imgSizes = c.tiles.map fun tile =>
    COOLProtocol.toString tile.imgSize
    else l.imgSizes = []
  oldWireIds : if c.hasOldWids then tokenizeBy ',' l.oldWireIds = c.tiles.map fun tile =>
    COOLProtocol.toString tile.oldWireId
    else l.oldWireIds = []
  wireIds : if c.hasWids then tokenizeBy ',' l.wireIds = c.tiles.map fun tile => COOLProtocol.toString tile.wireId
    else l.wireIds = []

theorem holds_writtenLists (c : TileCombined) : c.writtenLists.Holds c := by
  have hlist (g : TileDesc → Int) :
      tokenizeBy ',' (commaList (c.tiles.map g)) = c.tiles.map fun tile => COOLProtocol.toString (g tile) := by
    rw [tokenizeBy_commaList, List.map_map]
    rfl
  refine ⟨hlist _, hlist _, hlist _, ?_, ?_, ?_⟩
  · cases hb : c.hasImgSizes with
    | true => simpa [writtenLists, hb] using hlist _
    | false => simp [writtenLists, hb]
  · cases hb : c.hasOldWids with
    | true => simpa [writtenLists, hb] using hlist _
    | false => simp [writtenLists, hb]
  · cases hb : c.hasWids with
    | true => simpa [writtenLists, hb] using hlist _
    | false => simp [writtenLists, hb]

/-- What a list gives that may be left out. -/
theorem read_list {α : Type*} {tiles : List TileDesc} {i : Nat} (hi : i < tiles.length) {b : Bool} {l : List Char}
    {g : TileDesc → List Char} (hl : if b then tokenizeBy ',' l = tiles.map g else l = []) (d : α)
    (f : List Char → α) : (if (tokenizeBy ',' l).isEmpty then d else f ((tokenizeBy ',' l).getD i [])) =
      if b then f (g tiles[i]) else d := by
  cases b with
  | true =>
    have hl : tokenizeBy ',' l = tiles.map g := hl
    have hne : tiles.map g ≠ [] := by
      intro hnil
      rw [List.map_eq_nil_iff] at hnil
      rw [hnil] at hi
      cases hi
    rw [hl, if_neg (by rw [List.isEmpty_iff]; exact hne), if_pos rfl, List.getD_eq_getElem _ _ (by simpa using hi),
      List.getElem_map]
  | false =>
    obtain rfl : l = [] := hl
    rfl

theorem Lists.Holds.fieldsAt {l : Lists} {c : TileCombined} (hl : l.Holds c) (h : c.Numbers) {i : Nat}
    (hi : i < c.tiles.length) : l.fieldsAt i = some (c.writtenFields c.tiles[i]) := by
  obtain ⟨hints, hold, hwid⟩ := h.tiles c.tiles[i] (List.getElem_mem hi)
  simp only [List.forall_mem_cons, List.not_mem_nil, false_imp_iff, implies_true, and_true] at hints
  obtain ⟨hx, hy, hver, himg⟩ := hints
  have hget (g : TileDesc → List Char) : (c.tiles.map g).getD i [] = g c.tiles[i] := by
    rw [List.getD_eq_getElem _ _ (by simpa using hi), List.getElem_map]
  have hvers : tokenizeBy ',' l.vers ≠ [] := by
    rw [hl.vers]
    intro hnil
    rw [List.map_eq_nil_iff] at hnil
    rw [hnil] at hi
    cases hi
  have hvalue : (COOLProtocol.toString c.tiles[i].ver).isEmpty = false :=
    List.isEmpty_eq_false_iff.2 (toString_spec _).1
  unfold Lists.fieldsAt writtenFields
  dsimp only
  rw [read_list hi hl.imgSizes, read_list hi hl.oldWireIds, read_list hi hl.wireIds, hl.tilePositionsX,
    hl.tilePositionsY,
    List.isEmpty_eq_false_iff.2 hvers, hl.vers, hget, hget, hget, stringToInteger_toString hx.1 hx.2,
    stringToInteger_toString hy.1 hy.2, hvalue, stringToInteger_toString hver.1 hver.2,
    stringToInteger_toString himg.1 himg.2, stringToUInt32_toString hold, stringToUInt32_toString hwid]
  cases c.hasImgSizes <;> cases c.hasOldWids <;> cases c.hasWids <;> rfl

theorem Lists.Holds.ofLists {l : Lists} {c : TileCombined} (hl : l.Holds c) (h : c.Numbers) (params : CombineParams) :
    ofLists params l = ofFields params (c.tiles.map c.writtenFields) := by
  have hequal : ¬ l.Unequal := by
    have hopt {b : Bool} {v : List Char} {g : TileDesc → List Char}
        (hv : if b then tokenizeBy ',' v = c.tiles.map g else v = []) :
        ¬ (v ≠ [] ∧ c.tiles.length ≠ (tokenizeBy ',' v).length) := by
      rintro ⟨hne, hlen⟩
      cases b with
      | true =>
        have hv : tokenizeBy ',' v = c.tiles.map g := hv
        exact hlen (by rw [hv, List.length_map])
      | false => exact hne hv
    unfold Lists.Unequal
    rw [hl.tilePositionsX, hl.tilePositionsY, hl.vers, List.length_map, List.length_map, List.length_map]
    simp only [not_or]
    exact ⟨not_not.2 rfl, hopt hl.imgSizes, fun h => h.2 rfl, hopt hl.oldWireIds, hopt hl.wireIds⟩
  have hfields : (List.range (tokenizeBy ',' l.tilePositionsX).length).mapM l.fieldsAt =
      some (c.tiles.map c.writtenFields) := by
    have hlen : (tokenizeBy ',' l.tilePositionsX).length = (c.tiles.map c.writtenFields).length := by
      rw [hl.tilePositionsX, List.length_map, List.length_map]
    rw [hlen, List.range_eq_range']
    refine mapM_range 0 fun i hi => ?_
    rw [List.length_map] at hi
    rw [Nat.zero_add, hl.fieldsAt h hi, List.getElem_map]
  unfold TileCombined.ofLists
  rw [if_neg hequal, hfields, Option.bind_some]
  unfold ofFields
  split <;> rfl

theorem mem_textFields {c : TileCombined} {f : List Char × List Char} (hf : f ∈ c.textFields) :
    f.1 ∈ TileDesc.names ∧ ((∃ n, f.2 = COOLProtocol.toString n) ∨ ∃ l, f.2 = commaList l) := by
  unfold textFields at hf
  simp only [List.mem_append, List.mem_cons, List.not_mem_nil, or_false, List.mem_ite_nil_right] at hf
  have hnumber {name : List Char} {n : Int} (hname : name ∈ TileDesc.names)
    (h : f = (name, COOLProtocol.toString n)) :
      f.1 ∈ TileDesc.names ∧ ((∃ n, f.2 = COOLProtocol.toString n) ∨ ∃ l, f.2 = commaList l) := by
    subst h
    exact ⟨hname, .inl ⟨n, rfl⟩⟩
  have hlist {name : List Char} {l : List Int} (hname : name ∈ TileDesc.names) (h : f = (name, commaList l)) :
      f.1 ∈ TileDesc.names ∧ ((∃ n, f.2 = COOLProtocol.toString n) ∨ ∃ l, f.2 = commaList l) := by
    subst h
    exact ⟨hname, .inr ⟨l, rfl⟩⟩
  rcases hf with (((((h | h | h | h | h | h) | ⟨-, h⟩) | h | h | h) | ⟨-, h⟩) | ⟨-, h⟩) | ⟨-, h⟩
  · exact hnumber (by decide) h
  · exact hnumber (by decide) h
  · exact hnumber (by decide) h
  · exact hnumber (by decide) h
  · exact hlist (by decide) h
  · exact hlist (by decide) h
  · exact hlist (by decide) h
  · exact hnumber (by decide) h
  · exact hnumber (by decide) h
  · exact hlist (by decide) h
  · exact hlist (by decide) h
  · exact hlist (by decide) h
  · exact hnumber (by decide) h

theorem field_words (c : TileCombined) : ∀ w ∈ c.textFields.map field, w ≠ [] ∧ ∀ c ∈ w, isSeparator c = false := by
  have hnames : ∀ f ∈ c.textFields, (∀ c ∈ f.1, isSeparator c = false) ∧ ∀ c ∈ f.2, isSeparator c = false := by
    intro f hf
    obtain ⟨hname, hvalue⟩ := mem_textFields hf
    refine ⟨fun c hc => (TileDesc.names_spec f.1 hname c hc).1, ?_⟩
    rcases hvalue with ⟨n, hn⟩ | ⟨l, hl⟩
    · rw [hn]
      exact toString_noSeparator n
    · rw [hl]
      exact fun c hc => ((commaList_spec l).1 c hc).1
  intro w hw
  obtain ⟨f, hf, rfl⟩ := List.mem_map.1 hw
  obtain ⟨hname, hvalue⟩ := hnames f hf
  refine ⟨List.append_ne_nil_of_right_ne_nil _ (List.cons_ne_nil _ _), fun c hc => ?_⟩
  rcases List.mem_append.1 hc with hc | hc
  · exact hname c hc
  · rcases List.mem_cons.1 hc with rfl | hc
    · decide
    · exact hvalue c hc

/-- The text reads back as what is written. -/
theorem parse_serialize_fields {c : TileCombined} (h : c.Numbers) {pre suffix : List Char}
    (hpre : TileDesc.IsPrefix pre) (hsuffix : ∀ c ∈ suffix.head?, c = '\n') :
    parse (c.serialize pre suffix) = ofFields c.toCombineParams (c.tiles.map c.writtenFields) := by
  have hwords := field_words c
  have htext : c.serialize pre suffix = pre ++ ((c.textFields.map field).flatMap (fun w => ' ' :: w) ++ suffix) := by
    unfold serialize
    rw [List.flatMap_map, List.append_assoc]
  have hhead : ∀ d ∈ (c.serialize pre suffix).head?, d ≠ '\x00' := by
    intro d hd
    rw [htext] at hd
    cases pre with
    | nil =>
      simp only [textFields, List.map_append, List.map_cons, List.nil_append, List.cons_append, List.flatMap_cons,
        List.head?_cons, Option.mem_some_iff] at hd
      rw [← hd]
      decide
    | cons e pre =>
      obtain rfl : e = d := Option.some.inj hd
      exact (hpre e List.mem_cons_self).2.2
  have htokens : tokenize (c.serialize pre suffix) = (if pre = [] then [] else [pre]) ++ c.textFields.map field := by
    rw [TileDesc.tokenize_eq_tokensFrom hhead, htext, TileDesc.tokensFrom_append fun c hc => (hpre c hc).1,
      List.nil_append, TileDesc.tokensFrom_words hwords hsuffix]
  have hskip : (if pre = [] then [] else [pre]).foldl ParseResults.token {} = {} := by
    split
    · rfl
    · have hnone : parseNameValuePair pre = none := if_neg fun hmem => (hpre _ hmem).2.1 rfl
      rw [List.foldl_cons, List.foldl_nil, ParseResults.token, hnone]
  unfold parse
  rw [htokens, List.foldl_append, hskip, ParseResults.foldl_textFields h]
  exact (holds_writtenLists c).ofLists h _

/-! ### Requests -/

/-- What a request keeps of a tile. -/
def requested (tile : TileDesc) : TileDesc := { tile with imgSize := 0, id := -1 }

section Requests

variable {first : TileDesc} {tiles : List TileDesc}

theorem isTile_ranges {tile : TileDesc} (h : tile.IsTile) :
    (∀ n ∈ [tile.canonicalViewId, tile.part, tile.mode, tile.width,
    tile.height, tile.tileWidth, tile.tileHeight], -intMax - 1 ≤ n ∧ n ≤ intMax) ∧
    ∀ n ∈ [tile.tilePosX, tile.tilePosY, tile.ver, tile.imgSize], -intMax - 1 ≤ n ∧ n ≤ intMax := by
  have hints := h.ints
  simp only [List.forall_mem_cons, List.not_mem_nil, false_imp_iff, implies_true, and_true] at hints ⊢
  obtain ⟨hview, hpart, hmode, hwidth, hheight, hx, hy, htileWidth, htileHeight, hver, himg, -⟩ := hints
  exact ⟨⟨hview, hpart, hmode, hwidth, hheight, htileWidth, htileHeight⟩, hx, hy, hver, himg⟩

/-- The constructor admits the request. -/
theorem create_spec (h : ∀ tile ∈ first :: tiles, tile.IsTile ∧ tile.combineParams = first.combineParams) :
    ∃ c, create first tiles = some c ∧ c.tiles = (first :: tiles).map requested ∧ c.Numbers := by
  have htiles : ((first :: tiles).map fun tile => { tile.fields with imgSize := 0 }).map
    (tileOf first.combineParams) =
      (first :: tiles).map requested := by
    rw [List.map_map]
    refine List.map_congr_left fun tile htile => ?_
    obtain ⟨-, hparams⟩ := h tile htile
    rw [← hparams]
    rfl
  have hvalid : ((first :: tiles).map requested).all TileDesc.isValid = true := by
    rw [List.all_map, List.all_eq_true]
    intro tile htile
    obtain ⟨hview, hpart, hmode, hwidth, hheight, hx, hy, htileWidth, htileHeight, -⟩ := (h tile htile).1.admitted
    exact TileDesc.isValid_iff.2 ⟨hview, hpart, hmode, hwidth, hheight, hx, hy, htileWidth, htileHeight, le_refl 0⟩
  have hfirst := (h first List.mem_cons_self).1
  have hparams : first.combineParams.isValid = true := by
    obtain ⟨-, hpart, hmode, hwidth, hheight, -, -, htileWidth, htileHeight, -⟩ := hfirst.admitted
    exact CombineParams.isValid_iff.2 ⟨hpart, hmode, hwidth, hheight, htileWidth, htileHeight⟩
  unfold create ofFields
  rw [if_neg (by simp [hparams])]
  dsimp only
  rw [htiles, if_pos hvalid]
  refine ⟨_, rfl, rfl, (isTile_ranges hfirst).1, fun tile htile => ?_⟩
  obtain ⟨t, ht, rfl⟩ := List.mem_map.1 htile
  have hranges := (isTile_ranges (h t ht).1).2
  simp only [List.forall_mem_cons, List.not_mem_nil, false_imp_iff, implies_true, and_true] at hranges ⊢
  obtain ⟨hx, hy, hver, -⟩ := hranges
  have hzero : -intMax - 1 ≤ (0 : Int) ∧ (0 : Int) ≤ intMax := by decide
  exact ⟨⟨hx, hy, hver, hzero⟩, (h t ht).1.wids⟩

/-- What is left out is zero for every tile. -/
theorem map_writtenFields {params : CombineParams} {fields : List TileFields} {c : TileCombined}
    (h : ofFields params fields = some c) : c.toCombineParams = params ∧ c.tiles.map c.writtenFields = fields := by
  have hkept {p : TileFields → Bool} {f : TileFields} (hf : f ∈ fields) (hp : p f = true) : fields.any p = true :=
    List.any_eq_true.2 ⟨f, hf, hp⟩
  unfold ofFields at h
  split at h
  · cases h
  dsimp only at h
  split at h
  · obtain rfl := Option.some.inj h
    refine ⟨rfl, ?_⟩
    rw [List.map_map]
    conv_rhs => rw [← List.map_id fields]
    refine List.map_congr_left fun f hf => ?_
    have himg : (if (fields.any fun f => f.imgSize ≠ 0) = true then f.imgSize else 0) = f.imgSize := by
      split
      · rfl
      · rename_i hany
        by_contra hne
        exact hany (hkept hf (by simpa using Ne.symm hne))
    have hold : (if (fields.any fun f => f.oldWireId ≠ 0) = true then f.oldWireId else 0) = f.oldWireId := by
      split
      · rfl
      · rename_i hany
        by_contra hne
        exact hany (hkept hf (by simpa using Ne.symm hne))
    have hwid : (if (fields.any fun f => f.wireId ≠ 0) = true then f.wireId else 0) = f.wireId := by
      split
      · rfl
      · rename_i hany
        by_contra hne
        exact hany (hkept hf (by simpa using Ne.symm hne))
    obtain ⟨x, y, ver, imgSize, oldWireId, wireId⟩ := f
    show TileFields.mk x y ver _ _ _ = TileFields.mk x y ver imgSize oldWireId wireId
    exact congr (congr (congrArg (TileFields.mk x y ver) himg) hold) hwid
  · cases h

/-- A request reads back as it was created. -/
theorem parse_serialize_create {c : TileCombined} (hc : create first tiles = some c) (hnumbers : c.Numbers)
    {pre suffix : List Char} (hpre : TileDesc.IsPrefix pre) (hsuffix : ∀ c ∈ suffix.head?, c = '\n') :
    parse (c.serialize pre suffix) = some c := by
  obtain ⟨hparams, hfields⟩ := map_writtenFields hc
  rw [parse_serialize_fields hnumbers hpre hsuffix, hparams, hfields]
  exact hc

/-- `create` gives the constructor lists that hold the numbers. -/
theorem create_eq_ofLists (h : ∀ tile ∈ first :: tiles, tile.IsTile) :
    create first tiles = ofLists first.combineParams (listsOf (first :: tiles)) := by
  let c : TileCombined :=
    { toCombineParams := first.combineParams, tiles := first :: tiles, hasWids := true, hasOldWids := true
      isCombined := true, hasImgSizes := false }
  have hlist (g : TileDesc → Int) :
    tokenizeBy ',' ((first :: tiles).flatMap fun tile => COOLProtocol.toString (g tile) ++ [',']) =
      (first :: tiles).map fun tile => COOLProtocol.toString (g tile) := by
    have hws : ∀ w ∈ (first :: tiles).map fun tile => COOLProtocol.toString (g tile),
        w ≠ [] ∧ ∀ c ∈ w, c ≠ ',' ∧ c ≠ '\n' := by
      intro w hw
      obtain ⟨t, -, rfl⟩ := List.mem_map.1 hw
      exact ⟨(toString_spec _).1, fun c hc => ⟨((toString_spec _).2 c hc).1, ((toString_spec _).2 c hc).2.1⟩⟩
    have hwords := tokensBy_words (by decide : ',' ≠ '\n') hws []
    rw [List.append_nil, List.flatMap_map, tokensBy, if_pos rfl, List.append_nil] at hwords
    rw [tokenizeBy_eq, hwords]
    intro d hd
    obtain ⟨t, -, ht⟩ := List.mem_flatMap.1 (List.mem_of_mem_head? hd)
    rcases List.mem_append.1 ht with ht | ht
    · exact ((toString_spec _).2 d ht).2.2.1
    · rw [List.mem_singleton.1 ht]
      decide
  have hholds : (listsOf (first :: tiles)).Holds c :=
    ⟨hlist (·.tilePosX), hlist (·.tilePosY), hlist (·.ver), rfl, hlist fun tile => tile.oldWireId,
    hlist fun tile => tile.wireId⟩
  have hnumbers : c.Numbers :=
    ⟨(isTile_ranges (h first List.mem_cons_self)).1, fun t ht => ⟨(isTile_ranges (h t ht)).2, (h t ht).wids⟩⟩
  rw [hholds.ofLists hnumbers]
  rfl

end Requests

/-! ### The two readers -/

/-- What the fields of a text say: the value of the last token of a name. -/
def texts (tokens : List (List Char)) : List Char → Option (List Char) :=
  tokens.foldl (fun m token =>
    match parseNameValuePair token with
    | some (name, value) => Function.update m name (some value)
    | none => m) fun _ => none

/-- The decimal number of a field, or the default. -/
def number (m : List Char → Option (List Char)) (name : String) (default : Int) : Int :=
  ((m name.toList).bind longFrom).getD default

/-- The text of a field, or nothing. -/
def text (m : List Char → Option (List Char)) (name : String) : List Char := (m name.toList).getD []

/-- The tile that a text describes. -/
def written (m : List Char → Option (List Char)) : TileDesc where
  canonicalViewId := number m "nviewid" 0
  part := number m "part" 0
  mode := number m "mode" 0
  width := number m "width" 0
  height := number m "height" 0
  tilePosX := number m "tileposx" 0
  tilePosY := number m "tileposy" 0
  tileWidth := number m "tilewidth" 0
  tileHeight := number m "tileheight" 0
  ver := number m "ver" (-1)
  imgSize := number m "imgsize" 0
  id := number m "id" (-1)
  oldWireId := (number m "oldwid" 0).toNat
  wireId := (number m "wid" 0).toNat

/-- One number that both readers hold, and no sign of a wire id. -/
def PlainField (f : List Char × List Char) : Prop :=
  ∃ n, longFrom f.2 = some n ∧ ',' ∉ f.2 ∧ -intMax ≤ n ∧ n < intMax ∧
  (f.1 = "oldwid".toList ∨ f.1 = "wid".toList → 0 ≤ n)

/-- Every field of the text is such a number. -/
def Plain (message : List Char) : Prop :=
  ∀ token ∈ tokenize message, ∀ f, parseNameValuePair token = some f → f.1 ∈ TileDesc.names → PlainField f

theorem field_of_pair {token : List Char} {f : List Char × List Char} (h : parseNameValuePair token = some f) :
    token = field f ∧ '=' ∉ f.1 := by
  unfold parseNameValuePair at h
  split at h
  · rename_i hmem
    obtain rfl := Option.some.inj h
    constructor
    · have hne : token.dropWhile (· != '=') ≠ [] := by
        intro hnil
        simpa using List.dropWhile_eq_nil_iff.1 hnil _ hmem
      obtain ⟨c, rest, hcons⟩ := List.exists_cons_of_ne_nil hne
      have hc : c = '=' := by
        have hhead := List.head_dropWhile_not (· != '=') hne
        simp only [hcons, List.head_cons] at hhead
        simpa using hhead
      conv_lhs => rw [← List.takeWhile_append_dropWhile (p := (· != '=')) (l := token)]
      unfold field
      rw [hcons, hc]
      rfl
    · intro heq
      have := List.mem_takeWhile_imp heq
      simp at this
  · cases h

section Reading

variable {m : List Char → Option (List Char)} {f : List Char × List Char}

/-- What `TileDesc::parse` has read. -/
def readTile (m : List Char → Option (List Char)) : TileDesc.ParseResults where
  height := number m "height" 0
  id := number m "id" (-1)
  imgsize := number m "imgsize" 0
  mode := number m "mode" 0
  nviewid := number m "nviewid" 0
  part := number m "part" 0
  tileheight := number m "tileheight" 0
  tileposx := number m "tileposx" 0
  tileposy := number m "tileposy" 0
  tilewidth := number m "tilewidth" 0
  ver := number m "ver" (-1)
  width := number m "width" 0
  oldWireId := (number m "oldwid" 0).toNat
  wireId := (number m "wid" 0).toNat

/-- What `TileCombined::parse` has read. -/
def readCombined (m : List Char → Option (List Char)) : ParseResults where
  tilePositionsX := text m "tileposx"
  tilePositionsY := text m "tileposy"
  vers := text m "ver"
  imgSizes := text m "imgsize"
  oldWireIds := text m "oldwid"
  wireIds := text m "wid"
  height := number m "height" 0
  mode := number m "mode" 0
  nviewid := number m "nviewid" 0
  part := number m "part" 0
  tileheight := number m "tileheight" 0
  tilewidth := number m "tilewidth" 0
  width := number m "width" 0

theorem number_update (name : List Char) (value : List Char) (name' : String) (default : Int) :
    number (Function.update m name (some value)) name' default =
      if name'.toList = name then (longFrom value).getD default else number m name' default := by
  unfold number
  by_cases h : name'.toList = name
  · rw [if_pos h, h, Function.update_self, Option.bind_some]
  · rw [if_neg h, Function.update_of_ne h]

theorem text_update (name : List Char) (value : List Char) (name' : String) :
    text (Function.update m name (some value)) name' = if name'.toList = name then value else text m name' := by
  unfold text
  by_cases h : name'.toList = name
  · rw [if_pos h, h, Function.update_self, Option.getD_some]
  · rw [if_neg h, Function.update_of_ne h]

theorem readTile_token (hname : '=' ∉ f.1) (hplain : f.1 ∈ TileDesc.names → PlainField f) :
    (readTile m).token (field f) = readTile (Function.update m f.1 (some f.2)) := by
  obtain ⟨name, value⟩ := f
  -- The tokens of the two wire ids are tried first.
  have hskip (key : List Char) (hkey : '=' ∉ key) (hne : key ≠ name) (v : Nat) :
      StringVector.getUInt32 (field (name, value)) key v = (false, v) :=
    TileDesc.getUInt32_of_ne hkey hname hne value v
  have hpair : (field (name, value)).takeWhile (· != '=') = name ∧
    ((field (name, value)).dropWhile (· != '=')).tail = value ∧
      '=' ∈ field (name, value) := by
    have h := parseNameValuePair_field (f := (name, value)) hname
    unfold parseNameValuePair at h
    split at h
    · obtain ⟨htake, hdrop⟩ := Prod.mk.inj (Option.some.inj h)
      exact ⟨htake, hdrop, by assumption⟩
    · cases h
  by_cases hmem : name ∈ TileDesc.names
  · obtain ⟨n, hn, -, hmin, hmax, hwid⟩ := hplain hmem
    have hatoi : Util.safe_atoi value = n := safe_atoi_of_longFrom hn hmin (by omega)
    have hint (h₁ : "oldwid".toList ≠ name) (h₂ : "wid".toList ≠ name) :
        (readTile m).token (field (name, value)) = (readTile m).set name n := by
      unfold TileDesc.ParseResults.token StringVector.getNameIntegerPair
      rw [hskip _ (by decide) h₁, if_neg Bool.false_ne_true]
      dsimp only
      rw [hskip _ (by decide) h₂, if_neg Bool.false_ne_true, if_pos hpair.2.2, hpair.1, hpair.2.1, hatoi]
      rw [if_pos ⟨by omega, hmax⟩]
    have huint (key : List Char) (hkey : name = key) (v : Nat) (hpos : 0 ≤ n) :
        StringVector.getUInt32 (field (name, value)) key v = (true, n.toNat) := by
      subst hkey
      have hdrop : (field (name, value)).drop (name.length + 1) = value := by
        have hsplit : field (name, value) = (name ++ ['=']) ++ value := by simp [field]
        rw [hsplit, List.drop_left' (by simp)]
      have hlength : name.length + 1 < (field (name, value)).length := by
        cases value with
        | nil => cases hn
        | cons c value =>
          simp only [field, List.length_append, List.length_cons]
          omega
      have hlt : (n % 2 ^ 32).toNat = n.toNat ∧ n.toNat < 2 ^ 32 - 1 := by
        unfold intMax at hmax
        omega
      unfold StringVector.getUInt32
      rw [hdrop, hatoi, if_pos]
      · simp only [hlt.1, hlt.2, decide_true]
      · have hbegins := TileDesc.isPrefixOf_name hname hname value
        rw [decide_eq_true rfl] at hbegins
        rw [show field (name, value) = name ++ '=' :: value from rfl, hbegins, Bool.true_and]
        exact decide_eq_true hlength
    unfold TileDesc.names at hmem
    simp only [List.mem_cons, List.not_mem_nil, or_false] at hmem
    rcases hmem with h | h | h | h | h | h | h | h | h | h | h | h | h | h
    · subst h
      rw [hint (by decide) (by decide)]
      simp [readTile, TileDesc.ParseResults.set, number_update, hn]
    · subst h
      rw [hint (by decide) (by decide)]
      simp [readTile, TileDesc.ParseResults.set, number_update, hn]
    · subst h
      rw [hint (by decide) (by decide)]
      simp [readTile, TileDesc.ParseResults.set, number_update, hn]
    · subst h
      rw [hint (by decide) (by decide)]
      simp [readTile, TileDesc.ParseResults.set, number_update, hn]
    · subst h
      rw [hint (by decide) (by decide)]
      simp [readTile, TileDesc.ParseResults.set, number_update, hn]
    · subst h
      rw [hint (by decide) (by decide)]
      simp [readTile, TileDesc.ParseResults.set, number_update, hn]
    · subst h
      rw [hint (by decide) (by decide)]
      simp [readTile, TileDesc.ParseResults.set, number_update, hn]
    · subst h
      rw [hint (by decide) (by decide)]
      simp [readTile, TileDesc.ParseResults.set, number_update, hn]
    · subst h
      unfold TileDesc.ParseResults.token
      rw [huint "oldwid".toList rfl _ (hwid (.inl rfl))]
      simp [readTile, number_update, hn]
    · subst h
      unfold TileDesc.ParseResults.token
      rw [hskip _ (by decide) (by decide)]
      dsimp only
      rw [huint "wid".toList rfl _ (hwid (.inr rfl))]
      simp [readTile, number_update, hn]
    · subst h
      rw [hint (by decide) (by decide)]
      simp [readTile, TileDesc.ParseResults.set, number_update, hn]
    · subst h
      rw [hint (by decide) (by decide)]
      simp [readTile, TileDesc.ParseResults.set, number_update, hn]
    · subst h
      rw [hint (by decide) (by decide)]
      simp [readTile, TileDesc.ParseResults.set, number_update, hn]
    · subst h
      rw [hint (by decide) (by decide)]
      simp [readTile, TileDesc.ParseResults.set, number_update, hn]
  · -- A name that neither reader knows.
    have hne (name' : List Char) (h : name' ∈ TileDesc.names) : name' ≠ name := by
      rintro rfl
      exact hmem h
    have hset (r : TileDesc.ParseResults) (v : Int) : r.set name v = r := by
      unfold TileDesc.ParseResults.set
      rw [if_neg (hne _ (by decide)).symm, if_neg (hne _ (by decide)).symm, if_neg (hne _ (by decide)).symm,
        if_neg (hne _ (by decide)).symm, if_neg (hne _ (by decide)).symm, if_neg (hne _ (by decide)).symm,
        if_neg (hne _ (by decide)).symm, if_neg (hne _ (by decide)).symm, if_neg (hne _ (by decide)).symm,
        if_neg (hne _ (by decide)).symm, if_neg (hne _ (by decide)).symm, if_neg (hne _ (by decide)).symm]
    have hread : readTile (Function.update m name (some value)) = readTile m := by
      unfold readTile
      simp only [number_update]
      rw [if_neg (hne _ (by decide)), if_neg (hne _ (by decide)), if_neg (hne _ (by decide)),
        if_neg (hne _ (by decide)),
        if_neg (hne _ (by decide)), if_neg (hne _ (by decide)), if_neg (hne _ (by decide)),
          if_neg (hne _ (by decide)),
        if_neg (hne _ (by decide)), if_neg (hne _ (by decide)), if_neg (hne _ (by decide)),
          if_neg (hne _ (by decide)),
        if_neg (hne _ (by decide)), if_neg (hne _ (by decide))]
    unfold TileDesc.ParseResults.token StringVector.getNameIntegerPair
    rw [hskip _ (by decide) (hne _ (by decide)), if_neg Bool.false_ne_true]
    dsimp only
    rw [hskip _ (by decide) (hne _ (by decide)), if_neg Bool.false_ne_true, if_pos hpair.2.2, hpair.1,
      hpair.2.1, hread]
    split
    · rename_i hsome
      split at hsome
      · obtain ⟨rfl, -⟩ := Prod.mk.inj (Option.some.inj hsome)
        exact hset _ _
      · cases hsome
    · rfl

/-- A name that is no field of a request. -/
theorem token_other {name value : List Char} (h : name ∉ ParseResults.numberNames ∧ name ∉ ParseResults.listNames)
    (hname : '=' ∉ name) (r : ParseResults) : r.token (field (name, value)) = r := by
  obtain ⟨hnumber, hlist⟩ := h
  have hne (name' : List Char) (h : name' ∈ ParseResults.numberNames) : name ≠ name' := by
    rintro rfl
    exact hnumber h
  have hneList (name' : List Char) (h : name' ∈ ParseResults.listNames) : name ≠ name' := by
    rintro rfl
    exact hlist h
  have hset (v : Int) : r.set name v = r := by
    unfold ParseResults.set
    rw [if_neg (hne _ (by decide)), if_neg (hne _ (by decide)), if_neg (hne _ (by decide)),
      if_neg (hne _ (by decide)), if_neg (hne _ (by decide)), if_neg (hne _ (by decide)), if_neg (hne _ (by decide))]
  unfold ParseResults.token
  rw [parseNameValuePair_field hname]
  dsimp only
  rw [if_neg (hneList _ (by decide)), if_neg (hneList _ (by decide)), if_neg (hneList _ (by decide)),
    if_neg (hneList _ (by decide)), if_neg (hneList _ (by decide)), if_neg (hneList _ (by decide))]
  split
  · exact hset _
  · rfl

theorem readCombined_token (hname : '=' ∉ f.1) (hplain : f.1 ∈ TileDesc.names → PlainField f) :
    (readCombined m).token (field f) = readCombined (Function.update m f.1 (some f.2)) := by
  obtain ⟨name, value⟩ := f
  have hpair : parseNameValuePair (field (name, value)) = some (name, value) := parseNameValuePair_field hname
  by_cases hmem : name ∈ TileDesc.names
  · obtain ⟨n, hn, -, hmin, hmax, -⟩ := hplain hmem
    have hint (h : name ∈ ParseResults.numberNames) : (readCombined m).token (field (name, value)) =
        (readCombined m).set name n :=
      ParseResults.token_number h (stringToInteger_of_longFrom hn (by omega) (by omega)) _
    unfold TileDesc.names at hmem
    simp only [List.mem_cons, List.not_mem_nil, or_false] at hmem
    rcases hmem with h | h | h | h | h | h | h | h | h | h | h | h | h | h
    · subst h
      rw [hint (by decide)]
      simp [readCombined, ParseResults.set, number_update, text_update, hn]
    · subst h
      rw [hint (by decide)]
      simp [readCombined, ParseResults.set, number_update, text_update, hn]
    · subst h
      rw [hint (by decide)]
      simp [readCombined, ParseResults.set, number_update, text_update, hn]
    · subst h
      rw [hint (by decide)]
      simp [readCombined, ParseResults.set, number_update, text_update, hn]
    · subst h
      unfold ParseResults.token
      rw [hpair]
      simp [readCombined, number_update, text_update]
    · subst h
      unfold ParseResults.token
      rw [hpair]
      simp [readCombined, number_update, text_update]
    · subst h
      rw [hint (by decide)]
      simp [readCombined, ParseResults.set, number_update, text_update, hn]
    · subst h
      rw [hint (by decide)]
      simp [readCombined, ParseResults.set, number_update, text_update, hn]
    · subst h
      unfold ParseResults.token
      rw [hpair]
      simp [readCombined, number_update, text_update]
    · subst h
      unfold ParseResults.token
      rw [hpair]
      simp [readCombined, number_update, text_update]
    · subst h
      unfold ParseResults.token
      rw [hpair]
      simp [readCombined, number_update, text_update]
    · subst h
      have hid : "id".toList ∉ ParseResults.numberNames ∧ "id".toList ∉ ParseResults.listNames := by decide
      rw [token_other hid hname]
      simp [readCombined, number_update, text_update]
    · subst h
      unfold ParseResults.token
      rw [hpair]
      simp [readCombined, number_update, text_update]
    · subst h
      rw [hint (by decide)]
      simp [readCombined, ParseResults.set, number_update, text_update, hn]
  · -- A name that neither reader knows.
    have hne (name' : List Char) (h : name' ∈ TileDesc.names) : name' ≠ name := by
      rintro rfl
      exact hmem h
    have hother : name ∉ ParseResults.numberNames ∧ name ∉ ParseResults.listNames := by
      have hsub : ParseResults.numberNames ⊆ TileDesc.names ∧ ParseResults.listNames ⊆ TileDesc.names := by decide
      exact ⟨fun h => hmem (hsub.1 h), fun h => hmem (hsub.2 h)⟩
    rw [token_other hother hname]
    unfold readCombined
    simp only [number_update, text_update]
    rw [if_neg (hne _ (by decide)), if_neg (hne _ (by decide)), if_neg (hne _ (by decide)),
      if_neg (hne _ (by decide)),
      if_neg (hne _ (by decide)), if_neg (hne _ (by decide)), if_neg (hne _ (by decide)), if_neg (hne _ (by decide)),
      if_neg (hne _ (by decide)), if_neg (hne _ (by decide)), if_neg (hne _ (by decide)), if_neg (hne _ (by decide)),
      if_neg (hne _ (by decide))]

/-- The fields of the map are plain, and on one line. -/
def PlainTexts (m : List Char → Option (List Char)) : Prop :=
  ∀ name ∈ TileDesc.names, ∀ value, m name = some value → PlainField (name, value) ∧ '\n' ∉ value

theorem texts_concat (tokens : List (List Char)) (token : List Char) : texts (tokens ++ [token]) =
    match parseNameValuePair token with
    | some (name, value) => Function.update (texts tokens) name (some value)
    | none => texts tokens := by
  unfold texts
  rw [List.foldl_append, List.foldl_cons, List.foldl_nil]

/-- Both loops read the texts of the fields. -/
theorem foldl_tokens {tokens : List (List Char)}
    (hplain : ∀ token ∈ tokens, ∀ f, parseNameValuePair token = some f → f.1 ∈ TileDesc.names → PlainField f)
    (hline : ∀ token ∈ tokens, '\n' ∉ token) :
    tokens.foldl TileDesc.ParseResults.token {} = readTile (texts tokens) ∧
    tokens.foldl ParseResults.token {} = readCombined (texts tokens) ∧ PlainTexts (texts tokens) := by
  induction tokens using List.reverseRecOn with
  | nil => exact ⟨rfl, rfl, fun name _ value h => by cases h⟩
  | append_singleton tokens token ih =>
    obtain ⟨htile, hcombined, htexts⟩ := ih (fun t ht => hplain t (List.mem_append_left _ ht))
      fun t ht => hline t (List.mem_append_left _ ht)
    have hplain := hplain token (by simp)
    have hline := hline token (by simp)
    rw [List.foldl_append, List.foldl_append, List.foldl_cons, List.foldl_nil, List.foldl_cons, List.foldl_nil, htile,
      hcombined, texts_concat]
    cases hpair : parseNameValuePair token with
    | none =>
      have heq : '=' ∉ token := by
        intro hmem
        unfold parseNameValuePair at hpair
        rw [if_pos hmem] at hpair
        cases hpair
      refine ⟨TileDesc.ParseResults.token_pre heq, ?_, htexts⟩
      rw [ParseResults.token, hpair]
    | some f =>
      obtain ⟨rfl, hname⟩ := field_of_pair hpair
      refine ⟨readTile_token hname (hplain f hpair), readCombined_token hname (hplain f hpair), ?_⟩
      intro name hmem value hvalue
      dsimp only at hvalue
      by_cases hf : name = f.1
      · subst hf
        rw [Function.update_self] at hvalue
        obtain rfl := Option.some.inj hvalue
        refine ⟨hplain f hpair hmem, fun h => hline ?_⟩
        exact List.mem_append_right _ (List.mem_cons_of_mem _ h)
      · rw [Function.update_of_ne hf] at hvalue
        exact htexts name hmem value hvalue

/-- A plain field is a list of one number. -/
theorem tokenizeBy_plain {name value : List Char} (h : PlainField (name, value)) (hline : '\n' ∉ value) :
    tokenizeBy ',' value = [value] := by
  obtain ⟨n, hn, hcomma, -⟩ := h
  have hne : value ≠ [] := by
    rintro rfl
    cases hn
  have hhead : ∀ c ∈ value.head?, c ≠ '\x00' := by
    rintro c hc rfl
    obtain ⟨rest, rfl⟩ : ∃ rest, value = '\x00' :: rest := by
      cases value with
      | nil => cases hc
      | cons c rest => exact ⟨rest, by rw [Option.some.inj hc]⟩
    cases hn
  rw [tokenizeBy_eq hhead]
  refine tokensBy_one hne fun c hc => ⟨?_, ?_⟩
  · rintro rfl
    exact hcomma hc
  · rintro rfl
    exact hline hc

/-- A field is missing, or a list of one number. -/
theorem plain_cases (h : PlainTexts m) (name : String) (hname : name.toList ∈ TileDesc.names) :
    (text m name = [] ∧ ∀ default, number m name default = default) ∨
    ∃ n, tokenizeBy ',' (text m name) = [text m name] ∧ text m name ≠ [] ∧ longFrom (text m name) = some n ∧
      (∀ default, number m name default = n) ∧ -intMax ≤ n ∧ n < intMax ∧
      (name.toList = "oldwid".toList ∨ name.toList = "wid".toList → 0 ≤ n) := by
  unfold text number
  cases hm : m name.toList with
  | none => exact .inl ⟨rfl, fun _ => rfl⟩
  | some value =>
    obtain ⟨hplain, hline⟩ := h _ hname value hm
    obtain ⟨n, hn, -, hmin, hmax, hwid⟩ := id hplain
    have hne : value ≠ [] := by
      rintro rfl
      cases hn
    refine .inr ⟨n, tokenizeBy_plain hplain hline, hne, hn, fun default => ?_, hmin, hmax, hwid⟩
    have hn : longFrom value = some n := hn
    rw [Option.bind_some, hn, Option.getD_some]

/-- The optional lists of integers. -/
theorem read_integer (h : PlainTexts m) (name : String) (hname : name.toList ∈ TileDesc.names) (default : Int) :
    (if (tokenizeBy ',' (text m name)).isEmpty then some default
      else stringToInteger ((tokenizeBy ',' (text m name)).getD 0 [])) = some (number m name default) := by
  rcases plain_cases h name hname with ⟨htext, hnumber⟩ | ⟨n, htokens, -, hn, hnumber, hmin, hmax, -⟩
  · rw [htext, hnumber]
    rfl
  · rw [htokens, hnumber]
    exact stringToInteger_of_longFrom hn (by omega) (by omega)

theorem read_wireId (h : PlainTexts m) (name : String) (hname : name.toList ∈ TileDesc.names)
    (hwid : name.toList = "oldwid".toList ∨ name.toList = "wid".toList) :
    (if (tokenizeBy ',' (text m name)).isEmpty then some 0
      else stringToUInt32 ((tokenizeBy ',' (text m name)).getD 0 [])) = some (number m name 0).toNat := by
  rcases plain_cases h name hname with ⟨htext, hnumber⟩ | ⟨n, htokens, -, hn, hnumber, hmin, hmax, hpos⟩
  · rw [htext, hnumber]
    rfl
  · have hpos := hpos hwid
    unfold intMax at hmax
    rw [htokens, hnumber]
    exact stringToUInt32_of_longFrom (hn.trans (congrArg some (Int.toNat_of_nonneg hpos).symm)) (by omega)

theorem fieldsAt_plain (h : PlainTexts m) (hx : text m "tileposx" ≠ []) (hy : text m "tileposy" ≠ []) :
    (readCombined m).fieldsAt 0 = some (written m).fields := by
  have hposition (name : String) (hname : name.toList ∈ TileDesc.names) (hne : text m name ≠ []) :
      stringToInteger ((tokenizeBy ',' (text m name)).getD 0 []) = some (number m name 0) := by
    rcases plain_cases h name hname with ⟨htext, -⟩ | ⟨n, htokens, -, hn, hnumber, hmin, hmax, -⟩
    · exact absurd htext hne
    · rw [htokens, hnumber]
      exact stringToInteger_of_longFrom hn (by omega) (by omega)
  have hver :
      (if (tokenizeBy ',' (text m "ver")).isEmpty || ((tokenizeBy ',' (text m "ver")).getD 0 []).isEmpty then
        some (-1)
      else stringToInteger ((tokenizeBy ',' (text m "ver")).getD 0 [])) = some (number m "ver" (-1)) := by
    rw [← read_integer h "ver" (by decide) (-1)]
    rcases plain_cases h "ver" (by decide) with ⟨htext, -⟩ | ⟨n, htokens, hne, -⟩
    · rw [htext]
      rfl
    · rw [htokens]
      simp [hne]
  unfold Lists.fieldsAt readCombined
  dsimp only
  rw [hposition "tileposx" (by decide) hx, hposition "tileposy" (by decide) hy,
    read_integer h "imgsize" (by decide), hver,
    read_wireId h "oldwid" (by decide) (.inl rfl), read_wireId h "wid" (by decide) (.inr rfl)]
  rfl

end Reading

/-- For a request of one tile the two readers agree, and read the numbers of the text. -/
theorem parse_agree {message : List Char} {t : TileDesc} {c : TileCombined} (hplain : Plain message)
    (ht : TileDesc.parse message = some t) (hc : parse message = some c) (hone : c.tiles.length = 1) :
    c.tiles = [{ t with id := -1 }] ∧ t = written (texts (tokenize message)) := by
  have hline : ∀ token ∈ tokenize message, '\n' ∉ token := fun token htoken hmem =>
    absurd ((mem_tokenize htoken).1 _ hmem) (by decide)
  obtain ⟨htile, hcombined, htexts⟩ := foldl_tokens hplain hline
  have ht' : t = written (texts (tokenize message)) := by
    unfold TileDesc.parse at ht
    dsimp only at ht
    rw [htile] at ht
    split at ht
    · exact (Option.some.inj ht).symm
    · cases ht
  refine ⟨?_, ht'⟩
  unfold parse ofLists at hc
  dsimp only at hc
  rw [hcombined] at hc
  split at hc
  · cases hc
  split at hc
  · cases hc
  rename_i hunequal
  -- The lists of positions have one number.
  obtain ⟨fields, hfields, hc⟩ := Option.bind_eq_some_iff.1 hc
  obtain ⟨hparams, hwritten⟩ := map_writtenFields hc
  have hlength : fields.length = 1 := by
    rw [← hwritten, List.length_map]
    exact hone
  have hx : text (texts (tokenize message)) "tileposx" ≠ [] := by
    intro hnil
    have hnone : tokenizeBy ',' (readCombined (texts (tokenize message))).tilePositionsX = [] := by
      show tokenizeBy ',' (text _ "tileposx") = []
      rw [hnil]
      rfl
    rw [hnone] at hfields
    obtain rfl : [] = fields := Option.some.inj hfields
    cases hlength
  have htokensX : tokenizeBy ',' (readCombined (texts (tokenize message))).tilePositionsX =
      [text (texts (tokenize message)) "tileposx"] := by
    rcases plain_cases htexts "tileposx" (by decide) with ⟨htext, -⟩ | ⟨n, htokens, -⟩
    · exact absurd htext hx
    · exact htokens
  have hy : text (texts (tokenize message)) "tileposy" ≠ [] := by
    intro hnil
    refine hunequal (.inl ?_)
    have hnone : tokenizeBy ',' (readCombined (texts (tokenize message))).tilePositionsY = [] := by
      show tokenizeBy ',' (text _ "tileposy") = []
      rw [hnil]
      rfl
    rw [htokensX, hnone]
    exact Nat.one_ne_zero
  have hfirst : (List.range (tokenizeBy ',' (readCombined (texts (tokenize message))).tilePositionsX).length).mapM
      (readCombined (texts (tokenize message))).fieldsAt = some [(written (texts (tokenize message))).fields] := by
    rw [htokensX, List.range_eq_range']
    show (List.range' 0 [(written (texts (tokenize message))).fields].length).mapM _ = _
    refine mapM_range 0 fun i hi => ?_
    obtain rfl : i = 0 := by simpa using hi
    exact fieldsAt_plain htexts hx hy
  rw [hfirst] at hfields
  obtain rfl := Option.some.inj hfields
  unfold ofFields at hc
  split at hc
  · cases hc
  dsimp only at hc
  split at hc
  · obtain rfl := Option.some.inj hc
    rw [ht']
    rfl
  · cases hc

/-- A request comes back from its text without the image sizes and the ids, which it does not carry; a text with plain
fields that both readers take is read by both as its numbers say. -/
theorem request_roundTrip_agree :
    (∀ (first : TileDesc) (tiles : List TileDesc) (pre suffix : List Char),
      (∀ tile ∈ first :: tiles, tile.IsTile ∧ tile.combineParams = first.combineParams) → TileDesc.IsPrefix pre →
      (∀ c ∈ suffix.head?, c = '\n') →
      ∃ c c', create first tiles = some c ∧ parse (c.serialize pre suffix) = some c' ∧
        c'.tiles = (first :: tiles).map requested) ∧
    ∀ (message : List Char) (t : TileDesc) (c : TileCombined), Plain message → TileDesc.parse message = some t →
      parse message = some c → c.tiles.length = 1 →
      c.tiles = [{ t with id := -1 }] ∧ t = written (texts (tokenize message)) := by
  constructor
  · intro first tiles pre suffix htiles hpre hsuffix
    obtain ⟨c, hc, hlist, hnumbers⟩ := create_spec htiles
    exact ⟨c, c, hc, parse_serialize_create hc hnumbers hpre hsuffix, hlist⟩
  · intro message t c hplain ht hc hone
    exact parse_agree hplain ht hc hone

section Examples

/-- A request of one tile. -/
def requestText (tileposx : String) : List Char :=
  ("tile nviewid=1000 part=0 width=256 height=256 tileposx=" ++ tileposx ++
    " tileposy=0 tilewidth=3840 tileheight=3840").toList

theorem request_roundTrip_agree_one :
    (∃ c c', create TileDesc.lateTile [TileDesc.lateTile] = some c ∧
      parse (c.serialize "tilecombine".toList []) = some c' ∧ c'.tiles = [TileDesc.lateTile, TileDesc.lateTile]) ∧
    ∃ t c, TileDesc.parse (requestText "3840") = some t ∧ parse (requestText "3840") = some c ∧
      c.tiles = [{ t with id := -1 }] := by
  have hlate : TileDesc.lateTile.IsTile := ⟨by decide, by decide, by decide⟩
  constructor
  · have htiles : ∀ tile ∈ [TileDesc.lateTile, TileDesc.lateTile],
        tile.IsTile ∧ tile.combineParams = TileDesc.lateTile.combineParams := by
      intro tile htile
      obtain rfl : tile = TileDesc.lateTile := by simpa using htile
      exact ⟨hlate, rfl⟩
    exact request_roundTrip_agree.1 _ _ "tilecombine".toList [] htiles (by decide) (by simp)
  · have hplain : Plain (requestText "3840") := by
      have hall : (tokenize (requestText "3840")).all (fun token => (parseNameValuePair token).all fun f =>
          (longFrom f.2).any fun n => decide (',' ∉ f.2 ∧ 0 ≤ n ∧ n < intMax)) = true := by decide +kernel
      intro token htoken f hf _
      have hfield := List.all_eq_true.1 hall token htoken
      rw [hf] at hfield
      obtain ⟨n, hn, hspec⟩ := (Option.any_eq_true _ _).1 hfield
      obtain ⟨hcomma, hpos, hmax⟩ := of_decide_eq_true hspec
      have hmin : -intMax ≤ n := le_trans (by decide) hpos
      exact ⟨n, hn, hcomma, hmin, hmax, fun _ => hpos⟩
    obtain ⟨t, ht⟩ :=
      Option.isSome_iff_exists.1 (by decide +kernel : (TileDesc.parse (requestText "3840")).isSome = true)
    obtain ⟨c, hc, hone⟩ : ∃ c, parse (requestText "3840") = some c ∧ c.tiles.length = 1 := by
      have h : ((parse (requestText "3840")).any fun c => c.tiles.length == 1) = true := by decide +kernel
      obtain ⟨c, hc, hone⟩ := (Option.any_eq_true _ _).1 h
      exact ⟨c, hc, by simpa using hone⟩
    exact ⟨t, c, ht, hc, (request_roundTrip_agree.2 _ t c hplain ht hc hone).1⟩

theorem not_request_roundTrip_agree :
    (¬ ∀ (first : TileDesc) (tiles : List TileDesc),
      (∀ tile ∈ first :: tiles, tile.IsTile ∧ tile.combineParams = first.combineParams) →
      ∃ c c', create first tiles = some c ∧ parse (c.serialize "tilecombine".toList []) = some c' ∧
        c'.tiles = first :: tiles) ∧
    ¬ ∀ (message : List Char) (t : TileDesc) (c : TileCombined), TileDesc.parse message = some t →
      parse message = some c → c.tiles.length = 1 → c.tiles = [t] := by
  constructor
  · intro h
    have htile : ({ TileDesc.lateTile with imgSize := 5 } : TileDesc).IsTile := ⟨by decide, by decide, by decide⟩
    obtain ⟨c, c', hc, hc', htiles⟩ := h { TileDesc.lateTile with imgSize := 5 } [] (by simpa using htile)
    have hno : ((create { TileDesc.lateTile with imgSize := 5 } []).bind fun c =>
      parse (c.serialize "tilecombine".toList [])).all
        (fun c' => c'.tiles != [{ TileDesc.lateTile with imgSize := 5 }]) = true := by decide +kernel
    rw [hc, Option.bind_some, hc'] at hno
    have hne : (c'.tiles != [{ TileDesc.lateTile with imgSize := 5 }]) = true := hno
    rw [htiles] at hne
    simp at hne
  · -- `strtol` gives 4294967297, which is 1 as an `int`; `safe_atoi` fails and leaves 0.
    intro h
    have hread :
      ((TileDesc.parse (requestText "4294967297")).bind fun t => (parse (requestText "4294967297")).map fun c =>
        (c.tiles.length, c.tiles.map (·.tilePosX), t.tilePosX)) = some (1, [1], 0) := by decide +kernel
    obtain ⟨t, ht, hread⟩ := Option.bind_eq_some_iff.1 hread
    obtain ⟨c, hc, hread⟩ := Option.map_eq_some_iff.1 hread
    obtain ⟨hone, hposition, hzero⟩ : c.tiles.length = 1 ∧ c.tiles.map (·.tilePosX) = [1] ∧ t.tilePosX = 0 := by
      simpa using hread
    have htiles := h _ t c ht hc hone
    rw [htiles, List.map_singleton, hzero] at hposition
    exact absurd hposition (by decide)

end Examples

end TileCombined

end CollaboraOnline
