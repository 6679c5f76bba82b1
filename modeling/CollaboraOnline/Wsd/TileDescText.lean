import CollaboraOnline.Kit.Protocol

/-!
# The text of a tile

`TileDesc::serialize` writes the fields of a tile as `name=number`, and `TileDesc::parse` reads them back with
`safe_atoi`, which stops at the largest `int`.
-/

namespace CollaboraOnline

/-! ### Reading numbers -/

namespace Util

open COOLProtocol (isspace sign)

/-- The loop of `safe_atoi`. -/
def atoiLoop (multiplier : Int) : Nat → List Char → Int
  | ret, [] => multiplier * ret
  | ret, c :: p =>
    if c.isDigit then
      let next := ret * 10 + (c.toNat - 48)
      if intMax ≤ next then multiplier * intMax else atoiLoop multiplier next p
    else multiplier * ret

def safe_atoi (p : List Char) : Int :=
  let (negative, p) := sign (p.dropWhile isspace)
  atoiLoop (if negative then -1 else 1) 0 p

/-- The number as it is read back. -/
def clamp (n : Int) : Int := if n < 0 then max (-intMax) n else min intMax n

theorem foldl_decimal_ge (ds : List Char) (ret : Nat) : ret ≤ ds.foldl (fun n c => n * 10 + (c.toNat - 48)) ret := by
  induction ds generalizing ret with
  | nil => exact Nat.le_refl _
  | cons c ds ih =>
    have := ih (ret * 10 + (c.toNat - 48))
    rw [List.foldl_cons]
    omega

/-- The loop stops at the largest `int`. -/
theorem atoiLoop_digits (multiplier : Int) {ds : List Char} (hds : ∀ c ∈ ds, c.isDigit = true) {ret : Nat}
    (hret : (ret : Int) < intMax) :
    atoiLoop multiplier ret ds =
      multiplier * min intMax ((ds.foldl (fun n c => n * 10 + (c.toNat - 48)) ret : Nat) : Int) := by
  induction ds generalizing ret with
  | nil =>
    rw [atoiLoop, List.foldl_nil, min_eq_right hret.le]
  | cons c ds ih =>
    obtain ⟨hc, hds⟩ := List.forall_mem_cons.1 hds
    rw [atoiLoop, if_pos hc, List.foldl_cons]
    dsimp only
    by_cases hnext : intMax ≤ ((ret * 10 + (c.toNat - 48) : Nat) : Int)
    · have hge := foldl_decimal_ge ds (ret * 10 + (c.toNat - 48))
      rw [if_pos hnext, min_eq_left (by omega)]
    · rw [if_neg hnext]
      exact ih hds (by omega)

theorem sign_toString (n : Int) :
    sign ((COOLProtocol.toString n).dropWhile isspace) = (decide (n < 0), COOLProtocol.digits n.natAbs) := by
  obtain ⟨hne, hdigits, -⟩ := COOLProtocol.digits_spec n.natAbs
  obtain ⟨c, rest, hcons⟩ := List.exists_cons_of_ne_nil hne
  obtain ⟨hspace, hminus, hplus, -⟩ := COOLProtocol.digit_ne (hdigits c (by rw [hcons]; exact List.mem_cons_self))
  unfold COOLProtocol.toString
  by_cases hneg : n < 0
  · rw [if_pos hneg, List.singleton_append, List.dropWhile_cons_of_neg (by decide), decide_eq_true hneg]
    rfl
  · rw [if_neg hneg, List.nil_append, decide_eq_false hneg, hcons,
      List.dropWhile_cons_of_neg (by simp [hspace]), sign, if_neg hminus, if_neg hplus]

theorem safe_atoi_toString (n : Int) : safe_atoi (COOLProtocol.toString n) = clamp n := by
  obtain ⟨-, hdigits, hvalue⟩ := COOLProtocol.digits_spec n.natAbs
  have hloop (multiplier : Int) : atoiLoop multiplier 0 (COOLProtocol.digits n.natAbs) =
      multiplier * min intMax (n.natAbs : Int) := by
    have hzero : ((0 : Nat) : Int) < intMax := by decide
    unfold COOLProtocol.decimal at hvalue
    rw [atoiLoop_digits multiplier hdigits hzero, hvalue]
  unfold safe_atoi clamp
  rw [sign_toString]
  dsimp only
  rw [hloop]
  by_cases hneg : n < 0
  · rw [decide_eq_true hneg, if_pos rfl, if_pos hneg]
    unfold intMax
    omega
  · rw [decide_eq_false hneg, if_neg Bool.false_ne_true, if_neg hneg, one_mul]
    congr 1
    omega

end Util

namespace StringVector

/-- What is returned, and the value, which is assigned for a token with the key. -/
def getUInt32 (token key : List Char) (value : Nat) : Bool × Nat :=
  if (key ++ ['=']).isPrefixOf token && key.length + 1 < token.length then
    let value := (Util.safe_atoi (token.drop (key.length + 1)) % 2 ^ 32).toNat
    (value < 2 ^ 32 - 1, value)
  else (false, value)

def getNameIntegerPair (token : List Char) : Option (List Char × Int) :=
  if '=' ∈ token then
    let value := Util.safe_atoi ((token.dropWhile (· != '=')).tail)
    if -intMax - 1 < value ∧ value < intMax then some (token.takeWhile (· != '='), value) else none
  else none

end StringVector

namespace TileDesc

open COOLProtocol (tokenize)

/-! ### Writing -/

/-- The fields in the order of the text. -/
def textFields (t : TileDesc) : List (List Char × Int) :=
  [("nviewid".toList, t.canonicalViewId), ("part".toList, t.part), ("width".toList, t.width),
  ("height".toList, t.height),
    ("tileposx".toList, t.tilePosX), ("tileposy".toList, t.tilePosY), ("tilewidth".toList, t.tileWidth),
    ("tileheight".toList, t.tileHeight)] ++
  (if t.oldWireId ≠ 0 then [("oldwid".toList, (t.oldWireId : Int))] else []) ++
  (if t.wireId ≠ 0 then [("wid".toList, (t.wireId : Int))] else []) ++
  [("ver".toList, t.ver)] ++
  (if 0 ≤ t.id then [("id".toList, t.id)] else []) ++
  (if 0 < t.imgSize then [("imgsize".toList, t.imgSize)] else []) ++
  (if t.mode ≠ 0 then [("mode".toList, t.mode)] else [])

def field (f : List Char × Int) : List Char := f.1 ++ '=' :: COOLProtocol.toString f.2

def serialize (t : TileDesc) (pre suffix : List Char) : List Char :=
  pre ++ t.textFields.flatMap (fun f => ' ' :: field f) ++ suffix

/-! ### Reading -/

structure ParseResults where
  height : Int := 0
  id : Int := -1
  imgsize : Int := 0
  mode : Int := 0
  nviewid : Int := 0
  part : Int := 0
  tileheight : Int := 0
  tileposx : Int := 0
  tileposy : Int := 0
  tilewidth : Int := 0
  ver : Int := -1
  width : Int := 0
  oldWireId : Nat := 0
  wireId : Nat := 0

def ParseResults.set (r : ParseResults) (arg : List Char) (value : Int) : ParseResults :=
  if arg = "height".toList then { r with height := value }
  else if arg = "id".toList then { r with id := value }
  else if arg = "imgsize".toList then { r with imgsize := value }
  else if arg = "mode".toList then { r with mode := value }
  else if arg = "nviewid".toList then { r with nviewid := value }
  else if arg = "part".toList then { r with part := value }
  else if arg = "tileheight".toList then { r with tileheight := value }
  else if arg = "tileposx".toList then { r with tileposx := value }
  else if arg = "tileposy".toList then { r with tileposy := value }
  else if arg = "tilewidth".toList then { r with tilewidth := value }
  else if arg = "ver".toList then { r with ver := value }
  else if arg = "width".toList then { r with width := value }
  else r

/-- The body of the loop over the tokens. -/
def ParseResults.token (r : ParseResults) (token : List Char) : ParseResults :=
  let oldwid := StringVector.getUInt32 token "oldwid".toList r.oldWireId
  let r := { r with oldWireId := oldwid.2 }
  if oldwid.1 then r
  else
    let wid := StringVector.getUInt32 token "wid".toList r.wireId
    let r := { r with wireId := wid.2 }
    if wid.1 then r
    else
      match StringVector.getNameIntegerPair token with
      | some (name, value) => r.set name value
      | none => r

/-- The checks of the constructor. -/
def Admitted (t : TileDesc) : Prop :=
  0 ≤ t.canonicalViewId ∧ 0 ≤ t.part ∧ 0 ≤ t.mode ∧ 0 < t.width ∧ 0 < t.height ∧ 0 ≤ t.tilePosX ∧ 0 ≤ t.tilePosY ∧
    0 < t.tileWidth ∧ 0 < t.tileHeight ∧ 0 ≤ t.imgSize

instance (t : TileDesc) : Decidable t.Admitted := by
  unfold Admitted
  infer_instance

/-- `none` where the constructor throws. -/
def parse (message : List Char) : Option TileDesc :=
  let r := (tokenize message).foldl ParseResults.token {}
  let t : TileDesc :=
    { canonicalViewId := r.nviewid, part := r.part, mode := r.mode, width := r.width, height := r.height,
      tilePosX := r.tileposx, tilePosY := r.tileposy, tileWidth := r.tilewidth, tileHeight :=
        r.tileheight, ver := r.ver,
      imgSize := r.imgsize, id := r.id, oldWireId := r.oldWireId, wireId := r.wireId }
  if t.Admitted then some t else none

/-! ### The tokens of the text -/

theorem tokensFrom_append {v : List Char} (hv : ∀ c ∈ v, COOLProtocol.isSeparator c = false) (token q : List Char) :
    COOLProtocol.tokensFrom token (v ++ q) = COOLProtocol.tokensFrom (token ++ v) q := by
  induction v generalizing token with
  | nil => rw [List.append_nil, List.nil_append]
  | cons c v ih =>
    obtain ⟨hc, hv⟩ := List.forall_mem_cons.1 hv
    simp only [COOLProtocol.isSeparator, Bool.or_eq_false_iff, beq_eq_false_iff_ne] at hc
    rw [List.cons_append, COOLProtocol.tokensFrom, if_neg hc.2, if_neg hc.1, ih hv, List.append_assoc,
      List.singleton_append]

/-- Each word follows a blank, and the text ends or its first line does. -/
theorem tokensFrom_words {ws : List (List Char)}
    (hws : ∀ w ∈ ws, w ≠ [] ∧ ∀ c ∈ w, COOLProtocol.isSeparator c = false)
    {suffix : List Char} (hsuffix : ∀ c ∈ suffix.head?, c = '\n') {token : List Char} :
    COOLProtocol.tokensFrom token (ws.flatMap (fun w => ' ' :: w) ++ suffix) =
      (if token = [] then [] else [token]) ++ ws := by
  induction ws generalizing token with
  | nil =>
    rw [List.flatMap_nil, List.nil_append, List.append_nil]
    cases suffix with
    | nil => rw [COOLProtocol.tokensFrom]
    | cons c q =>
      obtain rfl : c = '\n' := hsuffix c rfl
      rw [COOLProtocol.tokensFrom, if_pos rfl]
  | cons w ws ih =>
    obtain ⟨⟨hne, hw⟩, hws⟩ := List.forall_mem_cons.1 hws
    have hblank : ' ' ≠ '\n' := by decide
    rw [List.flatMap_cons, List.append_assoc, List.cons_append, COOLProtocol.tokensFrom, if_neg hblank, if_pos rfl]
    congr 1
    rw [tokensFrom_append hw, List.nil_append, ih hws, if_neg hne, List.singleton_append]

theorem field_word {f : List Char × Int} (hf : ∀ c ∈ f.1, COOLProtocol.isSeparator c = false) :
    field f ≠ [] ∧ ∀ c ∈ field f, COOLProtocol.isSeparator c = false := by
  constructor
  · exact List.append_ne_nil_of_right_ne_nil _ (List.cons_ne_nil _ _)
  · intro c hc
    unfold field at hc
    obtain hc | hc := List.mem_append.1 hc
    · exact hf c hc
    · obtain rfl | hc := List.mem_cons.1 hc
      · decide
      · exact COOLProtocol.toString_noSeparator _ c hc

/-- The names of the fields. -/
def names : List (List Char) :=
  ["nviewid".toList, "part".toList, "width".toList, "height".toList, "tileposx".toList, "tileposy".toList,
    "tilewidth".toList, "tileheight".toList, "oldwid".toList, "wid".toList, "ver".toList, "id".toList,
      "imgsize".toList,
    "mode".toList]

theorem fst_textFields {t : TileDesc} {f : List Char × Int} (hf : f ∈ t.textFields) : f.1 ∈ names := by
  unfold textFields at hf
  simp only [List.mem_append, List.mem_cons, List.not_mem_nil, or_false, List.mem_ite_nil_right] at hf
  unfold names
  rcases hf with (((((h | h) | h) | h) | h) | h) | h
  · rcases h with h | h | h | h | h | h | h | h <;> simp [h]
  all_goals simp [h]

/-- What the callers write in front of the fields: a word without an equals sign, or nothing. -/
def IsPrefix (pre : List Char) : Prop := ∀ c ∈ pre, COOLProtocol.isSeparator c = false ∧ c ≠ '=' ∧ c ≠ '\x00'

instance (pre : List Char) : Decidable (IsPrefix pre) :=
  List.decidableBAll _ pre

theorem names_spec : ∀ name ∈ names, ∀ c ∈ name, COOLProtocol.isSeparator c = false ∧ c ≠ '=' := by
  have hall : names.all (fun name => name.all fun c => !COOLProtocol.isSeparator c && c != '=') = true := by decide
  intro name hname c hc
  simpa using List.all_eq_true.1 (List.all_eq_true.1 hall name hname) c hc

theorem tokenize_eq_tokensFrom {p : List Char} (h : ∀ c ∈ p.head?, c ≠ '\x00') :
    tokenize p = COOLProtocol.tokensFrom [] p := by
  unfold COOLProtocol.tokenize
  split
  · exact absurd rfl (h _ rfl)
  · rfl

theorem tokenize_serialize (t : TileDesc) {pre suffix : List Char} (hpre : IsPrefix pre)
    (hsuffix : ∀ c ∈ suffix.head?, c = '\n') :
    tokenize (t.serialize pre suffix) = (if pre = [] then [] else [pre]) ++ t.textFields.map field := by
  have hwords : ∀ w ∈ t.textFields.map field, w ≠ [] ∧ ∀ c ∈ w, COOLProtocol.isSeparator c = false := by
    intro w hw
    obtain ⟨f, hf, rfl⟩ := List.mem_map.1 hw
    exact field_word fun c hc => (names_spec f.1 (fst_textFields hf) c hc).1
  have htext : t.serialize pre suffix = pre ++ ((t.textFields.map field).flatMap (fun w => ' ' :: w) ++ suffix) := by
    unfold serialize
    rw [List.flatMap_map, List.append_assoc]
  have hhead : ∀ c ∈ (t.serialize pre suffix).head?, c ≠ '\x00' := by
    intro c hc
    rw [htext] at hc
    cases pre with
    | nil =>
      simp only [textFields, List.map_append, List.map_cons, List.nil_append, List.cons_append, List.flatMap_cons,
        List.head?_cons, Option.mem_some_iff] at hc
      rw [← hc]
      decide
    | cons d pre =>
      obtain rfl : d = c := Option.some.inj hc
      exact (hpre d List.mem_cons_self).2.2
  rw [tokenize_eq_tokensFrom hhead, htext, tokensFrom_append fun c hc => (hpre c hc).1, List.nil_append,
    tokensFrom_words hwords hsuffix]

/-! ### Reading the tokens -/

theorem isPrefixOf_name {key name : List Char} (hkey : '=' ∉ key) (hname : '=' ∉ name) (q : List Char) :
    (key ++ ['=']).isPrefixOf (name ++ '=' :: q) = decide (key = name) := by
  induction key generalizing name with
  | nil =>
    cases name with
    | nil => rfl
    | cons d name =>
      have hd : ¬ '=' = d := fun hd => hname (hd ▸ List.mem_cons_self)
      simp [List.isPrefixOf, hd]
  | cons c key ih =>
    obtain ⟨hc, hkey⟩ := not_or.1 (fun h => hkey (List.mem_cons.2 h))
    cases name with
    | nil =>
      have hc : ¬ c = '=' := fun h => hc h.symm
      simp [List.isPrefixOf, hc]
    | cons d name =>
      obtain ⟨-, hname⟩ := not_or.1 (fun h => hname (List.mem_cons.2 h))
      rw [List.cons_append, List.cons_append, List.isPrefixOf, ih hkey hname]
      by_cases hcd : c = d
      · simp [hcd]
      · simp [hcd]

theorem getUInt32_of_ne {key name : List Char} (hkey : '=' ∉ key) (hname : '=' ∉ name) (hne : key ≠ name)
    (q : List Char) (value : Nat) : StringVector.getUInt32 (name ++ '=' :: q) key value = (false, value) := by
  unfold StringVector.getUInt32
  rw [isPrefixOf_name hkey hname, decide_eq_false hne, Bool.false_and, if_neg Bool.false_ne_true]

/-- A number of 32 bits is read as an `int`. -/
theorem getUInt32_toString {key : List Char} (hkey : '=' ∉ key) (wid value : Nat) :
    StringVector.getUInt32 (key ++ '=' :: COOLProtocol.toString wid) key value = (true, min wid intMax.toNat) := by
  have hdrop : (key ++ '=' :: COOLProtocol.toString wid).drop (key.length + 1) = COOLProtocol.toString wid := by
    have hsplit : key ++ '=' :: COOLProtocol.toString wid = (key ++ ['=']) ++ COOLProtocol.toString wid := by simp
    rw [hsplit, List.drop_left' (by simp)]
  have hpos : 0 < (COOLProtocol.toString wid).length := by
    unfold COOLProtocol.toString
    rw [List.length_append]
    have := List.length_pos_of_ne_nil (COOLProtocol.digits_spec (wid : Int).natAbs).1
    omega
  have hclamp : (Util.clamp (wid : Int) % 2 ^ 32).toNat = min wid intMax.toNat := by
    unfold Util.clamp intMax
    omega
  have hlt : min wid intMax.toNat < 2 ^ 32 - 1 := by
    unfold intMax
    omega
  unfold StringVector.getUInt32
  rw [isPrefixOf_name hkey hkey, decide_eq_true rfl, Bool.true_and, if_pos, hdrop, Util.safe_atoi_toString, hclamp]
  · simp only [hlt, decide_true]
  · simp only [List.length_append, List.length_cons, decide_eq_true_eq]
    omega

theorem getNameIntegerPair_toString {name : List Char} (hname : '=' ∉ name) (value : Int) :
    StringVector.getNameIntegerPair (name ++ '=' :: COOLProtocol.toString value) =
      if value < intMax then some (name, Util.clamp value) else none := by
  have hne : ∀ c ∈ name, (c != '=') = true := by
    intro c hc
    rw [bne_iff_ne]
    rintro rfl
    exact hname hc
  have hmem : '=' ∈ name ++ '=' :: COOLProtocol.toString value := by simp
  have htake : (name ++ '=' :: COOLProtocol.toString value).takeWhile (· != '=') = name := by
    rw [List.takeWhile_append_of_pos hne, List.takeWhile_cons_of_neg (by simp), List.append_nil]
  have hdrop : (name ++ '=' :: COOLProtocol.toString value).dropWhile (· != '=') =
      '=' :: COOLProtocol.toString value := by
    rw [List.dropWhile_append_of_pos hne, List.dropWhile_cons_of_neg (by simp)]
  unfold StringVector.getNameIntegerPair
  rw [if_pos hmem, htake, hdrop, List.tail_cons, Util.safe_atoi_toString]
  dsimp only
  have hbounds : (-intMax - 1 < Util.clamp value ∧ Util.clamp value < intMax) ↔ value < intMax := by
    unfold Util.clamp intMax
    omega
  simp only [hbounds]

namespace ParseResults

variable {r : ParseResults}

theorem token_pre {pre : List Char} (h : '=' ∉ pre) : r.token pre = r := by
  have hkey (key : List Char) (value : Nat) : StringVector.getUInt32 pre key value = (false, value) := by
    have hkeyPre : (key ++ ['=']).isPrefixOf pre = false := by
      rw [Bool.eq_false_iff]
      intro hkeyPre
      exact h ((List.isPrefixOf_iff_prefix.1 hkeyPre).subset (by simp))
    unfold StringVector.getUInt32
    rw [hkeyPre, Bool.false_and, if_neg Bool.false_ne_true]
  unfold token StringVector.getNameIntegerPair
  simp only [hkey, if_neg h, Bool.false_eq_true, if_false]

theorem token_oldwid (wid : Nat) :
    r.token (field ("oldwid".toList, (wid : Int))) = { r with oldWireId := min wid intMax.toNat } := by
  have hkey : '=' ∉ "oldwid".toList := by decide
  have hvalue := getUInt32_toString hkey wid r.oldWireId
  unfold token field
  dsimp only
  rw [hvalue, if_pos rfl]

theorem token_wid (wid : Nat) :
    r.token (field ("wid".toList, (wid : Int))) = { r with wireId := min wid intMax.toNat } := by
  have hold : '=' ∉ "oldwid".toList := by decide
  have hkey : '=' ∉ "wid".toList := by decide
  have hskip := getUInt32_of_ne hold hkey (by decide) (COOLProtocol.toString wid) r.oldWireId
  have hvalue := getUInt32_toString hkey wid r.wireId
  unfold token field
  dsimp only
  rw [hskip, if_neg Bool.false_ne_true, hvalue, if_pos rfl]

/-- What `parse` makes of a field: the largest `int` is skipped. -/
theorem token_field {name : List Char} (hname : '=' ∉ name) (hold : name ≠ "oldwid".toList)
    (hwid : name ≠ "wid".toList)
    (value : Int) : r.token (field (name, value)) = if value < intMax then r.set name (Util.clamp value) else r := by
  have hskip := getUInt32_of_ne (by decide) hname hold.symm (COOLProtocol.toString value) r.oldWireId
  have hskip' := getUInt32_of_ne (by decide) hname hwid.symm (COOLProtocol.toString value) r.wireId
  unfold token field
  dsimp only
  rw [hskip, if_neg Bool.false_ne_true, hskip', if_neg Bool.false_ne_true, getNameIntegerPair_toString hname]
  by_cases hlt : value < intMax
  · rw [if_pos hlt, if_pos hlt]
  · rw [if_neg hlt, if_neg hlt]

/-- The number of a field as it is read back, where nothing is there before but `default`. -/
def readBack (default value : Int) : Int := if value < intMax then Util.clamp value else default

theorem token_as (name : List Char) (get : ParseResults → Int) (put : ParseResults → Int → ParseResults)
    (hname : ('=' ∉ name) ∧ name ≠ "oldwid".toList ∧ name ≠ "wid".toList)
    (hset : ∀ r v, ParseResults.set r name v = put r v)
    (hsame : ∀ r, put r (get r) = r) (r : ParseResults) (value : Int) :
    r.token (field (name, value)) = put r (readBack (get r) value) := by
  rw [token_field hname.1 hname.2.1 hname.2.2]
  unfold readBack
  split
  · exact hset r _
  · exact (hsame r).symm

theorem foldl_optional (p : Prop) [Decidable p] (f : List Char × Int) (r : ParseResults) :
    ((if p then [f] else []).map field).foldl token r = if p then r.token (field f) else r := by
  split <;> rfl

/-- What `parse` reads from the fields. -/
theorem foldl_textFields (t : TileDesc) : (t.textFields.map field).foldl token {} =
    { height := readBack 0 t.height, id := if 0 ≤ t.id then readBack (-1) t.id else -1
      imgsize := if 0 < t.imgSize then readBack 0 t.imgSize else 0, mode :=
        if t.mode ≠ 0 then readBack 0 t.mode else 0
      nviewid := readBack 0 t.canonicalViewId, part := readBack 0 t.part, tileheight := readBack 0 t.tileHeight
      tileposx := readBack 0 t.tilePosX, tileposy := readBack 0 t.tilePosY, tilewidth := readBack 0 t.tileWidth
      ver := readBack (-1) t.ver, width := readBack 0 t.width
      oldWireId := min t.oldWireId intMax.toNat, wireId := min t.wireId intMax.toNat } := by
  have hnviewid := token_as "nviewid".toList (·.nviewid) (fun r v => { r with nviewid := v }) (by decide)
    (fun _ _ => rfl) fun _ => rfl
  have hpart := token_as "part".toList (·.part) (fun r v => { r with part := v }) (by decide)
    (fun _ _ => rfl) fun _ => rfl
  have hwidth := token_as "width".toList (·.width) (fun r v => { r with width := v }) (by decide)
    (fun _ _ => rfl) fun _ => rfl
  have hheight := token_as "height".toList (·.height) (fun r v => { r with height := v }) (by decide) (fun _ _ => rfl)
    fun _ => rfl
  have htileposx := token_as "tileposx".toList (·.tileposx) (fun r v => { r with tileposx := v }) (by decide)
    (fun _ _ => rfl) fun _ => rfl
  have htileposy := token_as "tileposy".toList (·.tileposy) (fun r v => { r with tileposy := v }) (by decide)
    (fun _ _ => rfl) fun _ => rfl
  have htilewidth := token_as "tilewidth".toList (·.tilewidth) (fun r v => { r with tilewidth := v }) (by decide)
    (fun _ _ => rfl) fun _ => rfl
  have htileheight := token_as "tileheight".toList (·.tileheight) (fun r v => { r with tileheight := v }) (by decide)
    (fun _ _ => rfl) fun _ => rfl
  have hver := token_as "ver".toList (·.ver) (fun r v => { r with ver := v }) (by decide)
    (fun _ _ => rfl) fun _ => rfl
  have hid := token_as "id".toList (·.id) (fun r v => { r with id := v }) (by decide) (fun _ _ => rfl) fun _ => rfl
  have himgsize := token_as "imgsize".toList (·.imgsize) (fun r v => { r with imgsize := v }) (by decide)
    (fun _ _ => rfl) fun _ => rfl
  have hmode := token_as "mode".toList (·.mode) (fun r v => { r with mode := v }) (by decide)
    (fun _ _ => rfl) fun _ => rfl
  -- The optional fields are left out where they have their default.
  have holdwid : ∀ r : ParseResults, r.oldWireId = 0 →
      ((if t.oldWireId ≠ 0 then [("oldwid".toList, (t.oldWireId : Int))] else []).map field).foldl token r =
        { r with oldWireId := min t.oldWireId intMax.toNat } := by
    intro r hr
    rw [foldl_optional, token_oldwid]
    split
    · rfl
    · rename_i hzero
      rw [not_not.1 hzero, Nat.zero_min, ← hr]
  have hwid : ∀ r : ParseResults, r.wireId = 0 →
      ((if t.wireId ≠ 0 then [("wid".toList, (t.wireId : Int))] else []).map field).foldl token r =
        { r with wireId := min t.wireId intMax.toNat } := by
    intro r hr
    rw [foldl_optional, token_wid]
    split
    · rfl
    · rename_i hzero
      rw [not_not.1 hzero, Nat.zero_min, ← hr]
  have hid : ∀ r : ParseResults, r.id = -1 →
      ((if 0 ≤ t.id then [("id".toList, t.id)] else []).map field).foldl token r =
        { r with id := if 0 ≤ t.id then readBack (-1) t.id else -1 } := by
    intro r hr
    rw [foldl_optional, hid, hr]
    split
    · rfl
    · rw [← hr]
  have himgsize : ∀ r : ParseResults, r.imgsize = 0 →
      ((if 0 < t.imgSize then [("imgsize".toList, t.imgSize)] else []).map field).foldl token r =
        { r with imgsize := if 0 < t.imgSize then readBack 0 t.imgSize else 0 } := by
    intro r hr
    rw [foldl_optional, himgsize, hr]
    split
    · rfl
    · rw [← hr]
  have hmode : ∀ r : ParseResults, r.mode = 0 →
      ((if t.mode ≠ 0 then [("mode".toList, t.mode)] else []).map field).foldl token r =
        { r with mode := if t.mode ≠ 0 then readBack 0 t.mode else 0 } := by
    intro r hr
    rw [foldl_optional, hmode, hr]
    split
    · rfl
    · rw [← hr]
  unfold textFields
  simp only [List.map_append, List.foldl_append, List.map_cons, List.map_nil, List.foldl_cons, List.foldl_nil,
    hnviewid, hpart, hwidth, hheight, htileposx, htileposy, htilewidth, htileheight, hver]
  rw [holdwid _ rfl, hwid _ rfl, hid _ rfl, himgsize _ rfl, hmode _ rfl]

end ParseResults

/-! ### The round trip -/

/-- The numbers that are read back: less than the largest `int`, and no version that is the smallest. -/
structure Fits (t : TileDesc) : Prop where
  canonicalViewId : t.canonicalViewId < intMax
  part : t.part < intMax
  mode : t.mode < intMax
  width : t.width < intMax
  height : t.height < intMax
  tilePosX : t.tilePosX < intMax
  tilePosY : t.tilePosY < intMax
  tileWidth : t.tileWidth < intMax
  tileHeight : t.tileHeight < intMax
  ver : -intMax - 1 < t.ver ∧ t.ver < intMax
  imgSize : t.imgSize < intMax
  id : t.id < intMax
  oldWireId : (t.oldWireId : Int) ≤ intMax
  wireId : (t.wireId : Int) ≤ intMax

/-- A tile that the constructor admits, with its numbers of 32 bits. -/
structure IsTile (t : TileDesc) : Prop where
  admitted : t.Admitted
  ints : ∀ n ∈ [t.canonicalViewId, t.part, t.mode, t.width, t.height, t.tilePosX, t.tilePosY, t.tileWidth,
    t.tileHeight, t.ver, t.imgSize, t.id], -intMax - 1 ≤ n ∧ n ≤ intMax
  wids : t.oldWireId < 2 ^ 32 ∧ t.wireId < 2 ^ 32

/-- A negative id stands for none. -/
def normalised (t : TileDesc) : TileDesc := { t with id := if t.id < 0 then -1 else t.id }

/-- The tile that `parse` makes of the text, before the checks. -/
def readBack (t : TileDesc) : TileDesc :=
  { canonicalViewId := ParseResults.readBack 0 t.canonicalViewId, part := ParseResults.readBack 0 t.part
    mode := if t.mode ≠ 0 then ParseResults.readBack 0 t.mode else 0, width := ParseResults.readBack 0 t.width
    height := ParseResults.readBack 0 t.height, tilePosX := ParseResults.readBack 0 t.tilePosX
    tilePosY := ParseResults.readBack 0 t.tilePosY, tileWidth := ParseResults.readBack 0 t.tileWidth
    tileHeight := ParseResults.readBack 0 t.tileHeight, ver := ParseResults.readBack (-1) t.ver
    imgSize := if 0 < t.imgSize then ParseResults.readBack 0 t.imgSize else 0
    id := if 0 ≤ t.id then ParseResults.readBack (-1) t.id else -1
    oldWireId := min t.oldWireId intMax.toNat, wireId := min t.wireId intMax.toNat }

theorem parse_serialize_eq (t : TileDesc) {pre suffix : List Char} (hpre : IsPrefix pre)
    (hsuffix : ∀ c ∈ suffix.head?, c = '\n') :
    parse (t.serialize pre suffix) = if t.readBack.Admitted then some t.readBack else none := by
  have hskip : (if pre = [] then [] else [pre]).foldl ParseResults.token {} = {} := by
    split
    · rfl
    · exact ParseResults.token_pre fun h => (hpre _ h).2.1 rfl
  unfold parse
  rw [tokenize_serialize t hpre hsuffix, List.foldl_append, hskip, ParseResults.foldl_textFields]
  rfl

theorem readBack_nonneg {v : Int} (h : 0 ≤ v) (hmax : v ≤ intMax) : ParseResults.readBack 0 v = v ↔ v < intMax := by
  unfold ParseResults.readBack Util.clamp
  unfold intMax at *
  split <;> omega

theorem readBack_ver {v : Int} (h : -intMax - 1 ≤ v) (hmax : v ≤ intMax) :
    ParseResults.readBack (-1) v = v ↔ -intMax - 1 < v ∧ v < intMax := by
  unfold ParseResults.readBack Util.clamp
  unfold intMax at *
  split <;> omega

theorem readBack_id {v : Int} (hmax : v ≤ intMax) :
    (if 0 ≤ v then ParseResults.readBack (-1) v else -1) = (if v < 0 then -1 else v) ↔ v < intMax := by
  unfold ParseResults.readBack Util.clamp
  unfold intMax at *
  split <;> split <;> omega

theorem eq_iff (a b : TileDesc) : a = b ↔ a.canonicalViewId = b.canonicalViewId ∧ a.part = b.part ∧ a.mode = b.mode ∧
    a.width = b.width ∧ a.height = b.height ∧ a.tilePosX = b.tilePosX ∧ a.tilePosY = b.tilePosY ∧
    a.tileWidth = b.tileWidth ∧ a.tileHeight = b.tileHeight ∧ a.ver = b.ver ∧ a.imgSize = b.imgSize ∧ a.id = b.id ∧
    a.oldWireId = b.oldWireId ∧ a.wireId = b.wireId := by
  obtain ⟨⟨_, _, _, _, _, _, _, _, _⟩, _, _, _, _, _⟩ := a
  obtain ⟨⟨_, _, _, _, _, _, _, _, _⟩, _, _, _, _, _⟩ := b
  simp only [TileDesc.mk.injEq, TileKey.mk.injEq, and_assoc]

/-- The text reads back as the tile, where the numbers fit. -/
theorem readBack_eq_iff (t : TileDesc) (ht : t.IsTile) : t.readBack = t.normalised ↔ t.Fits := by
  obtain ⟨hview, hpart, hmode, hwidth, hheight, hx, hy, htileWidth, htileHeight, himg⟩ := ht.admitted
  have hrange := ht.ints
  simp only [List.forall_mem_cons, List.not_mem_nil, false_imp_iff, implies_true, and_true] at hrange
  obtain ⟨mview, mpart, mmode, mwidth, mheight, mx, my, mtileWidth, mtileHeight, mver, mimg, mid⟩ := hrange
  have hmode' : (if t.mode ≠ 0 then ParseResults.readBack 0 t.mode else 0) = t.mode ↔ t.mode < intMax := by
    rw [← readBack_nonneg hmode mmode.2]
    by_cases hzero : t.mode = 0
    · rw [hzero]
      decide
    · rw [if_pos hzero]
  have himg' : (if 0 < t.imgSize then ParseResults.readBack 0 t.imgSize else 0) = t.imgSize ↔ t.imgSize < intMax := by
    rw [← readBack_nonneg himg mimg.2]
    by_cases hpos : 0 < t.imgSize
    · rw [if_pos hpos]
    · have hzero : t.imgSize = 0 := by omega
      rw [hzero]
      decide
  have hwid (w : Nat) : min w intMax.toNat = w ↔ (w : Int) ≤ intMax := by
    unfold intMax
    omega
  rw [eq_iff]
  dsimp only [readBack, normalised]
  rw [readBack_nonneg hview mview.2, readBack_nonneg hpart mpart.2, hmode', readBack_nonneg hwidth.le mwidth.2,
    readBack_nonneg hheight.le mheight.2, readBack_nonneg hx mx.2, readBack_nonneg hy my.2,
    readBack_nonneg htileWidth.le mtileWidth.2, readBack_nonneg htileHeight.le mtileHeight.2,
      readBack_ver mver.1 mver.2,
    himg', readBack_id mid.2, hwid, hwid]
  constructor
  · rintro ⟨h₁, h₂, h₃, h₄, h₅, h₆, h₇, h₈, h₉, h₁₀, h₁₁, h₁₂, h₁₃, h₁₄⟩
    exact ⟨h₁, h₂, h₃, h₄, h₅, h₆, h₇, h₈, h₉, h₁₀, h₁₁, h₁₂, h₁₃, h₁₄⟩
  · rintro ⟨h₁, h₂, h₃, h₄, h₅, h₆, h₇, h₈, h₉, h₁₀, h₁₁, h₁₂, h₁₃, h₁₄⟩
    exact ⟨h₁, h₂, h₃, h₄, h₅, h₆, h₇, h₈, h₉, h₁₀, h₁₁, h₁₂, h₁₃, h₁₄⟩

/-- A tile comes back from its text if and only if no number is cut off by `safe_atoi` or taken for a failure. -/
theorem parse_serialize (t : TileDesc) {pre suffix : List Char} (hpre : IsPrefix pre)
    (hsuffix : ∀ c ∈ suffix.head?, c = '\n') (ht : t.IsTile) :
    parse (t.serialize pre suffix) = some t.normalised ↔ t.Fits := by
  have hadmitted : t.normalised.Admitted := ht.admitted
  rw [parse_serialize_eq t hpre hsuffix, ← readBack_eq_iff t ht]
  constructor
  · intro h
    split at h
    · exact Option.some.inj h
    · cases h
  · intro h
    rw [h, if_pos hadmitted]

/-- A tile with a wire id that is no `int`. -/
def lateTile : TileDesc :=
  { canonicalViewId := 1000, part := 0, mode := 0, width := 256, height := 256, tilePosX := 0, tilePosY := 0
    tileWidth := 3840, tileHeight := 3840, ver := -1, imgSize := 0, id := -1, oldWireId := 0, wireId := 2 ^ 31 }

theorem parse_serialize_earlyTile :
    parse (({ lateTile with wireId := 7 } : TileDesc).serialize "tile:".toList "\n".toList) =
    some { lateTile with wireId := 7 } :=
  (parse_serialize { lateTile with wireId := 7 } (by decide) (by rintro c ⟨⟩; rfl)
    ⟨by decide, by decide, by decide⟩).2
    ⟨by decide, by decide, by decide, by decide, by decide, by decide, by decide, by decide, by decide, by decide,
      by decide, by decide, by decide, by decide⟩

theorem not_parse_serialize : ¬ ∀ t :
    TileDesc, t.IsTile → parse (t.serialize "tile:".toList "\n".toList) = some t.normalised := by
  intro h
  have hlate := h lateTile ⟨by decide, by decide, by decide⟩
  have hread : parse (lateTile.serialize "tile:".toList "\n".toList) =
      some { lateTile with wireId := 2 ^ 31 - 1 } := by
    decide +kernel
  rw [hread] at hlate
  have := congrArg TileDesc.wireId (Option.some.inj hlate)
  revert this
  decide

end TileDesc

end CollaboraOnline
