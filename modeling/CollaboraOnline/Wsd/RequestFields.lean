import CollaboraOnline.Wsd.RequestDetails
import CollaboraOnline.Wsd.ClipboardOrigin

/-!
# The fields of a request that is built

`RequestDetails` is also built of a WOPISrc and options: they are put together into a URL, which is taken apart again.
The parameters of a URL are decoded twice, so that the WOPISrc comes back only where it has no escapes.  The options
are the parameters of the document URI where the WOPISrc has no query and no fragment; otherwise they fall into the
fragment or are glued to its last parameter, and come back only where its own parameters make up for that
(`construct_recovers`).
-/

namespace CollaboraOnline

namespace RequestDetails

open Http (text)

/-- The characters that need no encoding. -/
def isUnreserved (c : UInt8) : Bool :=
  (0x30 ≤ c && c ≤ 0x39) || (0x41 ≤ c && c ≤ 0x5a) || (0x61 ≤ c && c ≤ 0x7a) || c = 0x2d || c = 0x2e || c =
    0x5f || c = 0x7e

/-- `key=value`. -/
def optionText (option : List UInt8 × List UInt8) : List UInt8 := option.1 ++ EQUALS :: option.2

def withOptions (decodedWopiSrc : List UInt8) (options : List (List UInt8)) : List UInt8 :=
  decodedWopiSrc ++ (if options = [] then [] else [QUESTION]) ++ options.flatMap (· ++ [AMPERSAND])

/-- The constructor of the WOPISrc, the options and `compat`. -/
def construct (lib : UriLibrary) (wopiSrc : List UInt8) (options : List (List UInt8)) (compat : List UInt8) :
    Option Details := do
  let decodedWopiSrc ← lib.decode wopiSrc
  processURI lib (text "/cool/" ++ (lib.encode (withOptions decodedWopiSrc options) ++ (text "/ws?WOPISrc=" ++
    (lib.encode decodedWopiSrc ++ (text "&compat=/ws" ++ compat)))))

/-! ### What the URI library does -/

/-- The query of a URI: what is behind the first question mark, up to the fragment. -/
def queryOf (uri : List UInt8) : List UInt8 := ((uri.takeWhile (· ≠ HASH)).dropWhile (· ≠ QUESTION)).drop 1

def plusToSpace (s : List UInt8) : List UInt8 := s.map fun c => if c = PLUS then 0x20 else c

/-- The name and the value of a part of a query. -/
def parameterOf (part : List UInt8) : List UInt8 × List UInt8 :=
  (plusToSpace (part.takeWhile (· ≠ EQUALS)), plusToSpace ((part.dropWhile (· ≠ EQUALS)).drop 1))

/-- The parameters of a query, not decoded; a last ampersand adds none. -/
def splitQuery (query : List UInt8) : List (List UInt8 × List UInt8) :=
  let parts := query.splitOn AMPERSAND
  (if parts.getLast? = some [] then parts.dropLast else parts).map parameterOf

/-- What is documented of the library: decoding undoes encoding, encoded text has no delimiters, text without escapes
is left as it is and an escape becomes one byte, a path that can be decoded is accepted, and the parameters of a URI
are the decoded parts of its query. -/
structure UriLibrary.Lawful (lib : UriLibrary) : Prop where
  decode_encode : ∀ s, lib.decode (lib.encode s) = some s
  encode_chars : ∀ s, ∀ c ∈ lib.encode s, c ∉ [SLASH, QUESTION, HASH, AMPERSAND, EQUALS, PLUS]
  decode_plain : ∀ s, PERCENT ∉ s → lib.decode s = some s
  decode_escape : ∀ s s', lib.decode s = some s' → PERCENT ∈ s → s'.length < s.length
  decode_append : ∀ s t s' t', lib.decode s = some s' → lib.decode t = some t' → lib.decode (s ++ t) = some (s' ++ t')
  accepts_path : ∀ s, s.head? = some SLASH → s[1]? ≠ some SLASH → (lib.decode s).isSome = true → lib.accepts s = true
  parameters : ∀ uri, lib.getQueryParameters uri =
    if lib.accepts uri then (splitQuery (queryOf uri)).mapM fun param => do
      return (← lib.decode param.1, ← lib.decode param.2) else none

/-! ### The fields that are expected -/

/-- The value of a name: that of its first entry. -/
def firstValue (params : Params) (name : List UInt8) : Option (List UInt8) :=
  (params.find? fun p => p.1 = name).map Prod.snd

/-- The same map. -/
def SameParams (params params' : Params) : Prop := ∀ name, firstValue params name = firstValue params' name

/-- The fields are those that the details were built of. -/
def Recovers (lib : UriLibrary) (wopiSrc decodedWopiSrc : List UInt8) (options : List (List UInt8 × List UInt8))
    (compat : List UInt8) : Prop :=
  ∃ d, construct lib wopiSrc (options.map optionText) compat = some d ∧ d.wopiSrc = decodedWopiSrc ∧
    d.documentURI = withOptions decodedWopiSrc (options.map optionText) ∧ SameParams d.docUriParams options

/-- The last parameter of the WOPISrc has the name of an earlier one, so that what is glued to it is dropped; the
other parameters and all options but the first are the options. -/
def Repeats (decodedWopiSrc : List UInt8) (options : List (List UInt8 × List UInt8)) : Prop :=
  ∃ path query key value, decodedWopiSrc = path ++ QUESTION :: (query ++ AMPERSAND :: (key ++ EQUALS :: value)) ∧
    QUESTION ∉ path ∧ AMPERSAND ∉ key ∧ EQUALS ∉ key ∧ AMPERSAND ∉ value ∧
      plusToSpace key ∈ ((query.splitOn AMPERSAND).map parameterOf).map Prod.fst ∧
        SameParams ((query.splitOn AMPERSAND).map parameterOf ++ options.tail) options

/-- The WOPISrc has no parameters in the way of the options, or they make up for it. -/
def Separate (decodedWopiSrc : List UInt8) (options : List (List UInt8 × List UInt8)) : Prop :=
  (QUESTION ∉ decodedWopiSrc ∧ HASH ∉ decodedWopiSrc) ∨
    ((HASH ∈ decodedWopiSrc ∨ options = []) ∧ SameParams (splitQuery (queryOf decodedWopiSrc)) options) ∨
      (HASH ∉ decodedWopiSrc ∧ Repeats decodedWopiSrc options)

section Fields

variable {lib : UriLibrary} {s name value path query w D : List UInt8} {decodedWopiSrc compat : List UInt8}
  {c : UInt8} {options : List (List UInt8 × List UInt8)}

theorem not_mem_of_isUnreserved (hs : ∀ b ∈ s, isUnreserved b = true) (hc : isUnreserved c = false) : c ∉ s := by
  intro hmem
  rw [hs c hmem] at hc
  cases hc

theorem plusToSpace_eq (h : PLUS ∉ s) : plusToSpace s = s := by
  unfold plusToSpace
  refine (List.map_congr_left fun c hc => ?_).trans (List.map_id s)
  have hne : c ≠ PLUS := fun heq => h (heq ▸ hc)
  exact if_neg hne

/-! ### The query -/

theorem takeWhile_ne (h : c ∉ s) (t : List UInt8) : (s ++ c :: t).takeWhile (· ≠ c) = s := by
  have hall : ∀ b ∈ s, decide (b ≠ c) = true := fun b hb => by simpa using fun heq : b = c => h (heq ▸ hb)
  rw [List.takeWhile_append_of_pos hall, List.takeWhile_cons_of_neg (by simp), List.append_nil]

theorem dropWhile_ne (h : c ∉ s) (t : List UInt8) : (s ++ c :: t).dropWhile (· ≠ c) = c :: t := by
  have hall : ∀ b ∈ s, decide (b ≠ c) = true := fun b hb => by simpa using fun heq : b = c => h (heq ▸ hb)
  rw [List.dropWhile_append_of_pos hall, List.dropWhile_cons_of_neg (by simp)]

/-- A part of a query with an equals sign. -/
theorem parameterOf_eq (hname : EQUALS ∉ name) :
    parameterOf (name ++ EQUALS :: value) = (plusToSpace name, plusToSpace value) := by
  unfold parameterOf
  rw [takeWhile_ne hname, dropWhile_ne hname]
  rfl

theorem takeWhile_hash (h : HASH ∉ s) : s.takeWhile (· ≠ HASH) = s := by
  rw [List.takeWhile_eq_self_iff]
  intro c hc
  simpa using fun heq : c = HASH => h (heq ▸ hc)

theorem queryOf_eq (hpath : QUESTION ∉ path) (hhash : HASH ∉ path ++ QUESTION :: query) :
    queryOf (path ++ QUESTION :: query) = query := by
  unfold queryOf
  rw [takeWhile_hash hhash, dropWhile_ne hpath]
  rfl

theorem queryOf_nil (h : QUESTION ∉ s) : queryOf s = [] := by
  have hnone : (s.takeWhile (· ≠ HASH)).dropWhile (· ≠ QUESTION) = [] := by
    rw [List.dropWhile_eq_nil_iff]
    intro c hc
    simpa using fun heq : c = QUESTION => h (heq ▸ (List.takeWhile_sublist _).subset hc)
  unfold queryOf
  rw [hnone]
  rfl

/-! ### The parameters of the document URI -/

theorem not_mem_optionText {option : List UInt8 × List UInt8} (hc : c ≠ EQUALS) (hreserved : isUnreserved c = false)
    (h : (∀ b ∈ option.1, isUnreserved b = true) ∧ ∀ b ∈ option.2, isUnreserved b = true) :
      c ∉ optionText option := by
  unfold optionText
  rw [List.mem_append, List.mem_cons]
  rintro (hmem | heq | hmem)
  · exact not_mem_of_isUnreserved h.1 hreserved hmem
  · exact hc heq
  · exact not_mem_of_isUnreserved h.2 hreserved hmem

/-- The texts of options, each with an ampersand behind it, are taken apart. -/
theorem splitOn_options (hoptions : ∀ option ∈ options, AMPERSAND ∉ optionText option) :
    ((options.map optionText).flatMap (· ++ [AMPERSAND])).splitOn AMPERSAND = options.map optionText ++ [[]] := by
  induction options with
  | nil => rfl
  | cons option options ih =>
    rw [List.map_cons, List.flatMap_cons, List.append_assoc, List.singleton_append,
      List.splitOn_append_cons_self_of_not_mem (hoptions option List.mem_cons_self),
      ih fun o ho => hoptions o (List.mem_cons_of_mem _ ho)]
    rfl

/-- Whatever is in front of the options, a last ampersand adds no parameter. -/
theorem splitQuery_of_splitOn {parts : List (List UInt8)} (h : query.splitOn AMPERSAND = parts ++ [[]]) :
    splitQuery query = parts.map parameterOf := by
  unfold splitQuery
  rw [h]
  dsimp only
  rw [List.getLast?_concat, if_pos rfl, List.dropLast_concat]

section Options

variable (hoptions : ∀ option ∈ options, (∀ b ∈ option.1, isUnreserved b = true) ∧
  ∀ b ∈ option.2, isUnreserved b = true)
include hoptions

theorem map_parameterOf_options : (options.map optionText).map parameterOf = options := by
  rw [List.map_map]
  refine (List.map_congr_left fun option hoption => ?_).trans (List.map_id options)
  obtain ⟨hkey, hvalue⟩ := hoptions option hoption
  have hplus : plusToSpace option.1 = option.1 ∧ plusToSpace option.2 = option.2 :=
    ⟨plusToSpace_eq (not_mem_of_isUnreserved hkey (by decide)),
    plusToSpace_eq (not_mem_of_isUnreserved hvalue (by decide))⟩
  refine (parameterOf_eq (not_mem_of_isUnreserved hkey (by decide))).trans ?_
  rw [hplus.1, hplus.2]
  rfl

theorem amp_notMem_options : ∀ option ∈ options, AMPERSAND ∉ optionText option :=
  fun option hoption => not_mem_optionText (by decide) (by decide) (hoptions option hoption)

theorem notMem_flat (hc : c ≠ EQUALS) (hamp : c ≠ AMPERSAND) (hreserved : isUnreserved c = false) :
    c ∉ (options.map optionText).flatMap (· ++ [AMPERSAND]) := by
  rw [List.mem_flatMap]
  rintro ⟨part, hpart, hmem⟩
  obtain ⟨option, hoption, rfl⟩ := List.mem_map.1 hpart
  rw [List.mem_append, List.mem_singleton] at hmem
  rcases hmem with hmem | heq
  · exact not_mem_optionText hc hreserved (hoptions option hoption) hmem
  · exact hamp heq

theorem notMem_withOptions (hc : c ≠ EQUALS) (hamp : c ≠ AMPERSAND) (hquestion : c ≠ QUESTION)
    (hreserved : isUnreserved c = false) (hmem : c ∉ decodedWopiSrc) :
    c ∉ withOptions decodedWopiSrc (options.map optionText) := by
  unfold withOptions
  rw [List.mem_append, List.mem_append, not_or, not_or]
  refine ⟨⟨hmem, ?_⟩, notMem_flat hoptions hc hamp hreserved⟩
  split
  · exact List.not_mem_nil
  · exact fun h => hquestion (List.mem_singleton.1 h)

end Options

theorem withOptions_nil : withOptions decodedWopiSrc [] = decodedWopiSrc := by
  simp [withOptions]

theorem withOptions_cons (option : List UInt8 × List UInt8) :
    withOptions decodedWopiSrc ((option :: options).map optionText) =
      decodedWopiSrc ++ QUESTION :: ((option :: options).map optionText).flatMap (· ++ [AMPERSAND]) := by
  unfold withOptions
  rw [if_neg (by simp), List.append_assoc, List.singleton_append]

/-! ### Maps of parameters -/

theorem firstValue_append (params params' : Params) (name : List UInt8) :
    firstValue (params ++ params') name = (firstValue params name).or (firstValue params' name) := by
  unfold firstValue
  rw [List.find?_append]
  cases params.find? fun p => p.1 = name with
  | none => rfl
  | some p => rfl

theorem firstValue_isSome {params : Params} :
    (firstValue params name).isSome = true ↔ name ∈ params.map Prod.fst := by
  unfold firstValue
  rw [Option.isSome_map, List.find?_isSome, List.mem_map]
  simp

theorem firstValue_emplace (params : Params) (param : List UInt8 × List UInt8) (name : List UInt8) :
    firstValue (emplace params param) name = firstValue (params ++ [param]) name := by
  unfold emplace
  split
  · rename_i hany
    rw [firstValue_append]
    by_cases hname : param.1 = name
    · have hsome : (firstValue params name).isSome = true := by
        rw [firstValue_isSome, ← hname, List.mem_map]
        simpa using hany
      obtain ⟨v, hv⟩ := Option.isSome_iff_exists.1 hsome
      rw [hv, Option.some_or]
    · have hnone : firstValue [param] name = none := by simp [firstValue, hname]
      rw [hnone, Option.or_none]
  · rfl

/-- Entering the parameters one by one leaves the first value of every name. -/
theorem firstValue_foldl (ps params : Params) (name : List UInt8) :
    firstValue (ps.foldl emplace params) name = firstValue (params ++ ps) name := by
  induction ps generalizing params with
  | nil => rw [List.append_nil]; rfl
  | cons p ps ih =>
    rw [List.foldl_cons, ih, firstValue_append, firstValue_emplace, ← firstValue_append, List.append_assoc,
      List.singleton_append]

theorem mem_of_firstValue {params : Params} {v : List UInt8} (h : firstValue params name = some v) :
    (name, v) ∈ params := by
  obtain ⟨p, hp, rfl⟩ := Option.map_eq_some_iff.1 h
  have hname : p.1 = name := by simpa using List.find?_some hp
  rw [← hname]
  exact List.mem_of_find?_eq_some hp

/-! ### Decoding once more -/

theorem mem_of_mem_splitOn {part : List UInt8} (hpart : part ∈ s.splitOn c) {b : UInt8} (hb : b ∈ part) : b ∈ s := by
  rw [← @List.intercalate_splitOn _ s _ _ c, List.intercalate, List.mem_flatten]
  refine ⟨part, ?_, hb⟩
  generalize s.splitOn c = parts at hpart
  induction parts with
  | nil => cases hpart
  | cons first rest ih =>
    cases rest with
    | nil => simpa using hpart
    | cons second rest =>
      rw [List.intersperse_cons_cons, List.mem_cons, List.mem_cons]
      rcases List.mem_cons.1 hpart with rfl | hpart
      · exact .inl rfl
      · exact .inr (.inr (ih hpart))

theorem notMem_plusToSpace (hc : c ≠ 0x20) (hmem : c ∉ s) : c ∉ plusToSpace s := by
  unfold plusToSpace
  rw [List.mem_map]
  rintro ⟨b, hb, heq⟩
  split at heq
  · exact hc heq.symm
  · exact hmem (heq ▸ hb)

theorem notMem_splitQuery (hc : c ≠ 0x20) (hmem : c ∉ query) :
    ∀ param ∈ splitQuery query, c ∉ param.1 ∧ c ∉ param.2 := by
  intro param hparam
  obtain ⟨part, hpart, rfl⟩ := List.mem_map.1 hparam
  have hsplit : part ∈ query.splitOn AMPERSAND := by
    split at hpart
    · exact List.dropLast_subset _ hpart
    · exact hpart
  have hnot : c ∉ part := fun h => hmem (mem_of_mem_splitOn hsplit h)
  exact ⟨notMem_plusToSpace hc fun h => hnot ((List.takeWhile_sublist _).subset h),
    notMem_plusToSpace hc fun h => hnot ((List.dropWhile_sublist _).subset (List.mem_of_mem_drop h))⟩

section Plain

variable {ps : Params} (hplain : ∀ param ∈ ps, PERCENT ∉ param.1 ∧ PERCENT ∉ param.2)
include hplain

theorem mapM_plain (hlib : lib.Lawful) :
    (ps.mapM fun param => do return (← lib.decode param.1, ← lib.decode param.2)) = some ps := by
  induction ps with
  | nil => rfl
  | cons param ps ih =>
    obtain ⟨hkey, hvalue⟩ := hplain param List.mem_cons_self
    rw [List.mapM_cons, hlib.decode_plain _ hkey, hlib.decode_plain _ hvalue,
      ih fun p hp => hplain p (List.mem_cons_of_mem _ hp)]
    rfl

theorem foldlM_plain (hlib : lib.Lawful) (params : Params) :
    ps.foldlM (fun result param => do return emplace result (← lib.decode param.1, ← lib.decode param.2)) params =
      some (ps.foldl emplace params) := by
  induction ps generalizing params with
  | nil => rfl
  | cons param ps ih =>
    obtain ⟨hkey, hvalue⟩ := hplain param List.mem_cons_self
    rw [List.foldlM_cons, hlib.decode_plain _ hkey, hlib.decode_plain _ hvalue]
    exact ih (fun p hp => hplain p (List.mem_cons_of_mem _ hp)) (emplace params param)

end Plain

/-- The parameters of a URI without escapes. -/
theorem getParams_plain (hlib : lib.Lawful) (hplain : PERCENT ∉ s) :
    getParams lib s = if lib.accepts s then some ((splitQuery (queryOf s)).foldl emplace []) else none := by
  have hquery : PERCENT ∉ queryOf s := fun h =>
    hplain ((List.takeWhile_sublist _).subset ((List.dropWhile_sublist _).subset (List.mem_of_mem_drop h)))
  have hparams := notMem_splitQuery (c := PERCENT) (by decide) hquery
  unfold getParams
  rw [hlib.parameters]
  split
  · rw [mapM_plain hparams hlib]
    exact foldlM_plain hparams hlib []
  · rfl

/-! ### The parameters of the document URI -/

/-- What is glued to a parameter comes back only where it is dropped: it has a question mark, which no option has. -/
theorem glued_iff {params rest : Params} {option : List UInt8 × List UInt8} {part : List UInt8}
    (hoptions : ∀ o ∈ option :: rest, (∀ b ∈ o.1, isUnreserved b = true) ∧ ∀ b ∈ o.2, isUnreserved b = true) :
    SameParams (params ++ parameterOf (part ++ QUESTION :: optionText option) :: rest) (option :: rest) ↔
      ∃ key value, part = key ++ EQUALS :: value ∧ EQUALS ∉ key ∧ plusToSpace key ∈ params.map Prod.fst ∧
        SameParams (params ++ rest) (option :: rest) := by
  -- a value in the map of the options has no question mark, and neither has its name
  have hnone : ∀ {name v}, firstValue (option :: rest) name = some v → QUESTION ∉ name ∧ QUESTION ∉ v := by
    intro name v h
    obtain ⟨hkey, hvalue⟩ := hoptions _ (mem_of_firstValue h)
    exact ⟨not_mem_of_isUnreserved hkey (by decide), not_mem_of_isUnreserved hvalue (by decide)⟩
  have hglued : ∀ name, firstValue (params ++ parameterOf (part ++ QUESTION :: optionText option) :: rest) name =
      (firstValue params name).or ((firstValue [parameterOf (part ++ QUESTION :: optionText option)] name).or
        (firstValue rest name)) := by
    intro name
    rw [firstValue_append, ← List.singleton_append, firstValue_append]
  have hself : ∀ p : List UInt8 × List UInt8, firstValue [p] p.1 = some p.2 := fun p => by simp [firstValue]
  have hquestion : ∀ {t : List UInt8}, QUESTION ∈ t → QUESTION ∈ plusToSpace t := fun h =>
    List.mem_map.2 ⟨QUESTION, h, by decide⟩
  by_cases hequals : EQUALS ∈ part
  · obtain ⟨key, value, rfl, hkey⟩ := List.eq_append_cons_of_mem hequals
    have hparam : parameterOf ((key ++ EQUALS :: value) ++ QUESTION :: optionText option) =
        (plusToSpace key, plusToSpace (value ++ QUESTION :: optionText option)) := by
      rw [List.append_assoc, List.cons_append, parameterOf_eq hkey]
    rw [hparam] at hglued ⊢
    constructor
    · intro hsame
      have hearlier : plusToSpace key ∈ params.map Prod.fst := by
        by_contra hnot
        have hfirst : firstValue params (plusToSpace key) = none := by
          rw [← Option.not_isSome_iff_eq_none, firstValue_isSome]
          exact hnot
        have hvalue := (hsame (plusToSpace key)).symm
        rw [hglued, hfirst, hself, Option.none_or, Option.some_or] at hvalue
        exact (hnone hvalue).2 (hquestion (by simp))
      refine ⟨key, value, rfl, hkey, hearlier, fun name => ?_⟩
      rw [← hsame, hglued, firstValue_append]
      by_cases hname : plusToSpace key = name
      · obtain ⟨v, hv⟩ := Option.isSome_iff_exists.1 (firstValue_isSome.2 hearlier)
        rw [← hname, hv, Option.some_or, Option.some_or]
      · have hother : firstValue [(plusToSpace key, plusToSpace (value ++ QUESTION :: optionText option))] name =
            none := by
          simp [firstValue, hname]
        rw [hother, Option.none_or]
    · rintro ⟨key', value', heq, hkey', hearlier, hsame⟩ name
      obtain rfl : key' = key := by
        have h := congrArg (List.takeWhile (· ≠ EQUALS)) heq
        rwa [takeWhile_ne hkey, takeWhile_ne hkey', eq_comm] at h
      rw [← hsame, hglued, firstValue_append]
      by_cases hname : plusToSpace key' = name
      · obtain ⟨v, hv⟩ := Option.isSome_iff_exists.1 (firstValue_isSome.2 hearlier)
        rw [← hname, hv, Option.some_or, Option.some_or]
      · have hother : firstValue [(plusToSpace key', plusToSpace (value ++ QUESTION :: optionText option))] name =
            none := by
          simp [firstValue, hname]
        rw [hother, Option.none_or]
  · refine iff_of_false (fun hsame => ?_) ?_
    · have hparam : parameterOf (part ++ QUESTION :: optionText option) =
          (plusToSpace (part ++ QUESTION :: option.1), plusToSpace option.2) := by
        have hname : EQUALS ∉ part ++ QUESTION :: option.1 := by
          rw [List.mem_append, List.mem_cons]
          rintro (hmem | heq | hmem)
          · exact hequals hmem
          · exact absurd heq (by decide)
          · exact not_mem_of_isUnreserved (hoptions option List.mem_cons_self).1 (by decide) hmem
        rw [← parameterOf_eq hname, optionText, List.append_assoc, List.cons_append]
      rw [hparam] at hglued hsame
      have hvalue := hsame (plusToSpace (part ++ QUESTION :: option.1))
      rw [hglued, hself] at hvalue
      have hmark : QUESTION ∈ plusToSpace (part ++ QUESTION :: option.1) := hquestion (by simp)
      cases hfirst : firstValue params (plusToSpace (part ++ QUESTION :: option.1)) with
      | none =>
        rw [hfirst, Option.none_or, Option.some_or] at hvalue
        exact (hnone hvalue.symm).1 hmark
      | some v =>
        rw [hfirst, Option.some_or] at hvalue
        exact (hnone hvalue.symm).1 hmark
    · rintro ⟨key, value, rfl, -⟩
      exact hequals (by simp)

/-- The query of a document URI whose WOPISrc has one of its own, and no fragment. -/
theorem splitQuery_glued {option : List UInt8 × List UInt8} {front : List (List UInt8)} {part : List UInt8}
    (hoptions : ∀ o ∈ option :: options, (∀ b ∈ o.1, isUnreserved b = true) ∧ ∀ b ∈ o.2, isUnreserved b = true)
    (hpath : QUESTION ∉ path) (hhash : HASH ∉ path ++ QUESTION :: query)
    (hfront : (query ++ QUESTION :: optionText option ++ AMPERSAND :: s).splitOn AMPERSAND =
      front ++ (part ++ QUESTION :: optionText option) :: s.splitOn AMPERSAND)
    (hs : s = (options.map optionText).flatMap (· ++ [AMPERSAND])) :
    splitQuery (queryOf (withOptions (path ++ QUESTION :: query) ((option :: options).map optionText))) =
      front.map parameterOf ++ parameterOf (part ++ QUESTION :: optionText option) :: options := by
  have hurl : withOptions (path ++ QUESTION :: query) ((option :: options).map optionText) =
      path ++ QUESTION :: (query ++ QUESTION :: optionText option ++ AMPERSAND :: s) := by
    rw [withOptions_cons, hs]
    simp
  have hrest : ∀ o ∈ options, (∀ b ∈ o.1, isUnreserved b = true) ∧ ∀ b ∈ o.2, isUnreserved b = true :=
    fun o ho => hoptions o (List.mem_cons_of_mem _ ho)
  have hnohash := notMem_withOptions hoptions (c := HASH) (by decide) (by decide) (by decide) (by decide) hhash
  rw [hurl] at hnohash ⊢
  rw [queryOf_eq hpath hnohash]
  rw [hs, splitOn_options (amp_notMem_options hrest)] at hfront
  have hparts : (query ++ QUESTION :: optionText option ++
      AMPERSAND :: (options.map optionText).flatMap (· ++ [AMPERSAND])).splitOn AMPERSAND =
        (front ++ (part ++ QUESTION :: optionText option) :: options.map optionText) ++ [[]] := by
    rw [hfront]
    simp
  rw [hs, splitQuery_of_splitOn hparts, List.map_append, List.map_cons, map_parameterOf_options hrest]

theorem amp_notMem_glued {option : List UInt8 × List UInt8} {part : List UInt8} (hpart : AMPERSAND ∉ part)
    (hamp : AMPERSAND ∉ optionText option) : AMPERSAND ∉ part ++ QUESTION :: optionText option := by
  rw [List.mem_append, List.mem_cons]
  rintro (hmem | heq | hmem)
  · exact hpart hmem
  · exact absurd heq (by decide)
  · exact hamp hmem

/-- The first option is glued to what is behind the last ampersand of the query. -/
theorem splitOn_glued {option : List UInt8 × List UInt8} {before part : List UInt8} (hpart : AMPERSAND ∉ part)
    (hamp : AMPERSAND ∉ optionText option) (s : List UInt8) :
    (before ++ AMPERSAND :: part ++ QUESTION :: optionText option ++ AMPERSAND :: s).splitOn AMPERSAND =
      before.splitOn AMPERSAND ++ (part ++ QUESTION :: optionText option) :: s.splitOn AMPERSAND := by
  rw [List.append_assoc, List.append_assoc, List.cons_append, List.splitOn_append_cons_self, ← List.append_assoc,
    List.splitOn_append_cons_self_of_not_mem (amp_notMem_glued hpart hamp)]

theorem splitOn_glued_first {option : List UInt8 × List UInt8} {part : List UInt8} (hpart : AMPERSAND ∉ part)
    (hamp : AMPERSAND ∉ optionText option) (s : List UInt8) :
    (part ++ QUESTION :: optionText option ++ AMPERSAND :: s).splitOn AMPERSAND =
      [] ++ (part ++ QUESTION :: optionText option) :: s.splitOn AMPERSAND := by
  rw [List.splitOn_append_cons_self_of_not_mem (amp_notMem_glued hpart hamp), List.nil_append]

/-- The parameters of the document URI are the options where these are kept apart from the WOPISrc. -/
theorem sameParams_iff
    (hoptions : ∀ option ∈ options, (∀ b ∈ option.1, isUnreserved b = true) ∧ ∀ b ∈ option.2, isUnreserved b = true) :
    SameParams (splitQuery (queryOf (withOptions decodedWopiSrc (options.map optionText)))) options ↔
      Separate decodedWopiSrc options := by
  unfold Separate
  by_cases hhash : HASH ∈ decodedWopiSrc
  · have hquery : queryOf (withOptions decodedWopiSrc (options.map optionText)) = queryOf decodedWopiSrc := by
      obtain ⟨before, behind, rfl, hbefore⟩ := List.eq_append_cons_of_mem hhash
      unfold queryOf withOptions
      rw [List.append_assoc, List.append_assoc, List.cons_append, takeWhile_ne hbefore, takeWhile_ne hbefore]
    rw [hquery]
    simp [hhash]
  simp only [hhash, not_false_eq_true, and_true, false_or, true_and]
  cases options with
  | nil =>
    rw [List.map_nil, withOptions_nil]
    simp only [true_and]
    constructor
    · exact fun hsame => .inr (.inl hsame)
    · rintro (hquestion | hsame | ⟨path, query, key, value, rfl, -, -, -, -, hearlier, hsame⟩)
      · rw [queryOf_nil hquestion]
        exact fun _ => rfl
      · exact hsame
      · have hvalue := firstValue_isSome.2 hearlier
        have hnone := hsame (plusToSpace key)
        rw [List.tail_nil, List.append_nil] at hnone
        rw [hnone] at hvalue
        cases hvalue
  | cons option options =>
    have hrest : ∀ o ∈ options, AMPERSAND ∉ optionText o :=
      amp_notMem_options fun o ho => hoptions o (List.mem_cons_of_mem _ ho)
    have hamp : AMPERSAND ∉ optionText option := amp_notMem_options hoptions option List.mem_cons_self
    simp only [reduceCtorEq, false_and, false_or]
    by_cases hquestion : QUESTION ∈ decodedWopiSrc
    · simp only [hquestion, not_true_eq_false, false_or]
      constructor
      · intro hsame
        obtain ⟨path, query, rfl, hpath⟩ := List.eq_append_cons_of_mem hquestion
        by_cases hlast : AMPERSAND ∈ query
        · -- the last parameter is what is behind the last ampersand
          obtain ⟨behind, before, hreverse, hbehind⟩ := List.eq_append_cons_of_mem (List.mem_reverse.2 hlast)
          have hsplit : query = before.reverse ++ AMPERSAND :: behind.reverse := by
            have h := congrArg List.reverse hreverse
            simpa using h
          have hpart : AMPERSAND ∉ behind.reverse := by rwa [List.mem_reverse]
          subst hsplit
          rw [splitQuery_glued hoptions hpath hhash (splitOn_glued hpart hamp _) rfl, glued_iff hoptions] at hsame
          obtain ⟨key, value, hkeyvalue, hkey, hearlier, hsame⟩ := hsame
          rw [hkeyvalue, List.mem_append, List.mem_cons, not_or, not_or] at hpart
          exact ⟨path, before.reverse, key, value, by rw [hkeyvalue], hpath, hpart.1, hkey, hpart.2.2, hearlier,
            hsame⟩
        · have hfirst := splitOn_glued_first hlast hamp
          rw [splitQuery_glued hoptions hpath hhash (hfirst _) rfl, glued_iff hoptions] at hsame
          obtain ⟨key, value, -, -, hearlier, -⟩ := hsame
          cases hearlier
      · rintro ⟨path, query, key, value, rfl, hpath, hkeyamp, hkey, hvalue, hearlier, hsame⟩
        have hpart : AMPERSAND ∉ key ++ EQUALS :: value := by
          rw [List.mem_append, List.mem_cons, not_or, not_or]
          exact ⟨hkeyamp, by decide, hvalue⟩
        rw [splitQuery_glued hoptions hpath hhash (splitOn_glued hpart hamp _) rfl, glued_iff hoptions]
        exact ⟨key, value, rfl, hkey, hearlier, hsame⟩
    · refine iff_of_true ?_ (.inl hquestion)
      have hnohash := notMem_withOptions hoptions (c := HASH) (by decide) (by decide) (by decide) (by decide) hhash
      rw [withOptions_cons] at hnohash ⊢
      rw [queryOf_eq hquestion hnohash, splitQuery_of_splitOn (splitOn_options (amp_notMem_options hoptions)),
        map_parameterOf_options hoptions]
      exact fun _ => rfl

/-! ### The URL -/

/-- The path and the query of the URL that is built. -/
theorem url_eq (E D compat : List UInt8) :
    text "/cool/" ++ (E ++ (text "/ws?WOPISrc=" ++ (D ++ (text "&compat=/ws" ++ compat)))) =
      (text "/cool/" ++ (E ++ text "/ws")) ++ QUESTION :: (text "WOPISrc" ++ EQUALS :: (D ++ AMPERSAND ::
        (text "compat" ++ EQUALS :: (text "/ws" ++ compat)))) := by
  have hws : text "/ws?WOPISrc=" = text "/ws" ++ QUESTION :: (text "WOPISrc" ++ [EQUALS]) := by decide
  have hcompat : text "&compat=/ws" = AMPERSAND :: (text "compat" ++ EQUALS :: text "/ws") := by decide
  rw [hws, hcompat]
  simp only [List.append_assoc, List.cons_append, List.nil_append]

theorem splitQuery_url (hD : AMPERSAND ∉ D ∧ PLUS ∉ D) (hcompat : AMPERSAND ∉ compat) :
    splitQuery (text "WOPISrc" ++ EQUALS :: (D ++ AMPERSAND :: (text "compat" ++ EQUALS :: (text "/ws" ++ compat)))) =
      [(text "WOPISrc", D), (text "compat", plusToSpace (text "/ws" ++ compat))] := by
  have hfirst : AMPERSAND ∉ text "WOPISrc" ++ EQUALS :: D := by
    rw [List.mem_append, List.mem_cons]
    rintro (hmem | heq | hmem)
    · exact absurd hmem (by decide)
    · exact absurd heq (by decide)
    · exact hD.1 hmem
  have hsecond : AMPERSAND ∉ text "compat" ++ EQUALS :: (text "/ws" ++ compat) := by
    rw [List.mem_append, List.mem_cons, List.mem_append]
    rintro (hmem | heq | hmem | hmem)
    · exact absurd hmem (by decide)
    · exact absurd heq (by decide)
    · exact absurd hmem (by decide)
    · exact hcompat hmem
  have hsplit : (text "WOPISrc" ++ EQUALS ::
    (D ++ AMPERSAND :: (text "compat" ++ EQUALS :: (text "/ws" ++ compat)))).splitOn
      AMPERSAND = [text "WOPISrc" ++ EQUALS :: D, text "compat" ++ EQUALS :: (text "/ws" ++ compat)] := by
    rw [← List.cons_append, ← List.append_assoc, List.splitOn_append_cons_self_of_not_mem hfirst,
      List.splitOn_eq_singleton hsecond]
  have hlast : ¬ [text "WOPISrc" ++ EQUALS :: D, text "compat" ++ EQUALS :: (text "/ws" ++ compat)].getLast? =
      some [] := by
    simp
  unfold splitQuery
  rw [hsplit]
  dsimp only
  rw [if_neg hlast, List.map_cons, List.map_cons, List.map_nil, parameterOf_eq (by decide),
    parameterOf_eq (by decide), plusToSpace_eq hD.2]
  rfl

/-- The parameters of the URL: the WOPISrc is decoded once more. -/
theorem getParams_url (hlib : lib.Lawful)
    (hcompat : HASH ∉ compat ∧ AMPERSAND ∉ compat ∧ PERCENT ∉ compat) :
    getParams lib (text "/cool/" ++ (lib.encode w ++ (text "/ws?WOPISrc=" ++ (lib.encode decodedWopiSrc ++
        (text "&compat=/ws" ++ compat))))) =
      (lib.decode decodedWopiSrc).map fun x =>
      [(text "WOPISrc", x), (text "compat", plusToSpace (text "/ws" ++ compat))] := by
  have hE := hlib.encode_chars w
  have hD := hlib.encode_chars decodedWopiSrc
  have hws : PERCENT ∉ text "&compat=/ws" ++ compat := by
    rw [List.mem_append]
    rintro (hmem | hmem)
    · exact absurd hmem (by decide)
    · exact hcompat.2.2 hmem
  have haccepts : lib.accepts (text "/cool/" ++ (lib.encode w ++ (text "/ws?WOPISrc=" ++ (lib.encode decodedWopiSrc ++
      (text "&compat=/ws" ++ compat))))) = true := by
    refine hlib.accepts_path _ rfl (by simp [text, SLASH]) ?_
    rw [hlib.decode_append _ _ _ _ (hlib.decode_plain _ (by decide))
      (hlib.decode_append _ _ _ _ (hlib.decode_encode w)
      (hlib.decode_append _ _ _ _ (hlib.decode_plain _ (by decide)) (hlib.decode_append _ _ _ _
        (hlib.decode_encode decodedWopiSrc) (hlib.decode_plain _ hws))))]
    rfl
  have hplus : PERCENT ∉ plusToSpace (text "/ws" ++ compat) := by
    refine notMem_plusToSpace (by decide) ?_
    rw [List.mem_append, not_or]
    exact ⟨by decide, hcompat.2.2⟩
  have hpath : QUESTION ∉ text "/cool/" ++ (lib.encode w ++ text "/ws") := by
    simp only [List.mem_append, not_or]
    exact ⟨by decide, fun hmem => hE _ hmem (by decide), by decide⟩
  have hquery : queryOf (text "/cool/" ++ (lib.encode w ++ (text "/ws?WOPISrc=" ++ (lib.encode decodedWopiSrc ++
      (text "&compat=/ws" ++ compat))))) = text "WOPISrc" ++ EQUALS :: (lib.encode decodedWopiSrc ++ AMPERSAND ::
        (text "compat" ++ EQUALS :: (text "/ws" ++ compat))) := by
    rw [url_eq, queryOf_eq hpath]
    simp only [List.mem_append, List.mem_cons, not_or]
    exact ⟨⟨by decide, fun hmem => hE _ hmem (by decide), by decide⟩, by decide, by decide, by decide,
      fun hmem => hD _ hmem (by decide), by decide, by decide, by decide, by decide, hcompat.1⟩
  unfold getParams
  rw [hlib.parameters, if_pos haccepts, hquery,
    splitQuery_url ⟨fun hmem => hD _ hmem (by decide), fun hmem => hD _ hmem (by decide)⟩ hcompat.2.1]
  simp only [List.mapM_cons, List.mapM_nil, hlib.decode_plain (text "WOPISrc") (by decide),
    hlib.decode_plain (text "compat") (by decide), hlib.decode_encode, hlib.decode_plain _ hplus, Option.pure_def,
    Option.bind_eq_bind, Option.bind_some, List.foldlM_cons, List.foldlM_nil]
  cases hx : lib.decode decodedWopiSrc with
  | none => rfl
  | some x => rfl

/-- The segment of the document is what was encoded. -/
theorem takeWhile_segment (hlib : lib.Lawful) (t : List UInt8) :
    (lib.encode w ++ SLASH :: t).takeWhile (fun c => c ≠ SLASH && c ≠ QUESTION) = lib.encode w := by
  have hall : ∀ c ∈ lib.encode w, (decide (c ≠ SLASH) && decide (c ≠ QUESTION)) = true := by
    intro c hc
    have hmem := hlib.encode_chars w c hc
    simp only [List.mem_cons, not_or] at hmem
    simp [hmem.1, hmem.2.1]
  rw [List.takeWhile_append_of_pos hall, List.takeWhile_cons_of_neg (by simp), List.append_nil]

/-- The type of the URL, and what is behind it. -/
theorem typeAndRest_url (t : List UInt8) : typeAndRest (text "/cool/" ++ t) = (text "cool", t) := by
  have htype : ((text "/cool/" ++ t).drop 1).takeWhile (· ≠ SLASH) = text "cool" :=
    takeWhile_ne (c := SLASH) (s := text "cool") (by decide) t
  have hoff : (if (text "/cool/" ++ t).head? = some SLASH then 1 else 0) = 1 := rfl
  have hlen : ¬ 1 + (text "cool").length = (text "/cool/" ++ t).length := by
    rw [List.length_append]
    change ¬ 5 = 6 + t.length
    omega
  unfold typeAndRest
  rw [hoff]
  dsimp only
  rw [htype, if_neg hlen]
  rfl

/-- The document segment of the URL, decoded. -/
theorem documentURIOf_url (hlib : lib.Lawful) (t : List UInt8) :
    documentURIOf lib (text "/cool/" ++ (lib.encode w ++ SLASH :: t)) (lib.encode w ++ SLASH :: t) = some w := by
  have hsplit : ((text "/cool/" ++ (lib.encode w ++ SLASH :: t)).splitOnP fun c => c = SLASH || c = QUESTION) =
      [] :: text "cool" :: ((lib.encode w ++ SLASH :: t).splitOnP fun c => c = SLASH || c = QUESTION) := by
    have hcool : ∀ c ∈ text "cool", (decide (c = SLASH) || decide (c = QUESTION)) = false := by
      intro c hc
      have hslash : c ≠ SLASH := fun h => absurd (h ▸ hc) (by decide)
      have hquestion : c ≠ QUESTION := fun h => absurd (h ▸ hc) (by decide)
      simp [hslash, hquestion]
    change (([] : List UInt8) ++ SLASH :: (text "cool" ++ SLASH :: (lib.encode w ++ SLASH :: t))).splitOnP _ = _
    rw [List.splitOnP_append_cons_of_forall_mem (by simp) SLASH (by decide),
      List.splitOnP_append_cons_of_forall_mem hcool SLASH (by decide)]
  unfold documentURIOf pathSegsOf
  rw [hsplit, List.filter_cons_of_neg (by simp), List.filter_cons_of_pos (by decide), if_pos, takeWhile_segment hlib,
    hlib.decode_encode]
  exact Bool.or_eq_true_iff.2 (Or.inl (decide_eq_true rfl))

/-- Decoding once more changes nothing where there are no escapes. -/
theorem decode_eq_self_iff (hlib : lib.Lawful) : lib.decode s = some s ↔ PERCENT ∉ s :=
  ⟨fun hdecode hmem => absurd (hlib.decode_escape s s hdecode hmem) (lt_irrefl _), hlib.decode_plain s⟩

/-- The fields come back where decoding the WOPISrc once more changes nothing and the options are the parameters of
the document URI. -/
theorem recovers_iff (hlib : lib.Lawful) {wopiSrc : List UInt8} (hdecoded : lib.decode wopiSrc = some decodedWopiSrc)
    (hcompat : HASH ∉ compat ∧ AMPERSAND ∉ compat ∧ PERCENT ∉ compat) :
    Recovers lib wopiSrc decodedWopiSrc options compat ↔ lib.decode decodedWopiSrc = some decodedWopiSrc ∧
      ∃ params, getParams lib (withOptions decodedWopiSrc (options.map optionText)) = some params ∧
        SameParams params options := by
  have hws : text "/ws?WOPISrc=" = SLASH :: text "ws?WOPISrc=" := by decide
  have hget : ∀ x v, Params.get [(text "WOPISrc", x), (text "compat", v)] (text "WOPISrc") = x := fun x v => rfl
  unfold Recovers construct
  rw [hdecoded]
  simp only [Option.bind_eq_bind, Option.bind_some]
  unfold processURI
  rw [getParams_url hlib hcompat]
  cases hx : lib.decode decodedWopiSrc with
  | none => simp
  | some x =>
    rw [hws]
    simp only [Option.map_some, Option.bind_eq_bind, Option.bind_some, typeAndRest_url, List.cons_append,
      documentURIOf_url hlib]
    cases hparams : getParams lib (withOptions decodedWopiSrc (options.map optionText)) with
    | none => simp
    | some params => simp [hget]

end Fields

/-- The fields come back exactly where the decoded WOPISrc has no escapes, the document URI is accepted, and the
options are kept apart from the WOPISrc. -/
theorem construct_recovers {lib : UriLibrary} (hlib : lib.Lawful) {wopiSrc decodedWopiSrc : List UInt8}
    (hdecoded : lib.decode wopiSrc = some decodedWopiSrc) {options : List (List UInt8 × List UInt8)}
    (hoptions : ∀ option ∈ options, (∀ b ∈ option.1, isUnreserved b = true) ∧ ∀ b ∈ option.2, isUnreserved b = true)
    {compat : List UInt8} (hcompat : HASH ∉ compat ∧ AMPERSAND ∉ compat ∧ PERCENT ∉ compat) :
    Recovers lib wopiSrc decodedWopiSrc options compat ↔ PERCENT ∉ decodedWopiSrc ∧
      lib.accepts (withOptions decodedWopiSrc (options.map optionText)) = true ∧ Separate decodedWopiSrc options := by
  rw [recovers_iff hlib hdecoded hcompat, decode_eq_self_iff hlib]
  refine and_congr_right fun hplain => ?_
  rw [getParams_plain hlib
    (notMem_withOptions hoptions (by decide) (by decide) (by decide) (by decide) hplain), ← sameParams_iff hoptions]
  split
  · rename_i haccepts
    have hfold : ∀ ps : Params, SameParams (ps.foldl emplace []) options ↔ SameParams ps options := by
      intro ps
      simp only [SameParams, firstValue_foldl, List.nil_append]
    simp [haccepts, hfold]
  · rename_i haccepts
    simp [haccepts]

/-! ### A library -/

/-- `Poco::URI::decode`; `none` is an exception. -/
def percentDecode : List UInt8 → Option (List UInt8)
  | [] => some []
  | c :: s =>
    if c = PERCENT then
      match s with
      | a :: b :: t => do
        let hi ← Http.hexDigitFromChar a
        let lo ← Http.hexDigitFromChar b
        return UInt8.ofNat (hi * 16 + lo) :: (← percentDecode t)
      | _ => none
    else do return c :: (← percentDecode s)

theorem percentDecode_cons {c : UInt8} (h : c ≠ PERCENT) (s : List UInt8) :
    percentDecode (c :: s) = (percentDecode s).map (c :: ·) := by
  conv_lhs => unfold percentDecode
  rw [if_neg h]
  cases percentDecode s <;> rfl

theorem percentDecode_escape (a b : UInt8) (t : List UInt8) :
    percentDecode (PERCENT :: a :: b :: t) = (Http.hexDigitFromChar a).bind fun hi =>
      (Http.hexDigitFromChar b).bind fun lo =>
      (percentDecode t).map (UInt8.ofNat (hi * 16 + lo) :: ·) := by
  conv_lhs => unfold percentDecode
  rw [if_pos rfl]
  dsimp only
  cases Http.hexDigitFromChar a with
  | none => rfl
  | some hi =>
    cases Http.hexDigitFromChar b with
    | none => rfl
    | some lo => cases percentDecode t <;> rfl

theorem percentDecode_append (s t s' t' : List UInt8) (hs : percentDecode s = some s')
    (ht : percentDecode t = some t') : percentDecode (s ++ t) = some (s' ++ t') := by
  fun_induction percentDecode s generalizing s' with
  | case1 =>
    obtain rfl := Option.some.inj hs
    exact ht
  | case2 a b rest ih =>
    simp only [Option.bind_eq_bind, Option.bind_eq_some_iff, Option.pure_def, Option.some.injEq] at hs
    obtain ⟨hi, hhi, lo, hlo, r, hr, rfl⟩ := hs
    simp only [List.cons_append]
    rw [percentDecode_escape, hhi, hlo, Option.bind_some, Option.bind_some, ih r hr]
    rfl
  | case3 rest hshort => cases hs
  | case4 c rest hc ih =>
    simp only [Option.bind_eq_bind, Option.bind_eq_some_iff, Option.pure_def, Option.some.injEq] at hs
    obtain ⟨r, hr, rfl⟩ := hs
    rw [List.cons_append, percentDecode_cons hc, ih r hr]
    rfl

theorem percentDecode_plain (s : List UInt8) (h : PERCENT ∉ s) : percentDecode s = some s := by
  induction s with
  | nil => rfl
  | cons c s ih =>
    simp only [List.mem_cons, not_or] at h
    rw [percentDecode_cons (Ne.symm h.1), ih h.2]
    rfl

/-- An escape becomes one byte. -/
theorem length_percentDecode (s s' : List UInt8) (h : percentDecode s = some s') :
    s'.length ≤ s.length ∧ (PERCENT ∈ s → s'.length < s.length) := by
  fun_induction percentDecode s generalizing s' with
  | case1 =>
    obtain rfl := Option.some.inj h
    exact ⟨le_rfl, fun hmem => absurd hmem List.not_mem_nil⟩
  | case2 a b rest ih =>
    simp only [Option.bind_eq_bind, Option.bind_eq_some_iff, Option.pure_def, Option.some.injEq] at h
    obtain ⟨hi, -, lo, -, r, hr, rfl⟩ := h
    have hle := (ih r hr).1
    simp only [List.length_cons]
    exact ⟨by omega, fun _ => by omega⟩
  | case3 rest hshort => cases h
  | case4 c rest hc ih =>
    simp only [Option.bind_eq_bind, Option.bind_eq_some_iff, Option.pure_def, Option.some.injEq] at h
    obtain ⟨r, hr, rfl⟩ := h
    obtain ⟨hle, hlt⟩ := ih r hr
    simp only [List.length_cons]
    refine ⟨by omega, fun hmem => ?_⟩
    have := hlt ((List.mem_cons.1 hmem).resolve_left (Ne.symm hc))
    omega

theorem hexDigitFromChar_hexDigit : ∀ n : Fin 16,
    Http.hexDigitFromChar (ClientSession.hexDigit (UInt8.ofNat n.val)) = some n.val := by
  decide

theorem hexDigit_notin : ∀ n : Fin 16,
    ClientSession.hexDigit (UInt8.ofNat n.val) ∉ [SLASH, QUESTION, HASH, AMPERSAND, EQUALS, PLUS] := by
  decide

/-- The nibbles of a byte. -/
theorem nibbles (c : UInt8) : (∃ n : Fin 16, c >>> 4 = UInt8.ofNat n.val ∧ n.val = c.toNat / 16) ∧
    ∃ n : Fin 16, c &&& 0xf = UInt8.ofNat n.val ∧ n.val = c.toNat % 16 := by
  have hc := c.toNat_lt
  refine ⟨⟨⟨c.toNat / 16, by omega⟩, ?_, rfl⟩, ⟨c.toNat % 16, by omega⟩, ?_, rfl⟩
  · refine UInt8.toNat_inj.1 ?_
    rw [UInt8.toNat_shiftRight, UInt8.toNat_ofNat']
    change c.toNat >>> 4 = c.toNat / 16 % 2 ^ 8
    rw [Nat.shiftRight_eq_div_pow]
    omega
  · refine UInt8.toNat_inj.1 ?_
    rw [UInt8.toNat_and, UInt8.toNat_ofNat']
    change c.toNat &&& (2 ^ 4 - 1) = c.toNat % 16 % 2 ^ 8
    rw [Nat.and_two_pow_sub_one_eq_mod]
    omega

theorem percentDecode_percentEncode (s : List UInt8) : percentDecode (ClientSession.percentEncode s) = some s := by
  induction s with
  | nil => rfl
  | cons c s ih =>
    unfold ClientSession.percentEncode at ih ⊢
    rw [List.flatMap_cons]
    split
    · rename_i hplain
      have hne : c ≠ PERCENT := by
        rintro rfl
        exact absurd hplain (by decide)
      rw [List.singleton_append, percentDecode_cons hne, ih]
      rfl
    · obtain ⟨⟨hi, hhi, hhi'⟩, lo, hlo, hlo'⟩ := nibbles c
      have hbyte : UInt8.ofNat (hi.val * 16 + lo.val) = c := by
        rw [hhi', hlo', Nat.div_add_mod']
        exact UInt8.ofNat_toNat
      refine (percentDecode_escape _ _ _).trans ?_
      rw [hhi, hlo, hexDigitFromChar_hexDigit, hexDigitFromChar_hexDigit, Option.bind_some, Option.bind_some, hbyte]
      exact congrArg (Option.map (c :: ·)) ih

theorem percentEncode_chars (s : List UInt8) : ∀ c ∈ ClientSession.percentEncode s,
    c ∉ [SLASH, QUESTION, HASH, AMPERSAND, EQUALS, PLUS] := by
  intro c hc
  unfold ClientSession.percentEncode at hc
  obtain ⟨b, -, hb⟩ := List.mem_flatMap.1 hc
  split at hb
  · rename_i hplain
    obtain rfl := List.mem_singleton.1 hb
    simp only [List.mem_cons, List.not_mem_nil, or_false]
    rintro (rfl | rfl | rfl | rfl | rfl | rfl) <;> exact absurd hplain (by decide)
  · obtain ⟨⟨hi, hhi, -⟩, lo, hlo, -⟩ := nibbles b
    rw [hhi, hlo] at hb
    simp only [List.mem_cons, List.not_mem_nil, or_false] at hb
    rcases hb with rfl | rfl | rfl
    · decide
    · exact hexDigit_notin hi
    · exact hexDigit_notin lo

def percentLibrary : UriLibrary where
  encode := ClientSession.percentEncode
  decode := percentDecode
  accepts := fun uri => (percentDecode uri).isSome
  getQueryParameters := fun uri =>
    if (percentDecode uri).isSome then
      (splitQuery (queryOf uri)).mapM fun param => do return (← percentDecode param.1, ← percentDecode param.2)
    else none

theorem percentLibrary_lawful : percentLibrary.Lawful where
  decode_encode := percentDecode_percentEncode
  encode_chars := percentEncode_chars
  decode_plain := percentDecode_plain
  decode_escape := fun s s' h => (length_percentDecode s s' h).2
  decode_append := percentDecode_append
  accepts_path := fun _ _ _ h => h
  parameters := fun _ => rfl

/-- A document URI in digits, with a slash behind them. -/
theorem dehexify_iff_slash :
    dehexify (hexUrlOf (text "6825324666") (text "/ws?compat=/ws")) = some (text "/cool/h%2Ff/ws?compat=/ws") ∧
      ofRequest percentLibrary (hexUrlOf (text "6825324666") (text "/ws?compat=/ws")) =
        ofRequest percentLibrary (text "/cool/h%2Ff/ws?compat=/ws") := by
  have hhex : IsHex (text "6825324666") (percentLibrary.encode (text "h/f")) :=
    @IsHex.cons 6 8 _ _ _ _ rfl rfl (@IsHex.cons 2 5 _ _ _ _ rfl rfl (@IsHex.cons 3 2 _ _ _ _ rfl rfl
      (@IsHex.cons 4 6 _ _ _ _ rfl rfl (@IsHex.cons 6 6 _ _ _ _ rfl rfl .nil))))
  have hplain : ∀ p, ¬ Search.OccursAt Prefix
      (urlOf (percentLibrary.encode (text "h/f")) (text "/ws?compat=/ws")) p :=
    Search.find_eq_none.1 (by decide +kernel)
  obtain ⟨hdehexify, hfields⟩ := (dehexify_iff percentLibrary).2 (text "h/f") _ (text "/ws?compat=/ws") hhex
  exact ⟨(hdehexify.2 ⟨rfl, hplain⟩).1, hfields rfl hplain⟩

/-- Options with a name twice, and options that come back although the WOPISrc has parameters of its own. -/
theorem construct_recovers_access_token :
    Recovers percentLibrary (text "https%3A%2F%2Fh%2Ff") (text "https://h/f")
        [(text "access_token", text "t"), (text "permission", text "edit"), (text "access_token", text "u")]
        (text "/s1/open/0") ∧
      Recovers percentLibrary (text "https%3A%2F%2Fh%2Ff%3Fv%3D1%26v%3D2") (text "https://h/f?v=1&v=2")
        [(text "v", text "1"), (text "w", text "2")] [] := by
  have hchars : ∀ options : List (List UInt8 × List UInt8),
      (options.all fun option => option.1.all isUnreserved && option.2.all isUnreserved) = true →
      ∀ option ∈ options, (∀ b ∈ option.1, isUnreserved b = true) ∧ ∀ b ∈ option.2, isUnreserved b = true := by
    intro options hall option hoption
    obtain ⟨hkey, hvalue⟩ := Bool.and_eq_true_iff.1 (List.all_eq_true.1 hall option hoption)
    exact ⟨List.all_eq_true.1 hkey, List.all_eq_true.1 hvalue⟩
  constructor
  · exact (construct_recovers percentLibrary_lawful (by decide +kernel) (hchars _ (by decide)) (by decide)).2
      ⟨by decide, by decide +kernel, .inl ⟨by decide, by decide⟩⟩
  · exact (construct_recovers percentLibrary_lawful (by decide +kernel) (hchars _ (by decide)) (by decide)).2
      ⟨by decide, by decide +kernel,
      .inr (.inr ⟨by decide, text "https://h/f", text "v=1", text "v", text "2", by decide,
        by decide, by decide, by decide, by decide, by decide, fun _ => rfl⟩)⟩

/-- A WOPISrc with an escape of its own: it is decoded once too often. -/
theorem not_construct_recovers : ¬ ∀ wopiSrc decodedWopiSrc options compat,
    percentLibrary.decode wopiSrc = some decodedWopiSrc →
    (∀ option ∈ options, (∀ b ∈ option.1, isUnreserved b = true) ∧ ∀ b ∈ option.2, isUnreserved b = true) →
    HASH ∉ compat ∧ AMPERSAND ∉ compat ∧ PERCENT ∉ compat →
      Recovers percentLibrary wopiSrc decodedWopiSrc options compat := fun h => by
  have hrecovers := h (text "https%3A%2F%2Fh%2Fa%2541") (text "https://h/a%41") [] [] (by decide +kernel)
    (fun _ h => absurd h List.not_mem_nil) (by decide)
  have hdecode := ((recovers_iff percentLibrary_lawful (by decide +kernel) (by decide)).1 hrecovers).1
  exact absurd hdecode (by decide +kernel)

end RequestDetails

end CollaboraOnline
