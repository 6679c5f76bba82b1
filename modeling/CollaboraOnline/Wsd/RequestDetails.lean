import CollaboraOnline.Common.StringVector
import CollaboraOnline.Lib.Search

/-!
# The URL of a request

`RequestDetails` takes the URL of a request apart.  The document URI in it may be written in hexadecimal digits, which
`dehexify` turns into the plain URL: it does so where the digits end with a slash, and the plain URL is left as it is
where it does not contain the mark of the digits (`dehexify_iff`).
-/

namespace CollaboraOnline

namespace RequestDetails

open Http (text)
open Search

def SLASH : UInt8 := 0x2f
def QUESTION : UInt8 := 0x3f
def HASH : UInt8 := 0x23
def AMPERSAND : UInt8 := 0x26
def EQUALS : UInt8 := 0x3d
def PLUS : UInt8 := 0x2b
def PERCENT : UInt8 := 0x25

/-! ### Hexadecimal data -/

def isSpace (c : UInt8) : Bool := c = 0x20 || (0x09 ≤ c && c ≤ 0x0d)

def hexValue (digits : List UInt8) : Nat := digits.foldl (fun n c => n * 16 + (Http.hexDigitFromChar c).getD 0) 0

/-- `stream >> value` of an unsigned value with `std::hex`: the value, 0 where there is none, and what is left of the
stream. -/
def extractUnsigned (stream : List UInt8) : Nat × List UInt8 :=
  let s := stream.dropWhile isSpace
  let negative := s.head? = some 0x2d
  let s := if negative ∨ s.head? = some PLUS then s.drop 1 else s
  let s := if s.head? = some 0x30 ∧ (s[1]? = some 0x78 ∨ s[1]? = some 0x58) then s.drop 2 else s
  let digits := s.takeWhile fun c => (Http.hexDigitFromChar c).isSome
  let value := hexValue digits % 2 ^ 32
  (if negative then (2 ^ 32 - value) % 2 ^ 32 else value, s.drop digits.length)

/-- The loop over the pairs of digits; what is not extracted stays in the stream. -/
def hexPairs : List UInt8 → List UInt8 → List UInt8
  | stream, a :: b :: hexString =>
    let r := extractUnsigned (stream ++ [a, b])
    UInt8.ofNat r.1 :: hexPairs r.2 hexString
  | _, _ => []

/-- `HexUtil::dataFromHexString`, into an empty string. -/
def dataFromHexString (hexString : List UInt8) : List UInt8 :=
  if hexString.length % 2 ≠ 0 then [] else hexPairs [] hexString

def Prefix : List UInt8 := text "cool/0x"

/-- `none` is an exception. -/
def dehexify (uriString : List UInt8) : Option (List UInt8) :=
  match find Prefix uriString with
  | none => some uriString
  | some hexPos =>
    let start := hexPos + Prefix.length
    let res := uriString.take (start - 2)
    match find [SLASH] (uriString.drop start) with
    | none => none
    | some len => some (res ++ dataFromHexString ((uriString.drop start).take len) ++ (uriString.drop start).drop len)

/-! ### The fields -/

/-- `Poco::URI`: percent encoding, which texts its constructor accepts, and the decoded parameters of the query;
`none` is an exception. -/
structure UriLibrary where
  encode : List UInt8 → List UInt8
  decode : List UInt8 → Option (List UInt8)
  accepts : List UInt8 → Bool
  getQueryParameters : List UInt8 → Option (List (List UInt8 × List UInt8))

/-- A map as its entries. -/
abbrev Params := List (List UInt8 × List UInt8)

def emplace (params : Params) (param : List UInt8 × List UInt8) : Params :=
  if params.any fun p => p.1 = param.1 then params else params ++ [param]

def Params.get (params : Params) (name : List UInt8) : List UInt8 :=
  ((params.find? fun p => p.1 = name).map Prod.snd).getD []

/-- The values are decoded once more. -/
def getParams (lib : UriLibrary) (uri : List UInt8) : Option Params := do
  let params ← lib.getQueryParameters uri
  params.foldlM (fun result param => do return emplace result (← lib.decode param.1, ← lib.decode param.2)) []

structure Details where
  uriString : List UInt8
  pathSegs : List (List UInt8)
  params : Params
  docUriParams : Params
  type : List UInt8
  documentURI : List UInt8
  wopiSrc : List UInt8
  compat : List UInt8
  sessionId : List UInt8
  command : List UInt8
  serial : List UInt8
deriving DecidableEq

/-- The offset of the last occurrence. -/
def rfind (pat s : List UInt8) : Option Nat := (find pat.reverse s.reverse).map fun i => s.length - i - pat.length

/-- Tokenized by slashes and question marks, without the empty ones. -/
def pathSegsOf (uriString : List UInt8) : List (List UInt8) :=
  (uriString.splitOnP fun c => c = SLASH || c = QUESTION).filter (· ≠ [])

/-- The type, which is the first segment, and the rest; without another slash the rest is the whole text. -/
def typeAndRest (uriString : List UInt8) : List UInt8 × List UInt8 :=
  let off := if uriString.head? = some SLASH then 1 else 0
  let type := (uriString.drop off).takeWhile (· ≠ SLASH)
  (type, if off + type.length = uriString.length then uriString else uriString.drop (off + type.length + 1))

/-- The second segment in cool URIs, otherwise the full URI. -/
def documentURIOf (lib : UriLibrary) (uriString uriRes : List UInt8) : Option (List UInt8) :=
  if StringVector.equals (pathSegsOf uriString) 0 "cool" || StringVector.equals (pathSegsOf uriString) 0 "wasm" then
    lib.decode (uriRes.takeWhile fun c => c ≠ SLASH && c ≠ QUESTION)
  else some uriString

def processURI (lib : UriLibrary) (uriString : List UInt8) : Option Details := do
  let params ← getParams lib uriString
  let (type, uriRes) := typeAndRest uriString
  let documentURI ← documentURIOf lib uriString uriRes
  let docUriParams ← getParams lib documentURI
  let proxyTokens := match rfind (text "/ws") uriRes with
    | some posLastWS => StringVector.tokenize (uriRes.drop posLastWS) SLASH
    | none => []
  return {
    uriString := uriString
    pathSegs := pathSegsOf uriString
    params := params
    docUriParams := docUriParams
    type := type
    documentURI := documentURI
    wopiSrc := params.get (text "WOPISrc")
    compat := params.get (text "compat")
    sessionId := proxyTokens.getD 1 []
    command := proxyTokens.getD 2 []
    serial := proxyTokens.getD 3 [] }

/-- The constructors of a request whose service root was removed. -/
def ofRequest (lib : UriLibrary) (uriString : List UInt8) : Option Details := do
  processURI lib (← dehexify uriString)

/-! ### Spelled in digits -/

/-- The digits spell the bytes, in either case. -/
inductive IsHex : List UInt8 → List UInt8 → Prop
  | nil : IsHex [] []
  | cons {hi lo : Nat} {a b : UInt8} {hex bytes : List UInt8} : Http.hexDigitFromChar a = some hi →
      Http.hexDigitFromChar b = some lo → IsHex hex bytes →
        IsHex (a :: b :: hex) (UInt8.ofNat (hi * 16 + lo) :: bytes)

/-- A URL with a document segment. -/
def urlOf (segment suffix : List UInt8) : List UInt8 := text "/cool/" ++ (segment ++ suffix)

/-- The URL with the document URI in hexadecimal digits. -/
def hexUrlOf (hex suffix : List UInt8) : List UInt8 := urlOf (text "0x" ++ hex) suffix

section Dehexify

variable {hex bytes suffix uriString : List UInt8} {c : UInt8} {n : Nat}

theorem digit_bounds (h : Http.hexDigitFromChar c = some n) :
    (0x30 ≤ c.toNat ∧ c.toNat ≤ 0x39 ∨ 0x61 ≤ c.toNat ∧ c.toNat ≤ 0x66 ∨ 0x41 ≤ c.toNat ∧ c.toNat ≤ 0x46) ∧
    n < 16 := by
  unfold Http.hexDigitFromChar at h
  simp only [UInt8.le_iff_toNat_le, Bool.and_eq_true, decide_eq_true_eq] at h
  split at h
  · rename_i hc
    obtain rfl := Option.some.inj h
    simp at hc
    omega
  · split at h
    · rename_i hc
      obtain rfl := Option.some.inj h
      simp at hc
      omega
    · split at h
      · rename_i hc
        obtain rfl := Option.some.inj h
        simp at hc
        omega
      · cases h

theorem ne_slash_of_digit (h : Http.hexDigitFromChar c = some n) : c ≠ SLASH := by
  rintro rfl
  have hbounds := (digit_bounds h).1
  simp [SLASH] at hbounds

theorem extractUnsigned_pair {a b : UInt8} {hi lo : Nat} (ha : Http.hexDigitFromChar a = some hi)
    (hb : Http.hexDigitFromChar b = some lo) : extractUnsigned [a, b] = (hi * 16 + lo, []) := by
  obtain ⟨ha', hhi⟩ := digit_bounds ha
  obtain ⟨hb', hlo⟩ := digit_bounds hb
  have hspace : isSpace a = false := by
    unfold isSpace
    simp only [UInt8.le_iff_toNat_le, Bool.or_eq_false_iff, decide_eq_false_iff_not, Bool.and_eq_false_iff]
    refine ⟨?_, ?_⟩
    · rintro rfl
      simp at ha'
    · simp
      omega
  have hminus : a ≠ 0x2d := by
    rintro rfl
    simp at ha'
  have hplus : a ≠ PLUS := by
    rintro rfl
    simp [PLUS] at ha'
  have hx : b ≠ 0x78 ∧ b ≠ 0x58 := by
    constructor
    · rintro rfl
      simp at hb'
    · rintro rfl
      simp at hb'
  unfold extractUnsigned
  simp only [List.dropWhile_cons, hspace, Bool.false_eq_true, if_false, List.head?_cons, Option.some.injEq,
    hminus, hplus,
    or_self, List.getElem?_cons_succ, List.getElem?_cons_zero, hx, and_false, List.takeWhile_cons, ha, hb,
    Option.isSome_some, if_true, List.takeWhile_nil, hexValue, List.foldl_cons, List.foldl_nil, Option.getD_some,
    List.length_cons, List.length_nil]
  refine Prod.ext ?_ rfl
  dsimp only
  rw [Nat.zero_mul, Nat.zero_add]
  exact Nat.mod_eq_of_lt (by omega)

theorem IsHex.length (h : IsHex hex bytes) : hex.length = 2 * bytes.length := by
  induction h with
  | nil => rfl
  | cons _ _ _ ih =>
    simp only [List.length_cons]
    omega

theorem IsHex.ne_slash (h : IsHex hex bytes) : SLASH ∉ hex := by
  induction h with
  | nil => exact List.not_mem_nil
  | cons ha hb _ ih =>
    simp only [List.mem_cons, not_or]
    exact ⟨(ne_slash_of_digit ha).symm, (ne_slash_of_digit hb).symm, ih⟩

theorem IsHex.dataFromHexString (h : IsHex hex bytes) : dataFromHexString hex = bytes := by
  have hpairs : hexPairs [] hex = bytes := by
    induction h with
    | nil => rfl
    | cons ha hb _ ih =>
      rw [hexPairs, List.nil_append, extractUnsigned_pair ha hb, ih]
  have heven : ¬ hex.length % 2 ≠ 0 := by
    rw [h.length]
    omega
  unfold RequestDetails.dataFromHexString
  rw [if_neg heven, hpairs]

theorem length_hexPairs : ∀ stream hexString, (hexPairs stream hexString).length = hexString.length / 2
  | stream, a :: b :: hexString => by
    rw [hexPairs]
    simp only [List.length_cons, length_hexPairs _ hexString]
    omega
  | stream, [a] => by simp [hexPairs]
  | stream, [] => by simp [hexPairs]

/-- Two digits give at most one byte. -/
theorem length_dataFromHexString (hexString : List UInt8) :
    (dataFromHexString hexString).length ≤ hexString.length / 2 := by
  unfold RequestDetails.dataFromHexString
  split
  · exact Nat.zero_le _
  · rw [length_hexPairs]

theorem occursAt_singleton : OccursAt [c] uriString n ↔ uriString[n]? = some c := by
  rw [occursAt_iff]
  constructor
  · exact fun h => h 0 (Nat.succ_pos _)
  · intro h k hk
    obtain rfl : k = 0 := by simpa using hk
    exact h

theorem find_singleton_eq_none : find [c] uriString = none ↔ c ∉ uriString := by
  rw [find_eq_none]
  simp only [occursAt_singleton, List.mem_iff_getElem?, not_exists]

/-- No exception: the digits end with a slash. -/
theorem dehexify_isSome : (dehexify uriString).isSome = true ↔
    ∀ p, First Prefix uriString p → SLASH ∈ uriString.drop (p + Prefix.length) := by
  unfold dehexify
  cases hfind : find Prefix uriString with
  | none => exact iff_of_true rfl fun p hp => absurd hp.occurs (find_eq_none.1 hfind p)
  | some hexPos =>
    have hfirst := find_eq_some.1 hfind
    dsimp only
    cases hslash : find [SLASH] (uriString.drop (hexPos + Prefix.length)) with
    | none =>
      refine iff_of_false Bool.false_ne_true fun h => ?_
      exact find_singleton_eq_none.1 hslash (h hexPos hfirst)
    | some len =>
      refine iff_of_true rfl fun p hp => ?_
      obtain rfl := hp.unique hfirst
      exact List.mem_of_getElem? (occursAt_singleton.1 (find_eq_some.1 hslash).occurs)

/-- A URL with the mark of the digits does not stay as it is. -/
theorem dehexify_eq_self : dehexify uriString = some uriString ↔ ∀ p, ¬ OccursAt Prefix uriString p := by
  rw [← find_eq_none]
  unfold dehexify
  cases hfind : find Prefix uriString with
  | none => exact iff_of_true rfl rfl
  | some hexPos =>
    refine iff_of_false ?_ (by simp)
    have hle := (find_eq_some.1 hfind).occurs.le (by decide)
    have hseven : Prefix.length = 7 := rfl
    dsimp only
    cases hslash : find [SLASH] (uriString.drop (hexPos + Prefix.length)) with
    | none => simp
    | some len =>
      intro h
      have hlen := congrArg List.length (Option.some.inj h)
      have hdata := length_dataFromHexString ((uriString.drop (hexPos + Prefix.length)).take len)
      simp only [List.length_append, List.length_take, List.length_drop] at hlen hdata
      omega

/-- The search of the mark in the URL with digits. -/
theorem find_hexUrlOf : find Prefix (hexUrlOf hex suffix) = some 1 := by
  rw [find_eq_some]
  refine ⟨?_, fun j hj => ?_⟩
  · exact List.prefix_append Prefix (hex ++ suffix)
  · obtain rfl : j = 0 := by omega
    intro h
    have hzero := occursAt_iff.1 h 0 (by decide)
    change some (0x2f : UInt8) = some 0x63 at hzero
    exact absurd hzero (by decide)

theorem dehexify_hexUrlOf (h : IsHex hex bytes) :
    dehexify (hexUrlOf hex suffix) = some (urlOf bytes suffix) ↔ suffix.head? = some SLASH := by
  have hdrop : (hexUrlOf hex suffix).drop (1 + Prefix.length) = hex ++ suffix := rfl
  have htake : (hexUrlOf hex suffix).take (1 + Prefix.length - 2) = text "/cool/" := rfl
  unfold dehexify
  rw [find_hexUrlOf]
  dsimp only
  rw [hdrop, htake]
  have hlen := h.length
  constructor
  · intro heq
    cases hslash : find [SLASH] (hex ++ suffix) with
    | none => rw [hslash] at heq; cases heq
    | some len =>
      rw [hslash] at heq
      have hsize := congrArg List.length (Option.some.inj heq)
      have hdata := length_dataFromHexString ((hex ++ suffix).take len)
      have hat := occursAt_singleton.1 (find_eq_some.1 hslash).occurs
      have hge : hex.length ≤ len := by
        by_contra hlt
        rw [List.getElem?_append_left (by omega)] at hat
        exact h.ne_slash (List.mem_of_getElem? hat)
      have hlt := (List.getElem?_eq_some_iff.1 hat).1
      unfold urlOf at hsize
      simp only [List.length_append, List.length_take, List.length_drop] at hsize hdata hlt
      obtain rfl : len = hex.length := by omega
      rw [List.getElem?_append_right le_rfl, Nat.sub_self] at hat
      rw [List.head?_eq_getElem?, hat]
  · intro hhead
    have hfirst : find [SLASH] (hex ++ suffix) = some hex.length := by
      rw [find_eq_some]
      refine ⟨?_, fun j hj hoccurs => ?_⟩
      · rw [occursAt_singleton, List.getElem?_append_right le_rfl, Nat.sub_self, ← List.head?_eq_getElem?, hhead]
      · rw [occursAt_singleton, List.getElem?_append_left hj] at hoccurs
        exact h.ne_slash (List.mem_of_getElem? hoccurs)
    rw [hfirst]
    dsimp only
    rw [List.take_left, List.drop_left, h.dataFromHexString, urlOf, List.append_assoc]

end Dehexify

/-- The URL in digits and the plain URL are turned into the plain URL exactly where the digits end with a slash and
the plain URL does not contain their mark; the details are the same then.  The digits are turned into bytes without an
exception exactly where a slash is behind them. -/
theorem dehexify_iff (lib : UriLibrary) :
    (∀ uriString, (dehexify uriString).isSome = true ↔
        ∀ p, First Prefix uriString p → SLASH ∈ uriString.drop (p + Prefix.length)) ∧
      ∀ documentURI hex suffix, IsHex hex (lib.encode documentURI) →
        ((dehexify (hexUrlOf hex suffix) = some (urlOf (lib.encode documentURI) suffix) ∧
            dehexify (urlOf (lib.encode documentURI) suffix) = some (urlOf (lib.encode documentURI) suffix)) ↔
          suffix.head? = some SLASH ∧ ∀ p, ¬ OccursAt Prefix (urlOf (lib.encode documentURI) suffix) p) ∧
        (suffix.head? = some SLASH → (∀ p, ¬ OccursAt Prefix (urlOf (lib.encode documentURI) suffix) p) →
          ofRequest lib (hexUrlOf hex suffix) = ofRequest lib (urlOf (lib.encode documentURI) suffix)) := by
  refine ⟨fun uriString => dehexify_isSome, fun documentURI hex suffix hhex => ⟨?_, fun hhead hmark => ?_⟩⟩
  · rw [dehexify_hexUrlOf hhex, dehexify_eq_self]
  · unfold ofRequest
    rw [(dehexify_hexUrlOf hhex).2 hhead, dehexify_eq_self.2 hmark]

/-- A URL that ends with the digits. -/
theorem not_dehexify_isSome : ¬ ∀ uriString, (dehexify uriString).isSome = true := fun h =>
  absurd (h (hexUrlOf (text "61") [])) (by decide)

end RequestDetails

end CollaboraOnline
