import CollaboraOnline.Net.HttpRequest
import CollaboraOnline.Net.HttpWire

/-!
# Requests that are written and read

What `writeData` writes does not depend on the capacities of its calls (`writeAll_eq`): it is the head and the framed
body.  The parser reads the request line when it is complete (`parseLine_prefix`).
-/

namespace CollaboraOnline

namespace Http

open Arrivals

/-! ### The writer -/

section Writer

variable {r : Request} {capacity wrote : Nat} {blocks : List (List UInt8)}

theorem writeBody_spec (chunked : Bool) (capacity : Nat) (hblocks : ∀ data ∈ blocks, data ≠ []) (wrote : Nat) :
    ((Request.writeBody chunked capacity wrote blocks).2.2 = true →
      (Request.writeBody chunked capacity wrote blocks).1 =
        blocks.flatMap (Request.block chunked) ++ Request.ending chunked) ∧
    ((Request.writeBody chunked capacity wrote blocks).2.2 = false →
      (Request.writeBody chunked capacity wrote blocks).1 ++
          (Request.writeBody chunked capacity wrote blocks).2.1.flatMap (Request.block chunked) =
        blocks.flatMap (Request.block chunked) ∧
      (Request.writeBody chunked capacity wrote blocks).2.1.length < blocks.length ∧
      ∀ data ∈ (Request.writeBody chunked capacity wrote blocks).2.1, data ≠ []) := by
  induction blocks generalizing wrote with
  | nil => exact ⟨fun _ => rfl, fun h => by cases h⟩
  | cons data blocks ih =>
    have hdata := hblocks data (List.mem_cons_self ..)
    have hrest : ∀ data ∈ blocks, data ≠ [] := fun d hd => hblocks d (List.mem_cons_of_mem _ hd)
    rw [Request.writeBody, if_neg hdata]
    split
    · obtain ⟨hfin, hmore⟩ := ih hrest (wrote + (Request.block chunked data).length)
      refine ⟨fun h => ?_, fun h => ?_⟩
      · rw [List.flatMap_cons, List.append_assoc, ← hfin h]
      · obtain ⟨hout, hlen, hne⟩ := hmore h
        refine ⟨?_, Nat.lt_succ_of_lt hlen, hne⟩
        rw [List.flatMap_cons, ← hout, ← List.append_assoc]
    · refine ⟨fun h => (by cases h), fun _ => ⟨?_, Nat.lt_succ_self _, hrest⟩⟩
      rw [List.flatMap_cons]

theorem writeAll_finished (h : r.stage = .Finished) : ∀ capacities, r.writeAll capacities = []
  | [] => rfl
  | capacity :: capacities => by
    have hwrite : r.writeData capacity = ([], r) := by
      unfold Request.writeData
      simp [h]
    rw [Request.writeAll, hwrite, List.nil_append]
    exact writeAll_finished h capacities

/-- The calls that write the body; each takes a block. -/
theorem writeAll_body (capacities : List Nat) (hstage : r.stage = .Body) (hblocks : ∀ data ∈ r.body, data ≠ [])
    (hlen : r.body.length < capacities.length) :
    r.writeAll capacities = r.body.flatMap (Request.block r.chunked) ++ Request.ending r.chunked := by
  induction capacities generalizing r with
  | nil => exact absurd hlen (Nat.not_lt_zero _)
  | cons capacity capacities ih =>
    obtain ⟨hfin, hmore⟩ := writeBody_spec r.chunked capacity hblocks 0
    have hwrite : r.writeData capacity = ((Request.writeBody r.chunked capacity 0 r.body).1,
        { r with body := (Request.writeBody r.chunked capacity 0 r.body).2.1
                 stage := if (Request.writeBody r.chunked capacity 0 r.body).2.2 then .Finished else .Body }) := by
      unfold Request.writeData
      rw [if_neg (by rw [hstage]; decide)]
      dsimp only
      rw [if_pos hstage, List.nil_append]
    rw [Request.writeAll, hwrite]
    cases hend : (Request.writeBody r.chunked capacity 0 r.body).2.2 with
    | true => rw [writeAll_finished rfl, hfin hend, List.append_nil]
    | false =>
      obtain ⟨hout, hless, hne⟩ := hmore hend
      have hrest :=
        ih (r := { r with body := (Request.writeBody r.chunked capacity 0 r.body).2.1, stage := .Body }) rfl hne
        (by rw [List.length_cons] at hlen; dsimp only; omega)
      have hchunked :
          ({ r with body := (Request.writeBody r.chunked capacity 0 r.body).2.1, stage := .Body } : Request).chunked =
        r.chunked := rfl
      dsimp only
      rw [if_neg Bool.false_ne_true, hrest, hchunked, ← List.append_assoc, hout]

/-- The bytes of a request, for any capacities of enough calls. -/
def Request.bytes (r : Request) : List UInt8 :=
  r.head ++ (r.body.flatMap (Request.block r.chunked) ++ Request.ending r.chunked)

theorem writeAll_eq (capacities : List Nat) (hstage : r.stage = .RequestLine) (hblocks : ∀ data ∈ r.body, data ≠ [])
    (hlen : r.body.length < capacities.length) : r.writeAll capacities = r.bytes := by
  cases capacities with
  | nil => exact absurd hlen (Nat.not_lt_zero _)
  | cons capacity capacities =>
    have hwrite : r.writeData capacity = (r.head ++ (({ r with stage := .Body } : Request).writeData capacity).1,
        (({ r with stage := .Body } : Request).writeData capacity).2) := by
      conv_lhs => unfold Request.writeData
      rw [if_pos hstage]
      rfl
    have hbody := writeAll_body (r := { r with stage := .Body }) (capacity :: capacities) rfl hblocks hlen
    rw [Request.writeAll] at hbody
    rw [Request.writeAll, hwrite, List.append_assoc, hbody]
    rfl

end Writer

/-! ### Blocks as chunks -/

section Chunks

variable {n : Nat} {data : List UInt8}

private theorem hexChar_spec : ∀ d < 16, hexDigitFromChar (hexChar d) = some d := by decide

private theorem hexValue_reverse (ds : List Nat) (h : ∀ d ∈ ds, d < 16) :
    hexValue (ds.reverse.map hexChar) = Nat.ofDigits 16 ds := by
  induction ds with
  | nil => rfl
  | cons d ds ih =>
    have hd : (hexDigitFromChar (hexChar d)).getD 0 = d := by
      rw [hexChar_spec d (h d (List.mem_cons_self ..))]
      rfl
    rw [Nat.ofDigits_cons, ← ih fun d hd => h d (List.mem_cons_of_mem _ hd), hexValue, List.reverse_cons,
      List.map_append, List.foldl_append, List.map_singleton, List.foldl_cons, List.foldl_nil, hd, hexValue]
    omega

theorem hexValue_toHex (n : Nat) : hexValue (toHex n) = n := by
  rw [toHex, hexValue_reverse _ fun d hd => Nat.digits_lt_base (by decide) hd, Nat.ofDigits_digits]

def chunkOf (data : List UInt8) : Chunk := ⟨toHex data.length, [], data⟩

def lastChunk : LastChunk := ⟨text "0", []⟩

theorem sizeLine_toHex (hn : 0 < n) : SizeLine (toHex n) [] where
  ne_nil := by
    rw [toHex, Ne, List.map_eq_nil_iff, List.reverse_eq_nil_iff]
    exact Nat.digits_ne_nil_iff_ne_zero.2 (by omega)
  hex := by
    intro ch hch
    obtain ⟨d, hd, rfl⟩ := List.mem_map.1 hch
    rw [hexChar_spec d (Nat.digits_lt_base (by decide) (List.mem_reverse.1 hd))]
    rfl
  noLF := List.not_mem_nil
  stop := by
    rintro ch ⟨⟩
    decide

theorem chunkOf_wellFormed (hdata : data ≠ []) (hlen : data.length ≤ 65536) : (chunkOf data).WellFormed where
  toSizeLine := sizeLine_toHex (List.length_pos_iff.2 hdata)
  value := hexValue_toHex _
  ne_nil_data := hdata
  fits := by
    have hdigits : (toHex data.length).length ≤ 5 := by
      rw [toHex, List.length_map, List.length_reverse, Nat.digits_length_le_iff (by decide)]
      omega
    simp only [Chunk.bytes, chunkOf, CRLF, List.length_append, List.length_cons, List.length_nil]
    omega

theorem lastChunk_wellFormed : lastChunk.WellFormed where
  ne_nil := by decide
  hex := List.all_eq_true.1 (by decide)
  noLF := by decide
  stop := by
    rintro ch ⟨⟩
    decide
  value := by decide

theorem block_chunked (data : List UInt8) : Request.block true data = (chunkOf data).bytes := by
  simp [Request.block, chunkOf, Chunk.bytes, CRLF]

theorem ending_chunked : Request.ending true = lastChunk.bytes := by decide

end Chunks

/-! ### The request line -/

section Line

variable {r : Request} {p q t rest tok : List UInt8} {s : RequestParser}

/-- Text without blanks and line breaks. -/
def Token (tok : List UInt8) : Prop := ∀ ch ∈ tok, isWhitespace ch = false ∧ ch ≠ LF

instance (tok : List UInt8) : Decidable (Token tok) :=
  List.decidableBAll _ tok

private theorem token_pred (h : Token tok) : ∀ ch ∈ tok, (!(isWhitespace ch || ch == LF)) = true := by
  intro ch hch
  simp [(h ch hch).1, (h ch hch).2]

/-- A token ends at a blank. -/
theorem findEndOfToken_blank (h : Token tok) {sep : UInt8} (hsep : isWhitespace sep = true) (pre q : List UInt8) :
    findEndOfToken (pre ++ (tok ++ sep :: q)) pre.length = pre.length + tok.length := by
  rw [findEndOfToken, List.drop_left, List.takeWhile_append_of_pos (token_pred h),
    List.takeWhile_cons_of_neg (by simp [hsep]), List.append_nil]

/-- A token that is not complete. -/
theorem findEndOfToken_end (h : Token tok) (pre : List UInt8) :
    findEndOfToken (pre ++ tok) pre.length = (pre ++ tok).length := by
  rw [findEndOfToken, List.drop_left, List.takeWhile_eq_self_iff.2 (token_pred h), List.length_append]

theorem takeWhile_blank (hq : ∀ ch ∈ q.head?, isWhitespace ch = false) : q.takeWhile isWhitespace = [] := by
  cases q with
  | nil => rfl
  | cons ch q => rw [List.takeWhile_cons_of_neg (by simp [hq ch rfl])]

/-- One blank is skipped. -/
theorem skip_blank {sep : UInt8} (hsep : isWhitespace sep = true) (pre : List UInt8)
    (hq : ∀ ch ∈ q.head?, isWhitespace ch = false) :
    skipSpaceAndTab (pre ++ sep :: q) pre.length = pre.length + 1 := by
  rw [skipSpaceAndTab, List.drop_left, List.takeWhile_cons_of_pos hsep, takeWhile_blank hq]
  rfl

theorem skip_none (pre : List UInt8) (hq : ∀ ch ∈ q.head?, isWhitespace ch = false) :
    skipSpaceAndTab (pre ++ q) pre.length = pre.length := by
  rw [skipSpaceAndTab, List.drop_left, takeWhile_blank hq]
  rfl

theorem head_of_token (hq : q <+: tok ++ rest) (htok : tok ≠ []) (h : Token tok) :
    ∀ ch ∈ q.head?, isWhitespace ch = false := by
  intro ch hch
  cases tok with
  | nil => exact absurd rfl htok
  | cons a tok =>
    rcases List.prefix_cons_iff.1 hq with rfl | ⟨t, rfl, _⟩
    · cases hch
    · cases hch
      exact (h _ (List.mem_cons_self ..)).1

namespace Request

def line (r : Request) : List UInt8 := r.verb ++ SP :: (r.url ++ SP :: (r.version ++ [CR]))

/-- The lines of the header. -/
def lines (r : Request) : List (List UInt8) := r.header.headers.map fun pair => pair.1 ++ text ": " ++ pair.2

/-- The header as the parser keeps it. -/
def back (r : Request) : Header := Header.read {} r.header.headers

/-- A request that can be sent: the body goes with the header. -/
structure WellFormed (r : Request) : Prop where
  stage : r.stage = .RequestLine
  verb : r.verb = VERB_GET ∨ r.verb = VERB_POST
  url : Token r.url
  version : ∃ major minor, isDigit major = true ∧ isDigit minor = true ∧
  r.version = text "HTTP/" ++ [major, 0x2e, minor]
  headers : r.header.headers ≠ []
  fields : ∀ pair ∈ r.header.headers, LF ∉ pair.1 ∧ LF ∉ pair.2
  blocks : ∀ data ∈ r.body, data ≠ [] ∧ data.length ≤ 65536
  get : r.verb = VERB_GET → r.body = []
  post : r.verb = VERB_POST →
    (r.chunked = true ∧ r.back.hasContentLength = false) ∨
    (r.chunked = false ∧ r.back.chunked = false ∧ r.back.hasContentLength = true ∧
      r.back.getContentLength = (r.body.flatten.length : Int))

theorem writeData_eq_block (r : Request) : r.header.writeData ++ CRLF = Http.block r.lines := by
  rw [Header.writeData, Http.block, lines, List.flatMap_map]

theorem head_eq (r : Request) : r.head = r.line ++ LF :: Http.block r.lines := by
  have hsp : text " " = [SP] := by decide
  rw [head, List.append_assoc _ (Header.writeData r.header), writeData_eq_block]
  simp [line, hsp, CRLF]

end Request

theorem verb_token (hw : r.WellFormed) : Token r.verb ∧ 3 ≤ r.verb.length ∧ r.verb.length ≤ 4 := by
  rcases hw.verb with h | h <;> rw [h] <;> exact ⟨by decide, by decide, by decide⟩

theorem version_token (hw : r.WellFormed) : Token r.version ∧ r.version.length = 8 ∧
    ∀ q, validVersion (r.version ++ CR :: q) = true := by
  obtain ⟨major, minor, hmajor, hminor, hversion⟩ := hw.version
  have hdigit : ∀ n < 256, isDigit (UInt8.ofNat n) = true →
      isWhitespace (UInt8.ofNat n) = false ∧ UInt8.ofNat n ≠ LF := by
    decide +kernel
  have hdigit' {ch : UInt8} (h : isDigit ch = true) : isWhitespace ch = false ∧ ch ≠ LF := by
    have := hdigit ch.toNat ch.toNat_lt
    rw [UInt8.ofNat_toNat] at this
    exact this h
  have htext : Token (text "HTTP/") := by decide
  rw [hversion]
  refine ⟨?_, rfl, fun q => ?_⟩
  · intro ch hch
    rcases List.mem_append.1 hch with hch | hch
    · exact htext ch hch
    · simp only [List.mem_cons, List.not_mem_nil, or_false] at hch
      rcases hch with rfl | rfl | rfl
      · exact hdigit' hmajor
      · decide
      · exact hdigit' hminor
  · have htake : (text "HTTP/" ++ [major, 0x2e, minor] ++ CR :: q).take 5 = text "HTTP/" := rfl
    have h5 : (text "HTTP/" ++ [major, 0x2e, minor] ++ CR :: q).getD 5 0 = major := rfl
    have h6 : (text "HTTP/" ++ [major, 0x2e, minor] ++ CR :: q).getD 6 0 = 0x2e := rfl
    have h7 : (text "HTTP/" ++ [major, 0x2e, minor] ++ CR :: q).getD 7 0 = minor := rfl
    have h8 : (text "HTTP/" ++ [major, 0x2e, minor] ++ CR :: q).getD 8 0 = CR := rfl
    have hCR : isWhitespace CR = true := rfl
    rw [validVersion, htake, h5, h6, h7, h8, hmajor, hminor, hCR]
    simp

/-- Only what was read of the request line has changed. -/
structure KeepsLine (s s' : RequestParser) : Prop where
  stage : s'.stage = s.stage
  header : s'.header = s.header
  size : s'.recvBodySize = s.recvBodySize
  body : s'.body = s.body

theorem KeepsLine.refl (s : RequestParser) : KeepsLine s s := ⟨rfl, rfl, rfl, rfl⟩

/-- The request line is read when its LF is there. -/
theorem parseLine_prefix (hw : r.WellFormed) (hurl : r.url ≠ []) (hp : p <+: r.line ++ LF :: rest)
    (s : RequestParser) : (p.length ≤ r.line.length → ∃ s', s.parseLine p = (some 0, s') ∧ KeepsLine s s') ∧
    (r.line.length < p.length → s.parseLine p =
      (some (r.line.length + 1),
      { s with verb := r.verb, url := r.url, version := r.version, stage := .Header })) := by
  obtain ⟨hverb, hverb3, hverbLen⟩ := verb_token hw
  obtain ⟨hversion, hversionLen, hvalid⟩ := version_token hw
  have hSP : isWhitespace SP = true := rfl
  have hCR : isWhitespace CR = true := rfl
  have hlineLen : r.line.length = r.verb.length + 1 + r.url.length + 1 + 8 + 1 := by
    simp [Request.line, hversionLen]
    omega
  have hurlLen := List.length_pos_iff.2 hurl
  by_cases hshort : p.length < 16
  · have hparse : s.parseLine p = (some 0, s) := by
      unfold RequestParser.parseLine
      rw [if_pos (by exact hshort)]
    exact ⟨fun _ => ⟨s, hparse, .refl s⟩, fun hlt => by omega⟩
  have hp' : p <+: (r.verb ++ [SP]) ++ (r.url ++ SP :: (r.version ++ CR :: LF :: rest)) := by
    simpa [Request.line] using hp
  rcases prefix_append_cases hp' with ⟨hlen, _⟩ | ⟨q, rfl, hq⟩
  · rw [List.length_append, List.length_singleton] at hlen
    omega
  have hlen : (r.verb ++ [SP] ++ q).length = r.verb.length + 1 + q.length := by simp; omega
  have hverbOff : skipSpaceAndTab (r.verb ++ [SP] ++ q) 0 = 0 := by
    have hahead : r.verb ++ [SP] ++ q <+: r.verb ++ ([SP] ++ q) := by simp
    have hhead := head_of_token hahead (by rw [← List.length_pos_iff]; omega) hverb
    exact skip_none [] hhead
  have hverbEnd : findEndOfToken (r.verb ++ [SP] ++ q) 0 = r.verb.length := by
    have := findEndOfToken_blank hverb hSP [] q
    simpa using this
  have hverbText : ((r.verb ++ [SP] ++ q).drop 0).take (r.verb.length - 0) = r.verb := by simp
  have hurlOff : skipSpaceAndTab (r.verb ++ [SP] ++ q) r.verb.length = r.verb.length + 1 := by
    have := skip_blank hSP r.verb (head_of_token hq hurl hw.url)
    simpa using this
  have hurlPre : (r.verb ++ [SP]).length = r.verb.length + 1 := by simp
  unfold RequestParser.parseLine
  rw [if_neg (by exact hshort), hverbOff]
  dsimp only
  rw [hverbEnd, hverbText, if_neg (by omega), hurlOff]
  -- where the token of the URL is not complete
  have hwait : Token q → q.length ≤ r.url.length → findEndOfToken (r.verb ++ [SP] ++ q) (r.verb.length + 1) =
      (r.verb ++ [SP] ++ q).length := by
    intro htok _
    have := findEndOfToken_end htok (r.verb ++ [SP])
    rwa [hurlPre] at this
  rcases prefix_append_cases hq with ⟨hless, hq⟩ | ⟨t, rfl, ht⟩
  · rw [if_pos (hwait (fun ch hch => hw.url ch (hq.subset hch)) hless.le)]
    exact ⟨fun _ => ⟨_, rfl, rfl, rfl, rfl, rfl⟩, fun hlt => by omega⟩
  rcases List.prefix_cons_iff.1 ht with rfl | ⟨t, rfl, hversionPrefix⟩
  · rw [List.append_nil] at hwait hlen ⊢
    rw [if_pos (hwait hw.url (Nat.le_refl _))]
    exact ⟨fun _ => ⟨_, rfl, rfl, rfl, rfl, rfl⟩, fun hlt => by omega⟩
  have hlen' : (r.verb ++ [SP] ++ (r.url ++ SP :: t)).length = r.verb.length + 1 + r.url.length + 1 + t.length := by
    simp
    omega
  have hurlEnd : findEndOfToken (r.verb ++ [SP] ++ (r.url ++ SP :: t)) (r.verb.length + 1) =
      r.verb.length + 1 + r.url.length := by
    have := findEndOfToken_blank hw.url hSP (r.verb ++ [SP]) t
    rwa [hurlPre] at this
  have hurlText : ((r.verb ++ [SP] ++ (r.url ++ SP :: t)).drop (r.verb.length + 1)).take
      (r.verb.length + 1 + r.url.length - (r.verb.length + 1)) = r.url := by
    rw [← hurlPre, List.drop_left, Nat.add_sub_cancel_left, List.take_left]
  have hoff : skipSpaceAndTab (r.verb ++ [SP] ++ (r.url ++ SP :: t)) (r.verb.length + 1 + r.url.length) =
      r.verb.length + 1 + r.url.length + 1 := by
    have hversion0 : r.version ≠ [] := by rw [← List.length_pos_iff]; omega
    have hpre : r.verb ++ [SP] ++ (r.url ++ SP :: t) = (r.verb ++ [SP] ++ r.url) ++ SP :: t := by simp
    have hpreLen : (r.verb ++ [SP] ++ r.url).length = r.verb.length + 1 + r.url.length := by simp; omega
    rw [hpre, ← hpreLen]
    exact skip_blank hSP _ (head_of_token hversionPrefix hversion0 hversion)
  have hdrop : (r.verb ++ [SP] ++ (r.url ++ SP :: t)).drop (r.verb.length + 1 + r.url.length + 1) = t := by
    have hpre : r.verb ++ [SP] ++ (r.url ++ SP :: t) = (r.verb ++ [SP] ++ r.url ++ [SP]) ++ t := by simp
    have hpreLen : (r.verb ++ [SP] ++ r.url ++ [SP]).length = r.verb.length + 1 + r.url.length + 1 := by simp; omega
    rw [hpre, ← hpreLen, List.drop_left]
  rw [hurlEnd, if_neg (by omega), hurlText, hoff, hdrop]
  by_cases ht8 : t.length ≤ 8
  · rw [if_pos (by rw [VersionLen]; omega)]
    exact ⟨fun _ => ⟨_, rfl, rfl, rfl, rfl, rfl⟩, fun hlt => by omega⟩
  have ht' : t <+: (r.version ++ [CR]) ++ LF :: rest := by simpa using hversionPrefix
  rcases prefix_append_cases ht' with ⟨hless, _⟩ | ⟨u, rfl, hu⟩
  · rw [List.length_append, hversionLen, List.length_singleton] at hless
    omega
  have htLen : (r.version ++ [CR] ++ u).length = 9 + u.length := by simp [hversionLen]; omega
  have hvalid' : validVersion (r.version ++ [CR] ++ u) = true := by
    have := hvalid u
    simpa using this
  have hversionText : (r.version ++ [CR] ++ u).take VersionLen = r.version := by
    rw [List.append_assoc]
    exact List.take_left' hversionLen
  have hdrop8 : (r.verb ++ [SP] ++ (r.url ++ SP :: (r.version ++ [CR] ++ u))).drop
      (r.verb.length + 1 + r.url.length + 1 + VersionLen) = CR :: u := by
    rw [← List.drop_drop, hdrop, List.append_assoc]
    exact List.drop_left' hversionLen
  rw [if_neg (by rw [VersionLen]; omega), hvalid', hversionText, hdrop8, if_neg (by decide)]
  rcases List.prefix_cons_iff.1 hu with rfl | ⟨u, rfl, _⟩
  · have hbreak : findLineBreak [CR] = 1 := by decide
    rw [List.length_nil] at htLen
    rw [hbreak, if_pos (by rw [VersionLen]; omega)]
    exact ⟨fun _ => ⟨_, rfl, rfl, rfl, rfl, rfl⟩, fun hlt => by omega⟩
  · have hbreak : findLineBreak (CR :: LF :: u) = 1 := findLineBreak_append (l := [CR]) (by decide)
    rw [List.length_cons] at htLen
    rw [hbreak, if_neg (by rw [VersionLen]; omega)]
    refine ⟨fun hle => by omega, fun _ => ?_⟩
    rw [hlineLen, VersionLen]

/-- Without a URL the version is taken for it, and the request line is never read. -/
theorem parseLine_noUrl (hw : r.WellFormed) (hurl : r.url = []) (hp : p <+: r.line ++ LF :: rest)
    (s : RequestParser) :
    (∃ s', s.parseLine p = (some 0, s') ∧ s'.stage = s.stage) ∨ ∃ s', s.parseLine p = (none, s') := by
  obtain ⟨hverb, hverb3, hverbLen⟩ := verb_token hw
  obtain ⟨hversion, hversionLen, _⟩ := version_token hw
  have hSP : isWhitespace SP = true := rfl
  have hCR : isWhitespace CR = true := rfl
  by_cases hshort : p.length < 16
  · refine .inl ⟨s, ?_, rfl⟩
    unfold RequestParser.parseLine
    rw [if_pos (by exact hshort)]
  have hp' : p <+: (r.verb ++ [SP, SP] ++ r.version ++ [CR]) ++ LF :: rest := by
    simpa [Request.line, hurl] using hp
  have hpreLen : (r.verb ++ [SP, SP] ++ r.version ++ [CR]).length = r.verb.length + 11 := by
    simp [hversionLen]
  rcases prefix_append_cases hp' with ⟨hlen, _⟩ | ⟨u, rfl, hu⟩
  · omega
  have hlen : (r.verb ++ [SP, SP] ++ r.version ++ [CR] ++ u).length = r.verb.length + 11 + u.length := by
    rw [List.length_append, hpreLen]
  have hverbOff : skipSpaceAndTab (r.verb ++ [SP, SP] ++ r.version ++ [CR] ++ u) 0 = 0 := by
    have hahead : r.verb ++ [SP, SP] ++ r.version ++ [CR] ++ u <+:
        r.verb ++ ([SP, SP] ++ r.version ++ [CR] ++ u) := by simp
    have hhead := head_of_token hahead (by rw [← List.length_pos_iff]; omega) hverb
    exact skip_none [] hhead
  have hverbEnd : findEndOfToken (r.verb ++ [SP, SP] ++ r.version ++ [CR] ++ u) 0 = r.verb.length := by
    have := findEndOfToken_blank hverb hSP [] (SP :: (r.version ++ CR :: u))
    simpa using this
  have hurlOff : skipSpaceAndTab (r.verb ++ [SP, SP] ++ r.version ++ [CR] ++ u) r.verb.length =
      r.verb.length + 2 := by
    have hversion0 : r.version ≠ [] := by rw [← List.length_pos_iff]; omega
    have hpre : r.verb ++ [SP, SP] ++ r.version ++ [CR] ++ u = r.verb ++ SP :: SP :: (r.version ++ CR :: u) := by simp
    rw [hpre, skipSpaceAndTab, List.drop_left, List.takeWhile_cons_of_pos hSP, List.takeWhile_cons_of_pos hSP,
      takeWhile_blank (head_of_token (List.prefix_refl _) hversion0 hversion)]
    rfl
  have hurlEnd : findEndOfToken (r.verb ++ [SP, SP] ++ r.version ++ [CR] ++ u) (r.verb.length + 2) =
      r.verb.length + 10 := by
    have hpre : r.verb ++ [SP, SP] ++ r.version ++ [CR] ++ u = (r.verb ++ [SP, SP]) ++ (r.version ++ CR :: u) := by
      simp
    have hpreLen' : (r.verb ++ [SP, SP]).length = r.verb.length + 2 := by simp
    have htoken := findEndOfToken_blank hversion hCR (r.verb ++ [SP, SP]) u
    rw [hpre, ← hpreLen', htoken, hpreLen', hversionLen]
  have hblank : ∀ ch ∈ u.head?, isWhitespace ch = false := by
    intro ch hch
    rcases List.prefix_cons_iff.1 hu with rfl | ⟨t, rfl, _⟩
    · cases hch
    · cases hch
      rfl
  have hoff : skipSpaceAndTab (r.verb ++ [SP, SP] ++ r.version ++ [CR] ++ u) (r.verb.length + 10) =
      r.verb.length + 11 := by
    have hpre : r.verb ++ [SP, SP] ++ r.version ++ [CR] ++ u = (r.verb ++ [SP, SP] ++ r.version) ++ CR :: u := by simp
    have hpreLen' : (r.verb ++ [SP, SP] ++ r.version).length = r.verb.length + 10 := by simp [hversionLen]
    have hskip := skip_blank hCR (r.verb ++ [SP, SP] ++ r.version) hblank
    rw [hpreLen'] at hskip
    rw [hpre, hskip]
  have hdrop : (r.verb ++ [SP, SP] ++ r.version ++ [CR] ++ u).drop (r.verb.length + 11) = u := by
    rw [← hpreLen, List.drop_left]
  unfold RequestParser.parseLine
  rw [if_neg (by exact hshort), hverbOff]
  dsimp only
  rw [hverbEnd, if_neg (by omega), hurlOff, hurlEnd, if_neg (by omega), hoff, hdrop]
  split
  · exact .inl ⟨_, rfl, rfl⟩
  · rename_i hlong
    rw [VersionLen] at hlong
    -- an LF stands where the version is looked for
    rcases List.prefix_cons_iff.1 hu with rfl | ⟨t, rfl, _⟩
    · rw [List.length_nil] at hlen
      omega
    · have hinvalid : validVersion (LF :: t) = false := by
        have htake : (LF :: t).take 5 ≠ text "HTTP/" := by
          intro h
          have hhead : some LF = some 0x48 := congrArg List.head? h
          exact absurd hhead (by decide)
        rw [validVersion, beq_false_of_ne htake]
        rfl
      rw [hinvalid, if_pos (by decide)]
      exact .inr ⟨_, rfl⟩

end Line

end Http

end CollaboraOnline
