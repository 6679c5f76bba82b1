import CollaboraOnline.Net.HttpResponse
import CollaboraOnline.Net.HttpWire

/-!
# Responses that arrive in pieces

A well-formed response and what follows it arrive in pieces.  Up to the end of the response, or of the line of the
last chunk, the reader keeps what it cannot use yet; the arrival that gets there decides (`readData_exact_iff`).
-/

namespace CollaboraOnline

namespace Http

/-! ### The head -/

/-- The status line and the lines of the header. -/
structure ResponseHead where
  major : UInt8
  minor : UInt8
  code₁ : UInt8
  code₂ : UInt8
  code₃ : UInt8
  reason : List UInt8
  lines : List (List UInt8)

namespace ResponseHead

def code (h : ResponseHead) : Nat := (digit h.code₁ * 10 + digit h.code₂) * 10 + digit h.code₃

/-- The status line up to the reason phrase. -/
def status (h : ResponseHead) : List UInt8 :=
  text "HTTP/" ++ [h.major, 0x2e, h.minor, SP, h.code₁, h.code₂, h.code₃, SP]

def bytes (h : ResponseHead) : List UInt8 := (h.status ++ h.reason ++ [CR]) ++ LF :: block h.lines

/-- How many blanks the reader skips in front of the reason phrase. -/
def blanks (h : ResponseHead) : Nat := ((h.reason ++ [CR]).takeWhile isWhitespace).length

structure WellFormed (h : ResponseHead) : Prop where
  major : isDigit h.major
  minor : isDigit h.minor
  code₁ : isDigit h.code₁
  code₂ : isDigit h.code₂
  code₃ : isDigit h.code₃
  le_code : 100 ≤ h.code
  code_le : h.code ≤ 599
  reason : LF ∉ h.reason
  lines : ∀ line ∈ h.lines, line ≠ [] ∧ LF ∉ line

end ResponseHead

section Head

variable {h : ResponseHead} {p q rest : List UInt8} {s : StatusLine}

theorem length_status : h.status.length = 13 := rfl

private theorem isDigit_spec : ∀ n < 256, isDigit (UInt8.ofNat n) = true →
    isWhitespace (UInt8.ofNat n) = false ∧ StatusLine.isspace (UInt8.ofNat n) = false ∧ UInt8.ofNat n ≠ 0x2d ∧
      UInt8.ofNat n ≠ 0x2b ∧ digit (UInt8.ofNat n) ≤ 9 := by decide +kernel

private theorem isDigit_not {ch : UInt8} (hch : isDigit ch = true) : isWhitespace ch = false ∧
    StatusLine.isspace ch = false ∧ ch ≠ 0x2d ∧ ch ≠ 0x2b ∧ digit ch ≤ 9 := by
  have := isDigit_spec ch.toNat ch.toNat_lt
  rw [UInt8.ofNat_toNat] at this
  exact this hch

private theorem safe_atoi_code (hw : h.WellFormed) (q : List UInt8) :
    StatusLine.safe_atoi (h.code₁ :: h.code₂ :: h.code₃ :: SP :: q) = h.code := by
  obtain ⟨_, hspace, hminus, hplus, h₁⟩ := isDigit_not hw.code₁
  obtain ⟨_, _, _, _, h₂⟩ := isDigit_not hw.code₂
  obtain ⟨_, _, _, _, h₃⟩ := isDigit_not hw.code₃
  have hSP : isDigit SP = false := rfl
  rw [StatusLine.safe_atoi, List.dropWhile_cons_of_neg (by simp [hspace])]
  dsimp only
  rw [if_neg hminus, if_neg hplus]
  simp only [StatusLine.atoiDigits, hw.code₁, hw.code₂, hw.code₃, hSP, Bool.not_true, Bool.not_false,
    Bool.false_eq_true, if_false, if_true, Nat.zero_mul, Nat.zero_add]
  rw [if_neg (by omega), if_neg (by omega), if_neg (by omega)]
  rfl

private theorem length_takeWhile_add_findLineBreak (q : List UInt8) :
    (q.takeWhile isWhitespace).length + findLineBreak (q.drop (q.takeWhile isWhitespace).length) =
      findLineBreak q := by
  induction q with
  | nil => rfl
  | cons ch q ih =>
    cases hch : isWhitespace ch with
    | false => simp [List.takeWhile_cons_of_neg, hch]
    | true =>
      have hLF : (ch != LF) = true := by
        rw [bne_iff_ne]
        rintro rfl
        exact absurd hch (by decide)
      have hcons : findLineBreak (ch :: q) = findLineBreak q + 1 := by simp [findLineBreak, hLF]
      rw [List.takeWhile_cons_of_pos hch, List.length_cons, List.drop_succ_cons, hcons, ← ih]
      omega

/-- The reader of the status line, behind the blank in front of the reason phrase. -/
theorem parse_status (hw : h.WellFormed) (s : StatusLine) (q : List UInt8) :
    ∃ s₁ s₂ s₃ : StatusLine, s₃.statusCode = (h.code : Int) ∧ s.parse (h.status ++ q) =
      if q.length < 2 then (.Incomplete, 0, s₁)
      else if 523 ≤ 13 + (q.takeWhile isWhitespace).length then (.Invalid, 0, s₂)
      else if q.length ≤ findLineBreak q then (.Incomplete, 0, s₂)
      else (.Valid, 13 + findLineBreak q + skipCRLF (q.drop (findLineBreak q)), s₃) := by
  have hlength : (h.status ++ q).length = 13 + q.length := by rw [List.length_append, length_status]
  have hversionOff : skipSpaceAndTab (h.status ++ q) 0 = 0 := rfl
  have hversion : validVersion ((h.status ++ q).drop 0) = true := by
    have htake : ((h.status ++ q).drop 0).take 5 = text "HTTP/" := rfl
    have h5 : ((h.status ++ q).drop 0).getD 5 0 = h.major := rfl
    have h6 : ((h.status ++ q).drop 0).getD 6 0 = 0x2e := rfl
    have h7 : ((h.status ++ q).drop 0).getD 7 0 = h.minor := rfl
    have h8 : ((h.status ++ q).drop 0).getD 8 0 = SP := rfl
    have hSP : isWhitespace SP = true := rfl
    rw [validVersion, htake, h5, h6, h7, h8, hw.major, hw.minor, hSP]
    simp
  have hdrop8 : (h.status ++ q).drop 8 = SP :: h.code₁ :: h.code₂ :: h.code₃ :: SP :: q := rfl
  have hcodeOff : skipSpaceAndTab (h.status ++ q) (0 + StatusLine.VersionLen) = 9 := by
    have hSP : isWhitespace SP = true := rfl
    rw [StatusLine.VersionLen, skipSpaceAndTab, Nat.zero_add, hdrop8, List.takeWhile_cons_of_pos hSP,
      List.takeWhile_cons_of_neg (by simp [(isDigit_not hw.code₁).1])]
    rfl
  have hcode : (h.status ++ q).getD 9 0 = h.code₁ := rfl
  have hatoi : StatusLine.safe_atoi ((h.status ++ q).drop 9) = h.code := safe_atoi_code hw q
  have hreasonOff : skipSpaceAndTab (h.status ++ q) (9 + StatusLine.StatusCodeLen) =
      13 + (q.takeWhile isWhitespace).length := by
    have hSP : isWhitespace SP = true := rfl
    have hdrop12 : (h.status ++ q).drop 12 = SP :: q := rfl
    rw [StatusLine.StatusCodeLen, skipSpaceAndTab, hdrop12, List.takeWhile_cons_of_pos hSP, List.length_cons]
    omega
  have hbreak : 13 + (q.takeWhile isWhitespace).length +
      findLineBreak ((h.status ++ q).drop (13 + (q.takeWhile isWhitespace).length)) = 13 + findLineBreak q := by
    have hdrop13 : (h.status ++ q).drop 13 = q := rfl
    rw [← List.drop_drop, hdrop13, Nat.add_assoc, length_takeWhile_add_findLineBreak]
  have hdrop13 : (h.status ++ q).drop (13 + findLineBreak q) = q.drop (findLineBreak q) := by
    rw [← List.drop_drop]
    rfl
  have hvalid : ¬ ((h.code : Int) < StatusLine.MinValidStatusCode ∨ StatusLine.MaxValidStatusCode < h.code) := by
    have := hw.le_code
    have := hw.code_le
    unfold StatusLine.MinValidStatusCode StatusLine.MaxValidStatusCode
    omega
  unfold StatusLine.parse
  rw [hversionOff, hlength]
  dsimp only
  rw [hversion, hcodeOff, hcode, hw.code₁, hatoi, hreasonOff, hbreak, hdrop13]
  by_cases h0 : q.length < 1
  · refine ⟨s, s, { s with statusCode := h.code }, rfl, ?_⟩
    rw [if_pos (show 13 + q.length < StatusLine.MinStatusLineLen by rw [StatusLine.MinStatusLineLen]; omega),
      if_pos (by omega)]
  · rw [if_neg (show ¬ 13 + q.length < StatusLine.MinStatusLineLen by rw [StatusLine.MinStatusLineLen]; omega),
      if_neg (show ¬ StatusLine.MaxStatusLineLen ≤ 0 by decide),
      if_neg (show ¬ 13 + q.length - 0 < StatusLine.MinStatusLineLen by rw [StatusLine.MinStatusLineLen]; omega),
      if_neg (show ¬ (!true) = true by decide), if_neg (show ¬ StatusLine.MaxStatusLineLen ≤ 9 by decide),
      if_neg (show ¬ (!true) = true by decide), if_neg hvalid]
    simp only [Nat.add_le_add_iff_left]
    by_cases h2 : q.length < 2
    · rw [if_pos (show 13 + q.length - 9 < StatusLine.MinStatusLineLen - StatusLine.VersionLen by
        rw [StatusLine.MinStatusLineLen, StatusLine.VersionLen]; omega)]
      exact ⟨_, s, { s with statusCode := h.code }, rfl, (if_pos h2).symm⟩
    · rw [if_neg (show ¬ 13 + q.length - 9 < StatusLine.MinStatusLineLen - StatusLine.VersionLen by
        rw [StatusLine.MinStatusLineLen, StatusLine.VersionLen]; omega)]
      refine ⟨s, _, _, ?_, (if_neg h2).symm⟩
      split <;> rfl

private theorem length_takeWhile_prefix {a b : List UInt8} (h : a <+: b) (f : UInt8 → Bool) :
    (a.takeWhile f).length = min a.length (b.takeWhile f).length := by
  obtain ⟨c, rfl⟩ := h
  induction a with
  | nil => simp
  | cons ch a ih =>
    cases hch : f ch with
    | false => simp [hch]
    | true =>
      simp only [List.cons_append, List.takeWhile_cons_of_pos hch, List.length_cons, ih]
      omega

private theorem takeWhile_line {l : List UInt8} :
    (l ++ LF :: rest).takeWhile isWhitespace = l.takeWhile isWhitespace := by
  induction l with
  | nil => rfl
  | cons ch l ih =>
    cases hch : isWhitespace ch with
    | false => simp [hch]
    | true => simpa [hch] using ih

/-- A prefix of the status line, at least as long as the part in front of the reason phrase. -/
theorem status_cases (hp : p <+: h.status ++ h.reason ++ [CR] ++ LF :: rest) :
    p.length < 14 ∨ ∃ q, p = h.status ++ q ∧ q <+: (h.reason ++ [CR]) ++ LF :: rest := by
  rw [List.append_assoc h.status, List.append_assoc h.status] at hp
  rcases prefix_append_cases hp with ⟨hlen, _⟩ | ⟨q, rfl, hq⟩
  · rw [length_status] at hlen
    exact .inl (by omega)
  · exact .inr ⟨q, rfl, hq⟩

theorem parse_short (s : StatusLine) (hp : p.length < 14) : s.parse p = (.Incomplete, 0, s) := by
  unfold StatusLine.parse
  rw [if_pos]
  exact hp

/-- The status line is read when its LF is there. -/
theorem parse_prefix (hw : h.WellFormed) (hblanks : h.blanks < 510) (s : StatusLine)
    (hp : p <+: h.status ++ h.reason ++ [CR] ++ LF :: rest) :
    (p.length < (h.status ++ h.reason ++ [CR]).length + 1 → ∃ s', s.parse p = (.Incomplete, 0, s')) ∧
    ((h.status ++ h.reason ++ [CR]).length + 1 ≤ p.length →
      ∃ read s', s.parse p = (.Valid, read, s') ∧ read ≠ 0 ∧ s'.statusCode = (h.code : Int)) := by
  have hlength : (h.status ++ h.reason ++ [CR]).length = 13 + h.reason.length + 1 := by
    simp [length_status, Nat.add_assoc]
  have hnotMem : LF ∉ h.reason ++ [CR] := by
    have hCR : LF ≠ CR := by decide
    simp [hw.reason, hCR]
  rcases status_cases hp with hlen | ⟨q, rfl, hq⟩
  · exact ⟨fun _ => ⟨s, parse_short s hlen⟩, fun hle => by omega⟩
  · have hlen : (h.status ++ q).length = 13 + q.length := by rw [List.length_append, length_status]
    obtain ⟨s₁, s₂, s₃, hcode, hparse⟩ := parse_status hw s q
    have hws := length_takeWhile_prefix hq isWhitespace
    rw [takeWhile_line] at hws
    have hfew : ¬ 523 ≤ 13 + (q.takeWhile isWhitespace).length := by
      unfold ResponseHead.blanks at hblanks
      omega
    rw [hparse, hlen, if_neg hfew]
    rcases prefix_append_cases hq with ⟨hlt, hq⟩ | ⟨t, rfl, ht⟩
    · rw [if_pos (findLineBreak_of_notMem fun hmem => hnotMem (hq.subset hmem)).ge]
      simp only [List.length_append, List.length_singleton] at hlt
      refine ⟨fun _ => ?_, fun hle => by omega⟩
      split
      · exact ⟨s₁, rfl⟩
      · exact ⟨s₂, rfl⟩
    · rcases List.prefix_cons_iff.1 ht with rfl | ⟨t, rfl, _⟩
      · rw [List.append_nil, if_pos (findLineBreak_of_notMem hnotMem).ge]
        refine ⟨fun _ => ?_, fun hle => by simp at hle hlength; omega⟩
        split
        · exact ⟨s₁, rfl⟩
        · exact ⟨s₂, rfl⟩
      · rw [findLineBreak_append hnotMem, if_neg (by simp; omega), if_neg (by simp)]
        exact ⟨fun hlt => by simp at hlt hlength; omega, fun _ => ⟨_, s₃, rfl, by omega, hcode⟩⟩

/-- Too many blanks in front of the reason phrase are an error. -/
theorem parse_blanks (hw : h.WellFormed) (hblanks : 510 ≤ h.blanks) (s : StatusLine)
    (hp : p <+: h.status ++ h.reason ++ [CR] ++ LF :: rest) :
    (p.length < 523 → ∃ s', s.parse p = (.Incomplete, 0, s')) ∧
    (523 ≤ p.length → ∃ s', s.parse p = (.Invalid, 0, s')) := by
  rcases status_cases hp with hlen | ⟨q, rfl, hq⟩
  · exact ⟨fun _ => ⟨s, parse_short s hlen⟩, fun hle => by omega⟩
  · have hlen : (h.status ++ q).length = 13 + q.length := by rw [List.length_append, length_status]
    obtain ⟨s₁, s₂, s₃, _, hparse⟩ := parse_status hw s q
    rw [hparse, hlen]
    have hblank : (((h.reason ++ [CR]) ++ LF :: rest).takeWhile isWhitespace).length = h.blanks := by
      rw [takeWhile_line]
      rfl
    have hws := length_takeWhile_prefix hq isWhitespace
    rw [hblank] at hws
    constructor
    · intro hlt
      have hall : q.takeWhile isWhitespace = q :=
        (List.takeWhile_prefix isWhitespace).eq_of_length (by omega)
      have hLF : LF ∉ q := fun hmem => absurd (List.takeWhile_eq_self_iff.1 hall LF hmem) (by decide)
      have hfew : ¬ 523 ≤ 13 + (q.takeWhile isWhitespace).length := by omega
      rw [if_neg hfew, if_pos (findLineBreak_of_notMem hLF).ge]
      split
      · exact ⟨s₁, rfl⟩
      · exact ⟨s₂, rfl⟩
    · intro hle
      have hmany : 523 ≤ 13 + (q.takeWhile isWhitespace).length := by omega
      rw [if_neg (by omega), if_pos hmany]
      exact ⟨s₂, rfl⟩

/-! ### The header -/

theorem notMem_status (hw : h.WellFormed) : LF ∉ h.status ++ h.reason ++ [CR] := by
  have hdigit {ch : UInt8} (hch : isDigit ch = true) : LF ≠ ch := by
    rintro rfl
    exact absurd hch (by decide)
  have hCR : LF ≠ CR := by decide
  have htext : LF ∉ text "HTTP/" := by decide
  have hdot : LF ≠ 0x2e := by decide
  have hSP : LF ≠ SP := by decide
  simp [ResponseHead.status, htext, hdigit hw.major, hdigit hw.minor, hdigit hw.code₁, hdigit hw.code₂,
    hdigit hw.code₃, hw.reason, hCR, hdot, hSP]

/-- The reader waits for the end of the head. -/
structure AtHead (h : ResponseHead) (r : Response) : Prop where
  header : r.header = {}
  body : r.body = []
  size : r.recvBodySize = 0
  stage : r.parserStage = .StatusLine ∨ r.parserStage = .Header ∧ r.statusLine.statusCode = (h.code : Int)

variable {poco : List UInt8 → HeaderRead} {fields : List (List UInt8 × List UInt8)} {r : Response}

/-- The reader of the header, which begins with the status line. -/
theorem parse_header (hw : h.WellFormed) (hpoco : ∀ rest, poco (h.bytes ++ rest) = .fields fields)
    (hp : p <+: h.bytes ++ rest) (hdr : Header) :
    (p.length < h.bytes.length → hdr.parse poco p = (some 0, hdr)) ∧
    (h.bytes.length ≤ p.length → hdr.parse poco p = (some h.bytes.length, hdr.read fields)) := by
  have hlong : 4 ≤ h.bytes.length := by
    simp only [ResponseHead.bytes, List.length_append, length_status]
    omega
  exact parse_block hw.lines (notMem_status hw) hlong hpoco hp hdr

/-- A complete head is taken, and the body is read behind it. -/
structure TakesHead (poco : List UInt8 → HeaderRead) (h : ResponseHead) (fields : List (List UInt8 × List UInt8))
    (stage : ParserStage) (r : Response) (p : List UInt8) (r' : Response) : Prop where
  stage : r'.parserStage = stage
  header : r'.header = Header.read {} fields
  body : r'.body = []
  size : r'.recvBodySize = 0
  state : r'.state = .Incomplete
  read : r.readData poco p =
    ((r'.readBody (p.drop h.bytes.length)).1.map (h.bytes.length + ·), (r'.readBody (p.drop h.bytes.length)).2)

theorem readHeader_head (hw : h.WellFormed) (hpoco : ∀ rest, poco (h.bytes ++ rest) = .fields fields)
    (hp : p <+: h.bytes ++ rest) {stage : ParserStage}
    (hstage : ∀ s : StatusLine, s.statusCode = (h.code : Int) →
      Response.stageAfterHeader s (Header.read {} fields) = some stage)
    (hheader : r.header = {}) (hr : r.parserStage = .Header) (hcode : r.statusLine.statusCode = (h.code : Int)) :
    (p.length < h.bytes.length → r.readHeader poco p = (some 0, r)) ∧
    (h.bytes.length ≤ p.length → r.readHeader poco p =
      (((({ r with header := Header.read {} fields, parserStage := stage } : Response).readBody
          (p.drop h.bytes.length)).1.map (h.bytes.length + ·)),
        (({ r with header := Header.read {} fields, parserStage := stage } : Response).readBody
          (p.drop h.bytes.length)).2)) := by
  obtain ⟨hless, hmore⟩ := parse_header hw hpoco hp r.header
  have hpos : 0 < h.bytes.length := by simp [ResponseHead.bytes]
  have hwait : ∀ p : List UInt8, r.readBody p = (some 0, r) := by
    intro p
    unfold Response.readBody Response.done
    rw [if_neg (by rw [hr]; simp), if_neg (by rw [hr]; simp)]
  constructor
  · intro hlt
    unfold Response.readHeader
    split
    · rw [hless hlt]
      dsimp only
      rw [if_pos rfl]
      exact hwait p
    · exact hwait p
  · intro hle
    have hne : p ≠ [] := by
      rintro rfl
      rw [List.length_nil] at hle
      omega
    unfold Response.readHeader
    rw [if_pos ⟨hr, hne⟩, hmore hle, hheader]
    dsimp only
    rw [if_neg (by omega), hstage _ hcode]

/-- The reader of a prefix that has a well-formed head. -/
theorem readData_head (hw : h.WellFormed) (hblanks : h.blanks < 510)
    (hpoco : ∀ rest, poco (h.bytes ++ rest) = .fields fields) (hp : p <+: h.bytes ++ rest) {stage : ParserStage}
    (hstage : ∀ s : StatusLine, s.statusCode = (h.code : Int) →
      Response.stageAfterHeader s (Header.read {} fields) = some stage)
    (hr : AtHead h r) :
    (p.length < h.bytes.length → ∃ r', r.readData poco p = (some 0, r') ∧ AtHead h r') ∧
    (h.bytes.length ≤ p.length → ∃ r', TakesHead poco h fields stage r p r') := by
  have hbytes : h.bytes ++ rest = h.status ++ h.reason ++ [CR] ++ LF :: (block h.lines ++ rest) := by
    simp [ResponseHead.bytes]
  have hlength : h.bytes.length = (h.status ++ h.reason ++ [CR]).length + 1 + (block h.lines).length := by
    rw [ResponseHead.bytes, List.length_append, List.length_cons]
    omega
  obtain ⟨hless, hmore⟩ := parse_prefix hw hblanks r.statusLine (hbytes ▸ hp)
  rcases hr.stage with hline | ⟨hheader, hcode⟩
  · rcases Nat.lt_or_ge p.length ((h.status ++ h.reason ++ [CR]).length + 1) with hlt | hge
    · -- the status line is not complete
      obtain ⟨s', hparse⟩ := hless hlt
      refine ⟨fun _ => ⟨{ r with state := .Incomplete, statusLine := s' }, ?_, ?_⟩, fun hle => by omega⟩
      · unfold Response.readData
        dsimp only
        rw [if_pos hline, hparse]
      · exact ⟨hr.header, hr.body, hr.size, .inl hline⟩
    · obtain ⟨read, s', hparse, hread, hcode⟩ := hmore hge
      have hstep : r.readData poco p =
          ({ r with state := .Incomplete, statusLine := s', parserStage := .Header } : Response).readHeader
            poco p := by
        unfold Response.readData
        dsimp only
        rw [if_pos hline, hparse]
        dsimp only
        rw [if_neg hread]
      obtain ⟨hshort, hlong⟩ :=
        readHeader_head (r := { r with state := .Incomplete, statusLine := s', parserStage := .Header })
        hw hpoco hp hstage hr.header rfl hcode
      rw [hstep]
      refine ⟨fun hlt => ⟨_, hshort hlt, hr.header, hr.body, hr.size, .inr ⟨rfl, hcode⟩⟩, fun hle => ?_⟩
      exact ⟨{ r with state := .Incomplete, statusLine := s', header := Header.read {} fields, parserStage := stage },
        rfl, rfl, hr.body, hr.size, rfl, hstep.trans (hlong hle)⟩
  · have hstep : r.readData poco p = ({ r with state := .Incomplete } : Response).readHeader poco p := by
      unfold Response.readData
      dsimp only
      rw [if_neg (by rw [hheader]; simp)]
    obtain ⟨hshort, hlong⟩ :=
      readHeader_head (r := { r with state := .Incomplete }) hw hpoco hp hstage hr.header hheader hcode
    rw [hstep]
    refine ⟨fun hlt => ⟨_, hshort hlt, hr.header, hr.body, hr.size, .inr ⟨hheader, hcode⟩⟩, fun hle => ?_⟩
    exact ⟨{ r with state := .Incomplete, header := Header.read {} fields, parserStage := stage },
      rfl, rfl, hr.body, hr.size, rfl, hstep.trans (hlong hle)⟩

end Head

/-! ### The body -/

/-- A body with its length in the header, or in chunks. -/
inductive BodyFraming
  | length (data : List UInt8)
  | chunked (cs : List Chunk) (last : LastChunk)

namespace BodyFraming

def bytes : BodyFraming → List UInt8
  | length data => data
  | chunked cs last => cs.flatMap Chunk.bytes ++ last.bytes

def data : BodyFraming → List UInt8
  | length data => data
  | chunked cs _ => cs.flatMap Chunk.data

/-- The header announces the body. -/
def WellFormed (hdr : Header) : BodyFraming → Prop
  | length data => hdr.hasContentLength = true ∧ hdr.getContentLength = data.length ∧ hdr.getTransferEncoding = []
  | chunked cs last => hdr.hasContentLength = false ∧ hdr.getTransferEncoding = text "chunked" ∧
      (∀ c ∈ cs, c.WellFormed) ∧ last.WellFormed

/-- How many bytes behind the head make the reader finish. -/
def crit : BodyFraming → Nat
  | length data => data.length
  | chunked cs last => (cs.flatMap Chunk.bytes).length + last.line.length + 1

def isChunked : BodyFraming → Bool
  | length _ => false
  | chunked _ _ => true

/-- The stage behind the header. -/
def stage : BodyFraming → ParserStage
  | length [] => .Finished
  | _ => .Body

end BodyFraming

/-- The status allows a body. -/
def ResponseHead.hasBody (h : ResponseHead) : Prop := 200 ≤ h.code ∧ h.code ≠ 204 ∧ h.code ≠ 304

section Body

variable {h : ResponseHead} {fields : List (List UInt8 × List UInt8)} {poco : List UInt8 → HeaderRead} {r : Response}
  {p data : List UInt8} {cs : List Chunk} {last : LastChunk}

theorem chunked_of_wellFormed {b : BodyFraming} (hb : b.WellFormed (Header.read {} fields)) :
    (Header.read {} fields).chunked = b.isChunked := by
  have hread : (Header.read {} fields).chunked = ((Header.read {} fields).getTransferEncoding == text "chunked") :=
    rfl
  cases b with
  | length data =>
    rw [hread, hb.2.2]
    rfl
  | chunked cs last =>
    rw [hread, hb.2.1]
    exact beq_self_eq_true _

theorem stageAfterHeader_body (hbody : h.hasBody) {b : BodyFraming} (hb : b.WellFormed (Header.read {} fields))
    (s : StatusLine) (hs : s.statusCode = (h.code : Int)) :
    Response.stageAfterHeader s (Header.read {} fields) = some b.stage := by
  obtain ⟨hcode, h204, h304⟩ := hbody
  have hstatus : ¬ (s.isInformational ∨ s.statusCode = 204 ∨ s.statusCode = 304) := by
    simp only [StatusLine.isInformational, hs, Bool.and_eq_true, decide_eq_true_eq]
    omega
  rw [Response.stageAfterHeader, if_neg hstatus]
  cases b with
  | length data =>
    obtain ⟨hhas, hlen, hte⟩ := hb
    rw [if_pos hhas, hlen, hte, if_neg (by simp)]
    cases data with
    | nil => rfl
    | cons _ _ =>
      rw [if_neg (by simp; omega)]
      rfl
  | chunked cs last =>
    rw [if_neg (by simp [hb.1])]
    rfl

theorem complete_state (hr : r.state = .Incomplete) : r.complete.state = .Complete := by
  unfold Response.complete
  rw [hr]

theorem complete_keeps : r.complete.body = r.body ∧ r.complete.parserStage = r.parserStage := by
  unfold Response.complete
  split <;> exact ⟨rfl, rfl⟩

/-- A response that is read to its end. -/
structure Finished (r : Response) (body : List UInt8) : Prop where
  stage : r.parserStage = .Finished
  state : r.state = .Complete
  body : r.body = body

theorem done_finished (hstage : r.parserStage = .Finished) (hr : r.state = .Incomplete) : Finished r.done r.body := by
  unfold Response.done
  rw [if_pos hstage]
  exact ⟨complete_keeps.2.trans hstage, complete_state hr, complete_keeps.1⟩

theorem readData_finished (hr : Finished r data) : ∃ r', r.readData poco p = (some 0, r') ∧ Finished r' data := by
  have hdone := done_finished (r := { r with state := .Incomplete }) hr.stage rfl
  refine ⟨({ r with state := .Incomplete } : Response).done, ?_, hdone.stage, hdone.state, hdone.body.trans hr.body⟩
  unfold Response.readData
  dsimp only
  rw [if_neg (by rw [hr.stage]; simp)]
  unfold Response.readHeader
  rw [if_neg (by simp [hr.stage])]
  unfold Response.readBody
  rw [if_neg (by simp [hr.stage])]

variable (poco) in
theorem readData_body (hr : r.parserStage = .Body) :
    r.readData poco p = ({ r with state := .Incomplete } : Response).readBody p := by
  unfold Response.readData
  dsimp only
  rw [if_neg (by rw [hr]; simp)]
  unfold Response.readHeader
  rw [if_neg (by simp [hr])]

/-- The reader is in the body and has written `body`. -/
structure InBody (hdr : Header) (r : Response) (body : List UInt8) : Prop where
  stage : r.parserStage = .Body
  header : r.header = hdr
  size : r.recvBodySize = body.length
  body : r.body = body

variable {hdr : Header} {body : List UInt8}

theorem inBody_write (hr : InBody hdr r body) (p : List UInt8) : InBody hdr (r.write p).done (body ++ p) := by
  have hdone : (r.write p).done = r.write p := by
    unfold Response.done
    rw [if_neg (by simp [Response.write, hr.stage])]
  rw [hdone]
  exact ⟨hr.stage, hr.header, by simp [Response.write, hr.size], by simp [Response.write, hr.body]⟩

theorem finished_write (hr : InBody hdr r body) (hstate : r.state = .Incomplete) (p : List UInt8) :
    Finished ({ r.write p with parserStage := .Finished } : Response).done (body ++ p) := by
  have hfin := done_finished (r := { r.write p with parserStage := .Finished }) rfl hstate
  exact ⟨hfin.stage, hfin.state, hfin.body.trans (by simp [Response.write, hr.body])⟩

theorem readBody_nil (hr : InBody hdr r body) : ∃ r', r.readBody [] = (some 0, r') ∧ InBody hdr r' body := by
  refine ⟨r, ?_, hr⟩
  unfold Response.readBody Response.done
  rw [if_neg (by simp), if_neg (by rw [hr.stage]; simp)]

/-- All that has arrived is written, until there is enough. -/
theorem readBody_length (hr : InBody hdr r body) (hstate : r.state = .Incomplete) (hchunked : hdr.chunked = false)
    (hhas : hdr.hasContentLength = true) (hlen : hdr.getContentLength = data.length) (p : List UInt8) :
    ((body ++ p).length < data.length → ∃ r', r.readBody p = (some p.length, r') ∧ InBody hdr r' (body ++ p)) ∧
    (p ≠ [] → data.length ≤ (body ++ p).length →
      ∃ r', r.readBody p = (some p.length, r') ∧ Finished r' (body ++ p)) := by
  have hsize : (r.write p).recvBodySize = (body ++ p).length := by simp [Response.write, hr.size]
  have hread : p ≠ [] → r.readBody p = (some p.length,
      (if hdr.hasContentLength ∧ hdr.getContentLength ≤ ((body ++ p).length : Nat) then
        { r.write p with parserStage := .Finished } else r.write p).done) := by
    intro hp
    unfold Response.readBody
    rw [if_pos ⟨hr.stage, hp⟩, hr.header, if_neg (by rw [hchunked]; simp)]
    have hheader : (r.write p).header = hdr := hr.header
    dsimp only
    rw [hsize, hheader]
  constructor
  · intro hlt
    by_cases hp : p = []
    · subst hp
      rw [List.append_nil]
      exact readBody_nil hr
    · rw [hread hp, if_neg (by rw [hlen]; omega)]
      exact ⟨_, rfl, inBody_write hr p⟩
  · intro hp hle
    rw [hread hp, if_pos ⟨hhas, by rw [hlen]; omega⟩]
    exact ⟨_, rfl, finished_write hr hstate p⟩

/-- The chunks that are complete are written. -/
theorem readBody_chunked (hr : InBody hdr r body) (hstate : r.state = .Incomplete) (hchunked : hdr.chunked = true)
    {n : Option Nat} {written : List UInt8} {finished : Bool}
    (hread : readChunks p.length p = ⟨n, written, finished⟩) : ∃ r', r.readBody p = (n, r') ∧
      if finished then Finished r' (body ++ written) else InBody hdr r' (body ++ written) := by
  by_cases hp : p = []
  · subst hp
    cases hread
    rw [List.append_nil]
    exact readBody_nil hr
  · unfold Response.readBody
    rw [if_pos ⟨hr.stage, hp⟩, hr.header, if_pos hchunked, hread]
    cases finished with
    | true => exact ⟨_, rfl, finished_write hr hstate written⟩
    | false => exact ⟨_, rfl, inBody_write hr written⟩

end Body

/-! ### The run -/

section Run

open Arrivals

variable {h : ResponseHead} {fields : List (List UInt8 × List UInt8)} {poco : List UInt8 → HeaderRead}
  {stream piece data : List UInt8} {k n : Nat} {t : Transfer Response UInt8} {r : Response} {b : BodyFraming}

/-- Nothing is consumed behind the end. -/
structure Done (c : Nat) (body : List UInt8) (t : Transfer Response UInt8) : Prop where
  ok : t.failed = false
  consumed : t.consumed = c
  finished : Finished t.reader body

theorem Done.arrive {c : Nat} {body : List UInt8} (hdone : Done c body t) (piece : List UInt8) :
    Done c body (t.arrive (Response.readData poco) piece) := by
  obtain ⟨r', hread, hfin⟩ : ∃ r', t.reader.readData poco (t.left ++ piece) = (some 0, r') ∧ Finished r' body :=
    readData_finished hdone.finished
  rw [Transfer.arrive, if_neg (by rw [hdone.ok]; simp), hread]
  exact ⟨rfl, hdone.consumed, hfin⟩

/-- The reader waits for the end of the head. -/
structure WaitsHead (h : ResponseHead) (stream : List UInt8) (k : Nat) (t : Transfer Response UInt8) :
  Prop extends Offered stream k t where
  consumed : t.consumed = 0
  head : AtHead h t.reader

theorem waitsHead_new : WaitsHead h stream 0 ⟨{}, [], 0, false⟩ where
  toOffered := offered_new _
  consumed := rfl
  head := ⟨rfl, rfl, rfl, .inl rfl⟩

/-- What the reader has written when it has consumed `c` bytes. -/
def Reached (h : ResponseHead) (hdr : Header) (stream : List UInt8) (c : Nat) (r : Response) : BodyFraming → Prop
  | .length _ => h.bytes.length ≤ c ∧ InBody hdr r ((stream.take c).drop h.bytes.length)
  | .chunked cs _ => ∃ before after, cs = before ++ after ∧ c = h.bytes.length + (before.flatMap Chunk.bytes).length ∧
      InBody hdr r (before.flatMap Chunk.data)

/-- What the reader has written when it finishes with `c` bytes. -/
def delivered (h : ResponseHead) (stream : List UInt8) (c : Nat) : BodyFraming → List UInt8
  | .length _ => (stream.take c).drop h.bytes.length
  | .chunked cs _ => cs.flatMap Chunk.data

variable {further : List UInt8} {c : Nat}

theorem read_body (hb : b.WellFormed (Header.read {} fields)) (hstream : stream = h.bytes ++ (b.bytes ++ further))
    (hr : Reached h (Header.read {} fields) stream c r b) (hstate : r.state = .Incomplete) (hck : c ≤ k)
    (hk : k ≤ stream.length) :
    (k < h.bytes.length + b.crit → ∃ n r', r.readBody ((stream.take k).drop c) = (some n, r') ∧ c + n ≤ k ∧
      Reached h (Header.read {} fields) stream (c + n) r' b) ∧
    (h.bytes.length + b.crit ≤ k → c < h.bytes.length + b.crit →
      ∃ r', r.readBody ((stream.take k).drop c) = (some (k - c), r') ∧ Finished r' (delivered h stream k b)) := by
  have hchunked := chunked_of_wellFormed hb
  have hlen : ((stream.take k).drop c).length = k - c := by
    rw [List.length_drop, List.length_take]
    omega
  cases b with
  | length data =>
    obtain ⟨hle, hin⟩ := hr
    obtain ⟨hhas, hcl, _⟩ := hb
    have happend : (stream.take c).drop h.bytes.length ++ (stream.take k).drop c =
        (stream.take k).drop h.bytes.length := by
      have hsplit : stream.take k = stream.take c ++ (stream.take k).drop c := by
        conv_lhs => rw [← List.take_append_drop c (stream.take k), List.take_take, Nat.min_eq_left hck]
      conv_rhs => rw [hsplit, List.drop_append_of_le_length (by rw [List.length_take]; omega)]
    have hwritten : ((stream.take k).drop h.bytes.length).length = k - h.bytes.length := by
      rw [List.length_drop, List.length_take]
      omega
    obtain ⟨hless, hmore⟩ := readBody_length hin hstate hchunked hhas hcl ((stream.take k).drop c)
    rw [happend, hwritten, hlen] at hless hmore
    simp only [BodyFraming.crit]
    constructor
    · intro hlt
      obtain ⟨r', hread, hin'⟩ := hless (by omega)
      refine ⟨k - c, r', hread, by omega, by omega, ?_⟩
      rwa [Nat.add_sub_cancel' hck]
    · intro hge hlt
      exact hmore (by rw [← List.length_pos_iff, hlen]; omega) (by omega)
  | chunked cs last =>
    obtain ⟨before, after, rfl, rfl, hin⟩ := hr
    obtain ⟨_, _, hcs, hlast⟩ := hb
    have hdrop : stream.drop (h.bytes.length + (before.flatMap Chunk.bytes).length) =
        after.flatMap Chunk.bytes ++ (last.line ++ LF :: (CRLF ++ further)) := by
      rw [hstream, ← List.drop_drop, List.drop_left, BodyFraming.bytes, List.flatMap_append, LastChunk.bytes]
      simp
    have hprefix : (stream.take k).drop (h.bytes.length + (before.flatMap Chunk.bytes).length) <+:
        after.flatMap Chunk.bytes ++ (last.line ++ LF :: (CRLF ++ further)) := by
      rw [← hdrop, List.drop_take]
      exact List.take_prefix ..
    obtain ⟨hless, hmore⟩ :=
      readChunks_prefix (fun d hd => hcs d (List.mem_append_right _ hd)) hlast hprefix (Nat.le_refl _)
    rw [hlen] at hless hmore
    simp only [BodyFraming.crit, List.flatMap_append, List.length_append, delivered]
    constructor
    · intro hlt
      have hshort : k - (h.bytes.length + (before.flatMap Chunk.bytes).length) <
          (after.flatMap Chunk.bytes).length + last.line.length + 1 := by
        clear hless hmore
        omega
      obtain ⟨before', after', hafter, hle, hread⟩ := hless hshort
      rw [← hlen] at hread
      obtain ⟨r', hread', hin'⟩ := readBody_chunked hin hstate hchunked hread
      clear hless hmore
      refine ⟨_, r', hread', by omega, before ++ before', after', by rw [hafter, List.append_assoc], ?_, ?_⟩
      · rw [List.flatMap_append, List.length_append, Nat.add_assoc]
      · rw [List.flatMap_append]
        exact hin'
    · intro hge hlt
      have hlong : (after.flatMap Chunk.bytes).length + last.line.length + 1 ≤
          k - (h.bytes.length + (before.flatMap Chunk.bytes).length) := by
        clear hless hmore
        omega
      have hread := hmore hlong
      rw [← hlen] at hread
      obtain ⟨r', hread', hfin⟩ := readBody_chunked hin hstate hchunked hread
      exact ⟨r', by rw [hread', hlen], hfin⟩

/-- Before the reader finishes. -/
def Reading (h : ResponseHead) (hdr : Header) (stream : List UInt8) (b : BodyFraming) (k : Nat)
    (t : Transfer Response UInt8) : Prop :=
  (k < h.bytes.length ∧ WaitsHead h stream k t) ∨ (Offered stream k t ∧ Reached h hdr stream t.consumed t.reader b)

variable (h stream) in
theorem reached_head (hr : InBody (Header.read {} fields) r []) : ∀ b,
    Reached h (Header.read {} fields) stream h.bytes.length r b
  | .length _ => ⟨Nat.le_refl _, by rwa [List.drop_eq_nil_of_le (by rw [List.length_take]; omega)]⟩
  | .chunked cs _ => ⟨[], cs, rfl, rfl, hr⟩

/-- What an arrival does before the reader finishes. -/
theorem arrive_reading (hw : h.WellFormed) (hblanks : h.blanks < 510) (hbody : h.hasBody)
    (hpoco : ∀ rest, poco (h.bytes ++ rest) = .fields fields) (hb : b.WellFormed (Header.read {} fields))
    (hstage : b.stage = .Body) (hstream : stream = h.bytes ++ (b.bytes ++ further))
    (hlen : h.bytes.length + b.crit ≤ stream.length) (hgood : Reading h (Header.read {} fields) stream b k t)
    (hk : k < h.bytes.length + b.crit) (hpiece : piece <+: stream.drop k) :
    (k + piece.length < h.bytes.length + b.crit →
      Reading h (Header.read {} fields) stream b (k + piece.length) (t.arrive (Response.readData poco) piece)) ∧
    (h.bytes.length + b.crit ≤ k + piece.length →
      Done (k + piece.length) (delivered h stream (k + piece.length) b)
        (t.arrive (Response.readData poco) piece)) := by
  have hkle : k ≤ stream.length := by omega
  have hcrit : 0 < b.crit := by
    rcases b with (_ | ⟨_, _⟩) | ⟨cs, last⟩
    · cases hstage
    · exact Nat.succ_pos _
    · exact Nat.succ_pos _
  have htake := length_take_piece hkle hpiece
  have hend : k + piece.length ≤ stream.length := by
    rw [← htake, List.length_take]
    exact Nat.min_le_right _ _
  rcases hgood with ⟨hhead, hwait⟩ | ⟨hoff, hreached⟩
  · have hp : stream.take (k + piece.length) <+: h.bytes ++ (b.bytes ++ further) := hstream ▸ List.take_prefix ..
    have hstageAfter (s : StatusLine) (hs : s.statusCode = (h.code : Int)) :
        Response.stageAfterHeader s (Header.read {} fields) = some .Body :=
          hstage ▸ stageAfterHeader_body hbody hb s hs
    obtain ⟨hless, hmore⟩ := readData_head hw hblanks hpoco hp hstageAfter hwait.head
    rw [htake] at hless hmore
    have hdrop : (stream.take (k + piece.length)).drop t.consumed = stream.take (k + piece.length) := by
      rw [hwait.consumed, List.drop_zero]
    rcases Nat.lt_or_ge (k + piece.length) h.bytes.length with hlt | hge
    · obtain ⟨r', hread, hhead'⟩ := hless hlt
      obtain ⟨hoff', hresponse, hconsumed⟩ := hwait.toOffered.arrive hkle hpiece (hdrop ▸ hread)
        (by rw [hwait.consumed]; omega)
      rw [hwait.consumed] at hconsumed
      exact ⟨fun _ => .inl ⟨hlt, hoff', hconsumed, hresponse ▸ hhead'⟩, fun hle => by omega⟩
    · obtain ⟨r', htakes⟩ := hmore hge
      have hin : InBody (Header.read {} fields) r' [] := ⟨htakes.stage, htakes.header, htakes.size, htakes.body⟩
      obtain ⟨hwaits, hfinishes⟩ := read_body hb hstream (reached_head h stream hin b) htakes.state hge hend
      constructor
      · intro hlt
        obtain ⟨n, r'', hread, hn, hreached⟩ := hwaits hlt
        have hdata := htakes.read
        rw [hread] at hdata
        dsimp only [Option.map_some] at hdata
        obtain ⟨hoff', hresponse, hconsumed⟩ := hwait.toOffered.arrive hkle hpiece (hdrop ▸ hdata)
          (by rw [hwait.consumed]; omega)
        rw [hwait.consumed, Nat.zero_add] at hconsumed
        exact .inr ⟨hoff', by rw [hresponse, hconsumed]; exact hreached⟩
      · intro hle
        obtain ⟨r'', hread, hfin⟩ := hfinishes hle (Nat.lt_add_of_pos_right hcrit)
        have hdata := htakes.read
        rw [hread] at hdata
        dsimp only [Option.map_some] at hdata
        obtain ⟨hoff', hresponse, hconsumed⟩ := hwait.toOffered.arrive hkle hpiece (hdrop ▸ hdata)
          (by rw [hwait.consumed]; omega)
        rw [hwait.consumed] at hconsumed
        exact ⟨hoff'.ok, by omega, hresponse ▸ hfin⟩
  · have hbodyStage : t.reader.parserStage = .Body := by
      cases b with
      | length data => exact hreached.2.stage
      | chunked cs last =>
        obtain ⟨_, _, _, _, hin⟩ := hreached
        exact hin.stage
    have hreached' : Reached h (Header.read {} fields) stream t.consumed
        { t.reader with state := .Incomplete } b := by
      cases b with
      | length data => exact ⟨hreached.1, hreached.2.stage, hreached.2.header, hreached.2.size, hreached.2.body⟩
      | chunked cs last =>
        obtain ⟨before, after, hcs, hc, hin⟩ := hreached
        exact ⟨before, after, hcs, hc, hin.stage, hin.header, hin.size, hin.body⟩
    have hcle := hoff.le
    obtain ⟨hwaits, hfinishes⟩ := read_body hb hstream hreached' rfl (by omega) hend
    constructor
    · intro hlt
      obtain ⟨n, r', hread, hn, hreached⟩ := hwaits hlt
      have hdata :=
        (readData_body (p := (stream.take (k + piece.length)).drop t.consumed) poco hbodyStage).trans hread
      obtain ⟨hoff', hresponse, hconsumed⟩ := hoff.arrive hkle hpiece hdata hn
      exact .inr ⟨hoff', by rw [hresponse, hconsumed]; exact hreached⟩
    · intro hle
      obtain ⟨r', hread, hfin⟩ := hfinishes hle (by omega)
      have hdata :=
        (readData_body (p := (stream.take (k + piece.length)).drop t.consumed) poco hbodyStage).trans hread
      obtain ⟨hoff', hresponse, hconsumed⟩ := hoff.arrive hkle hpiece hdata (by omega)
      exact ⟨hoff'.ok, by omega, hresponse ▸ hfin⟩

/-- The run of a well-formed stream, with a body that is not empty or in chunks. -/
theorem run_reading (hw : h.WellFormed) (hblanks : h.blanks < 510) (hbody : h.hasBody)
    (hpoco : ∀ rest, poco (h.bytes ++ rest) = .fields fields) (hb : b.WellFormed (Header.read {} fields))
    (hstage : b.stage = .Body) {pieces : List (List UInt8)}
    (hstream : pieces.flatten = h.bytes ++ (b.bytes ++ further))
    (hlen : h.bytes.length + b.crit ≤ pieces.flatten.length) :
    Done (cutAt (h.bytes.length + b.crit) 0 pieces)
      (delivered h pieces.flatten (cutAt (h.bytes.length + b.crit) 0 pieces) b) (Response.arrivals poco pieces) := by
  have hpos : 0 < h.bytes.length := by simp [ResponseHead.bytes]
  refine run_cut (h.bytes.length + b.crit) pieces.flatten
    (fun k t => k < h.bytes.length + b.crit ∧ Reading h (Header.read {} fields) pieces.flatten b k t)
    (fun c t => Done c (delivered h pieces.flatten c b) t) ?_ ?_ ?_ ⟨by omega, .inl ⟨hpos, waitsHead_new⟩⟩ (by omega)
    rfl hlen
  · intro k t piece hgood hlt hpiece
    exact ⟨hlt, (arrive_reading hw hblanks hbody hpoco hb hstage hstream hlen hgood.2 hgood.1 hpiece).1 hlt⟩
  · intro k t piece hgood hk hle hpiece
    exact (arrive_reading hw hblanks hbody hpoco hb hstage hstream hlen hgood.2 hk hpiece).2 hle
  · intro c t piece hdone
    exact hdone.arrive piece

/-- The run of a well-formed stream with an empty body of known length. -/
theorem run_empty (hw : h.WellFormed) (hblanks : h.blanks < 510) (hbody : h.hasBody)
    (hpoco : ∀ rest, poco (h.bytes ++ rest) = .fields fields)
    (hb : (BodyFraming.length []).WellFormed (Header.read {} fields)) {pieces : List (List UInt8)}
    (hstream : pieces.flatten = h.bytes ++ further) : Done h.bytes.length [] (Response.arrivals poco pieces) := by
  have hpos : 0 < h.bytes.length := by simp [ResponseHead.bytes]
  have hlen : h.bytes.length ≤ pieces.flatten.length := by
    rw [hstream, List.length_append]
    omega
  refine run_cut h.bytes.length pieces.flatten (k := 0) (WaitsHead h pieces.flatten)
    (fun _ t => Done h.bytes.length [] t) ?_ ?_
    (fun _ _ piece hdone => hdone.arrive piece) waitsHead_new hpos rfl hlen
  all_goals
    intro k t piece hwait hk
    have hp : pieces.flatten.take (k + piece.length) <+: h.bytes ++ further := hstream ▸ List.take_prefix ..
    obtain ⟨hless, hmore⟩ := readData_head hw hblanks hpoco hp (stageAfterHeader_body hbody hb) hwait.head
    have hdrop : (pieces.flatten.take (k + piece.length)).drop t.consumed =
        pieces.flatten.take (k + piece.length) := by
      rw [hwait.consumed, List.drop_zero]
  · intro hpiece
    have hkle : k ≤ pieces.flatten.length := by omega
    rw [length_take_piece hkle hpiece] at hless
    obtain ⟨r', hread, hhead'⟩ := hless hk
    obtain ⟨hoff', hresponse, hconsumed⟩ := hwait.toOffered.arrive hkle hpiece (hdrop ▸ hread)
      (by rw [hwait.consumed]; omega)
    rw [hwait.consumed] at hconsumed
    exact ⟨hoff', hconsumed, hresponse ▸ hhead'⟩
  · intro hle hpiece
    have hkle : k ≤ pieces.flatten.length := by omega
    rw [length_take_piece hkle hpiece] at hmore
    obtain ⟨r', htakes⟩ := hmore hle
    have hfinished : r'.parserStage = .Finished := htakes.stage
    have hbodyRead : r'.readBody ((pieces.flatten.take (k + piece.length)).drop h.bytes.length) =
        (some 0, r'.done) := by
      unfold Response.readBody
      rw [if_neg (by simp [hfinished])]
    have hdata := htakes.read
    rw [hbodyRead] at hdata
    dsimp only [Option.map_some] at hdata
    obtain ⟨hoff', hresponse, hconsumed⟩ := hwait.toOffered.arrive hkle hpiece (hdrop ▸ hdata)
      (by rw [hwait.consumed]; omega)
    rw [hwait.consumed] at hconsumed
    have hfin := done_finished hfinished htakes.state
    rw [htakes.body] at hfin
    exact ⟨hoff'.ok, by omega, hresponse ▸ hfin⟩

/-- A run with too many blanks in front of the reason phrase. -/
theorem run_blanks (hw : h.WellFormed) (hblanks : 510 ≤ h.blanks) {pieces : List (List UInt8)}
    (hstream : pieces.flatten = h.bytes ++ further) : (Response.arrivals poco pieces).failed = true := by
  have hbytes : h.bytes ++ further = h.status ++ h.reason ++ [CR] ++ LF :: (block h.lines ++ further) := by
    simp [ResponseHead.bytes]
  have hlen : 523 ≤ pieces.flatten.length := by
    have hle : h.blanks ≤ (h.reason ++ [CR]).length := (List.takeWhile_prefix isWhitespace).length_le
    rw [hstream, hbytes]
    simp only [List.length_append, List.length_cons, length_status, List.length_nil] at hle ⊢
    omega
  refine run_cut 523 pieces.flatten (k := 0)
    (fun k t => Offered pieces.flatten k t ∧ t.consumed = 0 ∧ t.reader.parserStage = .StatusLine)
    (fun _ t => t.failed = true) ?_ ?_ ?_ ⟨offered_new _, rfl, rfl⟩ (by decide) rfl hlen
  · intro k t piece hgood hlt hpiece
    obtain ⟨hoff, hconsumed, hline⟩ := hgood
    have hkle : k ≤ pieces.flatten.length := by omega
    have hp : pieces.flatten.take (k + piece.length) <+: h.bytes ++ further := hstream ▸ List.take_prefix ..
    obtain ⟨s', hparse⟩ := (parse_blanks hw hblanks t.reader.statusLine (hbytes ▸ hp)).1
      (by rw [length_take_piece hkle hpiece]; exact hlt)
    have hread : t.reader.readData poco ((pieces.flatten.take (k + piece.length)).drop t.consumed) =
        (some 0, { t.reader with state := .Incomplete, statusLine := s' }) := by
      rw [hconsumed, List.drop_zero]
      unfold Response.readData
      dsimp only
      rw [if_pos hline, hparse]
    obtain ⟨hoff', hresponse, hconsumed'⟩ := hoff.arrive hkle hpiece hread (by omega)
    exact ⟨hoff', by omega, by rw [hresponse]; exact hline⟩
  · intro k t piece hgood hk hle hpiece
    obtain ⟨hoff, hconsumed, hline⟩ := hgood
    have hkle : k ≤ pieces.flatten.length := by omega
    have hp : pieces.flatten.take (k + piece.length) <+: h.bytes ++ further := hstream ▸ List.take_prefix ..
    obtain ⟨s', hparse⟩ := (parse_blanks hw hblanks t.reader.statusLine (hbytes ▸ hp)).2
      (by rw [length_take_piece hkle hpiece]; exact hle)
    have hread : t.reader.readData poco ((pieces.flatten.take (k + piece.length)).drop t.consumed) =
        (none, { t.reader with state := .Incomplete, statusLine := s' }) := by
      rw [hconsumed, List.drop_zero]
      unfold Response.readData
      dsimp only
      rw [if_pos hline, hparse]
    exact hoff.arrive_failed hkle hpiece hread
  · intro _ t piece hfailed
    exact arrive_of_failed hfailed

/-! ### When a response is read exactly -/

/-- The body was written, just its bytes were consumed, and the response is complete. -/
def ReadsExactly (t : Transfer Response UInt8) (body : List UInt8) (n : Nat) : Prop :=
  t.failed = false ∧ t.reader.body = body ∧ t.consumed = n ∧ t.reader.state = .Complete

instance (t : Transfer Response UInt8) (body : List UInt8) (n : Nat) : Decidable (ReadsExactly t body n) :=
  inferInstanceAs (Decidable (_ ∧ _ ∧ _ ∧ _))

/-- There are few blanks in front of the reason phrase, and the body is announced as empty, or the first cut at or
behind its last byte, or behind the line of the last chunk, is the end of the response. -/
def EndsWithArrival (h : ResponseHead) (b : BodyFraming) (pieces : List (List UInt8)) : Prop :=
  h.blanks < 510 ∧
    (b = .length [] ∨ cutAt (h.bytes.length + b.crit) 0 pieces = (h.bytes ++ b.bytes).length)

/-- A response is read exactly just where the arrivals end with it; and a size line without a digit is never an error,
it completes the response and takes all that has arrived. -/
theorem readData_exact_iff (poco : List UInt8 → HeaderRead) :
    (∀ (h : ResponseHead) (fields : List (List UInt8 × List UInt8)) (b : BodyFraming) (further : List UInt8)
      (pieces : List (List UInt8)), h.WellFormed → h.hasBody → (∀ rest, poco (h.bytes ++ rest) = .fields fields) →
      b.WellFormed (Header.read {} fields) → pieces.flatten = h.bytes ++ b.bytes ++ further →
      (ReadsExactly (Response.arrivals poco pieces) b.data (h.bytes ++ b.bytes).length ↔
        EndsWithArrival h b pieces)) ∧
    (∀ (r : Response) (line rest : List UInt8), r.parserStage = .Body → r.header.chunked = true → LF ∉ line →
      (∀ ch ∈ line.head?, hexDigitFromChar ch = none) →
      ∃ r', r.readData poco (line ++ LF :: rest) = (some (line ++ LF :: rest).length, r') ∧
      r'.state = .Complete) := by
  constructor
  · intro h fields b further pieces hw hbody hpoco hb hpieces
    rw [List.append_assoc] at hpieces
    rcases Nat.lt_or_ge h.blanks 510 with hblanks | hblanks
    · by_cases hempty : b = .length []
      · subst hempty
        obtain ⟨hok, hconsumed, hfin⟩ := run_empty hw hblanks hbody hpoco hb hpieces
        refine iff_of_true ⟨hok, hfin.body, ?_, hfin.state⟩ ⟨hblanks, .inl rfl⟩
        rw [hconsumed, BodyFraming.bytes, List.append_nil]
      · have hstage : b.stage = .Body := by
          rcases b with (_ | ⟨_, _⟩) | ⟨cs, last⟩
          · exact absurd rfl hempty
          · rfl
          · rfl
        have hcrit : b.crit ≤ b.bytes.length := by
          cases b with
          | length data => exact Nat.le_refl _
          | chunked cs last =>
            simp only [BodyFraming.crit, BodyFraming.bytes, LastChunk.bytes, List.length_append, List.length_cons]
            omega
        have hlen : h.bytes.length + b.crit ≤ pieces.flatten.length := by
          rw [hpieces, List.length_append, List.length_append]
          omega
        obtain ⟨hok, hconsumed, hfin⟩ := run_reading hw hblanks hbody hpoco hb hstage hpieces hlen
        generalize hcut : cutAt (h.bytes.length + b.crit) 0 pieces = c at hconsumed hfin
        constructor
        · intro hreads
          exact ⟨hblanks, .inr (hcut.trans (hconsumed.symm.trans hreads.2.2.1))⟩
        · intro hends
          have hc : c = (h.bytes ++ b.bytes).length := hcut.symm.trans (hends.2.resolve_left hempty)
          refine ⟨hok, hfin.body.trans ?_, hconsumed.trans hc, hfin.state⟩
          cases b with
          | length data =>
            rw [delivered, hc, hpieces, ← List.append_assoc, List.take_left, List.drop_left]
            rfl
          | chunked cs last => rfl
    · have hfailed : (Response.arrivals poco pieces).failed = true := run_blanks hw hblanks hpieces
      constructor
      · intro hreads
        rw [hreads.1] at hfailed
        cases hfailed
      · intro hends
        exact absurd hends.1 (by omega)
  · intro r line rest hstage hchunked hline hhex
    have hlen : readChunkLen 0 (line ++ LF :: rest) = some 0 := by
      cases line with
      | nil => rfl
      | cons ch line => rw [List.cons_append, readChunkLen, hhex ch rfl]
    have hread : readChunks (line ++ LF :: rest).length (line ++ LF :: rest) =
        ⟨some (line ++ LF :: rest).length, [], true⟩ := by
      have hlength : (line ++ LF :: rest).length = line.length + rest.length + 1 := by
        rw [List.length_append, List.length_cons]
        omega
      conv_lhs => rw [hlength]
      rw [readChunks, if_neg (by simp), findLineBreak_append hline, if_neg (by omega), hlen]
      dsimp only
      rw [if_pos rfl]
    rw [readData_body poco hstage]
    unfold Response.readBody
    rw [if_pos ⟨hstage, by simp⟩, if_pos hchunked, hread]
    exact ⟨_, rfl, (done_finished rfl rfl).state⟩

/-- What stands behind the body goes to the callback, and a size line without a digit ends the body. -/
theorem readData_overrun :
    ∃ (poco : List UInt8 → HeaderRead) (h : ResponseHead) (fields : List (List UInt8 × List UInt8)) (b : BodyFraming)
      (further : List UInt8) (pieces : List (List UInt8)),
      (h.WellFormed ∧ h.hasBody ∧ (∀ rest, poco (h.bytes ++ rest) = .fields fields) ∧
        b.WellFormed (Header.read {} fields) ∧ pieces.flatten = h.bytes ++ b.bytes ++ further ∧
        ¬ ReadsExactly (Response.arrivals poco pieces) b.data (h.bytes ++ b.bytes).length) ∧
      (({ parserStage := .Body, header := { chunked := true } } : Response).readData poco (text ";\r\n")).1 ≠
        none := by
  refine ⟨fun _ => .fields [(text "Content-Length", text "1")],
    ⟨0x31, 0x31, 0x32, 0x30, 0x30, text "OK", [text "Content-Length: 1"]⟩, [(text "Content-Length", text "1")],
    .length (text "A"), text "H", [text "HTTP/1.1 200 OK\r\nContent-Length: 1\r\n\r\nAH"],
      ⟨?_, ?_, fun _ => rfl, ?_, ?_, ?_⟩, ?_⟩
  · constructor <;> decide
  · exact ⟨by decide, by decide, by decide⟩
  · exact ⟨by decide, by decide, by decide⟩
  · decide
  · decide +kernel
  · decide

/-- A body in one chunk, in two arrivals, with the head of the next response behind it. -/
theorem readData_exact_chunked :
    ReadsExactly (Response.arrivals (fun _ => .fields [(text "Transfer-Encoding", text "chunked")])
      [text "HTTP/1.1 200 OK\r\nTransfer-Encoding: chu", text "nked\r\n\r\n1;a=b\r\nA\r\n0\r\n\r\n", text "HTTP/1.1"])
      (text "A") 62 := by
  refine ((readData_exact_iff (fun _ => .fields [(text "Transfer-Encoding", text "chunked")])).1
    ⟨0x31, 0x31, 0x32, 0x30, 0x30, text "OK", [text "Transfer-Encoding: chunked"]⟩
    [(text "Transfer-Encoding", text "chunked")] (.chunked [⟨text "1", text ";a=b", text "A"⟩] ⟨text "0", []⟩)
    (text "HTTP/1.1") _ ?_ ?_ (fun _ => rfl) ?_ ?_).2 ⟨by decide, .inr (by decide)⟩
  · constructor <;> decide
  · exact ⟨by decide, by decide, by decide⟩
  · refine ⟨by decide, by decide, ?_, ⟨?_, by decide⟩⟩
    · rintro c hc
      obtain rfl := List.mem_singleton.1 hc
      exact ⟨⟨by decide, List.all_eq_true.1
        (by decide), by decide, by rintro ch ⟨⟩; decide⟩, by decide, by decide, by decide⟩
    · exact ⟨by decide, List.all_eq_true.1 (by decide), by decide, by rintro ch ⟨⟩; decide⟩
  · decide

end Run

end Http

end CollaboraOnline
