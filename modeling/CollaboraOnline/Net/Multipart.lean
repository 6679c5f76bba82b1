import CollaboraOnline.Lib.Search
import CollaboraOnline.Net.HttpWire

/-!
# Multipart data

`MultipartDataParser` reads one part after the other, up to the boundary that closes the data.  The header of a part
is read from everything up to the end of the data, so that the body is within the part only where the header ends
before the next boundary; the last part is read only where a line break is behind the closing boundary
(`readPart_reads`).
-/

namespace CollaboraOnline

namespace MultipartDataParser

open Http (text Header HeaderRead LF CR CRLF findLineBreak findBlankLine block)
open Search

inductive State
  | FirstPart
  | NextPart
  | LastPart
deriving DecidableEq

def MaxLineLength : Nat := 512

def DASH : UInt8 := 0x2d

/-- A line break and the dash-boundary. -/
def delimiter (boundary : List UInt8) : List UInt8 := text "\r\n--" ++ boundary

/-- Two dashes and the boundary. -/
def dashBoundary (boundary : List UInt8) : List UInt8 := (delimiter boundary).drop 2

/-- The start and the end of the marker, and whether it is the last one. -/
def findBoundary (data delimiter : List UInt8) (off : Nat) : Int × Int × Bool :=
  match find delimiter (data.drop off) with
  | none => (-1, -1, false)
  | some i =>
    let pos := off + i
    if data.length < pos + delimiter.length + 2 then (pos, 0, false)
    else
      let rest := data.drop (pos + delimiter.length)
      let last := rest.take 2 = [DASH, DASH]
      if pos + delimiter.length + findLineBreak rest = data.length then
        (pos, if MaxLineLength < rest.length then -1 else 0, last)
      else (pos, (pos + delimiter.length + findLineBreak rest : Nat), last)

/-- A view into the data; its size is the difference that is computed for it. -/
structure View where
  start : Nat
  size : Int
deriving DecidableEq

/-- What is viewed, of a size that is not negative. -/
def View.bytes (view : View) (data : List UInt8) : Option (List UInt8) :=
  if 0 ≤ view.size then some ((data.drop view.start).take view.size.toNat) else none

/-- The returned value, and what is left in the parser and in the arguments; without a body it is not assigned. -/
structure PartRead where
  result : Int
  state : State
  header : Header
  body : Option View
deriving DecidableEq

/-- The marker that a part is searched by. -/
def marker (boundary : List UInt8) (state : State) (data : List UInt8) : List UInt8 :=
  if state = .FirstPart ∧ dashBoundary boundary <+: data then dashBoundary boundary else delimiter boundary

def readPart (poco : List UInt8 → HeaderRead) (boundary : List UInt8) (state : State) (header : Header)
    (data : List UInt8) : PartRead :=
  if state = .LastPart then ⟨data.length, state, header, none⟩
  else
    let (start, eol, last) := findBoundary data (marker boundary state data) 0
    if start < 0 ∨ (last = false ∧ eol = 0) then ⟨0, state, header, none⟩
    else if eol < 0 then ⟨-1, state, header, none⟩
    else
      let off := eol.toNat + 1
      let (nextStart, nextEnd, nextLast) := findBoundary data (delimiter boundary) off
      if nextStart < 0 ∨ (last = false ∧ nextEnd = 0) then ⟨0, state, header, none⟩
      else if nextEnd < 0 then ⟨-1, state, header, none⟩
      else
        let state := if nextLast then .LastPart else .NextPart
        match header.parse poco (data.drop off) with
        | (none, header) => ⟨-1, state, header, none⟩
        | (some 0, header) => ⟨0, state, header, none⟩
        | (some n, header) => ⟨nextStart, state, header, some ⟨off + n, nextStart - off - n⟩⟩

/-! ### Messages -/

structure Part where
  headers : List (List UInt8 × List UInt8)
  body : List UInt8
deriving DecidableEq

def Part.lines (part : Part) : List (List UInt8) := part.headers.map fun pair => pair.1 ++ text ": " ++ pair.2

def Part.bytes (part : Part) : List UInt8 := block part.lines ++ part.body

/-- What is behind a boundary: the parts that are left, and the epilogue. -/
def encodeFrom (boundary : List UInt8) (epilogue : Option (List UInt8)) : List Part → List UInt8
  | [] => [DASH, DASH] ++ (epilogue.map (CRLF ++ ·)).getD []
  | part :: parts => CRLF ++ (part.bytes ++ (delimiter boundary ++ encodeFrom boundary epilogue parts))

/-- A preamble is in front of the first boundary, with a line break. -/
def encode (boundary : List UInt8) (preamble epilogue : Option (List UInt8)) (parts : List Part) : List UInt8 :=
  (preamble.map (· ++ delimiter boundary)).getD (dashBoundary boundary) ++ encodeFrom boundary epilogue parts

/-- The parts that are read one after the other, and the parser and the data behind them. -/
def readAll (poco : List UInt8 → HeaderRead) (boundary : List UInt8) : Nat → State → List UInt8 →
    List Part × State × List UInt8
  | 0, state, data => ([], state, data)
  | n + 1, state, data =>
    let r := readPart poco boundary state {} data
    match r.body.bind fun view => view.bytes data with
    | none => ([], r.state, data)
    | some body =>
      let rest := readAll poco boundary n r.state (data.drop r.result.toNat)
      (⟨r.header.headers, body⟩ :: rest.1, rest.2)

/-- The delimiter does not begin before the end of the bytes. -/
def Clear (boundary s : List UInt8) : Prop := First (delimiter boundary) (s ++ delimiter boundary) s.length

/-- The preamble does not contain the first boundary. -/
def ClearPreamble (boundary preamble : List UInt8) : Prop :=
  Clear boundary preamble ∧ ¬ dashBoundary boundary <+: preamble ++ delimiter boundary

/-- The view lies within the data and in front of the next boundary. -/
def View.Inside (view : View) (nextStart length : Nat) : Prop :=
  0 ≤ view.size ∧ view.start + view.size ≤ nextStart ∧ nextStart ≤ length

instance (view : View) (nextStart length : Nat) : Decidable (view.Inside nextStart length) := by
  unfold View.Inside
  infer_instance

structure Part.WellFormed (part : Part) : Prop where
  headers : part.headers ≠ []
  fields : ∀ pair ∈ part.headers, LF ∉ pair.1 ∧ LF ∉ pair.2
  trimmed : ∀ pair ∈ part.headers, Header.trimmed pair.1 = pair.1 ∧ Header.trimmed pair.2 = pair.2
  distinct : part.headers.Pairwise fun a b => Header.iequal a.1 b.1 = false

section Reads

variable {poco : List UInt8 → HeaderRead} {boundary data delim pre mark rest t : List UInt8} {state : State}
  {header : Header} {part : Part} {parts : List Part} {off i : Nat}

/-! ### The boundaries -/

/-- A boundary with a line break behind it. -/
theorem findBoundary_eq {u : List UInt8} (hdata : data = pre ++ (delim ++ rest)) (hoff : off ≤ pre.length)
    (hfirst : First delim (data.drop off) (pre.length - off))
    (hrest : rest = CRLF ++ u ∨ rest = [DASH, DASH] ++ (CRLF ++ u)) :
    findBoundary data delim off = ((pre.length : Int), ((pre.length + delim.length + findLineBreak rest : Nat) : Int),
      decide (rest.take 2 = [DASH, DASH])) ∧ pre.length + delim.length + findLineBreak rest < data.length := by
  have hdrop : data.drop (pre.length + delim.length) = rest := by
    rw [hdata, ← List.drop_drop, List.drop_left, List.drop_left]
  have hlen : data.length = pre.length + delim.length + rest.length := by
    rw [hdata, List.length_append, List.length_append]
    omega
  have hbreak : findLineBreak rest < rest.length ∧ 2 ≤ rest.length := by
    rcases hrest with rfl | rfl
    · exact ⟨by change 1 < u.length + 2; omega, by change 2 ≤ u.length + 2; omega⟩
    · exact ⟨by change 3 < u.length + 4; omega, by change 2 ≤ u.length + 4; omega⟩
  have hpos : off + (pre.length - off) = pre.length := by omega
  refine ⟨?_, by omega⟩
  unfold findBoundary
  rw [find_eq_some.2 hfirst]
  dsimp only
  rw [hpos, if_neg (by omega), hdrop, if_neg (by omega)]

/-- The boundary that closes the data, at its end. -/
theorem findBoundary_end (hdata : data = pre ++ (delim ++ [DASH, DASH])) (hoff : off ≤ pre.length)
    (hfirst : First delim (data.drop off) (pre.length - off)) :
    findBoundary data delim off = ((pre.length : Int), 0, true) := by
  have hdrop : data.drop (pre.length + delim.length) = [DASH, DASH] := by
    rw [hdata, ← List.drop_drop, List.drop_left, List.drop_left]
  have hlen : data.length = pre.length + delim.length + 2 := by
    rw [hdata, List.length_append, List.length_append]
    change _ + (_ + 2) = _
    omega
  have hpos : off + (pre.length - off) = pre.length := by omega
  have hbreak : findLineBreak [DASH, DASH] = 2 := rfl
  unfold findBoundary
  rw [find_eq_some.2 hfirst]
  dsimp only
  rw [hpos, if_neg (by omega), hdrop, hbreak, if_pos hlen.symm]
  rfl

/-! ### The header -/

theorem read_headers {fields : List (List UInt8 × List UInt8)} (header : Header)
    (htrimmed : ∀ pair ∈ fields, Header.trimmed pair.1 = pair.1 ∧ Header.trimmed pair.2 = pair.2)
    (hdistinct : fields.Pairwise fun a b => Header.iequal a.1 b.1 = false)
    (happart : ∀ a ∈ header.headers, ∀ b ∈ fields, Header.iequal a.1 b.1 = false) :
    (header.read fields).headers = header.headers ++ fields := by
  have hfold : ∀ header : Header, (∀ a ∈ header.headers, ∀ b ∈ fields, Header.iequal a.1 b.1 = false) →
      (fields.foldl (fun h pair => h.set (Header.trimmed pair.1) (Header.trimmed pair.2)) header).headers =
        header.headers ++ fields := by
    clear happart
    induction fields with
    | nil => exact fun header _ => (List.append_nil _).symm
    | cons pair fields ih =>
      intro header happart
      obtain ⟨hkey, hvalue⟩ := htrimmed pair List.mem_cons_self
      have hset : (header.set pair.1 pair.2).headers = header.headers ++ [pair] := by
        have hany : ¬ (header.headers.any fun a => Header.iequal a.1 pair.1) = true := by
          rw [List.any_eq_true]
          rintro ⟨a, ha, heq⟩
          rw [happart a ha pair List.mem_cons_self] at heq
          cases heq
        unfold Header.set
        rw [if_neg hany]
      rw [List.foldl_cons, hkey, hvalue, ih (fun p hp => htrimmed p (List.mem_cons_of_mem _ hp))
        (List.pairwise_cons.1 hdistinct).2, hset, List.append_assoc]
      · rfl
      · intro a ha b hb
        rw [hset] at ha
        rcases List.mem_append.1 ha with ha | ha
        · exact happart a ha b (List.mem_cons_of_mem _ hb)
        · rw [List.mem_singleton.1 ha]
          exact (List.pairwise_cons.1 hdistinct).1 b hb
  exact hfold header happart

theorem Part.WellFormed.lines_spec (h : part.WellFormed) : ∃ line lines, part.lines = line :: lines ∧
    LF ∉ line ++ [CR] ∧ (∀ line ∈ lines, line ≠ [] ∧ LF ∉ line) ∧ 4 ≤ (block part.lines).length :=
  Http.fieldLines_spec h.headers h.fields

/-- The header of a part, with what is behind it. -/
theorem parse_part (h : part.WellFormed) (hpoco : ∀ rest, poco (block part.lines ++ rest) = .fields part.headers)
    (header : Header) (rest : List UInt8) :
    header.parse poco (block part.lines ++ rest) = (some (block part.lines).length, header.read part.headers) := by
  obtain ⟨line, lines, hlines, hline, hrest, hlong⟩ := h.lines_spec
  rw [hlines, Http.block_cons] at hlong hpoco ⊢
  refine (Http.parse_block hrest hline hlong hpoco (List.prefix_refl _) header).2 ?_
  simp only [List.length_append] at hlong ⊢
  omega

/-! ### A part -/

theorem marker_delimiter (h : state ≠ .FirstPart ∨ ¬ dashBoundary boundary <+: data) :
    marker boundary state data = delimiter boundary := by
  unfold marker
  rw [if_neg]
  rintro ⟨hstate, hdash⟩
  rcases h with h | h
  · exact h hstate
  · exact h hdash

/-- The data of a part between two boundaries. -/
structure Framed (boundary : List UInt8) (state : State) (part : Part) (data pre mark rest : List UInt8) : Prop where
  split : data = pre ++ (mark ++ (CRLF ++ (part.bytes ++ (delimiter boundary ++ rest))))
  marker : marker boundary state data = mark
  first : First mark data pre.length
  notLast : state ≠ .LastPart
  wellFormed : part.WellFormed

/-- The offset of the part, behind its boundary. -/
def partStart (pre mark : List UInt8) : Nat := pre.length + mark.length + 2

/-- The boundary in front of a part. -/
theorem Framed.opening (h : Framed boundary state part data pre mark rest) :
    findBoundary data mark 0 = ((pre.length : Int), ((pre.length + mark.length + 1 : Nat) : Int), false) := by
  have hfirst : First mark (data.drop 0) (pre.length - 0) := h.first
  exact (findBoundary_eq h.split (Nat.zero_le _) hfirst (Or.inl rfl)).1

theorem Framed.drop_start (h : Framed boundary state part data pre mark rest) :
    data.drop (partStart pre mark) = part.bytes ++ (delimiter boundary ++ rest) := by
  unfold partStart
  rw [h.split, ← List.drop_drop, ← List.drop_drop, List.drop_left, List.drop_left]
  rfl

/-- The next boundary. -/
theorem Framed.next (h : Framed boundary state part data pre mark rest) (hclear : Clear boundary part.bytes) :
    data = (pre ++ (mark ++ (CRLF ++ part.bytes))) ++ (delimiter boundary ++ rest) ∧
      (pre ++ (mark ++ (CRLF ++ part.bytes))).length = partStart pre mark + part.bytes.length ∧
      First (delimiter boundary) (data.drop (partStart pre mark))
        (partStart pre mark + part.bytes.length - partStart pre mark) := by
  refine ⟨?_, ?_, ?_⟩
  · rw [h.split]
    simp only [List.append_assoc]
  · unfold partStart
    simp only [List.length_append]
    change _ + (_ + (2 + _)) = _
    omega
  · rw [h.drop_start, Nat.add_sub_cancel_left]
    exact hclear.append rest

/-- The view of the body of a part. -/
def viewOf (pre mark : List UInt8) (part : Part) : View :=
  ⟨partStart pre mark + (block part.lines).length, part.body.length⟩

/-- A part with a line break behind its closing boundary is read. -/
theorem Framed.reads {u : List UInt8} (h : Framed boundary state part data pre mark rest)
    (hclear : Clear boundary part.bytes) (hpoco : ∀ rest, poco (block part.lines ++ rest) = .fields part.headers)
    (hrest : rest = CRLF ++ u ∨ rest = [DASH, DASH] ++ (CRLF ++ u)) :
    readPart poco boundary state {} data = ⟨(partStart pre mark + part.bytes.length : Nat),
      if rest.take 2 = [DASH, DASH] then .LastPart else .NextPart, Header.read {} part.headers,
      some (viewOf pre mark part)⟩ := by
  obtain ⟨hdata, hlength, hfirst⟩ := h.next hclear
  have hnext : findBoundary data (delimiter boundary) (partStart pre mark) = _ :=
    (findBoundary_eq hdata (by omega) (by rwa [hlength]) hrest).1
  have hparse := parse_part h.wellFormed hpoco {} (part.body ++ (delimiter boundary ++ rest))
  have hpart : block part.lines ++ (part.body ++ (delimiter boundary ++ rest)) = data.drop (partStart pre mark) := by
    rw [h.drop_start, Part.bytes, List.append_assoc]
  have hstart : ((pre.length + mark.length + 1 : Nat) : Int).toNat + 1 = partStart pre mark := rfl
  obtain ⟨-, -, -, -, -, hlong⟩ := h.wellFormed.lines_spec
  obtain ⟨n, hn⟩ : ∃ n, (block part.lines).length = n + 1 := ⟨(block part.lines).length - 1, by omega⟩
  rw [hpart] at hparse
  unfold readPart
  rw [if_neg h.notLast, h.marker, h.opening]
  dsimp only
  rw [if_neg (by omega), if_neg (by omega), hstart, hnext]
  dsimp only
  rw [if_neg (by omega), if_neg (by omega), hparse, hn, hlength]
  have hbytes : part.bytes.length = n + 1 + part.body.length := by rw [Part.bytes, List.length_append, hn]
  have hsize : ((partStart pre mark + part.bytes.length : Nat) : Int) - (partStart pre mark : Nat) - (n + 1 : Nat) =
      part.body.length := by
    rw [hbytes]
    omega
  unfold viewOf
  rw [hn, ← hsize]
  simp only [decide_eq_true_eq]

/-- Without a line break behind the closing boundary it is not. -/
theorem Framed.waits (h : Framed boundary state part data pre mark [DASH, DASH])
    (hclear : Clear boundary part.bytes) : readPart poco boundary state {} data = ⟨0, state, {}, none⟩ := by
  obtain ⟨hdata, hlength, hfirst⟩ := h.next hclear
  have hnext : findBoundary data (delimiter boundary) (partStart pre mark) = _ :=
    findBoundary_end hdata (by omega) (by rwa [hlength])
  have hstart : ((pre.length + mark.length + 1 : Nat) : Int).toNat + 1 = partStart pre mark := rfl
  unfold readPart
  rw [if_neg h.notLast, h.marker, h.opening]
  dsimp only
  rw [if_neg (by omega), if_neg (by omega), hstart, hnext]
  dsimp only
  rw [if_pos (Or.inr ⟨rfl, rfl⟩)]

/-! ### All parts -/

/-- The parts behind a part that was read. -/
theorem Framed.readAll {u : List UInt8} {n : Nat} (h : Framed boundary state part data pre mark rest)
    (hclear : Clear boundary part.bytes)
    (hpoco : ∀ rest, poco (block part.lines ++ rest) = .fields part.headers)
    (hrest : rest = CRLF ++ u ∨ rest = [DASH, DASH] ++ (CRLF ++ u)) :
    readAll poco boundary (n + 1) state data =
      (part :: (readAll poco boundary n (if rest.take 2 = [DASH, DASH] then .LastPart else .NextPart)
          (delimiter boundary ++ rest)).1,
        (readAll poco boundary n (if rest.take 2 = [DASH, DASH] then .LastPart else .NextPart)
          (delimiter boundary ++ rest)).2) := by
  obtain ⟨hdata, hlength, -⟩ := h.next hclear
  have hdrop : data.drop (partStart pre mark + part.bytes.length) = delimiter boundary ++ rest := by
    rw [← hlength, hdata, List.drop_left]
  have hbody : (viewOf pre mark part).bytes data = some part.body := by
    have hsize : 0 ≤ (viewOf pre mark part).size := Int.natCast_nonneg _
    unfold View.bytes
    rw [if_pos hsize]
    change some ((data.drop (partStart pre mark + (block part.lines).length)).take part.body.length) = some part.body
    rw [← List.drop_drop, h.drop_start, Part.bytes, List.append_assoc, List.drop_left, List.take_left]
  have hheaders : (Header.read {} part.headers).headers = part.headers :=
    read_headers {} h.wellFormed.trimmed h.wellFormed.distinct fun a ha => absurd ha List.not_mem_nil
  conv_lhs => unfold MultipartDataParser.readAll
  rw [h.reads hclear hpoco hrest]
  dsimp only
  rw [Option.bind_some, hbody]
  dsimp only
  rw [Int.toNat_natCast, hdrop, hheaders]

theorem readAll_last (n : Nat) (data : List UInt8) :
    readAll poco boundary n .LastPart data = ([], .LastPart, data) := by
  cases n with
  | zero => rfl
  | succ n => rfl

/-- The boundary in front of the next part. -/
theorem framed_next (h : part.WellFormed) :
    Framed boundary .NextPart part (delimiter boundary ++ (CRLF ++ (part.bytes ++ (delimiter boundary ++ rest)))) []
      (delimiter boundary) rest where
  split := rfl
  marker := marker_delimiter (Or.inl (by decide))
  first := first_zero (List.prefix_append _ _)
  notLast := by decide
  wellFormed := h

/-- With an epilogue all parts are read. -/
theorem readAll_encode {epilogue : List UInt8} {n : Nat} {state : State} {data pre mark : List UInt8}
    (hparts : ∀ p ∈ part :: parts, p.WellFormed ∧ ∀ rest, poco (block p.lines ++ rest) = .fields p.headers)
    (hclear : ∀ p ∈ part :: parts, Clear boundary p.bytes)
    (h : Framed boundary state part data pre mark (encodeFrom boundary (some epilogue) parts))
    (hn : parts.length < n) : readAll poco boundary n state data =
      (part :: parts, .LastPart, delimiter boundary ++ encodeFrom boundary (some epilogue) []) := by
  induction parts generalizing part n state data pre mark with
  | nil =>
    obtain ⟨m, rfl⟩ : ∃ m, n = m + 1 := ⟨n - 1, by omega⟩
    rw [h.readAll (u := epilogue) (hclear part List.mem_cons_self) (hparts part List.mem_cons_self).2 (Or.inr rfl)]
    have hlast : (encodeFrom boundary (some epilogue) []).take 2 = [DASH, DASH] := rfl
    rw [if_pos hlast, readAll_last]
  | cons q qs ih =>
    rw [List.length_cons] at hn
    obtain ⟨m, rfl⟩ : ∃ m, n = m + 1 := ⟨n - 1, by omega⟩
    rw [h.readAll (hclear part List.mem_cons_self) (hparts part List.mem_cons_self).2 (Or.inl rfl)]
    have hnext : ¬ (encodeFrom boundary (some epilogue) (q :: qs)).take 2 = [DASH, DASH] := by
      change ¬ CRLF = [DASH, DASH]
      decide
    have hq := (hparts q (List.mem_cons_of_mem _ List.mem_cons_self)).1
    have hrest := ih (n := m) (fun p hp => hparts p (List.mem_cons_of_mem _ hp))
      (fun p hp => hclear p (List.mem_cons_of_mem _ hp)) (framed_next hq) (by omega)
    rw [if_neg hnext]
    change (part ::
      (readAll poco boundary m .NextPart (delimiter boundary ++ (CRLF ++ (q.bytes ++ (delimiter boundary ++
      encodeFrom boundary (some epilogue) qs))))).1,
        (readAll poco boundary m .NextPart (delimiter boundary ++ (CRLF ++
        (q.bytes ++ (delimiter boundary ++ encodeFrom boundary (some epilogue) qs))))).2) = _
    rw [hrest]

/-- Without an epilogue the last part is not read. -/
theorem readAll_encode_none {n : Nat} {state : State} {data pre mark : List UInt8}
    (hparts : ∀ p ∈ part :: parts, p.WellFormed ∧ ∀ rest, poco (block p.lines ++ rest) = .fields p.headers)
    (hclear : ∀ p ∈ part :: parts, Clear boundary p.bytes)
    (h : Framed boundary state part data pre mark (encodeFrom boundary none parts)) (hn : parts.length < n) :
    (readAll poco boundary n state data).1 = (part :: parts).dropLast := by
  induction parts generalizing part n state data pre mark with
  | nil =>
    obtain ⟨m, rfl⟩ : ∃ m, n = m + 1 := ⟨n - 1, by omega⟩
    have hend : Framed boundary state part data pre mark [DASH, DASH] := h
    unfold MultipartDataParser.readAll
    rw [hend.waits (hclear part List.mem_cons_self)]
    rfl
  | cons q qs ih =>
    rw [List.length_cons] at hn
    obtain ⟨m, rfl⟩ : ∃ m, n = m + 1 := ⟨n - 1, by omega⟩
    rw [h.readAll (hclear part List.mem_cons_self) (hparts part List.mem_cons_self).2 (Or.inl rfl)]
    have hnext : ¬ (encodeFrom boundary none (q :: qs)).take 2 = [DASH, DASH] := by
      change ¬ CRLF = [DASH, DASH]
      decide
    have hq := (hparts q (List.mem_cons_of_mem _ List.mem_cons_self)).1
    have hrest := ih (n := m) (fun p hp => hparts p (List.mem_cons_of_mem _ hp))
      (fun p hp => hclear p (List.mem_cons_of_mem _ hp)) (framed_next hq) (by omega)
    rw [if_neg hnext]
    exact congrArg (part :: ·) hrest

/-- The first part of a message. -/
theorem framed_encode {preamble epilogue : Option (List UInt8)} (h : part.WellFormed)
    (hpreamble : ∀ p ∈ preamble, ClearPreamble boundary p) : ∃ pre mark,
      Framed boundary .FirstPart part (encode boundary preamble epilogue (part :: parts)) pre mark
        (encodeFrom boundary epilogue parts) := by
  cases preamble with
  | none =>
    refine ⟨[], dashBoundary boundary, rfl, if_pos ⟨rfl, List.prefix_append _ _⟩,
      first_zero (List.prefix_append _ _), ?_, h⟩
    decide
  | some p =>
    obtain ⟨hclear, hdash⟩ := hpreamble p rfl
    have hsplit : encode boundary (some p) epilogue (part :: parts) =
      p ++ (delimiter boundary ++ (CRLF ++ (part.bytes ++
        (delimiter boundary ++ encodeFrom boundary epilogue parts)))) := List.append_assoc ..
    refine ⟨p, delimiter boundary, hsplit, marker_delimiter (Or.inr fun hprefix => hdash ?_), ?_, by decide, h⟩
    · rw [hsplit, ← List.append_assoc] at hprefix
      refine List.prefix_of_prefix_length_le hprefix (List.prefix_append _ _) ?_
      unfold dashBoundary
      rw [List.length_append, List.length_drop]
      omega
    · rw [hsplit]
      exact hclear.append _

/-! ### The body of a part -/

theorem parse_end {n : Nat} {p : List UInt8} {header' : Header} (h : header.parse poco p = (some (n + 1), header')) :
    n = findBlankLine p.length p := by
  unfold Header.parse at h
  split at h
  · cases h
  · dsimp only at h
    split at h
    · cases h
    · split at h
      · cases h
      · cases h
      · have hn := Option.some.inj (Prod.mk.inj h).1
        omega

theorem findBoundary_first {start eol : Int} {last : Bool} (h : findBoundary data delim off = (start, eol, last))
    (hstart : ¬ start < 0) : ∃ i, First delim (data.drop off) i ∧ start = (off + i : Nat) := by
  unfold findBoundary at h
  cases hfind : find delim (data.drop off) with
  | none =>
    rw [hfind] at h
    have heq := (Prod.mk.inj h).1
    omega
  | some i =>
    rw [hfind] at h
    refine ⟨i, find_eq_some.1 hfind, ?_⟩
    dsimp only at h
    split at h
    · exact (Prod.mk.inj h).1.symm
    · split at h
      · exact (Prod.mk.inj h).1.symm
      · exact (Prod.mk.inj h).1.symm

/-- A part with a body: both boundaries were found, and its header was read. -/
theorem readPart_some {view : View} (h : (readPart poco boundary state header data).body = some view) :
    ∃ eol last nextStart nextEnd nextLast n header' start off,
      findBoundary data (marker boundary state data) 0 = (start, eol, last) ∧ off = eol.toNat + 1 ∧
      findBoundary data (delimiter boundary) off = (nextStart, nextEnd, nextLast) ∧ ¬ nextStart < 0 ∧
      header.parse poco (data.drop off) = (some (n + 1), header') ∧
      (readPart poco boundary state header data).result = nextStart ∧
      view = ⟨off + (n + 1), nextStart - off - (n + 1 : Nat)⟩ := by
  unfold readPart at h ⊢
  rcases hopen : findBoundary data (marker boundary state data) 0 with ⟨start, eol, last⟩
  rw [hopen] at h
  dsimp only at h ⊢
  rcases hnext : findBoundary data (delimiter boundary) (eol.toNat + 1) with ⟨nextStart, nextEnd, nextLast⟩
  rw [hnext] at h
  dsimp only at h ⊢
  split at h
  · cases h
  · rename_i hstate
    split at h
    · cases h
    · rename_i hstart
      split at h
      · cases h
      · rename_i heol
        split at h
        · cases h
        · rename_i hnextStart
          split at h
          · cases h
          · rename_i hnextEnd
            rw [if_neg hstate, if_neg hstart, if_neg heol, if_neg hnextStart, if_neg hnextEnd]
            rcases hparse : header.parse poco (data.drop (eol.toNat + 1)) with ⟨o, header'⟩
            rw [hparse] at h
            rcases o with _ | _ | n
            · cases h
            · cases h
            · exact ⟨eol, last, nextStart, nextEnd, nextLast, n, header', start, eol.toNat + 1, rfl, rfl, hnext,
                fun hlt => hnextStart (Or.inl hlt), hparse, rfl, (Option.some.inj h).symm⟩

/-- The body begins behind the first blank line, and lies within the part where that line is in front of the next
boundary. -/
theorem readPart_body {view : View} (h : (readPart poco boundary state header data).body = some view) :
    ∃ off i, off = (findBoundary data (marker boundary state data) 0).2.1.toNat + 1 ∧
      First (delimiter boundary) (data.drop off) i ∧
      (readPart poco boundary state header data).result = (off + i : Nat) ∧
      view.start = off + (findBlankLine (data.drop off).length (data.drop off) + 1) ∧
      (view.Inside (off + i) data.length ↔ findBlankLine (data.drop off).length (data.drop off) + 1 ≤ i) := by
  obtain ⟨eol, last, nextStart, nextEnd, nextLast, n, header', start, off, hopen, hoff, hnext, hnextStart, hparse,
    hresult, rfl⟩ := readPart_some h
  obtain ⟨i, hfirst, hi⟩ := findBoundary_first hnext hnextStart
  have hend := parse_end hparse
  have hle := hfirst.occurs.le (List.append_ne_nil_of_left_ne_nil (by decide) boundary)
  rw [List.length_drop] at hle
  have hpos : 0 < (delimiter boundary).length := by
    unfold delimiter
    rw [List.length_append]
    exact Nat.lt_add_right _ (by decide)
  refine ⟨off, i, ?_, hfirst, hresult.trans hi, ?_, ?_⟩
  · rw [hopen, hoff]
  · rw [← hend]
  · rw [← hend, hi]
    unfold View.Inside
    dsimp only
    omega

/-! ### Parts that hold the delimiter -/

/-- A part that is read as it was does not hold the delimiter. -/
theorem Framed.clear_of_readAll {n : Nat} (h : Framed boundary state part data pre mark rest)
    (hpoco : ∀ rest, poco (block part.lines ++ rest) = .fields part.headers)
    (hread : (MultipartDataParser.readAll poco boundary n state data).1 = part :: parts) :
      Clear boundary part.bytes := by
  cases n with
  | zero => cases hread
  | succ n =>
    unfold MultipartDataParser.readAll at hread
    dsimp only at hread
    cases hbytes : (MultipartDataParser.readPart poco boundary state {} data).body.bind fun view =>
      view.bytes data with
    | none =>
      rw [hbytes] at hread
      cases hread
    | some body =>
      rw [hbytes] at hread
      obtain ⟨view, hview, hbody⟩ := Option.bind_eq_some_iff.1 hbytes
      obtain ⟨eol, last, nextStart, nextEnd, nextLast, m, header', start, off, hopen, hoff, hnext, hnextStart,
        hparse, -, rfl⟩ := readPart_some hview
      obtain ⟨i, hfirst, rfl⟩ := findBoundary_first hnext hnextStart
      rw [h.marker, h.opening] at hopen
      have heol : off = partStart pre mark := by
        rw [hoff, ← (Prod.mk.inj (Prod.mk.inj hopen).2).1]
        rfl
      subst heol
      have hheader := parse_part h.wellFormed hpoco {} (part.body ++ (delimiter boundary ++ rest))
      rw [← List.append_assoc, ← Part.bytes, ← h.drop_start, hparse] at hheader
      have hm : m + 1 = (block part.lines).length := Option.some.inj (Prod.mk.inj hheader).1
      have hpart : part.body = body := by rw [← (List.cons.inj hread).1]
      unfold View.bytes at hbody
      split at hbody
      · rename_i hsize
        have hlength := congrArg List.length (Option.some.inj hbody)
        rw [List.length_take, ← hpart] at hlength
        have hle :=
          Nat.min_le_left ((partStart pre mark + i : Nat) - (partStart pre mark : Int) - (m + 1 : Nat)).toNat
          (data.drop (partStart pre mark + (m + 1))).length
        have hbyteslen : part.bytes.length = (block part.lines).length + part.body.length := by
          rw [Part.bytes, List.length_append]
        dsimp only at hsize hlength
        rw [hlength] at hle
        rw [h.drop_start] at hfirst
        have hat : OccursAt (delimiter boundary) (part.bytes ++ (delimiter boundary ++ rest)) part.bytes.length := by
          have happend : OccursAt (delimiter boundary) (part.bytes ++ (delimiter boundary ++ rest))
              (part.bytes.length + 0) :=
            occursAt_append_right.2 (List.prefix_append _ _)
          rwa [Nat.add_zero] at happend
        have hi : i = part.bytes.length := by
          by_contra hne
          have hlt : part.bytes.length < i := by omega
          exact hfirst.least _ hlt hat
        exact (hi ▸ hfirst).of_append
      · cases hbody

theorem readAll_clear {epilogue : Option (List UInt8)} {n : Nat} {state : State} {data pre mark : List UInt8}
    (hparts : ∀ p ∈ part :: parts, p.WellFormed ∧ ∀ rest, poco (block p.lines ++ rest) = .fields p.headers)
    (h : Framed boundary state part data pre mark (encodeFrom boundary epilogue parts))
    (hread : (readAll poco boundary n state data).1 = part :: parts) :
      ∀ p ∈ part :: parts, Clear boundary p.bytes := by
  induction parts generalizing part n state data pre mark with
  | nil =>
    intro p hp
    obtain rfl := List.mem_singleton.1 hp
    exact h.clear_of_readAll (hparts p List.mem_cons_self).2 hread
  | cons q qs ih =>
    have hclear := h.clear_of_readAll (hparts part List.mem_cons_self).2 hread
    cases n with
    | zero => cases hread
    | succ n =>
      have hnext : ¬ (encodeFrom boundary epilogue (q :: qs)).take 2 = [DASH, DASH] := by
        change ¬ CRLF = [DASH, DASH]
        decide
      rw [h.readAll hclear (hparts part List.mem_cons_self).2 (Or.inl rfl), if_neg hnext] at hread
      have hq := (hparts q (List.mem_cons_of_mem _ List.mem_cons_self)).1
      intro p hp
      rcases List.mem_cons.1 hp with rfl | hp
      · exact hclear
      · exact ih (fun p hp => hparts p (List.mem_cons_of_mem _ hp)) (framed_next hq) (List.cons.inj hread).2 p hp

end Reads

/-- A body begins behind the header of its part, and lies within the part exactly where the first blank line behind
the boundary is in front of the next boundary.  The parts of a message are read in their order, and then the epilogue
is left, exactly where no part holds the delimiter and the message has an epilogue, so that a line break is behind the
closing boundary. -/
theorem readPart_reads (boundary : List UInt8) :
    (∀ poco state header data view, (readPart poco boundary state header data).body = some view →
        ∃ off i, off = (findBoundary data (marker boundary state data) 0).2.1.toNat + 1 ∧
          First (delimiter boundary) (data.drop off) i ∧
          (readPart poco boundary state header data).result = (off + i : Nat) ∧
          view.start = off + (findBlankLine (data.drop off).length (data.drop off) + 1) ∧
          (view.Inside (off + i) data.length ↔ findBlankLine (data.drop off).length (data.drop off) + 1 ≤ i)) ∧
      ∀ poco preamble epilogue parts, parts ≠ [] →
        (∀ p ∈ parts, p.WellFormed ∧ ∀ rest, poco (block p.lines ++ rest) = .fields p.headers) →
        (∀ p ∈ preamble, ClearPreamble boundary p) →
        ((∀ n, parts.length ≤ n → readAll poco boundary n .FirstPart (encode boundary preamble epilogue parts) =
            (parts, .LastPart, delimiter boundary ++ encodeFrom boundary epilogue [])) ↔
          (∀ p ∈ parts, Clear boundary p.bytes) ∧ epilogue.isSome = true) := by
  refine ⟨fun poco state header data view h => readPart_body h,
    fun poco preamble epilogue parts hne hparts hpreamble => ?_⟩
  obtain ⟨part, rest, rfl⟩ := List.exists_cons_of_ne_nil hne
  obtain ⟨pre, mark, hframed⟩ : ∃ pre mark, Framed boundary .FirstPart part
      (encode boundary preamble epilogue (part :: rest)) pre mark (encodeFrom boundary epilogue rest) :=
    framed_encode (hparts part List.mem_cons_self).1 hpreamble
  constructor
  · intro h
    have hclear := readAll_clear hparts hframed (congrArg Prod.fst (h _ le_rfl))
    refine ⟨hclear, ?_⟩
    cases epilogue with
    | some e => rfl
    | none =>
      have hread := readAll_encode_none (n := (part :: rest).length) hparts hclear hframed
        (by rw [List.length_cons]; omega)
      rw [h _ le_rfl] at hread
      have hlength := congrArg List.length hread
      rw [List.length_dropLast, List.length_cons] at hlength
      omega
  · rintro ⟨hclear, hsome⟩ n hn
    obtain ⟨e, rfl⟩ := Option.isSome_iff_exists.1 hsome
    exact readAll_encode hparts hclear hframed (by rw [List.length_cons] at hn; omega)

theorem readPart_reads_message :
    ∀ n, 2 ≤ n → readAll (fun _ => .fields [(text "A", text "1")]) (text "b") n .FirstPart
    (encode (text "b") (some (text "hi")) (some (text "bye"))
      [⟨[(text "A", text "1")], text "x"⟩, ⟨[(text "A", text "1")], text "y\r\n"⟩]) =
    ([⟨[(text "A", text "1")], text "x"⟩, ⟨[(text "A", text "1")], text "y\r\n"⟩], .LastPart,
    text "\r\n--b--\r\nbye") := by
  refine ((readPart_reads (text "b")).2 (fun _ => .fields [(text "A", text "1")]) (some (text "hi"))
    (some (text "bye"))
    [⟨[(text "A", text "1")], text "x"⟩, ⟨[(text "A", text "1")], text "y\r\n"⟩] (by decide) (fun p hp => ?_)
    fun p hp => ?_).2 ⟨fun p hp => ?_, rfl⟩
  · simp only [List.mem_cons, List.not_mem_nil, or_false] at hp
    rcases hp with rfl | rfl
    · exact ⟨⟨by decide, by decide, by decide, by decide⟩, fun _ => rfl⟩
    · exact ⟨⟨by decide, by decide, by decide, by decide⟩, fun _ => rfl⟩
  · obtain rfl := Option.some.inj hp
    exact ⟨find_eq_some.1 (by decide), by decide⟩
  · simp only [List.mem_cons, List.not_mem_nil, or_false] at hp
    rcases hp with rfl | rfl
    · exact find_eq_some.1 (by decide)
    · exact find_eq_some.1 (by decide)

/-- A part without a blank line in front of the next boundary: the size of its body is negative. -/
theorem not_readPart_inside : ¬ ∀ poco boundary state header data view,
    (readPart poco boundary state header data).body = some view →
      view.Inside (readPart poco boundary state header data).result.toNat data.length := fun h =>
  absurd (h (fun _ => .fields [(text "A", text "1")]) (text "b") .FirstPart {} (text "--b\r\nA: 1\r\n--b\r\n\r\n")
    ⟨18, -9⟩ (by decide)) (by decide)

end MultipartDataParser

end CollaboraOnline
