import CollaboraOnline.Net.HttpWire

/-!
# Requests in the input buffer

What the server does with the buffer of a socket when the header of a request has been read: it looks for the whole
request, and moves the data of the chunks together.  What Poco has read of the header is given.  A read behind the end
of the buffer is `outOfBounds`.
-/

namespace CollaboraOnline

open Http

namespace StreamSocket

variable {p q r : List UInt8}

def UNKNOWN_CONTENT_LENGTH : Int := -1

structure Request where
  headerSize : Nat
  contentLength : Int
  chunkedTransferEncoding : Bool

structure MessageMap where
  headerSize : Nat
  messageSize : Nat
  spans : List (Nat × Nat)
deriving DecidableEq

def parseHeader (request : Request) (bufferSize : Nat) : Option MessageMap :=
  if request.contentLength ≠ UNKNOWN_CONTENT_LENGTH then
    if bufferSize < request.contentLength then none
    else some ⟨request.headerSize, ((request.headerSize + request.contentLength) % 2 ^ 64).toNat, []⟩
  else some ⟨request.headerSize, request.headerSize, []⟩

/-! ### Chunks -/

def isspace (ch : UInt8) : Bool := ch == 0x20 || (0x09 ≤ ch && ch ≤ 0x0d)

def isHexDigit (ch : UInt8) : Bool := (hexDigitFromChar ch).isSome

/-- The digits in front of a chunk, behind whitespace. -/
def lenDigits (p : List UInt8) : List UInt8 := (p.dropWhile isspace).takeWhile isHexDigit

/-- The buffer from the end of the line of the digits on. -/
def lineEnd (p : List UInt8) : List UInt8 := ((p.dropWhile isspace).dropWhile isHexDigit).dropWhile (· != LF)

/-- A `size_t`. -/
def chunkLen (p : List UInt8) : Nat :=
  (lenDigits p).foldl (fun n ch => (n * 16 + (hexDigitFromChar ch).getD 0) % 2 ^ 64) 0

inductive Check
  | outOfBounds
  | notEnough
  | malformed
  | complete (map : MessageMap)
deriving DecidableEq

/-- The loop over the chunks in `p`, the end of a buffer of `size` bytes, at most `n` times. -/
def checkChunk (size : Nat) : Nat → MessageMap → List UInt8 → Check
  | 0, _, _ => .notEnough
  | n + 1, map, p =>
    if p = [] then .notEnough
    else
      let body := (lineEnd p).tail
      let chunkOffset := size - body.length
      if chunkLen p = 0 then .complete { map with messageSize := chunkOffset }
      else if body.length + 2 < chunkLen p then .notEnough
      else
        match body[chunkLen p]? with
        | none => .outOfBounds
        | some ch =>
          if ch ≠ CR then .malformed
          else
            match body[chunkLen p + 1]? with
            | none => .outOfBounds
            | some ch =>
              if ch ≠ LF then .malformed
              else checkChunk size n { map with spans := map.spans ++ [(chunkOffset, chunkLen p)] }
                (body.drop (chunkLen p + 2))

def checkChunks (request : Request) (map : MessageMap) (buffer : List UInt8) : Check :=
  if !request.chunkedTransferEncoding then .complete map
  else
    -- keep the header
    checkChunk buffer.length (buffer.length + 1) { map with spans := map.spans ++ [(0, request.headerSize)] }
      (buffer.drop request.headerSize)

def memmove (buffer : List UInt8) (dest src size : Nat) : List UInt8 :=
  buffer.take dest ++ (buffer.drop src).take size ++ buffer.drop (dest + size)

/-- The end of what was moved, and the buffer. -/
def moveSpans (spans : List (Nat × Nat)) (dest : Nat) (buffer : List UInt8) : Nat × List UInt8 :=
  spans.foldl (fun (s : Nat × List UInt8) span => (s.1 + span.2, memmove s.2 s.1 span.1 span.2)) (dest, buffer)

def compactChunks (map : MessageMap) (buffer : List UInt8) : MessageMap × List UInt8 :=
  if map.spans = [] then (map, buffer)
  else
    let (newEnd, buffer) := moveSpans map.spans 0 buffer
    let gap := map.messageSize - newEnd
    ({ map with messageSize := map.messageSize - gap }, buffer.take newEnd ++ buffer.drop map.messageSize)

inductive Framing
  | outOfBounds
  | refused
  /-- The map of the message before and after its chunks were moved together, and the buffer. -/
  | framed (found : MessageMap) (map : MessageMap) (buffer : List UInt8)
deriving DecidableEq

/-- The part of `handleIncomingMessage` from the header on. -/
def handleIncomingMessage (request : Request) (buffer : List UInt8) : Framing :=
  match parseHeader request buffer.length with
  | none => .refused
  | some map =>
    match checkChunks request map buffer with
    | .outOfBounds => .outOfBounds
    | .notEnough => .refused
    | .malformed => .refused
    | .complete map => .framed map (compactChunks map buffer).1 (compactChunks map buffer).2

/-! ### Whole requests -/

/-- A line with a length, up to its line feed. -/
structure SizeLine (line : List UInt8) (n : Nat) : Prop where
  ne_nil : lenDigits line ≠ []
  value : hexValue (lenDigits line) = n
  ends : lineEnd line = [LF]

/-- A line with a length, and the data. -/
structure IsChunk (c : List UInt8 × List UInt8) : Prop where
  line : SizeLine c.1 c.2.length
  ne_nil : c.2 ≠ []

def chunkBytes (cs : List (List UInt8 × List UInt8)) : List UInt8 := cs.flatMap fun c => c.1 ++ c.2 ++ CRLF

/-- Chunks up to the line of one without data. -/
def IsChunked (body data : List UInt8) : Prop :=
  ∃ cs last, (∀ c ∈ cs, IsChunk c) ∧ SizeLine last 0 ∧ body = chunkBytes cs ++ last ∧ data = cs.flatMap Prod.snd

/-- The whole request is in the buffer, and its chunks are moved together. -/
structure Whole (request : Request) (buffer : List UInt8) (found map : MessageMap) (buffer' : List UInt8) : Prop where
  headerSize : map.headerSize = request.headerSize
  messageSize : request.headerSize ≤ found.messageSize ∧ found.messageSize ≤ buffer.length
  single : request.chunkedTransferEncoding = false → map = found ∧ buffer' = buffer ∧
    if request.contentLength = UNKNOWN_CONTENT_LENGTH then found.messageSize = request.headerSize
    else found.messageSize = request.headerSize + request.contentLength
  chunked : request.chunkedTransferEncoding = true → ∃ body data after, IsChunked body data ∧
    buffer = buffer.take request.headerSize ++ body ++ after ∧ found.messageSize = request.headerSize + body.length ∧
      buffer' = buffer.take request.headerSize ++ data ++ after ∧ map.messageSize = request.headerSize + data.length

/-- Nothing is read outside of the buffer, and a request is taken only when it is whole. -/
def Frames (request : Request) (buffer : List UInt8) : Prop :=
  handleIncomingMessage request buffer ≠ .outOfBounds ∧
    ∀ found map buffer', handleIncomingMessage request buffer = .framed found map buffer' →
      Whole request buffer found map buffer'

/-! ### The condition -/

/-- The lines of lengths that follow complete chunks. -/
def SizeLines (body p : List UInt8) : Prop := ∃ cs, (∀ c ∈ cs, IsChunk c) ∧ body = chunkBytes cs ++ p ∧ p ≠ []

/-- A length without data is a complete line with digits; the data with its line break is there, or at least three
bytes of it are not, or it ends with the buffer in something else than a carriage return. -/
def SoundLine (p : List UInt8) : Prop :=
  if hexValue (lenDigits p) = 0 then lenDigits p ≠ [] ∧ lineEnd p ≠ []
  else hexValue (lenDigits p) + 2 ≤ (lineEnd p).tail.length ∨ (lineEnd p).tail.length + 2 < hexValue (lenDigits p) ∨
    ((lineEnd p).tail.length = hexValue (lenDigits p) + 1 ∧ (lineEnd p).tail[hexValue (lenDigits p)]? ≠ some CR)

/-- The lengths of the chunks are a `size_t`. -/
def Fits (request : Request) (buffer : List UInt8) : Prop :=
  (parseHeader request buffer.length).isSome = true → request.chunkedTransferEncoding = true →
    ∀ p, SizeLines (buffer.drop request.headerSize) p → hexValue (lenDigits p) < 2 ^ 64

def Sound (request : Request) (buffer : List UInt8) : Prop :=
  (parseHeader request buffer.length).isSome = true →
    if request.chunkedTransferEncoding then ∀ p, SizeLines (buffer.drop request.headerSize) p → SoundLine p
    else request.contentLength = UNKNOWN_CONTENT_LENGTH ∨
      (0 ≤ request.contentLength ∧ request.headerSize + request.contentLength ≤ buffer.length)

/-! ### Lines -/

theorem chunkLen_eq (p : List UInt8) : chunkLen p = hexValue (lenDigits p) % 2 ^ 64 := by
  have hfold : ∀ (l : List UInt8) (n : Nat),
    l.foldl (fun n ch => (n * 16 + (hexDigitFromChar ch).getD 0) % 2 ^ 64) (n % 2 ^ 64) =
      l.foldl (fun n ch => n * 16 + (hexDigitFromChar ch).getD 0) n % 2 ^ 64 := by
    intro l
    induction l with
    | nil => exact fun _ => rfl
    | cons ch l ih =>
      intro n
      rw [List.foldl_cons, List.foldl_cons, ← ih]
      congr 1
      omega
  exact hfold (lenDigits p) 0

theorem dropWhile_append_of_ne_nil {f : UInt8 → Bool} (h : p.dropWhile f ≠ []) (q : List UInt8) :
    (p ++ q).dropWhile f = p.dropWhile f ++ q := by
  rw [List.dropWhile_append, if_neg (by simpa using h)]

theorem takeWhile_append_of_ne_nil {f : UInt8 → Bool} (h : p.dropWhile f ≠ []) (q : List UInt8) :
    (p ++ q).takeWhile f = p.takeWhile f := by
  rw [List.takeWhile_append, if_neg]
  intro hlen
  have hall := List.takeWhile_append_dropWhile (p := f) (l := p)
  have := congrArg List.length hall
  rw [List.length_append] at this
  exact h (List.eq_nil_of_length_eq_zero (by omega))

theorem dropWhile_ne_nil_of {f g : UInt8 → Bool} (h : (p.dropWhile f).dropWhile g ≠ []) : p.dropWhile f ≠ [] := by
  intro hnil
  rw [hnil] at h
  exact h rfl

/-- What follows a complete line does not matter for it. -/
theorem line_append (h : lineEnd p ≠ []) (q : List UInt8) :
    lenDigits (p ++ q) = lenDigits p ∧ lineEnd (p ++ q) = lineEnd p ++ q := by
  unfold lineEnd lenDigits at *
  have hhex := dropWhile_ne_nil_of h
  have hspace := dropWhile_ne_nil_of hhex
  rw [dropWhile_append_of_ne_nil hspace, dropWhile_append_of_ne_nil hhex, dropWhile_append_of_ne_nil h,
    takeWhile_append_of_ne_nil hhex]
  exact ⟨rfl, rfl⟩

theorem lineEnd_cons (h : lineEnd p ≠ []) : lineEnd p = LF :: (lineEnd p).tail := by
  unfold lineEnd at *
  generalize (p.dropWhile isspace).dropWhile isHexDigit = l at h
  have hhead := List.head_dropWhile_not (· != LF) h
  obtain ⟨ch, rest, hcons⟩ := List.exists_cons_of_ne_nil h
  simp only [hcons, List.head_cons, bne_eq_false_iff_eq] at hhead
  rw [hcons, hhead]
  rfl

theorem while_append {f : UInt8 → Bool} {w s : List UInt8} (hw : ∀ ch ∈ w, f ch = true)
    (hs : ∀ ch ∈ s.head?, f ch = false) : (w ++ s).dropWhile f = s ∧ (w ++ s).takeWhile f = w := by
  rw [List.dropWhile_append_of_pos hw, List.takeWhile_append_of_pos hw]
  cases s with
  | nil => simp
  | cons ch s =>
    have hch := hs ch rfl
    simp [hch]

theorem exists_while (f : UInt8 → Bool) (p : List UInt8) :
    ∃ w s, p = w ++ s ∧ (∀ ch ∈ w, f ch = true) ∧ ∀ ch ∈ s.head?, f ch = false := by
  refine ⟨p.takeWhile f, p.dropWhile f, List.takeWhile_append_dropWhile.symm,
    fun ch hch => List.mem_takeWhile_imp hch, ?_⟩
  intro ch hch
  have hhead := List.head?_dropWhile_not f p
  rw [Option.mem_def.1 hch] at hhead
  simpa using hhead

/-- A line is split off where it ends. -/
theorem exists_line (h : lineEnd p ≠ []) :
    ∃ line, p = line ++ (lineEnd p).tail ∧ lineEnd line = [LF] ∧ lenDigits line = lenDigits p := by
  obtain ⟨w, s, rfl, hw, hs⟩ := exists_while isspace p
  obtain ⟨digits, t, rfl, hdigits, ht⟩ := exists_while isHexDigit s
  obtain ⟨ext, u, rfl, hext, hu⟩ := exists_while (· != LF) t
  have hend : lineEnd (w ++ (digits ++ (ext ++ u))) = u := by
    unfold lineEnd
    rw [(while_append hw hs).1, (while_append hdigits ht).1, (while_append hext hu).1]
  have hlen : lenDigits (w ++ (digits ++ (ext ++ u))) = digits := by
    unfold lenDigits
    rw [(while_append hw hs).1, (while_append hdigits ht).2]
  have hcons := lineEnd_cons h
  rw [hend] at hcons ⊢
  rw [hlen]
  generalize u.tail = rest at hcons
  subst hcons
  -- the rest of the buffer behind the line feed is not looked at
  have hhead : ∀ l : List UInt8, (l ++ [LF]).head? = (l ++ LF :: rest).head? := by
    intro l
    cases l <;> rfl
  have ht : ∀ ch ∈ (ext ++ [LF]).head?, isHexDigit ch = false := hhead ext ▸ ht
  have hs : ∀ ch ∈ (digits ++ (ext ++ [LF])).head?, isspace ch = false := by
    rw [← List.append_assoc, hhead, List.append_assoc]
    exact hs
  refine ⟨w ++ (digits ++ (ext ++ [LF])), by simp, ?_, ?_⟩
  · unfold lineEnd
    rw [(while_append hw hs).1, (while_append hdigits ht).1, (while_append hext (by simp)).1]
  · unfold lenDigits
    rw [(while_append hw hs).1, (while_append hdigits ht).2]

/-- How a line is read at the head of a buffer. -/
theorem SizeLine.append {line : List UInt8} {n : Nat} (h : SizeLine line n) (q : List UInt8) :
    lenDigits (line ++ q) ≠ [] ∧ hexValue (lenDigits (line ++ q)) = n ∧ lineEnd (line ++ q) = LF :: q := by
  have hne : lineEnd line ≠ [] := by
    rw [h.ends]
    exact List.cons_ne_nil _ _
  obtain ⟨hdigits, hend⟩ := line_append hne q
  rw [hdigits, hend, h.ends]
  exact ⟨h.ne_nil, h.value, rfl⟩

theorem SizeLine.ne_nil_line {line : List UInt8} {n : Nat} (h : SizeLine line n) : line ≠ [] := by
  rintro rfl
  exact h.ne_nil rfl

/-! ### The loop -/

/-- The spans of chunks that start at `pos`. -/
def spansFrom : Nat → List (List UInt8 × List UInt8) → List (Nat × Nat)
  | _, [] => []
  | pos, c :: cs => (pos + c.1.length, c.2.length) :: spansFrom (pos + c.1.length + c.2.length + 2) cs

theorem chunkBytes_cons (c : List UInt8 × List UInt8) (cs : List (List UInt8 × List UInt8)) (q : List UInt8) :
    chunkBytes (c :: cs) ++ q = c.1 ++ (c.2 ++ (CR :: LF :: (chunkBytes cs ++ q))) := by
  simp [chunkBytes, CRLF]

/-- A complete chunk is passed. -/
theorem checkChunk_chunk (size n : Nat) (map : MessageMap) {c : List UInt8 × List UInt8} (hc : IsChunk c)
    (hfits : c.2.length < 2 ^ 64) :
    checkChunk size (n + 1) map (c.1 ++ (c.2 ++ (CR :: LF :: q))) =
      checkChunk size n
        { map with spans := map.spans ++ [(size - (c.2.length + 2 + q.length), c.2.length)] } q := by
  obtain ⟨-, hvalue, hend⟩ := hc.line.append (c.2 ++ (CR :: LF :: q))
  have hlen : chunkLen (c.1 ++ (c.2 ++ (CR :: LF :: q))) = c.2.length := by
    rw [chunkLen_eq, hvalue, Nat.mod_eq_of_lt hfits]
  have hpos : c.2.length ≠ 0 := fun h => hc.ne_nil (List.eq_nil_of_length_eq_zero h)
  have hne : c.1 ++ (c.2 ++ (CR :: LF :: q)) ≠ [] := by
    intro hnil
    exact hc.line.ne_nil_line (List.append_eq_nil_iff.1 hnil).1
  have hbody : (c.2 ++ (CR :: LF :: q)).length = c.2.length + 2 + q.length := by
    simp only [List.length_append, List.length_cons]
    omega
  have hCR : (c.2 ++ (CR :: LF :: q))[c.2.length]? = some CR := by simp
  have hLF : (c.2 ++ (CR :: LF :: q))[c.2.length + 1]? = some LF := by simp
  have hdrop : (c.2 ++ (CR :: LF :: q)).drop (c.2.length + 2) = q := by simp
  rw [checkChunk, if_neg hne]
  simp only [hend, List.tail_cons, hlen, hCR, hLF, hdrop, hbody]
  rw [if_neg hpos, if_neg (by omega), if_neg (by simp), if_neg (by simp)]

theorem SizeLines.cons {c : List UInt8 × List UInt8} (hc : IsChunk c) (h : SizeLines q r) :
    SizeLines (c.1 ++ (c.2 ++ (CR :: LF :: q))) r := by
  obtain ⟨cs, hcs, rfl, hne⟩ := h
  exact ⟨c :: cs, List.forall_mem_cons.2 ⟨hc, hcs⟩, (chunkBytes_cons c cs r).symm, hne⟩

theorem hexValue_ne_zero (h : hexValue (lenDigits p) ≠ 0) : lenDigits p ≠ [] := by
  intro hnil
  rw [hnil] at h
  exact h rfl

/-- Where the condition holds, the loop stays in the buffer and completes only at the end of the chunks. -/
theorem checkChunk_sound {size n : Nat} (pos : Nat) (map : MessageMap) (hn : p.length < n)
    (hsize : size = pos + p.length)
    (hlt : size < 2 ^ 63) (hfits : ∀ r, SizeLines p r → hexValue (lenDigits r) < 2 ^ 64)
    (hsound : ∀ r, SizeLines p r → SoundLine r) :
    checkChunk size n map p ≠ .outOfBounds ∧ ∀ map', checkChunk size n map p = .complete map' →
      ∃ cs last after, (∀ c ∈ cs, IsChunk c) ∧ SizeLine last 0 ∧ p = chunkBytes cs ++ (last ++ after) ∧
        map' = ⟨map.headerSize, pos + (chunkBytes cs ++ last).length, map.spans ++ spansFrom pos cs⟩ := by
  induction n generalizing p pos map with
  | zero => exact absurd hn (Nat.not_lt_zero _)
  | succ n ih =>
    by_cases hnil : p = []
    · rw [checkChunk, if_pos hnil]
      exact ⟨nofun, nofun⟩
    have hhere : SizeLines p p := ⟨[], nofun, rfl, hnil⟩
    have hline := hsound p hhere
    have hlen : chunkLen p = hexValue (lenDigits p) := by
      rw [chunkLen_eq, Nat.mod_eq_of_lt (hfits p hhere)]
    unfold SoundLine at hline
    by_cases hzero : hexValue (lenDigits p) = 0
    · rw [if_pos hzero] at hline
      obtain ⟨hdigits, hend⟩ := hline
      obtain ⟨line, hp, hlineEnd, hlenDigits⟩ := exists_line hend
      rw [checkChunk, if_neg hnil]
      dsimp only
      rw [hlen, if_pos hzero]
      refine ⟨nofun, fun map' hmap' => ?_⟩
      obtain rfl := Check.complete.inj hmap'
      refine ⟨[], line, (lineEnd p).tail, nofun, ⟨hlenDigits ▸ hdigits, hlenDigits ▸ hzero, hlineEnd⟩, hp, ?_⟩
      have hplen := congrArg List.length hp
      rw [List.length_append] at hplen
      have hoffset : size - (lineEnd p).tail.length = pos + line.length := by omega
      simp only [hoffset, chunkBytes, spansFrom, List.flatMap_nil, List.nil_append, List.append_nil]
    · rw [if_neg hzero] at hline
      have hpos : hexValue (lenDigits p) ≠ 0 := hzero
      rcases hline with hthere | hmissing | ⟨hcut, hCR⟩
      · have hend : lineEnd p ≠ [] := by
          intro hend
          rw [hend] at hthere
          simp at hthere
        obtain ⟨line, hp, hlineEnd, hlenDigits⟩ := exists_line hend
        generalize hbody : (lineEnd p).tail = body at hthere hp
        generalize hv : hexValue (lenDigits p) = v at hthere hlen hpos
        have hget : body[v]? = some body[v] := List.getElem?_eq_getElem (by omega)
        have hget' : body[v + 1]? = some body[v + 1] := List.getElem?_eq_getElem (by omega)
        by_cases hbreak : body[v] = CR ∧ body[v + 1] = LF
        · have hsplit : body = body.take v ++ (CR :: LF :: body.drop (v + 2)) := by
            conv_lhs => rw [← List.take_append_drop v body]
            rw [List.drop_eq_getElem_cons (by omega), List.drop_eq_getElem_cons (by omega), hbreak.1, hbreak.2]
          have hdata : (body.take v).length = v := List.length_take_of_le (by omega)
          have hchunk : IsChunk (line, body.take v) := by
            refine ⟨⟨?_, ?_, hlineEnd⟩, ?_⟩
            · rw [hlenDigits]
              exact hexValue_ne_zero hzero
            · dsimp only
              rw [hlenDigits, hv, hdata]
            · intro (hempty : body.take v = [])
              rw [hempty] at hdata
              exact hpos hdata.symm
          rw [hsplit] at hp
          have hplen := congrArg List.length hp
          simp only [List.length_append, List.length_cons, hdata] at hplen
          have hdrop : (body.drop (v + 2)).length < n := by omega
          have hrest := ih (pos + line.length + v + 2)
            ⟨map.headerSize, map.messageSize, map.spans ++ [(pos + line.length, v)]⟩ hdrop (by omega)
            (fun r hr => hfits r (by rw [hp]; exact hr.cons hchunk)) fun r hr =>
              hsound r (by rw [hp]; exact hr.cons hchunk)
          have hstep : checkChunk size (n + 1) map p = checkChunk size n
              ⟨map.headerSize, map.messageSize, map.spans ++ [(pos + line.length, v)]⟩ (body.drop (v + 2)) := by
            rw [hp]
            have hsmall : (body.take v).length < 2 ^ 64 := by omega
            refine (checkChunk_chunk _ _ _ hchunk hsmall).trans ?_
            have hoffset : size - ((body.take v).length + 2 + (body.drop (v + 2)).length) = pos + line.length := by
              omega
            dsimp only
            rw [hoffset, hdata]
          rw [hstep]
          refine ⟨hrest.1, fun map' hmap' => ?_⟩
          obtain ⟨cs, last, after, hcs, hlast, hq, hmap⟩ := hrest.2 map' hmap'
          refine ⟨(line, body.take v) :: cs, last, after, List.forall_mem_cons.2 ⟨hchunk, hcs⟩, hlast, ?_, ?_⟩
          · rw [chunkBytes_cons, ← hq]
            exact hp
          · rw [hmap, chunkBytes_cons, spansFrom]
            simp only [hdata, List.length_append, List.length_cons, List.append_assoc, List.singleton_append,
              MessageMap.mk.injEq, true_and, and_true]
            omega
        · rw [checkChunk, if_neg hnil]
          dsimp only
          rw [hbody, hlen, if_neg hpos, if_neg (by omega), hget]
          dsimp only
          by_cases hCR : body[v] = CR
          · rw [if_neg (not_not.2 hCR), hget']
            dsimp only
            rw [if_pos fun hLF => hbreak ⟨hCR, hLF⟩]
            exact ⟨nofun, nofun⟩
          · rw [if_pos hCR]
            exact ⟨nofun, nofun⟩
      · rw [checkChunk, if_neg hnil]
        dsimp only
        rw [hlen, if_neg hpos, if_pos hmissing]
        exact ⟨nofun, nofun⟩
      · rw [checkChunk, if_neg hnil]
        dsimp only
        rw [hlen, if_neg hpos, if_neg (by omega), List.getElem?_eq_getElem (by omega)]
        rw [List.getElem?_eq_getElem (by omega)] at hCR
        dsimp only
        rw [if_pos fun h => hCR (congrArg some h)]
        exact ⟨nofun, nofun⟩

/-! ### Moving the chunks together -/

theorem memmove_spec (b : List UInt8) (dest src n : Nat) (hdest : dest ≤ src) (hsrc : src + n ≤ b.length) :
    (memmove b dest src n).length = b.length ∧
    (memmove b dest src n).take (dest + n) = b.take dest ++ (b.drop src).take n ∧
      ∀ o, dest + n ≤ o → (memmove b dest src n).drop o = b.drop o := by
  have hfront : (b.take dest ++ (b.drop src).take n).length = dest + n := by
    simp only [List.length_append, List.length_take, List.length_drop]
    omega
  unfold memmove
  refine ⟨?_, ?_, fun o ho => ?_⟩
  · rw [List.length_append, hfront, List.length_drop]
    omega
  · exact List.take_left' hfront
  · rw [List.drop_append, List.drop_eq_nil_of_le (by omega), hfront, List.drop_drop, List.nil_append]
    congr 1
    omega

theorem moveSpans_spec {cs : List (List UInt8 × List UInt8)} (pos dest : Nat) (b : List UInt8) (hdest : dest ≤ pos)
    (hb : b.drop pos = chunkBytes cs ++ q) (hpos : pos ≤ b.length) :
    (moveSpans (spansFrom pos cs) dest b).1 = dest + (cs.flatMap Prod.snd).length ∧
      (moveSpans (spansFrom pos cs) dest b).2.take (dest + (cs.flatMap Prod.snd).length) =
        b.take dest ++ cs.flatMap Prod.snd ∧
      ∀ o, pos + (chunkBytes cs).length ≤ o → (moveSpans (spansFrom pos cs) dest b).2.drop o = b.drop o := by
  induction cs generalizing pos dest b with
  | nil => exact ⟨rfl, (List.append_nil _).symm, fun _ _ => rfl⟩
  | cons c cs ih =>
    rw [chunkBytes_cons] at hb
    have hlen := congrArg List.length hb
    simp only [List.length_drop, List.length_append, List.length_cons] at hlen
    have hsrc : b.drop (pos + c.1.length) = c.2 ++ (CR :: LF :: (chunkBytes cs ++ q)) := by
      rw [← List.drop_drop, hb, List.drop_left]
    obtain ⟨hlength, htake, hdrop⟩ := memmove_spec b dest (pos + c.1.length) c.2.length (by omega) (by omega)
    rw [hsrc, List.take_left] at htake
    have hrest : (memmove b dest (pos + c.1.length) c.2.length).drop (pos + c.1.length + c.2.length + 2) =
        chunkBytes cs ++ q := by
      rw [hdrop _ (by omega), show pos + c.1.length + c.2.length + 2 = pos + c.1.length + (c.2.length + 2) from rfl,
        ← List.drop_drop, hsrc]
      simp
    obtain ⟨hend, hmoved, hothers⟩ := ih (pos + c.1.length + c.2.length + 2) (dest + c.2.length) _ (by omega) hrest
      (by omega)
    have hstep : moveSpans (spansFrom pos (c :: cs)) dest b =
      moveSpans (spansFrom (pos + c.1.length + c.2.length + 2) cs)
        (dest + c.2.length) (memmove b dest (pos + c.1.length) c.2.length) := rfl
    have hdata : ((c :: cs).flatMap Prod.snd).length = c.2.length + (cs.flatMap Prod.snd).length := by simp
    rw [hstep, hdata, ← Nat.add_assoc]
    refine ⟨hend, ?_, fun o ho => ?_⟩
    · rw [hmoved, htake, List.append_assoc]
      rfl
    · have hbytes : (chunkBytes (c :: cs)).length = c.1.length + c.2.length + 2 + (chunkBytes cs).length := by
        simp [chunkBytes, CRLF]
        omega
      rw [hbytes] at ho
      rw [hothers o (by omega), hdrop o (by omega)]

/-- The header, the data of the chunks and what came after the request. -/
theorem compactChunks_spec {header after : List UInt8} {cs : List (List UInt8 × List UInt8)} {last : List UInt8}
    {buffer : List UInt8} (hbuffer : buffer = header ++ (chunkBytes cs ++ (last ++ after))) (n : Nat) :
    compactChunks ⟨n, header.length + (chunkBytes cs ++ last).length,
    (0, header.length) :: spansFrom header.length cs⟩ buffer =
      (⟨n, header.length + (cs.flatMap Prod.snd).length, (0, header.length) :: spansFrom header.length cs⟩,
        header ++ cs.flatMap Prod.snd ++ after) := by
  have hlen := congrArg List.length hbuffer
  simp only [List.length_append] at hlen
  have hdrop : buffer.drop header.length = chunkBytes cs ++ (last ++ after) := by
    rw [hbuffer, List.drop_left]
  have htake : buffer.take header.length = header := by
    rw [hbuffer, List.take_left]
  -- the header stays where it is
  have hheader : memmove buffer 0 0 header.length = buffer := by
    unfold memmove
    simp
  have hstart : moveSpans ((0, header.length) :: spansFrom header.length cs) 0 buffer =
      moveSpans (spansFrom header.length cs) header.length buffer := by
    have hfold : moveSpans ((0, header.length) :: spansFrom header.length cs) 0 buffer =
        moveSpans (spansFrom header.length cs) (0 + header.length) (memmove buffer 0 0 header.length) := rfl
    rw [hfold, hheader, Nat.zero_add]
  obtain ⟨hend, hmoved, hothers⟩ := moveSpans_spec header.length header.length buffer le_rfl hdrop (by omega)
  have hdata : (cs.flatMap Prod.snd).length ≤ (chunkBytes cs).length := by
    clear hbuffer hlen hdrop hstart hend hmoved hothers
    induction cs with
    | nil => exact Nat.le_refl _
    | cons c cs ih =>
      simp only [chunkBytes, List.flatMap_cons, List.length_append] at ih ⊢
      omega
  have hafter : buffer.drop (header.length + (chunkBytes cs ++ last).length) = after := by
    rw [hbuffer]
    simp
  unfold compactChunks
  rw [if_neg (List.cons_ne_nil _ _)]
  dsimp only
  rw [hstart, hend, hmoved, hothers _ (by rw [List.length_append]; omega), htake, hafter]
  have hgap : header.length + (chunkBytes cs ++ last).length -
      (header.length + (chunkBytes cs ++ last).length - (header.length + (cs.flatMap Prod.snd).length)) =
      header.length + (cs.flatMap Prod.snd).length := by
    rw [List.length_append]
    omega
  rw [hgap]

/-! ### What is left of the buffer -/

/-- Spans from `pos` on, one behind the other, up to `stop`. -/
def SpansIn : Nat → List (Nat × Nat) → Nat → Prop
  | pos, [], stop => pos ≤ stop
  | pos, span :: spans, stop => pos ≤ span.1 ∧ SpansIn (span.1 + span.2) spans stop

theorem SpansIn.le {spans : List (Nat × Nat)} {pos stop : Nat} (h : SpansIn pos spans stop) : pos ≤ stop := by
  induction spans generalizing pos with
  | nil => exact h
  | cons span spans ih =>
    have hrest := ih h.2
    have hpos := h.1
    omega

theorem length_lineEnd_le (p : List UInt8) : (lineEnd p).length ≤ p.length := by
  unfold lineEnd
  exact ((List.dropWhile_sublist _).trans ((List.dropWhile_sublist _).trans (List.dropWhile_sublist _))).length_le

/-- The chunks that the loop finds lie behind each other in the buffer, whatever their lengths. -/
theorem checkChunk_spans {size n : Nat} {map map' : MessageMap} (hsize : p.length ≤ size)
    (h : checkChunk size n map p = .complete map') :
    ∃ spans, map'.spans = map.spans ++ spans ∧ SpansIn (size - p.length) spans map'.messageSize ∧
      map'.messageSize ≤ size := by
  induction n generalizing p map with
  | zero => cases h
  | succ n ih =>
    have hline := length_lineEnd_le p
    have htail : (lineEnd p).tail.length ≤ p.length := by
      rw [List.length_tail]
      omega
    rw [checkChunk] at h
    dsimp only at h
    split_ifs at h with hnil hzero hmissing
    · obtain rfl := Check.complete.inj h
      refine ⟨[], (List.append_nil _).symm, ?_, Nat.sub_le _ _⟩
      show size - p.length ≤ size - (lineEnd p).tail.length
      omega
    · cases hCR : (lineEnd p).tail[chunkLen p]? with
      | none =>
        rw [hCR] at h
        cases h
      | some ch =>
        rw [hCR] at h
        dsimp only at h
        split_ifs at h
        cases hLF : (lineEnd p).tail[chunkLen p + 1]? with
        | none =>
          rw [hLF] at h
          cases h
        | some ch' =>
          rw [hLF] at h
          dsimp only at h
          split_ifs at h
          obtain ⟨hlt, -⟩ := List.getElem?_eq_some_iff.1 hLF
          have hdrop : ((lineEnd p).tail.drop (chunkLen p + 2)).length = (lineEnd p).tail.length - (chunkLen p + 2) :=
            List.length_drop
          obtain ⟨spans, hspans, hin, hstop⟩ := ih (by omega) h
          refine ⟨(size - (lineEnd p).tail.length, chunkLen p) :: spans, ?_, ⟨?_, ?_⟩, hstop⟩
          · rw [hspans, List.append_assoc]
            rfl
          · dsimp only
            omega
          · -- the line break behind the chunk is in no span
            cases spans with
            | nil =>
              have hle : size - ((lineEnd p).tail.drop (chunkLen p + 2)).length ≤ map'.messageSize := hin
              show size - (lineEnd p).tail.length + chunkLen p ≤ map'.messageSize
              omega
            | cons span spans =>
              refine ⟨?_, hin.2⟩
              have hle := hin.1
              dsimp only
              omega

/-- Moving the spans together keeps their bytes in order, and what comes after them. -/
theorem moveSpans_sublist {spans : List (Nat × Nat)} {pos stop : Nat} (hin : SpansIn pos spans stop) (dest : Nat)
    (b : List UInt8) (hdest : dest ≤ pos) (hstop : stop ≤ b.length) :
    ∃ data, data.Sublist ((b.drop pos).take (stop - pos)) ∧
      (moveSpans spans dest b).2.take (moveSpans spans dest b).1 = b.take dest ++ data ∧
      (moveSpans spans dest b).2.drop stop = b.drop stop := by
  induction spans generalizing pos dest b with
  | nil => exact ⟨[], List.nil_sublist _, (List.append_nil _).symm, rfl⟩
  | cons span spans ih =>
    obtain ⟨hpos, hrest⟩ := hin
    have hle := hrest.le
    obtain ⟨hlength, htake, hdrop⟩ := memmove_spec b dest span.1 span.2 (by omega) (by omega)
    obtain ⟨data, hdata, hmoved, hafter⟩ :=
      ih hrest (dest + span.2) (memmove b dest span.1 span.2) (by omega) (by omega)
    refine ⟨(b.drop span.1).take span.2 ++ data, ?_, ?_, ?_⟩
    · rw [hdrop _ (by omega)] at hdata
      have hsplit : (b.drop pos).take (stop - pos) = (b.drop pos).take (span.1 - pos) ++
          ((b.drop span.1).take span.2 ++ (b.drop (span.1 + span.2)).take (stop - (span.1 + span.2))) := by
        rw [show stop - pos = (span.1 - pos) + (span.2 + (stop - (span.1 + span.2))) by omega, List.take_add,
          List.drop_drop, show pos + (span.1 - pos) = span.1 by omega, List.take_add, List.drop_drop]
      rw [hsplit]
      exact (((List.Sublist.refl _).append hdata)).trans (List.sublist_append_right _ _)
    · have hstep : moveSpans (span :: spans) dest b =
          moveSpans spans (dest + span.2) (memmove b dest span.1 span.2) := rfl
      rw [hstep, hmoved, htake, List.append_assoc]
    · have hstep : moveSpans (span :: spans) dest b =
          moveSpans spans (dest + span.2) (memmove b dest span.1 span.2) := rfl
      rw [hstep, hafter, hdrop _ (by omega)]

/-- A request that is taken leaves some of the bytes, in their order. -/
theorem framed_sublist {request : Request} {buffer buffer' : List UInt8} {found map : MessageMap}
    (h : handleIncomingMessage request buffer = .framed found map buffer') : buffer'.Sublist buffer := by
  unfold handleIncomingMessage at h
  cases hparse : parseHeader request buffer.length with
  | none =>
    rw [hparse] at h
    cases h
  | some parsed =>
    rw [hparse] at h
    dsimp only at h
    have hspans : parsed.spans = [] := by
      unfold parseHeader at hparse
      split_ifs at hparse
      · obtain rfl := Option.some.inj hparse
        rfl
      · obtain rfl := Option.some.inj hparse
        rfl
    cases hcheck : checkChunks request parsed buffer with
    | outOfBounds | notEnough | malformed =>
      rw [hcheck] at h
      cases h
    | complete chunks =>
      rw [hcheck] at h
      injection h with hfound hmap hbuffer
      subst hbuffer
      unfold checkChunks at hcheck
      split_ifs at hcheck
      · obtain rfl := Check.complete.inj hcheck
        unfold compactChunks
        rw [if_pos hspans]
      · obtain ⟨spans, hall, hin, hstop⟩ := checkChunk_spans (by simp) hcheck
        rw [hspans, List.nil_append] at hall
        have hsize : request.headerSize ≤ buffer.length := by
          by_contra hlt
          rw [List.drop_eq_nil_of_le (by omega), checkChunk, if_pos rfl] at hcheck
          cases hcheck
        rw [List.length_drop, Nat.sub_sub_self hsize] at hin
        have hheader : SpansIn 0 ((0, request.headerSize) :: spans) chunks.messageSize := by
          refine ⟨Nat.zero_le _, ?_⟩
          dsimp only
          rwa [Nat.zero_add]
        obtain ⟨data, hdata, hmoved, hafter⟩ := moveSpans_sublist hheader 0 buffer le_rfl hstop
        unfold compactChunks
        rw [hall, List.singleton_append, if_neg (List.cons_ne_nil _ _)]
        dsimp only
        rw [hmoved, hafter]
        conv_rhs => rw [← List.take_append_drop chunks.messageSize buffer]
        simpa using hdata.append (List.Sublist.refl (buffer.drop chunks.messageSize))

/-! ### Where the condition fails -/

theorem checkChunk_unsound (size n : Nat) (map : MessageMap) (hne : p ≠ []) (hfits : hexValue (lenDigits p) < 2 ^ 64)
    (h : ¬ SoundLine p) : checkChunk size (n + 1) map p = .outOfBounds ∨
      (checkChunk size (n + 1) map p = .complete { map with messageSize := size - (lineEnd p).tail.length } ∧
        (lenDigits p = [] ∨ lineEnd p = [])) := by
  have hlen : chunkLen p = hexValue (lenDigits p) := by
    rw [chunkLen_eq, Nat.mod_eq_of_lt hfits]
  unfold SoundLine at h
  rw [checkChunk, if_neg hne]
  dsimp only
  rw [hlen]
  by_cases hzero : hexValue (lenDigits p) = 0
  · rw [if_pos hzero] at h ⊢
    exact .inr ⟨rfl, by tauto⟩
  · rw [if_neg hzero] at h ⊢
    left
    generalize hexValue (lenDigits p) = v at h
    generalize (lineEnd p).tail = body at h
    rw [if_neg (by omega)]
    by_cases hend : body.length ≤ v
    · rw [List.getElem?_eq_none hend]
    · have hv : v < body.length := by omega
      have hlast : body.length = v + 1 := by omega
      have hCR : body[v] = CR := by
        by_contra hCR
        refine h (.inr (.inr ⟨hlast, ?_⟩))
        rw [List.getElem?_eq_getElem hv]
        exact fun heq => hCR (Option.some.inj heq)
      rw [List.getElem?_eq_getElem hv, List.getElem?_eq_none (by omega)]
      simp [hCR]

theorem checkChunk_chunks (size n : Nat) {cs : List (List UInt8 × List UInt8)} (hcs : ∀ c ∈ cs, IsChunk c)
    (hlt : (chunkBytes cs).length < 2 ^ 64) (map : MessageMap) :
    ∃ map', checkChunk size (n + cs.length) map (chunkBytes cs ++ q) = checkChunk size n map' q := by
  induction cs generalizing map with
  | nil => exact ⟨map, rfl⟩
  | cons c cs ih =>
    have hbytes : (chunkBytes (c :: cs)).length = c.1.length + c.2.length + 2 + (chunkBytes cs).length := by
      simp [chunkBytes, CRLF]
      omega
    have hsmall : c.2.length < 2 ^ 64 := by omega
    have hstep := checkChunk_chunk (q := chunkBytes cs ++ q) size (n + cs.length) map
      (hcs c List.mem_cons_self) hsmall
    obtain ⟨map', hmap'⟩ := ih (fun c hc => hcs c (List.mem_cons_of_mem _ hc)) (by omega) _
    refine ⟨map', ?_⟩
    rw [chunkBytes_cons]
    exact hstep.trans hmap'

/-- Chunks are told apart in one way only. -/
theorem chunkBytes_inj {cs cs' : List (List UInt8 × List UInt8)} (hcs : ∀ c ∈ cs, IsChunk c)
    (hcs' : ∀ c ∈ cs', IsChunk c)
    {last : List UInt8} (hlast : SizeLine last 0) (hr : lineEnd r = [] ∨ lineEnd r = [LF])
    (h : chunkBytes cs ++ r = chunkBytes cs' ++ last) : r = last := by
  induction cs generalizing cs' with
  | nil =>
    cases cs' with
    | nil => exact h
    | cons c cs' =>
      have hc := hcs' c List.mem_cons_self
      have h : r = c.1 ++ (c.2 ++ (CR :: LF :: (chunkBytes cs' ++ last))) := by
        rw [← chunkBytes_cons]
        exact h
      rw [h, (hc.line.append _).2.2] at hr
      have hne := hc.ne_nil
      simp [hne] at hr
  | cons c cs ih =>
    have hc := hcs c List.mem_cons_self
    rw [chunkBytes_cons] at h
    cases cs' with
    | nil =>
      have hend := hlast.ends
      have h : c.1 ++ (c.2 ++ (CR :: LF :: (chunkBytes cs ++ r))) = last := h
      rw [← h, (hc.line.append _).2.2] at hend
      have hne := hc.ne_nil
      simp [hne] at hend
    | cons c' cs' =>
      have hc' := hcs' c' List.mem_cons_self
      rw [chunkBytes_cons] at h
      obtain ⟨-, hvalue, hend⟩ := hc.line.append (c.2 ++ (CR :: LF :: (chunkBytes cs ++ r)))
      obtain ⟨-, hvalue', hend'⟩ := hc'.line.append (c'.2 ++ (CR :: LF :: (chunkBytes cs' ++ last)))
      rw [h] at hvalue hend
      have hrest := (List.cons.inj (hend.symm.trans hend')).2
      have hdata := (List.append_inj hrest (hvalue.symm.trans hvalue')).2
      refine ih (fun c hc => hcs c (List.mem_cons_of_mem _ hc)) (fun c hc => hcs' c (List.mem_cons_of_mem _ hc)) ?_
      exact (List.cons.inj (List.cons.inj hdata).2).2

/-! ### Framing -/

section Framing

variable {request : Request} {buffer : List UInt8}

theorem parseHeader_some {bufferSize : Nat} {map : MessageMap} (h : parseHeader request bufferSize = some map) :
    map.headerSize = request.headerSize ∧ map.spans = [] ∧
      ((request.contentLength = UNKNOWN_CONTENT_LENGTH ∧ map.messageSize = request.headerSize) ∨
        (request.contentLength ≠ UNKNOWN_CONTENT_LENGTH ∧ request.contentLength ≤ bufferSize ∧
          map.messageSize = ((request.headerSize + request.contentLength) % 2 ^ 64).toNat)) := by
  unfold parseHeader at h
  by_cases hunknown : request.contentLength = UNKNOWN_CONTENT_LENGTH
  · rw [if_neg (not_not.2 hunknown)] at h
    obtain rfl := Option.some.inj h
    exact ⟨rfl, rfl, .inl ⟨hunknown, rfl⟩⟩
  · rw [if_pos hunknown] at h
    by_cases hless : (bufferSize : Int) < request.contentLength
    · rw [if_pos hless] at h
      cases h
    · rw [if_neg hless] at h
      obtain rfl := Option.some.inj h
      exact ⟨rfl, rfl, .inr ⟨hunknown, by omega, rfl⟩⟩

/-- A request without chunks. -/
theorem frames_single (hheader : request.headerSize ≤ buffer.length) (hlt : buffer.length < 2 ^ 63)
    (hsingle : request.chunkedTransferEncoding = false) : Frames request buffer ↔ Sound request buffer := by
  unfold Frames Sound handleIncomingMessage
  cases hparse : parseHeader request buffer.length with
  | none => simp
  | some map =>
    obtain ⟨hsize, hspans, hlength⟩ := parseHeader_some hparse
    have hcheck : checkChunks request map buffer = .complete map := by
      unfold checkChunks
      rw [hsingle]
      rfl
    have hcompact : compactChunks map buffer = (map, buffer) := by
      unfold compactChunks
      rw [if_pos hspans]
    simp only [hcheck, hsingle, hcompact, Option.isSome_some, Bool.false_eq_true, if_false, true_implies]
    constructor
    · rintro ⟨-, hwhole⟩
      obtain ⟨-, ⟨hle, hbound⟩, hcase, -⟩ := hwhole map map buffer rfl
      obtain ⟨-, -, hcase⟩ := hcase hsingle
      by_cases hunknown : request.contentLength = UNKNOWN_CONTENT_LENGTH
      · exact .inl hunknown
      · rw [if_neg hunknown] at hcase
        refine .inr ⟨?_, ?_⟩ <;> omega
    · intro hsound
      refine ⟨nofun, ?_⟩
      rintro found map' buffer' heq
      injection heq with hfound hmap hbuffer
      subst hfound hmap hbuffer
      rcases hlength with ⟨hunknown, hmessage⟩ | ⟨hknown, -, hmessage⟩
      · refine ⟨hsize, ⟨by omega, by omega⟩, fun _ => ⟨rfl, rfl, ?_⟩, fun h => ?_⟩
        · rw [if_pos hunknown]
          exact hmessage
        · rw [hsingle] at h
          cases h
      · obtain ⟨hpos, hbound⟩ := hsound.resolve_left hknown
        have hmessage : (map.messageSize : Int) = request.headerSize + request.contentLength := by
          rw [hmessage, Int.emod_eq_of_lt (by omega) (by omega)]
          omega
        refine ⟨hsize, ⟨by omega, by omega⟩, fun _ => ⟨rfl, rfl, ?_⟩, fun h => ?_⟩
        · rw [if_neg hknown]
          exact hmessage
        · rw [hsingle] at h
          cases h

/-- A request in chunks. -/
theorem frames_chunked (hheader : request.headerSize ≤ buffer.length) (hlt : buffer.length < 2 ^ 63)
    (hchunked : request.chunkedTransferEncoding = true) (hfits : Fits request buffer) :
    Frames request buffer ↔ Sound request buffer := by
  have hdroplen : (buffer.drop request.headerSize).length = buffer.length - request.headerSize := List.length_drop
  unfold Frames Sound handleIncomingMessage
  cases hparse : parseHeader request buffer.length with
  | none => simp
  | some map =>
    have hfits := hfits (Option.isSome_of_eq_some hparse) hchunked
    obtain ⟨hsize, hspans, -⟩ := parseHeader_some hparse
    have hcheck : checkChunks request map buffer = checkChunk buffer.length (buffer.length + 1)
        ⟨request.headerSize, map.messageSize, [(0, request.headerSize)]⟩ (buffer.drop request.headerSize) := by
      unfold checkChunks
      rw [hchunked, hsize, hspans]
      rfl
    simp only [hcheck, hchunked, Option.isSome_some, if_true, true_implies]
    constructor
    · -- a line that is not sound
      rintro ⟨hinside, hwhole⟩ p ⟨cs, hcs, hbody, hne⟩
      by_contra hunsound
      have hlen := congrArg List.length hbody
      rw [List.length_append] at hlen
      have hcslen : cs.length ≤ (chunkBytes cs).length := by
        clear hbody hlen hcs
        induction cs with
        | nil => exact Nat.le_refl _
        | cons c cs ih =>
          simp only [chunkBytes, CRLF, List.flatMap_cons, List.length_append, List.length_cons,
            List.length_nil] at ih ⊢
          omega
      have hfit := hfits p ⟨cs, hcs, hbody, hne⟩
      obtain ⟨n, hn⟩ : ∃ n, buffer.length + 1 = n + 1 + cs.length := ⟨buffer.length - cs.length, by omega⟩
      obtain ⟨map', hmap'⟩ := checkChunk_chunks (q := p) buffer.length (n + 1) hcs (by omega)
        ⟨request.headerSize, map.messageSize, [(0, request.headerSize)]⟩
      rw [← hbody, ← hn] at hmap'
      rcases checkChunk_unsound buffer.length n map' hne hfit hunsound with hout | ⟨hcomplete, hbad⟩
      · rw [hmap', hout] at hinside
        exact hinside rfl
      · rw [hmap', hcomplete] at hwhole
        obtain ⟨-, -, -, hchunks⟩ := hwhole _ _ _ rfl
        obtain ⟨body, data, after, ⟨cs', last, hcs', hlast, rfl, -⟩, hbuffer, hmessage, -⟩ := hchunks hchunked
        -- the line as far as it was read
        obtain ⟨line, hp, hend, hdigits⟩ : ∃ line, p = line ++ (lineEnd p).tail ∧
            (lineEnd line = [] ∨ lineEnd line = [LF]) ∧ (lenDigits line = [] ∨ lineEnd line = []) := by
          by_cases hline : lineEnd p = []
          · exact ⟨p, by rw [hline]; exact (List.append_nil p).symm, .inl hline, .inr hline⟩
          · obtain ⟨line, hp, hend, hdigits⟩ := exists_line hline
            exact ⟨line, hp, .inr hend, .inl (hdigits.trans (hbad.resolve_right hline))⟩
        have hsame : chunkBytes cs ++ line ++ (lineEnd p).tail = chunkBytes cs' ++ last ++ after := by
          rw [List.append_assoc, ← hp, ← hbody]
          conv_lhs => rw [hbuffer]
          have htake : (buffer.take request.headerSize).length = request.headerSize := List.length_take_of_le hheader
          rw [List.append_assoc, List.drop_left' htake]
        have hplen := congrArg List.length hp
        rw [List.length_append] at hplen
        have hbodies := (List.append_inj hsame (by
          rw [List.length_append]
          dsimp only at hmessage
          omega)).1
        have hlineLast := chunkBytes_inj hcs hcs' hlast hend hbodies
        rw [hlineLast, hlast.ends] at hdigits
        rcases hdigits with hnil | hnil
        · exact hlast.ne_nil hnil
        · cases hnil
    · intro hsound
      obtain ⟨hinside, hcomplete⟩ := checkChunk_sound (n := buffer.length + 1) request.headerSize
        ⟨request.headerSize, map.messageSize, [(0, request.headerSize)]⟩ (by omega) (by omega) hlt hfits hsound
      cases hresult : checkChunk buffer.length (buffer.length + 1)
          ⟨request.headerSize, map.messageSize, [(0, request.headerSize)]⟩ (buffer.drop request.headerSize) with
      | outOfBounds => exact absurd hresult hinside
      | notEnough | malformed =>
        constructor
        · intro h
          cases h
        · intro _ _ _ h
          cases h
      | complete found =>
        refine ⟨by rintro ⟨⟩, ?_⟩
        rintro found' map' buffer' heq
        injection heq with hfound hmap hbuffer'
        obtain ⟨cs, last, after, hcs, hlast, hdrop, hfoundEq⟩ := hcomplete found hresult
        have hbuffer : buffer = buffer.take request.headerSize ++ (chunkBytes cs ++ (last ++ after)) := by
          conv_lhs => rw [← List.take_append_drop request.headerSize buffer, hdrop]
        have htake : (buffer.take request.headerSize).length = request.headerSize := List.length_take_of_le hheader
        have hspec := compactChunks_spec hbuffer request.headerSize
        rw [htake] at hspec
        dsimp only [List.singleton_append] at hfoundEq
        rw [hfoundEq] at hfound hmap hbuffer'
        rw [hspec] at hmap hbuffer'
        subst hfound hmap hbuffer'
        have hlen := congrArg List.length hbuffer
        simp only [List.length_append, htake] at hlen
        refine ⟨rfl, ⟨Nat.le_add_right _ _, ?_⟩, fun h => ?_, fun _ => ?_⟩
        · dsimp only
          rw [List.length_append]
          omega
        · rw [hchunked] at h
          cases h
        · refine ⟨chunkBytes cs ++ last, cs.flatMap Prod.snd, after, ⟨cs, last, hcs, hlast, rfl, rfl⟩, ?_, rfl,
            rfl, rfl⟩
          rw [List.append_assoc, List.append_assoc]
          exact hbuffer

/-- The header is in the buffer, and the lengths of the chunks of a request that `parseHeader` lets pass are a
`size_t`. -/
theorem frames_iff (hheader : request.headerSize ≤ buffer.length) (hlt : buffer.length < 2 ^ 63)
    (hfits : Fits request buffer) : Frames request buffer ↔ Sound request buffer := by
  cases hchunked : request.chunkedTransferEncoding with
  | false => exact frames_single hheader hlt hchunked
  | true => exact frames_chunked hheader hlt hchunked hfits

end Framing

/-! ### Two buffers -/

theorem sizeLines_cases {body : List UInt8} (h : SizeLines body p) : p = body ∨ ∃ data rest,
    lineEnd body = LF :: (data ++ (CR :: LF :: rest)) ∧ data.length = hexValue (lenDigits body) ∧ data ≠ [] ∧
      SizeLines rest p := by
  obtain ⟨cs, hcs, rfl, hne⟩ := h
  cases cs with
  | nil => exact .inl rfl
  | cons c cs =>
    obtain ⟨hc, hcs⟩ := List.forall_mem_cons.1 hcs
    obtain ⟨-, hvalue, hend⟩ := hc.line.append (c.2 ++ (CR :: LF :: (chunkBytes cs ++ p)))
    rw [chunkBytes_cons]
    exact .inr ⟨c.2, chunkBytes cs ++ p, hend, hvalue.symm, hc.ne_nil, cs, hcs, rfl, hne⟩

def postHeader : List UInt8 := text "POST /cool/insertfile HTTP/1.1\r\nTransfer-Encoding: chunked\r\n\r\n"

def postRequest : Request := ⟨postHeader.length, UNKNOWN_CONTENT_LENGTH, true⟩

/-- The chunk has arrived without its line break. -/
theorem not_frames : ¬ Frames postRequest (postHeader ++ text "5\r\nhello") := by
  rintro ⟨hinside, -⟩
  exact hinside (by decide +kernel)

/-- The whole request has arrived. -/
theorem frames_hello : Frames postRequest (postHeader ++ text "5\r\nhello\r\n0\r\n\r\n") := by
  have hbody : (postHeader ++ text "5\r\nhello\r\n0\r\n\r\n").drop postRequest.headerSize =
      text "5\r\nhello\r\n0\r\n\r\n" := by
    decide +kernel
  have hlines : ∀ p, SizeLines (text "5\r\nhello\r\n0\r\n\r\n") p →
      p = text "5\r\nhello\r\n0\r\n\r\n" ∨ p = text "0\r\n\r\n" := by
    intro p hp
    rcases sizeLines_cases hp with hp | ⟨data, rest, hend, hlen, -, hrest⟩
    · exact .inl hp
    · right
      have hline : lineEnd (text "5\r\nhello\r\n0\r\n\r\n") =
          LF :: (text "hello" ++ (CR :: LF :: text "0\r\n\r\n")) := by
        decide +kernel
      have hvalue : (text "hello").length = hexValue (lenDigits (text "5\r\nhello\r\n0\r\n\r\n")) := by decide +kernel
      have hsame := (List.append_inj (List.cons.inj (hline.symm.trans hend)).2 (hvalue.trans hlen.symm)).2
      obtain rfl : text "0\r\n\r\n" = rest := (List.cons.inj (List.cons.inj hsame).2).2
      -- the second length is that of no data
      rcases sizeLines_cases hrest with hp | ⟨data', rest', -, hlen', hne, -⟩
      · exact hp
      · have hzero : hexValue (lenDigits (text "0\r\n\r\n")) = 0 := by decide +kernel
        exact absurd (List.eq_nil_of_length_eq_zero (hlen'.trans hzero)) hne
  refine (frames_iff (by decide +kernel) (by decide +kernel) fun _ _ p hp => ?_).2 fun _ => ?_
  · rw [hbody] at hp
    rcases hlines p hp with rfl | rfl <;> decide +kernel
  · rw [if_pos (show postRequest.chunkedTransferEncoding = true from rfl), hbody]
    intro p hp
    rcases hlines p hp with rfl | rfl <;> unfold SoundLine <;> decide +kernel

end StreamSocket

end CollaboraOnline
