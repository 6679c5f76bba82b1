import CollaboraOnline.Common.Strtol

/-!
# Clipboards with several formats

A clipboard is a list of MIME types with their contents: a line with the type, a line with the length in hexadecimal
digits, the content and a line break (`common/Clipboard`).  `ClipboardData::read` gives back what was written, but
makes a string of every length that it is told before it looks whether there is as much to read: a length that no
string can have is not the `ParseError` that too short a content is (`read_iff`).
-/

namespace CollaboraOnline

open Http

/-- An input stream: what is left to read, and its `eofbit` and `failbit`. -/
structure InStream where
  rest : List UInt8
  eof : Bool := false
  fail : Bool := false
deriving DecidableEq

namespace InStream

def good (s : InStream) : Bool := !s.eof && !s.fail

/-- `std::getline` up to a line break. -/
def getline (s : InStream) : List UInt8 × InStream :=
  if s.good then
    match s.rest.dropWhile (· != LF) with
    | [] => (s.rest, { rest := [], eof := true, fail := s.rest.isEmpty })
    | _ :: rest => (s.rest.takeWhile (· != LF), { s with rest := rest })
  else ([], { s with fail := true })

/-- `istream::read` of `n` bytes. -/
def read (s : InStream) (n : Nat) : List UInt8 × InStream :=
  if s.good then
    if s.rest.length < n then (s.rest, { rest := [], eof := true, fail := true })
    else (s.rest.take n, { s with rest := s.rest.drop n })
  else ([], { s with fail := true })

end InStream

structure ClipboardData where
  mimeTypes : List (List UInt8) := []
  content : List (List UInt8) := []
deriving DecidableEq

namespace ClipboardData

/-- A `ParseError`, or the exception of a `std::string` that is too long or has no memory. -/
inductive Failure
  | parseError
  | badLength
deriving DecidableEq

/-- `uint64_t len = strtoll(...)`. -/
def length (hexLen : List UInt8) : Nat := (strtoll hexLen % 2 ^ 64).toNat

def isOwnFormat (s : InStream) : Bool :=
  if s.eof then false
  else
    let (mime, s) := s.getline
    if mime = [] then false
    else
      let (hexLen, _) := s.getline
      if hexLen = [] then false
      else length hexLen != 0

/-- One round of the loop of `read`; `canAllocate` says of which sizes there can be a `std::string`. -/
def readEntry (canAllocate : Nat → Bool) (s : InStream) (data : ClipboardData) :
    Except Failure (ClipboardData × InStream) :=
  let (mime, s) := s.getline
  let (hexLen, s) := s.getline
  if mime ≠ [] ∧ hexLen ≠ [] ∧ s.fail = false then
    let len := length hexLen
    if canAllocate len = false then .error .badLength
    else
      let (content, s) := s.read len
      if s.fail then .error .parseError
      else
        let (_, s) := s.getline
        .ok ({ mimeTypes := data.mimeTypes ++ [mime], content := data.content ++ [content] }, s)
  else .ok (data, s)

/-- What a good stream still has to give. -/
def left (s : InStream) : Nat := 2 * s.rest.length + if s.eof then 0 else 1

theorem left_getline_le (s : InStream) : left s.getline.2 ≤ left s := by
  unfold InStream.getline left
  split
  · rename_i hgood
    have hgood : s.eof = false := by
      unfold InStream.good at hgood
      simp_all
    have hdrop := List.length_dropWhile_le (· != LF) s.rest
    split
    · simp
    · rename_i hrest
      rw [hrest, List.length_cons] at hdrop
      simp only [hgood, Bool.false_eq_true, ↓reduceIte]
      omega
  · exact Nat.le_refl _

theorem left_getline_lt {s : InStream} (hgood : s.good = true) : left s.getline.2 < left s := by
  unfold InStream.getline left
  rw [if_pos hgood]
  have hgood : s.eof = false := by
    unfold InStream.good at hgood
    simp_all
  have hdrop := List.length_dropWhile_le (· != LF) s.rest
  split
  · simp [hgood]
  · rename_i hrest
    rw [hrest, List.length_cons] at hdrop
    simp only [hgood, Bool.false_eq_true, ↓reduceIte]
    omega

theorem left_read_le (s : InStream) (n : Nat) : left (s.read n).2 ≤ left s := by
  unfold InStream.read left
  split
  · split
    · simp
    · simp only [List.length_drop]
      omega
  · exact Nat.le_refl _

theorem left_readEntry {canAllocate : Nat → Bool} {s s' : InStream} {data data' : ClipboardData}
    (hgood : s.good = true) (h : readEntry canAllocate s data = .ok (data', s')) : left s' < left s := by
  have hfirst := left_getline_lt hgood
  have hsecond := left_getline_le s.getline.2
  unfold readEntry at h
  dsimp only at h
  split at h
  · split at h
    · cases h
    · split at h
      · cases h
      · obtain ⟨-, rfl⟩ := Prod.mk.inj (Except.ok.inj h)
        have hread := left_read_le s.getline.2.getline.2 (length s.getline.2.getline.1)
        have hthird := left_getline_le (s.getline.2.getline.2.read (length s.getline.2.getline.1)).2
        omega
  · obtain ⟨-, rfl⟩ := Prod.mk.inj (Except.ok.inj h)
    omega

def read (canAllocate : Nat → Bool) (s : InStream) (data : ClipboardData) : Except Failure ClipboardData :=
  if hgood : s.good = true then
    match h : readEntry canAllocate s data with
    | .error failure => .error failure
    | .ok (data', s') =>
      have := left_readEntry hgood h
      read canAllocate s' data'
  else .ok data
termination_by left s

/-! ### Lines -/

section Lines

variable {l r : List UInt8}

theorem getline_line (hl : LF ∉ l) : ({ rest := l ++ LF :: r } : InStream).getline = (l, { rest := r }) := by
  have hne : ∀ ch ∈ l, (ch != LF) = true := fun ch hch => bne_iff_ne.2 fun heq => hl (heq ▸ hch)
  unfold InStream.getline
  rw [if_pos (by rfl)]
  dsimp only
  rw [List.dropWhile_append_of_pos hne, List.takeWhile_append_of_pos hne]
  simp

theorem getline_last (hl : LF ∉ l) :
    ({ rest := l } : InStream).getline = (l, { rest := [], eof := true, fail := l.isEmpty }) := by
  have hne : ∀ ch ∈ l, (ch != LF) = true := fun ch hch => bne_iff_ne.2 fun heq => hl (heq ▸ hch)
  unfold InStream.getline
  rw [if_pos (by rfl)]
  dsimp only
  rw [List.dropWhile_eq_nil_iff.2 hne]

theorem getline_of_eof {s : InStream} (h : s.eof = true) : s.getline = ([], { s with fail := true }) := by
  unfold InStream.getline InStream.good
  rw [h]
  rfl

theorem read_bytes (l : List UInt8) (n : Nat) : ({ rest := l } : InStream).read n =
    if l.length < n then (l, { rest := [], eof := true, fail := true }) else (l.take n, { rest := l.drop n }) := by
  unfold InStream.read
  rw [if_pos (by rfl)]

/-- There is a line break, or not. -/
theorem line_cases (l : List UInt8) : LF ∉ l ∨ ∃ line rest, l = line ++ LF :: rest ∧ LF ∉ line := by
  by_cases h : LF ∈ l
  · obtain ⟨line, rest, hl, hline⟩ := List.eq_append_cons_of_mem h
    exact .inr ⟨line, rest, hl, hline⟩
  · exact .inl h

end Lines

/-! ### Lengths -/

def hexDigit (n : Nat) : UInt8 := if n < 10 then UInt8.ofNat (0x30 + n) else UInt8.ofNat (0x61 + (n - 10))

/-- The number as `std::hex` writes it. -/
def hexString (n : Nat) : List UInt8 := if n < 16 then [hexDigit n] else hexString (n / 16) ++ [hexDigit (n % 16)]

theorem hexDigitFromChar_hexDigit {n : Nat} (h : n < 16) : hexDigitFromChar (hexDigit n) = some n := by
  have hall : ∀ n < 16, hexDigitFromChar (hexDigit n) = some n := by decide
  exact hall n h

theorem hexString_ne_nil (n : Nat) : hexString n ≠ [] := by
  rw [hexString]
  split <;> simp

theorem isSome_of_mem_hexString (n : Nat) : ∀ ch ∈ hexString n, (hexDigitFromChar ch).isSome := by
  induction n using Nat.strong_induction_on with
  | _ n ih =>
    intro ch hch
    rw [hexString] at hch
    split at hch
    · rename_i hlt
      rw [List.mem_singleton.1 hch, hexDigitFromChar_hexDigit hlt]
      rfl
    · rcases List.mem_append.1 hch with hch | hch
      · exact ih (n / 16) (by omega) ch hch
      · rw [List.mem_singleton.1 hch, hexDigitFromChar_hexDigit (Nat.mod_lt n (by decide))]
        rfl

theorem hexValue_hexString (n : Nat) : hexValue (hexString n) = n := by
  induction n using Nat.strong_induction_on with
  | _ n ih =>
    rw [hexString]
    split
    · rename_i hlt
      simp [hexValue, hexDigitFromChar_hexDigit hlt]
    · have hdigits := ih (n / 16) (by omega)
      unfold hexValue at hdigits
      rw [hexValue, List.foldl_append, hdigits, List.foldl_cons, List.foldl_nil,
        hexDigitFromChar_hexDigit (Nat.mod_lt n (by decide)), Option.getD_some]
      omega

theorem length_hexString {n : Nat} (h : n < 2 ^ 63) : length (hexString n) = n := by
  have hvalue := hexValue_hexString n
  unfold length
  rw [strtoll_digits (isSome_of_mem_hexString n) (by omega), hvalue]
  omega

theorem LF_notMem_hexString (n : Nat) : LF ∉ hexString n := by
  intro hmem
  exact absurd (isSome_of_mem_hexString n LF hmem) (by decide)

/-! ### One entry -/

/-- What the bytes of a clipboard are told to have: the lengths in their entries, up to one that is not there in
full. -/
inductive Asks : List UInt8 → Nat → Prop
  | entry {mime hexLen rest : List UInt8} : mime ≠ [] → hexLen ≠ [] → LF ∉ mime → LF ∉ hexLen →
      Asks (mime ++ LF :: (hexLen ++ LF :: rest)) (length hexLen)
  /-- Nothing is behind the length. -/
  | last {mime hexLen : List UInt8} : mime ≠ [] → hexLen ≠ [] → LF ∉ mime → LF ∉ hexLen →
      Asks (mime ++ LF :: hexLen) (length hexLen)
  /-- Behind the content is the rest of a line. -/
  | later {mime hexLen content line rest : List UInt8} {n : Nat} : mime ≠ [] → hexLen ≠ [] → LF ∉ mime → LF ∉ hexLen →
      content.length = length hexLen → LF ∉ line → Asks rest n →
      Asks (mime ++ LF :: (hexLen ++ LF :: (content ++ (line ++ LF :: rest)))) n
  /-- Two lines of which one is empty are passed over. -/
  | skip {mime hexLen rest : List UInt8} {n : Nat} : mime = [] ∨ hexLen = [] → LF ∉ mime → LF ∉ hexLen → Asks rest n →
      Asks (mime ++ LF :: (hexLen ++ LF :: rest)) n

variable {canAllocate : Nat → Bool} {data : ClipboardData} {mime hexLen content line rest : List UInt8}

theorem read_good (data : ClipboardData) (l : List UInt8) : read canAllocate { rest := l } data =
    match readEntry canAllocate { rest := l } data with
    | .error failure => .error failure
    | .ok (data', s') => read canAllocate s' data' := by
  rw [read, dif_pos (by rfl)]
  split
  · rename_i h
    simp only [h]
  · rename_i h
    simp only [h]

theorem read_of_eof {s : InStream} (h : s.eof = true) (data : ClipboardData) :
    read canAllocate s data = .ok data := by
  rw [read, dif_neg (by simp [InStream.good, h])]

/-- The length is asked for before the content is read. -/
theorem read_entry (hmime : mime ≠ []) (hhex : hexLen ≠ []) (hm : LF ∉ mime) (hh : LF ∉ hexLen)
    (data : ClipboardData) : read canAllocate { rest := mime ++ LF :: (hexLen ++ LF :: rest) } data =
      if canAllocate (length hexLen) = false then .error .badLength
      else if rest.length < length hexLen then .error .parseError
      else read canAllocate (InStream.getline { rest := rest.drop (length hexLen) }).2
        { mimeTypes := data.mimeTypes ++ [mime], content := data.content ++ [rest.take (length hexLen)] } := by
  rw [read_good]
  unfold readEntry
  rw [getline_line hm]
  dsimp only
  rw [getline_line hh]
  dsimp only
  rw [if_pos ⟨hmime, hhex, rfl⟩]
  by_cases halloc : canAllocate (length hexLen) = false
  · rw [if_pos halloc, if_pos halloc]
  rw [if_neg halloc, if_neg halloc, read_bytes]
  by_cases hshort : rest.length < length hexLen
  · rw [if_pos hshort, if_pos hshort]
    rfl
  · rw [if_neg hshort, if_neg hshort]
    rfl

theorem read_last (hmime : mime ≠ []) (hhex : hexLen ≠ []) (hm : LF ∉ mime) (hh : LF ∉ hexLen)
    (data : ClipboardData) : read canAllocate { rest := mime ++ LF :: hexLen } data =
      if canAllocate (length hexLen) = false then .error .badLength else .error .parseError := by
  have hempty : hexLen.isEmpty = false := by
    rw [Bool.eq_false_iff, ne_eq, List.isEmpty_iff]
    exact hhex
  rw [read_good]
  unfold readEntry
  rw [getline_line hm]
  dsimp only
  rw [getline_last hh, hempty]
  dsimp only
  rw [if_pos ⟨hmime, hhex, rfl⟩]
  by_cases halloc : canAllocate (length hexLen) = false
  · rw [if_pos halloc, if_pos halloc]
  rw [if_neg halloc, if_neg halloc]
  rfl

theorem read_skip (h : mime = [] ∨ hexLen = []) (hm : LF ∉ mime) (hh : LF ∉ hexLen) (data : ClipboardData) :
    read canAllocate { rest := mime ++ LF :: (hexLen ++ LF :: rest) } data =
      read canAllocate { rest := rest } data := by
  rw [read_good]
  unfold readEntry
  rw [getline_line hm]
  dsimp only
  rw [getline_line hh]
  dsimp only
  rw [if_neg (by rintro ⟨hmime, hhex, -⟩; exact h.elim hmime hhex)]

/-- A single line is passed over. -/
theorem read_line (h : LF ∉ line) (data : ClipboardData) : read canAllocate { rest := line } data = .ok data := by
  rw [read_good]
  unfold readEntry
  rw [getline_last h]
  dsimp only
  rw [getline_of_eof rfl]
  dsimp only
  rw [if_neg fun hboth => hboth.2.1 rfl]
  exact read_of_eof rfl data

/-! ### What is asked for -/

/-- A length that no string can have is not a `ParseError`. -/
theorem badLength_of_asks {l : List UInt8} {n : Nat} (h : Asks l n) (hn : canAllocate n = false)
    (data : ClipboardData) : read canAllocate { rest := l } data = .error .badLength := by
  induction h generalizing data with
  | entry hmime hhex hm hh => rw [read_entry hmime hhex hm hh, if_pos hn]
  | last hmime hhex hm hh => rw [read_last hmime hhex hm hh, if_pos hn]
  | @later mime hexLen content line rest n hmime hhex hm hh hcontent hline _ ih =>
    rw [read_entry hmime hhex hm hh]
    by_cases halloc : canAllocate (length hexLen) = false
    · rw [if_pos halloc]
    · rw [if_neg halloc, if_neg (by rw [List.length_append]; omega), ← hcontent, List.drop_left, getline_line hline]
      exact ih hn _
  | skip hempty hm hh _ ih =>
    rw [read_skip hempty hm hh]
    exact ih hn _

theorem asks_of_badLength {l : List UInt8} {data : ClipboardData}
    (h : read canAllocate { rest := l } data = .error .badLength) : ∃ n, Asks l n ∧ canAllocate n = false := by
  induction hk : l.length using Nat.strong_induction_on generalizing l data with
  | _ k ih =>
    rcases line_cases l with hline | ⟨mime, r, rfl, hm⟩
    · rw [read_line hline] at h
      cases h
    rcases line_cases r with hr | ⟨hexLen, rest, rfl, hh⟩
    · by_cases hboth : mime ≠ [] ∧ r ≠ []
      · rw [read_last hboth.1 hboth.2 hm hr] at h
        split at h
        · rename_i halloc
          exact ⟨_, .last hboth.1 hboth.2 hm hr, halloc⟩
        · cases h
      · -- The second line is empty or the first one is, and the stream ends with it.
        rw [read_good] at h
        unfold readEntry at h
        rw [getline_line hm] at h
        dsimp only at h
        rw [getline_last hr] at h
        dsimp only at h
        rw [if_neg fun hall => hboth ⟨hall.1, hall.2.1⟩] at h
        dsimp only at h
        rw [read_of_eof rfl] at h
        cases h
    simp only [List.length_append, List.length_cons] at hk
    by_cases hempty : mime = [] ∨ hexLen = []
    · rw [read_skip hempty hm hh] at h
      obtain ⟨n, hasks, hn⟩ := ih rest.length (by omega) h rfl
      exact ⟨n, .skip hempty hm hh hasks, hn⟩
    obtain ⟨hmime, hhex⟩ := not_or.1 hempty
    rw [read_entry hmime hhex hm hh] at h
    split at h
    · rename_i halloc
      exact ⟨_, .entry hmime hhex hm hh, halloc⟩
    split at h
    · cases h
    rename_i hlong
    have hlength : (rest.take (length hexLen)).length = length hexLen := by
      rw [List.length_take]
      omega
    rcases line_cases (rest.drop (length hexLen)) with hlast | ⟨line, more, hmore, hline⟩
    · rw [getline_last hlast, read_of_eof rfl] at h
      cases h
    · rw [hmore, getline_line hline] at h
      have hshorter := congrArg List.length hmore
      simp only [List.length_drop, List.length_append, List.length_cons] at hshorter
      obtain ⟨n, hasks, hn⟩ := ih more.length (by omega) h rfl
      refine ⟨n, ?_, hn⟩
      rw [← List.take_append_drop (length hexLen) rest, hmore]
      exact .later hmime hhex hm hh hlength hline hasks

/-! ### What was written -/

/-- The entries as `getClipboard` writes them. -/
def encode (items : List (List UInt8 × List UInt8)) : List UInt8 :=
  items.flatMap fun item => item.1 ++ LF :: (hexString item.2.length ++ LF :: (item.2 ++ [LF]))

theorem encode_cons (mime content : List UInt8) (items : List (List UInt8 × List UInt8)) :
    encode ((mime, content) :: items) =
      mime ++ LF :: (hexString content.length ++ LF :: (content ++ ([] ++ LF :: encode items))) := by
  simp [encode]

theorem read_encode (hmax : ∀ n, canAllocate n = true → n < 2 ^ 63) {items : List (List UInt8 × List UInt8)}
    (h : ∀ item ∈ items, item.1 ≠ [] ∧ LF ∉ item.1 ∧ canAllocate item.2.length = true) (data : ClipboardData) :
    read canAllocate { rest := encode items } data =
      .ok { mimeTypes := data.mimeTypes ++ items.map Prod.fst, content := data.content ++ items.map Prod.snd } := by
  induction items generalizing data with
  | nil =>
    rw [encode, List.flatMap_nil, read_line List.not_mem_nil]
    simp
  | cons item items ih =>
    obtain ⟨mime, content⟩ := item
    obtain ⟨hmime, hm, halloc⟩ := h _ List.mem_cons_self
    have hlength : length (hexString content.length) = content.length := length_hexString (hmax _ halloc)
    rw [encode_cons, read_entry hmime (hexString_ne_nil _) hm (LF_notMem_hexString _), hlength,
      if_neg (by simp [halloc]),
      if_neg (by rw [List.length_append]; omega), List.drop_left, List.take_left, getline_line List.not_mem_nil,
      ih fun item hitem => h item (List.mem_cons_of_mem _ hitem)]
    simp

/-- An entry with some content is known as one. -/
theorem isOwnFormat_encode (hmime : mime ≠ []) (hm : LF ∉ mime) (hfits : content.length < 2 ^ 63)
    (items : List (List UInt8 × List UInt8)) :
    isOwnFormat { rest := encode ((mime, content) :: items) } = !content.isEmpty := by
  rw [encode_cons]
  unfold isOwnFormat
  rw [if_neg (by simp), getline_line hm]
  dsimp only
  rw [if_neg hmime, getline_line (LF_notMem_hexString _)]
  dsimp only
  rw [if_neg (hexString_ne_nil _), length_hexString hfits]
  cases content with
  | nil => rfl
  | cons ch content => rfl

/-- What was written is read back; and reading anything ends normally or with a `ParseError` if there can be a string
of every length that is asked for. -/
theorem read_iff {canAllocate : Nat → Bool} (hmax : ∀ n, canAllocate n = true → n < 2 ^ 63) :
    (∀ items : List (List UInt8 × List UInt8),
      (∀ item ∈ items, item.1 ≠ [] ∧ LF ∉ item.1 ∧ canAllocate item.2.length = true) →
        read canAllocate { rest := encode items } {} =
          .ok { mimeTypes := items.map Prod.fst, content := items.map Prod.snd }) ∧
    ∀ l : List UInt8, read canAllocate { rest := l } {} ≠ .error .badLength ↔ ∀ n, Asks l n →
      canAllocate n = true := by
  refine ⟨fun items h => by simpa using read_encode hmax h {},
    fun l => ⟨fun hread n hasks => ?_, fun hall hbad => ?_⟩⟩
  · by_contra halloc
    exact hread (badLength_of_asks hasks (Bool.of_not_eq_true halloc) _)
  · obtain ⟨n, hasks, hn⟩ := asks_of_badLength hbad
    rw [hall n hasks] at hn
    cases hn

/-- The line break in the content is read as it is. -/
theorem read_iff_text : read (fun n => n < 2 ^ 63 - 1) { rest := text "text/plain\n3\na\nb\n" } {} =
    .ok { mimeTypes := [text "text/plain"], content := [text "a\nb"] } := by
  have hmax : ∀ n, (fun n => decide (n < 2 ^ 63 - 1)) n = true → n < 2 ^ 63 := fun n hn => by
    rw [decide_eq_true_iff] at hn
    omega
  have hread := (read_iff hmax).1 [(text "text/plain", text "a\nb")] (by decide)
  have hlength : hexString (text "a\nb").length = [0x33] := by
    rw [hexString]
    decide
  have hencode : encode [(text "text/plain", text "a\nb")] = text "text/plain\n3\na\nb\n" := by
    rw [encode_cons, hlength]
    decide
  rw [hencode] at hread
  exact hread

/-- The length -1 is that of no string. -/
theorem not_read : ¬ ∀ canAllocate : Nat → Bool, (∀ n, canAllocate n = true → n < 2 ^ 63) →
    ∀ l : List UInt8, read canAllocate { rest := l } {} ≠ .error .badLength := by
  intro h
  refine h (fun n => n < 2 ^ 63 - 1) (fun n hn => by rw [decide_eq_true_iff] at hn; omega) (text "a\n-1\n") ?_
  have hasks : Asks (text "a" ++ LF :: (text "-1" ++ LF :: [])) (length (text "-1")) :=
    .entry (by decide) (by decide) (by decide) (by decide)
  have htext : text "a" ++ LF :: (text "-1" ++ LF :: []) = text "a\n-1\n" := by decide
  rw [htext] at hasks
  exact badLength_of_asks hasks (by decide) _

end ClipboardData

end CollaboraOnline
