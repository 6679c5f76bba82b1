import CollaboraOnline.Common.StringVector
import CollaboraOnline.Common.Strtol
import CollaboraOnline.Lib.Search

/-!
# Tokens and their string

`StringVector` keeps a string with the index and the length of each token.  The pointer loop that is written out in
`tokenize`, `tokenize_foreach` and `tokenizeInts` cuts out the longest parts without the delimiter up to a line break
(`cut_isRuns`), which are the tokens that other modules take as texts (`texts_tokenize`).  `equals` compares a token
with a text as `operator[]` gives it, but for the last token of a delimiter string: its length is not that of the rest
of the string (`tokens_iff`).
-/

namespace CollaboraOnline

open Http Search

/-! ### The pointer loop -/

/-- The loop from the byte `i` on: the start and the end of each token.  What `*start` is read for is there: `start`
is at most `i`, and before it where the loop ends. -/
def cutFrom (data : List UInt8) (delimiter : UInt8) : Nat → Nat → List UInt8 → List (Nat × Nat)
  | start, i, [] => if start ≠ i ∧ data.getD start 0 ≠ delimiter ∧ data.getD start 0 ≠ LF then [(start, i)] else []
  | start, i, ch :: rest =>
    if ch = LF then
      if start ≠ i ∧ data.getD start 0 ≠ delimiter ∧ data.getD start 0 ≠ LF then [(start, i)] else []
    else if ch = delimiter then
      if start ≠ i ∧ data.getD start 0 ≠ delimiter then (start, i) :: cutFrom data delimiter i (i + 1) rest
      else cutFrom data delimiter i (i + 1) rest
    else if data.getD start 0 = delimiter then cutFrom data delimiter (start + 1) (i + 1) rest
    else cutFrom data delimiter start (i + 1) rest

def cut (data : List UInt8) (delimiter : UInt8) : List (Nat × Nat) := cutFrom data delimiter 0 0 data

structure StringToken where
  index : Nat
  length : Nat
deriving DecidableEq, Repr

/-- `StringVector` with its string. -/
structure TokenizedString where
  string : List UInt8 := []
  tokens : List StringToken := []
deriving DecidableEq

namespace TokenizedString

/-- `tokenize(data, size, delimiter, tokens)`. -/
def tokenizeInto (data : List UInt8) (delimiter : UInt8) : List StringToken :=
  if data = [] ∨ data.head? = some 0 then [] else (cut data delimiter).map fun run => ⟨run.1, run.2 - run.1⟩

/-- The calls of `func` until it returns true. -/
def callEach (func : Nat → List UInt8 → Bool) : Nat → List (List UInt8) → List (Nat × List UInt8)
  | _, [] => []
  | index, token :: tokens =>
    if func index token then [(index, token)] else (index, token) :: callEach func (index + 1) tokens

/-- The bytes of a token. -/
def textOf (data : List UInt8) (run : Nat × Nat) : List UInt8 := (data.drop run.1).take (run.2 - run.1)

/-- `tokenize_foreach`: the calls of the callback. -/
def tokenizeForeach (func : Nat → List UInt8 → Bool) (data : List UInt8) (delimiter : UInt8) :
    List (Nat × List UInt8) :=
  if data = [] ∨ data.head? = some 0 then [] else callEach func 0 ((cut data delimiter).map (textOf data))

/-- `tokenizeInts`: `atoi` is given the start of the token only, and `behind` is what is in memory behind the data. -/
def tokenizeInts (data behind : List UInt8) (delimiter : UInt8) : List Int :=
  if data = [] then [] else (cut data delimiter).map fun run => atoi ((data ++ behind).drop run.1)

/-- `tokenize` by one character. -/
def tokenize (s : List UInt8) (delimiter : UInt8) : TokenizedString :=
  if s = [] ∨ s.head? = some 0 then {} else { string := s, tokens := tokenizeInto s delimiter }

def npos : Nat := 2 ^ 64 - 1

/-- `s.find(delimiter, start)`. -/
def findFrom (s delimiter : List UInt8) (start : Nat) : Option Nat := (find delimiter (s.drop start)).map (start + ·)

theorem findFrom_spec {s delimiter : List UInt8} {start i : Nat} (hne : delimiter ≠ [])
    (h : findFrom s delimiter start = some i) : start ≤ i ∧ i + delimiter.length ≤ s.length := by
  obtain ⟨j, hj, rfl⟩ := Option.map_eq_some_iff.1 h
  have hle := (find_eq_some.1 hj).occurs.le hne
  rw [List.length_drop] at hle
  have hpos := List.length_pos_iff.2 hne
  omega

/-- The tokens from `start` on.  The last one ends at `npos`. -/
def stringTokens (s delimiter : List UInt8) (start : Nat) : List StringToken :=
  if hne : delimiter = [] then []
  else
    match h : findFrom s delimiter start with
    | none => [⟨start, npos - start⟩]
    | some stop =>
      have := findFrom_spec hne h
      have := List.length_pos_iff.2 hne
      ⟨start, stop - start⟩ :: stringTokens s delimiter (stop + delimiter.length)
termination_by s.length - start

/-- `tokenize` by a delimiter string. -/
def tokenizeByString (s delimiter : List UInt8) : TokenizedString :=
  if s = [] ∨ delimiter = [] then {} else { string := s, tokens := stringTokens s delimiter 0 }

/-- `operator[]`; `none` is the exception of `substr` for an index behind the string. -/
def get (v : TokenizedString) (index : Nat) : Option (List UInt8) :=
  match v.tokens[index]? with
  | none => some []
  | some token => if token.index ≤ v.string.length then some ((v.string.drop token.index).take token.length) else none

/-- `equals`: two `std::string_view`s are compared by their sizes first; `none` where a byte outside of the string is
read. -/
def equals (v : TokenizedString) (index : Nat) (string : List UInt8) : Option Bool :=
  match v.tokens[index]? with
  | none => some false
  | some token =>
    if token.length ≠ string.length then some false
    else if token.index + token.length ≤ v.string.length then
      some ((v.string.drop token.index).take token.length == string)
    else none

end TokenizedString

/-! ### The longest parts without the delimiter -/

section Runs

variable {data rest : List UInt8} {delimiter : UInt8} {start i : Nat} {p : Nat × Nat}

/-- A part of the first line without the delimiter, between delimiters or the ends of the line. -/
structure MaximalRun (data : List UInt8) (delimiter : UInt8) (p : Nat × Nat) : Prop where
  lt : p.1 < p.2
  le : p.2 ≤ findLineBreak data
  free : ∀ j, p.1 ≤ j → j < p.2 → data[j]? ≠ some delimiter
  before : p.1 = 0 ∨ data[p.1 - 1]? = some delimiter
  after : p.2 = findLineBreak data ∨ data[p.2]? = some delimiter

/-- All of them, in order. -/
structure IsRuns (data : List UInt8) (delimiter : UInt8) (runs : List (Nat × Nat)) : Prop where
  sorted : runs.Pairwise fun p q => p.2 ≤ q.1
  mem : ∀ p, p ∈ runs ↔ MaximalRun data delimiter p

/-- The loop is at the byte `i`. -/
structure AtByte (data : List UInt8) (i : Nat) (rest : List UInt8) : Prop where
  drop : data.drop i = rest
  le : i ≤ findLineBreak data

theorem findLineBreak_cons (ch : UInt8) (l : List UInt8) :
    findLineBreak (ch :: l) = if ch = LF then 0 else findLineBreak l + 1 := by
  unfold findLineBreak
  by_cases hch : ch = LF
  · rw [if_pos hch, List.takeWhile_cons_of_neg (by simp [hch]), List.length_nil]
  · rw [if_neg hch, List.takeWhile_cons_of_pos (by simp [hch]), List.length_cons]

theorem findLineBreak_le (l : List UInt8) : findLineBreak l ≤ l.length := by
  induction l with
  | nil => exact Nat.le_refl _
  | cons ch l ih =>
    rw [findLineBreak_cons, List.length_cons]
    split
    · exact Nat.zero_le _
    · omega

theorem not_LF_of_lt {l : List UInt8} {j : Nat} {ch : UInt8} (h : j < findLineBreak l) (hj : l[j]? = some ch) :
    ch ≠ LF := by
  induction l generalizing j with
  | nil => cases hj
  | cons x l ih =>
    rw [findLineBreak_cons] at h
    split at h
    · exact absurd h (Nat.not_lt_zero j)
    · rename_i hx
      cases j with
      | zero =>
        obtain rfl : x = ch := Option.some.inj hj
        exact hx
      | succ j => exact ih (Nat.lt_of_succ_lt_succ h) hj

theorem LF_of_findLineBreak {l : List UInt8} {ch : UInt8} (h : l[findLineBreak l]? = some ch) : ch = LF := by
  induction l with
  | nil => cases h
  | cons x l ih =>
    rw [findLineBreak_cons] at h
    split at h
    · rename_i hx
      rw [← Option.some.inj h, hx]
    · exact ih h

theorem AtByte.end_nil (h : AtByte data i []) : i = findLineBreak data := by
  have hlen := congrArg List.length h.drop
  rw [List.length_drop, List.length_nil] at hlen
  have hle := findLineBreak_le data
  have := h.le
  omega

theorem AtByte.get {ch : UInt8} (h : AtByte data i (ch :: rest)) : data[i]? = some ch := by
  have hget := congrArg (·[0]?) h.drop
  simpa using hget

theorem AtByte.end_LF (h : AtByte data i (LF :: rest)) : i = findLineBreak data := by
  rcases Nat.eq_or_lt_of_le h.le with heq | hlt
  · exact heq
  · exact absurd rfl (not_LF_of_lt hlt h.get)

theorem AtByte.next {ch : UInt8} (h : AtByte data i (ch :: rest)) (hch : ch ≠ LF) : AtByte data (i + 1) rest := by
  refine ⟨by rw [← List.drop_drop, h.drop]; rfl, ?_⟩
  rcases Nat.eq_or_lt_of_le h.le with heq | hlt
  · exact absurd (LF_of_findLineBreak (heq ▸ h.get)) hch
  · exact hlt

/-- A token has begun. -/
structure Opened (data : List UInt8) (delimiter : UInt8) (start i : Nat) : Prop where
  lt : start < i
  free : ∀ j, start ≤ j → j < i → data[j]? ≠ some delimiter
  before : start = 0 ∨ data[start - 1]? = some delimiter

/-- No token has begun: the loop is at its first byte, or `start` is at a delimiter. -/
def Closed (data : List UInt8) (delimiter : UInt8) (start i : Nat) : Prop :=
  (start = 0 ∧ i = 0) ∨ (start + 1 = i ∧ data[start]? = some delimiter)

theorem Closed.not_opened (h : Closed data delimiter start i) : ¬ Opened data delimiter start i := by
  intro hopen
  rcases h with ⟨rfl, rfl⟩ | ⟨rfl, hdelim⟩
  · exact absurd hopen.lt (lt_irrefl 0)
  · exact hopen.free start (Nat.le_refl _) (Nat.lt_succ_self _) hdelim

/-- A token that is open at the end of the line ends there. -/
theorem Opened.run_iff (h : Opened data delimiter start i) (hend : i = findLineBreak data ∨ data[i]? = some delimiter)
    (hle : i ≤ findLineBreak data) : MaximalRun data delimiter p ∧ p.1 = start ↔ p = (start, i) := by
  constructor
  · rintro ⟨hrun, rfl⟩
    refine Prod.ext rfl ?_
    show p.2 = i
    rcases Nat.lt_trichotomy p.2 i with hlt | heq | hlt
    · rcases hrun.after with hline | hdelim
      · omega
      · exact absurd hdelim (h.free p.2 hrun.lt.le hlt)
    · exact heq
    · rcases hend with hline | hdelim
      · have := hrun.le
        omega
      · exact absurd hdelim (hrun.free i h.lt.le hlt)
  · rintro rfl
    exact ⟨⟨h.lt, hle, h.free, h.before, hend⟩, rfl⟩

theorem Opened.getD (h : Opened data delimiter start i) (hle : i ≤ findLineBreak data) :
    data.getD start 0 ≠ delimiter ∧ data.getD start 0 ≠ LF := by
  have hlt := h.lt.trans_le (hle.trans (findLineBreak_le data))
  have hget : data[start]? = some data[start] := List.getElem?_eq_getElem hlt
  rw [List.getD_eq_getElem?_getD, hget, Option.getD_some]
  constructor
  · intro heq
    exact h.free start (Nat.le_refl _) h.lt (heq ▸ hget)
  · exact not_LF_of_lt (h.lt.trans_le hle) hget

theorem getD_of_get {j : Nat} {ch : UInt8} (h : data[j]? = some ch) : data.getD j 0 = ch := by
  rw [List.getD_eq_getElem?_getD, h, Option.getD_some]

theorem Opened.finish (h : Opened data delimiter start i) (hle : i ≤ findLineBreak data) :
    (if start ≠ i ∧ data.getD start 0 ≠ delimiter ∧ data.getD start 0 ≠ LF then [(start, i)] else []) =
    [(start, i)] :=
  if_pos ⟨h.lt.ne, h.getD hle⟩

theorem Closed.finish (h : Closed data delimiter start i) :
    (if start ≠ i ∧ data.getD start 0 ≠ delimiter ∧ data.getD start 0 ≠ LF then [(start, i)] else []) = [] := by
  refine if_neg ?_
  rintro ⟨hne, hdelim, -⟩
  rcases h with ⟨rfl, rfl⟩ | ⟨rfl, hget⟩
  · exact hne rfl
  · exact hdelim (getD_of_get hget)

/-- At the end of the line. -/
theorem mem_finish (hend : i = findLineBreak data)
    (hstate : Opened data delimiter start i ∨ Closed data delimiter start i) :
    p ∈ (if start ≠ i ∧ data.getD start 0 ≠ delimiter ∧ data.getD start 0 ≠ LF then [(start, i)] else []) ↔
      MaximalRun data delimiter p ∧ (Opened data delimiter start i ∧ p.1 = start ∨ i ≤ p.1) := by
  have hnone (hrun : MaximalRun data delimiter p) : ¬ i ≤ p.1 := by
    have := hrun.lt
    have := hrun.le
    omega
  rcases hstate with hopen | hclosed
  · rw [hopen.finish hend.le, List.mem_singleton, ← hopen.run_iff (.inl hend) hend.le]
    refine and_congr_right fun hrun => ?_
    rw [or_iff_left (hnone hrun)]
    exact (and_iff_right hopen).symm
  · rw [hclosed.finish]
    refine iff_of_false List.not_mem_nil ?_
    rintro ⟨hrun, ⟨hopen, -⟩ | hle⟩
    · exact hclosed.not_opened hopen
    · exact hnone hrun hle

/-- At a delimiter the open token ends. -/
theorem Opened.cutFrom_delimiter (hopen : Opened data delimiter start i) (hat : AtByte data i (delimiter :: rest))
    (hLF : delimiter ≠ LF) :
    cutFrom data delimiter start i (delimiter :: rest) = (start, i) :: cutFrom data delimiter i (i + 1) rest := by
  rw [cutFrom, if_neg hLF, if_pos rfl, if_pos ⟨hopen.lt.ne, (hopen.getD hat.le).1⟩]

theorem Closed.cutFrom_delimiter (hclosed : Closed data delimiter start i) (hLF : delimiter ≠ LF) :
    cutFrom data delimiter start i (delimiter :: rest) = cutFrom data delimiter i (i + 1) rest := by
  rw [cutFrom, if_neg hLF, if_pos rfl, if_neg]
  rintro ⟨hne, hother⟩
  rcases hclosed with ⟨rfl, rfl⟩ | ⟨rfl, hprev⟩
  · exact hne rfl
  · exact hother (getD_of_get hprev)

/-- At another byte the token goes on, or begins. -/
theorem cutFrom_byte {ch : UInt8} (hat : AtByte data i (ch :: rest)) (hLF : ch ≠ LF) (hdelim : ch ≠ delimiter)
    (hstate : Opened data delimiter start i ∨ Closed data delimiter start i) :
    ∃ start', cutFrom data delimiter start i (ch :: rest) = cutFrom data delimiter start' (i + 1) rest ∧
      Opened data delimiter start' (i + 1) ∧
      (Opened data delimiter start i ∧ start' = start ∨ Closed data delimiter start i ∧ start' = i) := by
  have hget := hat.get
  have hnot : data[i]? ≠ some delimiter := by
    rw [hget]
    exact fun heq => hdelim (Option.some.inj heq)
  rw [cutFrom, if_neg hLF, if_neg hdelim]
  rcases hstate with hopen | hclosed
  · refine ⟨start, by rw [if_neg (hopen.getD hat.le).1],
      ⟨hopen.lt.trans (Nat.lt_succ_self i), fun j hj hlt => ?_, hopen.before⟩, .inl ⟨hopen, rfl⟩⟩
    rcases Nat.eq_or_lt_of_le (Nat.le_of_lt_succ hlt) with rfl | hlt
    · exact hnot
    · exact hopen.free j hj hlt
  · refine ⟨i, ?_, ⟨Nat.lt_succ_self i, fun j hj hlt => ?_, ?_⟩, .inr ⟨hclosed, rfl⟩⟩
    · rcases hclosed with ⟨rfl, rfl⟩ | ⟨rfl, hprev⟩
      · rw [if_neg (by rw [getD_of_get hget]; exact hdelim)]
      · rw [if_pos (getD_of_get hprev)]
    · obtain rfl : j = i := by omega
      exact hnot
    · rcases hclosed with ⟨-, hi⟩ | ⟨rfl, hprev⟩
      · exact .inl hi
      · exact .inr hprev

/-- What is left to cut: the open token, and all that begin later. -/
theorem mem_cutFrom (hat : AtByte data i rest)
    (hstate : Opened data delimiter start i ∨ Closed data delimiter start i) :
    p ∈ cutFrom data delimiter start i rest ↔
      MaximalRun data delimiter p ∧ (Opened data delimiter start i ∧ p.1 = start ∨ i ≤ p.1) := by
  induction rest generalizing start i with
  | nil =>
    rw [cutFrom]
    exact mem_finish hat.end_nil hstate
  | cons ch rest ih =>
    by_cases hLF : ch = LF
    · subst hLF
      rw [cutFrom, if_pos rfl]
      exact mem_finish hat.end_LF hstate
    have hget := hat.get
    have hnext := hat.next hLF
    by_cases hdelim : ch = delimiter
    · subst hdelim
      have hclosed : Closed data ch i (i + 1) := .inr ⟨rfl, hget⟩
      have hrest : p ∈ cutFrom data ch i (i + 1) rest ↔ MaximalRun data ch p ∧ i ≤ p.1 := by
        rw [ih hnext (.inr hclosed)]
        refine and_congr_right fun hrun => ?_
        rw [or_iff_right fun hboth => hclosed.not_opened hboth.1]
        -- No part begins at the delimiter.
        refine ⟨fun hle => by omega, fun hle => ?_⟩
        rcases Nat.eq_or_lt_of_le hle with heq | hlt
        · exact absurd hget (hrun.free i heq.symm.le (heq ▸ hrun.lt))
        · exact hlt
      rcases hstate with hopen | hshut
      · rw [hopen.cutFrom_delimiter hat hLF, List.mem_cons, hrest, ← hopen.run_iff (.inr hget) hat.le, ← and_or_left,
          and_iff_right hopen]
      · rw [hshut.cutFrom_delimiter hLF, hrest]
        refine and_congr_right fun _ => ?_
        rw [or_iff_right fun hboth => hshut.not_opened hboth.1]
    · obtain ⟨start', hcut, hopen', hstart⟩ := cutFrom_byte hat hLF hdelim hstate
      rw [hcut, ih hnext (.inl hopen'), and_iff_right hopen']
      refine and_congr_right fun hrun => ?_
      rcases hstart with ⟨hopen, rfl⟩ | ⟨hshut, rfl⟩
      · rw [and_iff_right hopen]
        refine or_congr_right ⟨fun hle => by omega, fun hle => ?_⟩
        rcases Nat.eq_or_lt_of_le hle with heq | hlt
        · -- A part does not begin within the open token.
          have hpos := hopen.lt
          rcases hrun.before with hzero | hprev
          · omega
          · exact absurd (heq ▸ hprev) (hopen.free (i - 1) (by omega) (by omega))
        · exact hlt
      · constructor
        · intro hle
          exact .inr (by omega)
        · rintro (hboth | hle)
          · exact absurd hboth.1 hshut.not_opened
          · omega

/-- The loop cuts from the start to the end. -/
theorem sorted_cutFrom (hat : AtByte data i rest)
    (hstate : Opened data delimiter start i ∨ Closed data delimiter start i) :
    (cutFrom data delimiter start i rest).Pairwise fun p q => p.2 ≤ q.1 := by
  induction rest generalizing start i with
  | nil =>
    rw [cutFrom]
    split
    · exact List.pairwise_singleton _ _
    · exact List.Pairwise.nil
  | cons ch rest ih =>
    by_cases hLF : ch = LF
    · rw [cutFrom, if_pos hLF]
      split
      · exact List.pairwise_singleton _ _
      · exact List.Pairwise.nil
    have hnext := hat.next hLF
    by_cases hdelim : ch = delimiter
    · subst hdelim
      have hclosed : Closed data ch i (i + 1) := .inr ⟨rfl, hat.get⟩
      have hrest := ih hnext (.inr hclosed)
      rcases hstate with hopen | hshut
      · rw [hopen.cutFrom_delimiter hat hLF]
        refine List.pairwise_cons.2 ⟨fun q hq => ?_, hrest⟩
        rcases ((mem_cutFrom hnext (.inr hclosed)).1 hq).2 with hboth | hle
        · exact absurd hboth.1 hclosed.not_opened
        · exact (Nat.le_succ i).trans hle
      · rw [hshut.cutFrom_delimiter hLF]
        exact hrest
    · obtain ⟨start', hcut, hopen', -⟩ := cutFrom_byte hat hLF hdelim hstate
      rw [hcut]
      exact ih hnext (.inl hopen')

theorem cut_isRuns (data : List UInt8) (delimiter : UInt8) : IsRuns data delimiter (cut data delimiter) := by
  have hat : AtByte data 0 data := ⟨rfl, Nat.zero_le _⟩
  have hclosed : Closed data delimiter 0 0 := .inl ⟨rfl, rfl⟩
  refine ⟨sorted_cutFrom hat (.inr hclosed), fun p => ?_⟩
  rw [cut, mem_cutFrom hat (.inr hclosed)]
  exact and_iff_left (.inr (Nat.zero_le _))

end Runs

namespace TokenizedString

section Tokens

variable {data behind s delimiter string : List UInt8} {ch : UInt8} {index start : Nat}

/-! ### Tokens and their text -/

theorem callEach_never {func : Nat → List UInt8 → Bool} (hfunc : ∀ index token, func index token = false)
    (tokens : List (List UInt8)) :
    callEach func index tokens = (tokens.zipIdx index).map Prod.swap := by
  induction tokens generalizing index with
  | nil => rfl
  | cons token tokens ih =>
    rw [callEach, hfunc, if_neg Bool.false_ne_true, ih, List.zipIdx_cons, List.map_cons]
    rfl

/-- A run lies in the data. -/
theorem run_le {run : Nat × Nat} (h : MaximalRun data ch run) : run.1 + (run.2 - run.1) ≤ data.length := by
  have hlt := h.lt
  have hle := h.le.trans (findLineBreak_le data)
  omega

/-- Where `atoi` reads on behind a run. -/
theorem drop_run {run : Nat × Nat} (h : MaximalRun data ch run) :
    (data ++ behind).drop run.1 = textOf data run ++ (data ++ behind).drop run.2 := by
  have hlen := run_le h
  have htext : ((data ++ behind).drop run.1).take (run.2 - run.1) = textOf data run := by
    rw [textOf, List.drop_append_of_le_length (by omega),
      List.take_append_of_le_length (by rw [List.length_drop]; omega)]
  have hrest : ((data ++ behind).drop run.1).drop (run.2 - run.1) = (data ++ behind).drop run.2 := by
    rw [List.drop_drop, Nat.add_sub_cancel' h.lt.le]
  rw [← htext, ← hrest, List.take_append_drop]

theorem tokenizeInto_eq (hnul : data.head? ≠ some 0) :
    tokenizeInto data ch = (cut data ch).map fun run => ⟨run.1, run.2 - run.1⟩ := by
  unfold tokenizeInto
  split
  · rename_i h
    rw [h.resolve_right hnul]
    rfl
  · rfl

theorem tokenizeForeach_eq (hnul : data.head? ≠ some 0) {func : Nat → List UInt8 → Bool}
    (hfunc : ∀ index token, func index token = false) :
    tokenizeForeach func data ch = ((cut data ch).map (textOf data)).zipIdx.map Prod.swap := by
  unfold tokenizeForeach
  split
  · rename_i h
    rw [h.resolve_right hnul]
    rfl
  · exact callEach_never hfunc _

theorem tokenizeInts_eq :
    tokenizeInts data behind ch = (cut data ch).map fun run => atoi ((data ++ behind).drop run.1) := by
  unfold tokenizeInts
  split
  · rename_i h
    rw [h]
    rfl
  · rfl

theorem tokenize_eq (hnul : data.head? ≠ some 0) : tokenize data ch = ⟨data, tokenizeInto data ch⟩ := by
  unfold tokenize
  split
  · rename_i h
    rw [h.resolve_right hnul]
    rfl
  · rfl

/-- What the three loops make of the data: a token, a call and a number for each run. -/
structure CutsAlike (data behind : List UInt8) (ch : UInt8) (runs : List (Nat × Nat)) : Prop where
  isRuns : IsRuns data ch runs
  tokens : (tokenize data ch).tokens = runs.map fun run => ⟨run.1, run.2 - run.1⟩
  texts : ∀ index run, runs[index]? = some run → (tokenize data ch).get index = some (textOf data run)
  calls : ∀ func : Nat → List UInt8 → Bool, (∀ index token, func index token = false) →
    tokenizeForeach func data ch = (runs.map (textOf data)).zipIdx.map Prod.swap
  ints : tokenizeInts data behind ch = runs.map fun run => atoi ((data ++ behind).drop run.1)
  /-- The numbers are those of the runs alone where the data does not go on with them. -/
  stops : (∀ run ∈ runs, Stops (textOf data run) ((data ++ behind).drop run.2)) →
    tokenizeInts data behind ch = runs.map fun run => atoi (textOf data run)

theorem cutsAlike (hnul : data.head? ≠ some 0) (behind : List UInt8) (ch : UInt8) :
    CutsAlike data behind ch (cut data ch) where
  isRuns := cut_isRuns data ch
  tokens := by rw [tokenize_eq hnul, tokenizeInto_eq hnul]
  texts := by
    intro index run hrun
    have hle := run_le ((cut_isRuns data ch).mem run |>.1 (List.mem_of_getElem? hrun))
    rw [get, tokenize_eq hnul, tokenizeInto_eq hnul, List.getElem?_map, hrun]
    exact if_pos ((Nat.le_add_right _ _).trans hle)
  calls := fun func hfunc => tokenizeForeach_eq hnul hfunc
  ints := tokenizeInts_eq
  stops := by
    intro hstops
    rw [tokenizeInts_eq]
    refine List.map_congr_left fun run hrun => ?_
    rw [drop_run (((cut_isRuns data ch).mem run).1 hrun), atoi_append (hstops run hrun)]

/-! ### The parts of the line -/

theorem textOf_succ {i : Nat} {x : UInt8} (hle : start ≤ i) (h : data[i]? = some x) :
    textOf data (start, i + 1) = textOf data (start, i) ++ [x] := by
  unfold textOf
  dsimp only
  rw [Nat.succ_sub hle, List.take_add_one, List.getElem?_drop, Nat.add_sub_cancel' hle, h]
  rfl

theorem textOf_opened {i : Nat} (h : Opened data ch start i) (hle : i ≤ data.length) :
    textOf data (start, i) ≠ [] ∧ ch ∉ textOf data (start, i) := by
  constructor
  · intro hnil
    have hlen := congrArg List.length hnil
    have := h.lt
    rw [textOf, List.length_take, List.length_drop, List.length_nil] at hlen
    dsimp only at hlen
    omega
  · intro hmem
    obtain ⟨j, hj, hget⟩ := List.mem_iff_getElem.1 hmem
    have hlt : start + j < i := by
      rw [textOf, List.length_take] at hj
      dsimp only at hj
      omega
    refine h.free (start + j) (Nat.le_add_right _ _) hlt ?_
    rw [← hget]
    simp [textOf]

theorem map_finish {i : Nat} {pending : List UInt8} (hend : i ≤ findLineBreak data)
    (hstate : Opened data ch start i ∧ pending = textOf data (start, i) ∨ Closed data ch start i ∧ pending = []) :
    (if start ≠ i ∧ data.getD start 0 ≠ ch ∧ data.getD start 0 ≠ LF then [(start, i)] else []).map (textOf data) =
      ((pending ++ []).splitOn ch).filter (· ≠ []) := by
  rw [List.append_nil]
  rcases hstate with ⟨hopen, rfl⟩ | ⟨hclosed, rfl⟩
  · obtain ⟨hne, hmem⟩ := textOf_opened hopen (hend.trans (findLineBreak_le data))
    rw [hopen.finish hend, List.splitOn_eq_singleton hmem, List.filter_cons_of_pos (by simpa using hne)]
    rfl
  · rw [hclosed.finish]
    rfl

/-- What is cut is what the parts of the line between the delimiters are, if they are not empty. -/
theorem map_cutFrom {i : Nat} {rest pending : List UInt8} (hat : AtByte data i rest)
    (hstate : Opened data ch start i ∧ pending = textOf data (start, i) ∨ Closed data ch start i ∧ pending = []) :
    (cutFrom data ch start i rest).map (textOf data) =
    ((pending ++ rest.takeWhile (· ≠ LF)).splitOn ch).filter (· ≠ []) := by
  induction rest generalizing start i pending with
  | nil => exact map_finish hat.le hstate
  | cons x rest ih =>
    by_cases hLF : x = LF
    · subst hLF
      rw [cutFrom, if_pos rfl, List.takeWhile_cons_of_neg (by simp)]
      exact map_finish hat.le hstate
    have hnext := hat.next hLF
    rw [List.takeWhile_cons_of_pos (by simpa using hLF)]
    by_cases hdelim : x = ch
    · subst hdelim
      have hclosed : Closed data x i (i + 1) := .inr ⟨rfl, hat.get⟩
      have hrest : (cutFrom data x i (i + 1) rest).map (textOf data) =
          (([] ++ rest.takeWhile (· ≠ LF)).splitOn x).filter (· ≠ []) :=
        ih hnext (.inr ⟨hclosed, rfl⟩)
      rw [List.splitOn_append_cons_self, List.filter_append, ← List.nil_append (rest.takeWhile _), ← hrest]
      rcases hstate with ⟨hopen, rfl⟩ | ⟨hshut, rfl⟩
      · obtain ⟨hne, hmem⟩ := textOf_opened hopen (hat.le.trans (findLineBreak_le data))
        rw [hopen.cutFrom_delimiter hat hLF, List.map_cons, List.splitOn_eq_singleton hmem,
          List.filter_cons_of_pos (by simpa using hne)]
        rfl
      · rw [hshut.cutFrom_delimiter hLF]
        rfl
    · obtain ⟨start', hcut, hopen', hstart⟩ := cutFrom_byte hat hLF hdelim (hstate.imp And.left And.left)
      have hpending : textOf data (start', i + 1) = pending ++ [x] := by
        rcases hstart with ⟨hopen, rfl⟩ | ⟨hshut, rfl⟩
        · rcases hstate with ⟨-, rfl⟩ | ⟨hclosed, -⟩
          · exact textOf_succ hopen.lt.le hat.get
          · exact absurd hopen hclosed.not_opened
        · rcases hstate with ⟨hopen, -⟩ | ⟨-, rfl⟩
          · exact absurd hopen hshut.not_opened
          · rw [textOf_succ (le_refl _) hat.get]
            simp [textOf]
      rw [hcut, ih hnext (.inl ⟨hopen', rfl⟩), hpending, List.append_assoc]
      rfl

/-- The texts of the tokens are those that `StringVector.tokenize` says there are. -/
theorem texts_tokenize (data : List UInt8) (ch : UInt8) :
    (tokenize data ch).tokens.map (fun token => (data.drop token.index).take token.length) =
      StringVector.tokenize data ch := by
  have hclosed : Closed data ch 0 0 := .inl ⟨rfl, rfl⟩
  have hat : AtByte data 0 data := ⟨rfl, Nat.zero_le _⟩
  have hcut := map_cutFrom hat (.inr ⟨hclosed, rfl⟩)
  unfold StringVector.tokenize
  split
  · rename_i hnul
    rw [tokenize, if_pos (.inr hnul)]
    rfl
  · rename_i hnul
    rw [tokenize_eq hnul, tokenizeInto_eq hnul, List.map_map]
    exact hcut

/-! ### Comparing tokens -/

theorem getElem?_some_of_lt {v : TokenizedString} (hindex : index < v.tokens.length) :
    ∃ token, v.tokens[index]? = some token :=
  ⟨_, List.getElem?_eq_getElem hindex⟩

/-- A token within the string is compared as `operator[]` gives it. -/
theorem equals_of_le {v : TokenizedString} {token : StringToken} (htoken : v.tokens[index]? = some token)
    (hle : token.index + token.length ≤ v.string.length) (string : List UInt8) :
    v.equals index string = some (decide (v.get index = some string)) := by
  have hget : v.get index = some ((v.string.drop token.index).take token.length) := by
    rw [get, htoken]
    exact if_pos (by omega)
  have hlen : ((v.string.drop token.index).take token.length).length = token.length := by
    rw [List.length_take, List.length_drop]
    omega
  rw [equals, htoken, hget]
  dsimp only
  rw [if_pos hle]
  split
  · rename_i hne
    refine congrArg some (decide_eq_false ?_).symm
    intro heq
    exact hne (by rw [← Option.some.inj heq, hlen])
  · refine congrArg some (Bool.eq_iff_iff.2 ?_)
    rw [beq_iff_eq, decide_eq_true_iff, Option.some.injEq]

theorem tokenize_le {token : StringToken} (h : token ∈ (tokenize data ch).tokens) :
    token.index + token.length ≤ (tokenize data ch).string.length := by
  unfold tokenize at h ⊢
  split at h
  · cases h
  · rename_i hdata
    rw [if_neg hdata]
    rw [tokenizeInto, if_neg hdata] at h
    obtain ⟨run, hrun, rfl⟩ := List.mem_map.1 h
    exact run_le (((cut_isRuns data ch).mem run).1 hrun)

/-! ### The delimiter string -/

/-- The parts of the text between the delimiters, the first delimiter first. -/
def pieces (delimiter s : List UInt8) : List (List UInt8) :=
  if hne : delimiter = [] then [s]
  else
    match h : find delimiter s with
    | none => [s]
    | some i =>
      have := (find_eq_some.1 h).occurs.le hne
      have := List.length_pos_iff.2 hne
      s.take i :: pieces delimiter (s.drop (i + delimiter.length))
termination_by s.length

theorem stringTokens_none (hne : delimiter ≠ []) (h : findFrom s delimiter start = none) :
    stringTokens s delimiter start = [⟨start, npos - start⟩] := by
  rw [stringTokens, dif_neg hne]
  split
  · rfl
  · rename_i heq
    rw [h] at heq
    cases heq

theorem stringTokens_some {stop : Nat} (hne : delimiter ≠ []) (h : findFrom s delimiter start = some stop) :
    stringTokens s delimiter start = ⟨start, stop - start⟩ :: stringTokens s delimiter (stop + delimiter.length) := by
  rw [stringTokens, dif_neg hne]
  split
  · rename_i heq
    rw [h] at heq
    cases heq
  · rename_i heq
    rw [h] at heq
    cases heq
    rfl

theorem pieces_none (h : find delimiter s = none) : pieces delimiter s = [s] := by
  rw [pieces]
  split
  · rfl
  · split
    · rfl
    · rename_i heq
      rw [h] at heq
      cases heq

theorem pieces_some {i : Nat} (hne : delimiter ≠ []) (h : find delimiter s = some i) :
    pieces delimiter s = s.take i :: pieces delimiter (s.drop (i + delimiter.length)) := by
  rw [pieces, dif_neg hne]
  split
  · rename_i heq
    rw [h] at heq
    cases heq
  · rename_i heq
    rw [h] at heq
    cases heq
    rfl

/-- The tokens before the last one lie in the string; the last one begins in it. -/
theorem stringTokens_spec (hne : delimiter ≠ []) (hstart : start ≤ s.length) :
    ∃ init last, stringTokens s delimiter start = init ++ [⟨last, npos - last⟩] ∧ last ≤ s.length ∧
      (∀ token ∈ init, token.index + token.length ≤ s.length) ∧
      pieces delimiter (s.drop start) = init.map (fun token => (s.drop token.index).take token.length) ++
        [s.drop last] := by
  induction hk : s.length - start using Nat.strong_induction_on generalizing start with
  | _ k ih =>
    subst hk
    cases hfind : findFrom s delimiter start with
    | none =>
      refine ⟨[], start, stringTokens_none hne hfind, hstart, fun token h => absurd h List.not_mem_nil, ?_⟩
      rw [pieces_none (Option.map_eq_none_iff.1 hfind)]
      rfl
    | some stop =>
      obtain ⟨hle, hstop⟩ := findFrom_spec hne hfind
      have hpos := List.length_pos_iff.2 hne
      obtain ⟨init, last, htokens, hlast, hinit, hpieces⟩ := ih _ (by omega) hstop rfl
      refine ⟨⟨start, stop - start⟩ :: init, last, ?_, hlast, ?_, ?_⟩
      · rw [stringTokens_some hne hfind, htokens, List.cons_append]
      · refine List.forall_mem_cons.2 ⟨?_, hinit⟩
        show start + (stop - start) ≤ s.length
        omega
      · obtain ⟨i, hi, rfl⟩ := Option.map_eq_some_iff.1 hfind
        rw [pieces_some hne hi, List.drop_drop, ← Nat.add_assoc, hpieces, List.map_cons, List.cons_append]
        dsimp only
        rw [Nat.add_sub_cancel_left]

theorem tokenizeByString_eq (hs : s ≠ []) (hne : delimiter ≠ []) :
    tokenizeByString s delimiter = ⟨s, stringTokens s delimiter 0⟩ := by
  rw [tokenizeByString, if_neg (not_or.2 ⟨hs, hne⟩)]

/-- The last token is longer than every string. -/
theorem equals_last {v : TokenizedString} {last : Nat} (htoken : v.tokens[index]? = some ⟨last, npos - last⟩)
    (hlast : last ≤ v.string.length) (hv : v.string.length < 2 ^ 63) (hstring : string.length < 2 ^ 63) :
    v.equals index string = some false ∧ v.get index = some (v.string.drop last) := by
  have hlong : 2 ^ 63 ≤ npos - last := by
    unfold npos
    omega
  constructor
  · rw [equals, htoken]
    exact if_pos (by dsimp only; omega)
  · rw [get, htoken]
    dsimp only
    rw [if_pos hlast, List.take_of_length_le]
    rw [List.length_drop]
    omega

theorem equals_tokenizeByString (hs : s.length < 2 ^ 63) (hstring : string.length < 2 ^ 63)
    (hindex : index < (tokenizeByString s delimiter).tokens.length) :
    (tokenizeByString s delimiter).equals index string =
      some (decide ((tokenizeByString s delimiter).get index = some string)) ↔
      index + 1 < (pieces delimiter s).length ∨ (pieces delimiter s)[index]? ≠ some string := by
  by_cases hempty : s = [] ∨ delimiter = []
  · rw [tokenizeByString, if_pos hempty] at hindex
    exact absurd hindex (Nat.not_lt_zero _)
  obtain ⟨hs', hne⟩ := not_or.1 hempty
  obtain ⟨init, last, htokens, hlast, hinit, hpieces⟩ := stringTokens_spec hne (Nat.zero_le s.length)
  rw [List.drop_zero] at hpieces
  rw [tokenizeByString_eq hs' hne, htokens] at hindex ⊢
  rw [List.length_append, List.length_singleton] at hindex
  rw [hpieces, List.length_append, List.length_map, List.length_singleton]
  rcases Nat.lt_succ_iff_lt_or_eq.1 hindex with hlt | rfl
  · -- Before the last one.
    refine iff_of_true ?_ (.inl (Nat.succ_lt_succ hlt))
    refine equals_of_le ?_ (hinit _ (List.getElem_mem hlt)) string
    rw [List.getElem?_append_left hlt, List.getElem?_eq_getElem hlt]
  · have htoken : (⟨s, init ++ [⟨last, npos - last⟩]⟩ : TokenizedString).tokens[init.length]? =
        some ⟨last, npos - last⟩ :=
      List.getElem?_concat_length
    obtain ⟨hequals, hget⟩ := equals_last htoken hlast hs hstring
    have hpiece : (init.map (fun token => (s.drop token.index).take token.length) ++ [s.drop last])[init.length]? =
        some (s.drop last) := by
      rw [List.getElem?_append_right (by rw [List.length_map]), List.length_map, Nat.sub_self]
      rfl
    rw [hequals, hget, hpiece, Option.some.injEq, eq_comm, decide_eq_false_iff_not]
    exact (or_iff_right (lt_irrefl _)).symm

/-- The loops cut alike, and `equals` compares a token as `operator[]` gives it: for one character always, and for a
delimiter string but where the last token is compared with its own text. -/
theorem tokens_iff (data behind : List UInt8) (ch : UInt8) (s delimiter string : List UInt8) (index : Nat) :
    (data.head? ≠ some 0 → ∃ runs, CutsAlike data behind ch runs) ∧
      (index < (tokenize data ch).tokens.length →
        (tokenize data ch).equals index string = some (decide ((tokenize data ch).get index = some string))) ∧
      (s.length < 2 ^ 63 → string.length < 2 ^ 63 → index < (tokenizeByString s delimiter).tokens.length →
        ((tokenizeByString s delimiter).equals index string =
          some (decide ((tokenizeByString s delimiter).get index = some string)) ↔
          index + 1 < (pieces delimiter s).length ∨ (pieces delimiter s)[index]? ≠ some string)) := by
  refine ⟨fun hnul => ⟨_, cutsAlike hnul behind ch⟩, fun hindex => ?_, equals_tokenizeByString⟩
  obtain ⟨token, htoken⟩ := getElem?_some_of_lt hindex
  exact equals_of_le htoken (tokenize_le (List.mem_of_getElem? htoken)) string

/-- The second token of `a, b` by `, ` is `b`. -/
theorem stringTokens_ab : stringTokens (text "a, b") (text ", ") 0 = [⟨0, 1⟩, ⟨3, npos - 3⟩] := by
  have hfirst : findFrom (text "a, b") (text ", ") 0 = some 1 := by decide
  rw [stringTokens_some (by decide) hfirst, stringTokens_none (by decide) (by decide)]
  rfl

/-- `equals` says that it is not `b`. -/
theorem not_tokens :
    ¬ ∀ (s delimiter : List UInt8) (index : Nat) (string : List UInt8), s.length < 2 ^ 63 → string.length < 2 ^ 63 →
      index < (tokenizeByString s delimiter).tokens.length →
      (tokenizeByString s delimiter).equals index string =
        some (decide ((tokenizeByString s delimiter).get index = some string)) := by
  intro h
  have heq : tokenizeByString (text "a, b") (text ", ") = ⟨text "a, b", [⟨0, 1⟩, ⟨3, npos - 3⟩]⟩ := by
    rw [tokenizeByString_eq (by decide) (by decide), stringTokens_ab]
  have hb := h (text "a, b") (text ", ") 1 (text "b") (by decide) (by decide) (by rw [heq]; decide)
  rw [heq] at hb
  revert hb
  decide

theorem tokens_iff_words :
    (∃ runs, CutsAlike (text " a  b\nc") [0] SP runs) ∧
      (tokenize (text "a b") SP).equals 1 (text "b") =
        some (decide ((tokenize (text "a b") SP).get 1 = some (text "b"))) ∧
      (tokenizeByString (text "a, b") (text ", ")).equals 0 (text "a") =
        some (decide ((tokenizeByString (text "a, b") (text ", ")).get 0 = some (text "a"))) := by
  have htokens : (tokenizeByString (text "a, b") (text ", ")).tokens = [⟨0, 1⟩, ⟨3, npos - 3⟩] := by
    rw [tokenizeByString_eq (by decide) (by decide), stringTokens_ab]
  have hpieces : pieces (text ", ") (text "a, b") = [text "a", text "b"] := by
    rw [pieces_some (i := 1) (by decide) (by decide), pieces_none (by decide)]
    rfl
  obtain ⟨hcuts, -, hstring⟩ := tokens_iff (text " a  b\nc") [0] SP (text "a, b") (text ", ") (text "a") 0
  obtain ⟨-, hequals, -⟩ := tokens_iff (text "a b") [] SP [] [] (text "b") 1
  refine ⟨hcuts (by decide), hequals (by decide), ?_⟩
  refine (hstring (by decide) (by decide) (by rw [htokens]; decide)).2 (.inl ?_)
  rw [hpieces]
  decide

end Tokens

end TokenizedString

end CollaboraOnline
