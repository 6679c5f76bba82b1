import CollaboraOnline.Net.HttpHeader

/-!
# Preprocessed files

A `PreProcessedFile` is taken apart into literal data, variables `%NAME%` and commented variables `<!--%NAME%-->`, and
put together again with values for the variables.  What follows a `<!--%` that opens no commented variable is kept as
it is, up to the end of the comment or the next tag, with the variables in it (`substitute_eq_replaced`).
-/

namespace CollaboraOnline

namespace PreProcessedFile

open Http (text)

def LESS : UInt8 := 0x3c
def GREATER : UInt8 := 0x3e
def PERCENT : UInt8 := 0x25

inductive SegmentType
  | Data
  | Variable
  | CommentedVariable
deriving DecidableEq

abbrev Segment := SegmentType × List UInt8

/-- `std::isalpha`, or an underscore. -/
def isNameChar (c : UInt8) : Bool := (0x41 ≤ c && c ≤ 0x5a) || (0x61 ≤ c && c ≤ 0x7a) || c = 0x5f

/-- The name up to the closing percent sign, of the text behind the opening one. -/
def nameOf (s : List UInt8) : Option (List UInt8) :=
  if (s.dropWhile isNameChar).head? = some PERCENT then some (s.takeWhile isNameChar) else none

/-- What a turn of the loop does at `newpos`; `n` is the distance to the new `pos`. -/
inductive Turn
  | stop
  | resume (n : Nat)
  | found (type : SegmentType) (name : List UInt8) (n : Nat)
deriving DecidableEq

/-- The bytes in front of the next tag character. -/
def upToTag (s : List UInt8) : List UInt8 := s.takeWhile fun c => c ≠ LESS && c ≠ GREATER

/-- The bytes in front of the next `<` or `%`. -/
def upToMark (s : List UInt8) : List UInt8 := s.takeWhile fun c => c ≠ LESS && c ≠ PERCENT

/-- A turn at the opening of a comment, with the bytes behind the `<`. -/
def commentTurn (body : List UInt8) : Turn :=
  let inner := upToTag body
  match body.drop inner.length with
  -- neither another tag nor the end of the comment
  | [] => .stop
  | c :: _ =>
    if c = LESS then .resume (inner.length + 1)
    else
      match inner.dropWhile (· ≠ PERCENT) with
      | [] => .resume (inner.length + 2)
      | _ :: varstart =>
        match nameOf varstart with
        | none => .resume (inner.length + 2)
        | some name => .found .CommentedVariable name (inner.length + 2)

/-- A turn at a `<`, with the bytes behind it; close to the end it is not compared with the opening of a comment. -/
def tagTurn (body : List UInt8) : Turn :=
  if 5 ≤ body.length ∧ body.take 4 ≠ text "!--%" then .resume 1 else commentTurn body

/-- A turn at a `%`, with the bytes behind it. -/
def variableTurn (body : List UInt8) : Turn :=
  match nameOf body with
  | none => .resume ((body.takeWhile isNameChar).length + 1)
  | some name => .found .Variable name (name.length + 2)

def turn : List UInt8 → Turn
  | [] => .stop
  | c :: body => if body.length < 2 then .stop else if c = LESS then tagTurn body else variableTurn body

def literalSegment (s : List UInt8) : List Segment := if s = [] then [] else [(.Data, s)]

/-- The bytes that a turn skips have a positive number. -/
theorem turn_pos {s : List UInt8} {n : Nat} (h : turn s = .resume n ∨ ∃ type name, turn s = .found type name n) :
    0 < n ∧ s ≠ [] := by
  cases s with
  | nil => simp [turn] at h
  | cons c body =>
    refine ⟨?_, List.cons_ne_nil _ _⟩
    unfold turn tagTurn commentTurn variableTurn at h
    dsimp only at h
    repeat' split at h
    all_goals
      rcases h with h | ⟨type, name, h⟩ <;> first | cases h; omega | cases h

/-- The loop at `pos`: the bytes from `lastpos` on, and the rest of the file. -/
def segmentsFrom (literal rest : List UInt8) : List Segment :=
  let plain := upToMark rest
  let s := rest.drop plain.length
  match _hturn : turn s with
  | .stop => literalSegment (literal ++ rest)
  | .resume n => segmentsFrom (literal ++ (plain ++ s.take n)) (s.drop n)
  | .found type name n => literalSegment (literal ++ plain) ++ (type, name) :: segmentsFrom [] (s.drop n)
termination_by rest.length
decreasing_by
  all_goals
    have hpos : 0 < n ∧ s ≠ [] := turn_pos (by simp [_hturn])
    have hs := List.length_pos_iff.2 hpos.2
    have hlen : s.length = rest.length - plain.length := List.length_drop
    change (s.drop n).length < rest.length
    rw [List.length_drop]
    omega

/-- The constructor. -/
def segments (data : List UInt8) : List Segment := segmentsFrom [] data

abbrev Values := List UInt8 → Option (List UInt8)

def substituteSegment (values : Values) : Segment → List UInt8
  | (.Data, s) => s
  | (.Variable, name) => (values name).getD (PERCENT :: (name ++ [PERCENT]))
  | (.CommentedVariable, name) => (values name).getD (text "<!--%" ++ (name ++ text "%-->"))

def substitute (values : Values) (segments : List Segment) : List UInt8 := segments.flatMap (substituteSegment values)

/-! ### The occurrences of the variables -/

/-- What stands at the front of the data. -/
inductive Piece
  | bytes (s : List UInt8)
  | variable (name : List UInt8)
  | comment (name : List UInt8)
deriving DecidableEq

def Piece.raw : Piece → List UInt8
  | .bytes s => s
  | .variable name => PERCENT :: (name ++ [PERCENT])
  | .comment name => text "<!--%" ++ (name ++ text "%-->")

def Piece.value (values : Values) : Piece → List UInt8
  | .bytes s => s
  | .variable name => (values name).getD (Piece.variable name).raw
  | .comment name => (values name).getD (Piece.comment name).raw

/-- The data, taken apart from the left to the right, with the values. -/
def replaced (first : List UInt8 → Piece) (values : Values) : List UInt8 → List UInt8
  | [] => []
  | c :: s => (first (c :: s)).value values ++ replaced first values (s.drop ((first (c :: s)).raw.length - 1))
termination_by s => s.length
decreasing_by
  rw [List.length_drop, List.length_cons]
  omega

def variableOf : List UInt8 → Option (List UInt8)
  | [] => none
  | c :: s => if c = PERCENT then nameOf s else none

/-- The name of a commented variable at the front. -/
def commentOf (s : List UInt8) : Option (List UInt8) :=
  if text "<!--%" <+: s then
    (nameOf (s.drop 5)).bind fun name => if text "-->" <+: s.drop (name.length + 6) then some name else none
  else none

/-- A commented variable, a variable or a byte. -/
def firstOccurrence (s : List UInt8) : Piece :=
  match commentOf s with
  | some name => .comment name
  | none =>
    match variableOf s with
    | some name => .variable name
    | none => .bytes (s.take 1)

/-- A comment up to its end, or up to the next tag. -/
def broken : List UInt8 → List UInt8
  | [] => []
  | c :: body => c :: (upToTag body ++
      if (body.drop (upToTag body).length).head? = some GREATER then [GREATER] else [])

/-- As above, but a `<!--%` that opens no commented variable is kept with what follows it, and a variable has at least
three bytes in front of the end. -/
def firstPiece (s : List UInt8) : Piece :=
  match commentOf s with
  | some name => .comment name
  | none =>
    if text "<!--%" <+: s then .bytes (broken s)
    else
      match variableOf s with
      | some name => if s.length < 3 then .bytes (s.take 1) else .variable name
      | none => .bytes (s.take 1)

/-- The closing of a commented variable is `%-->`: there is no other text in front of its end. -/
def Closed (data : List UInt8) : Prop :=
  ∀ s ∈ data.tails, text "<!--%" <+: s → ∀ name ∈ nameOf (s.drop 5),
    ((s.drop (name.length + 6)).drop (upToTag (s.drop (name.length + 6))).length).head? = some GREATER →
      text "-->" <+: s.drop (name.length + 6)

instance (data : List UInt8) : Decidable (Closed data) := by
  unfold Closed
  infer_instance

/-- No variable follows a `<` in the last five bytes, before a `>`. -/
def ClearEnd (data : List UInt8) : Prop :=
  ∀ s ∈ data.tails, s.head? = some LESS → s.length ≤ 5 → ∀ j < s.length, GREATER ∉ s.take j → 3 ≤ (s.drop j).length →
    variableOf (s.drop j) = none

instance (data : List UInt8) : Decidable (ClearEnd data) := by
  unfold ClearEnd
  infer_instance

section Replaced

variable {values : Values} {c : UInt8} {s t body name : List UInt8}

/-! ### Names -/

theorem nameOf_eq_some : nameOf s = some name ↔ ∃ t, s = name ++ PERCENT :: t ∧ ∀ c ∈ name, isNameChar c = true := by
  unfold nameOf
  constructor
  · intro h
    split at h
    · rename_i hhead
      obtain rfl := Option.some.inj h
      obtain ⟨t, ht⟩ := List.head?_eq_some_iff.1 hhead
      refine ⟨t, ?_, fun c hc => List.mem_takeWhile_imp hc⟩
      rw [← ht, List.takeWhile_append_dropWhile]
    · cases h
  · rintro ⟨t, rfl, hname⟩
    rw [List.dropWhile_append_of_pos hname, List.takeWhile_append_of_pos hname,
      List.dropWhile_cons_of_neg (by decide), List.takeWhile_cons_of_neg (by decide), List.append_nil]
    rfl

theorem nameOf_append (h : nameOf s = some name) (t : List UInt8) : nameOf (s ++ t) = some name := by
  obtain ⟨u, rfl, hname⟩ := nameOf_eq_some.1 h
  exact nameOf_eq_some.2 ⟨u ++ t, by simp, hname⟩

/-- What is behind the second percent sign of a commented variable. -/
theorem drop_opening (name t : List UInt8) : (text "<!--%" ++ (name ++ PERCENT :: t)).drop (name.length + 6) = t := by
  have hlength : name.length + 6 = (text "<!--%").length + (name.length + 1) := by
    change name.length + 6 = 5 + (name.length + 1)
    omega
  rw [hlength, ← List.drop_drop, List.drop_left, ← List.drop_drop, List.drop_left]
  rfl

/-- The commented variable at the front. -/
theorem commentOf_eq_some : commentOf s = some name ↔
    ∃ t, s = text "<!--%" ++ (name ++ (text "%-->" ++ t)) ∧ ∀ c ∈ name, isNameChar c = true := by
  unfold commentOf
  constructor
  · intro h
    split at h
    · rename_i hopen
      obtain ⟨u, rfl⟩ := hopen
      have hdrop : (text "<!--%" ++ u).drop 5 = u := rfl
      rw [hdrop, Option.bind_eq_some_iff] at h
      obtain ⟨n, hn, h⟩ := h
      obtain ⟨t, rfl, hname⟩ := nameOf_eq_some.1 hn
      split at h
      · rename_i hclose
        obtain rfl := Option.some.inj h
        rw [drop_opening] at hclose
        obtain ⟨r, rfl⟩ := hclose
        exact ⟨r, rfl, hname⟩
      · cases h
    · cases h
  · rintro ⟨t, rfl, hname⟩
    have hdrop : (text "<!--%" ++ (name ++ (text "%-->" ++ t))).drop 5 = name ++ PERCENT :: (text "-->" ++ t) := rfl
    have hrest : (text "<!--%" ++ (name ++ (text "%-->" ++ t))).drop (name.length + 6) = text "-->" ++ t :=
      drop_opening name (text "-->" ++ t)
    rw [if_pos (List.prefix_append _ _), hdrop, nameOf_eq_some.2 ⟨_, rfl, hname⟩, Option.bind_some, hrest,
      if_pos (List.prefix_append _ _)]

/-! ### The conditions -/

theorem Closed.front (h : Closed (text "<!--%" ++ (name ++ PERCENT :: t))) (hname : ∀ c ∈ name, isNameChar c = true)
    (hend : (t.drop (upToTag t).length).head? = some GREATER) : text "-->" <+: t := by
  have hfront := h (text "<!--%" ++ (name ++ PERCENT :: t)) ((List.mem_tails _ _).2 List.suffix_rfl)
    (List.prefix_append _ _) name (nameOf_eq_some.2 ⟨t, rfl, hname⟩)
  rw [drop_opening] at hfront
  exact hfront hend

theorem ClearEnd.front {mid : List UInt8} (h : ClearEnd (LESS :: (mid ++ PERCENT :: t)))
    (hlen : mid.length + t.length ≤ 3) (hmid : GREATER ∉ mid) (ht : 2 ≤ t.length) : nameOf t = none := by
  have hfront := h (LESS :: (mid ++ PERCENT :: t)) ((List.mem_tails _ _).2 List.suffix_rfl) rfl (by
    simp only [List.length_cons, List.length_append]
    omega) (mid.length + 1) (by
    simp only [List.length_cons, List.length_append]
    omega)
  rw [List.take_succ_cons, List.take_left, List.drop_succ_cons, List.drop_left] at hfront
  refine hfront ?_ (by rw [List.length_cons]; omega)
  rw [List.mem_cons, not_or]
  exact ⟨by decide, hmid⟩

theorem Closed.drop (h : Closed s) (n : Nat) : Closed (s.drop n) := fun u hu =>
  h u ((List.mem_tails _ _).2 (((List.mem_tails _ _).1 hu).trans (List.drop_suffix n s)))

theorem ClearEnd.drop (h : ClearEnd s) (n : Nat) : ClearEnd (s.drop n) := fun u hu =>
  h u ((List.mem_tails _ _).2 (((List.mem_tails _ _).1 hu).trans (List.drop_suffix n s)))

/-! ### The pieces -/

theorem firstPiece_of_not_open (h : ¬ text "<!--%" <+: s) : firstPiece s =
    match variableOf s with
    | some name => if s.length < 3 then .bytes (s.take 1) else .variable name
    | none => .bytes (s.take 1) := by
  unfold firstPiece
  have hcomment : commentOf s = none := by
    unfold commentOf
    rw [if_neg h]
  rw [hcomment, if_neg h]

theorem replaced_cons (first : List UInt8 → Piece) : replaced first values (c :: s) =
    (first (c :: s)).value values ++ replaced first values (s.drop ((first (c :: s)).raw.length - 1)) := by
  rw [replaced]

theorem replaced_bytes (h : firstPiece (c :: s ++ t) = .bytes (c :: s)) :
    replaced firstPiece values (c :: s ++ t) = c :: s ++ replaced firstPiece values t := by
  rw [List.cons_append] at h ⊢
  rw [replaced_cons, h]
  simp only [Piece.value, Piece.raw, List.length_cons, Nat.add_sub_cancel, List.drop_left, List.cons_append]

theorem not_open_of_ne (h : c ≠ LESS) : ¬ text "<!--%" <+: c :: s := by
  intro hopen
  exact h (List.cons_prefix_cons.1 hopen).1.symm

/-- A byte that begins nothing. -/
theorem replaced_byte (hopen : ¬ text "<!--%" <+: c :: s) (h : c = PERCENT → nameOf s = none ∨ s.length < 2) :
    replaced firstPiece values (c :: s) = c :: replaced firstPiece values s := by
  refine replaced_bytes (s := []) ?_
  change firstPiece (c :: s) = .bytes [c]
  have hvariable : variableOf (c :: s) = if c = PERCENT then nameOf s else none := rfl
  rw [firstPiece_of_not_open hopen, hvariable]
  by_cases hc : c = PERCENT
  · rw [if_pos hc]
    rcases h hc with hname | hlen
    · rw [hname]
      rfl
    · cases nameOf s with
      | none => rfl
      | some name => exact if_pos (by rw [List.length_cons]; omega)
  · rw [if_neg hc]
    rfl

/-- Bytes without a tag and without a variable. -/
theorem replaced_inner {pre : List UInt8} (hless : LESS ∉ pre)
    (h : ∀ mid u, pre = mid ++ PERCENT :: u → nameOf (u ++ t) = none ∨ (u ++ t).length < 2) :
    replaced firstPiece values (pre ++ t) = pre ++ replaced firstPiece values t := by
  induction pre with
  | nil => rfl
  | cons c pre ih =>
    simp only [List.mem_cons, not_or] at hless
    rw [List.cons_append, replaced_byte (not_open_of_ne (Ne.symm hless.1)),
      ih hless.2 fun mid u hpre => h (c :: mid) u (by rw [hpre]; rfl)]
    · rfl
    · rintro rfl
      exact h [] pre rfl

theorem replaced_plain {pre : List UInt8} (hplain : ∀ c ∈ pre, c ≠ LESS ∧ c ≠ PERCENT) :
    replaced firstPiece values (pre ++ t) = pre ++ replaced firstPiece values t := by
  refine replaced_inner (fun hmem => (hplain _ hmem).1 rfl) fun mid u hpre => ?_
  exact absurd rfl (hplain PERCENT (by rw [hpre]; simp)).2

theorem replaced_nil : replaced firstPiece values [] = [] := by rw [replaced]

/-- Less than three bytes are kept. -/
theorem replaced_short (h : s.length < 3) : replaced firstPiece values s = s := by
  have hbyte : ∀ c t, (c :: t).length < 3 →
      replaced firstPiece values (c :: t) = c :: replaced firstPiece values t := by
    intro c t hlen
    refine replaced_byte (fun hopen => ?_) fun _ => Or.inr (by rw [List.length_cons] at hlen; omega)
    have hle := hopen.length_le
    change 5 ≤ (c :: t).length at hle
    omega
  induction s with
  | nil => exact replaced_nil
  | cons c s ih =>
    rw [hbyte c s h, ih (by rw [List.length_cons] at h; omega)]

/-! ### The turns -/

theorem drop_upToTag (hs : ∀ b ∈ s, b ≠ LESS ∧ b ≠ GREATER) (ht : t = [] ∨ ∃ u, t = LESS :: u ∨ t = GREATER :: u) :
    upToTag (s ++ t) = s ∧ (s ++ t).drop s.length = t := by
  have hall : ∀ b ∈ s, (decide (b ≠ LESS) && decide (b ≠ GREATER)) = true := by
    intro b hb
    simp [(hs b hb).1, (hs b hb).2]
  refine ⟨?_, List.drop_left⟩
  unfold upToTag
  rw [List.takeWhile_append_of_pos hall]
  rcases ht with rfl | ⟨u, rfl | rfl⟩
  · exact List.append_nil s
  · rw [List.takeWhile_cons_of_neg (by decide), List.append_nil]
  · rw [List.takeWhile_cons_of_neg (by decide), List.append_nil]

/-- The bytes in front of the next one of two, and the rest. -/
theorem takeWhile_cases (x y : UInt8) (s : List UInt8) :
    s = (s.takeWhile fun c => c ≠ x && c ≠ y) ++ s.drop (s.takeWhile fun c => c ≠ x && c ≠ y).length ∧
      (s.drop (s.takeWhile fun c => c ≠ x && c ≠ y).length = [] ∨
        ∃ u, s.drop (s.takeWhile fun c => c ≠ x && c ≠ y).length = x :: u ∨
          s.drop (s.takeWhile fun c => c ≠ x && c ≠ y).length = y :: u) ∧
      ∀ c ∈ s.takeWhile fun c => c ≠ x && c ≠ y, c ≠ x ∧ c ≠ y := by
  have happend := List.takeWhile_append_dropWhile (p := fun c => decide (c ≠ x) && decide (c ≠ y)) (l := s)
  have hdrop : s.drop (s.takeWhile fun c => c ≠ x && c ≠ y).length = s.dropWhile fun c => c ≠ x && c ≠ y :=
    (congrArg (List.drop (s.takeWhile fun c => c ≠ x && c ≠ y).length) happend).symm.trans List.drop_left
  rw [hdrop]
  refine ⟨happend.symm, ?_, fun c hc => by simpa using List.mem_takeWhile_imp hc⟩
  cases hrest : s.dropWhile fun c => c ≠ x && c ≠ y with
  | nil => exact Or.inl rfl
  | cons c u =>
    have hc := List.head?_dropWhile_not (fun c => decide (c ≠ x) && decide (c ≠ y)) s
    rw [hrest] at hc
    refine Or.inr ⟨u, ?_⟩
    by_cases hx : c = x
    · exact Or.inl (by rw [hx])
    · refine Or.inr ?_
      simp [hx] at hc
      rw [hc]

/-- The bytes in front of the next tag character, and the rest. -/
theorem upToTag_cases (s : List UInt8) : ∃ t, s = upToTag s ++ t ∧ (∀ b ∈ upToTag s, b ≠ LESS ∧ b ≠ GREATER) ∧
    (t = [] ∨ ∃ u, t = LESS :: u ∨ t = GREATER :: u) := by
  obtain ⟨happend, hhead, hplain⟩ := takeWhile_cases LESS GREATER s
  exact ⟨_, happend, hplain, hhead⟩

/-- The bytes in front of `newpos`, and the rest. -/
theorem upToMark_cases (s : List UInt8) : s = upToMark s ++ s.drop (upToMark s).length ∧
    (s.drop (upToMark s).length = [] ∨
      ∃ body, s.drop (upToMark s).length = LESS :: body ∨ s.drop (upToMark s).length = PERCENT :: body) ∧
    ∀ c ∈ upToMark s, c ≠ LESS ∧ c ≠ PERCENT :=
  takeWhile_cases LESS PERCENT s

/-- What a turn does to the data in front of the new position. -/
def Turned (values : Values) (s : List UInt8) : Turn → Prop
  | .stop => replaced firstPiece values s = s
  | .resume n => replaced firstPiece values s = s.take n ++ replaced firstPiece values (s.drop n)
  | .found type name n =>
    replaced firstPiece values s = substituteSegment values (type, name) ++ replaced firstPiece values (s.drop n)

theorem turned_resume {n : Nat} (pre t : List UInt8) (hs : s = pre ++ t) (hn : n = pre.length)
    (h : replaced firstPiece values (pre ++ t) = pre ++ replaced firstPiece values t) :
      Turned values s (.resume n) := by
  subst hs hn
  change replaced firstPiece values (pre ++ t) =
    (pre ++ t).take pre.length ++ replaced firstPiece values ((pre ++ t).drop pre.length)
  rw [List.take_left, List.drop_left, h]

theorem variableTurn_turned (hlen : 2 ≤ body.length) : Turned values (PERCENT :: body) (variableTurn body) := by
  have hopen : ¬ text "<!--%" <+: PERCENT :: body := not_open_of_ne (by decide)
  unfold variableTurn
  cases hname : nameOf body with
  | none =>
    refine turned_resume (PERCENT :: body.takeWhile isNameChar) (body.dropWhile isNameChar) ?_ rfl ?_
    · rw [List.cons_append, List.takeWhile_append_dropWhile]
    · have hplain : ∀ c ∈ body.takeWhile isNameChar, c ≠ LESS ∧ c ≠ PERCENT := by
        intro c hc
        have hchar := List.mem_takeWhile_imp hc
        refine ⟨?_, ?_⟩ <;>
        · rintro rfl
          exact absurd hchar (by decide)
      rw [List.cons_append]
      refine (replaced_byte ?_ fun _ => Or.inl ?_).trans ?_
      · exact not_open_of_ne (by decide)
      · rw [List.takeWhile_append_dropWhile]
        exact hname
      · rw [replaced_plain hplain]
        rfl
  | some name =>
    obtain ⟨t, rfl, -⟩ := nameOf_eq_some.1 hname
    have hshort : ¬ (PERCENT :: (name ++ PERCENT :: t)).length < 3 := by
      rw [List.length_cons]
      omega
    have hfirst : firstPiece (PERCENT :: (name ++ PERCENT :: t)) = .variable name := by
      have hvariable : variableOf (PERCENT :: (name ++ PERCENT :: t)) = some name := hname
      rw [firstPiece_of_not_open hopen, hvariable]
      exact if_neg hshort
    change replaced firstPiece values (PERCENT :: (name ++ PERCENT :: t)) = _ ++ _
    rw [replaced_cons, hfirst]
    change _ ++ replaced firstPiece values ((name ++ PERCENT :: t).drop (name ++ [PERCENT]).length) =
      _ ++ replaced firstPiece values ((name ++ PERCENT :: t).drop (name.length + 1))
    rw [List.length_append]
    rfl

theorem replaced_broken {rest : List UInt8} (hcomment : commentOf (LESS :: body) = none)
    (hopen : text "<!--%" <+: LESS :: body) (hs : LESS :: body = broken (LESS :: body) ++ rest) :
    replaced firstPiece values (LESS :: body) = broken (LESS :: body) ++ replaced firstPiece values rest := by
  have hfirst : firstPiece (LESS :: body) = .bytes (broken (LESS :: body)) := by
    unfold firstPiece
    rw [hcomment, if_pos hopen]
  conv_lhs => rw [hs]
  refine replaced_bytes ?_
  change firstPiece (broken (LESS :: body) ++ rest) = .bytes (broken (LESS :: body))
  rw [← hs, hfirst]

theorem ne_tag_of_notMem (hless : LESS ∉ s) (hgreater : GREATER ∉ s) : ∀ b ∈ s, b ≠ LESS ∧ b ≠ GREATER := fun _ hb =>
  ⟨fun h => hless (h ▸ hb), fun h => hgreater (h ▸ hb)⟩

theorem ne_tag_of_isNameChar (h : isNameChar c = true) : c ≠ LESS ∧ c ≠ GREATER := by
  refine ⟨?_, ?_⟩ <;>
  · rintro rfl
    exact absurd h (by decide)

/-- The bytes of a commented variable in front of its end. -/
theorem commentOf_inner {inner : List UInt8} (hinner : ∀ b ∈ inner, b ≠ LESS ∧ b ≠ GREATER)
    (ht : t = [] ∨ ∃ u, t = LESS :: u ∨ t = GREATER :: u)
    (h : commentOf (text "<!--%" ++ (inner ++ t)) = some name) :
      ∃ u, t = GREATER :: u ∧ inner = name ++ text "%--" := by
  obtain ⟨u, hu, hname⟩ := commentOf_eq_some.1 h
  have heq : inner ++ t = name ++ text "%--" ++ GREATER :: u := by
    rw [List.append_cancel_left hu, List.append_assoc]
    rfl
  have hall : ∀ b ∈ name ++ text "%--", b ≠ LESS ∧ b ≠ GREATER := by
    intro b hb
    rcases List.mem_append.1 hb with hb | hb
    · exact ne_tag_of_isNameChar (hname b hb)
    · exact ne_tag_of_notMem (by decide) (by decide) b hb
  have hleft := (drop_upToTag hinner ht).1
  have hright := drop_upToTag hall (Or.inr ⟨u, Or.inr rfl⟩)
  rw [heq, hright.1] at hleft
  refine ⟨u, ?_, hleft.symm⟩
  rw [← hleft] at heq
  exact List.append_cancel_left heq

/-- A comment that opens as a commented variable does. -/
theorem commentTurn_open {inner : List UInt8} (hbody : body = text "!--%" ++ (inner ++ t))
    (hinner : ∀ b ∈ inner, b ≠ LESS ∧ b ≠ GREATER) (ht : t = [] ∨ ∃ u, t = LESS :: u ∨ t = GREATER :: u)
    (hclosed : Closed (LESS :: body)) : Turned values (LESS :: body) (commentTurn body) := by
  have hs : LESS :: body = text "<!--%" ++ (inner ++ t) := by
    rw [hbody]
    rfl
  have hopen : text "<!--%" <+: LESS :: body := ⟨_, hs.symm⟩
  have hall : ∀ b ∈ text "!--%" ++ inner, b ≠ LESS ∧ b ≠ GREATER := by
    intro b hb
    rcases List.mem_append.1 hb with hb | hb
    · exact ne_tag_of_notMem (by decide) (by decide) b hb
    · exact hinner b hb
  obtain ⟨hup, hdrop⟩ := drop_upToTag hall ht
  rw [List.append_assoc, ← hbody] at hup hdrop
  have hbroken : broken (LESS :: body) =
      LESS :: (text "!--%" ++ inner ++ if t.head? = some GREATER then [GREATER] else []) := by
    change LESS :: (upToTag body ++
      if (body.drop (upToTag body).length).head? = some GREATER then [GREATER] else []) = _
    rw [hup, hdrop]
  have hvar : (text "!--%" ++ inner).dropWhile (· ≠ PERCENT) = PERCENT :: inner := rfl
  -- the comment is kept up to the new position
  have hkept : ∀ pre rest, commentOf (LESS :: body) = none → broken (LESS :: body) = pre →
    LESS :: body = pre ++ rest →
      Turned values (LESS :: body) (.resume pre.length) := by
    intro pre rest hcomment hpre hrest
    refine turned_resume pre rest hrest rfl ?_
    rw [← hrest, ← hpre]
    exact replaced_broken hcomment hopen (hpre ▸ hrest)
  unfold commentTurn
  dsimp only
  rw [hup, hdrop, hvar]
  rcases ht with rfl | ⟨r, rfl | rfl⟩
  · have hcomment : commentOf (LESS :: body) = none := by
      rw [hs, Option.eq_none_iff_forall_ne_some]
      intro name hname
      obtain ⟨u, hu, -⟩ := commentOf_inner hinner (Or.inl rfl) hname
      cases hu
    have hrest : LESS :: body = broken (LESS :: body) ++ [] := by
      rw [hbroken, hbody]
      simp
    change replaced firstPiece values (LESS :: body) = LESS :: body
    rw [replaced_broken hcomment hopen hrest, replaced_nil]
    exact hrest.symm
  · have hcomment : commentOf (LESS :: body) = none := by
      rw [hs, Option.eq_none_iff_forall_ne_some]
      intro name hname
      obtain ⟨u, hu, -⟩ := commentOf_inner hinner (Or.inr ⟨r, Or.inl rfl⟩) hname
      exact absurd (List.cons.inj hu).1 (by decide)
    dsimp only
    rw [if_pos rfl]
    refine hkept (LESS :: (text "!--%" ++ inner)) (LESS :: r) hcomment ?_ ?_
    · rw [hbroken, if_neg (by simp [LESS, GREATER]), List.append_nil]
    · rw [hbody, List.cons_append, List.append_assoc]
  · dsimp only
    rw [if_neg (by decide)]
    have hlength : (text "!--%" ++ inner).length + 2 = (LESS :: (text "!--%" ++ inner ++ [GREATER])).length := by
      simp only [List.length_cons, List.length_append, List.length_nil]
    have hpre : broken (LESS :: body) = LESS :: (text "!--%" ++ inner ++ [GREATER]) := by
      rw [hbroken]
      rfl
    have hrest : LESS :: body = LESS :: (text "!--%" ++ inner ++ [GREATER]) ++ r := by
      rw [hbody]
      simp
    cases hname : nameOf inner with
    | none =>
      have hcomment : commentOf (LESS :: body) = none := by
        rw [hs, Option.eq_none_iff_forall_ne_some]
        intro name hsome
        obtain ⟨u, -, rfl⟩ := commentOf_inner hinner (Or.inr ⟨r, Or.inr rfl⟩) hsome
        obtain ⟨-, -, hchars⟩ := commentOf_eq_some.1 hsome
        have hvariable : nameOf (name ++ text "%--") = some name := nameOf_eq_some.2 ⟨text "--", rfl, hchars⟩
        rw [hvariable] at hname
        cases hname
      dsimp only
      rw [hlength]
      exact hkept _ r hcomment hpre hrest
    | some name =>
      obtain ⟨v, rfl, hchars⟩ := nameOf_eq_some.1 hname
      have hv : ∀ b ∈ v, b ≠ LESS ∧ b ≠ GREATER := fun b hb =>
        hinner b (List.mem_append_right _ (List.mem_cons_of_mem _ hb))
      obtain ⟨hupv, hdropv⟩ := drop_upToTag hv (Or.inr ⟨r, Or.inr rfl⟩)
      have hclose : text "-->" <+: v ++ GREATER :: r := by
        have hsplit : LESS :: body = text "<!--%" ++ (name ++ PERCENT :: (v ++ GREATER :: r)) := by
          rw [hs, List.append_assoc, List.cons_append]
        refine Closed.front (hsplit ▸ hclosed) hchars ?_
        rw [hupv, hdropv]
        rfl
      obtain ⟨w, hw⟩ := hclose
      have hmarks : ∀ b ∈ text "--", b ≠ LESS ∧ b ≠ GREATER := ne_tag_of_notMem (by decide) (by decide)
      have hwsplit : v ++ GREATER :: r = text "--" ++ GREATER :: w := hw.symm
      have hveq : v = text "--" := by
        rw [← hupv, hwsplit]
        exact (drop_upToTag hmarks (Or.inr ⟨w, Or.inr rfl⟩)).1
      subst hveq
      have hcomment : commentOf (LESS :: body) = some name := by
        rw [hs, commentOf_eq_some]
        refine ⟨r, ?_, hchars⟩
        rw [List.append_assoc]
        rfl
      have hfirst : firstPiece (LESS :: body) = .comment name := by
        unfold firstPiece
        rw [hcomment]
      have hraw : body.drop ((Piece.comment name).raw.length - 1) = r := by
        have hsplit : body = (text "!--%" ++ (name ++ text "%-->")) ++ r := by
          rw [hbody, List.append_assoc, List.append_assoc, List.append_assoc]
          rfl
        change body.drop (text "!--%" ++ (name ++ text "%-->")).length = r
        rw [hsplit, List.drop_left]
      dsimp only
      rw [hlength]
      change replaced firstPiece values (LESS :: body) = _ ++ replaced firstPiece values ((LESS :: body).drop _)
      rw [replaced_cons, hfirst, hraw, hrest, List.drop_left]
      rfl

/-- A tag close to the end is taken for a comment; there is no variable in it. -/
theorem commentTurn_end (hopen : ¬ text "<!--%" <+: LESS :: body) (hlen : body.length < 5)
    (hclear : ClearEnd (LESS :: body)) : Turned values (LESS :: body) (commentTurn body) := by
  obtain ⟨t, hbody, hinner, ht⟩ := upToTag_cases body
  obtain ⟨hup, hdrop⟩ := drop_upToTag hinner ht
  rw [← hbody] at hdrop
  generalize upToTag body = inner at hbody hinner hup hdrop
  rw [← hbody] at hup
  have hkept : replaced firstPiece values (LESS :: body) = LESS :: (inner ++ replaced firstPiece values t) := by
    have hinnerkept : replaced firstPiece values (inner ++ t) = inner ++ replaced firstPiece values t := by
      refine replaced_inner (fun hmem => (hinner _ hmem).1 rfl) fun mid u hmid => ?_
      by_cases hshort : (u ++ t).length < 2
      · exact Or.inr hshort
      · have hsplit : LESS :: body = LESS :: (mid ++ PERCENT :: (u ++ t)) := by
          rw [hbody, hmid, List.append_assoc, List.cons_append]
        refine Or.inl (ClearEnd.front (hsplit ▸ hclear) ?_ ?_ (by omega))
        · have hlength := congrArg List.length hbody
          rw [hmid] at hlength
          simp only [List.length_append, List.length_cons] at hlength ⊢
          omega
        · intro hmem
          exact (hinner GREATER (by rw [hmid]; exact List.mem_append_left _ hmem)).2 rfl
    rw [replaced_byte hopen fun hc => absurd hc (by decide), ← hinnerkept, ← hbody]
  unfold commentTurn
  dsimp only
  rw [hup, hdrop]
  rcases ht with rfl | ⟨r, rfl | rfl⟩
  · change replaced firstPiece values (LESS :: body) = LESS :: body
    rw [hkept, replaced_nil, hbody]
  · dsimp only
    rw [if_pos rfl]
    refine turned_resume (LESS :: inner) (LESS :: r) (by rw [hbody]; rfl) rfl ?_
    change replaced firstPiece values (LESS :: (inner ++ LESS :: r)) = _
    rw [← hbody]
    exact hkept
  · dsimp only
    rw [if_neg (by decide)]
    have hskip : Turned values (LESS :: body) (.resume (inner.length + 2)) := by
      refine turned_resume (LESS :: (inner ++ [GREATER])) r ?_ ?_ ?_
      · rw [hbody]
        simp
      · simp
      · have hgreater : replaced firstPiece values (GREATER :: r) = GREATER :: replaced firstPiece values r :=
          replaced_byte (not_open_of_ne (by decide)) fun hc => absurd hc (by decide)
        have hs : LESS :: (inner ++ [GREATER]) ++ r = LESS :: body := by
          rw [hbody]
          simp
        rw [hs, hkept, hgreater]
        simp
    cases hvar : inner.dropWhile (· ≠ PERCENT) with
    | nil => exact hskip
    | cons c varstart =>
      have hsplit := List.takeWhile_append_dropWhile (p := fun c => decide (c ≠ PERCENT)) (l := inner)
      have hc : c = PERCENT := by
        have hnot := List.head?_dropWhile_not (fun c => decide (c ≠ PERCENT)) inner
        rw [hvar] at hnot
        simpa using hnot
      rw [hvar, hc] at hsplit
      generalize inner.takeWhile (fun c => decide (c ≠ PERCENT)) = mid at hsplit
      cases hname : nameOf varstart with
      | none =>
        dsimp only
        rw [hname]
        exact hskip
      | some name =>
        exfalso
        obtain ⟨v, hv, -⟩ := nameOf_eq_some.1 hname
        have hlength := congrArg List.length hbody
        have hsize := congrArg List.length hsplit
        have hvsize := congrArg List.length hv
        simp only [List.length_append, List.length_cons] at hlength hsize hvsize
        have hnone : nameOf (varstart ++ GREATER :: r) = none := by
          have hsbody : LESS :: body = LESS :: (mid ++ PERCENT :: (varstart ++ GREATER :: r)) := by
            rw [hbody, ← hsplit, List.append_assoc, List.cons_append]
          refine ClearEnd.front (hsbody ▸ hclear) ?_ ?_ ?_
          · rw [List.length_append, List.length_cons]
            omega
          · intro hmem
            exact (hinner GREATER (by rw [← hsplit]; exact List.mem_append_left _ hmem)).2 rfl
          · rw [List.length_append, List.length_cons]
            omega
        rw [nameOf_append hname] at hnone
        cases hnone

theorem tagTurn_turned (hclosed : Closed (LESS :: body)) (hclear : ClearEnd (LESS :: body)) :
    Turned values (LESS :: body) (tagTurn body) := by
  unfold tagTurn
  by_cases hopen : text "!--%" <+: body
  · obtain ⟨u, rfl⟩ := hopen
    have htake : (text "!--%" ++ u).take 4 = text "!--%" := rfl
    rw [if_neg fun h => h.2 htake]
    obtain ⟨t, hu, hinner, ht⟩ := upToTag_cases u
    exact commentTurn_open (congrArg (text "!--%" ++ ·) hu) hinner ht hclosed
  · have hnot : ¬ text "<!--%" <+: LESS :: body := fun h => hopen (List.cons_prefix_cons.1 h).2
    split
    · refine turned_resume [LESS] body rfl rfl ?_
      exact replaced_byte hnot fun hc => absurd hc (by decide)
    · rename_i hshort
      refine commentTurn_end hnot ?_ hclear
      by_contra hlen
      refine hshort ⟨by omega, fun htake => hopen ?_⟩
      rw [← htake]
      exact List.take_prefix 4 body

theorem turn_turned (hs : s = [] ∨ ∃ body, s = LESS :: body ∨ s = PERCENT :: body) (hclosed : Closed s)
    (hclear : ClearEnd s) : Turned values s (turn s) := by
  rcases hs with rfl | ⟨body, rfl | rfl⟩
  · exact replaced_nil
  · have hturn : turn (LESS :: body) = if body.length < 2 then .stop else tagTurn body := rfl
    rw [hturn]
    split
    · exact replaced_short (by rw [List.length_cons]; omega)
    · exact tagTurn_turned hclosed hclear
  · have hturn : turn (PERCENT :: body) = if body.length < 2 then .stop else variableTurn body := rfl
    rw [hturn]
    split
    · exact replaced_short (by rw [List.length_cons]; omega)
    · exact variableTurn_turned (by omega)

theorem substitute_literalSegment (s : List UInt8) : substitute values (literalSegment s) = s := by
  unfold substitute literalSegment
  split
  · rename_i hs
    rw [hs]
    rfl
  · exact List.append_nil s

theorem substitute_append (left right : List Segment) :
    substitute values (left ++ right) = substitute values left ++ substitute values right :=
  List.flatMap_append

/-- The loop keeps the bytes from `lastpos` on and replaces the variables in the rest. -/
theorem substitute_segmentsFrom (literal rest : List UInt8) (hclosed : Closed rest) (hclear : ClearEnd rest) :
    substitute values (segmentsFrom literal rest) = literal ++ replaced firstPiece values rest := by
  have hstart : ∀ rest, Closed rest → ClearEnd rest →
      Turned values (rest.drop (upToMark rest).length) (turn (rest.drop (upToMark rest).length)) ∧
        replaced firstPiece values rest =
          upToMark rest ++ replaced firstPiece values (rest.drop (upToMark rest).length) := by
    intro rest hclosed hclear
    obtain ⟨hrest, hhead, hplain⟩ := upToMark_cases rest
    refine ⟨turn_turned hhead (hclosed.drop _) (hclear.drop _), ?_⟩
    conv_lhs => rw [hrest]
    exact replaced_plain hplain
  fun_induction segmentsFrom literal rest with
  | case1 literal rest plain s hturn =>
    obtain ⟨hturned, hrest⟩ := hstart rest hclosed hclear
    have hkept : replaced firstPiece values s = s := by
      change Turned values s (turn s) at hturned
      rwa [hturn] at hturned
    rw [substitute_literalSegment, hrest]
    change literal ++ rest = literal ++ (plain ++ replaced firstPiece values s)
    rw [hkept, ← (upToMark_cases rest).1]
  | case2 literal rest plain s n hturn ih =>
    obtain ⟨hturned, hrest⟩ := hstart rest hclosed hclear
    have hkept : replaced firstPiece values s = s.take n ++ replaced firstPiece values (s.drop n) := by
      change Turned values s (turn s) at hturned
      rwa [hturn] at hturned
    have hs : s.drop n = rest.drop (plain.length + n) := List.drop_drop
    rw [ih (hs ▸ hclosed.drop _) (hs ▸ hclear.drop _), hrest]
    change _ = literal ++ (plain ++ replaced firstPiece values s)
    rw [hkept, List.append_assoc, List.append_assoc]
  | case3 literal rest plain s type name n hturn ih =>
    obtain ⟨hturned, hrest⟩ := hstart rest hclosed hclear
    have hkept : replaced firstPiece values s =
        substituteSegment values (type, name) ++ replaced firstPiece values (s.drop n) := by
      change Turned values s (turn s) at hturned
      rwa [hturn] at hturned
    have hs : s.drop n = rest.drop (plain.length + n) := List.drop_drop
    have hcons : substitute values ((type, name) :: segmentsFrom [] (s.drop n)) =
        substituteSegment values (type, name) ++ replaced firstPiece values (s.drop n) := by
      have hloop := ih (hs ▸ hclosed.drop _) (hs ▸ hclear.drop _)
      rw [List.nil_append] at hloop
      rw [← hloop]
      exact List.flatMap_cons
    rw [substitute_append, substitute_literalSegment, hcons, ← hkept, hrest, List.append_assoc]

/-! ### Without values -/

theorem broken_append (c : UInt8) (body : List UInt8) : ∃ t, c :: body = broken (c :: body) ++ t := by
  obtain ⟨t, hbody, hinner, ht⟩ := upToTag_cases body
  obtain ⟨-, hdrop⟩ := drop_upToTag hinner ht
  rw [← hbody] at hdrop
  have hbroken : broken (c :: body) = c :: (upToTag body ++ if t.head? = some GREATER then [GREATER] else []) := by
    change c :: (upToTag body ++ if (body.drop (upToTag body).length).head? = some GREATER then [GREATER] else []) = _
    rw [hdrop]
  rw [hbroken]
  split
  · rename_i hhead
    obtain ⟨u, rfl⟩ := List.head?_eq_some_iff.1 hhead
    exact ⟨u, by rw [List.cons_append, List.append_assoc, List.singleton_append, ← hbody]⟩
  · exact ⟨t, by rw [List.append_nil, List.cons_append, ← hbody]⟩

/-- The first piece stands at the front of the data. -/
theorem firstPiece_raw (c : UInt8) (s : List UInt8) :
    ∃ b r t, (firstPiece (c :: s)).raw = b :: r ∧ c :: s = b :: (r ++ t) := by
  cases hcomment : commentOf (c :: s) with
  | some name =>
    have hfirst : firstPiece (c :: s) = .comment name := by
      unfold firstPiece
      rw [hcomment]
    obtain ⟨t, ht, -⟩ := commentOf_eq_some.1 hcomment
    rw [hfirst, ht]
    exact ⟨LESS, text "!--%" ++ (name ++ text "%-->"), t, rfl, by rw [List.append_assoc, List.append_assoc]; rfl⟩
  | none =>
    by_cases hopen : text "<!--%" <+: c :: s
    · have hfirst : firstPiece (c :: s) = .bytes (broken (c :: s)) := by
        unfold firstPiece
        rw [hcomment, if_pos hopen]
      obtain ⟨t, ht⟩ := broken_append c s
      rw [hfirst]
      exact ⟨c, _, t, rfl, ht⟩
    · have hbyte : ∃ b r t, (Piece.bytes ((c :: s).take 1)).raw = b :: r ∧ c :: s = b :: (r ++ t) :=
        ⟨c, [], s, rfl, rfl⟩
      rw [firstPiece_of_not_open hopen]
      cases hvariable : variableOf (c :: s) with
      | none => exact hbyte
      | some name =>
        dsimp only
        split
        · exact hbyte
        · unfold variableOf at hvariable
          dsimp only at hvariable
          split at hvariable
          · rename_i hc
            obtain ⟨t, rfl, -⟩ := nameOf_eq_some.1 hvariable
            exact ⟨PERCENT, name ++ [PERCENT], t, rfl, by rw [hc, List.append_assoc, List.singleton_append]⟩
          · cases hvariable

theorem replaced_none (s : List UInt8) : replaced firstPiece (fun _ => none) s = s := by
  fun_induction replaced firstPiece (fun _ => none) s with
  | case1 => rfl
  | case2 c s ih =>
    have hvalue : (firstPiece (c :: s)).value (fun _ => none) = (firstPiece (c :: s)).raw := by
      cases firstPiece (c :: s) <;> rfl
    obtain ⟨b, r, t, hraw, hs⟩ := firstPiece_raw c s
    obtain ⟨rfl, hst⟩ := List.cons.inj hs
    rw [ih, hvalue, hraw]
    change c :: (r ++ s.drop r.length) = c :: s
    rw [hst, List.drop_left]

end Replaced

/-- The variables are replaced and every other byte is kept, in what the preprocessing takes for a variable; without
values the file is what it was. -/
theorem substitute_eq_replaced {data : List UInt8} (hclosed : Closed data) (hclear : ClearEnd data) :
    (∀ values, substitute values (segments data) = replaced firstPiece values data) ∧
      substitute (fun _ => none) (segments data) = data := by
  have hreplaced : ∀ values, substitute values (segments data) = replaced firstPiece values data := fun values =>
    substitute_segmentsFrom [] data hclosed hclear
  exact ⟨hreplaced, (hreplaced _).trans (replaced_none data)⟩

theorem substitute_eq_replaced_page :
    (∀ values, substitute values (segments (text "<p>%A% 5%<!--%B%--></p>")) =
        replaced firstPiece values (text "<p>%A% 5%<!--%B%--></p>")) ∧
      substitute (fun _ => none) (segments (text "<p>%A% 5%<!--%B%--></p>")) = text "<p>%A% 5%<!--%B%--></p>" :=
  substitute_eq_replaced (by decide +kernel) (by decide +kernel)

/-- A comment that another tag follows is kept, with the variable in it. -/
theorem not_substitute_eq_replaced : ¬ ∀ data values,
    substitute values (segments data) = replaced firstOccurrence values data := fun h =>
  absurd (h (text "<!--%A% <!--%B%-->") fun name => if name = text "A" then some [] else none) (by decide +kernel)

end PreProcessedFile

end CollaboraOnline
