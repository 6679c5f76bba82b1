import CollaboraOnline.Kit.KitQueue
import Mathlib.Data.List.TakeWhile
import Mathlib.Data.Nat.Digits.Defs

/-!
# Tokens of messages

A message is a list of characters; its tokens are those of its first line.
-/

namespace CollaboraOnline

namespace COOLProtocol

variable {name p q w : List Char} {c : Char}

/-! ### Tokens -/

def isSeparator (c : Char) : Bool := c == ' ' || c == '\n'

/-- The loop of `tokenize` with the token that was begun. -/
def tokensFrom : List Char → List Char → List (List Char)
  | token, [] => if token = [] then [] else [token]
  | token, c :: p =>
    if c = '\n' then if token = [] then [] else [token]
    else if c = ' ' then (if token = [] then [] else [token]) ++ tokensFrom [] p
    else tokensFrom (token ++ [c]) p

def tokenize (data : List Char) : List (List Char) :=
  match data with
  | '\x00' :: _ => []
  | _ => tokensFrom [] data

def getFirstToken (message : List Char) : List Char := message.takeWhile (· != ' ')

/-- The value of a token with the name. -/
def tokenString (name token : List Char) : Option (List Char) :=
  if (name ++ ['=']).isPrefixOf token then some (token.drop (name.length + 1)) else none

def getTokenString (tokens : List (List Char)) (name : List Char) : Option (List Char) :=
  tokens.findSome? (tokenString name)

/-- The search of `getTokenStringFromMessage`; `spaceBefore` is that there is a blank before `p`, or nothing. -/
def findToken (name : List Char) : Bool → List Char → Option (List Char)
  | _, [] => none
  | spaceBefore, c :: p =>
    if spaceBefore && (name ++ ['=']).isPrefixOf (c :: p) then
      some (((c :: p).drop (name.length + 1)).takeWhile fun c => !isSeparator c)
    else findToken name (c == ' ') p

/-- It looks at the whole message. -/
def getTokenStringFromMessage (message name : List Char) : Option (List Char) :=
  if name.length + 1 < message.length then findToken name true message else none

/-! ### Numbers -/

def isspace (c : Char) : Bool := c.toNat == 32 || (9 ≤ c.toNat && c.toNat ≤ 13)

def decimal (digits : List Char) : Nat := digits.foldl (fun n c => n * 10 + (c.toNat - 48)) 0

/-- Whether there is a minus, and what follows the sign. -/
def sign : List Char → Bool × List Char
  | [] => (false, [])
  | c :: s => if c = '-' then (true, s) else if c = '+' then (false, s) else (false, c :: s)

/-- A `long`; `none` where there is no digit. -/
def strtol (s : List Char) : Option Int :=
  let (negative, s) := sign (s.dropWhile isspace)
  let digits := s.takeWhile Char.isDigit
  if digits = [] then none
  else some (if negative then max (-(2 ^ 63 : Int)) (-(decimal digits : Int)) else min (2 ^ 63 - 1 : Int)
    (decimal digits : Int))

def tokenInteger (name token : List Char) : Option Int :=
  if (name ++ ['=']).isPrefixOf token && name.length + 1 < token.length then
    (strtol (token.drop (name.length + 1))).map wrapInt
  else none

def getTokenInteger (tokens : List (List Char)) (name : List Char) : Option Int :=
    tokens.findSome? (tokenInteger name)

def digits (n : Nat) : List Char :=
    if n = 0 then ['0'] else (Nat.digits 10 n).reverse.map fun d => Char.ofNat (d + 48)

/-- `std::to_string`. -/
def toString (n : Int) : List Char := (if n < 0 then ['-'] else []) ++ digits n.natAbs

/-! ### Tokens of a text -/

theorem tokensFrom_token (hw : ∀ c ∈ w, isSeparator c = false) (token : List Char) :
    tokensFrom token w = if token ++ w = [] then [] else [token ++ w] := by
  induction w generalizing token with
  | nil => rw [List.append_nil, tokensFrom]
  | cons c w ih =>
    obtain ⟨hc, hw⟩ := List.forall_mem_cons.1 hw
    simp only [isSeparator, Bool.or_eq_false_iff, beq_eq_false_iff_ne] at hc
    rw [tokensFrom, if_neg hc.2, if_neg hc.1, ih hw, List.append_assoc, List.singleton_append]

theorem tokensFrom_blank (hw : ∀ c ∈ w, isSeparator c = false) (token q : List Char) :
    tokensFrom token (w ++ ' ' :: q) = (if token ++ w = [] then [] else [token ++ w]) ++ tokensFrom [] q := by
  induction w generalizing token with
  | nil =>
    rw [List.append_nil, List.nil_append, tokensFrom, if_neg (by decide), if_pos rfl]
  | cons c w ih =>
    obtain ⟨hc, hw⟩ := List.forall_mem_cons.1 hw
    simp only [isSeparator, Bool.or_eq_false_iff, beq_eq_false_iff_ne] at hc
    rw [List.cons_append, tokensFrom, if_neg hc.2, if_neg hc.1, ih hw, List.append_assoc, List.singleton_append]

theorem tokensFrom_newline (hw : ∀ c ∈ w, isSeparator c = false) (token q : List Char) :
    tokensFrom token (w ++ '\n' :: q) = if token ++ w = [] then [] else [token ++ w] := by
  induction w generalizing token with
  | nil =>
    rw [List.append_nil, List.nil_append, tokensFrom, if_pos rfl]
  | cons c w ih =>
    obtain ⟨hc, hw⟩ := List.forall_mem_cons.1 hw
    simp only [isSeparator, Bool.or_eq_false_iff, beq_eq_false_iff_ne] at hc
    rw [List.cons_append, tokensFrom, if_neg hc.2, if_neg hc.1, ih hw, List.append_assoc, List.singleton_append]

/-- A token has no separators, and is not longer than the message. -/
theorem mem_tokensFrom {token : List Char} (htoken : ∀ c ∈ token, isSeparator c = false) {t : List Char}
    (ht : t ∈ tokensFrom token p) : (∀ c ∈ t, isSeparator c = false) ∧ t.length ≤ token.length + p.length := by
  have hhere : ∀ token : List Char, (∀ c ∈ token, isSeparator c = false) →
      t ∈ (if token = [] then [] else [token]) → (∀ c ∈ t, isSeparator c = false) ∧ t.length ≤ token.length := by
    intro token htoken ht
    split at ht
    · cases ht
    · rw [List.mem_singleton.1 ht]
      exact ⟨htoken, Nat.le_refl _⟩
  induction p generalizing token with
  | nil =>
    obtain ⟨hsep, hlen⟩ := hhere token htoken ht
    exact ⟨hsep, Nat.le_trans hlen (Nat.le_add_right _ _)⟩
  | cons c p ih =>
    rw [tokensFrom] at ht
    split at ht
    · obtain ⟨hsep, hlen⟩ := hhere token htoken ht
      exact ⟨hsep, Nat.le_trans hlen (Nat.le_add_right _ _)⟩
    · split at ht
      · rcases List.mem_append.1 ht with ht | ht
        · obtain ⟨hsep, hlen⟩ := hhere token htoken ht
          exact ⟨hsep, Nat.le_trans hlen (Nat.le_add_right _ _)⟩
        · obtain ⟨hsep, hlen⟩ := ih (fun d hd => absurd hd List.not_mem_nil) ht
          refine ⟨hsep, ?_⟩
          rw [List.length_nil] at hlen
          rw [List.length_cons]
          omega
      · rename_i hnewline hblank
        have htoken' : ∀ d ∈ token ++ [c], isSeparator d = false := by
          intro d hd
          rcases List.mem_append.1 hd with hd | hd
          · exact htoken d hd
          · rw [List.mem_singleton.1 hd]
            simp [isSeparator, hnewline, hblank]
        obtain ⟨hsep, hlen⟩ := ih htoken' ht
        refine ⟨hsep, ?_⟩
        simp only [List.length_append, List.length_cons, List.length_nil] at hlen ⊢
        omega

theorem mem_tokenize {m t : List Char} (ht : t ∈ tokenize m) :
    (∀ c ∈ t, isSeparator c = false) ∧ t.length ≤ m.length := by
  unfold tokenize at ht
  split at ht
  · cases ht
  · have h := mem_tokensFrom (fun c hc => absurd hc List.not_mem_nil) ht
    rw [List.length_nil, Nat.zero_add] at h
    exact h

/-! ### The search in the message -/

theorem findToken_skip (hw : ∀ c ∈ w, isSeparator c = false) (q : List Char) :
    findToken name false (w ++ ' ' :: q) = findToken name true q := by
  induction w with
  | nil => rfl
  | cons c w ih =>
    obtain ⟨hc, hw⟩ := List.forall_mem_cons.1 hw
    simp only [isSeparator, Bool.or_eq_false_iff] at hc
    rw [List.cons_append, findToken, hc.1]
    simpa using ih hw

theorem findToken_blank (hw : ∀ c ∈ w, isSeparator c = false)
    (hkey : (name ++ ['=']).isPrefixOf (w ++ ' ' :: q) = false) :
    findToken name true (w ++ ' ' :: q) = findToken name true q := by
  cases w with
  | nil =>
    rw [List.nil_append] at hkey ⊢
    rw [findToken, hkey]
    rfl
  | cons c w =>
    obtain ⟨hc, hw⟩ := List.forall_mem_cons.1 hw
    simp only [isSeparator, Bool.or_eq_false_iff] at hc
    rw [List.cons_append] at hkey ⊢
    rw [findToken, hkey, hc.1]
    simpa using findToken_skip hw q

/-- What has no separator is found within a word, or not at all. -/
theorem isPrefixOf_word {key : List Char} (hkey : ∀ c ∈ key, isSeparator c = false) (hc : isSeparator c = true)
    (h : key.isPrefixOf (w ++ c :: q) = true) : key.isPrefixOf w = true := by
  induction key generalizing w with
  | nil => exact List.isPrefixOf_nil_left
  | cons k key ih =>
    obtain ⟨hk, hkey⟩ := List.forall_mem_cons.1 hkey
    cases w with
    | nil =>
      simp only [List.nil_append, List.isPrefixOf_cons_cons, Bool.and_eq_true, beq_iff_eq] at h
      rw [h.1, hc] at hk
      cases hk
    | cons d w =>
      simp only [List.cons_append, List.isPrefixOf_cons_cons, Bool.and_eq_true] at h ⊢
      exact ⟨h.1, ih hkey h.2⟩

/-- A message is a word, or there is a separator behind its first word. -/
theorem exists_word (p : List Char) : ∃ w, (∀ c ∈ w, isSeparator c = false) ∧
    (p = w ∨ (∃ q, p = w ++ ' ' :: q) ∨ ∃ q, p = w ++ '\n' :: q) := by
  induction p with
  | nil => exact ⟨[], fun c hc => absurd hc List.not_mem_nil, .inl rfl⟩
  | cons c p ih =>
    by_cases hblank : c = ' '
    · exact ⟨[], fun c hc => absurd hc List.not_mem_nil, .inr (.inl ⟨p, by rw [hblank]; rfl⟩)⟩
    by_cases hnewline : c = '\n'
    · exact ⟨[], fun c hc => absurd hc List.not_mem_nil, .inr (.inr ⟨p, by rw [hnewline]; rfl⟩)⟩
    · obtain ⟨w, hw, hp⟩ := ih
      refine ⟨c :: w, List.forall_mem_cons.2 ⟨by simp [isSeparator, hblank, hnewline], hw⟩, ?_⟩
      rcases hp with rfl | ⟨q, rfl⟩ | ⟨q, rfl⟩
      · exact .inl rfl
      · exact .inr (.inl ⟨q, rfl⟩)
      · exact .inr (.inr ⟨q, rfl⟩)

theorem getTokenString_cons (t : List Char) (tokens : List (List Char)) :
    getTokenString (t :: tokens) name = (tokenString name t).or (getTokenString tokens name) := by
  unfold getTokenString
  rw [List.findSome?_cons]
  cases tokenString name t <;> rfl

/-- The first word is found, whatever follows it. -/
theorem findToken_word {value : List Char} (hw : ∀ c ∈ w, isSeparator c = false) (h : tokenString name w = some value)
    {r : List Char} (hr : ∀ c ∈ r.head?, isSeparator c = true) : findToken name true (w ++ r) = some value := by
  obtain ⟨hkey, rfl⟩ : (name ++ ['=']).isPrefixOf w = true ∧ w.drop (name.length + 1) = value := by
    unfold tokenString at h
    split at h
    · rename_i hkey
      exact ⟨hkey, Option.some.inj h⟩
    · cases h
  obtain ⟨rest, rfl⟩ := List.isPrefixOf_iff_prefix.1 hkey
  have hlen : (name ++ ['=']).length = name.length + 1 := by simp
  have hdrop : (name ++ ['='] ++ rest).drop (name.length + 1) = rest := List.drop_left' hlen
  have hrest : ∀ c ∈ rest, isSeparator c = false := fun c hc => hw c (List.mem_append_right _ hc)
  have htake : (rest ++ r).takeWhile (fun c => !isSeparator c) = rest := by
    rw [List.takeWhile_append_of_pos (fun c hc => by rw [hrest c hc]; rfl)]
    cases r with
    | nil => simp
    | cons c r =>
      have hc := hr c rfl
      simp [hc]
  obtain ⟨c, l, hcons⟩ : ∃ c l, name ++ ['='] ++ rest ++ r = c :: l :=
    List.exists_cons_of_ne_nil (by simp)
  have hpre : (name ++ ['=']).isPrefixOf (c :: l) = true := by
    rw [← hcons, List.append_assoc]
    exact List.isPrefixOf_iff_prefix.2 (List.prefix_append _ _)
  have hdrop' : (c :: l).drop (name.length + 1) = rest ++ r := by
    rw [← hcons, List.append_assoc, List.drop_left' hlen]
  rw [hdrop, hcons, findToken, hpre, Bool.and_self, if_pos rfl, hdrop', htake]

/-- What is found among the tokens is found in the message. -/
theorem findToken_of_tokens (hname : ∀ c ∈ name, isSeparator c = false) {value : List Char}
    (h : getTokenString (tokensFrom [] p) name = some value) : findToken name true p = some value := by
  have hkey : ∀ c ∈ name ++ ['='], isSeparator c = false := by
    intro c hc
    rcases List.mem_append.1 hc with hc | hc
    · exact hname c hc
    · rw [List.mem_singleton.1 hc]
      rfl
  have hword : ∀ w : List Char, getTokenString (if [] ++ w = [] then [] else [[] ++ w]) name = some value →
      tokenString name w = some value := by
    intro w hfind
    rw [List.nil_append] at hfind
    split at hfind
    · cases hfind
    · rwa [getTokenString_cons, show getTokenString [] name = none from rfl, Option.or_none] at hfind
  induction hn : p.length using Nat.strong_induction_on generalizing p with
  | _ n ih =>
    obtain ⟨w, hw, rfl | ⟨q, rfl⟩ | ⟨q, rfl⟩⟩ := exists_word p
    · rw [tokensFrom_token hw] at h
      have := findToken_word (r := []) hw (hword p h) nofun
      rwa [List.append_nil] at this
    · by_cases hfirst : tokenString name w = none
      · have hskip : (name ++ ['=']).isPrefixOf (w ++ ' ' :: q) = false := by
          by_contra hpre
          have := isPrefixOf_word hkey (c := ' ') rfl (by simpa using hpre)
          unfold tokenString at hfirst
          rw [if_pos this] at hfirst
          cases hfirst
        rw [findToken_blank hw hskip]
        refine ih q.length ?_ ?_ rfl
        · rw [← hn, List.length_append, List.length_cons]
          omega
        · rw [tokensFrom_blank hw] at h
          split at h
          · exact h
          · rwa [List.singleton_append, getTokenString_cons, List.nil_append, hfirst, Option.none_or] at h
      · obtain ⟨v, hv⟩ := Option.ne_none_iff_exists'.1 hfirst
        have hne : [] ++ w ≠ [] := by
          rintro hnil
          rw [List.nil_append] at hnil
          rw [hnil] at hv
          unfold tokenString at hv
          split at hv
          · rename_i hpre
            simp at hpre
          · cases hv
        rw [tokensFrom_blank hw, if_neg hne, List.singleton_append, getTokenString_cons, List.nil_append, hv,
          Option.some_or] at h
        obtain rfl := Option.some.inj h
        refine findToken_word hw hv fun c hc => ?_
        obtain rfl := Option.some.inj hc
        rfl
    · rw [tokensFrom_newline hw] at h
      refine findToken_word hw (hword w h) fun c hc => ?_
      obtain rfl := Option.some.inj hc
      rfl

/-! ### Numbers that are written and read -/

private theorem digitChar_spec :
    ∀ d < 10, (Char.ofNat (d + 48)).isDigit = true ∧ (Char.ofNat (d + 48)).toNat - 48 = d := by
  decide

private theorem decimal_reverse (ds : List Nat) (h : ∀ d ∈ ds, d < 10) :
    decimal (ds.reverse.map fun d => Char.ofNat (d + 48)) = Nat.ofDigits 10 ds := by
  induction ds with
  | nil => rfl
  | cons d ds ih =>
    obtain ⟨hd, hds⟩ := List.forall_mem_cons.1 h
    rw [Nat.ofDigits_cons, ← ih hds, decimal, List.reverse_cons, List.map_append, List.foldl_append,
      List.map_singleton, List.foldl_cons, List.foldl_nil, (digitChar_spec d hd).2, decimal]
    omega

theorem digits_spec (n : Nat) : digits n ≠ [] ∧ (∀ c ∈ digits n, c.isDigit = true) ∧ decimal (digits n) = n := by
  unfold digits
  split
  · rename_i hn
    rw [hn]
    exact ⟨List.cons_ne_nil _ _, List.all_eq_true.1 (by decide), rfl⟩
  · rename_i hn
    have hlt : ∀ d ∈ Nat.digits 10 n, d < 10 := fun d hd => Nat.digits_lt_base (by decide) hd
    refine ⟨?_, ?_, ?_⟩
    · rw [Ne, List.map_eq_nil_iff, List.reverse_eq_nil_iff]
      exact Nat.digits_ne_nil_iff_ne_zero.2 hn
    · intro c hc
      obtain ⟨d, hd, rfl⟩ := List.mem_map.1 hc
      exact (digitChar_spec d (hlt d (List.mem_reverse.1 hd))).1
    · rw [decimal_reverse _ hlt, Nat.ofDigits_digits]

/-- A digit is no blank and no sign. -/
theorem digit_ne (h : c.isDigit = true) : isspace c = false ∧ c ≠ '-' ∧ c ≠ '+' ∧ isSeparator c = false := by
  have hrange : 48 ≤ c.toNat ∧ c.toNat ≤ 57 := by simpa [Char.isDigit, UInt32.le_iff_toNat_le] using h
  have hne : ∀ d : Char, d.toNat < 48 → c ≠ d := by
    rintro d hd rfl
    omega
  refine ⟨?_, hne '-' (by decide), hne '+' (by decide), ?_⟩
  · simp only [isspace, Bool.or_eq_false_iff, beq_eq_false_iff_ne, Bool.and_eq_false_iff, decide_eq_false_iff_not]
    omega
  · simp [isSeparator, hne ' ' (by decide), hne '\n' (by decide)]

theorem toString_noSeparator (n : Int) : ∀ c ∈ toString n, isSeparator c = false := by
  intro c hc
  unfold toString at hc
  rcases List.mem_append.1 hc with hc | hc
  · split at hc
    · rw [List.mem_singleton.1 hc]
      rfl
    · cases hc
  · exact (digit_ne ((digits_spec _).2.1 c hc)).2.2.2

theorem strtol_toString {n : Int} (hlow : -(2 ^ 63 : Int) ≤ n) (hhigh : n ≤ 2 ^ 63 - 1) :
    strtol (toString n) = some n := by
  obtain ⟨hne, hdigits, hvalue⟩ := digits_spec n.natAbs
  obtain ⟨c, rest, hcons⟩ := List.exists_cons_of_ne_nil hne
  have htake : (digits n.natAbs).takeWhile Char.isDigit = digits n.natAbs := by
    rw [List.takeWhile_eq_self_iff]
    exact hdigits
  obtain ⟨hspace, hminus, hplus, -⟩ := digit_ne (hdigits c (by rw [hcons]; exact List.mem_cons_self))
  unfold strtol toString
  by_cases hneg : n < 0
  · have hsign : sign ('-' :: digits n.natAbs) = (true, digits n.natAbs) := rfl
    rw [if_pos hneg, List.singleton_append, List.dropWhile_cons_of_neg (by decide), hsign]
    dsimp only
    rw [htake, if_neg hne, hvalue, if_pos rfl]
    congr 1
    omega
  · have hdrop : (digits n.natAbs).dropWhile isspace = digits n.natAbs := by
      rw [hcons, List.dropWhile_cons_of_neg (by simp [hspace])]
    have hsign : sign (digits n.natAbs) = (false, digits n.natAbs) := by
      rw [hcons, sign, if_neg hminus, if_neg hplus]
    rw [if_neg hneg, List.nil_append, hdrop, hsign]
    dsimp only
    rw [htake, if_neg hne, hvalue, if_neg Bool.false_ne_true]
    congr 1
    omega

theorem tokenInteger_toString {n : Int} (hlow : -(2 ^ 31 : Int) ≤ n) (hhigh : n ≤ intMax) :
    tokenInteger name (name ++ '=' :: toString n) = some n := by
  have hlen : (name ++ ['=']).length = name.length + 1 := by simp
  have hsplit : name ++ '=' :: toString n = name ++ ['='] ++ toString n := by simp
  have hpre : (name ++ ['=']).isPrefixOf (name ++ '=' :: toString n) = true := by
    rw [hsplit]
    exact List.isPrefixOf_iff_prefix.2 (List.prefix_append _ _)
  have hpos : 0 < (toString n).length := by
    unfold toString
    rw [List.length_append]
    have := List.length_pos_of_ne_nil (digits_spec n.natAbs).1
    omega
  unfold intMax at hhigh
  have hwrap : wrapInt n = n := by
    unfold wrapInt
    rw [Int.bmod_eq_of_le] <;> omega
  unfold tokenInteger
  rw [hpre, Bool.true_and, if_pos, hsplit, List.drop_left' hlen, strtol_toString (by omega) (by omega),
    Option.map_some, hwrap]
  rw [decide_eq_true_eq, List.length_append, List.length_cons]
  omega

end COOLProtocol

end CollaboraOnline
