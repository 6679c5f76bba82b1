import CollaboraOnline.Net.HttpResponse
import CollaboraOnline.Net.HttpWire

/-!
# Numbers in texts

`strtoll` and `atoi` of the C library, on bytes.  Digits alone are read as their value (`strtoll_digits`), and `atoi`
of a text that goes on behind a word is the number of the word where the text does not go on with it (`atoi_append`).
-/

namespace CollaboraOnline

open Http

/-- The sign of a number, and what is behind it. -/
def signOf : List UInt8 → Bool × List UInt8
  | [] => (false, [])
  | ch :: s => if ch = 0x2d then (true, s) else if ch = 0x2b then (false, s) else (false, ch :: s)

/-- What is behind `0x`, if that stands in front. -/
def dropHexPrefix : List UInt8 → List UInt8
  | 0x30 :: x :: s => if x = 0x78 ∨ x = 0x58 then s else 0x30 :: x :: s
  | s => s

/-- `strtoll` of base 16: blanks, a sign and `0x` may stand before the digits, and the value is kept in the range. -/
def strtoll (s : List UInt8) : Int :=
  let (negative, s) := signOf (s.dropWhile StatusLine.isspace)
  let value : Int := hexValue ((dropHexPrefix s).takeWhile fun ch => (hexDigitFromChar ch).isSome)
  if negative then max (-2 ^ 63) (-value) else min (2 ^ 63 - 1) value

/-- `atoi`: as `strtol` of base 10, converted to an `int`. -/
def atoi (s : List UInt8) : Int :=
  let (negative, s) := signOf (s.dropWhile StatusLine.isspace)
  let value : Int := Header.decimal s
  Int.bmod (if negative then max (-2 ^ 63) (-value) else min (2 ^ 63 - 1) value) (2 ^ 32)

/-! ### Digits -/

theorem not_isspace_of_hex {ch : UInt8} (h : (hexDigitFromChar ch).isSome) : StatusLine.isspace ch = false := by
  unfold hexDigitFromChar at h
  unfold StatusLine.isspace
  by_contra hspace
  rw [Bool.not_eq_false, Bool.or_eq_true, Bool.and_eq_true, decide_eq_true_iff, decide_eq_true_iff,
    beq_iff_eq] at hspace
  simp only [Bool.and_eq_true, decide_eq_true_eq, UInt8.le_iff_toNat_le] at h hspace
  rcases hspace with rfl | hspace
  · revert h
    decide
  · split_ifs at h <;> simp_all <;> omega

theorem ne_of_hex {ch x : UInt8} (hx : (hexDigitFromChar x).isSome = false) (h : (hexDigitFromChar ch).isSome) :
    ch ≠ x := by
  rintro rfl
  rw [hx] at h
  cases h

/-- Digits alone are read as their value, as far as it fits. -/
theorem strtoll_digits {digits : List UInt8} (hhex : ∀ ch ∈ digits, (hexDigitFromChar ch).isSome)
    (hfits : hexValue digits < 2 ^ 63) : strtoll digits = hexValue digits := by
  have hspace : digits.dropWhile StatusLine.isspace = digits := by
    cases digits with
    | nil => rfl
    | cons ch digits =>
      rw [List.dropWhile_cons_of_neg (by rw [not_isspace_of_hex (hhex ch List.mem_cons_self)]; decide)]
  have hsign : signOf digits = (false, digits) := by
    cases digits with
    | nil => rfl
    | cons ch digits =>
      have hch := hhex ch List.mem_cons_self
      rw [signOf, if_neg (ne_of_hex rfl hch), if_neg (ne_of_hex rfl hch)]
  have hdrop : dropHexPrefix digits = digits := by
    unfold dropHexPrefix
    split
    · rename_i x s
      have hx := hhex x (List.mem_cons_of_mem _ List.mem_cons_self)
      rw [if_neg (not_or.2 ⟨ne_of_hex rfl hx, ne_of_hex rfl hx⟩)]
    · rfl
  have htake : digits.takeWhile (fun ch => (hexDigitFromChar ch).isSome) = digits := List.takeWhile_eq_self_iff.2 hhex
  unfold strtoll
  rw [hspace, hsign]
  dsimp only
  rw [hdrop, htake, if_neg (by decide)]
  omega

/-! ### Words in a text -/

/-- The text behind does not go on with the number of the word. -/
structure Stops (word rest : List UInt8) : Prop where
  digit : ∀ ch ∈ rest.head?, isDigit ch = false
  /-- Behind a word of blanks there is no number either. -/
  blank : (∀ ch ∈ word, StatusLine.isspace ch = true) →
    ∀ ch ∈ rest.head?, StatusLine.isspace ch = false ∧ ch ≠ 0x2d ∧ ch ≠ 0x2b

theorem takeWhile_append_of_head {p : UInt8 → Bool} {word rest : List UInt8} (h : ∀ ch ∈ rest.head?, p ch = false) :
    (word ++ rest).takeWhile p = word.takeWhile p := by
  induction word with
  | nil =>
    cases rest with
    | nil => rfl
    | cons ch rest => rw [List.nil_append, List.takeWhile_cons_of_neg (by rw [h ch rfl]; decide), List.takeWhile_nil]
  | cons x word ih =>
    rw [List.cons_append]
    by_cases hx : p x = true
    · rw [List.takeWhile_cons_of_pos hx, List.takeWhile_cons_of_pos hx, ih]
    · rw [List.takeWhile_cons_of_neg hx, List.takeWhile_cons_of_neg hx]

theorem decimal_append {word rest : List UInt8} (h : ∀ ch ∈ rest.head?, isDigit ch = false) :
    Header.decimal (word ++ rest) = Header.decimal word := by
  unfold Header.decimal
  rw [takeWhile_append_of_head h]

theorem signOf_append (ch : UInt8) (word rest : List UInt8) :
    signOf (ch :: word ++ rest) = ((signOf (ch :: word)).1, (signOf (ch :: word)).2 ++ rest) := by
  rw [List.cons_append, signOf, signOf]
  split
  · rfl
  · split <;> rfl

theorem atoi_append {word rest : List UInt8} (h : Stops word rest) : atoi (word ++ rest) = atoi word := by
  unfold atoi
  by_cases hblank : ∀ ch ∈ word, StatusLine.isspace ch = true
  · -- Nothing is read of the rest.
    have hstop := h.blank hblank
    rw [List.dropWhile_append_of_pos hblank, List.dropWhile_eq_nil_iff.2 hblank]
    cases rest with
    | nil => rfl
    | cons ch rest =>
      obtain ⟨hspace, hminus, hplus⟩ := hstop ch rfl
      have hsign : signOf (ch :: rest) = (false, [] ++ ch :: rest) := by
        rw [signOf, if_neg hminus, if_neg hplus, List.nil_append]
      rw [List.dropWhile_cons_of_neg (by rw [hspace]; decide), hsign]
      dsimp only
      rw [decimal_append h.digit]
      rfl
  · have hdrop : (word ++ rest).dropWhile StatusLine.isspace = word.dropWhile StatusLine.isspace ++ rest := by
      rw [List.dropWhile_append, if_neg]
      rw [List.isEmpty_iff, List.dropWhile_eq_nil_iff]
      exact hblank
    rw [hdrop]
    cases hword : word.dropWhile StatusLine.isspace with
    | nil => exact absurd (List.dropWhile_eq_nil_iff.1 hword) hblank
    | cons ch word' =>
      rw [signOf_append]
      dsimp only
      rw [decimal_append h.digit]

end CollaboraOnline
