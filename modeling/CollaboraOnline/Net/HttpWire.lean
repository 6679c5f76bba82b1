import CollaboraOnline.Net.HttpHeader

/-!
# Headers and chunks on the wire

How the readers see a prefix of a well-formed stream: a block of header lines is complete with its blank line
(`findBlankLine_block`), and the loop over chunks takes the chunks that are complete (`readChunks_prefix`).
-/

namespace CollaboraOnline

namespace Http

variable {p q l rest : List UInt8} {n : Nat}

/-! ### Lines -/

private theorem bne_LF (h : LF ∉ p) : ∀ ch ∈ p, (ch != LF) = true := by
  intro ch hch
  rw [bne_iff_ne]
  rintro rfl
  exact h hch

theorem findLineBreak_append (h : LF ∉ l) : findLineBreak (l ++ LF :: rest) = l.length := by
  rw [findLineBreak, List.takeWhile_append_of_pos (bne_LF h)]
  simp

theorem findLineBreak_of_notMem (h : LF ∉ p) : findLineBreak p = p.length := by
  rw [findLineBreak, List.takeWhile_eq_self_iff.2 (bne_LF h)]

/-- A prefix ends within the first part, or goes on behind it. -/
theorem prefix_append_cases {a b : List UInt8} (h : p <+: a ++ b) :
    (p.length < a.length ∧ p <+: a) ∨ ∃ q, p = a ++ q ∧ q <+: b := by
  rcases Nat.lt_or_ge p.length a.length with hlen | hlen
  · exact .inl ⟨hlen, List.prefix_of_prefix_length_le h (List.prefix_append a b) hlen.le⟩
  · obtain ⟨q, rfl⟩ := List.prefix_of_prefix_length_le (List.prefix_append a b) h hlen
    exact .inr ⟨q, rfl, (List.prefix_append_right_inj a).1 h⟩

/-! ### The block of the header -/

/-- Lines with CRLF, and a blank line. -/
def block (lines : List (List UInt8)) : List UInt8 := lines.flatMap (· ++ CRLF) ++ CRLF

theorem block_cons (line : List UInt8) (lines : List (List UInt8)) :
    block (line :: lines) = (line ++ [CR]) ++ LF :: block lines := by
  simp [block, CRLF]

/-- The lines of the fields of a header. -/
theorem fieldLines_spec {headers : List (List UInt8 × List UInt8)} (hne : headers ≠ [])
    (hfields : ∀ pair ∈ headers, LF ∉ pair.1 ∧ LF ∉ pair.2) :
    ∃ line lines, (headers.map fun pair => pair.1 ++ text ": " ++ pair.2) = line :: lines ∧ LF ∉ line ++ [CR] ∧
      (∀ line ∈ lines, line ≠ [] ∧ LF ∉ line) ∧
      4 ≤ (block (headers.map fun pair => pair.1 ++ text ": " ++ pair.2)).length := by
  have hlines : ∀ line ∈ headers.map fun pair => pair.1 ++ text ": " ++ pair.2, 2 ≤ line.length ∧ LF ∉ line := by
    intro line hline
    obtain ⟨pair, hpair, rfl⟩ := List.mem_map.1 hline
    obtain ⟨hkey, hvalue⟩ := hfields pair hpair
    have hcolon : LF ∉ text ": " := by decide
    have htwo : (text ": ").length = 2 := by decide
    refine ⟨by rw [List.length_append, List.length_append]; omega, ?_⟩
    simp only [List.mem_append, not_or]
    exact ⟨⟨hkey, hcolon⟩, hvalue⟩
  have hCR : LF ≠ CR := by decide
  cases h : headers.map fun pair => pair.1 ++ text ": " ++ pair.2 with
  | nil => exact absurd (List.map_eq_nil_iff.1 h) hne
  | cons line lines =>
    rw [h] at hlines
    obtain ⟨hlen, hline⟩ := hlines line (List.mem_cons_self ..)
    refine ⟨line, lines, rfl, by simp [hline, hCR], fun l hl => ?_, ?_⟩
    · obtain ⟨hlen', hl'⟩ := hlines l (List.mem_cons_of_mem _ hl)
      exact ⟨by rw [← List.length_pos_iff]; omega, hl'⟩
    · rw [block_cons]
      simp only [List.length_append, List.length_cons, List.length_nil, block, CRLF]
      omega

theorem findBlankLine_block {lines : List (List UInt8)} (hlines : ∀ line ∈ lines, line ≠ [] ∧ LF ∉ line) :
    ∀ {l p : List UInt8} {n : Nat}, LF ∉ l → p <+: l ++ LF :: (block lines ++ rest) → p.length ≤ n →
      findBlankLine n p =
        if p.length < (l ++ LF :: block lines).length then p.length else l.length + (block lines).length := by
  -- the search jumps over an LF and the two bytes behind it, so it goes on within the next line
  have hshort : ∀ {l p : List UInt8} {n : Nat}, LF ∉ l → p <+: l → findBlankLine n p = p.length := by
    intro l p n hl hp
    cases n with
    | zero => rfl
    | succ n =>
      rw [findBlankLine, findLineBreak_of_notMem fun h => hl (hp.subset h), if_pos (by omega)]
  have hnear : ∀ {l q : List UInt8} {n : Nat}, LF ∉ l → q.length < 2 →
      findBlankLine n (l ++ LF :: q) = (l ++ LF :: q).length := by
    intro l q n hl hq
    cases n with
    | zero => rfl
    | succ n =>
      rw [findBlankLine, findLineBreak_append hl, if_pos]
      rw [List.length_append, List.length_cons]
      omega
  induction lines with
  | nil =>
    intro l p n hl hp hn
    rcases prefix_append_cases hp with ⟨hlen, hp⟩ | ⟨t, rfl, ht⟩
    · rw [hshort hl hp, if_pos (by rw [List.length_append]; omega)]
    · rcases List.prefix_cons_iff.1 ht with rfl | ⟨q, rfl, hq⟩
      · rw [List.append_nil, hshort hl (List.prefix_refl l), if_pos (by simp)]
      · rcases Nat.lt_or_ge q.length 2 with hlen | hlen
        · rw [hnear hl hlen, if_pos (by simp [block, CRLF]; omega)]
        · obtain ⟨q, rfl⟩ := List.prefix_of_prefix_length_le (List.prefix_append CRLF rest) hq hlen
          obtain ⟨n, rfl⟩ : ∃ m, n = m + 1 := ⟨n - 1, by simp at hn; omega⟩
          rw [findBlankLine, findLineBreak_append hl]
          rw [if_neg (by simp [CRLF]), if_pos, if_neg (by simp [block, CRLF])]
          · rfl
          · constructor <;> simp [CRLF, List.getD_eq_getElem?_getD]
  | cons line lines ih =>
    intro l p n hl hp hn
    rw [block_cons] at hp ⊢
    obtain ⟨hne, hline⟩ := hlines line (List.mem_cons_self ..)
    rcases prefix_append_cases hp with ⟨hlen, hp⟩ | ⟨t, rfl, ht⟩
    · rw [hshort hl hp, if_pos (by rw [List.length_append]; omega)]
    · rcases List.prefix_cons_iff.1 ht with rfl | ⟨q, rfl, hq⟩
      · rw [List.append_nil, hshort hl (List.prefix_refl l), if_pos (by simp)]
      · rcases Nat.lt_or_ge q.length 2 with hlen | hlen
        · rw [hnear hl hlen, if_pos (by simp; omega)]
        · -- the second byte of a line, or the CR behind a line of one byte, is no LF
          obtain ⟨a, b, l', hl', hb, hmem⟩ : ∃ a b l', line ++ [CR] = a :: b :: l' ∧ b ≠ LF ∧ LF ∉ l' := by
            match line, hne with
            | [a], _ => exact ⟨a, CR, [], rfl, by decide, List.not_mem_nil⟩
            | a :: b :: l', _ =>
              refine ⟨a, b, l' ++ [CR], rfl, fun h => hline (by simp [h]), ?_⟩
              have hCR : LF ≠ CR := by decide
              simp only [List.mem_cons, not_or] at hline
              simp [hline.2.2, hCR]
          rw [hl'] at hq ⊢
          obtain ⟨q, rfl⟩ : ∃ q', q = a :: b :: q' := by
            have hab : [a, b] <+: q :=
              List.prefix_of_prefix_length_le ⟨l' ++ LF :: block lines ++ rest, by simp⟩ hq hlen
            exact hab.imp fun _ h => h.symm
          have hq' : q <+: l' ++ LF :: (block lines ++ rest) := by simpa using hq
          obtain ⟨n, rfl⟩ : ∃ m, n = m + 1 := ⟨n - 1, by simp at hn; omega⟩
          rw [findBlankLine, findLineBreak_append hl]
          rw [if_neg (by simp), if_neg (by simp [List.getD_eq_getElem?_getD, hb])]
          have hdrop : (l ++ LF :: a :: b :: q).drop (l.length + 3) = q := by
            rw [← List.drop_drop, List.drop_left]
            rfl
          rw [hdrop, ih (fun line h => hlines line (List.mem_cons_of_mem _ h)) hmem hq' (by simp at hn; omega)]
          simp only [List.length_append, List.length_cons]
          split <;> split <;> omega

/-- The reader of a block of lines takes it when it is complete. -/
theorem parse_block {poco : List UInt8 → HeaderRead} {fields : List (List UInt8 × List UInt8)}
    {lines : List (List UInt8)}
    (hlines : ∀ line ∈ lines, line ≠ [] ∧ LF ∉ line) (hl : LF ∉ l) (hlong : 4 ≤ (l ++ LF :: block lines).length)
    (hpoco : ∀ rest, poco ((l ++ LF :: block lines) ++ rest) = .fields fields)
    (hp : p <+: (l ++ LF :: block lines) ++ rest) (hdr : Header) :
    (p.length < (l ++ LF :: block lines).length → hdr.parse poco p = (some 0, hdr)) ∧
    ((l ++ LF :: block lines).length ≤ p.length →
      hdr.parse poco p = (some (l ++ LF :: block lines).length, hdr.read fields)) := by
  have hp' : p <+: l ++ LF :: (block lines ++ rest) := by simpa using hp
  have hfind := findBlankLine_block (n := p.length) hlines hl hp' (Nat.le_refl _)
  have hlength : (l ++ LF :: block lines).length = l.length + (block lines).length + 1 := by
    rw [List.length_append, List.length_cons]
    omega
  constructor
  · intro hlt
    unfold Header.parse
    rw [hfind, if_pos hlt]
    split
    · rfl
    · rw [if_pos rfl]
  · intro hle
    obtain ⟨t, ht⟩ : l ++ LF :: block lines <+: p :=
      List.prefix_of_prefix_length_le (List.prefix_append _ rest) hp hle
    have hend : l.length + (block lines).length ≠ p.length := by omega
    unfold Header.parse
    rw [if_neg (show ¬ p.length < 4 by omega), hfind,
      if_neg (show ¬ p.length < (l ++ LF :: block lines).length by omega)]
    dsimp only
    rw [if_neg hend, ← ht, hpoco t, hlength]

/-! ### Chunks -/

def hexValue (digits : List UInt8) : Nat := digits.foldl (fun n ch => n * 16 + (hexDigitFromChar ch).getD 0) 0

/-- A chunk: the digits of its length, its extensions and its data. -/
structure Chunk where
  digits : List UInt8
  ext : List UInt8
  data : List UInt8
deriving DecidableEq

/-- A line with a length in hexadecimal digits, and extensions. -/
structure SizeLine (digits ext : List UInt8) : Prop where
  ne_nil : digits ≠ []
  hex : ∀ ch ∈ digits, (hexDigitFromChar ch).isSome
  noLF : LF ∉ ext
  stop : ∀ ch ∈ (ext ++ [CR]).head?, hexDigitFromChar ch = none

namespace Chunk

def bytes (c : Chunk) : List UInt8 := (c.digits ++ c.ext ++ [CR]) ++ LF :: (c.data ++ CRLF)

/-- The chunk with its line has a length that is an `int64_t`. -/
structure WellFormed (c : Chunk) : Prop extends SizeLine c.digits c.ext where
  value : hexValue c.digits = c.data.length
  ne_nil_data : c.data ≠ []
  fits : c.bytes.length < 2 ^ 63

end Chunk

/-- The last chunk, with an empty trailer. -/
structure LastChunk where
  digits : List UInt8
  ext : List UInt8
deriving DecidableEq

namespace LastChunk

def line (c : LastChunk) : List UInt8 := c.digits ++ c.ext ++ [CR]

def bytes (c : LastChunk) : List UInt8 := c.line ++ LF :: CRLF

structure WellFormed (c : LastChunk) : Prop extends SizeLine c.digits c.ext where
  value : hexValue c.digits = 0

end LastChunk

private theorem foldl_hex_ge (acc : Nat) (digits : List UInt8) :
    acc ≤ digits.foldl (fun n ch => n * 16 + (hexDigitFromChar ch).getD 0) acc := by
  induction digits generalizing acc with
  | nil => exact Nat.le_refl _
  | cons ch digits ih => exact le_trans (by dsimp only; omega) (ih _)

private theorem foldl_hex_lt (acc : Nat) (digits : List UInt8) :
    digits.foldl (fun n ch => n * 16 + (hexDigitFromChar ch).getD 0) acc < (acc + 1) * 16 ^ digits.length := by
  induction digits generalizing acc with
  | nil => simp
  | cons ch digits ih =>
    have hdigit : (hexDigitFromChar ch).getD 0 < 16 := by
      have := ch.toNat_lt
      unfold hexDigitFromChar
      simp only [Bool.and_eq_true, decide_eq_true_eq, UInt8.le_iff_toNat_le]
      split_ifs <;> simp_all <;> omega
    rw [List.foldl_cons, List.length_cons, Nat.pow_succ]
    refine (ih _).trans_le ?_
    calc (acc * 16 + (hexDigitFromChar ch).getD 0 + 1) * 16 ^ digits.length
        ≤ ((acc + 1) * 16) * 16 ^ digits.length := Nat.mul_le_mul_right _ (by omega)
      _ = (acc + 1) * (16 ^ digits.length * 16) := by ring

/-- A length that fits is read, up to a byte that is no digit. -/
theorem readChunkLen_digits {digits : List UInt8} (hhex : ∀ ch ∈ digits, (hexDigitFromChar ch).isSome)
    (hstop : ∀ ch ∈ rest.head?, hexDigitFromChar ch = none) (acc : Nat)
    (hfits : digits.foldl (fun n ch => n * 16 + (hexDigitFromChar ch).getD 0) acc < 2 ^ 63 - 16) :
    readChunkLen acc (digits ++ rest) =
      some (digits.foldl (fun n ch => n * 16 + (hexDigitFromChar ch).getD 0) acc) := by
  induction digits generalizing acc with
  | nil =>
    cases rest with
    | nil => rfl
    | cons ch rest =>
      rw [List.nil_append, readChunkLen, hstop ch rfl]
      rfl
  | cons ch digits ih =>
    obtain ⟨d, hd⟩ := Option.isSome_iff_exists.1 (hhex ch (List.mem_cons_self ..))
    rw [List.foldl_cons] at hfits ⊢
    have hge := foldl_hex_ge (acc * 16 + (hexDigitFromChar ch).getD 0) digits
    rw [List.cons_append, readChunkLen, hd]
    rw [hd] at hge hfits
    dsimp only [Option.getD_some] at hge hfits ⊢
    rw [if_neg (by omega)]
    exact ih (fun ch h => hhex ch (List.mem_cons_of_mem _ h)) _ hfits

namespace SizeLine

variable {digits ext : List UInt8}

theorem notMem (h : SizeLine digits ext) : LF ∉ digits ++ ext ++ [CR] := by
  have hdigit : LF ∉ digits := fun hmem => absurd (h.hex LF hmem) (by decide)
  have hCR : LF ≠ CR := by decide
  simp [hdigit, h.noLF, hCR]

theorem readChunkLen_eq (h : SizeLine digits ext) (hfits : hexValue digits < 2 ^ 63 - 16) (rest : List UInt8) :
    readChunkLen 0 (digits ++ ext ++ [CR] ++ rest) = some (hexValue digits) := by
  rw [List.append_assoc, List.append_assoc, ← List.append_assoc ext]
  refine readChunkLen_digits h.hex ?_ 0 hfits
  intro ch hch
  refine h.stop ch ?_
  cases hext : ext ++ [CR] with
  | nil => simp at hext
  | cons a l =>
    rw [hext] at hch
    exact hch

theorem head (h : SizeLine digits ext) (rest : List UInt8) :
    ∃ ch l, digits ++ ext ++ [CR] ++ rest = ch :: l ∧ (ch == CR || ch == LF) = false := by
  match digits, h with
  | [], h => exact absurd rfl h.ne_nil
  | ch :: digits, h =>
    refine ⟨ch, _, rfl, ?_⟩
    have hhex := h.hex ch (List.mem_cons_self ..)
    by_contra hbad
    rw [Bool.not_eq_false, Bool.or_eq_true, beq_iff_eq, beq_iff_eq] at hbad
    rcases hbad with rfl | rfl <;> exact absurd hhex (by decide)

end SizeLine

/-! ### The loop over chunks -/

/-- A size line that is not complete is left alone. -/
theorem readChunks_line (h : LF ∉ p) (n : Nat) : readChunks n p = ⟨some 0, [], false⟩ := by
  cases n with
  | zero => rfl
  | succ n =>
    rw [readChunks, findLineBreak_of_notMem h, if_pos rfl, ite_self]

section Loop

variable {c : Chunk} {last : LastChunk}

theorem Chunk.WellFormed.value_lt (h : c.WellFormed) : hexValue c.digits < 2 ^ 63 - 16 := by
  have hvalue := h.value
  have hfits := h.fits
  have hlt : hexValue c.digits < 16 ^ c.digits.length := by
    have := foldl_hex_lt 0 c.digits
    rwa [Nat.zero_add, Nat.one_mul] at this
  simp only [Chunk.bytes, CRLF, List.length_append, List.length_cons, List.length_nil] at hfits
  by_contra hge
  -- fifteen digits give less than that, and sixteen do not fit
  have hlong : 15 < c.digits.length := by
    by_contra hshort
    have : 16 ^ c.digits.length ≤ 16 ^ 15 := Nat.pow_le_pow_right (by decide) (by omega)
    omega
  omega

section SizeLine

variable {digits ext : List UInt8} (h : SizeLine digits ext) (hfits : hexValue digits < 2 ^ 63 - 16)

include h

private theorem line_complete : digits ++ ext ++ [CR] ++ LF :: q ≠ [] ∧
    findLineBreak (digits ++ ext ++ [CR] ++ LF :: q) ≠ (digits ++ ext ++ [CR] ++ LF :: q).length ∧
    findLineBreak (digits ++ ext ++ [CR] ++ LF :: q) + 1 = (digits ++ ext ++ [CR]).length + 1 := by
  rw [findLineBreak_append h.notMem]
  have hlength : (digits ++ ext ++ [CR] ++ LF :: q).length = (digits ++ ext ++ [CR]).length + (q.length + 1) :=
    List.length_append
  exact ⟨by simp, by omega, rfl⟩

include hfits

theorem readChunks_last (hvalue : hexValue digits = 0) :
    readChunks (n + 1) (digits ++ ext ++ [CR] ++ LF :: q) =
      ⟨some (digits ++ ext ++ [CR] ++ LF :: q).length, [], true⟩ := by
  obtain ⟨hne, hline, _⟩ := line_complete (q := q) h
  rw [readChunks, if_neg hne, if_neg hline, h.readChunkLen_eq hfits, hvalue]
  rfl

theorem readChunks_wait (hvalue : hexValue digits ≠ 0) (hq : q.length < hexValue digits + 2) :
    readChunks (n + 1) (digits ++ ext ++ [CR] ++ LF :: q) = ⟨some 0, [], false⟩ := by
  obtain ⟨hne, hline, hoff⟩ := line_complete (q := q) h
  have hlength : (digits ++ ext ++ [CR] ++ LF :: q).length = (digits ++ ext ++ [CR]).length + (q.length + 1) :=
    List.length_append
  rw [readChunks, if_neg hne, if_neg hline, h.readChunkLen_eq hfits, hoff]
  dsimp only
  rw [if_neg hvalue, if_pos (by omega)]

end SizeLine

/-- A complete chunk is taken with its CRLF, where no CR or LF stands behind it. -/
theorem readChunks_take (h : c.WellFormed) (hq : ∀ ch ∈ q.head?, (ch == CR || ch == LF) = false) :
    readChunks (n + 1) (c.bytes ++ q) =
      ⟨(readChunks n q).consumed.map (c.bytes.length + ·), c.data ++ (readChunks n q).body,
      (readChunks n q).finished⟩ := by
  have hbytes : c.bytes ++ q = c.digits ++ c.ext ++ [CR] ++ LF :: (c.data ++ CRLF ++ q) := by
    simp [Chunk.bytes]
  obtain ⟨hne, hline, hoff⟩ := line_complete (q := c.data ++ CRLF ++ q) h.toSizeLine
  have hvalue := h.value
  have hpos := List.length_pos_iff.2 h.ne_nil_data
  have hlength : c.bytes.length = (c.digits ++ c.ext ++ [CR]).length + 1 + c.data.length + 2 := by
    simp [Chunk.bytes, CRLF]
    omega
  have hdrop : (c.digits ++ c.ext ++ [CR] ++ LF :: (c.data ++ CRLF ++ q)).drop
    ((c.digits ++ c.ext ++ [CR]).length + 1) =
      c.data ++ CRLF ++ q := by
    rw [← List.drop_drop, List.drop_left]
    rfl
  have hrest : (c.digits ++ c.ext ++ [CR] ++ LF :: (c.data ++ CRLF ++ q)).drop
      ((c.digits ++ c.ext ++ [CR]).length + 1 + c.data.length) = CRLF ++ q := by
    rw [← List.drop_drop, hdrop, List.append_assoc, List.drop_left]
  have hskip : skipCRLF (CRLF ++ q) = 2 := by
    cases q with
    | nil => rfl
    | cons ch q =>
      have hch := hq ch rfl
      simp only [skipCRLF, CRLF, List.cons_append, List.nil_append, List.takeWhile_cons, hch]
      rfl
  rw [hbytes, readChunks, if_neg hne, if_neg hline, h.toSizeLine.readChunkLen_eq h.value_lt, hoff, hvalue]
  dsimp only
  rw [if_neg (by omega), hrest, hskip, hdrop, if_neg]
  · have htake : (c.data ++ CRLF ++ q).take c.data.length = c.data := by rw [List.append_assoc, List.take_left]
    have hq2 : (CRLF ++ q).drop 2 = q := rfl
    rw [htake, hq2, hlength]
  · rw [← List.length_drop, hdrop, List.length_append, List.length_append]
    simp [CRLF]

/-- The loop takes the chunks that are complete. -/
theorem readChunks_prefix {cs : List Chunk} (hcs : ∀ c ∈ cs, c.WellFormed) (hlast : last.WellFormed) :
    ∀ {p : List UInt8} {n : Nat}, p <+: cs.flatMap Chunk.bytes ++ (last.line ++ LF :: rest) → p.length ≤ n →
      (p.length < (cs.flatMap Chunk.bytes).length + last.line.length + 1 →
        ∃ before after, cs = before ++ after ∧ (before.flatMap Chunk.bytes).length ≤ p.length ∧
          readChunks n p = ⟨some (before.flatMap Chunk.bytes).length, before.flatMap Chunk.data, false⟩) ∧
      ((cs.flatMap Chunk.bytes).length + last.line.length + 1 ≤ p.length →
        readChunks n p = ⟨some p.length, cs.flatMap Chunk.data, true⟩) := by
  induction cs with
  | nil =>
    intro p n hp hn
    have hfits : hexValue last.digits < 2 ^ 63 - 16 := by
      rw [hlast.value]
      decide
    rcases prefix_append_cases (a := last.line) hp with ⟨hlen, hp⟩ | ⟨q, rfl, hq⟩
    · refine ⟨fun _ => ⟨[], [], rfl, Nat.zero_le _, ?_⟩, fun h => ?_⟩
      · exact readChunks_line (fun hmem => hlast.toSizeLine.notMem (hp.subset hmem)) n
      · simp at h
        omega
    · rcases List.prefix_cons_iff.1 hq with rfl | ⟨q, rfl, hq⟩
      · refine ⟨fun _ => ⟨[], [], rfl, Nat.zero_le _, ?_⟩, fun h => ?_⟩
        · rw [List.append_nil]
          exact readChunks_line hlast.toSizeLine.notMem n
        · simp at h
      · obtain ⟨n, rfl⟩ : ∃ m, n = m + 1 := ⟨n - 1, by simp at hn; omega⟩
        refine ⟨fun h => ?_, fun _ => ?_⟩
        · simp at h
        · exact readChunks_last hlast.toSizeLine hfits hlast.value
  | cons c cs ih =>
    intro p n hp hn
    have hc := hcs c (List.mem_cons_self ..)
    rw [List.flatMap_cons, List.append_assoc] at hp
    rcases prefix_append_cases hp with ⟨hlen, hp⟩ | ⟨q, rfl, hq⟩
    · -- the first chunk is not complete
      refine ⟨fun _ => ⟨[], c :: cs, rfl, Nat.zero_le _, ?_⟩, fun h => ?_⟩
      · rw [Chunk.bytes] at hp
        rcases prefix_append_cases hp with ⟨_, hp⟩ | ⟨t, rfl, ht⟩
        · exact readChunks_line (fun hmem => hc.toSizeLine.notMem (hp.subset hmem)) n
        · rcases List.prefix_cons_iff.1 ht with rfl | ⟨q, rfl, hq⟩
          · rw [List.append_nil]
            exact readChunks_line hc.toSizeLine.notMem n
          · obtain ⟨n, rfl⟩ : ∃ m, n = m + 1 := ⟨n - 1, by simp at hn; omega⟩
            have hpos := List.length_pos_iff.2 hc.ne_nil_data
            have hvalue := hc.value
            refine readChunks_wait hc.toSizeLine hc.value_lt (by omega) ?_
            simp [Chunk.bytes, CRLF] at hlen
            omega
      · simp at h
        omega
    · -- it is complete, and the next size line begins with a digit
      have hlength : (c.bytes ++ q).length = c.bytes.length + q.length := List.length_append
      have hpos : 0 < c.bytes.length := by simp [Chunk.bytes]
      have hflat : ((c :: cs).flatMap Chunk.bytes).length = c.bytes.length + (cs.flatMap Chunk.bytes).length := by
        rw [List.flatMap_cons, List.length_append]
      obtain ⟨n, rfl⟩ : ∃ m, n = m + 1 := ⟨n - 1, by omega⟩
      have hhead : ∀ ch ∈ q.head?, (ch == CR || ch == LF) = false := by
        intro ch hch
        obtain ⟨ch', l, hl, hch'⟩ : ∃ ch' l, cs.flatMap Chunk.bytes ++ (last.line ++ LF :: rest) = ch' :: l ∧
            (ch' == CR || ch' == LF) = false := by
          cases cs with
          | nil => exact hlast.toSizeLine.head (LF :: rest)
          | cons d cs =>
            have hd := (hcs d (by simp)).toSizeLine.head
              (LF :: (d.data ++ CRLF) ++ (cs.flatMap Chunk.bytes ++ (last.line ++ LF :: rest)))
            simpa [Chunk.bytes] using hd
        rw [hl] at hq
        rcases List.prefix_cons_iff.1 hq with rfl | ⟨t, rfl, _⟩
        · cases hch
        · cases hch
          exact hch'
      obtain ⟨hless, hmore⟩ := ih (n := n) (fun d hd => hcs d (List.mem_cons_of_mem _ hd)) hq (by omega)
      rw [readChunks_take hc hhead]
      constructor
      · intro h
        obtain ⟨before, after, hcs', hle, hread⟩ := hless (by omega)
        refine ⟨c :: before, after, by rw [hcs', List.cons_append], ?_, ?_⟩
        · rw [List.flatMap_cons, List.length_append]
          omega
        · rw [hread]
          simp
      · intro h
        rw [hmore (by omega)]
        simp

end Loop

end Http

end CollaboraOnline
