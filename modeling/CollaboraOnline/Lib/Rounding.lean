import Mathlib.Data.Int.Log
import Mathlib.Data.Rat.Floor
import Mathlib.Tactic.FieldSimp
import Mathlib.Tactic.Linarith
import Mathlib.Tactic.Positivity
import Mathlib.Tactic.Ring

/-!
# Rounding to a precision

A floating-point operation gives the number of the precision that is nearest to the exact result, and of two the one
with the even significand (`round`).  Exponents are not bounded: overflow and underflow are left out.  Rounding is
monotone and keeps the numbers of the precision (`IsFloat`).  It reaches a whole number from the middle between that
number and the one below it on (`natCast_le_round_iff`), so that the whole part of a rounded quotient is that of the
quotient (`natCast_le_round_div_iff`).  An `Arithmetic` says what becomes of exact results, so that one definition has
an exact and a floating-point meaning.
-/

namespace Rounding

/-! ### Whole numbers -/

/-- The nearest whole number, and of two the even one. -/
def roundEven (x : ℚ) : ℤ :=
  if x - ⌊x⌋ < 1 / 2 ∨ x - ⌊x⌋ = 1 / 2 ∧ Even ⌊x⌋ then ⌊x⌋ else ⌊x⌋ + 1

variable {x y : ℚ} {n : ℤ}

theorem roundEven_intCast (n : ℤ) : roundEven n = n := by
  unfold roundEven
  rw [Int.floor_intCast, sub_self, if_pos (.inl (by norm_num))]

theorem floor_le_roundEven (x : ℚ) : ⌊x⌋ ≤ roundEven x := by
  unfold roundEven
  split <;> omega

theorem roundEven_le_floor_add_one (x : ℚ) : roundEven x ≤ ⌊x⌋ + 1 := by
  unfold roundEven
  split <;> omega

theorem roundEven_mono (hxy : x ≤ y) : roundEven x ≤ roundEven y := by
  rcases (Int.floor_mono hxy).lt_or_eq with hlt | heq
  · exact (roundEven_le_floor_add_one x).trans ((Int.add_one_le_of_lt hlt).trans (floor_le_roundEven y))
  · unfold roundEven
    rw [heq]
    split
    · split <;> omega
    · rename_i hx
      rw [if_neg]
      obtain ⟨hnot, htie⟩ := not_or.1 hx
      rintro (hlt | ⟨hy, heven⟩)
      · linarith
      · exact htie ⟨by linarith, heven⟩

/-- An even number is reached half a unit before it. -/
theorem le_roundEven_iff (hn : Even n) : n ≤ roundEven x ↔ (n : ℚ) - 1 / 2 ≤ x := by
  constructor
  · intro hle
    by_contra hlt
    have hx : x < n := by linarith
    have hfloor : ⌊x⌋ < n := Int.floor_lt.2 hx
    have hnext := roundEven_le_floor_add_one x
    have heq : ⌊x⌋ = n - 1 := by omega
    unfold roundEven at hle
    rw [if_pos] at hle
    · omega
    · rw [heq]
      push_cast
      exact .inl (by linarith)
  · intro hle
    rcases le_or_gt (n : ℚ) x with hx | hx
    · exact (Int.le_floor.2 hx).trans (floor_le_roundEven x)
    · have heq : ⌊x⌋ = n - 1 := by
        rw [Int.floor_eq_iff]
        push_cast
        exact ⟨by linarith, by linarith⟩
      unfold roundEven
      rw [if_neg, heq]
      · omega
      · rw [heq]
        push_cast
        rintro (hlt | ⟨-, hodd⟩)
        · linarith
        · rw [Int.even_sub_one] at hodd
          exact hodd hn

theorem roundEven_neg (x : ℚ) : roundEven (-x) = -roundEven x := by
  have hceil : ⌊-x⌋ = -⌈x⌉ := Int.floor_neg
  rcases eq_or_ne (⌊x⌋ : ℚ) x with hx | hx
  · rw [← hx, ← Int.cast_neg, roundEven_intCast, roundEven_intCast]
  · have hlt : (⌊x⌋ : ℚ) < x := lt_of_le_of_ne (Int.floor_le x) hx
    have hup : ⌈x⌉ = ⌊x⌋ + 1 := by
      rw [Int.ceil_eq_iff]
      push_cast
      exact ⟨by linarith, (Int.lt_floor_add_one x).le⟩
    -- What is nearer to the one neighbour of `x` is so to its negative for `-x`, and of two neighbours one is even.
    have hnear : (x - ⌊x⌋ < 1 / 2 ∨ x - ⌊x⌋ = 1 / 2 ∧ Even ⌊x⌋) ↔
        ¬ (-x - (-⌈x⌉ : ℤ) < 1 / 2 ∨ -x - (-⌈x⌉ : ℤ) = 1 / 2 ∧ Even (-⌈x⌉)) := by
      rw [hup, even_neg, Int.even_add_one]
      push_cast
      rcases lt_trichotomy (x - ⌊x⌋) (1 / 2) with hlow | htie | hhigh
      · refine iff_of_true (.inl hlow) ?_
        rintro (h | ⟨h, -⟩) <;> linarith
      · have htie' : -x - -((⌊x⌋ : ℚ) + 1) = 1 / 2 := by linarith
        rw [htie, htie']
        simp
      · refine iff_of_false ?_ (not_not.2 (.inl (by linarith)))
        rintro (h | ⟨h, -⟩) <;> linarith
    unfold roundEven
    rw [hceil, ← ite_not, hup]
    rw [hup] at hnear
    simp only [← hnear]
    split <;> omega

theorem roundEven_le_iff (hn : Even n) : roundEven x ≤ n ↔ x ≤ (n : ℚ) + 1 / 2 := by
  have hneg := le_roundEven_iff (x := -x) (Even.neg hn)
  rw [roundEven_neg, neg_le_neg_iff] at hneg
  rw [hneg]
  push_cast
  constructor <;> intro h <;> linarith

/-! ### The numbers of a precision -/

section Precision

variable (p : ℕ)

/-- The distance of the numbers of the precision that are as large as `x`. -/
def ulp (x : ℚ) : ℚ := 2 ^ (Int.log 2 |x| + 1 - p)

/-- The nearest number of the precision, and of two the one with the even significand. -/
def round (x : ℚ) : ℚ := roundEven (x / ulp p x) * ulp p x

/-- `x` is a number of the precision. -/
def IsFloat (x : ℚ) : Prop := ∃ m e : ℤ, |m| ≤ 2 ^ p ∧ x = m * 2 ^ e

theorem ulp_pos (x : ℚ) : 0 < ulp p x := zpow_pos two_pos _

theorem ulp_neg (x : ℚ) : ulp p (-x) = ulp p x := by
  unfold ulp
  rw [abs_neg]

theorem round_zero : round p 0 = 0 := by
  unfold round
  rw [zero_div, ← Int.cast_zero, roundEven_intCast, Int.cast_zero, zero_mul]

theorem round_neg (x : ℚ) : round p (-x) = -round p x := by
  unfold round
  rw [ulp_neg, neg_div, roundEven_neg, Int.cast_neg, neg_mul]

variable {p} {a s : ℚ} {k : ℕ}

theorem ulp_of_pos (hx : 0 < x) : ulp p x = 2 ^ (Int.log 2 x + 1 - p) := by
  unfold ulp
  rw [abs_of_pos hx]

theorem ulp_mul_pow (hx : 0 < x) : ulp p x * 2 ^ p = 2 ^ (Int.log 2 x + 1) := by
  rw [ulp_of_pos hx, ← zpow_natCast, ← zpow_add₀ two_ne_zero, sub_add_cancel]

theorem isFloat_intCast (hn : |n| ≤ 2 ^ p) : IsFloat p (n : ℚ) := ⟨n, 0, hn, by simp⟩

/-- A whole number is taken from a larger number exactly. -/
theorem isFloat_sub_intCast (h : IsFloat p x) (hn : 0 ≤ n) (hle : (n : ℚ) ≤ x) (hx : x ≤ 2 ^ p) :
    IsFloat p (x - n) := by
  obtain ⟨m, e, hm, rfl⟩ := h
  have hnQ : (0 : ℚ) ≤ n := Int.cast_nonneg hn
  rcases le_or_gt 0 e with he | he
  · obtain ⟨k, rfl⟩ := Int.eq_ofNat_of_zero_le he
    refine ⟨m * 2 ^ k - n, 0, ?_, by push_cast; rw [zpow_natCast]; ring⟩
    rw [zpow_natCast] at hle hx
    rw [abs_le]
    have hle' : n ≤ m * 2 ^ k := by exact_mod_cast hle
    have hx' : m * 2 ^ k ≤ 2 ^ p := by exact_mod_cast hx
    have hpow : (0 : ℤ) ≤ 2 ^ p := by positivity
    omega
  · obtain ⟨k, hk⟩ := Int.eq_ofNat_of_zero_le (show 0 ≤ -e by omega)
    obtain rfl : e = -k := by omega
    refine ⟨m - n * 2 ^ k, -k, ?_, ?_⟩
    · have hle' : n * 2 ^ k ≤ m := by
        rw [zpow_neg, zpow_natCast, ← div_eq_mul_inv, le_div_iff₀ (by positivity)] at hle
        exact_mod_cast hle
      have hpos : 0 ≤ n * 2 ^ k := by positivity
      have hm' := (abs_le.1 hm).2
      rw [abs_of_nonneg (sub_nonneg.2 hle')]
      omega
    · push_cast
      rw [zpow_neg, zpow_natCast]
      field_simp

/-- Rounding does not leave the powers of two around a number. -/
theorem pow_log_le_round [NeZero p] (hx : 0 < x) : (2 : ℚ) ^ Int.log 2 x ≤ round p x := by
  obtain ⟨q, hq⟩ := Nat.exists_eq_succ_of_ne_zero (NeZero.ne p)
  have hunits : (2 : ℚ) ^ Int.log 2 x = ((2 ^ q : ℤ) : ℚ) * ulp p x := by
    rw [ulp_of_pos hx, hq]
    push_cast
    rw [← zpow_natCast, ← zpow_add₀ two_ne_zero]
    congr 1
    omega
  have hlow : ((2 ^ q : ℤ) : ℚ) ≤ x / ulp p x := by
    rw [le_div_iff₀ (ulp_pos p x), ← hunits]
    exact Int.zpow_log_le_self (b := 2) one_lt_two hx
  have hround := roundEven_mono hlow
  rw [roundEven_intCast] at hround
  unfold round
  rw [hunits]
  exact mul_le_mul_of_nonneg_right (Int.cast_le.2 hround) (ulp_pos p x).le

theorem round_le_pow_log (hx : 0 < x) : round p x ≤ (2 : ℚ) ^ (Int.log 2 x + 1) := by
  have hunits : (2 : ℚ) ^ (Int.log 2 x + 1) = ((2 ^ p : ℤ) : ℚ) * ulp p x := by
    rw [← ulp_mul_pow hx, mul_comm]
    push_cast
    rfl
  have hhigh : x / ulp p x ≤ ((2 ^ p : ℤ) : ℚ) := by
    rw [div_le_iff₀ (ulp_pos p x), ← hunits]
    exact (Int.lt_zpow_succ_log_self (b := 2) one_lt_two x).le
  have hround := roundEven_mono hhigh
  rw [roundEven_intCast] at hround
  unfold round
  rw [hunits]
  exact mul_le_mul_of_nonneg_right (Int.cast_le.2 hround) (ulp_pos p x).le

variable [NeZero p]

theorem round_pos (hx : 0 < x) : 0 < round p x := (zpow_pos two_pos _).trans_le (pow_log_le_round hx)

theorem round_nonneg (hx : 0 ≤ x) : 0 ≤ round p x := by
  rcases hx.eq_or_lt with rfl | hx
  · rw [round_zero]
  · exact (round_pos hx).le

theorem round_lt_zero (hx : x < 0) : round p x < 0 := by
  have hpos := round_pos (p := p) (neg_pos.2 hx)
  rw [round_neg] at hpos
  linarith

theorem round_le_round_of_pos (hx : 0 < x) (hxy : x ≤ y) : round p x ≤ round p y := by
  have hy : 0 < y := hx.trans_le hxy
  rcases (Int.log_mono_right (b := 2) hx hxy).lt_or_eq with hlt | heq
  · have hpow : (2 : ℚ) ^ (Int.log 2 x + 1) ≤ 2 ^ Int.log 2 y := zpow_le_zpow_right₀ one_le_two hlt
    exact (round_le_pow_log hx).trans (hpow.trans (pow_log_le_round hy))
  · have hulp : ulp p x = ulp p y := by rw [ulp_of_pos hx, ulp_of_pos hy, heq]
    unfold round
    rw [hulp]
    refine mul_le_mul_of_nonneg_right (Int.cast_le.2 (roundEven_mono ?_)) (ulp_pos p y).le
    exact div_le_div_of_nonneg_right hxy (ulp_pos p y).le

variable (p) in
theorem round_mono : Monotone (round p) := by
  intro x y hxy
  rcases lt_trichotomy x 0 with hx | rfl | hx
  · rcases lt_or_ge y 0 with hy | hy
    · have hneg := round_le_round_of_pos (p := p) (neg_pos.2 hy) (neg_le_neg hxy)
      rw [round_neg, round_neg] at hneg
      exact neg_le_neg_iff.1 hneg
    · exact (round_lt_zero hx).le.trans (round_nonneg hy)
  · rw [round_zero]
    exact round_nonneg hxy
  · exact round_le_round_of_pos hx hxy

/-! ### Numbers that are kept -/

theorem round_of_isFloat_of_pos (h : IsFloat p x) (hx : 0 < x) : round p x = x := by
  obtain ⟨m, e, hm, rfl⟩ := h
  have he : (0 : ℚ) < 2 ^ e := zpow_pos two_pos _
  have hmpos : (0 : ℚ) < m := pos_of_mul_pos_left hx he.le
  rw [abs_of_pos (Int.cast_pos.1 hmpos)] at hm
  have hmle : (m : ℚ) ≤ 2 ^ p := by exact_mod_cast hm
  have hlow : (2 : ℚ) ^ Int.log 2 ((m : ℚ) * 2 ^ e) ≤ m * 2 ^ e := Int.zpow_log_le_self (b := 2) one_lt_two hx
  have hle : (2 : ℚ) ^ Int.log 2 ((m : ℚ) * 2 ^ e) ≤ 2 ^ ((p : ℤ) + e) := by
    refine hlow.trans ?_
    rw [zpow_add₀ two_ne_zero, zpow_natCast]
    exact mul_le_mul_of_nonneg_right hmle he.le
  have hlog : Int.log 2 ((m : ℚ) * 2 ^ e) ≤ p + e := (zpow_le_zpow_iff_right₀ one_lt_two).1 hle
  -- A whole number of units, also where the significand is the power of two behind the last one.
  have hwhole : ∃ n : ℤ, (m : ℚ) * 2 ^ e / ulp p (m * 2 ^ e) = n := by
    rcases hlog.lt_or_eq with hlt | heq
    · obtain ⟨k, hk⟩ := Int.eq_ofNat_of_zero_le (show 0 ≤ e - (Int.log 2 ((m : ℚ) * 2 ^ e) + 1 - p) by omega)
      refine ⟨m * 2 ^ k, ?_⟩
      rw [ulp_of_pos hx, mul_div_assoc, ← zpow_sub₀ two_ne_zero, hk]
      push_cast
      rw [zpow_natCast]
    · have hmeq : (m : ℚ) = 2 ^ p := by
        refine le_antisymm hmle (le_of_mul_le_mul_right ?_ he)
        rw [heq, zpow_add₀ two_ne_zero, zpow_natCast] at hlow
        exact hlow
      obtain ⟨q, hq⟩ := Nat.exists_eq_succ_of_ne_zero (NeZero.ne p)
      refine ⟨2 ^ q, ?_⟩
      rw [ulp_of_pos hx, heq, hmeq, div_eq_iff (zpow_pos two_pos _).ne']
      push_cast
      rw [← zpow_natCast, ← zpow_natCast, ← zpow_add₀ two_ne_zero, ← zpow_add₀ two_ne_zero]
      congr 1
      omega
  obtain ⟨n, hn⟩ := hwhole
  rw [round, hn, roundEven_intCast, ← hn, div_mul_cancel₀ _ (ulp_pos p _).ne']

theorem round_of_isFloat (h : IsFloat p x) : round p x = x := by
  rcases lt_trichotomy x 0 with hx | rfl | hx
  · have hneg : IsFloat p (-x) := by
      obtain ⟨m, e, hm, rfl⟩ := h
      exact ⟨-m, e, by rwa [abs_neg], by push_cast; ring⟩
    have hround := round_of_isFloat_of_pos hneg (neg_pos.2 hx)
    rw [round_neg] at hround
    exact neg_inj.1 hround
  · exact round_zero p
  · exact round_of_isFloat_of_pos h hx

theorem round_intCast (hn : |n| ≤ 2 ^ p) : round p (n : ℚ) = n := round_of_isFloat (isFloat_intCast hn)

/-! ### Whole numbers that are reached -/

variable (p) in
/-- From where on a positive whole number is reached: the middle between it and the number before it. -/
def cut (n : ℕ) : ℚ := if n = 0 then 0 else n - 2 ^ ((Nat.clog 2 n : ℤ) - p - 1)

variable (p) in
/-- Up to where a positive whole number is not passed. -/
def cutAbove (n : ℕ) : ℚ := n + 2 ^ ((Nat.log 2 n : ℤ) - p)

section Cut

variable {k : ℕ}

/-- A whole number, which is not too large for its half to be one of the precision, has an even number of the units
before it. -/
theorem exists_even_units {c : ℕ} (k : ℕ) (hc : c < p) : ∃ N : ℤ, Even N ∧ (k : ℚ) = N * 2 ^ ((c : ℤ) - p) := by
  obtain ⟨j, rfl⟩ := Nat.exists_eq_add_of_lt hc
  refine ⟨k * 2 ^ (j + 1), (even_two.pow_of_ne_zero (Nat.succ_ne_zero j)).mul_left _, ?_⟩
  have hexp : (c : ℤ) - ((c + j + 1 : ℕ) : ℤ) = -((j + 1 : ℕ) : ℤ) := by
    push_cast
    ring
  rw [hexp, zpow_neg, zpow_natCast]
  push_cast
  rw [mul_assoc, mul_inv_cancel₀ (by positivity), mul_one]

theorem clog_bounds (hk : 0 < k) : (2 : ℚ) ^ ((Nat.clog 2 k : ℤ) - 1) < k ∧ (k : ℚ) ≤ 2 ^ (Nat.clog 2 k : ℤ) := by
  have hkQ : (0 : ℚ) < k := Nat.cast_pos.2 hk
  rw [← Int.clog_natCast (R := ℚ)]
  exact ⟨Int.zpow_pred_clog_lt_self one_lt_two hkQ, Int.self_le_zpow_clog one_lt_two (k : ℚ)⟩

theorem clog_lt (hk : 2 * k ≤ 2 ^ p) : Nat.clog 2 k < p := by
  obtain ⟨q, hq⟩ := Nat.exists_eq_succ_of_ne_zero (NeZero.ne p)
  rw [hq, Nat.pow_succ, mul_comm] at hk
  have := Nat.clog_le_of_le_pow (b := 2) (Nat.le_of_mul_le_mul_right hk two_pos)
  omega

/-- A whole number is reached from the middle before it on. -/
theorem natCast_le_round_iff (hk : 2 * k ≤ 2 ^ p) : (k : ℚ) ≤ round p x ↔ cut p k ≤ x := by
  unfold cut
  rcases Nat.eq_zero_or_pos k with rfl | hpos
  · rw [if_pos rfl, Nat.cast_zero]
    exact ⟨fun hle => not_lt.1 fun hlt => absurd hle (not_le.2 (round_lt_zero hlt)), round_nonneg⟩
  rw [if_neg hpos.ne']
  have hclog := clog_lt hk
  obtain ⟨hlow, hhigh⟩ := clog_bounds hpos
  obtain ⟨N, heven, hN⟩ := exists_even_units k hclog
  generalize Nat.clog 2 k = c at hclog hlow hhigh hN ⊢
  have hkQ : (0 : ℚ) < k := Nat.cast_pos.2 hpos
  have hunit : (0 : ℚ) < 2 ^ ((c : ℤ) - p) := zpow_pos two_pos _
  have hhalf : (2 : ℚ) ^ ((c : ℤ) - p - 1) = 2 ^ ((c : ℤ) - p) / 2 := by
    rw [zpow_sub_one₀ two_ne_zero]
    rfl
  -- In the binade before the number its units decide.
  have hbinade (hx : 0 < x) (hlog : Int.log 2 x = c - 1) :
      (k : ℚ) ≤ round p x ↔ (k : ℚ) - 2 ^ ((c : ℤ) - p) / 2 ≤ x := by
    have hulp : ulp p x = 2 ^ ((c : ℤ) - p) := by
      rw [ulp_of_pos hx, hlog]
      congr 1
      omega
    rw [round, hulp, hN, mul_le_mul_iff_of_pos_right hunit, Int.cast_le, le_roundEven_iff heven, le_div_iff₀ hunit]
    constructor <;> intro h <;> linarith
  rw [hhalf]
  rcases le_or_gt x 0 with hx | hx
  · have hround : round p x ≤ 0 := by
      have hmono := round_mono p hx
      rwa [round_zero] at hmono
    have hsmall : (2 : ℚ) ^ ((c : ℤ) - p) ≤ 2 ^ ((c : ℤ) - 1) := zpow_le_zpow_right₀ one_le_two (by omega)
    exact iff_of_false (by linarith) (by linarith)
  rcases lt_or_ge x k with hlt | hge
  · have hlog : Int.log 2 x < c := (Int.lt_zpow_iff_log_lt one_lt_two hx).1 (hlt.trans_le hhigh)
    rcases (Int.le_sub_one_of_lt hlog).eq_or_lt with heq | hbelow
    · exact hbinade hx heq
    · have hround := round_le_pow_log (p := p) hx
      have hpow : (2 : ℚ) ^ (Int.log 2 x + 1) ≤ 2 ^ ((c : ℤ) - 1) := zpow_le_zpow_right₀ one_le_two (by omega)
      have hbefore : x < 2 ^ ((c : ℤ) - 1) := (Int.lt_zpow_iff_log_lt one_lt_two hx).2 hbelow
      -- The number is a unit above the power of two.
      have hstep : (2 : ℚ) ^ ((c : ℤ) - 1) ≤ k - 2 ^ ((c : ℤ) - p) := by
        obtain ⟨q, hq⟩ := Nat.exists_eq_succ_of_ne_zero (NeZero.ne p)
        have hunits : (2 : ℚ) ^ ((c : ℤ) - 1) = ((2 ^ q : ℤ) : ℚ) * 2 ^ ((c : ℤ) - p) := by
          push_cast
          rw [← zpow_natCast, ← zpow_add₀ two_ne_zero, hq]
          congr 1
          push_cast
          ring
        rw [hunits, hN, mul_lt_mul_iff_of_pos_right hunit, Int.cast_lt] at hlow
        have hle : ((2 ^ q : ℤ) : ℚ) ≤ N - 1 := by exact_mod_cast Int.le_sub_one_of_lt hlow
        rw [hunits, hN]
        have := mul_le_mul_of_nonneg_right hle hunit.le
        linarith
      exact iff_of_false (by linarith) (by linarith)
  · refine iff_of_true ?_ (by linarith)
    have hmono := round_mono p hge
    have hkept : round p (k : ℚ) = k := by
      have hle : |(k : ℤ)| ≤ 2 ^ p := by
        rw [abs_of_nonneg (Int.natCast_nonneg k)]
        exact_mod_cast (by omega : k ≤ 2 ^ p)
      exact_mod_cast round_intCast hle
    rwa [hkept] at hmono

/-- A whole number is not passed up to the middle behind it. -/
theorem round_le_natCast_iff (hpos : 0 < k) (hk : 2 * k < 2 ^ p) : round p x ≤ k ↔ x ≤ cutAbove p k := by
  unfold cutAbove
  have hlow : (2 : ℚ) ^ (Nat.log 2 k : ℤ) ≤ k := by
    rw [zpow_natCast]
    exact_mod_cast Nat.pow_log_le_self 2 hpos.ne'
  have hhigh : (k : ℚ) < 2 ^ ((Nat.log 2 k : ℤ) + 1) := by
    have hlt := Nat.lt_pow_succ_log_self one_lt_two k
    rw [← Nat.cast_succ, zpow_natCast]
    exact_mod_cast hlt
  have hlogk : Nat.log 2 k + 1 < p := by
    have hpow : 2 ^ (Nat.log 2 k + 1) < 2 ^ p := by
      rw [Nat.pow_succ, mul_comm]
      have := Nat.pow_log_le_self 2 hpos.ne'
      omega
    exact (Nat.pow_lt_pow_iff_right one_lt_two).1 hpow
  obtain ⟨N, heven, hN⟩ := exists_even_units k hlogk
  generalize Nat.log 2 k = c at hlow hhigh hlogk hN ⊢
  have hunit : (0 : ℚ) < 2 ^ (((c + 1 : ℕ) : ℤ) - p) := zpow_pos two_pos _
  have hhalf : (2 : ℚ) ^ ((c : ℤ) - p) = 2 ^ (((c + 1 : ℕ) : ℤ) - p) / 2 := by
    have hexp : ((c + 1 : ℕ) : ℤ) - p = (c : ℤ) - p + 1 := by
      push_cast
      ring
    rw [hexp, zpow_add_one₀ two_ne_zero]
    ring
  rw [hhalf]
  rcases le_or_gt x k with hle | hgt
  · refine iff_of_true ?_ (by linarith)
    have hmono := round_mono p hle
    have hkept : round p (k : ℚ) = k := by
      have hle : |(k : ℤ)| ≤ 2 ^ p := by
        rw [abs_of_nonneg (Int.natCast_nonneg k)]
        exact_mod_cast (by omega : k ≤ 2 ^ p)
      exact_mod_cast round_intCast hle
    rwa [hkept] at hmono
  have hx : 0 < x := (Nat.cast_pos.2 hpos).trans hgt
  have hlog : (c : ℤ) ≤ Int.log 2 x := (Int.zpow_le_iff_le_log one_lt_two hx).1 (hlow.trans hgt.le)
  rcases hlog.eq_or_lt with heq | hlater
  · have hulp : ulp p x = 2 ^ (((c + 1 : ℕ) : ℤ) - p) := by
      rw [ulp_of_pos hx, ← heq]
      push_cast
      rfl
    rw [round, hulp, hN, mul_le_mul_iff_of_pos_right hunit, Int.cast_le, roundEven_le_iff heven, div_le_iff₀ hunit]
    constructor <;> intro h <;> linarith
  · have hpow : (2 : ℚ) ^ ((c : ℤ) + 1) ≤ 2 ^ Int.log 2 x := zpow_le_zpow_right₀ one_le_two hlater
    have hround := pow_log_le_round (p := p) hx
    have hself : (2 : ℚ) ^ Int.log 2 x ≤ x := Int.zpow_log_le_self one_lt_two hx
    -- The next power of two is at least one further.
    have hnext : (k : ℚ) + 1 ≤ 2 ^ ((c : ℤ) + 1) := by
      rw [← Nat.cast_succ c, zpow_natCast] at hhigh ⊢
      exact_mod_cast hhigh
    have hsmall : (2 : ℚ) ^ (((c + 1 : ℕ) : ℤ) - p) ≤ 1 := zpow_le_one_of_nonpos₀ one_le_two (by omega)
    exact iff_of_false (by linarith) (by linarith)

omit [NeZero p] in
theorem cut_le (k : ℕ) : cut p k ≤ k := by
  unfold cut
  split
  · exact Nat.cast_nonneg k
  · have hpos : (0 : ℚ) < 2 ^ ((Nat.clog 2 k : ℤ) - p - 1) := zpow_pos two_pos _
    linarith

theorem sub_quarter_le_cut (hk : 2 * k ≤ 2 ^ p) : (k : ℚ) - 1 / 4 ≤ cut p k := by
  have hclog := clog_lt hk
  have hsmall : (2 : ℚ) ^ ((Nat.clog 2 k : ℤ) - p - 1) ≤ 2 ^ (-2 : ℤ) := zpow_le_zpow_right₀ one_le_two (by omega)
  unfold cut
  split
  · rename_i hzero
    rw [hzero]
    norm_num
  · norm_num at hsmall ⊢
    linarith

/-- Rounding keeps the whole part away from the next whole number. -/
theorem floor_round_eq (hk : 2 * (k + 1) ≤ 2 ^ p) (hlow : (k : ℚ) ≤ x) (hhigh : x < k + 3 / 4) : ⌊round p x⌋ = k := by
  rw [Int.floor_eq_iff, Int.cast_natCast]
  refine ⟨(natCast_le_round_iff (by omega)).2 ((cut_le k).trans hlow), ?_⟩
  by_contra hle
  have hreached := (natCast_le_round_iff (p := p) (x := x) (k := k + 1) hk).1 (by push_cast; exact not_lt.1 hle)
  have hcut := sub_quarter_le_cut (p := p) (k := k + 1) hk
  push_cast at hcut
  linarith

/-- A number before a whole one is at least a unit before it. -/
theorem IsFloat.le_sub_of_lt (h : IsFloat p x) (hpos : 0 < k) (hk : 2 * k ≤ 2 ^ p) (hlt : x < k) :
    x ≤ k - 2 ^ ((Nat.clog 2 k : ℤ) - p) := by
  have hclog := clog_lt hk
  obtain ⟨hlow, hhigh⟩ := clog_bounds hpos
  obtain ⟨N, -, hN⟩ := exists_even_units k hclog
  generalize Nat.clog 2 k = c at hclog hlow hhigh hN ⊢
  have hunit : (0 : ℚ) < 2 ^ ((c : ℤ) - p) := zpow_pos two_pos _
  rcases le_or_gt ((2 : ℚ) ^ ((c : ℤ) - 1)) x with hle | hbefore
  · have hx : 0 < x := (zpow_pos two_pos _).trans_le hle
    have hlog : Int.log 2 x = c - 1 := by
      have hge := (Int.zpow_le_iff_le_log one_lt_two hx).1 hle
      have hlt := (Int.lt_zpow_iff_log_lt one_lt_two hx).1 (hlt.trans_le hhigh)
      omega
    have hulp : ulp p x = 2 ^ ((c : ℤ) - p) := by
      rw [ulp_of_pos hx, hlog]
      congr 1
      omega
    have hwhole : x = roundEven (x / 2 ^ ((c : ℤ) - p)) * 2 ^ ((c : ℤ) - p) := by
      conv_lhs => rw [← round_of_isFloat h, round, hulp]
    rw [hN, hwhole, mul_lt_mul_iff_of_pos_right hunit, Int.cast_lt] at hlt
    have hunits : (roundEven (x / 2 ^ ((c : ℤ) - p)) : ℚ) ≤ N - 1 := by exact_mod_cast Int.le_sub_one_of_lt hlt
    have hscaled := mul_le_mul_of_nonneg_right hunits hunit.le
    rw [← hwhole] at hscaled
    rw [hN]
    linarith
  · obtain ⟨q, hq⟩ := Nat.exists_eq_succ_of_ne_zero (NeZero.ne p)
    have hunits : (2 : ℚ) ^ ((c : ℤ) - 1) = ((2 ^ q : ℤ) : ℚ) * 2 ^ ((c : ℤ) - p) := by
      push_cast
      rw [← zpow_natCast, ← zpow_add₀ two_ne_zero, hq]
      congr 1
      push_cast
      ring
    rw [hunits, hN, mul_lt_mul_iff_of_pos_right hunit, Int.cast_lt] at hlow
    have hle : ((2 ^ q : ℤ) : ℚ) ≤ N - 1 := by exact_mod_cast Int.le_sub_one_of_lt hlow
    have := mul_le_mul_of_nonneg_right hle hunit.le
    rw [hunits] at hbefore
    rw [hN]
    linarith

/-- A rounded quotient by a whole number reaches a whole number only where the quotient does. -/
theorem IsFloat.natCast_le_round_div_iff {s : ℕ} (h : IsFloat p x) (hs : 0 < s) (hk : 2 * (k * s) ≤ 2 ^ p) :
    (k : ℚ) ≤ round p (x / s) ↔ (k : ℚ) * s ≤ x := by
  have hsQ : (0 : ℚ) < s := Nat.cast_pos.2 hs
  have hk' : 2 * k ≤ 2 ^ p := by
    have := Nat.le_mul_of_pos_right k hs
    omega
  rw [natCast_le_round_iff hk']
  unfold cut
  rcases Nat.eq_zero_or_pos k with rfl | hpos
  · rw [if_pos rfl, Nat.cast_zero, zero_mul]
    exact ⟨fun hle => by simpa [hsQ.ne'] using mul_nonneg hle hsQ.le, fun hle => div_nonneg hle hsQ.le⟩
  rw [if_neg hpos.ne', le_div_iff₀ hsQ]
  constructor
  · intro hle
    by_contra hlt
    have hlt : x < (k * s : ℕ) := by
      push_cast
      exact not_le.1 hlt
    have hgap := h.le_sub_of_lt (Nat.mul_pos hpos hs) hk hlt
    -- The unit before the product is larger than half the unit before the quotient, scaled.
    have hpow : (s : ℚ) * 2 ^ (Nat.clog 2 k : ℤ) < 2 * 2 ^ (Nat.clog 2 (k * s) : ℤ) := by
      obtain ⟨hlow, -⟩ := clog_bounds hpos
      obtain ⟨-, hhigh⟩ := clog_bounds (Nat.mul_pos hpos hs)
      rw [zpow_sub_one₀ two_ne_zero] at hlow
      have hlow' : (2 : ℚ) ^ (Nat.clog 2 k : ℤ) < 2 * k := by linarith
      push_cast at hhigh
      have hscaled := mul_lt_mul_of_pos_left hlow' hsQ
      linarith
    have hprec : (0 : ℚ) < 2 ^ (-(p : ℤ)) := zpow_pos two_pos _
    have hunits := mul_lt_mul_of_pos_right hpow hprec
    rw [mul_assoc, mul_assoc, ← zpow_add₀ two_ne_zero, ← zpow_add₀ two_ne_zero, ← sub_eq_add_neg,
      ← sub_eq_add_neg] at hunits
    rw [zpow_sub_one₀ two_ne_zero] at hle
    push_cast at hgap
    linarith
  · intro hle
    have hnonneg : (0 : ℚ) ≤ 2 ^ ((Nat.clog 2 k : ℤ) - p - 1) * s := mul_nonneg (zpow_pos two_pos _).le hsQ.le
    linarith

/-- So the whole parts of both are the same. -/
theorem IsFloat.floor_round_div {s : ℕ} (h : IsFloat p x) (hx : 0 ≤ x) (hs : 0 < s) (hle : 2 * (x + s) ≤ 2 ^ p) :
    ⌊round p (x / s)⌋ = ⌊x / s⌋ := by
  have hsQ : (0 : ℚ) < s := Nat.cast_pos.2 hs
  obtain ⟨k, hk⟩ := Int.eq_ofNat_of_zero_le (Int.floor_nonneg.2 (div_nonneg hx hsQ.le))
  obtain ⟨hlow, hhigh⟩ := Int.floor_eq_iff.1 hk
  rw [Int.cast_natCast, le_div_iff₀ hsQ] at hlow
  rw [Int.cast_natCast, div_lt_iff₀ hsQ] at hhigh
  have hbound : 2 * ((k + 1) * s) ≤ 2 ^ p := by
    have hcast : (2 * ((k + 1) * s) : ℚ) ≤ 2 ^ p := by linarith
    exact_mod_cast hcast
  have hbound' : 2 * (k * s) ≤ 2 ^ p := by
    rw [Nat.add_mul] at hbound
    omega
  rw [hk, Int.floor_eq_iff, Int.cast_natCast]
  constructor
  · exact (h.natCast_le_round_div_iff hs hbound').2 hlow
  · by_contra hge
    have hge' : ((k + 1 : ℕ) : ℚ) ≤ round p (x / s) := by
      push_cast
      exact not_lt.1 hge
    have hreached := (h.natCast_le_round_div_iff hs hbound).1 hge'
    push_cast at hreached
    linarith

end Cut

end Precision

/-! ### Arithmetics -/

/-- What becomes of the exact result of an operation. -/
structure Arithmetic where
  fl : ℚ → ℚ
  mono : Monotone fl
  zero : fl 0 = 0
  pos : ∀ x, 0 < x → 0 < fl x

namespace Arithmetic

def exact : Arithmetic := ⟨id, monotone_id, rfl, fun _ hx => hx⟩

/-- Double precision. -/
def binary64 : Arithmetic := ⟨round 53, round_mono 53, round_zero 53, fun _ hx => round_pos hx⟩

variable {A : Arithmetic} {x : ℚ}

@[simp]
theorem exact_fl (x : ℚ) : exact.fl x = x := rfl

theorem nonneg (A : Arithmetic) (hx : 0 ≤ x) : 0 ≤ A.fl x := by
  have hmono := A.mono hx
  rwa [A.zero] at hmono

end Arithmetic

end Rounding
