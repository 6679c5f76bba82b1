import Mathlib.Data.List.Basic
import Mathlib.Tactic.Common

/-!
# Critical arrivals

A stream arrives in pieces at a state.  What a reader does often changes at one position of the stream: `cutAt crit k`
is the first cut at or behind it, where `k` elements came before the pieces.  `run_cut` reduces a run to what the
arrivals before that cut keep, what the one that reaches it does, and what those behind it leave alone.  A `Transfer`
is a reader that is offered again what it did not consume.
-/

namespace Arrivals

variable {σ β : Type*}

/-- The first cut at or behind `crit`. -/
def cutAt (crit : Nat) : Nat → List (List β) → Nat
  | k, [] => k
  | k, piece :: pieces => if crit ≤ k then k else cutAt crit (k + piece.length) pieces

variable {crit k : Nat} {pieces : List (List β)}

theorem cutAt_of_le (h : crit ≤ k) : cutAt crit k pieces = k := by
  cases pieces with
  | nil => rfl
  | cons _ _ => exact if_pos h

variable {take : σ → List β → σ} {stream : List β} {Good Done : Nat → σ → Prop}

theorem run_done (hdone : ∀ c s piece, Done c s → Done c (take s piece)) {c : Nat} {s : σ} (h : Done c s) :
    Done c (pieces.foldl take s) := by
  induction pieces generalizing s with
  | nil => exact h
  | cons piece pieces ih => exact ih (hdone c s piece h)

variable (crit stream Good Done) in
/-- The run of a stream past its critical position. -/
theorem run_cut (hgood : ∀ k s piece, Good k s → k + piece.length < crit → piece <+: stream.drop k →
      Good (k + piece.length) (take s piece))
    (hcrit : ∀ k s piece, Good k s → k < crit → crit ≤ k + piece.length → piece <+: stream.drop k →
      Done (k + piece.length) (take s piece))
    (hdone : ∀ c s piece, Done c s → Done c (take s piece)) {s : σ} (h : Good k s) (hk : k < crit)
    (hstream : pieces.flatten = stream.drop k) (hlen : crit ≤ stream.length) :
    Done (cutAt crit k pieces) (pieces.foldl take s) := by
  induction pieces generalizing k s with
  | nil =>
    have := congrArg List.length hstream
    rw [List.flatten_nil, List.length_nil, List.length_drop] at this
    omega
  | cons piece pieces ih =>
    have hpiece : piece <+: stream.drop k := ⟨pieces.flatten, by rw [← hstream, List.flatten_cons]⟩
    rw [cutAt, if_neg (by omega), List.foldl_cons]
    by_cases hnext : k + piece.length < crit
    · refine ih (hgood k s piece h hnext hpiece) hnext ?_
      rw [← List.drop_drop, ← hstream, List.flatten_cons, List.drop_left]
    · rw [cutAt_of_le (by omega)]
      exact run_done hdone (hcrit k s piece h hk (by omega) hpiece)

variable (stream Good) in
/-- The run of a stream. -/
theorem run_all (hgood : ∀ k s piece, Good k s → k ≤ stream.length → piece <+: stream.drop k →
      Good (k + piece.length) (take s piece)) {s : σ} (h : Good k s) (hk : k ≤ stream.length)
    (hstream : pieces.flatten = stream.drop k) : Good stream.length (pieces.foldl take s) := by
  induction pieces generalizing k s with
  | nil =>
    have hlen := congrArg List.length hstream
    rw [List.flatten_nil, List.length_nil, List.length_drop] at hlen
    obtain rfl : k = stream.length := by omega
    exact h
  | cons piece pieces ih =>
    have hpiece : piece <+: stream.drop k := ⟨pieces.flatten, by rw [← hstream, List.flatten_cons]⟩
    have hlen := hpiece.length_le
    rw [List.length_drop] at hlen
    refine ih (hgood k s piece h hk hpiece) (by omega) ?_
    rw [← List.drop_drop, ← hstream, List.flatten_cons, List.drop_left]

/-! ### Readers that leave what they cannot use -/

/-- A reader with the elements that it has not consumed. -/
structure Transfer (σ β : Type*) where
  reader : σ
  left : List β := []
  consumed : Nat := 0
  failed : Bool := false
deriving DecidableEq

/-- What was not consumed is offered again in front of what arrives; `none` is an error of the reader. -/
def Transfer.arrive (read : σ → List β → Option Nat × σ) (t : Transfer σ β) (piece : List β) : Transfer σ β :=
  if t.failed then t
  else
    match read t.reader (t.left ++ piece) with
    | (none, s) => { t with reader := s, left := t.left ++ piece, failed := true }
    | (some n, s) => { reader := s, left := (t.left ++ piece).drop n, consumed := t.consumed + n }

/-- `k` elements of the stream have arrived, and what was not consumed is left. -/
structure Offered (stream : List β) (k : Nat) (t : Transfer σ β) : Prop where
  ok : t.failed = false
  le : t.consumed ≤ k
  left : t.left = (stream.take k).drop t.consumed

variable {read : σ → List β → Option Nat × σ} {t : Transfer σ β} {s : σ} {piece : List β} {n : Nat}

theorem offered_new (r : σ) : Offered stream 0 ⟨r, [], 0, false⟩ where
  ok := rfl
  le := Nat.le_refl _
  left := rfl

theorem take_append_piece (hpiece : piece <+: stream.drop k) :
    stream.take k ++ piece = stream.take (k + piece.length) := by
  obtain ⟨rest, hrest⟩ := hpiece
  rw [List.take_add, ← hrest, List.take_left]

theorem length_take_piece (hk : k ≤ stream.length) (hpiece : piece <+: stream.drop k) :
    (stream.take (k + piece.length)).length = k + piece.length := by
  have := hpiece.length_le
  rw [List.length_drop] at this
  rw [List.length_take]
  omega

theorem Offered.offer (hoff : Offered stream k t) (hk : k ≤ stream.length) (hpiece : piece <+: stream.drop k) :
    t.left ++ piece = (stream.take (k + piece.length)).drop t.consumed := by
  rw [hoff.left, ← take_append_piece hpiece, List.drop_append_of_le_length]
  have := hoff.le
  rw [List.length_take]
  omega

/-- An arrival that is read. -/
theorem Offered.arrive (hoff : Offered stream k t) (hk : k ≤ stream.length) (hpiece : piece <+: stream.drop k)
    (hread : read t.reader ((stream.take (k + piece.length)).drop t.consumed) = (some n, s))
    (hn : t.consumed + n ≤ k + piece.length) :
    Offered stream (k + piece.length) (t.arrive read piece) ∧ (t.arrive read piece).reader = s ∧
      (t.arrive read piece).consumed = t.consumed + n := by
  have harrive : t.arrive read piece =
      { reader := s, left := ((stream.take (k + piece.length)).drop t.consumed).drop n,
        consumed := t.consumed + n } := by
    rw [Transfer.arrive, if_neg (by rw [hoff.ok]; simp), hoff.offer hk hpiece, hread]
  rw [harrive]
  exact ⟨⟨rfl, hn, by rw [List.drop_drop]⟩, rfl, rfl⟩

/-- An arrival at which the reader fails. -/
theorem Offered.arrive_failed (hoff : Offered stream k t) (hk : k ≤ stream.length) (hpiece : piece <+: stream.drop k)
    (hread : read t.reader ((stream.take (k + piece.length)).drop t.consumed) = (none, s)) :
    (t.arrive read piece).failed = true := by
  rw [Transfer.arrive, if_neg (by rw [hoff.ok]; simp), hoff.offer hk hpiece, hread]

theorem arrive_of_failed (h : t.failed = true) : (t.arrive read piece).failed = true := by
  rw [Transfer.arrive, if_pos h]
  exact h

end Arrivals
