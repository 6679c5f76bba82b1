import Mathlib.Data.List.Basic

/-!
# Block writes into a list

A memory block is a list.  `slice` reads a block of it, `blit` writes one and `frontier new old n` is the block that
already holds the first `n` elements of `new` and still holds those of `old` after them.  Copy loops that go
element by element and refuse an access outside a block (`copyLoop`) are equal to one `blit` of a `slice`
(`copyLoop_eq`), and a `blit` of the next elements of `new` moves the frontier (`blit_frontier`).
-/

namespace Blit

variable {α β : Type*}

/-- The `n` elements of `l` from position `i` on. -/
def slice (l : List α) (i n : Nat) : List α := (l.drop i).take n

/-- The list `dst` with `xs` written over it from position `d` on. -/
def blit (dst : List α) (d : Nat) (xs : List α) : List α := dst.take d ++ xs ++ dst.drop (d + xs.length)

/-- The first `n` elements of `new`, followed by the elements of `old` from position `n` on. -/
def frontier (new old : List α) (n : Nat) : List α := new.take n ++ old.drop n

/-- Copy `n` elements one by one, from position `s` of `src` to position `d` of `dst`.  An access outside of one of
the two gives `none`. -/
def copyLoop (src : List α) (s : Nat) (dst : List α) (d : Nat) : Nat → Option (List α)
  | 0 => some dst
  | n + 1 =>
    match src[s]? with
    | none => none
    | some a => if d < dst.length then copyLoop src (s + 1) (dst.set d a) (d + 1) n else none

/-! ### Slices -/

theorem length_slice {l : List α} {i n : Nat} (h : i + n ≤ l.length) : (slice l i n).length = n := by
  simp [slice]
  omega

@[simp] theorem slice_zero (l : List α) (i : Nat) : slice l i 0 = [] := by
  simp [slice]

theorem slice_add (l : List α) (i m n : Nat) : slice l i (m + n) = slice l i m ++ slice l (i + m) n := by
  simp only [slice, List.take_add, List.drop_drop]

theorem slice_succ {l : List α} {i n : Nat} {a : α} (h : l[i]? = some a) :
    slice l i (n + 1) = a :: slice l (i + 1) n := by
  obtain ⟨hi, rfl⟩ := List.getElem?_eq_some_iff.1 h
  simp only [slice]
  rw [List.drop_eq_getElem_cons hi, List.take_succ_cons]

theorem slice_take {l : List α} {i m n : Nat} (h : n ≤ m) : (slice l i m).take n = slice l i n := by
  rw [slice, slice, List.take_take, Nat.min_eq_left h]

theorem slice_drop (l : List α) (i m n : Nat) : (slice l i m).drop n = slice l (i + n) (m - n) := by
  rw [slice, slice, List.drop_take, List.drop_drop]

theorem getElem?_slice {l : List α} {i n j : Nat} (hj : j < n) : (slice l i n)[j]? = l[i + j]? := by
  simp [slice, hj]

/-- A block in the middle of an append is the slice at its position. -/
theorem slice_append_mid (pre mid post : List α) : slice (pre ++ mid ++ post) pre.length mid.length = mid := by
  simp [slice]

theorem slice_append_left {l : List α} {i n : Nat} (h : i + n ≤ l.length) (l' : List α) :
    slice (l ++ l') i n = slice l i n := by
  rw [slice, slice, List.drop_append_of_le_length (by omega), List.take_append_of_le_length (by simp; omega)]

/-! ### Block writes -/

theorem length_blit {dst xs : List α} {d : Nat} (h : d + xs.length ≤ dst.length) :
    (blit dst d xs).length = dst.length := by
  simp [blit]
  omega

@[simp] theorem blit_nil (dst : List α) (d : Nat) : blit dst d [] = dst := by
  simp [blit]

theorem blit_cons {dst xs : List α} {d : Nat} {a : α} (h : d < dst.length) :
    blit dst d (a :: xs) = blit (dst.set d a) (d + 1) xs := by
  have htake : (dst.set d a).take (d + 1) = dst.take d ++ [a] := by
    rw [List.take_add_one, List.take_set_of_le (Nat.le_refl d)]
    simp [h]
  have hdrop : (dst.set d a).drop (d + 1 + xs.length) = dst.drop (d + (a :: xs).length) := by
    rw [List.drop_set_of_lt (by omega), List.length_cons]
    congr 1
    omega
  simp only [blit, htake, hdrop, List.append_assoc, List.cons_append, List.nil_append]

/-- Two block writes next to each other are one. -/
theorem blit_blit {dst xs ys : List α} {d : Nat} (h : d + xs.length ≤ dst.length) :
    blit (blit dst d xs) (d + xs.length) ys = blit dst d (xs ++ ys) := by
  have hlen : (dst.take d ++ xs).length = d + xs.length := by
    simp
    omega
  have htake : (blit dst d xs).take (d + xs.length) = dst.take d ++ xs := by
    rw [blit, ← hlen, List.take_left]
  have hdrop : (blit dst d xs).drop (d + xs.length + ys.length) = dst.drop (d + (xs ++ ys).length) := by
    rw [blit, ← hlen, List.drop_append, List.drop_of_length_le (by omega), hlen]
    simp only [List.nil_append, List.drop_drop, List.length_append]
    congr 1
    omega
  rw [blit, htake, hdrop, blit]
  simp only [List.append_assoc]

theorem copyLoop_eq {src dst : List α} {s d n : Nat} (hs : s + n ≤ src.length) (hd : d + n ≤ dst.length) :
    copyLoop src s dst d n = some (blit dst d (slice src s n)) := by
  induction n generalizing s dst d with
  | zero => simp [copyLoop]
  | succ n ih =>
    have hget : src[s]? = some src[s] := List.getElem?_eq_getElem (by omega)
    have hlt : d < dst.length := by omega
    rw [slice_succ hget, blit_cons hlt]
    simp only [copyLoop, hget, hlt, ↓reduceIte]
    exact ih (by omega) (by simp; omega)

/-! ### The frontier between two lists -/

@[simp] theorem frontier_zero (new old : List α) : frontier new old 0 = old := by
  simp [frontier]

theorem frontier_length {new old : List α} (h : old.length ≤ new.length) : frontier new old new.length = new := by
  simp [frontier, List.drop_of_length_le h]

theorem length_frontier {new old : List α} (h : new.length = old.length) (n : Nat) :
    (frontier new old n).length = old.length := by
  simp [frontier, h]
  omega

/-- Writing the next `m` elements of `new` moves the frontier by `m`. -/
theorem blit_frontier {new old : List α} {n m : Nat} (h : n + m ≤ new.length) :
    blit (frontier new old n) n (slice new n m) = frontier new old (n + m) := by
  have hlen : (new.take n).length = n := by
    simp
    omega
  have htake : (frontier new old n).take n = new.take n := List.take_left' hlen
  have hdrop : (frontier new old n).drop (n + m) = old.drop (n + m) := by
    rw [frontier, List.drop_append, List.drop_of_length_le (by omega), hlen, List.drop_drop]
    simp
  rw [blit, length_slice h, htake, hdrop, frontier, List.take_add, slice]

/-- Where the two lists agree the frontier moves without a write. -/
theorem frontier_of_slice_eq {new old : List α} {n m : Nat} (h : slice new n m = slice old n m) :
    frontier new old (n + m) = frontier new old n := by
  have hold : old.drop n = slice old n m ++ old.drop (n + m) := by
    rw [slice, ← List.drop_drop, List.take_append_drop]
  rw [frontier, frontier, hold, ← h, List.take_add, slice, List.append_assoc]

/-! ### Elements that take several cells

`f` writes each element as `k` cells; the block operations on elements become the same operations on cells. -/

section FlatMap

variable {f : α → List β} {k : Nat} (hf : ∀ a, (f a).length = k)
include hf

theorem length_flatMap_const (l : List α) : (l.flatMap f).length = l.length * k := by
  induction l with
  | nil => simp
  | cons a l ih => rw [List.flatMap_cons, List.length_append, hf, ih, List.length_cons, Nat.succ_mul, Nat.add_comm]

theorem flatMap_take (l : List α) (n : Nat) : (l.take n).flatMap f = (l.flatMap f).take (n * k) := by
  induction l generalizing n with
  | nil => simp
  | cons a l ih =>
    cases n with
    | zero => simp
    | succ n =>
      have hn : (n + 1) * k = (f a).length + n * k := by rw [hf, Nat.succ_mul, Nat.add_comm]
      rw [List.take_succ_cons, List.flatMap_cons, List.flatMap_cons, ih, hn, List.take_length_add_append]

theorem flatMap_drop (l : List α) (n : Nat) : (l.drop n).flatMap f = (l.flatMap f).drop (n * k) := by
  induction l generalizing n with
  | nil => simp
  | cons a l ih =>
    cases n with
    | zero => simp
    | succ n =>
      have hn : (n + 1) * k = (f a).length + n * k := by rw [hf, Nat.succ_mul, Nat.add_comm]
      rw [List.drop_succ_cons, List.flatMap_cons, ih, hn, List.drop_length_add_append]

theorem flatMap_slice (l : List α) (i n : Nat) : (slice l i n).flatMap f = slice (l.flatMap f) (i * k) (n * k) := by
  rw [slice, slice, flatMap_take hf, flatMap_drop hf]

theorem flatMap_blit (dst xs : List α) (d : Nat) :
    (blit dst d xs).flatMap f = blit (dst.flatMap f) (d * k) (xs.flatMap f) := by
  rw [blit, blit, List.flatMap_append, List.flatMap_append, flatMap_take hf, flatMap_drop hf,
    length_flatMap_const hf, Nat.add_mul]

theorem getElem?_flatMap_const {l : List α} {q : Nat} {a : α} (ha : l[q]? = some a) {r : Nat} (hr : r < k) :
    (l.flatMap f)[q * k + r]? = (f a)[r]? := by
  have hdrop : (l.flatMap f).drop (q * k) = f a ++ (l.drop (q + 1)).flatMap f := by
    obtain ⟨hq, rfl⟩ := List.getElem?_eq_some_iff.1 ha
    rw [← flatMap_drop hf, List.drop_eq_getElem_cons hq, List.flatMap_cons]
  rw [← List.getElem?_drop, hdrop, List.getElem?_append_left (by rw [hf]; exact hr)]

end FlatMap

/-! ### Lists of rows -/

section Rows

variable {row : Nat → List α} {w h : Nat} (hrow : ∀ y, y < h → (row y).length = w)
include hrow

theorem length_rows : ((List.range h).flatMap row).length = h * w := by
  induction h with
  | zero => simp
  | succ h ih =>
    rw [List.range_succ, List.flatMap_append, List.length_append, ih (fun y hy => hrow y (by omega)),
      List.flatMap_singleton, hrow h (by omega), Nat.succ_mul]

theorem slice_rows {y : Nat} (hy : y < h) : slice ((List.range h).flatMap row) (y * w) w = row y := by
  induction h with
  | zero => omega
  | succ h ih =>
    have hlen := length_rows (fun y hy => hrow y (Nat.lt_succ_of_lt hy))
    rw [List.range_succ, List.flatMap_append, List.flatMap_singleton]
    by_cases hy' : y < h
    · have hle : (y + 1) * w ≤ h * w := Nat.mul_le_mul_right _ (by omega)
      rw [slice_append_left (by rw [hlen]; rw [Nat.succ_mul] at hle; exact hle),
        ih (fun y hy => hrow y (by omega)) hy']
    · have hyh : y = h := by omega
      subst hyh
      have hmid := slice_append_mid ((List.range y).flatMap row) (row y) []
      rwa [List.append_nil, hlen, hrow y (by omega)] at hmid

end Rows

end Blit
