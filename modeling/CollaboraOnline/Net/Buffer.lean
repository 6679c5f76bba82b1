import CollaboraOnline.Lib.Run
import CollaboraOnline.Net.WebSocketHandler

/-!
# The buffer of a socket

`Buffer` (`net/Buffer`) erases its first bytes by an offset into its vector as long as that is large and what remains
is not small.  It shows the bytes of a plain list under all operations (`run_shows_iff`), except that `append` passes
on the size of a string as an `int`: a string of 2^31 bytes or more is not appended.
-/

namespace CollaboraOnline

/-- `Buffer` as its members: `offset` is where the data begins in the vector. -/
structure RawBuffer where
  offset : Nat := 0
  buffer : List UInt8 := []
deriving DecidableEq, Repr

namespace RawBuffer

def size (b : RawBuffer) : Nat := b.buffer.length - b.offset

def empty (b : RawBuffer) : Bool := b.offset == b.buffer.length

/-- The bytes of the vector from `data()` on. -/
def data (b : RawBuffer) : List UInt8 := b.buffer.drop b.offset

/-- The block of `getBlockSize` bytes; `none` is null. -/
def getBlock (b : RawBuffer) : Option (List UInt8) :=
    if b.empty then none else some ((b.buffer.drop b.offset).take b.size)

/-- `operator[]`, whose index is an `int`; `none` is outside of the vector. -/
def get (b : RawBuffer) (index : Nat) : Option UInt8 := b.buffer[b.offset + index]?

/-- What an iteration from `begin()` to `end()` gives. -/
def iterate (b : RawBuffer) : List UInt8 :=
  (List.range (b.buffer.length - b.offset)).map fun i => b.buffer.getD (b.offset + i) 0

/-- The first bytes are left in the vector if it is large, a smaller part of the data is erased, and much of it
remains. -/
def eraseFirst (b : RawBuffer) (len : Nat) : RawBuffer :=
  if len = 0 then b
  else
    let len := min len b.size
    if 16384 < b.buffer.length ∧ len < b.size ∧ b.offset < 16384 * 64 ∧ 512 < b.size then
      { b with offset := b.offset + len }
    else { offset := 0, buffer := b.buffer.drop (b.offset + len) }

/-- `append(const char*, int)`; `none` is a range that is not one. -/
def append (b : RawBuffer) (data : List UInt8) (len : Int) : Option RawBuffer :=
  if 0 ≤ len ∧ len ≤ data.length then some { b with buffer := b.buffer ++ data.take len.toNat } else none

/-- `append(const std::string&)`: the size is converted to an `int`. -/
def appendString (b : RawBuffer) (s : List UInt8) : Option RawBuffer := b.append s (Int.bmod s.length (2 ^ 32))

def clear (_ : RawBuffer) : RawBuffer := { offset := 0, buffer := [] }

/-- `erase` of the bytes from `begin() + first` to before `begin() + last`, with the iterator that it returns. -/
def erase (b : RawBuffer) (first last : Nat) : RawBuffer × Nat :=
  if b.offset + first = b.offset then
    let b := b.eraseFirst (b.offset + last - b.offset)
    (b, b.offset)
  else ({ b with buffer := b.buffer.take (b.offset + first) ++ b.buffer.drop (b.offset + last) }, b.offset + first)

/-- An assignment to `operator[]`. -/
def set (b : RawBuffer) (index : Nat) (c : UInt8) : RawBuffer :=
    { b with buffer := b.buffer.set (b.offset + index) c }

inductive Op
  | append (data : List UInt8) (len : Int)
  | appendString (s : List UInt8)
  | eraseFirst (len : Nat)
  | erase (first last : Nat)
  | clear
  | set (index : Nat) (c : UInt8)
deriving DecidableEq

def step (b : RawBuffer) : Op → Option RawBuffer
  | .append data len => b.append data len
  | .appendString s => b.appendString s
  | .eraseFirst len => some (b.eraseFirst len)
  | .erase first last => some (b.erase first last).1
  | .clear => some b.clear
  | .set index c => some (b.set index c)

/-- The buffer that keeps its invariant, as its members. -/
def ofBuffer (b : Buffer) : RawBuffer := ⟨b.offset, b.buffer⟩

theorem ofBuffer_eraseFirst (b : Buffer) (len : Nat) : ofBuffer (b.eraseFirst len) = (ofBuffer b).eraseFirst len := by
  unfold Buffer.eraseFirst eraseFirst
  by_cases hzero : len = 0
  · rw [if_pos hzero, if_pos hzero]
  · rw [if_neg hzero, if_neg hzero]
    exact apply_ite ofBuffer _ _ _

theorem ofBuffer_append (b : Buffer) (data : List UInt8) :
    (ofBuffer b).append data data.length = some (ofBuffer (b.append data)) := by
  unfold append
  rw [if_pos ⟨Int.natCast_nonneg _, le_refl _⟩, Int.toNat_natCast, List.take_length]
  rfl

/-! ### The plain list -/

/-- The operations on a list of bytes. -/
def listStep (l : List UInt8) : Op → List UInt8
  | .append data len => l ++ data.take len.toNat
  | .appendString s => l ++ s
  | .eraseFirst len => l.drop len
  | .erase first last => l.take first ++ l.drop last
  | .clear => []
  | .set index c => l.set index c

/-- What the caller keeps to: ranges are in the data, and an index is an `int`. -/
def Permitted (l : List UInt8) : Op → Prop
  | .append data len => 0 ≤ len ∧ len ≤ data.length
  | .appendString _ => True
  | .eraseFirst len => len ≤ l.length
  | .erase first last => first ≤ last ∧ last ≤ l.length
  | .clear => True
  | .set index _ => index < l.length ∧ index < 2 ^ 31

instance (l : List UInt8) (op : Op) : Decidable (Permitted l op) :=
  match op with
  | .append data len => inferInstanceAs (Decidable (0 ≤ len ∧ len ≤ data.length))
  | .appendString _ => .isTrue True.intro
  | .eraseFirst len => inferInstanceAs (Decidable (len ≤ l.length))
  | .erase first last => inferInstanceAs (Decidable (first ≤ last ∧ last ≤ l.length))
  | .clear => .isTrue True.intro
  | .set index _ => inferInstanceAs (Decidable (index < l.length ∧ index < 2 ^ 31))

def AllPermitted : List UInt8 → List Op → Prop
  | _, [] => True
  | l, op :: ops => Permitted l op ∧ AllPermitted (listStep l op) ops

/-- All that can be seen of the buffer is the list. -/
structure Shows (b : RawBuffer) (l : List UInt8) : Prop where
  offset_le : b.offset ≤ b.buffer.length
  size : b.size = l.length
  empty : b.empty = l.isEmpty
  data : b.data = l
  getBlock : b.getBlock = if l = [] then none else some l
  get : ∀ index < 2 ^ 31, b.get index = l[index]?
  iterate : b.iterate = l

variable {b : RawBuffer} {l : List UInt8} {op : Op}

theorem iterate_eq_data (b : RawBuffer) : b.iterate = b.data := by
  apply List.ext_getElem
  · simp [iterate, data]
  · intro i hi hi'
    have hlt : b.offset + i < b.buffer.length := by
      simp only [iterate, List.length_map, List.length_range] at hi
      omega
    simp [iterate, data, hlt]

theorem shows_iff : Shows b l ↔ b.offset ≤ b.buffer.length ∧ b.data = l := by
  constructor
  · intro h
    exact ⟨h.offset_le, h.data⟩
  · rintro ⟨hle, rfl⟩
    have hempty : b.empty = b.data.isEmpty := by
      rw [Bool.eq_iff_iff, empty, beq_iff_eq, List.isEmpty_iff, data, List.drop_eq_nil_iff]
      omega
    refine ⟨hle, by rw [size, data, List.length_drop], hempty, rfl, ?_, fun index _ => ?_, iterate_eq_data b⟩
    · rw [getBlock, hempty, size, ← List.length_drop, List.take_length]
      simp only [List.isEmpty_iff]
      rfl
    · rw [get, data, List.getElem?_drop]

/-! ### One operation -/

theorem shows_eraseFirst {len : Nat} (h : Shows b l) (hlen : len ≤ l.length) :
    Shows (b.eraseFirst len) (l.drop len) := by
  obtain ⟨hle, hdata⟩ := shows_iff.1 h
  have hsize := h.size
  unfold eraseFirst
  by_cases hzero : len = 0
  · rw [if_pos hzero, hzero, List.drop_zero]
    exact h
  rw [if_neg hzero]
  dsimp only
  rw [Nat.min_eq_left (by omega)]
  split
  · rename_i hlarge
    unfold size at hlarge
    refine shows_iff.2 ⟨?_, ?_⟩
    · dsimp only
      omega
    · rw [← hdata, data, data, List.drop_drop]
  · refine shows_iff.2 ⟨Nat.zero_le _, ?_⟩
    rw [← hdata, data, data, List.drop_drop, List.drop_drop, Nat.add_zero]

theorem shows_erase {first last : Nat} (h : Shows b l) (hfirst : first ≤ last) (hlast : last ≤ l.length) :
    Shows (b.erase first last).1 (l.take first ++ l.drop last) ∧
      (b.erase first last).2 = (b.erase first last).1.offset + first := by
  unfold erase
  by_cases hbegin : b.offset + first = b.offset
  · obtain rfl : first = 0 := by omega
    rw [if_pos hbegin, List.take_zero, List.nil_append, Nat.add_sub_cancel_left]
    exact ⟨shows_eraseFirst h hlast, rfl⟩
  · rw [if_neg hbegin]
    obtain ⟨hle, hdata⟩ := shows_iff.1 h
    have hlength : l.length = b.buffer.length - b.offset := h.size.symm
    have hkept : (b.buffer.take (b.offset + first)).length = b.offset + first := by
      rw [List.length_take]
      omega
    refine ⟨shows_iff.2 ⟨?_, ?_⟩, rfl⟩
    · simp only [List.length_append, hkept]
      omega
    · rw [← hdata]
      simp only [data]
      rw [List.drop_append_of_le_length (by omega), List.drop_take, Nat.add_sub_cancel_left, List.drop_drop]

theorem shows_append {data : List UInt8} {len : Int} (h : Shows b l) (hlen : 0 ≤ len ∧ len ≤ data.length) :
    ∃ b', b.append data len = some b' ∧ Shows b' (l ++ data.take len.toNat) := by
  obtain ⟨hle, hdata⟩ := shows_iff.1 h
  unfold append
  rw [if_pos hlen]
  refine ⟨_, rfl, shows_iff.2 ⟨?_, ?_⟩⟩
  · simp only [List.length_append]
    omega
  · rw [← hdata]
    simp only [RawBuffer.data]
    rw [List.drop_append_of_le_length hle]

/-- A string is appended as it is if its size is an `int`. -/
theorem shows_appendString {s : List UInt8} (h : Shows b l) :
    (∃ b', b.appendString s = some b' ∧ Shows b' (l ++ s)) ↔ s.length < 2 ^ 31 := by
  constructor
  · rintro ⟨b', happend, hshows⟩
    unfold appendString append at happend
    split at happend
    · rename_i hlen
      obtain ⟨c, hc, hshows'⟩ := shows_append h hlen
      unfold append at hc
      rw [if_pos hlen] at hc
      obtain rfl : b' = c := Option.some.inj (happend.symm.trans hc)
      -- As many bytes as the list has are appended.
      have hsame := congrArg List.length (hshows.data.symm.trans hshows'.data)
      simp only [List.length_append, List.length_take] at hsame
      have hlt := Int.bmod_lt (x := s.length) (m := 2 ^ 32) (by decide)
      omega
    · cases happend
  · intro hlt
    have hmod : Int.bmod s.length (2 ^ 32) = s.length := Int.bmod_eq_of_le (by omega) (by omega)
    obtain ⟨b', hb', hshows⟩ := shows_append h (show (0 : Int) ≤ s.length ∧ (s.length : Int) ≤ s.length by omega)
    rw [Int.toNat_natCast, List.take_length] at hshows
    exact ⟨b', by rw [appendString, hmod, hb'], hshows⟩

theorem shows_set {index : Nat} (c : UInt8) (h : Shows b l) : Shows (b.set index c) (l.set index c) := by
  obtain ⟨hle, hdata⟩ := shows_iff.1 h
  refine shows_iff.2 ⟨?_, ?_⟩
  · simp only [set, List.length_set]
    exact hle
  · rw [← hdata]
    simp only [data, set]
    rw [List.drop_set, if_neg (by omega), Nat.add_sub_cancel_left]

/-- The size of an appended string is an `int`. -/
def Fits : Op → Prop
  | .appendString s => s.length < 2 ^ 31
  | _ => True

instance : DecidablePred Fits
  | .appendString s => inferInstanceAs (Decidable (s.length < 2 ^ 31))
  | .append _ _ => .isTrue True.intro
  | .eraseFirst _ => .isTrue True.intro
  | .erase _ _ => .isTrue True.intro
  | .clear => .isTrue True.intro
  | .set _ _ => .isTrue True.intro

/-- One operation shows what it does to the list, if a string fits. -/
theorem step_shows_iff (h : Shows b l) (hop : Permitted l op) :
    (∃ b', step b op = some b' ∧ Shows b' (listStep l op)) ↔ Fits op := by
  cases op with
  | append data len => exact iff_of_true (shows_append h hop) True.intro
  | appendString s => exact shows_appendString h
  | eraseFirst len => exact iff_of_true ⟨_, rfl, shows_eraseFirst h hop⟩ True.intro
  | erase first last => exact iff_of_true ⟨_, rfl, (shows_erase h hop.1 hop.2).1⟩ True.intro
  | clear => exact iff_of_true ⟨_, rfl, shows_iff.2 ⟨Nat.le_refl _, rfl⟩⟩ True.intro
  | set index c => exact iff_of_true ⟨_, rfl, shows_set c h⟩ True.intro

/-! ### All runs -/

/-- After every operation the buffer shows what the list has become. -/
def Follows (b : RawBuffer) (l : List UInt8) (ops : List Op) : Prop :=
  ∀ done, done <+: ops → ∃ b', Run.run step b done = some b' ∧ Shows b' (done.foldl listStep l)

theorem follows_cons {ops : List Op} (h : Shows b l) :
    Follows b l (op :: ops) ↔
      ∃ b', (step b op = some b' ∧ Shows b' (listStep l op)) ∧ Follows b' (listStep l op) ops := by
  constructor
  · intro hfollows
    obtain ⟨b', hrun, hshows⟩ := hfollows [op] ⟨ops, rfl⟩
    obtain ⟨b', hb', hnil⟩ := Option.bind_eq_some_iff.1 hrun
    obtain rfl := Option.some.inj hnil
    refine ⟨b', ⟨hb', hshows⟩, fun done hdone => ?_⟩
    obtain ⟨c, hc, hshows'⟩ := hfollows (op :: done) (List.cons_prefix_cons.2 ⟨rfl, hdone⟩)
    rw [Run.run, hb', Option.bind_some] at hc
    exact ⟨c, hc, hshows'⟩
  · rintro ⟨b', ⟨hb', -⟩, hfollows⟩ done hdone
    cases done with
    | nil => exact ⟨b, rfl, h⟩
    | cons first done =>
      obtain ⟨rfl, hrest⟩ := List.cons_prefix_cons.1 hdone
      obtain ⟨c, hc, hshows⟩ := hfollows done hrest
      exact ⟨c, by rw [Run.run, hb', Option.bind_some, hc], hshows⟩

theorem follows_iff {ops : List Op} (h : Shows b l) (hops : AllPermitted l ops) :
    Follows b l ops ↔ ∀ op ∈ ops, Fits op := by
  induction ops generalizing b l with
  | nil =>
    refine iff_of_true (fun done hdone => ?_) fun op hop => absurd hop List.not_mem_nil
    rw [List.prefix_nil.1 hdone]
    exact ⟨b, rfl, h⟩
  | cons op ops ih =>
    obtain ⟨hop, hops⟩ := hops
    rw [follows_cons h, List.forall_mem_cons, ← step_shows_iff h hop]
    constructor
    · rintro ⟨b', hb', hfollows⟩
      exact ⟨⟨b', hb'⟩, (ih hb'.2 hops).1 hfollows⟩
    · rintro ⟨⟨b', hb'⟩, hfits⟩
      exact ⟨b', hb', (ih hb'.2 hops).2 hfits⟩

/-- From an empty buffer on the data is that of the list after all operations, if all strings that are appended
fit. -/
theorem run_shows_iff {ops : List Op} (hops : AllPermitted [] ops) : Follows {} [] ops ↔ ∀ op ∈ ops, Fits op :=
  follows_iff (shows_iff.2 ⟨Nat.le_refl _, rfl⟩) hops

theorem run_shows_iff_erased :
    Follows {} [] [.append [1, 2, 3] 2, .appendString [4, 5], .eraseFirst 1, .erase 1 2] := by
  have hpermitted : AllPermitted [] [.append [1, 2, 3] 2, .appendString [4, 5], .eraseFirst 1, .erase 1 2] :=
    ⟨by decide, by decide, by decide, by decide, True.intro⟩
  exact (run_shows_iff hpermitted).2 (by decide)

/-- A string of 2^32 bytes is not appended: its size is the `int` 0. -/
theorem not_run_shows : ¬ ∀ ops, AllPermitted [] ops → Follows {} [] ops := by
  intro h
  have hpermitted : AllPermitted [] [.appendString (List.replicate (2 ^ 32) 0)] := ⟨True.intro, True.intro⟩
  have hfits := (follows_iff (b := {}) (shows_iff.2 ⟨Nat.le_refl _, rfl⟩) hpermitted).1
    (h _ hpermitted) _ List.mem_cons_self
  rw [Fits, List.length_replicate] at hfits
  omega

end RawBuffer

end CollaboraOnline
