import CollaboraOnline.Lib.Search

/-!
# Search in streams

`copyToMatch` and `seekToMatch` (`common/Util`) search a stream for a pattern in windows, and keep of each window what
may be the begin of an occurrence.  They find the first occurrence (`processToMatch_exact`).
-/

namespace CollaboraOnline

namespace Util

open Search

/-! ### Streams -/

/-- An input stream: `good` is the state that `operator bool` gives, and `reads` counts the reads of the device. -/
structure IStream where
  content : List UInt8
  pos : Nat := 0
  good : Bool := true
  reads : Nat := 0
deriving DecidableEq

namespace IStream

/-- What has not been read. -/
def rest (s : IStream) : List UInt8 := s.content.drop s.pos

/-- `sgetn`, which reads the device until there are `n` bytes or it is at its end.  The `k`-th read of the device
gives at most `device k + 1` bytes. -/
def sgetn (device : Nat → Nat) : Nat → Nat → Nat → List UInt8 → List UInt8 × Nat
  | 0, _, k, _ => ([], k)
  | fuel + 1, n, k, rest =>
    if n = 0 ∨ rest = [] then ([], k)
    else
      let got := rest.take (min n (device k + 1))
      let r := sgetn device fuel (n - got.length) (k + 1) (rest.drop got.length)
      (got ++ r.1, r.2)

/-- `read`; a stream that gives fewer bytes is not good any more. -/
def read (device : Nat → Nat) (s : IStream) (n : Nat) : List UInt8 × IStream :=
  if s.good then
    let r := sgetn device n n s.reads s.rest
    (r.1, { s with pos := s.pos + r.1.length, good := n ≤ r.1.length, reads := r.2 })
  else ([], s)

def clear (s : IStream) : IStream := { s with good := true }

/-- `seekg(off, std::ios_base::cur)`. -/
def seekCur (s : IStream) (off : Int) : IStream :=
  if 0 ≤ s.pos + off ∧ s.pos + off ≤ s.content.length then { s with pos := (s.pos + off).toNat }
  else { s with good := false }

end IStream

/-! ### The buffer -/

/-- Bytes are stored in the buffer; `none` is an access out of its bounds. -/
def store (buffer : List UInt8) (off : Nat) (bytes : List UInt8) : Option (List UInt8) :=
  if off + bytes.length ≤ buffer.length then some (buffer.take off ++ bytes ++ buffer.drop (off + bytes.length))
  else none

/-- Bytes are loaded from the buffer. -/
def load (buffer : List UInt8) (off len : Nat) : Option (List UInt8) :=
  if off + len ≤ buffer.length then some ((buffer.drop off).take len) else none

/-- `out` is null for `seekToMatch`. -/
def write (out : Option (List UInt8)) (bytes : List UInt8) : Option (List UInt8) := out.map (· ++ bytes)

/-! ### The search -/

structure Processed where
  matched : Bool
  stream : IStream
  out : Option (List UInt8)
deriving DecidableEq

/-- The left over is written. -/
def finish (s : IStream) (buffer : List UInt8) (carrySize : Nat) (out : Option (List UInt8)) : Option Processed := do
  let left ← load buffer 0 carrySize
  return ⟨false, s, write out left⟩

/-- The loop over the windows, of at most `n` rounds; `none` is an access out of the bounds of the scratch buffer, or
the end of the rounds. -/
def processWindows (device : Nat → Nat) (bufferSize : Nat) (search : List UInt8) :
    Nat → IStream → List UInt8 → Nat → Option (List UInt8) → Option Processed
  | 0, _, _, _, _ => none
  | n + 1, s, buffer, carrySize, out =>
    let overlap := search.length - 1
    if !s.good then finish s buffer carrySize out
    else if buffer.length < carrySize + bufferSize then none
    else
      let r := s.read device bufferSize
      if r.1 = [] then finish r.2 buffer carrySize out
      else do
        let buffer ← store buffer carrySize r.1
        let bytesInBuffer := carrySize + r.1.length
        let view ← load buffer 0 bytesInBuffer
        match find search view with
        | some pos =>
          return ⟨true, r.2.clear.seekCur (-((bytesInBuffer - pos : Nat) : Int)), write out (view.take pos)⟩
        | none =>
          let bytesToWrite := if overlap < bytesInBuffer then bytesInBuffer - overlap else 0
          let carrySize := min overlap bytesInBuffer
          let moved ← load buffer (bytesInBuffer - carrySize) carrySize
          let buffer ← store buffer 0 moved
          processWindows device bufferSize search n r.2 buffer carrySize (write out (view.take bytesToWrite))

/-- Every round but the last one reads a byte. -/
def processToMatch (device : Nat → Nat) (bufferSize : Nat) (s : IStream) (out : Option (List UInt8))
    (search : List UInt8) : Option Processed :=
  processWindows device bufferSize search (s.rest.length + 2) s
    (List.replicate (bufferSize + (search.length - 1)) 0) 0 out

def seekToMatch (device : Nat → Nat) (bufferSize : Nat) (s : IStream) (search : List UInt8) : Option Processed :=
  processToMatch device bufferSize s none search

def copyToMatch (device : Nat → Nat) (bufferSize : Nat) (s : IStream) (out search : List UInt8) : Option Processed :=
  processToMatch device bufferSize s (some out) search

/-! ### Lemmas on streams and buffers -/

section Streams

variable {device : Nat → Nat} {s : IStream} {buffer bytes : List UInt8} {n k off len : Nat}

/-- Short reads of the device do not matter. -/
theorem IStream.sgetn_eq (fuel n k : Nat) (rest : List UInt8) (h : n ≤ fuel) :
    (IStream.sgetn device fuel n k rest).1 = rest.take n := by
  induction fuel generalizing n k rest with
  | zero =>
    obtain rfl : n = 0 := Nat.le_zero.1 h
    rfl
  | succ fuel ih =>
    unfold IStream.sgetn
    split
    · rename_i hend
      rcases hend with rfl | rfl
      · rfl
      · rw [List.take_nil]
    · rename_i hmore
      simp only [not_or] at hmore
      have hrest := List.length_pos_iff.2 hmore.2
      have hlen : (rest.take (min n (device k + 1))).length = min (min n (device k + 1)) rest.length :=
        List.length_take
      dsimp only
      rw [ih _ _ _ (by omega), hlen]
      generalize hg : min (min n (device k + 1)) rest.length = g
      have htake : rest.take (min n (device k + 1)) = rest.take g := List.take_eq_take_iff.2 (by omega)
      rw [htake, ← List.take_add]
      exact List.take_eq_take_iff.2 (by omega)

variable (device n) in
theorem IStream.read_eq (hgood : s.good = true) :
    (s.read device n).1 = s.rest.take n ∧ (s.read device n).2.content = s.content ∧
      (s.read device n).2.pos = s.pos + min n s.rest.length ∧
      ((s.read device n).2.good = true ↔ n ≤ s.rest.length) := by
  unfold IStream.read
  rw [if_pos hgood]
  dsimp only
  rw [IStream.sgetn_eq _ _ _ _ le_rfl, List.length_take]
  refine ⟨rfl, rfl, rfl, ?_⟩
  rw [decide_eq_true_eq]
  omega

theorem load_eq (h : off + len ≤ buffer.length) : load buffer off len = some ((buffer.drop off).take len) := if_pos h

theorem store_eq (h : off + bytes.length ≤ buffer.length) :
    store buffer off bytes = some (buffer.take off ++ bytes ++ buffer.drop (off + bytes.length)) := if_pos h

theorem write_write {out : Option (List UInt8)} {a b : List UInt8} : write (write out a) b = write out (a ++ b) := by
  cases out with
  | none => rfl
  | some out => exact congrArg some (List.append_assoc ..)

end Streams

/-! ### The windows -/

/-- What the search of the stream gives: the bytes before the first occurrence are written, and the stream stands in
front of it; without one all bytes are written, and the stream is at its end. -/
structure Exact (s : IStream) (out : Option (List UInt8)) (search : List UInt8) (r : Processed) : Prop where
  content : r.stream.content = s.content
  found : ∀ i, First search s.rest i →
    r.matched = true ∧ r.out = write out (s.rest.take i) ∧ r.stream.pos = s.pos + i ∧ r.stream.good = true
  absent : (∀ i, ¬ OccursAt search s.rest i) →
    r.matched = false ∧ r.out = write out s.rest ∧ r.stream.pos = s.pos + s.rest.length

section Windows

variable {device : Nat → Nat} {bufferSize : Nat} {search : List UInt8} {s₀ s : IStream} {buffer : List UInt8}
  {consumed carrySize : Nat} {out₀ out : Option (List UInt8)}

/-- Before a window, `consumed` bytes have been searched: the last ones are carried in the buffer, and all before are
written. -/
structure Carried (bufferSize : Nat) (search : List UInt8) (s₀ s : IStream) (buffer : List UInt8)
  (consumed carrySize : Nat)
    (out₀ out : Option (List UInt8)) : Prop where
  size : buffer.length = bufferSize + (search.length - 1)
  carry : carrySize = min (search.length - 1) consumed
  content : s.content = s₀.content
  pos : s.pos = s₀.pos + consumed
  consumed_le : consumed ≤ s₀.rest.length
  buffer : buffer.take carrySize = (s₀.rest.drop (consumed - carrySize)).take carrySize
  out : out = write out₀ (s₀.rest.take (consumed - carrySize))
  none_before : ∀ j, j + search.length ≤ consumed → ¬ OccursAt search s₀.rest j
  good : s.good = true ∨ consumed = s₀.rest.length

theorem Carried.rest (h : Carried bufferSize search s₀ s buffer consumed carrySize out₀ out) :
    s.rest = s₀.rest.drop consumed := by
  unfold IStream.rest
  rw [h.content, h.pos, List.drop_drop]

/-- At the end of the stream the carried bytes are left. -/
theorem Carried.finish (h : Carried bufferSize search s₀ s buffer consumed carrySize out₀ out)
    (hsearch : search ≠ []) (hend : consumed = s₀.rest.length) {s' : IStream} (hcontent : s'.content = s.content)
    (hpos : s'.pos = s.pos) : ∃ r, Util.finish s' buffer carrySize out = some r ∧ Exact s₀ out₀ search r := by
  have hcarry := h.carry
  have hsize := h.size
  unfold Util.finish
  rw [load_eq (by omega), List.drop_zero, h.buffer]
  refine ⟨_, rfl, hcontent.trans h.content, fun i hi => ?_, fun _ => ⟨rfl, ?_, ?_⟩⟩
  · have hle := hi.occurs.le hsearch
    exact absurd hi.occurs (h.none_before i (by omega))
  · dsimp only
    rw [h.out, write_write, ← List.take_add, List.take_of_length_le (by omega)]
  · dsimp only
    rw [hpos, h.pos, hend]

/-- The view of a window: the carried bytes and those that were read. -/
theorem Carried.view (h : Carried bufferSize search s₀ s buffer consumed carrySize out₀ out) {k : Nat}
    (hk : k ≤ bufferSize) (hk' : consumed + k ≤ s₀.rest.length) :
    ∃ buffer', store buffer carrySize ((s₀.rest.drop consumed).take k) = some buffer' ∧
    buffer'.length = buffer.length ∧
      buffer'.take (carrySize + k) = (s₀.rest.drop (consumed - carrySize)).take (carrySize + k) := by
  have hcarry := h.carry
  have hsize := h.size
  have hlen : ((s₀.rest.drop consumed).take k).length = k := by
    rw [List.length_take, List.length_drop]
    omega
  refine ⟨_, store_eq (by rw [hlen]; omega), ?_, ?_⟩
  · simp only [List.length_append, List.length_take, List.length_drop]
    omega
  · have hhead : (buffer.take carrySize ++ (s₀.rest.drop consumed).take k).length = carrySize + k := by
      rw [List.length_append, hlen, List.length_take]
      omega
    rw [List.take_left' hhead, h.buffer, List.take_add, List.drop_drop]
    congr 3
    omega

/-- The first occurrence in the view is the first one of the stream. -/
theorem Carried.first_of_view (h : Carried bufferSize search s₀ s buffer consumed carrySize out₀ out)
    (hsearch : search ≠ [])
    {k m : Nat} (hm : First search ((s₀.rest.drop (consumed - carrySize)).take (carrySize + k)) m) :
    First search s₀.rest (consumed - carrySize + m) := by
  have hcarry := h.carry
  obtain ⟨hoccurs, hle⟩ := hm.occurs.of_take hsearch
  refine ⟨occursAt_drop.1 hoccurs, fun j hj hoccurs' => ?_⟩
  by_cases hbefore : j + search.length ≤ consumed
  · exact h.none_before j hbefore hoccurs'
  · obtain ⟨i, rfl⟩ : ∃ i, j = consumed - carrySize + i := ⟨j - (consumed - carrySize), by omega⟩
    exact hm.least i (by omega) ((occursAt_take (by omega)).2 (occursAt_drop.2 hoccurs'))

/-- Without an occurrence in the view there is none in what has been read. -/
theorem Carried.none_of_view (h : Carried bufferSize search s₀ s buffer consumed carrySize out₀ out) {k : Nat}
    (hnone : ∀ i, ¬ OccursAt search ((s₀.rest.drop (consumed - carrySize)).take (carrySize + k)) i) :
    ∀ j, j + search.length ≤ consumed + k → ¬ OccursAt search s₀.rest j := by
  have hcarry := h.carry
  intro j hj hoccurs
  by_cases hbefore : j + search.length ≤ consumed
  · exact h.none_before j hbefore hoccurs
  · obtain ⟨i, rfl⟩ : ∃ i, j = consumed - carrySize + i := ⟨j - (consumed - carrySize), by omega⟩
    exact hnone i ((occursAt_take (by omega)).2 (occursAt_drop.2 hoccurs))

/-- The begin of the view is written and its end is moved to the begin of the buffer. -/
theorem Carried.next (h : Carried bufferSize search s₀ s buffer consumed carrySize out₀ out)
    {k : Nat} {buffer' : List UInt8} (s' : IStream) (hk : consumed + k ≤ s₀.rest.length)
    (hlen : buffer'.length = buffer.length)
    (hview : buffer'.take (carrySize + k) = (s₀.rest.drop (consumed - carrySize)).take (carrySize + k))
    (hcontent : s'.content = s₀.content) (hpos : s'.pos = s₀.pos + (consumed + k))
    (hgood : s'.good = true ∨ consumed + k = s₀.rest.length) (hle : carrySize + k ≤ buffer.length)
    (hnone : ∀ j, j + search.length ≤ consumed + k → ¬ OccursAt search s₀.rest j) :
    Carried bufferSize search s₀ s'
      ((buffer'.drop (carrySize + k - min (search.length - 1) (carrySize + k))).take
        (min (search.length - 1) (carrySize + k)) ++ buffer'.drop (min (search.length - 1) (carrySize + k)))
      (consumed + k) (min (search.length - 1) (carrySize + k)) out₀
      (write out ((buffer'.take (carrySize + k)).take
        (carrySize + k - min (search.length - 1) (carrySize + k)))) := by
  have hcarry := h.carry
  have hsize := h.size
  generalize hc : min (search.length - 1) (carrySize + k) = c
  refine ⟨?_, by omega, hcontent, hpos, hk, ?_, ?_, hnone, hgood⟩
  · simp only [List.length_append, List.length_take, List.length_drop]
    omega
  · have hc' : ((buffer'.drop (carrySize + k - c)).take c).length = c := by
      simp only [List.length_take, List.length_drop]
      omega
    rw [List.take_left' hc']
    -- the end of the view
    have hend : (buffer'.drop (carrySize + k - c)).take c =
        (buffer'.take (carrySize + k)).drop (carrySize + k - c) := by
      rw [List.drop_take]
      congr 1
      omega
    rw [hend, hview, List.drop_take, List.drop_drop]
    congr 2
    · omega
    · omega
  · rw [hview, h.out, write_write, List.take_take, min_eq_left (by omega)]
    have hsplit : consumed + k - c = consumed - carrySize + (carrySize + k - c) := by omega
    rw [hsplit, List.take_add]

/-- The loop over the windows is exact. -/
theorem processWindows_exact (hsearch : search ≠ []) (hbuffer : 0 < bufferSize) (n : Nat)
    (h : Carried bufferSize search s₀ s buffer consumed carrySize out₀ out) (hn : s₀.rest.length - consumed + 2 ≤ n) :
    ∃ r, processWindows device bufferSize search n s buffer carrySize out = some r ∧ Exact s₀ out₀ search r := by
  induction n generalizing s buffer consumed carrySize out with
  | zero => omega
  | succ n ih =>
    have hcarry := h.carry
    have hsize := h.size
    have hle := h.consumed_le
    have hlen : 0 < search.length := List.length_pos_iff.2 hsearch
    unfold processWindows
    dsimp only
    by_cases hgood : s.good = true
    · obtain ⟨hread, hcontent, hpos, hgood'⟩ := IStream.read_eq device bufferSize hgood
      rw [h.rest] at hread hpos hgood'
      rw [List.length_drop] at hpos hgood'
      rw [hgood, Bool.not_true, if_neg Bool.false_ne_true, if_neg (by omega), hread]
      by_cases hend : (s₀.rest.drop consumed).take bufferSize = []
      · -- nothing is left of the stream
        rw [if_pos hend]
        have hconsumed : consumed = s₀.rest.length := by
          rw [List.take_eq_nil_iff, List.drop_eq_nil_iff] at hend
          omega
        exact h.finish hsearch hconsumed hcontent (by rw [hpos]; omega)
      · rw [if_neg hend]
        obtain ⟨k, hk⟩ : ∃ k, min bufferSize (s₀.rest.length - consumed) = k := ⟨_, rfl⟩
        have htake : (s₀.rest.drop consumed).take bufferSize = (s₀.rest.drop consumed).take k := by
          rw [List.take_eq_take_iff, List.length_drop]
          omega
        have hkpos : 0 < k := by
          rw [List.take_eq_nil_iff, List.drop_eq_nil_iff] at hend
          omega
        have hklen : ((s₀.rest.drop consumed).take k).length = k := by
          rw [List.length_take, List.length_drop]
          omega
        obtain ⟨buffer', hstore, hlen', hview⟩ := h.view (k := k) (by omega) (by omega)
        rw [htake, hstore, hklen]
        simp only [Option.bind_eq_bind, Option.bind_some]
        rw [load_eq (by omega), List.drop_zero, hview]
        simp only [Option.bind_some]
        cases hfind : find search ((s₀.rest.drop (consumed - carrySize)).take (carrySize + k)) with
        | some m =>
          -- the pattern is found, and the stream goes back to it
          have hm := find_eq_some.1 hfind
          have hfirst := h.first_of_view hsearch hm
          obtain ⟨-, hmle⟩ := hm.occurs.of_take hsearch
          have hrestlen : s₀.rest.length = s₀.content.length - s₀.pos := List.length_drop
          have hpos' : (s.read device bufferSize).2.pos = s₀.pos + consumed + k := by rw [hpos, h.pos, hk]
          have hseek : (s.read device bufferSize).2.clear.seekCur (-((carrySize + k - m : Nat) : Int)) =
              { (s.read device bufferSize).2.clear with pos := s₀.pos + (consumed - carrySize + m) } := by
            unfold IStream.seekCur IStream.clear
            dsimp only
            rw [hpos', hcontent, h.content, if_pos (by omega)]
            congr 1
            omega
          dsimp only
          rw [hseek]
          refine ⟨_, rfl, hcontent.trans h.content, fun i hi => ?_, fun hnone => absurd hfirst.occurs (hnone _)⟩
          obtain rfl := hi.unique hfirst
          refine ⟨rfl, ?_, rfl, rfl⟩
          dsimp only
          rw [h.out, write_write, List.take_take, min_eq_left (by omega), ← List.take_add]
        | none =>
          have hnone := h.none_of_view (find_eq_none.1 hfind)
          have hwrite : (if search.length - 1 < carrySize + k then carrySize + k - (search.length - 1) else 0) =
              carrySize + k - min (search.length - 1) (carrySize + k) := by
            split <;> omega
          have hmoved : ((buffer'.drop (carrySize + k - min (search.length - 1) (carrySize + k))).take
              (min (search.length - 1) (carrySize + k))).length = min (search.length - 1) (carrySize + k) := by
            simp only [List.length_take, List.length_drop]
            omega
          have hnext := h.next (s.read device bufferSize).2 (by omega) hlen' hview (hcontent.trans h.content)
            (by rw [hpos, h.pos, hk, Nat.add_assoc]) (by rw [hgood']; omega) (by omega) hnone
          dsimp only
          rw [hwrite, load_eq (by omega)]
          simp only [Option.bind_some]
          rw [store_eq (by rw [hmoved]; omega), hmoved, List.take_zero, List.nil_append, Nat.zero_add]
          simp only [Option.bind_some]
          rw [hview] at hnext
          exact ih hnext (by omega)
    · rw [Bool.not_eq_true] at hgood
      rw [hgood, Bool.not_false, if_pos rfl]
      exact h.finish hsearch (h.good.resolve_left (by simp [hgood])) rfl rfl

end Windows

/-- The search is exact, and no byte out of the bounds of the buffer is read or written. -/
theorem processToMatch_exact (device : Nat → Nat) (bufferSize : Nat) (s : IStream) (out : Option (List UInt8))
    (search : List UInt8) (hgood : s.good = true) (hsearch : search ≠ []) (hbuffer : 0 < bufferSize) :
    ∃ r, processToMatch device bufferSize s out search = some r ∧ Exact s out search r := by
  have hstart : Carried bufferSize search s s (List.replicate (bufferSize + (search.length - 1)) 0) 0 0 out out := by
    refine ⟨List.length_replicate, by simp, rfl, rfl, Nat.zero_le _, by simp, ?_, ?_, Or.inl hgood⟩
    · cases out with
      | none => rfl
      | some out => simp [write]
    · intro j hj
      have hpos := List.length_pos_iff.2 hsearch
      omega
  exact processWindows_exact hsearch hbuffer _ hstart (by rw [Nat.sub_zero])

/-- Both searches find the first occurrence. -/
theorem copyToMatch_seekToMatch_exact (device : Nat → Nat) (bufferSize : Nat) (s : IStream) (out search : List UInt8)
    (hgood : s.good = true) (hsearch : search ≠ []) (hbuffer : 0 < bufferSize) :
    (∃ r, copyToMatch device bufferSize s out search = some r ∧ Exact s (some out) search r) ∧
      ∃ r, seekToMatch device bufferSize s search = some r ∧ Exact s none search r :=
  ⟨processToMatch_exact device bufferSize s (some out) search hgood hsearch hbuffer,
    processToMatch_exact device bufferSize s none search hgood hsearch hbuffer⟩

/-- An occurrence over three windows of two bytes. -/
theorem copyToMatch_seekToMatch_exact_straddling :
    (∃ r, copyToMatch (fun _ => 0) 2 { content := [1, 2, 3, 4, 5, 6, 7] } [] [3, 4, 5, 6] = some r ∧
        Exact { content := [1, 2, 3, 4, 5, 6, 7] } (some []) [3, 4, 5, 6] r) ∧
      ∃ r, seekToMatch (fun _ => 0) 2 { content := [1, 2, 3, 4, 5, 6, 7] } [3, 4, 5, 6] = some r ∧
        Exact { content := [1, 2, 3, 4, 5, 6, 7] } none [3, 4, 5, 6] r :=
  copyToMatch_seekToMatch_exact (fun _ => 0) 2 { content := [1, 2, 3, 4, 5, 6, 7] } [] [3, 4, 5, 6] rfl (by decide)
    (by decide)

end Util

end CollaboraOnline
