import CollaboraOnline.Wsd.ProxyProtocol

/-!
# The reads of the proxy protocol

`parseFrame` is one round of `parseEmitIncoming` that fails where it would read or write beyond the input buffer.  The
check for a complete message decodes the same length as the parser (`hasCompleteMessage_lines`, `parseFrame_lines`),
but it adds the length to a position with 64 bits.  A length for which the sum wraps is greater than any vector: its
constructor throws before it reads.  Hence the parser stays in the buffer whatever arrives (`arrivals_inBounds`).
-/

namespace CollaboraOnline

namespace ProxyProtocol

open Http

/-! ### Reading with bounds -/

/-- The greatest size of a `std::vector<char>`. -/
def maxSize : Nat := 2 ^ 63 - 1

/-- What a round takes from the buffer, without the line break at the end. -/
structure ParsedFrame where
  serial : Nat
  len : Nat
  /-- `none` where the constructor of the vector throws `length_error`. -/
  data : Option (List UInt8)
  rest : List UInt8
deriving DecidableEq

/-- The lines of a frame and its data; `none` where the round leaves the buffer. -/
def parseFrame (buffer : List UInt8) : Option ParsedFrame :=
  let line := buffer.drop 1
  let it := findLineBreak line
  -- the terminator that is written in the place of the line break
  if line.length ≤ it then none
  else
    let serial := strtoull (line.take it)
    let buffer := line.drop (it + 1)
    let it := findLineBreak buffer
    if buffer.length ≤ it then none
    else
      let len := strtoull (buffer.take it)
      let buffer := buffer.drop (it + 1)
      -- the distance of the iterators is checked before anything is copied
      if maxSize < len then some { serial, len, data := none, rest := buffer }
      else if buffer.length < len then none
      else some { serial, len, data := some (buffer.take len), rest := buffer.drop len }

/-- How the loop ends. -/
inductive Ending
  | returned (status : ParseStatus)
  | lengthError
deriving DecidableEq

/-- `parseEmitIncoming`; `none` where it leaves the buffer, or where the loop needs more than `n` rounds. -/
def parseInBounds : Nat → Handler → List UInt8 → Option (Ending × Handler × List UInt8)
  | _, h, [] => some (.returned .AGAIN, h, [])
  | 0, _, _ :: _ => none
  | n + 1, h, byte :: buffer =>
    if !hasCompleteMessage (byte :: buffer) then some (.returned .AGAIN, h, byte :: buffer)
    else if byte = DOT then some (.returned .COMPLETE, h, byte :: buffer)
    else if byte ≠ 0x54 ∧ byte ≠ 0x42 then some (.returned .PROTOCOL_ERROR, h, byte :: buffer)
    else
      (parseFrame (byte :: buffer)).bind fun frame =>
        match frame.data with
        | none => some (.lengthError, h, frame.rest)
        | some data =>
          if frame.rest.head? ≠ some LF then some (.returned .PROTOCOL_ERROR, h, frame.rest)
          else parseInBounds n (h.add frame.serial data) frame.rest.tail

/-- An exception ends the round only.  Its handler closes the socket, or sends an error and shuts it down: more bytes
may come before that is done. -/
def Proxy.handleInBounds (p : Proxy) (request : Nat) (piece : List UInt8) : Option Proxy :=
  let buffer := p.inBuffer request ++ piece
  -- the buffer is a vector, which `append` does not grow beyond its greatest size
  if maxSize < buffer.length then some p
  else
    (parseInBounds buffer.length p.handler buffer).map fun (_, handler, rest) =>
      { handler, inBuffer := Function.update p.inBuffer request rest }

def Proxy.arrivalsInBounds (p : Proxy) : List (Nat × List UInt8) → Option Proxy
  | [] => some p
  | piece :: pieces => (p.handleInBounds piece.1 piece.2).bind fun p => p.arrivalsInBounds pieces

/-! ### The lines of a frame -/

section Lines

variable {type : UInt8} {serial length buffer p q : List UInt8} {h h' : Handler} {n : Nat}

theorem split_line (h : findLineBreak p < p.length) : ∃ line rest, p = line ++ LF :: rest ∧ LF ∉ line := by
  unfold findLineBreak at h
  refine ⟨p.takeWhile fun ch => ch != LF, (p.dropWhile fun ch => ch != LF).tail, ?_, ?_⟩
  · cases hdrop : p.dropWhile fun ch => ch != LF with
    | nil =>
      have hall : p.takeWhile (fun ch => ch != LF) = p := by
        conv_rhs => rw [← List.takeWhile_append_dropWhile (p := fun ch => ch != LF) (l := p), hdrop, List.append_nil]
      rw [hall] at h
      omega
    | cons ch rest =>
      have hch : (ch != LF) = false := by
        have hne : (p.dropWhile fun ch => ch != LF) ≠ [] := by simp [hdrop]
        have := List.head_dropWhile_not (fun ch => ch != LF) hne
        simpa [hdrop] using this
      obtain rfl : ch = LF := by simpa using hch
      rw [List.tail_cons, ← hdrop]
      exact List.takeWhile_append_dropWhile.symm
  · intro hmem
    have := List.mem_takeWhile_imp hmem
    simp at this

/-- What a buffer starts with that announces a frame: the type, the serial and the length. -/
def header (type : UInt8) (serial length : List UInt8) : List UInt8 := type :: (serial ++ LF :: (length ++ [LF]))

theorem header_append (q : List UInt8) :
    header type serial length ++ q = type :: (serial ++ LF :: (length ++ LF :: q)) := by simp [header]

theorem length_header : (header type serial length).length = 1 + serial.length + 1 + length.length + 1 := by
  simp [header]
  omega

private theorem drop_serial (type : UInt8) (serial q : List UInt8) :
    (type :: (serial ++ LF :: q)).drop (1 + serial.length + 1) = q := by
  have hsplit : type :: (serial ++ LF :: q) = (type :: (serial ++ [LF])) ++ q := by simp
  rw [hsplit]
  exact List.drop_left' (by simp; omega)

private theorem drop_line (line q : List UInt8) : (line ++ LF :: q).drop (line.length + 1) = q := by
  rw [← List.drop_drop, List.drop_left]
  rfl

/-- The check on a buffer with both lines. -/
theorem hasCompleteMessage_lines (hserial : LF ∉ serial) (hlength : LF ∉ length) (q : List UInt8) :
    hasCompleteMessage (header type serial length ++ q) = true ↔ length.length < 32 ∧
      ((header type serial length).length + strtoull length + 1) % 2 ^ 64 ≤
        (header type serial length ++ q).length := by
  have hlen : (header type serial length ++ q).length = 1 + serial.length + 1 + length.length + 1 + q.length := by
    rw [List.length_append, length_header]
  rw [length_header, hlen]
  rw [header_append] at hlen ⊢
  unfold hasCompleteMessage
  rw [if_neg (by omega)]
  dsimp only
  rw [drop_one_cons, findLineBreak_append hserial, if_neg (by omega), drop_serial, findLineBreak_append hlength,
    if_neg (by omega), List.take_left, hlen]
  by_cases h32 : length.length < 32
  · rw [if_neg (by omega), decide_eq_true_iff]
    exact (and_iff_right h32).symm
  · rw [if_pos (by omega)]
    simp [h32]

/-- A complete message is a dot, or it has both lines. -/
theorem exists_header (h : hasCompleteMessage buffer = true) : buffer = [DOT] ∨
    ∃ type serial length q, LF ∉ serial ∧ LF ∉ length ∧ buffer = header type serial length ++ q := by
  unfold hasCompleteMessage at h
  split at h
  · exact .inl (by simpa using h)
  · right
    cases buffer with
    | nil => simp at h
    | cons type buffer =>
      dsimp only at h
      rw [drop_one_cons] at h
      split at h
      · cases h
      · rename_i hend
        rw [List.length_cons] at hend
        obtain ⟨serial, rest, rfl, hserial⟩ := split_line (p := buffer) (by omega)
        rw [findLineBreak_append hserial, drop_serial] at h
        split at h
        · cases h
        · rename_i hend'
          simp only [List.length_cons, List.length_append] at hend'
          obtain ⟨length, q, rfl, hlength⟩ := split_line (p := rest) (by omega)
          exact ⟨type, serial, length, q, hserial, hlength, (header_append q).symm⟩

/-- The parser decodes the length of the check, and leaves the buffer where that many bytes can be copied and are not
there. -/
theorem parseFrame_lines (type : UInt8) (hserial : LF ∉ serial) (hlength : LF ∉ length) (q : List UInt8) :
    parseFrame (header type serial length ++ q) =
      if maxSize < strtoull length then some ⟨strtoull serial, strtoull length, none, q⟩
      else if q.length < strtoull length then none
      else some ⟨strtoull serial, strtoull length, some (q.take (strtoull length)), q.drop (strtoull length)⟩ := by
  rw [header_append]
  unfold parseFrame
  dsimp only
  rw [drop_one_cons, findLineBreak_append hserial, if_neg (by simp), List.take_left, drop_line,
    findLineBreak_append hlength, if_neg (by simp), List.take_left, drop_line]

/-- What the check announces is there, or it is more than a vector holds: a sum that wraps exceeds 64 bits, and the
header has less than 63. -/
theorem length_of_complete (hserial : LF ∉ serial) (hlength : LF ∉ length)
    (hsize : (header type serial length ++ q).length ≤ maxSize)
    (hcomplete : hasCompleteMessage (header type serial length ++ q) = true) :
    maxSize < strtoull length ∨ strtoull length ≤ q.length := by
  obtain ⟨-, hsum⟩ := (hasCompleteMessage_lines hserial hlength q).1 hcomplete
  rw [List.length_append] at hsize hsum
  unfold maxSize at hsize ⊢
  by_cases hwrap : (header type serial length).length + strtoull length + 1 < 2 ^ 64
  · right
    rw [Nat.mod_eq_of_lt hwrap] at hsum
    omega
  · left
    omega

/-- A frame that is complete is taken in the buffer, with the length of the check. -/
theorem parseFrame_complete (hsize : buffer.length ≤ maxSize) (hcomplete : hasCompleteMessage buffer = true)
    (hdot : buffer ≠ [DOT]) : ∃ frame, parseFrame buffer = some frame ∧
      (frame.data = none → maxSize < frame.len) ∧ (∀ data, frame.data = some data → data.length = frame.len) ∧
        frame.rest.length < buffer.length := by
  rcases exists_header hcomplete with rfl | ⟨type, serial, length, q, hserial, hlength, rfl⟩
  · exact absurd rfl hdot
  have hheader : 0 < (header type serial length).length := by
    rw [length_header]
    omega
  rw [parseFrame_lines type hserial hlength q, List.length_append]
  by_cases hlarge : maxSize < strtoull length
  · rw [if_pos hlarge]
    exact ⟨_, rfl, fun _ => hlarge, by simp, by dsimp only; omega⟩
  · have hthere := (length_of_complete hserial hlength hsize hcomplete).resolve_left hlarge
    rw [if_neg hlarge, if_neg (by omega)]
    refine ⟨_, rfl, by simp, ?_, ?_⟩
    · rintro data ⟨⟩
      exact List.length_take_of_le hthere
    · dsimp only
      rw [List.length_drop]
      omega

/-! ### Rounds in bounds -/

/-- In bounds, a loop that returns is `parseEmitIncoming`. -/
theorem parseEmitIncoming_of_inBounds {status : ParseStatus} {rest : List UInt8}
    (hr : parseInBounds n h buffer = some (.returned status, h', rest)) :
    parseEmitIncoming n h buffer = (status, h', rest) := by
  induction n generalizing h buffer with
  | zero =>
    cases buffer with
    | nil =>
      cases hr
      rfl
    | cons byte buffer => cases hr
  | succ n ih =>
    cases buffer with
    | nil =>
      rw [parseEmitIncoming, if_pos rfl]
      cases hr
      rfl
    | cons byte buffer =>
      unfold parseInBounds at hr
      rw [parseEmitIncoming, if_neg (List.cons_ne_nil _ _), List.head?_cons]
      split at hr
      · rename_i hcomplete
        rw [if_pos hcomplete]
        cases hr
        rfl
      · rename_i hcomplete
        rw [if_neg hcomplete]
        split at hr
        · rename_i hdot
          rw [if_pos (congrArg some hdot)]
          cases hr
          rfl
        · rename_i hdot
          rw [if_neg (by simpa using hdot)]
          split at hr
          · rename_i htype
            rw [if_pos (by simpa using htype)]
            cases hr
            rfl
          · rename_i htype
            rw [if_neg (by simpa using htype)]
            obtain ⟨frame, hframe, hr⟩ := Option.bind_eq_some_iff.1 hr
            unfold parseFrame at hframe
            dsimp only at hframe ⊢
            split at hframe
            · cases hframe
            · split at hframe
              · cases hframe
              · split at hframe
                · cases hframe
                  cases hr
                · split at hframe
                  · cases hframe
                  · cases hframe
                    dsimp only at hr
                    split at hr
                    · rename_i hend
                      rw [if_pos hend]
                      cases hr
                      rfl
                    · rename_i hend
                      rw [if_neg hend]
                      exact ih hr

/-- The loop ends, and stays in the buffer. -/
theorem parseInBounds_total (hn : buffer.length ≤ n) (hsize : buffer.length ≤ maxSize) :
    ∃ ending h' rest, parseInBounds n h buffer = some (ending, h', rest) := by
  induction n generalizing h buffer with
  | zero =>
    obtain rfl := List.length_eq_zero_iff.1 (Nat.le_zero.1 hn)
    exact ⟨_, _, _, rfl⟩
  | succ n ih =>
    cases buffer with
    | nil => exact ⟨_, _, _, rfl⟩
    | cons byte buffer =>
      unfold parseInBounds
      split
      · exact ⟨_, _, _, rfl⟩
      · rename_i hcomplete
        split
        · exact ⟨_, _, _, rfl⟩
        · rename_i hdot
          split
          · exact ⟨_, _, _, rfl⟩
          · obtain ⟨frame, hframe, -, -, hrest⟩ := parseFrame_complete hsize (by simpa using hcomplete)
              fun hdots => hdot (List.cons.inj hdots).1
            rw [hframe, Option.bind_some]
            split
            · exact ⟨_, _, _, rfl⟩
            · split
              · exact ⟨_, _, _, rfl⟩
              · have htail : frame.rest.tail.length ≤ frame.rest.length := by
                  rw [List.length_tail]
                  omega
                exact ih (by omega) (by omega)

end Lines

/-! ### Arrivals -/

section Arrivals

variable {buffer : List UInt8} {frame : ParsedFrame}

/-- The length that `hasCompleteMessage` decodes. -/
def contentLength (buffer : List UInt8) : Nat :=
  let lengthStart := 1 + findLineBreak (buffer.drop 1) + 1
  strtoull ((buffer.drop lengthStart).take (findLineBreak (buffer.drop lengthStart)))

theorem parseFrame_len (h : parseFrame buffer = some frame) : frame.len = contentLength buffer := by
  have hdrop : (buffer.drop 1).drop (findLineBreak (buffer.drop 1) + 1) =
      buffer.drop (1 + findLineBreak (buffer.drop 1) + 1) := by
    rw [List.drop_drop, Nat.add_assoc]
  unfold parseFrame at h
  dsimp only at h
  rw [hdrop] at h
  split at h
  · cases h
  · split at h
    · cases h
    · split at h
      · cases h
        rfl
      · split at h
        · cases h
        · cases h
          rfl

theorem handleInBounds_total (p : Proxy) (request : Nat) (piece : List UInt8) :
    ∃ p', p.handleInBounds request piece = some p' := by
  unfold Proxy.handleInBounds
  dsimp only
  split
  · exact ⟨p, rfl⟩
  · rename_i hsize
    obtain ⟨ending, handler, rest, hr⟩ := parseInBounds_total (h := p.handler) (le_refl _) (Nat.not_lt.1 hsize)
    rw [hr]
    exact ⟨_, rfl⟩

theorem arrivalsInBounds_total (p : Proxy) (pieces : List (Nat × List UInt8)) :
    ∃ p', p.arrivalsInBounds pieces = some p' := by
  induction pieces generalizing p with
  | nil => exact ⟨p, rfl⟩
  | cons piece pieces ih =>
    obtain ⟨p', hp'⟩ := handleInBounds_total p piece.1 piece.2
    obtain ⟨p'', hp''⟩ := ih p'
    refine ⟨p'', ?_⟩
    rw [Proxy.arrivalsInBounds, hp', Option.bind_some, hp'']

/-- A length whose sum with the header wraps. -/
example : (parseInBounds 24 {} (text "T0x1\n0xffffffffffffffff\n")).map (fun r => (r.1, r.2.2)) =
    some (.lengthError, []) := by
  decide +kernel

end Arrivals

end ProxyProtocol

end CollaboraOnline
