import CollaboraOnline.Lib.Table
import CollaboraOnline.Net.HttpRequestStream

/-!
# The proxy protocol

Messages that come in the bodies of many HTTP requests.  Every request has its input buffer; the frames in it are
numbered, and all requests share the queue that puts the messages in order.  The check for a complete message and the
parser agree on every frame: it is left alone until it is there (`hasCompleteMessage_prefix`), and then taken
(`parseEmitIncoming_frame`).
-/

namespace CollaboraOnline

namespace ProxyProtocol

open Http

def DOT : UInt8 := 0x2e

/-! ### Numbers -/

def isSpace (ch : UInt8) : Bool := ch == 0x20 || (0x09 ≤ ch && ch ≤ 0x0d)

def isHexDigit (ch : UInt8) : Bool := (hexDigitFromChar ch).isSome

/-- The hexadecimal digits that `strtoull` reads: a prefix `0x` is skipped where a digit follows. -/
def hexDigits (s : List UInt8) : List UInt8 :=
  let s := if (s.take 2 == text "0x" || s.take 2 == text "0X") && (s.drop 2).head?.any isHexDigit then s.drop 2 else s
  s.takeWhile isHexDigit

/-- `strtoull` in base 16. -/
def strtoull (s : List UInt8) : Nat :=
  let s := s.dropWhile isSpace
  let negative := s.head? == some 0x2d
  let s := if negative || s.head? == some 0x2b then s.tail else s
  let n := min (hexValue (hexDigits s)) (2 ^ 64 - 1)
  if negative then (2 ^ 64 - n) % 2 ^ 64 else n

/-- A number as `std::hex` prints it. -/
def hex (n : Nat) : List UInt8 := if n = 0 then text "0" else toHex n

/-! ### Frames -/

structure Message where
  isText : Bool
  data : List UInt8
deriving DecidableEq

/-- The constructor of `Message`. -/
def Message.frame (serial : Nat) (m : Message) : List UInt8 :=
  text (if m.isText then "T" else "B") ++ text "0x" ++ hex serial ++ text "\n0x" ++ hex m.data.length ++ [LF] ++
    m.data ++ [LF]

def hasCompleteMessage (buffer : List UInt8) : Bool :=
  if buffer.length < 2 then buffer == [DOT]
  else
    -- the end of the serial, then that of the length
    let serialEnd := 1 + findLineBreak (buffer.drop 1)
    if buffer.length ≤ serialEnd then false
    else
      let lengthStart := serialEnd + 1
      let lengthFieldSize := findLineBreak (buffer.drop lengthStart)
      if buffer.length ≤ lengthStart + lengthFieldSize then false
      else if 32 ≤ lengthFieldSize then false
      else
        let contentLength := strtoull ((buffer.drop lengthStart).take lengthFieldSize)
        (lengthStart + lengthFieldSize + 1 + contentLength + 1) % 2 ^ 64 ≤ buffer.length

inductive ParseStatus
  | AGAIN
  | COMPLETE
  | PROTOCOL_ERROR
deriving DecidableEq

/-! ### The handler -/

structure Handler where
  serialQueue : Table (Prod.fst : Nat × List UInt8 → Nat) := Table.empty
  inSerial : Nat := 1
  /-- What `handleMessage` was called with. -/
  handled : List (List UInt8) := []

namespace Handler

/-- The loop, which takes a message from the queue in every round. -/
def processBufferedMessages : Nat → Handler → Handler
  | 0, h => h
  | n + 1, h =>
    match h.serialQueue.find h.inSerial with
    | none => h
    | some message =>
      processBufferedMessages n
        { serialQueue := h.serialQueue.erase h.inSerial, inSerial := h.inSerial + 1,
          handled := h.handled ++ [message.2] }

def add (h : Handler) (serial : Nat) (data : List UInt8) : Handler :=
  let serialQueue := h.serialQueue.put (serial, data)
  processBufferedMessages serialQueue.entries.length { h with serialQueue }

end Handler

/-- The loop over the messages in a buffer, at most `n` of them: what is left in the buffer. -/
def parseEmitIncoming : Nat → Handler → List UInt8 → ParseStatus × Handler × List UInt8
  | 0, h, buffer => (.AGAIN, h, buffer)
  | n + 1, h, buffer =>
    if buffer = [] then (.AGAIN, h, buffer)
    else if !hasCompleteMessage buffer then (.AGAIN, h, buffer)
    else if buffer.head? = some DOT then (.COMPLETE, h, buffer)
    else if buffer.head? ≠ some 0x54 ∧ buffer.head? ≠ some 0x42 then (.PROTOCOL_ERROR, h, buffer)
    else
      let line := buffer.drop 1
      let serial := strtoull (line.take (findLineBreak line))
      let buffer := line.drop (findLineBreak line + 1)
      let len := strtoull (buffer.take (findLineBreak buffer))
      let buffer := buffer.drop (findLineBreak buffer + 1)
      let data := buffer.take len
      let buffer := buffer.drop len
      if buffer.head? ≠ some LF then (.PROTOCOL_ERROR, h, buffer)
      else parseEmitIncoming n (h.add serial data) buffer.tail

/-! ### Requests -/

/-- The handler of a session, and the input buffers of its requests. -/
structure Proxy where
  handler : Handler := {}
  inBuffer : Nat → List UInt8 := fun _ => []

/-- `handleRequest` and `handleIncomingMessage`: bytes of the body of a request have arrived. -/
def Proxy.handleIncomingMessage (p : Proxy) (request : Nat) (piece : List UInt8) : Proxy :=
  let buffer := p.inBuffer request ++ piece
  let (_, handler, rest) := parseEmitIncoming buffer.length p.handler buffer
  { handler, inBuffer := Function.update p.inBuffer request rest }

def Proxy.arrivals (pieces : List (Nat × List UInt8)) : Proxy :=
  pieces.foldl (fun p piece => p.handleIncomingMessage piece.1 piece.2) {}

/-! ### The numbers come back -/

section Numbers

variable {n : Nat} {s q : List UInt8}

theorem hex_spec (n : Nat) : hexValue (hex n) = n ∧ hex n ≠ [] ∧ ∀ ch ∈ hex n, isHexDigit ch = true := by
  unfold hex
  split
  · rename_i h
    subst h
    exact ⟨by decide, by decide, List.all_eq_true.1 (by decide)⟩
  · rename_i h
    have hline := sizeLine_toHex (n := n) (by omega)
    exact ⟨hexValue_toHex n, hline.ne_nil, hline.hex⟩

theorem hexDigit_notMem (h : ∀ ch ∈ s, isHexDigit ch = true) : LF ∉ text "0x" ++ s := by
  have htext : LF ∉ text "0x" := by decide
  rw [List.mem_append, not_or]
  exact ⟨htext, fun hmem => absurd (h LF hmem) (by decide)⟩

theorem strtoull_hex (hn : n < 2 ^ 64) : strtoull (text "0x" ++ hex n) = n := by
  obtain ⟨hvalue, hne, hdigits⟩ := hex_spec n
  generalize hex n = digits at hvalue hne hdigits
  have htake : digits.takeWhile isHexDigit = digits := List.takeWhile_eq_self_iff.2 hdigits
  cases digits with
  | nil => exact absurd rfl hne
  | cons ch digits =>
    have hch : isHexDigit ch = true := hdigits ch (List.mem_cons_self ..)
    have hspace : (text "0x" ++ ch :: digits).dropWhile isSpace = text "0x" ++ ch :: digits := rfl
    have hhex : hexDigits (text "0x" ++ ch :: digits) = ch :: digits := by
      unfold hexDigits
      have hprefix :
        ((text "0x" ++ ch :: digits).take 2 == text "0x" || (text "0x" ++ ch :: digits).take 2 == text "0X") &&
          ((text "0x" ++ ch :: digits).drop 2).head?.any isHexDigit := by
        simp [text, hch]
      rw [if_pos hprefix]
      exact htake
    unfold strtoull
    dsimp only
    rw [hspace]
    have hminus : ((text "0x" ++ ch :: digits).head? == some 0x2d) = false := rfl
    have hplus : ((text "0x" ++ ch :: digits).head? == some 0x2b) = false := rfl
    rw [hminus, hplus, Bool.or_false, if_neg Bool.false_ne_true, if_neg Bool.false_ne_true, hhex, hvalue]
    omega

end Numbers

/-! ### The frames come back -/

section Frames

variable {m : Message} {serial n : Nat} {p q : List UInt8} {h : Handler}

def typeOf (m : Message) : UInt8 := if m.isText then 0x54 else 0x42

def number (n : Nat) : List UInt8 := text "0x" ++ hex n

theorem frame_eq (serial : Nat) (m : Message) : m.frame serial =
    typeOf m :: (number serial ++ LF :: (number m.data.length ++ LF :: (m.data ++ [LF]))) := by
  have hline : text "\n0x" = LF :: text "0x" := by decide
  have htype : text (if m.isText then "T" else "B") = [typeOf m] := by
    unfold typeOf
    split
    · decide
    · decide
  rw [Message.frame, htype, hline]
  simp [number]

theorem number_spec (n : Nat) : LF ∉ number n ∧ (n < 2 ^ 64 → strtoull (number n) = n ∧ (number n).length < 32) := by
  refine ⟨hexDigit_notMem (hex_spec n).2.2, fun hn => ⟨strtoull_hex hn, ?_⟩⟩
  have hlen : (hex n).length ≤ 16 := by
    unfold hex
    split
    · decide
    · rw [toHex, List.length_map, List.length_reverse, Nat.digits_length_le_iff (by decide)]
      omega
  have htext : (text "0x").length = 2 := by decide
  rw [number, List.length_append, htext]
  omega

theorem findLineBreak_number (n : Nat) (q : List UInt8) : findLineBreak (number n ++ LF :: q) = (number n).length :=
  findLineBreak_append (number_spec n).1

/-- A frame that is announced and sent whole. -/
def Fits (m : Message) (serial : Nat) : Prop := serial < 2 ^ 64 ∧ (m.frame serial).length < 2 ^ 64

theorem fits_length (hfits : Fits m serial) : m.data.length < 2 ^ 64 := by
  have hlen := hfits.2
  rw [frame_eq] at hlen
  simp only [List.length_cons, List.length_append] at hlen
  omega

theorem length_frame : (m.frame serial).length =
    1 + (number serial).length + 1 + (number m.data.length).length + 1 + m.data.length + 1 := by
  rw [frame_eq]
  simp only [List.length_cons, List.length_append, List.length_nil]
  omega

theorem drop_one_cons (a : UInt8) (l : List UInt8) : (a :: l).drop 1 = l := rfl

/-- The check on a buffer that has both numbers of a frame. -/
theorem hasCompleteMessage_numbers (hfits : Fits m serial) (q : List UInt8) :
    hasCompleteMessage (typeOf m :: (number serial ++ LF :: (number m.data.length ++ LF :: q))) =
      decide (m.data.length + 1 ≤ q.length) := by
  obtain ⟨hvalue, hshort⟩ := (number_spec m.data.length).2 (fits_length hfits)
  have hlen := hfits.2
  rw [length_frame] at hlen
  have hdrop : (typeOf m :: (number serial ++ LF :: (number m.data.length ++ LF :: q))).drop
      (1 + (number serial).length + 1) = number m.data.length ++ LF :: q := by
    have hsplit : typeOf m :: (number serial ++ LF :: (number m.data.length ++ LF :: q)) =
        (typeOf m :: (number serial ++ [LF])) ++ (number m.data.length ++ LF :: q) := by simp
    rw [hsplit]
    exact List.drop_left' (by simp; omega)
  have hlength : (typeOf m :: (number serial ++ LF :: (number m.data.length ++ LF :: q))).length =
      1 + (number serial).length + 1 + (number m.data.length).length + 1 + q.length := by
    simp only [List.length_cons, List.length_append]
    omega
  have hnot : ∀ {a b : Nat}, b < a → ¬ a ≤ b := by omega
  unfold hasCompleteMessage
  rw [if_neg (by rw [hlength]; omega)]
  dsimp only
  rw [drop_one_cons, findLineBreak_number, if_neg (by rw [hlength]; omega), hdrop, findLineBreak_number,
    if_neg (by rw [hlength]; omega), if_neg (by omega), List.take_left, hvalue, hlength]
  by_cases hq : m.data.length + 1 ≤ q.length
  · rw [Nat.mod_eq_of_lt (by omega), decide_eq_true hq]
    exact decide_eq_true (by omega)
  · rw [Nat.mod_eq_of_lt (by omega), decide_eq_false hq]
    exact decide_eq_false (by omega)

/-- A frame that has not arrived completely is left alone. -/
theorem hasCompleteMessage_prefix (hfits : Fits m serial) (hp : p <+: m.frame serial)
    (hlen : p.length < (m.frame serial).length) (hne : p ≠ []) : hasCompleteMessage p = false := by
  rw [frame_eq] at hp
  rcases List.prefix_cons_iff.1 hp with rfl | ⟨p, rfl, hrest⟩
  · exact absurd rfl hne
  have htype : (typeOf m :: ([] : List UInt8) == [DOT]) = false := by
    unfold typeOf
    split
    · decide
    · decide
  by_cases hshort : (typeOf m :: p).length < 2
  · have hnil : p = [] := by
      rw [List.length_cons] at hshort
      exact List.eq_nil_of_length_eq_zero (by omega)
    subst hnil
    unfold hasCompleteMessage
    rw [if_pos hshort, htype]
  -- where the serial has not ended
  have hserial : LF ∉ p → hasCompleteMessage (typeOf m :: p) = false := by
    intro hmem
    unfold hasCompleteMessage
    rw [if_neg hshort]
    dsimp only
    rw [drop_one_cons, findLineBreak_of_notMem hmem, if_pos (by rw [List.length_cons]; omega)]
  rcases prefix_append_cases hrest with ⟨_, hpart⟩ | ⟨t, rfl, ht⟩
  · exact hserial fun hmem => (number_spec serial).1 (hpart.subset hmem)
  rcases List.prefix_cons_iff.1 ht with rfl | ⟨q, rfl, hq⟩
  · refine hserial ?_
    rw [List.append_nil]
    exact (number_spec serial).1
  have hlength : (typeOf m :: (number serial ++ LF :: q)).length = 1 + (number serial).length + 1 + q.length := by
    simp only [List.length_cons, List.length_append]
    omega
  have hdrop : (typeOf m :: (number serial ++ LF :: q)).drop (1 + (number serial).length + 1) = q := by
    have hsplit : typeOf m :: (number serial ++ LF :: q) = (typeOf m :: (number serial ++ [LF])) ++ q := by simp
    rw [hsplit]
    exact List.drop_left' (by simp; omega)
  -- where the length has not ended
  have hlengthLine : LF ∉ q → hasCompleteMessage (typeOf m :: (number serial ++ LF :: q)) = false := by
    intro hmem
    unfold hasCompleteMessage
    rw [if_neg hshort]
    dsimp only
    rw [drop_one_cons, findLineBreak_number, if_neg (by rw [hlength]; omega), hdrop, findLineBreak_of_notMem hmem,
      if_pos (by rw [hlength])]
  rcases prefix_append_cases hq with ⟨_, hpart⟩ | ⟨u, rfl, hu⟩
  · exact hlengthLine fun hmem => (number_spec m.data.length).1 (hpart.subset hmem)
  rcases List.prefix_cons_iff.1 hu with rfl | ⟨v, rfl, hv⟩
  · refine hlengthLine ?_
    rw [List.append_nil]
    exact (number_spec m.data.length).1
  rw [hasCompleteMessage_numbers hfits]
  rw [length_frame] at hlen
  simp only [List.length_cons, List.length_append] at hlen
  exact decide_eq_false (by omega)

/-- A frame that has arrived is added to the queue. -/
theorem parseEmitIncoming_frame (hfits : Fits m serial) (q : List UInt8) :
    parseEmitIncoming (n + 1) h (m.frame serial ++ q) = parseEmitIncoming n (h.add serial m.data) q := by
  have hbuffer : m.frame serial ++ q =
      typeOf m :: (number serial ++ LF :: (number m.data.length ++ LF :: (m.data ++ LF :: q))) := by
    rw [frame_eq]
    simp
  have hcomplete := hasCompleteMessage_numbers hfits (m.data ++ LF :: q)
  rw [decide_eq_true (by rw [List.length_append, List.length_cons]; omega)] at hcomplete
  have hhead : (typeOf m = 0x54 ∨ typeOf m = 0x42) ∧ typeOf m ≠ DOT := by
    unfold typeOf
    split
    · decide
    · decide
  have hdrop : ∀ (k : Nat) (t : List UInt8), (number k ++ LF :: t).drop ((number k).length + 1) = t := by
    intro k t
    rw [← List.drop_drop, List.drop_left]
    rfl
  rw [hbuffer, parseEmitIncoming, if_neg (List.cons_ne_nil _ _), hcomplete, if_neg (by decide), List.head?_cons,
    if_neg (by simpa using hhead.2), if_neg (by simp; tauto)]
  dsimp only
  rw [drop_one_cons, findLineBreak_number, List.take_left, hdrop, findLineBreak_number, List.take_left, hdrop,
    ((number_spec serial).2 hfits.1).1, ((number_spec m.data.length).2 (fits_length hfits)).1, List.take_left,
      List.drop_left,
    if_neg (by simp)]
  rfl

end Frames

end ProxyProtocol

end CollaboraOnline
