import CollaboraOnline.Lib.Incremental
import Mathlib.Tactic

/-!
# The framing of web sockets

`Buffer`, the builder of frames, and `handleTCPStream` with the loop around it, on a socket that is upgraded.  Bytes
are `UInt8`.  A `Connection` is a handler with its socket; the handler adds the messages that it handled.
-/

namespace CollaboraOnline

/-! ### Buffers -/

/-- Data is kept from `offset` on. -/
structure Buffer where
  offset : Nat
  buffer : List UInt8
  offset_le : offset ≤ buffer.length
deriving DecidableEq

namespace Buffer

def empty : Buffer := ⟨0, [], Nat.le_refl _⟩

def size (b : Buffer) : Nat := b.buffer.length - b.offset

def data (b : Buffer) : List UInt8 := b.buffer.drop b.offset

def eraseFirst (b : Buffer) (len : Nat) : Buffer :=
  if len = 0 then b
  else if 16384 < b.buffer.length ∧ min len b.size < b.size ∧ b.offset < 16384 * 64 ∧ 512 < b.size then
    ⟨b.offset + min len b.size, b.buffer, by have := b.offset_le; unfold size; omega⟩
  else ⟨0, b.buffer.drop (b.offset + min len b.size), Nat.zero_le _⟩

def append (b : Buffer) (data : List UInt8) : Buffer :=
  ⟨b.offset, b.buffer ++ data, by have := b.offset_le; rw [List.length_append]; omega⟩

variable {b : Buffer}

@[simp] theorem data_empty : empty.data = [] := rfl

@[simp] theorem length_data : b.data.length = b.size := by simp [data, size]

@[simp] theorem data_append (data : List UInt8) : (b.append data).data = b.data ++ data :=
  List.drop_append_of_le_length b.offset_le

/-- Erasing drops the first bytes, whether the vector is shuffled down or not. -/
@[simp] theorem data_eraseFirst (len : Nat) : (b.eraseFirst len).data = b.data.drop len := by
  have hmin : b.buffer.drop (b.offset + min len b.size) = b.data.drop len := by
    rw [data, List.drop_drop]
    rcases Nat.le_total len b.size with h | h
    · rw [Nat.min_eq_left h]
    · have := b.offset_le
      rw [Nat.min_eq_right h, List.drop_eq_nil_of_le, List.drop_eq_nil_of_le] <;> unfold size at * <;> omega
  unfold eraseFirst
  split
  · rename_i h0
    simp [h0]
  · split
    · exact hmin
    · exact hmin

end Buffer

/-! ### Frames -/

/-- Opcodes, also those without a name. -/
abbrev WSOpCode := UInt8

namespace WSOpCode

def Continuation : WSOpCode := 0x0
def Text : WSOpCode := 0x1
def Binary : WSOpCode := 0x2
def Close : WSOpCode := 0x8
def Ping : WSOpCode := 0x9
def Pong : WSOpCode := 0xa

end WSOpCode

def isControlFrame (code : WSOpCode) : Bool := WSOpCode.Close ≤ code

abbrev StatusCode := Nat

def StatusCode.NORMAL_CLOSE : StatusCode := 1000
def StatusCode.PROTOCOL_ERROR : StatusCode := 1002

/-- Big-endian bytes. -/
def toBytes : Nat → Nat → List UInt8
  | 0, _ => []
  | k + 1, n => UInt8.ofNat (n / 256 ^ k) :: toBytes k n

def ofBytes (bytes : List UInt8) : Nat := bytes.foldl (fun n byte => n * 256 + byte.toNat) 0

/-- The mask of the frame builder. -/
def builderMask : List UInt8 := [0x81, 0x76, 0x81, 0x76]

def xorMask (mask data : List UInt8) : List UInt8 := data.mapIdx fun i byte => byte ^^^ mask.getD (i % 4) 0

/-- The length with the flag of the mask. -/
def lengthBytes (maskFlag : UInt8) (len : Nat) : List UInt8 :=
  if len < 126 then [UInt8.ofNat len ||| maskFlag]
  else if len ≤ 0xffff then (126 ||| maskFlag) :: toBytes 2 len
  else (127 ||| maskFlag) :: toBytes 8 len

def buildFrame (isMasking : Bool) (data : List UInt8) (flags : UInt8) : List UInt8 :=
  (0x80 ||| flags) :: (lengthBytes (if isMasking then 0x80 else 0) data.length ++
    if isMasking then builderMask ++ xorMask builderMask data else data)

/-- A frame that has arrived: `size` bytes, with the payload unmasked. -/
structure WebSocketFrame where
  fin : Bool
  code : WSOpCode
  hasMask : Bool
  payload : List UInt8
  size : Nat
deriving DecidableEq, Repr

/-- The length of the payload and that of the header without a mask; `none` where the header is incomplete. -/
def payloadLength (p : List UInt8) : Option (Nat × Nat) :=
  let payloadLen := (p.getD 1 0 &&& 0x7f).toNat
  if payloadLen = 126 then if p.length < 2 + 2 then none else some (ofBytes ((p.drop 2).take 2), 4)
  else if payloadLen = 127 then if p.length < 2 + 8 then none else some (ofBytes ((p.drop 2).take 8), 10)
  else some (payloadLen, 2)

/-- The frame at the front of the data; `none` while it is incomplete. -/
def readFrame (p : List UInt8) : Option WebSocketFrame :=
  if p.length < 2 then none
  else
    match payloadLength p with
    | none => none
    | some (payloadLen, maskAt) =>
      let hasMask := p.getD 1 0 &&& 0x80 != 0
      let headerLen := if hasMask then maskAt + 4 else maskAt
      if p.length < headerLen ∨ p.length - headerLen < payloadLen then none
      else
        let data := (p.drop headerLen).take payloadLen
        some { fin := p.getD 0 0 &&& 0x80 != 0, code := p.getD 0 0 &&& 0x0f, hasMask
               payload := if hasMask then xorMask ((p.drop maskAt).take 4) data else data
               size := headerLen + payloadLen }

/-! ### The handler -/

structure StreamSocket where
  inBuffer : Buffer := .empty
  outBuffer : List UInt8 := []
  ignoreInput : Bool := false
  shutdownSignalled : Bool := false
deriving DecidableEq

structure WebSocketHandler where
  isClient : Bool
  isMasking : Bool
  wsPayload : List UInt8 := []
  inFragmentBlock : Bool := false
  shuttingDown : Bool := false
  messages : List (List UInt8) := []
deriving DecidableEq

/-- Only a client masks. -/
def WebSocketHandler.new (isClient isMasking : Bool) : WebSocketHandler :=
    { isClient, isMasking := isClient && isMasking }

structure Connection where
  handler : WebSocketHandler
  socket : StreamSocket := {}
deriving DecidableEq

namespace Connection

def sendFrame (c : Connection) (data : List UInt8) (flags : UInt8) : Connection :=
  if data.isEmpty then c
  else { c with
    socket := { c.socket with outBuffer := c.socket.outBuffer ++ buildFrame c.handler.isMasking data flags } }

def sendPong (c : Connection) (data : List UInt8) : Connection := c.sendFrame data (0x80 ||| WSOpCode.Pong)

def sendCloseFrame (c : Connection) (statusCode : StatusCode) (statusMessage : List UInt8) : Connection :=
  if c.handler.shuttingDown then c
  else
    { c with handler := { c.handler with shuttingDown := true } }.sendFrame
      (toBytes 2 statusCode ++ statusMessage) (0x80 ||| WSOpCode.Close)

/-- `shutdownImpl`, neither hard nor silent. -/
def shutdown (c : Connection) (statusCode : StatusCode) (statusMessage : List UInt8) : Connection :=
  let c := if c.handler.shuttingDown then c else c.sendCloseFrame statusCode statusMessage
  { handler := { c.handler with wsPayload := [], inFragmentBlock := false, shuttingDown := false }
    socket := { c.socket with shutdownSignalled := true, ignoreInput := true, inBuffer := .empty } }

def eraseFirst (c : Connection) (len : Nat) : Connection :=
  { c with socket := { c.socket with inBuffer := c.socket.inBuffer.eraseFirst len } }

/-- The status and the message of a close frame.  The status is read from two bytes, also where the payload has only
one: `beyond` is what then stands behind it. -/
def closeStatus (beyond : UInt8) : List UInt8 → StatusCode × List UInt8
  | [] => (.NORMAL_CLOSE, [])
  | [byte] => (ofBytes [byte, beyond], [])
  | byte :: byte' :: message => (ofBytes [byte, byte'], message)

/-- What `handleTCPStream` does with a frame. -/
def handleFrame (beyond : UInt8) (c : Connection) (f : WebSocketFrame) : Connection :=
  if f.hasMask && c.handler.isClient then c.shutdown .PROTOCOL_ERROR []
  else if isControlFrame f.code then
    let c := c.eraseFirst f.size
    if !f.fin then c.shutdown .PROTOCOL_ERROR []
    else if 125 < f.payload.length then c.shutdown .PROTOCOL_ERROR []
    else if f.code = WSOpCode.Pong then c
    else if f.code = WSOpCode.Ping then c.sendPong f.payload
    else if f.code = WSOpCode.Close then
      if c.handler.shuttingDown then c.shutdown .NORMAL_CLOSE []
      else c.shutdown (closeStatus beyond f.payload).1 (closeStatus beyond f.payload).2
    else c.shutdown .PROTOCOL_ERROR []
  else if c.handler.inFragmentBlock && f.code != WSOpCode.Continuation then c.shutdown .PROTOCOL_ERROR []
  else if !c.handler.inFragmentBlock && f.code == WSOpCode.Continuation then c.shutdown .PROTOCOL_ERROR []
  else
    let c := { c with handler := { c.handler with wsPayload := c.handler.wsPayload ++ f.payload } }
    let c := c.eraseFirst f.size
    if f.fin then
      { c with handler := { c.handler with messages := c.handler.messages ++ [c.handler.wsPayload]
                                           inFragmentBlock := false, wsPayload := [] } }
    else { c with handler := { c.handler with inFragmentBlock := true } }

/-- Whether a frame was handled. -/
def handleTCPStream (beyond : UInt8) (c : Connection) : Bool × Connection :=
  if c.socket.inBuffer.size < 2 then (false, c)
  else
    match readFrame c.socket.inBuffer.data with
    | none => (false, c)
    | some f => (true, c.handleFrame beyond f)

/-- The loop over the messages that the buffer has; each round takes bytes from it (`rounds_drains`). -/
def rounds (beyond : UInt8) : Nat → Connection → Connection
  | 0, c => c
  | n + 1, c =>
    if c.socket.ignoreInput then c
    else
      match c.handleTCPStream beyond with
      | (false, c) => c
      | (true, c) => rounds beyond n c

def handleIncomingMessage (beyond : UInt8) (c : Connection) : Connection := rounds beyond c.socket.inBuffer.size c

/-- Bytes arrive at the socket. -/
def arrive (beyond : UInt8) (c : Connection) (piece : List UInt8) : Connection :=
  if c.socket.ignoreInput then c
  else { c with socket := { c.socket with inBuffer := c.socket.inBuffer.append piece } }.handleIncomingMessage beyond

def arrivals (beyond : UInt8) (c : Connection) (pieces : List (List UInt8)) : Connection :=
  pieces.foldl (arrive beyond) c

end Connection

end CollaboraOnline
