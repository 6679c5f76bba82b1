import Mathlib.Logic.Relation
import CollaboraOnline.Lib.Run
import CollaboraOnline.Net.RequestFraming
import CollaboraOnline.Net.SocketPoll

/-!
# A stream socket and its handler

`StreamSocket` reads what has arrived into one buffer, from which its protocol handler takes it, and writes from
another one what the handler sends.  `handlePoll` is called with the events of the socket; what the handler does in
its callbacks and what the kernel answers is given with them.

Bytes keep their order in both directions and none is lost or written twice, up to those between the chunks of a
request (`bytes_in_order`).  A connection whose shutdown was requested is shut down when everything that was sent is
written (`flushed_before_shutdown`), its handler is told once unless a fork has taken it away (`disconnect_once`), and
`handlePoll` tells the poll to drop it when it is shut down or the handler says so (`handlePoll_closed`).
-/

namespace CollaboraOnline

def Disposition.isTransfer : Disposition → Bool
  | .transfer _ => true
  | _ => false

def Disposition.isClosed : Disposition → Bool
  | .closed => true
  | _ => false

namespace Net

inductive IoError
  | EAGAIN
  | EINTR
  | EPIPE
  | ECONNRESET
  | other
deriving DecidableEq

/-- What `read` returns; no bytes are the end of the stream. -/
abbrev ReadResult := Except IoError (List UInt8)

/-- What `write` returns. -/
abbrev WriteResult := Except IoError Nat

/-- Why a connection was shut down. -/
inductive Cause
  | timeout
  | removal
  | handler
  | signalled
  | disconnected
  | destroyed
deriving DecidableEq

structure StreamSocket where
  sendBufferSize : Nat := 16 * 1024
  noShutdown : Bool := false
  /-- There is a handler; which one does not matter here. -/
  socketHandler : Bool := true
  inBuffer : List UInt8 := []
  outBuffer : List UInt8 := []
  ignoreInput : Bool := false
  inputProcessingEnabled : Bool := true
  shutdownSignalled : Bool := false
  doneDisconnect : Bool := false
  isShutdown : Bool := false
  /-- The argument of `handlePoll`. -/
  disposition : Disposition := .continued
  destroyed : Bool := false
  /-- What was sent, and what the kernel took. -/
  sent : List UInt8 := []
  written : List UInt8 := []
  /-- What was read, what the handler took, and how many bytes were taken out of the buffer between chunks. -/
  received : List UInt8 := []
  taken : List UInt8 := []
  removed : Nat := 0
  /-- The number of calls of `onDisconnect`. -/
  disconnects : Nat := 0
  /-- The handler was taken away before it was told of the disconnection. -/
  handlerTaken : Bool := false
  /-- Why the connection was shut down, and what had been sent until then. -/
  cause : Option (Cause × List UInt8) := none

/-- What is done with a socket, in a callback of its handler or elsewhere. -/
inductive Call
  | send (data : List UInt8) (doFlush : Option (List WriteResult))
  | attemptWrites (results : List WriteResult)
  | eraseFirstInputBytes (count : Nat)
  /-- A request is looked for in the buffer, and its chunks are moved together. -/
  | compactChunks (request : CollaboraOnline.StreamSocket.Request)
  | ignoreInput
  | enableProcessInput (enable : Bool)
  | asyncShutdown
  | shutdownConnection

structure PollEvents where
  pollIn : Bool := false
  pollOut : Bool := false
  /-- `POLLHUP`, `POLLERR` or `POLLNVAL` -/
  pollHup : Bool := false

/-- A call of `handleIncomingMessage`, which can set the disposition. -/
structure Message where
  calls : List Call := []
  disposition : Option Disposition := none
  throws : Bool := false

/-- A round of the loop that writes. -/
structure WriteRound where
  performWrites : List Call := []
  results : List WriteResult := []

/-- What happens in a call of `handlePoll`. -/
structure PollInput where
  events : PollEvents := {}
  checkTimeout : List Call := []
  timedOut : Bool := false
  removal : Bool := false
  reads : List ReadResult := []
  messages : List Message := []
  rounds : List WriteRound := []
  onDisconnect : List Call := []

namespace StreamSocket

def isOpen (s : StreamSocket) : Bool := !s.isShutdown

/-- The kernel takes `n` bytes. -/
def wrote (s : StreamSocket) (n : Nat) : StreamSocket :=
  { s with written := s.written ++ s.outBuffer.take n, outBuffer := s.outBuffer.drop n }

/-- Without an answer of the kernel the call would block. -/
def writeOutgoingData (s : StreamSocket) : List WriteResult → WriteResult × StreamSocket
  | [] => (.error .EAGAIN, s)
  | .error .EINTR :: results => s.writeOutgoingData results
  | .error e :: _ => (.error e, s)
  | .ok n :: results =>
    let len := min n (min s.outBuffer.length s.sendBufferSize)
    if 0 < len then
      if (s.wrote len).outBuffer.isEmpty then (.ok len, s.wrote len) else (s.wrote len).writeOutgoingData results
    else (.ok 0, s)

def send (s : StreamSocket) (data : List UInt8) (doFlush : Option (List WriteResult)) : StreamSocket :=
  if data.isEmpty then s
  else
    let s := { s with sent := s.sent ++ data, outBuffer := s.outBuffer ++ data }
    match doFlush with
    | some results => (s.writeOutgoingData results).2
    | none => s

def attemptWrites (s : StreamSocket) (results : List WriteResult) : StreamSocket :=
  if s.outBuffer.isEmpty then s else (s.writeOutgoingData results).2

def eraseFirstInputBytes (s : StreamSocket) (count : Nat) : StreamSocket :=
  { s with taken := s.taken ++ s.inBuffer.take count, inBuffer := s.inBuffer.drop count }

/-- When the request is not whole, or is read out of bounds, nothing is said of the buffer. -/
def compactChunks (s : StreamSocket) (request : CollaboraOnline.StreamSocket.Request) : StreamSocket :=
  match CollaboraOnline.StreamSocket.handleIncomingMessage request s.inBuffer with
  | .framed _ _ inBuffer => { s with inBuffer, removed := s.removed + (s.inBuffer.length - inBuffer.length) }
  | .refused | .outOfBounds => s

def setShutdown (s : StreamSocket) (cause : Cause) : StreamSocket :=
  if s.isShutdown then s else { s with isShutdown := true, cause := some (cause, s.sent) }

/-- `syncShutdown` -/
def shutdownConnection (s : StreamSocket) (cause : Cause) : StreamSocket :=
  if s.noShutdown then s else s.setShutdown cause

def call (s : StreamSocket) : Call → StreamSocket
  | .send data doFlush => s.send data doFlush
  | .attemptWrites results => s.attemptWrites results
  | .eraseFirstInputBytes count => s.eraseFirstInputBytes count
  | .compactChunks request => s.compactChunks request
  | .ignoreInput => { s.eraseFirstInputBytes s.inBuffer.length with ignoreInput := true }
  | .enableProcessInput enable => { s with inputProcessingEnabled := enable }
  | .asyncShutdown => { s with shutdownSignalled := true }
  | .shutdownConnection => s.shutdownConnection .handler

def calls (s : StreamSocket) (cs : List Call) : StreamSocket := cs.foldl call s

def ensureDisconnected (s : StreamSocket) (cause : Cause) (onDisconnect : List Call) : StreamSocket :=
  if s.doneDisconnect then s
  else
    let s := { s with doneDisconnect := true }
    if s.socketHandler then
      let s := { s with disconnects := s.disconnects + 1 }.calls onDisconnect
      if s.isShutdown then s else { s with shutdownSignalled := true }.shutdownConnection cause
    else s

/-- `char buf[16 * 1024]` -/
def readSize : Nat := 16 * 1024

/-- Without an answer of the kernel the call would block. -/
def readIncomingData (s : StreamSocket) : List ReadResult → ReadResult × StreamSocket
  | results => if s.ignoreInput then (.ok [], s) else drain s results
where
  drain (s : StreamSocket) : List ReadResult → ReadResult × StreamSocket
    | [] => (.error .EAGAIN, s)
    | .error .EINTR :: results => drain s results
    | .error e :: _ => (.error e, s)
    | .ok data :: results =>
      let s := { s with received := s.received ++ data, inBuffer := s.inBuffer ++ data }
      if data.length = readSize then drain s results else (.ok data, s)

/-- Whether the connection is closed after reading. -/
def closedAfterRead (closed : Bool) : ReadResult → Bool
  | .ok [] => true
  | .ok _ => false
  | .error .EPIPE | .error .ECONNRESET => true
  | .error .EAGAIN | .error .EINTR => false
  | .error .other => closed

def setDisposition (s : StreamSocket) (message : Message) : StreamSocket :=
  if message.throws then { s with disposition := .closed }
  else { s with disposition := message.disposition.getD s.disposition }

/-- `handleIncomingMessage`, as long as it takes something from the buffer. -/
def handleIncoming (s : StreamSocket) (oldSize : Nat) : List Message → StreamSocket
  | [] => s
  | message :: messages =>
    if s.inBuffer.isEmpty || oldSize = s.inBuffer.length || !s.inputProcessingEnabled then s
    else
      let s' := (s.calls message.calls).setDisposition message
      if s'.disposition.isTransfer then s' else s'.handleIncoming s.inBuffer.length messages

inductive RoundEnd
  | closed
  | again
  | done
deriving DecidableEq

def writeRound (s : StreamSocket) (pollOut : Bool) (round : WriteRound) : RoundEnd × StreamSocket :=
  let s := if pollOut && 0 < s.sendBufferSize - s.outBuffer.length then s.calls round.performWrites else s
  if s.shutdownSignalled && s.outBuffer.isEmpty then (.closed, s.shutdownConnection .signalled)
  else if pollOut && !s.outBuffer.isEmpty then
    let (result, s') := s.writeOutgoingData round.results
    if result = .error .EPIPE ∨ result = .error .ECONNRESET then (.closed, s')
    else if s'.outBuffer.length = s.outBuffer.length then (.done, s') else (.again, s')
  else (.done, s)

/-- The loop that writes; the flag is that the connection is closed. -/
def writeRounds (s : StreamSocket) (pollOut : Bool) : List WriteRound → Bool × StreamSocket
  | [] =>
    let (roundEnd, s) := s.writeRound pollOut {}
    (roundEnd = .closed, s)
  | round :: rounds =>
    match s.writeRound pollOut round with
    | (.again, s) => s.writeRounds pollOut rounds
    | (roundEnd, s) => (roundEnd = .closed, s)

/-- The end of `handlePoll`. -/
def finishPoll (s : StreamSocket) (closed : Bool) (onDisconnect : List Call) : StreamSocket :=
  if closed then { (s.ensureDisconnected .disconnected onDisconnect).setShutdown .disconnected with
    disposition := .closed }
  else if s.isOpen then s else { s with disposition := .closed }

/-- `checkRemoval` for a connection that has to go. -/
def remove (s : StreamSocket) (onDisconnect : List Call) : StreamSocket :=
  let s := s.ensureDisconnected .removal onDisconnect
  if s.isShutdown then s else { s with shutdownSignalled := true }.shutdownConnection .removal

/-- The flag is that the connection is closed. -/
def readInput (s : StreamSocket) (i : PollInput) : Bool × StreamSocket :=
  if i.events.pollIn then
    let (result, s) := s.readIncomingData i.reads
    (closedAfterRead i.events.pollHup result, s)
  else (i.events.pollHup, s)

def handlePoll (s : StreamSocket) (i : PollInput) : StreamSocket :=
  let s := { s with disposition := .continued }.calls i.checkTimeout
  if i.timedOut then { s.setShutdown .timeout with disposition := .closed }
  else if s.isShutdown then { s with disposition := .closed }
  else if i.removal then { s.remove i.onDisconnect with disposition := .closed }
  else if !i.events.pollIn && !i.events.pollOut && !i.events.pollHup && s.inBuffer.isEmpty then s
  else
    let (closed, s) := s.readInput i
    let s := s.handleIncoming 0 i.messages
    if s.disposition.isTransfer then s
    else
      let (closedWriting, s) := s.writeRounds i.events.pollOut i.rounds
      s.finishPoll (closed || closedWriting) i.onDisconnect

/-- What `closeAllSockets` does with the socket in a process that was forked: `closeFD` and `resetHandler`, "to avoid
the handler getting an onDisconnect".  The poll has forgotten it then. -/
def closeAllSockets (s : StreamSocket) : StreamSocket :=
  { s with socketHandler := false, handlerTaken := s.handlerTaken || !s.doneDisconnect }

/-- `~StreamSocket` -/
def destroy (s : StreamSocket) (onDisconnect : List Call) : StreamSocket :=
  let s := { s.ensureDisconnected .destroyed onDisconnect with socketHandler := false }
  let s := if s.shutdownSignalled then s else { s with shutdownSignalled := true }.shutdownConnection .destroyed
  { s with destroyed := true }

inductive Event
  | call (call : Call)
  | handlePoll (i : PollInput)
  | closeAllSockets
  | destroy (onDisconnect : List Call)

/-- `handlePoll` needs the handler. -/
def step (s : StreamSocket) (e : Event) : Option StreamSocket :=
  if s.destroyed then none
  else
    match e with
    | .call c => some (s.call c)
    | .handlePoll i => if s.socketHandler then some (s.handlePoll i) else none
    | .closeAllSockets => some s.closeAllSockets
    | .destroy onDisconnect => some (s.destroy onDisconnect)

def IsInit (s : StreamSocket) : Prop := ∃ sendBufferSize noShutdown, s = { sendBufferSize, noShutdown }

abbrev Reachable : StreamSocket → Prop := Run.Reachable IsInit step Run.Any

theorem Reachable.of_run {s : StreamSocket} (es : List Event) (h : Run.run step {} es = some s) : Reachable s :=
  Run.Reachable.of_run (.start ⟨16 * 1024, false, rfl⟩) h

end StreamSocket

end Net

end CollaboraOnline
