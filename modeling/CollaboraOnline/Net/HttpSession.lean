import CollaboraOnline.Lib.Run
import CollaboraOnline.Net.HttpResponse
import CollaboraOnline.Net.StreamSocket
import Mathlib.Logic.Function.Basic

/-!
# The HTTP client session

`http::Session` sends one request after the other.  The DNS thread connects, the poll runs the callbacks and hands the
session the events of its sockets, and the client is told that a request has finished or that the connection failed.
Each event happens at any time it can.  The client does not start a request while it is told of another one.
-/

namespace CollaboraOnline

namespace Http

def Header.CONNECTION : List UInt8 := text "Connection"

/-- `ConnectionToken::Close` -/
def Response.closes (r : Response) : Bool := Header.iequal (text "close") (r.header.get Header.CONNECTION)

def ResponseState.done : ResponseState → Bool
  | .Error | .Timeout | .Complete => true
  | .New | .Incomplete => false

end Http

namespace Net

open Http (Response ResponseState HeaderRead)

/-- What the client is told of a request. -/
inductive Report
  | finished (request : Nat) (state : ResponseState)
  | connectFail (request : Nat)
deriving DecidableEq

def Report.request : Report → Nat
  | .finished request _ => request
  | .connectFail request => request

structure SessionSocket where
  stream : StreamSocket := {}
  /-- The poll has taken it over. -/
  inPoll : Bool := false

/-- A session and what is around it: the sockets created for it, the connects of the DNS thread, and the callbacks of
failed connects that the poll has not run. -/
structure Session where
  connected : Bool := false
  /-- A weak pointer. -/
  socket : Option Nat := none
  asyncShutdownOnFinish : Bool := false
  response : Option Response := none
  sockets : Nat → SessionSocket := fun _ => {}
  created : Nat := 0
  lookups : Nat := 0
  connectFails : Nat := 0
  pollEnded : Bool := false
  /-- The number of requests; the last one is the current one. -/
  started : Nat := 0
  reports : List Report := []
  /-- The requests that were replaced before their response was done. -/
  abandoned : List Nat := []

namespace Session

def isDestroyed (s : Session) (i : Nat) : Bool := (s.sockets i).stream.destroyed

/-- `_socket.lock()` -/
def held (s : Session) : Option Nat := s.socket.filter fun i => !s.isDestroyed i

/-- The response is not done. -/
def pending (s : Session) : Bool := s.response.any fun r => !r.state.done

def modify (s : Session) (i : Nat) (f : StreamSocket → StreamSocket) : Session :=
  { s with sockets := Function.update s.sockets i { s.sockets i with stream := f (s.sockets i).stream } }

def asyncShutdown (s : Session) : Session :=
  match s.held with
  | some i => s.modify i (·.call .asyncShutdown)
  | none => s

/-! ### The end of a request -/

def callOnFinished (s : Session) (state : ResponseState) : Session :=
  let s := if s.asyncShutdownOnFinish then s.asyncShutdown else s
  { s with reports := s.reports ++ [.finished (s.started - 1) state] }

/-- `onDisconnect` up to the response. -/
def release (s : Session) : Session :=
  match s.held with
  | some i =>
    { s.modify i (fun k => (k.call .asyncShutdown).call .shutdownConnection) with socket := none, connected := false }
  | none => { s with connected := false }

/-- The callback of the response.  As that is done, the `error` of `onDisconnect` has no effect here. -/
def onFinished (s : Session) (r : Response) : Session :=
  let s := { s with response := some r }.callOnFinished r.state
  if r.closes then s.release else s

def finish (s : Session) (state : ResponseState) : Session :=
  match s.response with
  | some r => if r.state.done then s else s.onFinished { r with state }
  | none => s

def onDisconnect (s : Session) : Session := s.release.finish .Error

/-! ### Requests and connections -/

def newRequest (s : Session) (asyncShutdownOnFinish : Bool) : Session :=
  { s with
    response := some {}
    asyncShutdownOnFinish
    started := s.started + 1
    abandoned := if s.pending then s.abandoned ++ [s.started - 1] else s.abandoned }

def asyncRequest (s : Session) (asyncShutdownOnFinish : Bool) : Session :=
  let s := s.newRequest asyncShutdownOnFinish
  if s.connected then s else { s with socket := none, lookups := s.lookups + 1 }

/-- `StreamSocket::ensureDisconnected` -/
def ensureDisconnected (s : Session) (i : Nat) : Session :=
  if (s.sockets i).stream.doneDisconnect then s
  else
    (s.modify i fun k =>
      { k with doneDisconnect := true, disconnects := k.disconnects + 1 }).onDisconnect.modify i fun k =>
        if k.isShutdown then k else { k with shutdownSignalled := true }.shutdownConnection .disconnected

/-- `~StreamSocket`: the weak pointers to the socket have expired. -/
def destroy (s : Session) (i : Nat) : Session :=
  ((s.modify i fun k => { k with destroyed := true }).ensureDisconnected i).modify i fun k =>
    if k.shutdownSignalled then k else { k with shutdownSignalled := true }.shutdownConnection .destroyed

/-- The DNS thread has connected a socket or none. -/
def pushConnectCompleteToPoll (s : Session) (success : Bool) : Session :=
  let s := { s with lookups := s.lookups - 1 }
  if success then
    -- `onConnect` is called when the socket is created
    let s' := { s with
      sockets := Function.update s.sockets s.created {}
      created := s.created + 1
      connected := true }
    if s.pollEnded then s'.destroy s.created else s'
  else if s.pollEnded then s
  else { s with connectFails := s.connectFails + 1 }

def asyncConnectFailed (s : Session) : Session :=
  { s with connectFails := s.connectFails - 1, reports := s.reports ++ [.connectFail (s.started - 1)] }

def asyncConnectSuccess (s : Session) (i : Nat) : Session :=
  { s with socket := some i, sockets := Function.update s.sockets i { s.sockets i with inPoll := true } }

def onHandshakeFail (s : Session) : Session := { s with reports := s.reports ++ [.connectFail (s.started - 1)] }

/-! ### Events of a socket -/

variable (poco : List UInt8 → HeaderRead)

def receive (s : Session) (i : Nat) (data : List UInt8) : Session :=
  s.modify i fun k => { k with received := k.received ++ data, inBuffer := k.inBuffer ++ data }

/-- The response reads from the socket that the session holds; the flag is that nothing is wrong. -/
def readResponse (s : Session) : Bool × Session :=
  match s.held, s.response with
  | some i, some r =>
    let data := (s.sockets i).stream.inBuffer
    if data.isEmpty then (true, s)
    else
      match r.readData poco data with
      | (some read, r) =>
        -- `readData` begins with an incomplete response, and calls back when it has completed it
        let s := if r.state.done then s.onFinished r else { s with response := some r }
        (true, s.modify i (·.eraseFirstInputBytes read))
      | (none, r) => (false, { s with response := some r })
  | _, _ => (false, s)

/-- `handleIncomingMessage` of socket `i`. -/
def handleIncomingMessage (s : Session) (i : Nat) : Session :=
  let (ok, s) := if s.connected then s.readResponse poco else (false, s)
  if ok then s else (s.modify i fun k => { k with disposition := .closed }).onDisconnect

/-- `checkTimeout` of socket `i` when the time is over, and what `handlePoll` does then. -/
def checkTimeout (s : Session) (i : Nat) : Session :=
  if s.pending then (s.finish .Timeout).onDisconnect.modify i (·.setShutdown .timeout) else s

/-- The end of `handlePoll` of a connection that is closed, and `checkRemoval`. -/
def close (s : Session) (i : Nat) : Session := (s.ensureDisconnected i).modify i (·.setShutdown .disconnected)

inductive Event
  | asyncRequest (asyncShutdownOnFinish : Bool)
  | asyncShutdown
  | pushConnectCompleteToPoll (success : Bool)
  | asyncConnectFailed
  | asyncConnectSuccess (i : Nat)
  | receive (i : Nat) (data : List UInt8)
  | handleIncomingMessage (i : Nat)
  | checkTimeout (i : Nat)
  | onHandshakeFail (i : Nat)
  | close (i : Nat)
  | destroy (i : Nat)
  | endPoll

/-- The socket can be polled. -/
def polled (s : Session) (i : Nat) : Bool := i < s.created && (s.sockets i).inPoll && !s.isDestroyed i

def enabled (s : Session) : Event → Bool
  | .asyncRequest _ | .asyncShutdown | .endPoll => true
  | .pushConnectCompleteToPoll _ => 0 < s.lookups
  | .asyncConnectFailed => 0 < s.connectFails
  | .asyncConnectSuccess i => i < s.created && !(s.sockets i).inPoll && !s.isDestroyed i
  | .receive i _ | .handleIncomingMessage i | .checkTimeout i | .onHandshakeFail i | .close i => s.polled i
  | .destroy i => i < s.created && !s.isDestroyed i

def handle (s : Session) : Event → Session
  | .asyncRequest asyncShutdownOnFinish => s.asyncRequest asyncShutdownOnFinish
  | .asyncShutdown => s.asyncShutdown
  | .pushConnectCompleteToPoll success => s.pushConnectCompleteToPoll success
  | .asyncConnectFailed => s.asyncConnectFailed
  | .asyncConnectSuccess i => s.asyncConnectSuccess i
  | .receive i data => s.receive i data
  | .handleIncomingMessage i => s.handleIncomingMessage poco i
  | .checkTimeout i => s.checkTimeout i
  | .onHandshakeFail _ => s.onHandshakeFail
  | .close i => s.close i
  | .destroy i => s.destroy i
  -- `stop` discards the callbacks
  | .endPoll => { s with pollEnded := true, connectFails := 0 }

def step (s : Session) (e : Event) : Option Session := if s.enabled e then some (s.handle poco e) else none

variable {poco} in
theorem step_eq_some {s t : Session} {e : Event} :
    s.step poco e = some t ↔ s.enabled e = true ∧ s.handle poco e = t := by
  unfold step
  rw [Option.ite_none_right_eq_some, Option.some_inj]

abbrev Reachable : Session → Prop := Run.Reachable (· = {}) (step poco) Run.Any

theorem Reachable.of_run {poco : List UInt8 → HeaderRead} {s : Session} (es : List Event)
    (h : Run.run (step poco) {} es = some s) : Reachable poco s :=
  Run.Reachable.of_run (.start rfl) h

end Session

end Net

end CollaboraOnline
