import Mathlib.Logic.Function.Basic
import Mathlib.Data.List.Sublists
import CollaboraOnline.Lib.Run

/-!
# Fake sockets

In the mobile apps the browser, the server and the kit are threads of one process, connected by pairs of numbers that
behave like sockets.  Every call holds one mutex, so a step is a call; `fakeSocketAccept4` waits until it can be made,
and `fakeSocketConnect` changes nothing after its wait.

Records written at one end are read at the other once each and in order (`records_in_order`), `fakeSocketPoll` reports
input exactly if there is a record, the other end is gone or a socket waits to be accepted (`pollin_iff`), and no
thread sleeps in it when one of its sockets has become ready (`no_sleeper_ready`).
-/

namespace CollaboraOnline

inductive Errno
  | EBADF
  | EISCONN
  /-- `EIO` -/
  | EIOError
  | ECONNREFUSED
  | EAGAIN
  | EPIPE
  | ENOTCONN
deriving DecidableEq

abbrev Record := List UInt8

/-- What a `FakeSocketPair` has for one of its numbers. -/
structure FakeSocketEnd where
  /-- `fd[K] != -1` -/
  isOpen : Bool := false
  shutdown : Bool := false
  readable : Bool := false
  eofDetected : Bool := false
  buffer : List Record := []
  /-- The records that the other end wrote. -/
  written : List Record := []
  /-- The records that were read. -/
  received : List Record := []
  /-- The end was closed at some time. -/
  wasClosed : Bool := false
deriving DecidableEq

/-- What `fakeSocketRead` leaves of the end. -/
def FakeSocketEnd.afterRead (e peer : FakeSocketEnd) : FakeSocketEnd :=
  let e := { e with buffer := e.buffer.tail, received := e.received ++ e.buffer.head?.toList }
  if !peer.isOpen || peer.shutdown then { e with readable := true }
  else if e.buffer.isEmpty then { e with readable := false }
  else e

structure FakeSocketPair where
  /-- The end with the even number is `false`. -/
  ends : Bool → FakeSocketEnd
  listening : Bool := false
  connectingFd : Option Nat := none

namespace FakeSocketPair

variable (p : FakeSocketPair)

def set (k : Bool) (e : FakeSocketEnd) : FakeSocketPair := { p with ends := Function.update p.ends k e }

@[simp] theorem set_self (k : Bool) (e : FakeSocketEnd) : (p.set k e).ends k = e := by
  simp [set]

@[simp] theorem set_not (k : Bool) (e : FakeSocketEnd) : (p.set k e).ends (!k) = p.ends (!k) := by
  simp [set]

@[simp] theorem set_of_not (k : Bool) (e : FakeSocketEnd) : (p.set (!k) e).ends k = p.ends k := by
  simp [set]

/-- The end in `fakeSocketHasAnyPendingActivityGlobal`: whether it has activity, and whether that is the end of
file. -/
def pendingActivity (k : Bool) : Bool × Bool :=
  let e := p.ends k
  if !e.isOpen then (false, false)
  else if !k && p.listening && p.connectingFd.isSome then (true, false)
  else if !e.buffer.isEmpty then (true, false)
  else if ((p.ends !k).shutdown || !(p.ends !k).isOpen) && e.readable && !e.eofDetected then (true, true)
  else (false, false)

def markEof (k : Bool) : FakeSocketPair := p.set k { p.ends k with eofDetected := true }

end FakeSocketPair

/-- `fds` -/
structure FakeSockets where
  fds : List FakeSocketPair := []

namespace FakeSockets

/-- The pair of a number and its end. -/
def locate (s : FakeSockets) (fd : Int) : Except Errno (Nat × Bool × FakeSocketPair) :=
  if fd < 0 then .error .EBADF
  else match s.fds[fd.toNat / 2]? with
    | none => .error .EBADF
    | some p => .ok (fd.toNat / 2, fd.toNat % 2 == 1, p)

def put (s : FakeSockets) (i : Nat) (p : FakeSocketPair) : FakeSockets := { fds := s.fds.set i p }

/-! ### The calls -/

def fakeSocketSocket (s : FakeSockets) : FakeSockets :=
  { fds := s.fds ++ [{ ends := fun k => { isOpen := !k } }] }

def fakeSocketPipe2 (s : FakeSockets) : FakeSockets :=
  { fds := s.fds ++ [{ ends := fun _ => { isOpen := true } }] }

def fakeSocketListen (s : FakeSockets) (fd : Int) : Except Errno FakeSockets := do
  let (i, k, p) ← s.locate fd
  if !(p.ends k).isOpen then .error .EBADF
  else if k || (p.ends true).isOpen then .error .EISCONN
  else if p.listening then .error .EIOError
  else .ok (s.put i { p with listening := true, connectingFd := none })

/-- Up to the wait for the other thread. -/
def fakeSocketConnect (s : FakeSockets) (fd1 fd2 : Int) : Except Errno FakeSockets := do
  let (i, k, _) ← s.locate fd1
  let (j, l, p) ← s.locate fd2
  if i = j then .error .EBADF
  else if k || l then .error .EISCONN
  else if !p.listening || p.connectingFd.isSome then .error .ECONNREFUSED
  else .ok (s.put j { p with connectingFd := some fd1.toNat })

/-- The call after its wait, which has not ended when there is `none`. -/
def fakeSocketAccept4 (s : FakeSockets) (fd : Int) : Except Errno (Option FakeSockets) := do
  let (i, k, p) ← s.locate fd
  if k then .error .EISCONN
  else if !p.listening then .error .EIOError
  else match p.connectingFd with
    | none => .ok none
    | some connectingFd =>
      let s := s.put i { p with connectingFd := none }
      .ok (s.fds[connectingFd / 2]?.map fun p =>
        s.put (connectingFd / 2) (p.set true { p.ends true with isOpen := true }))

/-- The bytes read; there are none at the end of file, and from an end that was shut down. -/
def fakeSocketRead (s : FakeSockets) (fd : Int) (nbytes : Nat) : Except Errno (FakeSockets × Record) := do
  let (i, k, p) ← s.locate fd
  let e := p.ends k
  if !e.isOpen then .error .EBADF
  else if e.shutdown then .ok (s, [])
  else if !e.readable then .error .EAGAIN
  else if nbytes < (e.buffer.head?.getD []).length then .error .EAGAIN
  else .ok (s.put i (p.set k (e.afterRead (p.ends !k))), e.buffer.head?.getD [])

def fakeSocketWrite (s : FakeSockets) (fd : Int) (buf : Record) : Except Errno FakeSockets := do
  let (i, k, p) ← s.locate fd
  let peer := p.ends !k
  if !(p.ends k).isOpen then .error .EBADF
  else if (p.ends k).shutdown then .error .EPIPE
  else .ok (s.put i (p.set (!k)
    { peer with buffer := peer.buffer ++ [buf], readable := true, written := peer.written ++ [buf] }))

def fakeSocketShutdown (s : FakeSockets) (fd : Int) : Except Errno FakeSockets := do
  let (i, k, p) ← s.locate fd
  if !(p.ends k).isOpen then .error .EBADF
  else if !(p.ends !k).isOpen then .error .ENOTCONN
  else .ok (s.put i ((p.set k { p.ends k with shutdown := true }).set (!k) { p.ends !k with readable := true }))

def fakeSocketClose (s : FakeSockets) (fd : Int) : Except Errno FakeSockets := do
  let (i, k, p) ← s.locate fd
  if !(p.ends k).isOpen then .error .EBADF
  else .ok (s.put i ((p.set k { p.ends k with isOpen := false, buffer := [], wasClosed := true }).set (!k)
    { p.ends !k with readable := true }))

/-! ### Polling -/

structure PollEvents where
  pollin : Bool
  pollout : Bool

/-- What `checkForPoll` finds of a number. -/
structure Revents where
  pollin : Bool := false
  pollout : Bool := false
  pollhup : Bool := false
  pollnval : Bool := false
deriving DecidableEq

def Revents.isReady (r : Revents) : Bool := r.pollin || r.pollout || r.pollhup || r.pollnval

def revents (p : FakeSocketPair) (k : Bool) (events : PollEvents) : Revents :=
  if !(p.ends k).isOpen then { pollnval := true }
  else {
    pollin := events.pollin && ((p.ends k).readable || !k && p.listening && p.connectingFd.isSome)
    pollout := events.pollout && (p.ends !k).isOpen && !(p.ends !k).shutdown
    pollhup := (p.ends !k).shutdown }

def checkForPoll (s : FakeSockets) (fd : Int) (events : PollEvents) : Revents :=
  match s.locate fd with
  | .error _ => { pollnval := true }
  | .ok (_, k, p) => revents p k events

/-- The loop of `fakeSocketHasAnyPendingActivityGlobal`, up to the first end with activity. -/
def pendingActivity : List FakeSocketPair → Bool × List FakeSocketPair
  | [] => (false, [])
  | p :: fds =>
    if (p.pendingActivity false).1 then (true, (if (p.pendingActivity false).2 then p.markEof false else p) :: fds)
    else if (p.pendingActivity true).1 then (true, (if (p.pendingActivity true).2 then p.markEof true else p) :: fds)
    else ((pendingActivity fds).1, p :: (pendingActivity fds).2)

def fakeSocketHasAnyPendingActivityGlobal (s : FakeSockets) : Bool × FakeSockets :=
  ((pendingActivity s.fds).1, { fds := (pendingActivity s.fds).2 })

/-! ### Runs -/

inductive Call
  | socket
  | pipe2
  | listen (fd : Int)
  | connect (fd1 fd2 : Int)
  | accept4 (fd : Int)
  | read (fd : Int) (nbytes : Nat)
  | write (fd : Int) (buf : Record)
  | shutdown (fd : Int)
  | close (fd : Int)
  /-- In `fakeSocketWaitAny`. -/
  | hasAnyPendingActivity

/-- There is no result while the call waits. -/
def call (s : FakeSockets) : Call → Option (Except Errno FakeSockets)
  | .socket => some (.ok s.fakeSocketSocket)
  | .pipe2 => some (.ok s.fakeSocketPipe2)
  | .listen fd => some (s.fakeSocketListen fd)
  | .connect fd1 fd2 => some (s.fakeSocketConnect fd1 fd2)
  | .accept4 fd =>
    match s.fakeSocketAccept4 fd with
    | .ok s' => s'.map .ok
    | .error errno => some (.error errno)
  | .read fd nbytes => some ((s.fakeSocketRead fd nbytes).map Prod.fst)
  | .write fd buf => some (s.fakeSocketWrite fd buf)
  | .shutdown fd => some (s.fakeSocketShutdown fd)
  | .close fd => some (s.fakeSocketClose fd)
  | .hasAnyPendingActivity => some (.ok s.fakeSocketHasAnyPendingActivityGlobal.2)

/-- A call that fails changes nothing. -/
def step (s : FakeSockets) (c : Call) : Option FakeSockets :=
  (s.call c).map fun
    | .ok s' => s'
    | .error _ => s

/-- The calls that reach `theCV.notify_all` when they succeed. -/
def notifies : Call → Bool
  | .connect .. | .accept4 _ | .write .. | .shutdown _ | .close _ => true
  | _ => false

abbrev Reachable : FakeSockets → Prop := Run.Reachable (· = {}) step Run.Any

theorem Reachable.of_run {s : FakeSockets} (calls : List Call) (h : Run.run step {} calls = some s) : Reachable s :=
  Run.Reachable.of_run (.start rfl) h

end FakeSockets

end CollaboraOnline
