import Mathlib.Data.List.Basic
import CollaboraOnline.Lib.Run

/-!
# The socket polls

Each `SocketPoll` has a thread that polls its sockets and runs the callbacks which any thread adds.  A step is what
one thread does between two points where others can interfere: what the others do under `_mutex`, and what the polling
thread does with the members that only it uses.  A callback, a handler or another thread may do the same steps at any
time, so they are not part of the step that runs it.
-/

namespace CollaboraOnline

/-- A callback of a poll is its number in the order of `addCallback`.  The callback that `execute` of a disposition
adds inserts its socket. -/
structure CallbackFn where
  number : Nat
  arrives : Option Nat
deriving DecidableEq

structure SocketTransfer where
  socket : Nat
  /-- The index of the poll. -/
  toPoll : Nat
deriving DecidableEq

inductive Disposition
  | continued
  | closed
  | transfer (toPoll : Nat)

/-- Where the polling thread is. -/
inductive PollPhase
  | unstarted
  /-- At the test of `continuePolling`. -/
  | idle
  /-- In `ppoll`. -/
  | polling
  /-- `ppoll` has returned, and has reported the wakeup pipe or not. -/
  | polled (woken : Bool)
  /-- The pipe has been read, and the thread wants the mutex. -/
  | dumped
  | invoking
  | transferring
  /-- After `j` rounds of the loop over the sockets. -/
  | handling (j : Nat)
  | finished
deriving DecidableEq

structure SocketPoll where
  /-- Sockets are numbered in the order they were created, and `none` is a null pointer. -/
  pollSockets : List (Option Nat) := []
  newSockets : List Nat := []
  newCallbacks : List CallbackFn := []
  pendingTransfers : List SocketTransfer := []
  /-- The bytes in the wakeup pipe. -/
  wakeup : Nat := 0
  pollStartIndex : Nat := 0
  stop : Bool := false
  phase : PollPhase := .unstarted
  pollFds : List Nat := []
  invoke : List CallbackFn := []
  transfers : List SocketTransfer := []
  index : Nat := 0
  itemsErased : Nat := 0
  /-- The entries that the loop over the sockets has been at in this pass. -/
  visited : List Nat := []
  /-- The number of callbacks added so far. -/
  added : Nat := 0
  invoked : List Nat := []
  discarded : List Nat := []
  /-- How many callbacks had been added when the thread was last in `setupPollFds`. -/
  begun : Nat := 0
  /-- The same for the last pass whose `ppoll` did not fail and that was not for `justPoll`. -/
  mark : Nat := 0

namespace SocketPoll

/-- What a pipe holds. -/
def pipeCapacity : Nat := 65536

/-- `sizeof(dump)`. -/
def dumpSize : Nat := 128

def taskQueuesEmpty (p : SocketPoll) : Bool :=
  p.newSockets.isEmpty && p.newCallbacks.isEmpty && p.pendingTransfers.isEmpty

/-- The bytes in the pipe after a write, which fails with `EAGAIN` when the pipe is full. -/
def written (p : SocketPoll) : Nat := if p.wakeup < pipeCapacity then p.wakeup + 1 else p.wakeup

def writeWakeup (p : SocketPoll) : SocketPoll := { p with wakeup := p.written }

def insertNewSocket (p : SocketPoll) (socket : Nat) : SocketPoll :=
  { p with
    newSockets := p.newSockets ++ [socket]
    wakeup := if p.taskQueuesEmpty then p.written else p.wakeup }

def transferSocketTo (p : SocketPoll) (t : SocketTransfer) : SocketPoll :=
  { p with
    pendingTransfers := p.pendingTransfers ++ [t]
    wakeup := if p.taskQueuesEmpty then p.written else p.wakeup }

def addCallback (p : SocketPoll) (arrives : Option Nat) : SocketPoll :=
  { p with
    newCallbacks := p.newCallbacks ++ [⟨p.added, arrives⟩], added := p.added + 1
    wakeup := if p.taskQueuesEmpty then p.written else p.wakeup }

/-- What `stop` does under the mutex. -/
def clearCallbacks (p : SocketPoll) : SocketPoll :=
  { p with newCallbacks := [], discarded := p.discarded ++ p.newCallbacks.map CallbackFn.number }

/-- A thread that has finished is not started again before it is joined. -/
def startThread (p : SocketPoll) : SocketPoll :=
  match p.phase with
  | .unstarted => { p with stop := false, phase := .idle }
  | _ => p

/-- Up to the call of `ppoll`.  `getPollEvents` is called on every entry. -/
def setupPollFds (p : SocketPoll) : Option SocketPoll :=
  (p.pollSockets.mapM id).map fun pollFds => { p with pollFds, phase := .polling, begun := p.added }

/-- `ppoll` returns and reports whether the pipe can be read, unless it fails. -/
def ppoll (p : SocketPoll) (fails : Bool) : SocketPoll :=
  { p with phase := .polled (!fails && decide (0 < p.wakeup)), mark := if fails then p.mark else p.begun }

def readWakeup (p : SocketPoll) : SocketPoll :=
  { p with wakeup := p.wakeup - dumpSize, phase := .dumped }

/-- What the thread does under the mutex. -/
def drain (p : SocketPoll) : SocketPoll :=
  { p with
    pollSockets := p.pollSockets ++ p.newSockets.map some, newSockets := []
    invoke := p.newCallbacks, newCallbacks := []
    transfers := p.pendingTransfers, pendingTransfers := []
    phase := .invoking }

/-- One round of the loop over the callbacks. -/
def invokeNext (p : SocketPoll) : SocketPoll :=
  match p.invoke with
  | c :: invoke =>
    let p := { p with invoke, invoked := p.invoked ++ [c.number] }
    match c.arrives with
    | some socket => p.insertNewSocket socket
    | none => p
  | [] => { p with phase := .transferring }

/-- From the test of `size` to the loop over the sockets. -/
def beginHandling (p : SocketPoll) : SocketPoll :=
  let size := p.pollFds.length
  if size > 0 then
    let start := if p.pollStartIndex + 1 > size - 1 then 0 else p.pollStartIndex + 1
    { p with pollStartIndex := start, index := start, itemsErased := 0, visited := [], phase := .handling 0 }
  else { p with phase := .idle }

/-- The end of a round of that loop. -/
def nextIndex (p : SocketPoll) (j : Nat) : SocketPoll :=
  { p with
    index := if p.index = 0 then p.pollFds.length - 1 else p.index - 1
    visited := p.visited ++ [p.index]
    phase := .handling (j + 1) }

/-- The socket at `i` leaves the poll. -/
def release (p : SocketPoll) (i : Nat) : SocketPoll := { p with pollSockets := p.pollSockets.set i none }

/-- After the loop. -/
def eraseItems (p : SocketPoll) : SocketPoll :=
  { p with
    pollSockets := if p.itemsErased > 0 then p.pollSockets.filter Option.isSome else p.pollSockets
    phase := .idle }

def removeSockets (p : SocketPoll) : SocketPoll := { p with pollSockets := [], newSockets := [] }

end SocketPoll

/-- What a step does to its poll, and to the rest. -/
structure PollEffect where
  poll : SocketPoll
  /-- A socket whose disposition is executed, with the poll it goes to. -/
  executed : Option (Nat × Nat) := none
  /-- The sockets that are destroyed. -/
  ended : List Nat := []

inductive PollEvent
  /- Any thread. -/
  | addCallback
  | insertNewSocket
  | transferSocketTo (t : SocketTransfer)
  | wakeup
  | setStop
  | clearCallbacks
  | startThread
  | joinThread
  /- The polling thread. -/
  | setupPollFds
  | ppoll (fails : Bool)
  | justPoll
  | readWakeup
  | drain
  | invokeNext
  /-- The poll that the socket goes to may be gone. -/
  | transferNext (toPollExists : Bool)
  | handlePoll (disposition : Disposition)
  | eraseItems
  | finish

namespace SocketPoll

/-- `transfer`. -/
def transfer (p : SocketPoll) (t : SocketTransfer) : PollEffect :=
  match p.pollSockets.idxOf? (some t.socket) with
  | some i => { poll := p.release i, executed := some (t.socket, t.toPoll) }
  | none => { poll := p }

/-- A round of the loop over the sockets, up to the next index. -/
def handleEntry (p : SocketPoll) (disposition : Disposition) : PollEffect :=
  match p.pollSockets[p.index]? with
  | none => { poll := p }
  | some none => { poll := { p with itemsErased := p.itemsErased + 1 } }
  | some (some socket) =>
    if p.pollFds[p.index]? = some socket then
      match disposition with
      | .continued => { poll := p }
      | .closed => { poll := { p.release p.index with itemsErased := p.itemsErased + 1 }, ended := [socket] }
      | .transfer toPoll =>
        { poll := { p.release p.index with itemsErased := p.itemsErased + 1 }, executed := some (socket, toPoll) }
    else { poll := p }

def sockets (p : SocketPoll) : List Nat := p.pollSockets.reduceOption

/-- A step of one poll, where `fresh` is the number of the next socket. -/
def step (p : SocketPoll) (fresh : Nat) : PollEvent → Option PollEffect
  | .addCallback => some { poll := p.addCallback none }
  | .insertNewSocket => some { poll := p.insertNewSocket fresh }
  | .transferSocketTo t => some { poll := p.transferSocketTo t }
  | .wakeup => some { poll := p.writeWakeup }
  | .setStop => some { poll := { p with stop := true } }
  | .clearCallbacks => some { poll := p.clearCallbacks, ended := p.newCallbacks.filterMap CallbackFn.arrives }
  | .startThread => some { poll := p.startThread }
  | .joinThread =>
    match p.phase with
    | .finished => some { poll := { p with phase := .unstarted } }
    | _ => none
  | .setupPollFds =>
    match p.phase with
    | .idle => p.setupPollFds.map fun poll => { poll }
    | _ => none
  | .ppoll fails =>
    match p.phase with
    | .polling => some { poll := p.ppoll fails }
    | _ => none
  | .justPoll =>
    match p.phase with
    | .polling => some { poll := { p with phase := .idle } }
    | _ => none
  | .readWakeup =>
    match p.phase with
    | .polled true => some { poll := p.readWakeup }
    | .polled false => some { poll := p.beginHandling }
    | _ => none
  | .drain =>
    match p.phase with
    | .dumped => some { poll := p.drain }
    | _ => none
  | .invokeNext =>
    match p.phase with
    | .invoking => some { poll := p.invokeNext }
    | _ => none
  | .transferNext toPollExists =>
    match p.phase, p.transfers with
    | .transferring, t :: transfers =>
      some (if toPollExists then { p with transfers }.transfer t else { poll := { p with transfers } })
    | .transferring, [] => some { poll := p.beginHandling }
    | _, _ => none
  | .handlePoll disposition =>
    match p.phase with
    | .handling j =>
      if j < p.pollFds.length then
        let effect := p.handleEntry disposition
        some { effect with poll := effect.poll.nextIndex j }
      else none
    | _ => none
  | .eraseItems =>
    match p.phase with
    | .handling j => if j < p.pollFds.length then none else some { poll := p.eraseItems }
    | _ => none
  | .finish =>
    match p.phase with
    | .idle =>
      some { poll := { p.removeSockets with phase := .finished }, ended := p.sockets ++ p.newSockets }
    | _ => none

end SocketPoll

/-- The polls of the process. -/
structure SocketPolls where
  polls : List SocketPoll
  /-- The number of sockets created so far. -/
  created : Nat := 0
  ended : List Nat := []

namespace SocketPolls

/-- `execute` starts the thread of the poll and adds the callback. -/
def execute (polls : List SocketPoll) : Option (Nat × Nat) → Option (List SocketPoll)
  | none => some polls
  | some (socket, toPoll) =>
    polls[toPoll]?.map fun q => polls.set toPoll (q.startThread.addCallback (some socket))

def step (st : SocketPolls) (e : Nat × PollEvent) : Option SocketPolls := do
  let p ← st.polls[e.1]?
  let effect ← p.step st.created e.2
  let polls ← execute (st.polls.set e.1 effect.poll) effect.executed
  return {
    polls
    created := match e.2 with
      | .insertNewSocket => st.created + 1
      | _ => st.created
    ended := st.ended ++ effect.ended }

/-- No thread is started, and no socket exists. -/
def IsInit (st : SocketPolls) : Prop := (∀ p ∈ st.polls, p = {}) ∧ st.created = 0 ∧ st.ended = []

abbrev Reachable : SocketPolls → Prop := Run.Reachable IsInit step Run.Any

theorem isInit_replicate (polls : Nat) : IsInit { polls := List.replicate polls {} } :=
  ⟨fun _ hp => List.eq_of_mem_replicate hp, rfl, rfl⟩

theorem Reachable.of_run (polls : Nat) {st : SocketPolls} (es : List (Nat × PollEvent))
    (h : Run.run step { polls := List.replicate polls {} } es = some st) : Reachable st :=
  Run.Reachable.of_run (.start (isInit_replicate polls)) h

/-- The step of one poll, and the callback that it adds to another. -/
theorem step_cases {st st' : SocketPolls} {e : Nat × PollEvent} (h : st.step e = some st') :
    ∃ p effect, st.polls[e.1]? = some p ∧ p.step st.created e.2 = some effect ∧
      execute (st.polls.set e.1 effect.poll) effect.executed = some st'.polls ∧
      st'.ended = st.ended ++ effect.ended ∧
      st'.created = match e.2 with
        | .insertNewSocket => st.created + 1
        | _ => st.created := by
  simp only [step, bind, pure, Option.bind_eq_some_iff, Option.some.injEq] at h
  obtain ⟨p, hp, effect, heffect, polls, hpolls, rfl⟩ := h
  exact ⟨p, effect, hp, heffect, hpolls, rfl, rfl⟩

/-- The invariant rule for what holds of each poll. -/
theorem forall_polls {inv : SocketPoll → Prop} {ok : SocketPolls → Nat × PollEvent → Prop} (hinit : inv {})
    (hstep : ∀ st p i e effect, st.polls[i]? = some p → inv p → ok st (i, e) → p.step st.created e = some effect →
      inv effect.poll)
    (hexecute : ∀ p socket, inv p → inv (p.startThread.addCallback (some socket))) {st : SocketPolls}
    (h : Run.Reachable IsInit step ok st) : ∀ p ∈ st.polls, inv p := by
  refine h.invariant (fun st => ∀ p ∈ st.polls, inv p) ?_ ?_
  · intro st hst p hp
    rw [hst.1 p hp]
    exact hinit
  · intro st e st' _ ih hok hs
    obtain ⟨p, effect, hp, heffect, hpolls, -, -⟩ := step_cases hs
    have hset : ∀ q ∈ st.polls.set e.1 effect.poll, inv q := by
      intro q hq
      obtain hq | rfl := List.mem_or_eq_of_mem_set hq
      · exact ih q hq
      · exact hstep st p e.1 e.2 effect hp (ih p (List.mem_of_getElem? hp)) hok heffect
    unfold execute at hpolls
    split at hpolls
    · rw [← Option.some.inj hpolls]
      exact hset
    · obtain ⟨q, hq, hpolls⟩ := Option.map_eq_some_iff.1 hpolls
      rw [← hpolls]
      intro r hr
      obtain hr | rfl := List.mem_or_eq_of_mem_set hr
      · exact hset r hr
      · exact hexecute q _ (hset q (List.mem_of_getElem? hq))

end SocketPolls

end CollaboraOnline
