import Mathlib.Data.List.Range
import Mathlib.Data.List.Perm.Basic
import CollaboraOnline.Net.SocketPoll

/-!
# Wakeups and callbacks

The mutex, the test of the queues before the write, and the read of the pipe before the queues are drained make that
no wakeup is lost (`tasks_woken`).  The callbacks run once each and in their order (`callbacks_once`), and a pass runs
all that were added before it began (`callbacks_of_pass`).
-/

namespace CollaboraOnline

/-- The thread is not between the report of the pipe and the last callback. -/
def PollPhase.isCalm : PollPhase → Bool
  | .polled true | .dumped | .invoking => false
  | _ => true

namespace SocketPoll

variable {p q : SocketPoll} {fresh : Nat} {e : PollEvent} {effect : PollEffect}

/-- The callbacks that are still to run. -/
def waiting (p : SocketPoll) : List Nat := (p.invoke ++ p.newCallbacks).map CallbackFn.number

/-! ### What a step can do -/

/-- `q` is `p` but for the sockets, the positions and the phase. -/
structure Kept (p q : SocketPoll) : Prop where
  newSockets : q.newSockets = p.newSockets
  newCallbacks : q.newCallbacks = p.newCallbacks
  pendingTransfers : q.pendingTransfers = p.pendingTransfers
  wakeup : q.wakeup = p.wakeup
  invoke : q.invoke = p.invoke
  added : q.added = p.added
  invoked : q.invoked = p.invoked
  discarded : q.discarded = p.discarded
  mark : q.mark = p.mark
  begun : q.begun = p.begun ∨ q.begun = p.added
  phase : q.phase = p.phase ∨ p.phase.isCalm = true ∧ q.phase.isCalm = true

theorem Kept.transfer (p : SocketPoll) (t : SocketTransfer) : Kept p (p.transfer t).poll := by
  unfold SocketPoll.transfer
  split <;> exact ⟨rfl, rfl, rfl, rfl, rfl, rfl, rfl, rfl, rfl, .inl rfl, .inl rfl⟩

theorem Kept.beginHandling (h : p.phase.isCalm = true) : Kept p p.beginHandling := by
  unfold SocketPoll.beginHandling
  dsimp only
  split <;> exact ⟨rfl, rfl, rfl, rfl, rfl, rfl, rfl, rfl, rfl, .inl rfl, .inr ⟨h, rfl⟩⟩

theorem Kept.handleEntry {d : Disposition} {j : Nat} (h : p.phase.isCalm = true) :
    Kept p ((p.handleEntry d).poll.nextIndex j) := by
  unfold SocketPoll.handleEntry
  split
  · exact ⟨rfl, rfl, rfl, rfl, rfl, rfl, rfl, rfl, rfl, .inl rfl, .inr ⟨h, rfl⟩⟩
  · exact ⟨rfl, rfl, rfl, rfl, rfl, rfl, rfl, rfl, rfl, .inl rfl, .inr ⟨h, rfl⟩⟩
  · split
    · cases d <;> exact ⟨rfl, rfl, rfl, rfl, rfl, rfl, rfl, rfl, rfl, .inl rfl, .inr ⟨h, rfl⟩⟩
    · exact ⟨rfl, rfl, rfl, rfl, rfl, rfl, rfl, rfl, rfl, .inl rfl, .inr ⟨h, rfl⟩⟩

/-- All that a step can do to the queues, the pipe and the callbacks. -/
inductive Moves (p : SocketPoll) : SocketPoll → Prop
  | addCallback (arrives : Option Nat) : Moves p (p.addCallback arrives)
  | insertNewSocket (socket : Nat) : Moves p (p.insertNewSocket socket)
  | transferSocketTo (t : SocketTransfer) : Moves p (p.transferSocketTo t)
  | wakeup : Moves p p.writeWakeup
  | clearCallbacks : Moves p p.clearCallbacks
  | ppoll (fails : Bool) (h : p.phase = .polling) : Moves p (p.ppoll fails)
  | readWakeup (h : p.phase = .polled true) : Moves p p.readWakeup
  | drain (h : p.phase = .dumped) : Moves p p.drain
  | invokeNext (h : p.phase = .invoking) : Moves p p.invokeNext
  | finish (h : p.phase = .idle) : Moves p { p.removeSockets with phase := .finished }
  | kept {q : SocketPoll} (h : Kept p q) : Moves p q

theorem Moves.startThread (p : SocketPoll) : Moves p p.startThread := by
  refine .kept ?_
  unfold SocketPoll.startThread
  split
  case h_1 h => exact ⟨rfl, rfl, rfl, rfl, rfl, rfl, rfl, rfl, rfl, .inl rfl, .inr ⟨by rw [h]; rfl, rfl⟩⟩
  case h_2 => exact ⟨rfl, rfl, rfl, rfl, rfl, rfl, rfl, rfl, rfl, .inl rfl, .inl rfl⟩

theorem moves_of_step (h : p.step fresh e = some effect) : Moves p effect.poll := by
  cases e with
  | addCallback =>
    cases h
    exact .addCallback none
  | insertNewSocket =>
    cases h
    exact .insertNewSocket fresh
  | transferSocketTo t =>
    cases h
    exact .transferSocketTo t
  | wakeup =>
    cases h
    exact .wakeup
  | setStop =>
    cases h
    exact .kept ⟨rfl, rfl, rfl, rfl, rfl, rfl, rfl, rfl, rfl, .inl rfl, .inl rfl⟩
  | clearCallbacks =>
    cases h
    exact .clearCallbacks
  | startThread =>
    cases h
    exact .startThread p
  | joinThread =>
    simp only [step] at h
    split at h <;> cases h
    case h_1 hphase =>
      exact .kept ⟨rfl, rfl, rfl, rfl, rfl, rfl, rfl, rfl, rfl, .inl rfl, .inr ⟨by rw [hphase]; rfl, rfl⟩⟩
  | setupPollFds =>
    simp only [step] at h
    split at h <;> try cases h
    case h_1 hphase =>
      simp only [SocketPoll.setupPollFds, Option.map_map, Option.map_eq_some_iff, Function.comp_apply] at h
      obtain ⟨fds, -, rfl⟩ := h
      exact .kept ⟨rfl, rfl, rfl, rfl, rfl, rfl, rfl, rfl, rfl, .inr rfl, .inr ⟨by rw [hphase]; rfl, rfl⟩⟩
  | ppoll fails =>
    simp only [step] at h
    split at h <;> cases h
    case h_1 hphase => exact .ppoll fails hphase
  | justPoll =>
    simp only [step] at h
    split at h <;> cases h
    case h_1 hphase =>
      exact .kept ⟨rfl, rfl, rfl, rfl, rfl, rfl, rfl, rfl, rfl, .inl rfl, .inr ⟨by rw [hphase]; rfl, rfl⟩⟩
  | readWakeup =>
    simp only [step] at h
    split at h <;> cases h
    case h_1 hphase => exact .readWakeup hphase
    case h_2 hphase => exact .kept (.beginHandling (by rw [hphase]; rfl))
  | drain =>
    simp only [step] at h
    split at h <;> cases h
    case h_1 hphase => exact .drain hphase
  | invokeNext =>
    simp only [step] at h
    split at h <;> cases h
    case h_1 hphase => exact .invokeNext hphase
  | transferNext toPollExists =>
    simp only [step] at h
    split at h <;> cases h
    case h_1 t transfers hphase _ =>
      cases toPollExists
      · exact .kept ⟨rfl, rfl, rfl, rfl, rfl, rfl, rfl, rfl, rfl, .inl rfl, .inl rfl⟩
      · have hkept := Kept.transfer { p with transfers } t
        exact .kept ⟨hkept.1, hkept.2, hkept.3, hkept.4, hkept.5, hkept.6, hkept.7, hkept.8, hkept.9, hkept.10,
          hkept.11⟩
    case h_2 hphase _ => exact .kept (.beginHandling (by rw [hphase]; rfl))
  | handlePoll d =>
    simp only [step] at h
    split at h <;> try cases h
    case h_1 j hphase =>
      split at h <;> cases h
      exact .kept (.handleEntry (by rw [hphase]; rfl))
  | eraseItems =>
    simp only [step] at h
    split at h <;> try cases h
    case h_1 j hphase =>
      split at h <;> cases h
      exact .kept ⟨rfl, rfl, rfl, rfl, rfl, rfl, rfl, rfl, rfl, .inl rfl, .inr ⟨by rw [hphase]; rfl, rfl⟩⟩
  | finish =>
    simp only [step] at h
    split at h <;> cases h
    case h_1 hphase => exact .finish hphase

end SocketPoll

/-- The invariant rule in terms of `Moves`. -/
theorem SocketPolls.Reachable.forall_moves {inv : SocketPoll → Prop} (hinit : inv {})
    (hmoves : ∀ p q, inv p → SocketPoll.Moves p q → inv q) {st : SocketPolls} (h : Reachable st) :
    ∀ p ∈ st.polls, inv p := by
  refine forall_polls hinit ?_ ?_ h
  · intro _ p _ e effect _ hp _ heffect
    exact hmoves p _ hp (SocketPoll.moves_of_step heffect)
  · intro p socket hp
    exact hmoves _ _ (hmoves p _ hp (.startThread p)) (.addCallback _)

namespace SocketPoll

variable {p q : SocketPoll}

/-! ### The wakeup pipe -/

/-- What is queued will be seen: the pipe can be read, or it was, and the thread goes on to the queues. -/
def Woken (p : SocketPoll) : Prop := p.taskQueuesEmpty = false → 0 < p.wakeup ∨ p.phase = .dumped

theorem written_pos (p : SocketPoll) : 0 < p.written := by
  unfold written pipeCapacity
  split <;> omega

/-- A task is queued under the mutex. -/
theorem Woken.queue (h : Woken p) (hwakeup : q.wakeup = if p.taskQueuesEmpty then p.written else p.wakeup)
    (hphase : q.phase = p.phase) : Woken q := by
  intro _
  rw [hwakeup, hphase]
  cases hempty : p.taskQueuesEmpty with
  | true => exact .inl (written_pos p)
  | false => exact h hempty

theorem Woken.invokeNext (h : Woken p) (hphase : p.phase = .invoking) : Woken p.invokeNext := by
  unfold SocketPoll.invokeNext
  split
  · have hpop : Woken { p with invoke := ‹_›, invoked := p.invoked ++ [CallbackFn.number ‹_›] } := h
    dsimp only
    split
    · exact hpop.queue rfl rfl
    · exact hpop
  · intro hempty
    obtain hpos | hdumped := h hempty
    · exact .inl hpos
    · rw [hphase] at hdumped
      cases hdumped

theorem Woken.moves (h : Woken p) (hmoves : Moves p q) : Woken q := by
  cases hmoves with
  | addCallback | insertNewSocket | transferSocketTo => exact h.queue rfl rfl
  | wakeup => exact fun _ => .inl (written_pos p)
  | clearCallbacks =>
    intro hempty
    refine h ?_
    simp only [taskQueuesEmpty, clearCallbacks, List.isEmpty_nil, Bool.and_true] at hempty ⊢
    cases hsockets : p.newSockets.isEmpty <;> simp_all
  | ppoll fails hphase =>
    intro hempty
    obtain hpos | hdumped := h hempty
    · exact .inl hpos
    · rw [hphase] at hdumped
      cases hdumped
  | readWakeup => exact fun _ => .inr rfl
  | drain => exact fun hempty => Bool.noConfusion hempty
  | invokeNext hphase => exact h.invokeNext hphase
  | finish hphase =>
    intro hempty
    obtain hpos | hdumped := h (by
      simp only [taskQueuesEmpty, removeSockets, List.isEmpty_nil, Bool.true_and] at hempty ⊢
      rw [Bool.and_assoc, hempty, Bool.and_false])
    · exact .inl hpos
    · rw [hphase] at hdumped
      cases hdumped
  | kept hkept =>
    intro hempty
    unfold taskQueuesEmpty at hempty
    rw [hkept.newSockets, hkept.newCallbacks, hkept.pendingTransfers] at hempty
    rw [hkept.wakeup]
    obtain hpos | hdumped := h hempty
    · exact .inl hpos
    · obtain hphase | ⟨hcalm, -⟩ := hkept.phase
      · exact .inr (hphase.trans hdumped)
      · rw [hdumped] at hcalm
        cases hcalm

/-! ### The callbacks -/

/-- The callbacks have run or wait in their order, and each one has run, waits or was discarded by `stop`. -/
structure Numbered (p : SocketPoll) : Prop where
  order : (p.invoked ++ p.waiting).Pairwise (· < ·)
  accounted : (p.invoked ++ p.waiting ++ p.discarded).Perm (List.range p.added)
  /-- Only the loop over the callbacks has any in hand. -/
  invoke : p.phase ≠ .invoking → p.invoke = []

theorem Numbered.lt_added (h : Numbered p) {n : Nat} (hn : n ∈ p.invoked ++ p.waiting) : n < p.added :=
  List.mem_range.1 (h.accounted.subset (List.mem_append_left _ hn))

/-- The queues of sockets and transfers and the pipe do not matter. -/
theorem Numbered.congr (h : Numbered p) (hwaiting : q.waiting = p.waiting) (hinvoked : q.invoked = p.invoked)
    (hdiscarded : q.discarded = p.discarded) (hadded : q.added = p.added)
    (hinvoke : q.phase ≠ .invoking → q.invoke = []) : Numbered q := by
  constructor
  · rw [hinvoked, hwaiting]
    exact h.order
  · rw [hinvoked, hwaiting, hdiscarded, hadded]
    exact h.accounted
  · exact hinvoke

theorem Numbered.addCallback (h : Numbered p) (arrives : Option Nat) : Numbered (p.addCallback arrives) := by
  have hwaiting : (p.addCallback arrives).waiting = p.waiting ++ [p.added] := by
    simp [waiting, SocketPoll.addCallback]
  constructor
  · rw [hwaiting, ← List.append_assoc]
    change ((p.invoked ++ p.waiting) ++ [p.added]).Pairwise (· < ·)
    refine List.pairwise_append.2 ⟨h.order, List.pairwise_singleton _ _, ?_⟩
    intro n hn m hm
    rw [List.mem_singleton.1 hm]
    exact h.lt_added hn
  · rw [hwaiting]
    change (p.invoked ++ (p.waiting ++ [p.added]) ++ p.discarded).Perm (List.range (p.added + 1))
    rw [List.range_succ, ← List.append_assoc, List.append_assoc _ [p.added]]
    refine (List.Perm.append_left _ List.perm_append_comm).trans ?_
    rw [← List.append_assoc]
    exact h.accounted.append_right _
  · exact h.invoke

theorem Numbered.clearCallbacks (h : Numbered p) : Numbered p.clearCallbacks := by
  have hwaiting : p.waiting = p.clearCallbacks.waiting ++ p.newCallbacks.map CallbackFn.number := by
    simp [waiting, SocketPoll.clearCallbacks]
  constructor
  · refine h.order.sublist ?_
    rw [hwaiting, ← List.append_assoc]
    exact List.sublist_append_left _ _
  · refine List.Perm.trans ?_ h.accounted
    rw [hwaiting]
    simp only [SocketPoll.clearCallbacks, List.append_assoc]
    exact List.Perm.append_left _ (List.Perm.append_left _ List.perm_append_comm)
  · exact h.invoke

theorem Numbered.invokeNext (h : Numbered p) (hphase : p.phase = .invoking) : Numbered p.invokeNext := by
  unfold SocketPoll.invokeNext
  split
  case h_1 c invoke hinvoke =>
    have hwaiting : p.waiting = c.number :: (invoke ++ p.newCallbacks).map CallbackFn.number := by
      simp [waiting, hinvoke]
    have hpop : Numbered { p with invoke, invoked := p.invoked ++ [c.number] } := by
      constructor
      · have horder := h.order
        rw [hwaiting] at horder
        simpa [waiting] using horder
      · have haccounted := h.accounted
        rw [hwaiting] at haccounted
        simpa [waiting] using haccounted
      · exact fun hne => absurd hphase hne
    dsimp only
    split
    · exact hpop.congr rfl rfl rfl rfl hpop.invoke
    · exact hpop
  case h_2 hinvoke =>
    exact h.congr rfl rfl rfl rfl fun _ => hinvoke

theorem Numbered.moves (h : Numbered p) (hmoves : Moves p q) : Numbered q := by
  cases hmoves with
  | addCallback arrives => exact h.addCallback arrives
  | insertNewSocket | transferSocketTo | wakeup => exact h.congr rfl rfl rfl rfl h.invoke
  | clearCallbacks => exact h.clearCallbacks
  | ppoll _ hphase | finish hphase =>
    have hinvoke : p.invoke = [] := h.invoke (by rw [hphase]; rintro ⟨⟩)
    exact h.congr rfl rfl rfl rfl fun _ => hinvoke
  | readWakeup hphase =>
    have hinvoke : p.invoke = [] := h.invoke (by rw [hphase]; rintro ⟨⟩)
    unfold SocketPoll.readWakeup
    exact h.congr (by simp only [waiting]) rfl rfl rfl fun _ => hinvoke
  | drain hphase =>
    have hinvoke : p.invoke = [] := h.invoke (by rw [hphase]; rintro ⟨⟩)
    refine h.congr ?_ rfl rfl rfl (fun hne => absurd rfl hne)
    simp [waiting, SocketPoll.drain, hinvoke]
  | invokeNext hphase => exact h.invokeNext hphase
  | kept hkept =>
    refine h.congr ?_ hkept.invoked hkept.discarded hkept.added ?_
    · unfold waiting
      rw [hkept.invoke, hkept.newCallbacks]
    · rw [hkept.invoke]
      intro hne
      obtain hphase | ⟨hcalm, -⟩ := hkept.phase
      · exact h.invoke (hphase ▸ hne)
      · refine h.invoke ?_
        rintro hinvoking
        rw [hinvoking] at hcalm
        cases hcalm

/-! ### The callbacks of a pass -/

/-- Callbacks that were added before the last pass began are not queued any more, unless the pass has yet to drain
them. -/
structure Marked (p : SocketPoll) : Prop where
  mark : p.mark ≤ p.added
  begun : p.begun ≤ p.added
  queued : p.phase ≠ .polled true → p.phase ≠ .dumped → ∀ c ∈ p.newCallbacks, p.mark ≤ c.number

/-- Neither the queue nor the phase changes. -/
theorem Marked.congr (h : Marked p) (hmark : q.mark = p.mark) (hbegun : q.begun = p.begun)
    (hadded : q.added = p.added)
    (hqueue : q.newCallbacks = p.newCallbacks) (hphase : q.phase = p.phase) : Marked q := by
  constructor
  · rw [hmark, hadded]
    exact h.mark
  · rw [hbegun, hadded]
    exact h.begun
  · rw [hphase, hqueue, hmark]
    exact h.queued

theorem Marked.addCallback (h : Marked p) (arrives : Option Nat) : Marked (p.addCallback arrives) := by
  constructor
  · exact Nat.le_succ_of_le h.mark
  · exact Nat.le_succ_of_le h.begun
  · intro hwoken hdumped c hc
    obtain hc | hc := List.mem_append.1 hc
    · exact h.queued hwoken hdumped c hc
    · rw [List.mem_singleton.1 hc]
      exact h.mark

theorem Marked.ppoll (h : Marked p) (hwoken : Woken p) (hphase : p.phase = .polling) (fails : Bool) :
    Marked (p.ppoll fails) := by
  constructor
  · show (if fails then p.mark else p.begun) ≤ p.added
    split
    · exact h.mark
    · exact h.begun
  · exact h.begun
  · intro hpolled _ c hc
    cases fails with
    | true => exact h.queued (by rw [hphase]; rintro ⟨⟩) (by rw [hphase]; rintro ⟨⟩) c hc
    | false =>
      -- the pipe was empty, so nothing was queued
      have hempty : p.wakeup = 0 := by
        by_contra hne
        refine hpolled ?_
        simp [SocketPoll.ppoll, Nat.pos_of_ne_zero hne]
      have hqueues : p.taskQueuesEmpty = true := by
        by_contra hne
        obtain hpos | hdumped := hwoken (Bool.eq_false_iff.2 hne)
        · omega
        · rw [hphase] at hdumped
          cases hdumped
      simp only [taskQueuesEmpty, Bool.and_eq_true, List.isEmpty_iff] at hqueues
      have hc : c ∈ p.newCallbacks := hc
      rw [hqueues.1.2] at hc
      cases hc

theorem Marked.invokeNext (h : Marked p) (hphase : p.phase = .invoking) : Marked p.invokeNext := by
  unfold SocketPoll.invokeNext
  split
  · dsimp only
    split <;> exact h.congr rfl rfl rfl rfl rfl
  · exact ⟨h.mark, h.begun, fun _ _ => h.queued (by rw [hphase]; rintro ⟨⟩) (by rw [hphase]; rintro ⟨⟩)⟩

theorem Marked.moves (h : Marked p) (hwoken : Woken p) (hmoves : Moves p q) : Marked q := by
  cases hmoves with
  | addCallback arrives => exact h.addCallback arrives
  | insertNewSocket | transferSocketTo | wakeup => exact h.congr rfl rfl rfl rfl rfl
  | clearCallbacks => exact ⟨h.mark, h.begun, fun _ _ _ hc => by cases hc⟩
  | ppoll fails hphase => exact h.ppoll hwoken hphase fails
  | readWakeup =>
    unfold SocketPoll.readWakeup
    exact ⟨h.mark, h.begun, fun _ hdumped => absurd rfl hdumped⟩
  | drain => exact ⟨h.mark, h.begun, fun _ _ _ hc => by cases hc⟩
  | invokeNext hphase => exact h.invokeNext hphase
  | finish hphase =>
    exact ⟨h.mark, h.begun, fun _ _ => h.queued (by rw [hphase]; rintro ⟨⟩) (by rw [hphase]; rintro ⟨⟩)⟩
  | kept hkept =>
    constructor
    · rw [hkept.mark, hkept.added]
      exact h.mark
    · rw [hkept.added]
      obtain hbegun | hbegun := hkept.begun
      · exact hbegun ▸ h.begun
      · exact hbegun.le
    · rw [hkept.mark, hkept.newCallbacks]
      intro hpolled hdumped
      obtain hphase | ⟨hcalm, -⟩ := hkept.phase
      · exact h.queued (hphase ▸ hpolled) (hphase ▸ hdumped)
      · refine h.queued ?_ ?_ <;>
        · intro hphase
          rw [hphase] at hcalm
          cases hcalm

end SocketPoll

namespace SocketPolls

variable {st : SocketPolls} {p : SocketPoll}

/-- Whatever the threads do, a poll with queued sockets, callbacks or transfers has a byte in its pipe, so that
`ppoll` returns, or it has just read the pipe and goes on to take them. -/
theorem tasks_woken (h : Reachable st) (hp : p ∈ st.polls) : p.Woken :=
  h.forall_moves (fun hempty => Bool.noConfusion hempty) (fun _ _ hp hmoves => hp.moves hmoves) p hp

theorem tasks_woken_addCallback : ({ newCallbacks := [⟨0, none⟩], added := 1, wakeup := 1 } : SocketPoll).Woken :=
  tasks_woken (Reachable.of_run 1 [(0, .addCallback)] rfl) List.mem_cons_self

theorem numbered_of_reachable (h : Reachable st) (hp : p ∈ st.polls) : p.Numbered :=
  h.forall_moves ⟨List.Pairwise.nil, List.Perm.refl _, fun _ => rfl⟩ (fun _ _ hp hmoves => hp.moves hmoves) p hp

/-- Callbacks run at most once each and in the order they were added, and none is lost but those that `stop`
discards. -/
theorem callbacks_once (h : Reachable st) (hp : p ∈ st.polls) : (p.invoked ++ p.waiting).Pairwise (· < ·) ∧
    (p.invoked ++ p.waiting ++ p.discarded).Perm (List.range p.added) :=
  have hnumbered := numbered_of_reachable h hp
  ⟨hnumbered.order, hnumbered.accounted⟩

/-- Two callbacks run, and a third one that is added between them is discarded before a fourth one is added. -/
theorem callbacks_once_two : ∃ st, Reachable st ∧ ∃ p ∈ st.polls, p.invoked = [0, 1] ∧ p.waiting = [3] ∧
    p.discarded = [2] ∧ (p.invoked ++ p.waiting).Pairwise (· < ·) ∧
    (p.invoked ++ p.waiting ++ p.discarded).Perm (List.range p.added) := by
  have hreach := Reachable.of_run 1 [(0, .startThread), (0, .setupPollFds), (0, .addCallback), (0, .addCallback),
    (0, .ppoll false), (0, .readWakeup), (0, .drain), (0, .invokeNext), (0, .addCallback), (0, .invokeNext),
    (0, .clearCallbacks), (0, .addCallback)] rfl
  exact ⟨_, hreach, _, List.mem_cons_self, rfl, rfl, rfl, callbacks_once hreach List.mem_cons_self⟩

theorem marked_of_reachable (h : Reachable st) (hp : p ∈ st.polls) : p.Marked := by
  have hmarked : ∀ p ∈ st.polls, p.Woken ∧ p.Marked := by
    have hnew : ({} : SocketPoll).Marked := ⟨Nat.le_refl _, Nat.le_refl _, fun _ _ _ hc => by cases hc⟩
    refine h.forall_moves ⟨fun hempty => Bool.noConfusion hempty, hnew⟩ ?_
    intro p q hp hmoves
    exact ⟨hp.1.moves hmoves, hp.2.moves hp.1 hmoves⟩
  exact (hmarked p hp).2

/-- When a pass whose `ppoll` did not fail has left the callbacks behind, every callback that had been added when it
began has run or was discarded by `stop`. -/
theorem callbacks_of_pass (h : Reachable st) (hp : p ∈ st.polls) (hcalm : p.phase.isCalm = true) {n : Nat}
    (hn : n < p.mark) : n ∈ p.invoked ∨ n ∈ p.discarded := by
  have hnumbered := numbered_of_reachable h hp
  have hmarked := marked_of_reachable h hp
  have hinvoke : p.invoke = [] := by
    refine hnumbered.invoke ?_
    intro hphase
    rw [hphase] at hcalm
    cases hcalm
  have hmem : n ∈ p.invoked ++ p.waiting ++ p.discarded :=
    hnumbered.accounted.symm.subset (List.mem_range.2 (Nat.lt_of_lt_of_le hn hmarked.mark))
  obtain hmem | hdiscarded := List.mem_append.1 hmem
  · obtain hinvoked | hwaiting := List.mem_append.1 hmem
    · exact .inl hinvoked
    · unfold SocketPoll.waiting at hwaiting
      rw [hinvoke, List.nil_append] at hwaiting
      obtain ⟨c, hc, rfl⟩ := List.mem_map.1 hwaiting
      have hle : p.mark ≤ c.number := by
        refine hmarked.queued ?_ ?_ c hc <;>
        · intro hphase
          rw [hphase] at hcalm
          cases hcalm
      omega
  · exact .inr hdiscarded

theorem callbacks_of_pass_invoked : ∃ st, Reachable st ∧ ∃ p ∈ st.polls, p.mark = 1 ∧
    (0 ∈ p.invoked ∨ 0 ∈ p.discarded) := by
  have hreach := Reachable.of_run 1 [(0, .startThread), (0, .addCallback), (0, .setupPollFds), (0, .ppoll false),
    (0, .readWakeup), (0, .drain), (0, .invokeNext), (0, .invokeNext)] rfl
  exact ⟨_, hreach, _, List.mem_cons_self, rfl, callbacks_of_pass hreach List.mem_cons_self rfl Nat.zero_lt_one⟩

end SocketPolls

end CollaboraOnline
