import Mathlib.Data.List.NodupEquivFin
import CollaboraOnline.Net.SocketPoll

/-!
# One pass over the sockets

The loop over the sockets starts at another entry in each pass, and goes down and around.  It is at each polled entry
once (`entries_once`), whatever the callbacks and handlers do meanwhile.  The entries that it finds null, or sets to
null, are erased after it; an entry behind the polled ones that was set to null can stay (`null_after_pass`), which
`setupPollFds` does not expect.  No null pointer stays as long as each transfer names a socket that the pass polled
(`setupPollFds_of_transfers`).
-/

namespace CollaboraOnline

/-- From `setupPollFds` to the end of the loop over the sockets. -/
def PollPhase.isPass : PollPhase → Bool
  | .unstarted | .idle | .finished => false
  | _ => true

namespace SocketPoll

/-! ### The order of the entries -/

/-- The entry at which the loop is in round `j`. -/
def indexAt (start size j : Nat) : Nat := if j ≤ start then start - j else start + size - j

def visitOrder (start size j : Nat) : List Nat := (List.range j).map (indexAt start size)

theorem visitOrder_succ (start size j : Nat) :
    visitOrder start size (j + 1) = visitOrder start size j ++ [indexAt start size j] := by
  simp [visitOrder, List.range_succ]

theorem indexAt_lt {start size j : Nat} (hstart : start < size) (hj : j < size) : indexAt start size j < size := by
  unfold indexAt
  split <;> omega

/-- Down, and around at zero. -/
theorem indexAt_succ {start size j : Nat} (hstart : start < size) (hj : j < size) :
    indexAt start size (j + 1) = if indexAt start size j = 0 then size - 1 else indexAt start size j - 1 := by
  unfold indexAt
  split_ifs <;> omega

theorem visitOrder_perm {start size : Nat} (hstart : start < size) :
    (visitOrder start size size).Perm (List.range size) := by
  have hnodup : (visitOrder start size size).Nodup := by
    refine List.Nodup.map_on ?_ List.nodup_range
    intro j hj k hk heq
    rw [List.mem_range] at hj hk
    unfold indexAt at heq
    split_ifs at heq <;> omega
  have hsubset : visitOrder start size size ⊆ List.range size := by
    intro i hi
    obtain ⟨j, hj, rfl⟩ := List.mem_map.1 hi
    exact List.mem_range.2 (indexAt_lt hstart (List.mem_range.1 hj))
  exact (List.subperm_of_subset hnodup hsubset).perm_of_length_le (by simp [visitOrder])

/-! ### The loop -/

variable {p q : SocketPoll} {fresh : Nat} {e : PollEvent} {effect : PollEffect}

/-- The loop after `j` rounds. -/
structure Loop (p : SocketPoll) (j : Nat) : Prop where
  le : j ≤ p.pollFds.length
  start : p.pollStartIndex < p.pollFds.length
  visited : p.visited = visitOrder p.pollStartIndex p.pollFds.length j
  index : p.index = indexAt p.pollStartIndex p.pollFds.length j
  /-- An item is counted exactly if an entry that the loop has been at is null now. -/
  itemsErased : p.itemsErased = 0 ↔ ∀ i ∈ p.visited, p.pollSockets[i]? ≠ some none

structure Passing (p : SocketPoll) : Prop where
  /-- The polled entries are there during the whole pass. -/
  length : p.phase.isPass = true → p.pollFds.length ≤ p.pollSockets.length
  loop : ∀ j, p.phase = .handling j → p.Loop j

theorem Passing.congr (h : Passing p) (hsockets : q.pollSockets = p.pollSockets) (hfds : q.pollFds = p.pollFds)
    (hstart : q.pollStartIndex = p.pollStartIndex) (hvisited : q.visited = p.visited) (hindex : q.index = p.index)
    (herased : q.itemsErased = p.itemsErased) (hphase : q.phase = p.phase) : Passing q := by
  constructor
  · rw [hphase, hfds, hsockets]
    exact h.length
  · intro j hj
    have hloop := h.loop j (hphase ▸ hj)
    constructor
    · rw [hfds]
      exact hloop.le
    · rw [hstart, hfds]
      exact hloop.start
    · rw [hvisited, hstart, hfds]
      exact hloop.visited
    · rw [hindex, hstart, hfds]
      exact hloop.index
    · rw [herased, hvisited, hsockets]
      exact hloop.itemsErased

/-- Outside of a pass there is nothing to say. -/
theorem Passing.outside (h : p.phase.isPass = false) : Passing p := by
  constructor
  · rw [h]
    rintro ⟨⟩
  · intro j hj
    rw [hj] at h
    cases h

/-- In a pass, but before the loop. -/
theorem Passing.before (hlength : p.pollFds.length ≤ p.pollSockets.length) (hphase : ∀ j, p.phase ≠ .handling j) :
    Passing p :=
  ⟨fun _ => hlength, fun j hj => absurd hj (hphase j)⟩

theorem Passing.beginHandling (hlength : p.pollFds.length ≤ p.pollSockets.length) : Passing p.beginHandling := by
  unfold SocketPoll.beginHandling
  dsimp only
  split
  case isTrue hsize =>
    constructor
    · exact fun _ => hlength
    · intro j hj
      obtain rfl : 0 = j := by simpa using hj
      constructor
      · exact Nat.zero_le _
      · show (if p.pollStartIndex + 1 > p.pollFds.length - 1 then 0 else p.pollStartIndex + 1) < p.pollFds.length
        split <;> omega
      · rfl
      · simp [indexAt]
      · simp
  case isFalse => exact .outside rfl

theorem getElem?_mapM {l : List (Option Nat)} {fds : List Nat} (h : l.mapM id = some fds) : l = fds.map some := by
  induction l generalizing fds with
  | nil =>
    obtain rfl : [] = fds := by simpa using h
    rfl
  | cons a l ih =>
    simp only [List.mapM_cons, id_eq, Option.bind_eq_bind, Option.bind_eq_some_iff, Option.pure_def,
      Option.some.injEq] at h
    obtain ⟨fd, rfl, fds, hl, rfl⟩ := h
    rw [List.map_cons, ← ih hl]

/-- One round.  The loop stops at null entries, at sockets that go, and at sockets that stay. -/
theorem Loop.handleEntry {j : Nat} (h : p.Loop j) (hj : j < p.pollFds.length)
    (hlength : p.pollFds.length ≤ p.pollSockets.length) (d : Disposition) :
    ((p.handleEntry d).poll.nextIndex j).Loop (j + 1) ∧
      ((p.handleEntry d).poll.nextIndex j).pollSockets.length = p.pollSockets.length ∧
      ((p.handleEntry d).poll.nextIndex j).pollFds = p.pollFds := by
  have hindex : p.index < p.pollFds.length := by
    rw [h.index]
    exact indexAt_lt h.start hj
  have hnext : (if p.index = 0 then p.pollFds.length - 1 else p.index - 1)
      = indexAt p.pollStartIndex p.pollFds.length (j + 1) := by
    rw [indexAt_succ h.start hj, h.index]
  have hvisited : p.visited ++ [p.index] = visitOrder p.pollStartIndex p.pollFds.length (j + 1) := by
    rw [visitOrder_succ, h.visited, h.index]
  -- a null entry is counted
  have hcounted : ∀ sockets : List (Option Nat), sockets[p.index]? = some none →
      (p.itemsErased + 1 = 0 ↔ ∀ i ∈ p.visited ++ [p.index], sockets[i]? ≠ some none) := by
    intro sockets hnone
    constructor
    · rintro ⟨⟩
    · intro hall
      exact absurd hnone (hall p.index (by simp))
  -- a socket that stays is not
  have hstays : ∀ socket, p.pollSockets[p.index]? = some (some socket) →
      (p.itemsErased = 0 ↔ ∀ i ∈ p.visited ++ [p.index], p.pollSockets[i]? ≠ some none) := by
    intro socket hsome
    rw [h.itemsErased]
    constructor
    · intro hall i hi
      obtain hi | hi := List.mem_append.1 hi
      · exact hall i hi
      · rw [List.mem_singleton.1 hi, hsome]
        rintro ⟨⟩
    · exact fun hall i hi => hall i (List.mem_append_left _ hi)
  have hsome : ∃ entry, p.pollSockets[p.index]? = some entry :=
    ⟨_, List.getElem?_eq_getElem (Nat.lt_of_lt_of_le hindex hlength)⟩
  have hrelease : (p.pollSockets.set p.index none)[p.index]? = some none :=
    List.getElem?_set_self (Nat.lt_of_lt_of_le hindex hlength)
  unfold SocketPoll.handleEntry
  split
  case h_1 hnone =>
    obtain ⟨entry, hentry⟩ := hsome
    rw [hnone] at hentry
    cases hentry
  case h_2 hnone => exact ⟨⟨hj, h.start, hvisited, hnext, hcounted _ hnone⟩, rfl, rfl⟩
  case h_3 socket hsocket =>
    split
    · cases d with
      | continued => exact ⟨⟨hj, h.start, hvisited, hnext, hstays socket hsocket⟩, rfl, rfl⟩
      | closed => exact ⟨⟨hj, h.start, hvisited, hnext, hcounted _ hrelease⟩, List.length_set, rfl⟩
      | transfer toPoll => exact ⟨⟨hj, h.start, hvisited, hnext, hcounted _ hrelease⟩, List.length_set, rfl⟩
    · exact ⟨⟨hj, h.start, hvisited, hnext, hstays socket hsocket⟩, rfl, rfl⟩

theorem Passing.invokeNext (h : Passing p) (hphase : p.phase = .invoking) : Passing p.invokeNext := by
  unfold SocketPoll.invokeNext
  split
  · dsimp only
    split <;> exact h.congr rfl rfl rfl rfl rfl rfl rfl
  · exact .before (h.length (by rw [hphase]; rfl)) (by rintro _ ⟨⟩)

theorem length_transfer (p : SocketPoll) (t : SocketTransfer) :
    (p.transfer t).poll.pollSockets.length = p.pollSockets.length ∧ (p.transfer t).poll.pollFds = p.pollFds ∧
      (p.transfer t).poll.phase = p.phase := by
  unfold SocketPoll.transfer
  split
  · exact ⟨List.length_set, rfl, rfl⟩
  · exact ⟨rfl, rfl, rfl⟩

theorem Passing.step (h : Passing p) (hs : p.step fresh e = some effect) : Passing effect.poll := by
  cases e with
  | addCallback | insertNewSocket | transferSocketTo | wakeup | setStop | clearCallbacks =>
    cases hs
    exact h.congr rfl rfl rfl rfl rfl rfl rfl
  | startThread =>
    cases hs
    show Passing p.startThread
    unfold SocketPoll.startThread
    split
    · exact .outside rfl
    · exact h
  | joinThread | justPoll =>
    simp only [SocketPoll.step] at hs
    split at hs <;> cases hs
    exact .outside rfl
  | setupPollFds =>
    simp only [SocketPoll.step] at hs
    split at hs <;> try cases hs
    simp only [SocketPoll.setupPollFds, Option.map_map, Option.map_eq_some_iff, Function.comp_apply] at hs
    obtain ⟨fds, hfds, rfl⟩ := hs
    refine .before ?_ (by rintro _ ⟨⟩)
    have hlength := congrArg List.length (getElem?_mapM hfds)
    rw [List.length_map] at hlength
    exact hlength.ge
  | ppoll fails =>
    simp only [SocketPoll.step] at hs
    split at hs <;> cases hs
    case h_1 hphase => exact .before (h.length (by rw [hphase]; rfl)) (by rintro _ ⟨⟩)
  | readWakeup =>
    simp only [SocketPoll.step] at hs
    split at hs <;> cases hs
    case h_1 hphase =>
      have hlength := h.length (by rw [hphase]; rfl)
      unfold SocketPoll.readWakeup
      exact .before hlength (by rintro _ ⟨⟩)
    case h_2 hphase => exact .beginHandling (h.length (by rw [hphase]; rfl))
  | drain =>
    simp only [SocketPoll.step] at hs
    split at hs <;> cases hs
    case h_1 hphase =>
      have hlength := h.length (by rw [hphase]; rfl)
      refine .before ?_ (by rintro _ ⟨⟩)
      simp only [SocketPoll.drain, List.length_append]
      omega
  | invokeNext =>
    simp only [SocketPoll.step] at hs
    split at hs <;> cases hs
    case h_1 hphase => exact h.invokeNext hphase
  | transferNext toPollExists =>
    simp only [SocketPoll.step] at hs
    split at hs <;> cases hs
    case h_1 t transfers hphase _ =>
      have hlength := h.length (by rw [hphase]; rfl)
      cases toPollExists
      · exact h.congr rfl rfl rfl rfl rfl rfl rfl
      · obtain ⟨hsockets, hfds, hphase'⟩ := length_transfer { p with transfers } t
        refine .before ?_ ?_
        · show (({ p with transfers } : SocketPoll).transfer t).poll.pollFds.length ≤ _
          rw [hfds]
          exact hlength.trans hsockets.ge
        · intro j hj
          have hj := hphase'.symm.trans hj
          rw [show ({ p with transfers } : SocketPoll).phase = .transferring from hphase] at hj
          cases hj
    case h_2 hphase _ => exact .beginHandling (h.length (by rw [hphase]; rfl))
  | handlePoll d =>
    simp only [SocketPoll.step] at hs
    split at hs <;> try cases hs
    case h_1 j hphase =>
      split at hs <;> cases hs
      case isTrue hj =>
        have hlength := h.length (by rw [hphase]; rfl)
        obtain ⟨hloop, hsockets, hfds⟩ := (h.loop j hphase).handleEntry hj hlength d
        constructor
        · intro _
          rw [hfds, hsockets]
          exact hlength
        · intro k hk
          obtain rfl : j + 1 = k := by simpa [nextIndex] using hk
          exact hloop
  | eraseItems =>
    simp only [SocketPoll.step] at hs
    split at hs <;> try cases hs
    split at hs <;> cases hs
    exact .outside rfl
  | finish =>
    simp only [SocketPoll.step] at hs
    split at hs <;> cases hs
    exact .outside rfl

/-! ### Null pointers -/

theorem Loop.visited_perm (h : p.Loop p.pollFds.length) : p.visited.Perm (List.range p.pollFds.length) := by
  rw [h.visited]
  exact visitOrder_perm h.start

/-- Nothing is erased exactly if all polled entries have their sockets. -/
theorem Loop.itemsErased_eq_zero (h : p.Loop p.pollFds.length) :
    p.itemsErased = 0 ↔ ∀ i < p.pollFds.length, p.pollSockets[i]? ≠ some none := by
  rw [h.itemsErased]
  constructor
  · exact fun hall i hi => hall i (h.visited_perm.symm.subset (List.mem_range.2 hi))
  · exact fun hall i hi => hall i (List.mem_range.1 (h.visited_perm.subset hi))

theorem none_mem_eraseItems (h : p.Loop p.pollFds.length) : none ∈ p.eraseItems.pollSockets ↔
    (∀ i < p.pollFds.length, p.pollSockets[i]? ≠ some none) ∧ none ∈ p.pollSockets.drop p.pollFds.length := by
  unfold eraseItems
  dsimp only
  split
  case isTrue hpos =>
    have hnone : ¬ none ∈ p.pollSockets.filter Option.isSome := fun hmem =>
      Bool.noConfusion (List.mem_filter.1 hmem).2
    refine iff_of_false hnone ?_
    rintro ⟨hall, -⟩
    exact absurd (h.itemsErased_eq_zero.2 hall) hpos.ne'
  case isFalse hpos =>
    have hall := h.itemsErased_eq_zero.1 (by omega)
    constructor
    · intro hmem
      refine ⟨hall, ?_⟩
      obtain ⟨i, hi⟩ := List.mem_iff_getElem?.1 hmem
      have hge : p.pollFds.length ≤ i := by
        by_contra hlt
        exact hall i (by omega) hi
      refine List.mem_iff_getElem?.2 ⟨i - p.pollFds.length, ?_⟩
      rw [List.getElem?_drop, Nat.add_sub_cancel' hge]
      exact hi
    · exact fun hmem => List.mem_of_mem_drop hmem.2

theorem isSome_setupPollFds (h : none ∉ p.pollSockets) : p.setupPollFds.isSome = true := by
  have hmapM : ∀ l : List (Option Nat), none ∉ l → (l.mapM id).isSome = true := by
    intro l hl
    induction l with
    | nil => rfl
    | cons a l ih =>
      cases a with
      | none => exact absurd List.mem_cons_self hl
      | some fd =>
        obtain ⟨fds, hfds⟩ := Option.isSome_iff_exists.1 (ih fun hmem => hl (List.mem_cons_of_mem _ hmem))
        simp [hfds]
  simpa [setupPollFds] using hmapM _ h

end SocketPoll

namespace SocketPolls

variable {st : SocketPolls} {p : SocketPoll}

theorem passing_of_reachable {ok : SocketPolls → Nat × PollEvent → Prop}
    (h : Run.Reachable IsInit step ok st) (hp : p ∈ st.polls) : p.Passing := by
  refine forall_polls (.outside rfl) ?_ ?_ h p hp
  · exact fun _ p _ _ _ _ hp _ hs => hp.step hs
  · intro p socket hp
    refine SocketPoll.Passing.congr (p := p.startThread) ?_ rfl rfl rfl rfl rfl rfl rfl
    unfold SocketPoll.startThread
    split
    · exact .outside rfl
    · exact hp

/-- At the end of the loop over the sockets, each polled entry has been visited exactly once. -/
theorem entries_once (h : Reachable st) (hp : p ∈ st.polls) (hphase : p.phase = .handling p.pollFds.length) :
    p.visited.Perm (List.range p.pollFds.length) :=
  ((passing_of_reachable h hp).loop _ hphase).visited_perm

/-- Two sockets, from the second one down. -/
theorem entries_once_two : ∃ st, Reachable st ∧ ∃ p ∈ st.polls, p.pollFds = [0, 1] ∧ p.visited = [1, 0] ∧
    p.visited.Perm (List.range p.pollFds.length) := by
  have hreach :=
    Reachable.of_run 1 [(0, .startThread), (0, .insertNewSocket), (0, .insertNewSocket), (0, .setupPollFds),
    (0, .ppoll false), (0, .readWakeup), (0, .drain), (0, .invokeNext), (0, .transferNext true), (0, .setupPollFds),
    (0, .ppoll false), (0, .readWakeup), (0, .handlePoll .continued), (0, .handlePoll .continued)] rfl
  exact ⟨_, hreach, _, List.mem_cons_self, rfl, rfl, entries_once hreach List.mem_cons_self rfl⟩

/-- How a pass ends: after the loop over the sockets, or without it where it polls none. -/
inductive EndsPass (p : SocketPoll) : SocketPoll → Prop
  | handled (phase : p.phase = .handling p.pollFds.length) : EndsPass p p.eraseItems
  | nonePolled (phase : p.phase = .polled false ∨ p.phase = .transferring ∧ p.transfers = []) (fds : p.pollFds = []) :
    EndsPass p p.beginHandling

/-- A null pointer stays in `_pollSockets` after a pass exactly if all polled sockets stayed and a socket behind them
went. -/
theorem null_after_pass (h : Reachable st) (hp : p ∈ st.polls) {q : SocketPoll} (hends : EndsPass p q) :
    none ∈ q.pollSockets ↔
      (∀ i < p.pollFds.length, p.pollSockets[i]? ≠ some none) ∧ none ∈ p.pollSockets.drop p.pollFds.length := by
  cases hends with
  | handled hphase => exact SocketPoll.none_mem_eraseItems ((passing_of_reachable h hp).loop _ hphase)
  | nonePolled _ hfds =>
    have hsame : p.beginHandling.pollSockets = p.pollSockets := by
      unfold SocketPoll.beginHandling
      rw [hfds]
      rfl
    rw [hsame, hfds, List.length_nil, List.drop_zero]
    exact (and_iff_right fun i hi => absurd hi (Nat.not_lt_zero i)).symm

/-- A socket that the wakeup inserts is transferred away, behind a polled one and where none is polled. -/
theorem null_after_pass_one :
    (∃ st, Reachable st ∧ ∃ p ∈ st.polls, p.pollFds = [0] ∧ none ∈ p.eraseItems.pollSockets) ∧
    ∃ st, Reachable st ∧ ∃ p ∈ st.polls, p.pollFds = [] ∧ none ∈ p.beginHandling.pollSockets := by
  have hpolled := Reachable.of_run 1 [(0, .startThread), (0, .insertNewSocket), (0, .setupPollFds), (0, .ppoll false),
    (0, .readWakeup), (0, .drain), (0, .invokeNext), (0, .transferNext true), (0, .insertNewSocket),
    (0, .transferSocketTo ⟨1, 0⟩), (0, .setupPollFds), (0, .ppoll false), (0, .readWakeup), (0, .drain),
    (0, .invokeNext), (0, .transferNext true), (0, .transferNext true), (0, .handlePoll .continued)] rfl
  have hnone := Reachable.of_run 1 [(0, .startThread), (0, .setupPollFds), (0, .insertNewSocket),
    (0, .transferSocketTo ⟨0, 0⟩), (0, .ppoll false), (0, .readWakeup), (0, .drain), (0, .invokeNext),
    (0, .transferNext true)] rfl
  exact ⟨⟨_, hpolled, _, List.mem_cons_self, rfl,
      (null_after_pass hpolled List.mem_cons_self (.handled rfl)).2 ⟨by decide, by decide⟩⟩,
    ⟨_, hnone, _, List.mem_cons_self, rfl,
      (null_after_pass hnone List.mem_cons_self (.nonePolled (.inr ⟨rfl, rfl⟩) rfl)).2 ⟨by decide, by decide⟩⟩⟩

/-! ### Transfers of polled sockets -/

/-- A transfer takes a socket that this pass polls, not one that the same wakeup has inserted. -/
def transfersPolled (st : SocketPolls) : Nat × PollEvent → Bool
  | (i, .transferNext _) => st.polls[i]?.all fun p => p.transfers.head?.all fun t =>
      (p.pollSockets.idxOf? (some t.socket)).all fun k => k < p.pollFds.length
  | _ => true

end SocketPolls

namespace SocketPoll

variable {p q : SocketPoll} {fresh : Nat} {e : PollEvent} {effect : PollEffect}

/-- Null pointers are among the polled entries, and there are none before the callbacks have run. -/
structure Cleared (p : SocketPoll) : Prop where
  polled : ∀ i, p.pollSockets[i]? = some none → i < p.pollFds.length
  before : p.phase ≠ .invoking → p.phase ≠ .transferring → (∀ j, p.phase ≠ .handling j) → none ∉ p.pollSockets

theorem Cleared.of_notMem (h : none ∉ p.pollSockets) : Cleared p :=
  ⟨fun _ hi => absurd (List.mem_of_getElem? hi) h, fun _ _ _ => h⟩

theorem Cleared.congr (h : Cleared p) (hsockets : q.pollSockets = p.pollSockets) (hfds : q.pollFds = p.pollFds)
    (hphase : q.phase = p.phase) : Cleared q := by
  constructor
  · rw [hsockets, hfds]
    exact h.polled
  · rw [hphase, hsockets]
    exact h.before

/-- Past the callbacks null pointers are expected. -/
theorem Cleared.late (hpolled : ∀ i, p.pollSockets[i]? = some none → i < p.pollFds.length)
    (hphase : p.phase = .invoking ∨ p.phase = .transferring ∨ ∃ j, p.phase = .handling j) : Cleared p := by
  refine ⟨hpolled, fun hinvoking htransferring hhandling => ?_⟩
  obtain hphase | hphase | ⟨j, hphase⟩ := hphase
  · exact absurd hphase hinvoking
  · exact absurd hphase htransferring
  · exact absurd hphase (hhandling j)

theorem Cleared.release (h : ∀ i, p.pollSockets[i]? = some none → i < p.pollFds.length) {k : Nat}
    (hk : k < p.pollFds.length) : ∀ i, (p.release k).pollSockets[i]? = some none → i < p.pollFds.length := by
  intro i hi
  by_cases heq : k = i
  · exact heq ▸ hk
  · refine h i ?_
    rwa [SocketPoll.release, List.getElem?_set_ne heq] at hi

theorem Cleared.beginHandling (h : ∀ i, p.pollSockets[i]? = some none → i < p.pollFds.length) :
    Cleared p.beginHandling := by
  unfold SocketPoll.beginHandling
  dsimp only
  split
  case isTrue => exact .late h (.inr (.inr ⟨0, rfl⟩))
  case isFalse hsize =>
    refine .of_notMem ?_
    intro hmem
    obtain ⟨i, hi⟩ := List.mem_iff_getElem?.1 hmem
    exact absurd (h i hi) (by omega)

theorem Cleared.transfer (h : ∀ i, p.pollSockets[i]? = some none → i < p.pollFds.length) {t : SocketTransfer}
    (hpolled : ∀ k, p.pollSockets.idxOf? (some t.socket) = some k → k < p.pollFds.length) :
    ∀ i, (p.transfer t).poll.pollSockets[i]? = some none → i < p.pollFds.length := by
  unfold SocketPoll.transfer
  split
  case h_1 k hk => exact Cleared.release h (hpolled k hk)
  case h_2 => exact h

theorem Cleared.handleEntry (h : ∀ i, p.pollSockets[i]? = some none → i < p.pollFds.length)
    (hindex : p.index < p.pollFds.length) (d : Disposition) :
    ∀ i, (p.handleEntry d).poll.pollSockets[i]? = some none → i < p.pollFds.length := by
  unfold SocketPoll.handleEntry
  split
  · exact h
  · exact h
  · split
    · cases d with
      | continued => exact h
      | closed => exact Cleared.release h hindex
      | transfer toPoll => exact Cleared.release h hindex
    · exact h

theorem Cleared.eraseItems (h : Cleared p) (hloop : p.Loop p.pollFds.length) : none ∉ p.eraseItems.pollSockets := by
  rw [none_mem_eraseItems hloop]
  rintro ⟨-, hmem⟩
  obtain ⟨i, hi⟩ := List.mem_iff_getElem?.1 hmem
  rw [List.getElem?_drop] at hi
  have := h.polled _ hi
  omega

theorem Cleared.step (h : Cleared p) (hpassing : Passing p) (hs : p.step fresh e = some effect)
    (hpolled : ∀ toPollExists, e = .transferNext toPollExists → ∀ t ∈ p.transfers.head?, ∀ k,
      p.pollSockets.idxOf? (some t.socket) = some k → k < p.pollFds.length) : Cleared effect.poll := by
  cases e with
  | addCallback | insertNewSocket | transferSocketTo | wakeup | setStop | clearCallbacks =>
    cases hs
    exact h.congr rfl rfl rfl
  | startThread =>
    cases hs
    show Cleared p.startThread
    unfold SocketPoll.startThread
    split
    case h_1 hphase =>
      exact .of_notMem
        (h.before (by rw [hphase]; rintro ⟨⟩) (by rw [hphase]; rintro ⟨⟩) (by rw [hphase]; rintro _ ⟨⟩))
    case h_2 => exact h
  | joinThread | justPoll | ppoll =>
    simp only [SocketPoll.step] at hs
    split at hs <;> cases hs
    case h_1 hphase =>
      exact .of_notMem
        (h.before (by rw [hphase]; rintro ⟨⟩) (by rw [hphase]; rintro ⟨⟩) (by rw [hphase]; rintro _ ⟨⟩))
  | setupPollFds =>
    simp only [SocketPoll.step] at hs
    split at hs <;> try cases hs
    case h_1 hphase =>
      simp only [SocketPoll.setupPollFds, Option.map_map, Option.map_eq_some_iff, Function.comp_apply] at hs
      obtain ⟨fds, -, rfl⟩ := hs
      exact .of_notMem
        (h.before (by rw [hphase]; rintro ⟨⟩) (by rw [hphase]; rintro ⟨⟩) (by rw [hphase]; rintro _ ⟨⟩))
  | readWakeup =>
    simp only [SocketPoll.step] at hs
    split at hs <;> cases hs
    case h_1 hphase =>
      have hnone := h.before (by rw [hphase]; rintro ⟨⟩) (by rw [hphase]; rintro ⟨⟩) (by rw [hphase]; rintro _ ⟨⟩)
      unfold SocketPoll.readWakeup
      exact .of_notMem hnone
    case h_2 => exact .beginHandling h.polled
  | drain =>
    simp only [SocketPoll.step] at hs
    split at hs <;> cases hs
    case h_1 hphase =>
      refine .of_notMem ?_
      intro hmem
      obtain hmem | hmem := List.mem_append.1 hmem
      · exact h.before (by rw [hphase]; rintro ⟨⟩) (by rw [hphase]; rintro ⟨⟩) (by rw [hphase]; rintro _ ⟨⟩) hmem
      · obtain ⟨socket, -, hnone⟩ := List.mem_map.1 hmem
        exact Option.some_ne_none socket hnone
  | invokeNext =>
    simp only [SocketPoll.step] at hs
    split at hs <;> cases hs
    show Cleared p.invokeNext
    unfold SocketPoll.invokeNext
    split
    · dsimp only
      split <;> exact h.congr rfl rfl rfl
    · exact .late h.polled (.inr (.inl rfl))
  | transferNext toPollExists =>
    simp only [SocketPoll.step] at hs
    split at hs <;> cases hs
    case h_1 t transfers hphase htransfers =>
      cases toPollExists
      · exact h.congr rfl rfl rfl
      · have hp : ∀ i, (({ p with transfers } : SocketPoll).transfer t).poll.pollSockets[i]? = some none →
            i < p.pollFds.length :=
          Cleared.transfer (p := { p with transfers }) h.polled (hpolled true rfl t (by simp [htransfers]))
        obtain ⟨-, hfds, hphase'⟩ := length_transfer { p with transfers } t
        refine .late ?_ (.inr (.inl (hphase'.trans hphase)))
        intro i hi
        exact (hp i hi).trans_eq (congrArg List.length hfds).symm
    case h_2 => exact .beginHandling h.polled
  | handlePoll d =>
    simp only [SocketPoll.step] at hs
    split at hs <;> try cases hs
    case h_1 j hphase =>
      split at hs <;> cases hs
      case isTrue hj =>
        have hloop := hpassing.loop j hphase
        have hindex : p.index < p.pollFds.length := by
          rw [hloop.index]
          exact indexAt_lt hloop.start hj
        obtain ⟨-, -, hfds⟩ := hloop.handleEntry hj (hpassing.length (by rw [hphase]; rfl)) d
        refine .late ?_ (.inr (.inr ⟨j + 1, rfl⟩))
        intro i hi
        rw [hfds]
        exact Cleared.handleEntry h.polled hindex d i hi
  | eraseItems =>
    simp only [SocketPoll.step] at hs
    split at hs <;> try cases hs
    case h_1 j hphase =>
      split at hs <;> cases hs
      case isFalse hj =>
        have hloop := hpassing.loop j hphase
        obtain rfl : j = p.pollFds.length := by
          have := hloop.le
          omega
        exact .of_notMem (h.eraseItems hloop)
  | finish =>
    simp only [SocketPoll.step] at hs
    split at hs <;> cases hs
    exact .of_notMem List.not_mem_nil

end SocketPoll

namespace SocketPolls

variable {st : SocketPolls} {p : SocketPoll}

/-- While each transfer names a socket that the pass polls, a thread that begins a pass has no null pointers. -/
theorem setupPollFds_of_transfers (h : Run.Reachable IsInit step (fun st e => transfersPolled st e = true) st)
    (hp : p ∈ st.polls) (hphase : p.phase = .idle) : p.setupPollFds.isSome = true := by
  have hcleared : ∀ p ∈ st.polls, p.Passing ∧ p.Cleared := by
    refine forall_polls ⟨.outside rfl, .of_notMem List.not_mem_nil⟩ ?_ ?_ h
    · intro st p i e effect hi hp hok hs
      refine ⟨hp.1.step hs, hp.2.step hp.1 hs ?_⟩
      rintro toPollExists rfl t ht k hk
      simp only [transfersPolled, hi, Option.all_some] at hok
      simpa [hk] using (Option.all_eq_true _ _).1 hok t ht
    · intro p socket hp
      have hstart : p.startThread.Passing ∧ p.startThread.Cleared := by
        have hs : p.step 0 .startThread = some { poll := p.startThread } := rfl
        exact ⟨hp.1.step hs, hp.2.step hp.1 hs (by rintro _ ⟨⟩)⟩
      exact ⟨hstart.1.congr rfl rfl rfl rfl rfl rfl rfl, hstart.2.congr rfl rfl rfl⟩
  exact SocketPoll.isSome_setupPollFds
    ((hcleared p hp).2.before (by rw [hphase]; rintro ⟨⟩) (by rw [hphase]; rintro ⟨⟩) (by rw [hphase]; rintro _ ⟨⟩))

/-- A polled socket is transferred, and the pass erases its entry. -/
theorem setupPollFds_of_transfers_one : ∃ st : SocketPolls, ∃ p ∈ st.polls, p.phase = .idle ∧ p.pollSockets = [] ∧
    p.setupPollFds.isSome = true := by
  have hreach := Run.Reachable.of_guarded (fun _ _ h => h) (Run.Reachable.of_run (.start (isInit_replicate 1))
    (show Run.run (Run.guarded step transfersPolled) _ [(0, .startThread), (0, .insertNewSocket), (0, .setupPollFds),
      (0, .ppoll false), (0, .readWakeup), (0, .drain), (0, .invokeNext), (0, .transferNext true),
      (0, .transferSocketTo ⟨0, 0⟩), (0, .setupPollFds), (0, .ppoll false), (0, .readWakeup), (0, .drain),
      (0, .invokeNext), (0, .transferNext true), (0, .transferNext true), (0, .handlePoll .continued),
      (0, .eraseItems)] = some { created := 1, polls := [{
        newCallbacks := [⟨0, some 0⟩], wakeup := 1, phase := .idle, pollFds := [0], itemsErased := 1, visited := [0]
        added := 1 }] } from rfl))
  exact ⟨{ polls := [_] }, _, List.mem_cons_self, rfl, rfl, setupPollFds_of_transfers hreach List.mem_cons_self rfl⟩

/-- Without that, a socket that is inserted and transferred by the same wakeup leaves a null pointer. -/
example : (Run.run step { polls := [{}] } [(0, .startThread), (0, .insertNewSocket), (0, .transferSocketTo ⟨0, 0⟩),
    (0, .setupPollFds), (0, .ppoll false), (0, .readWakeup), (0, .drain), (0, .invokeNext), (0, .transferNext true),
    (0, .transferNext true)]).map (fun st => st.polls.map fun p => (p.phase, p.setupPollFds.isSome)) =
    some [(.idle, false)] := by
  decide

end SocketPolls

end CollaboraOnline
