import Mathlib
import CollaboraOnline.Net.SocketWakeups

/-!
# Sockets among the polls

A socket that moves from one poll to another is in the callback that `execute` has added to the other one, and then in
the new sockets of that poll.  Whatever the threads do, each socket is in exactly one of these places, or it has been
destroyed (`sockets_once`), so no two polls ever poll the same one.
-/

namespace CollaboraOnline

/-- One element of a list is replaced. -/
theorem sum_map_set {α : Type*} {l : List α} {i : Nat} {a : α} (f : α → Nat) (h : l[i]? = some a) (b : α) :
    ((l.set i b).map f).sum + f a = (l.map f).sum + f b := by
  induction l generalizing i with
  | nil => cases h
  | cons c l ih =>
    cases i with
    | zero =>
      obtain rfl : c = a := by simpa using h
      simp only [List.set_cons_zero, List.map_cons, List.sum_cons]
      omega
    | succ i =>
      have ih := ih (i := i) (by simpa using h)
      simp only [List.set_cons_succ, List.map_cons, List.sum_cons]
      omega

namespace SocketPoll

variable {p q : SocketPoll} {fresh : Nat} {e : PollEvent} {effect : PollEffect}

/-- The sockets that callbacks are to insert. -/
def arriving (p : SocketPoll) : List Nat := (p.invoke ++ p.newCallbacks).filterMap CallbackFn.arrives

/-- The sockets a poll has, in all places. -/
def held (p : SocketPoll) : List Nat := p.sockets ++ p.newSockets ++ p.arriving

theorem count_set_none {l : List (Option Nat)} {i socket : Nat} (h : l[i]? = some (some socket)) (x : Nat) :
    (l.set i none).reduceOption.count x + [socket].count x = l.reduceOption.count x := by
  induction l generalizing i with
  | nil => cases h
  | cons a l ih =>
    cases i with
    | zero =>
      obtain rfl : a = some socket := by simpa using h
      simp [List.reduceOption_cons_of_none, List.reduceOption_cons_of_some, List.count_cons]
    | succ i =>
      have ih := ih (i := i) (by simpa using h)
      cases a with
      | none => simpa [List.reduceOption_cons_of_none] using ih
      | some a =>
        simp only [List.set_cons_succ, List.reduceOption_cons_of_some, List.count_cons] at ih ⊢
        omega

theorem reduceOption_filter (l : List (Option Nat)) : (l.filter Option.isSome).reduceOption = l.reduceOption := by
  induction l with
  | nil => rfl
  | cons a l ih =>
    cases a with
    | none => simpa [List.reduceOption_cons_of_none] using ih
    | some a => simpa [List.reduceOption_cons_of_some] using ih

/-- Where the sockets are does not change. -/
theorem count_held_congr (hsockets : q.pollSockets = p.pollSockets) (hnew : q.newSockets = p.newSockets)
    (hinvoke : q.invoke = p.invoke) (hcallbacks : q.newCallbacks = p.newCallbacks) (x : Nat) :
    q.held.count x = p.held.count x := by
  unfold held sockets arriving
  rw [hsockets, hnew, hinvoke, hcallbacks]

theorem count_held_release {i socket : Nat} (h : p.pollSockets[i]? = some (some socket)) (x : Nat) :
    (p.release i).held.count x + [socket].count x = p.held.count x := by
  have hcount := count_set_none h x
  simp only [held, sockets, release, arriving, List.count_append] at hcount ⊢
  omega

theorem count_held_addCallback (p : SocketPoll) (arrives : Option Nat) (x : Nat) :
    (p.addCallback arrives).held.count x = p.held.count x + arrives.toList.count x := by
  cases arrives with
  | none => simp [held, sockets, arriving, SocketPoll.addCallback, List.filterMap_append]
  | some socket =>
    simp only [held, sockets, arriving, SocketPoll.addCallback, List.filterMap_append, List.count_append,
      Option.toList_some, List.filterMap_cons, List.filterMap_nil]
    omega

theorem count_held_insertNewSocket (p : SocketPoll) (socket x : Nat) :
    (p.insertNewSocket socket).held.count x = p.held.count x + [socket].count x := by
  simp only [held, sockets, arriving, SocketPoll.insertNewSocket, List.count_append]
  omega

theorem count_held_startThread (p : SocketPoll) (x : Nat) : p.startThread.held.count x = p.held.count x := by
  unfold SocketPoll.startThread
  split <;> exact count_held_congr rfl rfl rfl rfl x

theorem count_held_drain (hinvoke : p.invoke = []) (x : Nat) : p.drain.held.count x = p.held.count x := by
  simp only [held, sockets, arriving, SocketPoll.drain, hinvoke, List.reduceOption_append, List.append_nil,
    List.nil_append, List.count_append]
  have hmap : (p.newSockets.map some).reduceOption = p.newSockets := by
    simp [List.reduceOption]
  rw [hmap]

theorem count_held_invokeNext (p : SocketPoll) (x : Nat) : p.invokeNext.held.count x = p.held.count x := by
  unfold SocketPoll.invokeNext
  split
  case h_1 c invoke hinvoke =>
    have hpop : ({ p with invoke, invoked := p.invoked ++ [c.number] } : SocketPoll).held.count x
        + c.arrives.toList.count x = p.held.count x := by
      simp only [held, sockets, arriving, hinvoke, List.count_append, List.cons_append]
      cases harrives : c.arrives with
      | none =>
        rw [List.filterMap_cons_none harrives]
        simp
      | some socket =>
        rw [List.filterMap_cons_some harrives, List.count_cons]
        simp only [Option.toList_some, List.count_cons, List.count_nil]
        omega
    dsimp only
    split
    case h_1 socket harrives =>
      rw [harrives] at hpop
      rw [count_held_insertNewSocket]
      exact hpop
    case h_2 harrives =>
      rw [harrives] at hpop
      exact hpop
  case h_2 => exact count_held_congr rfl rfl rfl rfl x

theorem count_held_beginHandling (p : SocketPoll) (x : Nat) : p.beginHandling.held.count x = p.held.count x := by
  unfold SocketPoll.beginHandling
  dsimp only
  split <;> exact count_held_congr rfl rfl rfl rfl x

/-- A socket whose disposition is executed is with its callback. -/
def PollEffect.moved (effect : PollEffect) : List Nat := effect.executed.toList.map Prod.fst

theorem count_held_transfer (p : SocketPoll) (t : SocketTransfer) (x : Nat) :
    (p.transfer t).poll.held.count x + (PollEffect.moved (p.transfer t)).count x + (p.transfer t).ended.count x =
      p.held.count x := by
  unfold SocketPoll.transfer
  split
  case h_1 i hi =>
    have hget : p.pollSockets[i]? = some (some t.socket) := by
      obtain ⟨hlt, heq, -⟩ := List.findIdx?_eq_some_iff_getElem.1 hi
      rw [List.getElem?_eq_getElem hlt]
      exact congrArg some (by simpa using heq)
    exact count_held_release hget x
  case h_2 => rfl

theorem count_held_handleEntry (p : SocketPoll) (d : Disposition) (x : Nat) :
    (p.handleEntry d).poll.held.count x + (PollEffect.moved (p.handleEntry d)).count x +
      (p.handleEntry d).ended.count x = p.held.count x := by
  unfold SocketPoll.handleEntry
  split
  · rfl
  · rfl
  case h_3 socket hget =>
    split
    · have hrelease := count_held_release hget x
      cases d with
      | continued => rfl
      | closed => exact hrelease
      | transfer toPoll => exact hrelease
    · rfl

/-- The sockets that a step brings, where `fresh` is the next one. -/
def PollEvent.inserted (fresh : Nat) : PollEvent → List Nat
  | .insertNewSocket => [fresh]
  | _ => []

/-- A step creates, moves or destroys the sockets it says. -/
theorem count_held_step (hinvoke : p.phase ≠ .invoking → p.invoke = []) (h : p.step fresh e = some effect) (x : Nat) :
    effect.poll.held.count x + (PollEffect.moved effect).count x + effect.ended.count x =
      p.held.count x + (PollEvent.inserted fresh e).count x := by
  cases e with
  | addCallback =>
    cases h
    exact count_held_addCallback p none x
  | insertNewSocket =>
    cases h
    exact count_held_insertNewSocket p fresh x
  | transferSocketTo | wakeup | setStop =>
    cases h
    exact count_held_congr rfl rfl rfl rfl x
  | clearCallbacks =>
    cases h
    simp only [held, sockets, arriving, SocketPoll.clearCallbacks, PollEffect.moved, PollEvent.inserted,
      Option.toList_none, List.map_nil, List.count_nil, List.append_nil, List.filterMap_append, List.count_append]
    omega
  | startThread =>
    cases h
    exact count_held_startThread p x
  | joinThread | ppoll | justPoll =>
    simp only [step] at h
    split at h <;> cases h
    exact count_held_congr rfl rfl rfl rfl x
  | setupPollFds =>
    simp only [step] at h
    split at h <;> try cases h
    simp only [SocketPoll.setupPollFds, Option.map_map, Option.map_eq_some_iff, Function.comp_apply] at h
    obtain ⟨fds, -, rfl⟩ := h
    exact count_held_congr rfl rfl rfl rfl x
  | readWakeup =>
    simp only [step] at h
    split at h <;> cases h
    · unfold SocketPoll.readWakeup
      exact count_held_congr (by simp only) (by simp only) (by simp only) (by simp only) x
    · exact count_held_beginHandling p x
  | drain =>
    simp only [step] at h
    split at h <;> cases h
    case h_1 hphase => exact count_held_drain (hinvoke (by rw [hphase]; rintro ⟨⟩)) x
  | invokeNext =>
    simp only [step] at h
    split at h <;> cases h
    exact count_held_invokeNext p x
  | transferNext toPollExists =>
    simp only [step] at h
    split at h <;> cases h
    case h_1 t transfers hphase _ =>
      cases toPollExists
      · exact count_held_congr rfl rfl rfl rfl x
      · exact count_held_transfer { p with transfers } t x
    case h_2 => exact count_held_beginHandling p x
  | handlePoll d =>
    simp only [step] at h
    split at h <;> try cases h
    split at h <;> cases h
    exact count_held_handleEntry p d x
  | eraseItems =>
    simp only [step] at h
    split at h <;> try cases h
    split at h <;> cases h
    have hsockets : p.eraseItems.sockets = p.sockets := by
      unfold SocketPoll.eraseItems sockets
      dsimp only
      split
      · exact reduceOption_filter _
      · rfl
    show p.eraseItems.held.count x = p.held.count x
    unfold held
    rw [hsockets]
    rfl
  | finish =>
    simp only [step] at h
    split at h <;> cases h
    simp only [held, sockets, arriving, SocketPoll.removeSockets, PollEffect.moved, PollEvent.inserted,
      Option.toList_none, List.map_nil, List.count_nil, List.reduceOption_nil, List.nil_append, List.count_append]
    omega

end SocketPoll

namespace SocketPolls

variable {st st' : SocketPolls}

/-- How many places have the socket. -/
def holders (polls : List SocketPoll) (x : Nat) : Nat := (polls.map fun p => p.held.count x).sum

theorem holders_execute {polls polls' : List SocketPoll} {moved : Option (Nat × Nat)}
    (h : execute polls moved = some polls') (x : Nat) :
    holders polls' x = holders polls x + (moved.toList.map Prod.fst).count x := by
  unfold execute at h
  split at h
  case h_1 =>
    obtain rfl := Option.some.inj h
    rfl
  case h_2 socket toPoll =>
    obtain ⟨q, hq, rfl⟩ := Option.map_eq_some_iff.1 h
    have hset := sum_map_set (fun p : SocketPoll => p.held.count x) hq (q.startThread.addCallback (some socket))
    rw [SocketPoll.count_held_addCallback, SocketPoll.count_held_startThread] at hset
    simp only [holders, Option.toList_some, List.map_cons, List.map_nil] at hset ⊢
    omega

theorem holders_step {e : Nat × PollEvent} (h : Reachable st) (hs : st.step e = some st') (x : Nat) :
    holders st'.polls x + st'.ended.count x =
      holders st.polls x + st.ended.count x + (SocketPoll.PollEvent.inserted st.created e.2).count x := by
  obtain ⟨p, effect, hp, heffect, hpolls, hended, -⟩ := step_cases hs
  have hinvoke := (numbered_of_reachable h (List.mem_of_getElem? hp)).invoke
  have hlocal := SocketPoll.count_held_step hinvoke heffect x
  have hset := sum_map_set (fun p : SocketPoll => p.held.count x) hp effect.poll
  have hexecute := holders_execute hpolls x
  unfold SocketPoll.PollEffect.moved at hlocal
  rw [hexecute, hended, List.count_append]
  unfold holders at hset ⊢
  omega

theorem custody (h : Reachable st) (x : Nat) :
    holders st.polls x + st.ended.count x = if x < st.created then 1 else 0 := by
  refine h.invariant (fun st => holders st.polls x + st.ended.count x = if x < st.created then 1 else 0) ?_ ?_
  · intro st ⟨hpolls, hcreated, hended⟩
    have hnone : ∀ n ∈ st.polls.map fun p => p.held.count x, n = 0 := by
      intro n hn
      obtain ⟨p, hp, rfl⟩ := List.mem_map.1 hn
      rw [hpolls p hp]
      rfl
    rw [hcreated, hended, holders, List.sum_eq_zero_iff_forall_eq_nat.2 hnone]
    rfl
  · intro st e st' hreach ih _ hs
    have hstep := holders_step hreach hs x
    obtain ⟨-, -, -, -, -, -, hcreated⟩ := step_cases hs
    rw [hstep, ih, hcreated]
    obtain ⟨i, e⟩ := e
    cases e with
    | insertNewSocket =>
      simp only [SocketPoll.PollEvent.inserted, List.count_singleton, beq_iff_eq]
      split_ifs <;> omega
    | _ => rfl

/-- Each socket that was ever inserted is in exactly one place of one poll, or has been destroyed once. -/
theorem sockets_once (h : Reachable st) :
    (st.polls.flatMap SocketPoll.held ++ st.ended).Perm (List.range st.created) := by
  rw [List.perm_iff_count]
  intro x
  rw [List.count_append, List.count_flatMap]
  refine (custody h x).trans ?_
  rw [List.Nodup.count List.nodup_range]
  simp only [List.mem_range]

/-- The socket is on its way to the second poll. -/
theorem sockets_once_transfer : ∃ st, Reachable st ∧ st.created = 1 ∧ st.polls.map SocketPoll.held = [[], [0]] ∧
    (st.polls.flatMap SocketPoll.held ++ st.ended).Perm (List.range st.created) := by
  have hreach := Reachable.of_run 2 [(0, .startThread), (0, .insertNewSocket), (0, .setupPollFds), (0, .ppoll false),
    (0, .readWakeup), (0, .drain), (0, .invokeNext), (0, .transferNext true), (0, .setupPollFds), (0, .ppoll false),
    (0, .readWakeup), (0, .handlePoll (.transfer 1))] rfl
  exact ⟨_, hreach, rfl, rfl, sockets_once hreach⟩

end SocketPolls

end CollaboraOnline
