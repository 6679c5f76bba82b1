import CollaboraOnline.Net.FakeSocket

/-!
# What fake sockets guarantee

Each end of a pair has the records that were written for it and not yet read, and is readable exactly if there are any
or nothing more will come (`EndOk`).  A call that makes a socket ready wakes the threads that wait for it
(`ready_of_call`).
-/

namespace CollaboraOnline

namespace FakeSockets

variable {s s' : FakeSockets} {p : FakeSocketPair} {i : Nat} {k : Bool} {fd : Int} {c : Call}

/-! ### What a call does to a pair -/

inductive PairMove (p : FakeSocketPair) : FakeSocketPair → Prop
  | listen : PairMove p { p with listening := true, connectingFd := none }
  | connecting (connectingFd : Option Nat) : PairMove p { p with connectingFd }
  | accepted : PairMove p (p.set true { p.ends true with isOpen := true })
  | read (k : Bool) (hreadable : (p.ends k).readable = true) : PairMove p (p.set k ((p.ends k).afterRead (p.ends !k)))
  | write (k : Bool) (buf : Record) (hopen : (p.ends k).isOpen = true) : PairMove p (p.set (!k)
      { p.ends !k with
        buffer := (p.ends !k).buffer ++ [buf], readable := true, written := (p.ends !k).written ++ [buf] })
  | shutdown (k : Bool) : PairMove p
      ((p.set k { p.ends k with shutdown := true }).set (!k) { p.ends !k with readable := true })
  | close (k : Bool) : PairMove p
      ((p.set k { p.ends k with isOpen := false, buffer := [], wasClosed := true }).set (!k)
        { p.ends !k with readable := true })
  | markEof (k : Bool) : PairMove p (p.markEof k)

/-- A pair changes. -/
inductive Put (s : FakeSockets) : FakeSockets → Prop
  | put {i : Nat} {p p' : FakeSocketPair} (hp : s.fds[i]? = some p) (hmove : PairMove p p') : Put s (s.put i p')

theorem locate_eq (h : s.locate fd = .ok (i, k, p)) : s.fds[i]? = some p := by
  unfold locate at h
  split at h
  · cases h
  · split at h
    · cases h
    · cases h
      assumption

theorem pendingActivity_cases (fds : List FakeSocketPair) : (pendingActivity fds).2 = fds ∨
    ∃ (i : Nat) (p : FakeSocketPair) (k : Bool), fds[i]? = some p ∧
    (pendingActivity fds).2 = fds.set i (p.markEof k) := by
  induction fds with
  | nil => exact .inl rfl
  | cons p fds ih =>
    unfold pendingActivity
    split
    · split
      · exact .inr ⟨0, p, false, rfl, rfl⟩
      · exact .inl rfl
    · split
      · split
        · exact .inr ⟨0, p, true, rfl, rfl⟩
        · exact .inl rfl
      · obtain heq | ⟨i, q, k, hq, heq⟩ := ih
        · exact .inl (congrArg _ heq)
        · exact .inr ⟨i + 1, q, k, hq, congrArg _ heq⟩

/-- A call that succeeds makes a new pair, or changes pairs in these ways. -/
theorem call_cases (h : s.call c = some (.ok s')) :
    s' = s.fakeSocketSocket ∨ s' = s.fakeSocketPipe2 ∨ Relation.ReflTransGen Put s s' := by
  cases c with
  | socket =>
    cases h
    exact .inl rfl
  | pipe2 =>
    cases h
    exact .inr (.inl rfl)
  | listen fd =>
    simp only [call, fakeSocketListen, bind, Except.bind, Option.some.injEq] at h
    split at h <;> try cases h
    case h_2 r hr =>
      obtain ⟨i, k, p⟩ := r
      split_ifs at h
      cases h
      exact .inr (.inr (.single (.put (locate_eq hr) .listen)))
  | connect fd1 fd2 =>
    simp only [call, fakeSocketConnect, bind, Except.bind, Option.some.injEq] at h
    split at h <;> try cases h
    case h_2 r hr =>
      split at h <;> try cases h
      case h_2 r' hr' =>
        split_ifs at h
        cases h
        exact .inr (.inr (.single (.put (locate_eq hr') (.connecting _))))
  | accept4 fd =>
    simp only [call, fakeSocketAccept4, bind, Except.bind] at h
    split at h
    case h_2 => cases h
    case h_1 r hr =>
      split at hr <;> try cases hr
      case h_2 r' hr' =>
        obtain ⟨i, k, p⟩ := r'
        split_ifs at hr
        dsimp only at hr
        split at hr
        · cases hr
          cases h
        · cases hr
          simp only [Option.map_map, Option.map_eq_some_iff, Function.comp_apply, Except.ok.injEq] at h
          obtain ⟨q, hq, rfl⟩ := h
          exact .inr (.inr (.tail (.single (.put (locate_eq hr') (.connecting none))) (.put hq .accepted)))
  | read fd nbytes =>
    simp only [call, fakeSocketRead, bind, Except.bind, Option.some.injEq] at h
    split at h <;> try cases h
    case h_2 r hr =>
      obtain ⟨i, k, p⟩ := r
      dsimp only at h
      split_ifs at h with hopen hshutdown hreadable hshort
      · cases h
      · cases h
        exact .inr (.inr .refl)
      · cases h
      · cases h
      · cases h
        exact .inr (.inr (.single (.put (locate_eq hr) (.read k (by simpa using hreadable)))))
  | write fd buf =>
    simp only [call, fakeSocketWrite, bind, Except.bind, Option.some.injEq] at h
    split at h <;> try cases h
    case h_2 r hr =>
      obtain ⟨i, k, p⟩ := r
      dsimp only at h
      split_ifs at h with hopen
      cases h
      exact .inr (.inr (.single (.put (locate_eq hr) (.write k buf (by simpa using hopen)))))
  | shutdown fd =>
    simp only [call, fakeSocketShutdown, bind, Except.bind, Option.some.injEq] at h
    split at h <;> try cases h
    case h_2 r hr =>
      obtain ⟨i, k, p⟩ := r
      dsimp only at h
      split_ifs at h
      cases h
      exact .inr (.inr (.single (.put (locate_eq hr) (.shutdown k))))
  | close fd =>
    simp only [call, fakeSocketClose, bind, Except.bind, Option.some.injEq] at h
    split at h <;> try cases h
    case h_2 r hr =>
      obtain ⟨i, k, p⟩ := r
      dsimp only at h
      split_ifs at h
      cases h
      exact .inr (.inr (.single (.put (locate_eq hr) (.close k))))
  | hasAnyPendingActivity =>
    cases h
    obtain heq | ⟨i, p, k, hp, heq⟩ := pendingActivity_cases s.fds
    · refine .inr (.inr ?_)
      rw [show s.fakeSocketHasAnyPendingActivityGlobal.2 = s from congrArg FakeSockets.mk heq]
    · refine .inr (.inr (.single ?_))
      rw [show s.fakeSocketHasAnyPendingActivityGlobal.2 = s.put i (p.markEof k) from congrArg FakeSockets.mk heq]
      exact .put hp (.markEof k)

/-- What new pairs have and calls keep, all pairs have in every run. -/
theorem Reachable.forall_pairs {inv : FakeSocketPair → Prop} (hsocket : inv { ends := fun k => { isOpen := !k } })
    (hpipe2 : inv { ends := fun _ => { isOpen := true } }) (hmove : ∀ p p', inv p → PairMove p p' → inv p')
    (h : Reachable s) : ∀ p ∈ s.fds, inv p := by
  refine h.invariant (fun s => ∀ p ∈ s.fds, inv p) ?_ ?_
  · rintro s rfl p hp
    cases hp
  · intro s c s' _ ih _ hs
    obtain ⟨r, hr, rfl⟩ := Option.map_eq_some_iff.1 hs
    cases r with
    | error => exact ih
    | ok s' =>
      obtain rfl | rfl | hput := call_cases hr
      · intro p hp
        obtain hp | hp := List.mem_append.1 hp
        · exact ih p hp
        · rw [List.mem_singleton.1 hp]
          exact hsocket
      · intro p hp
        obtain hp | hp := List.mem_append.1 hp
        · exact ih p hp
        · rw [List.mem_singleton.1 hp]
          exact hpipe2
      · clear hr hs
        induction hput with
        | refl => exact ih
        | tail _ hput ih' =>
          obtain ⟨hp, hm⟩ := hput
          intro q hq
          obtain hq | rfl := List.mem_or_eq_of_mem_set hq
          · exact ih' q hq
          · exact hmove _ _ (ih' _ (List.mem_of_getElem? hp)) hm

/-! ### Records -/

/-- An end of a pair, and its peer. -/
structure EndOk (e peer : FakeSocketEnd) : Prop where
  order : (e.received ++ e.buffer).Sublist e.written
  all : e.wasClosed = false → e.received ++ e.buffer = e.written
  buffered : e.buffer ≠ [] → e.readable = true
  gone : peer.shutdown = true ∨ peer.wasClosed = true ∧ peer.isOpen = false → e.readable = true
  readable : e.readable = true → e.buffer ≠ [] ∨ peer.shutdown = true ∨ peer.wasClosed = true ∨ e.wasClosed = true
  /-- Records come from an end that is or was open. -/
  writer : e.buffer ≠ [] → peer.isOpen = true ∨ peer.wasClosed = true

variable {e peer e' peer' : FakeSocketEnd}

theorem EndOk.fresh (isOpen peerOpen : Bool) : EndOk { isOpen } { isOpen := peerOpen } := by
  constructor <;> simp

/-- `isOpen` and `eofDetected` of an end do not matter for itself. -/
theorem EndOk.congr (h : EndOk e peer) (hreceived : e'.received = e.received) (hbuffer : e'.buffer = e.buffer)
    (hwritten : e'.written = e.written) (hreadable : e'.readable = e.readable)
    (hclosed : e'.wasClosed = e.wasClosed) : EndOk e' peer := by
  constructor
  · rw [hreceived, hbuffer, hwritten]
    exact h.order
  · rw [hclosed, hreceived, hbuffer, hwritten]
    exact h.all
  · rw [hbuffer, hreadable]
    exact h.buffered
  · rw [hreadable]
    exact h.gone
  · rw [hreadable, hbuffer, hclosed]
    exact h.readable
  · rw [hbuffer]
    exact h.writer

/-- Only its flags matter for the other end. -/
theorem EndOk.congr_peer (h : EndOk e peer) (hshutdown : peer'.shutdown = peer.shutdown)
    (hclosed : peer'.wasClosed = peer.wasClosed) (hopen : peer'.isOpen = peer.isOpen) : EndOk e peer' := by
  constructor
  · exact h.order
  · exact h.all
  · exact h.buffered
  · rw [hshutdown, hclosed, hopen]
    exact h.gone
  · rw [hshutdown, hclosed]
    exact h.readable
  · rw [hopen, hclosed]
    exact h.writer

theorem EndOk.afterRead (h : EndOk e peer) (hreadable : e.readable = true) : EndOk (e.afterRead peer) peer := by
  have hsplit : e.buffer.head?.toList ++ e.buffer.tail = e.buffer := by cases e.buffer <;> rfl
  have hlog : e.received ++ e.buffer.head?.toList ++ e.buffer.tail = e.received ++ e.buffer := by
    rw [List.append_assoc, hsplit]
  have hne : e.buffer.tail ≠ [] → e.buffer ≠ [] := by
    rintro htail hnil
    rw [hnil] at htail
    exact htail rfl
  unfold FakeSocketEnd.afterRead
  dsimp only
  split
  case isTrue hpeer =>
    rw [Bool.or_eq_true, Bool.not_eq_true'] at hpeer
    refine ⟨hlog ▸ h.order, fun hclosed => hlog.trans (h.all hclosed), fun _ => rfl, fun _ => rfl, fun _ => ?_,
      fun htail => h.writer (hne htail)⟩
    obtain hbuffer | hrest := h.readable hreadable
    · obtain hclosed | hshutdown := hpeer
      · obtain hopen | hwas := h.writer hbuffer
        · exact absurd (hclosed.symm.trans hopen) Bool.false_ne_true
        · exact .inr (.inr (.inl hwas))
      · exact .inr (.inl hshutdown)
    · exact .inr hrest
  case isFalse hpeer =>
    rw [Bool.or_eq_true, Bool.not_eq_true', not_or, Bool.not_eq_false, Bool.not_eq_true] at hpeer
    have hgone : ¬ (peer.shutdown = true ∨ peer.wasClosed = true ∧ peer.isOpen = false) := by
      rw [hpeer.1, hpeer.2]
      simp
    split
    case isTrue hempty =>
      have hempty : e.buffer.tail = [] := List.isEmpty_iff.1 hempty
      exact ⟨hlog ▸ h.order, fun hclosed => hlog.trans (h.all hclosed), fun hnil => absurd hempty hnil,
        fun hpeer => absurd hpeer hgone, nofun, fun hnil => absurd hempty hnil⟩
    case isFalse hempty =>
      have htail : e.buffer.tail ≠ [] := fun hnil => hempty (List.isEmpty_iff.2 hnil)
      exact ⟨hlog ▸ h.order, fun hclosed => hlog.trans (h.all hclosed), fun _ => hreadable, fun _ => hreadable,
        fun _ => .inl htail, fun _ => h.writer (hne htail)⟩

theorem EndOk.write (h : EndOk e peer) (hopen : peer.isOpen = true) (buf : Record) :
    EndOk { e with buffer := e.buffer ++ [buf], readable := true, written := e.written ++ [buf] } peer := by
  constructor
  · show (e.received ++ (e.buffer ++ [buf])).Sublist (e.written ++ [buf])
    rw [← List.append_assoc]
    exact h.order.append_right [buf]
  · intro hclosed
    show e.received ++ (e.buffer ++ [buf]) = e.written ++ [buf]
    rw [← List.append_assoc, h.all hclosed]
  · exact fun _ => rfl
  · exact fun _ => rfl
  · exact fun _ => .inl (by simp)
  · exact fun _ => .inl hopen

/-- The peer is shut down or closed. -/
theorem EndOk.eof (h : EndOk e peer) (hflags : peer'.shutdown = true ∨ peer'.wasClosed = true)
    (hwriter : peer.isOpen = true ∨ peer.wasClosed = true → peer'.isOpen = true ∨ peer'.wasClosed = true) :
    EndOk { e with readable := true } peer' := by
  refine ⟨h.order, h.all, fun _ => rfl, fun _ => rfl, fun _ => ?_, fun hne => hwriter (h.writer hne)⟩
  obtain hshutdown | hclosed := hflags
  · exact .inr (.inl hshutdown)
  · exact .inr (.inr (.inl hclosed))

theorem EndOk.close (h : EndOk e peer) :
    EndOk { e with isOpen := false, buffer := [], wasClosed := true } peer := by
  refine ⟨?_, nofun, fun hne => absurd rfl hne, h.gone, fun _ => .inr (.inr (.inr rfl)), fun hne => absurd rfl hne⟩
  show (e.received ++ []).Sublist e.written
  exact (List.append_sublist_append_left _).2 (List.nil_sublist _) |>.trans h.order

def PairOk (p : FakeSocketPair) : Prop := ∀ k, EndOk (p.ends k) (p.ends !k)

theorem PairOk.of_ends (k : Bool) (h : EndOk (p.ends k) (p.ends !k)) (h' : EndOk (p.ends !k) (p.ends k)) :
    PairOk p := by
  intro l
  obtain rfl | rfl : l = k ∨ l = !k := by cases l <;> cases k <;> simp
  · exact h
  · rw [Bool.not_not]
    exact h'

theorem PairOk.other (h : PairOk p) (k : Bool) : EndOk (p.ends !k) (p.ends k) := by
  have hother := h (!k)
  rwa [Bool.not_not] at hother

theorem PairOk.set (h : PairOk p) (k : Bool) {e : FakeSocketEnd} (he : EndOk e (p.ends !k))
    (hshutdown : e.shutdown = (p.ends k).shutdown) (hclosed : e.wasClosed = (p.ends k).wasClosed)
    (hopen : e.isOpen = (p.ends k).isOpen) : PairOk (p.set k e) := by
  refine .of_ends k ?_ ?_
  · rw [FakeSocketPair.set_self, FakeSocketPair.set_not]
    exact he
  · rw [FakeSocketPair.set_self, FakeSocketPair.set_not]
    exact (h.other k).congr_peer hshutdown hclosed hopen

theorem PairOk.move {p' : FakeSocketPair} (h : PairOk p) (hmove : PairMove p p') : PairOk p' := by
  cases hmove with
  | listen | connecting => exact h
  | accepted =>
    refine .of_ends true ?_ ?_
    · rw [FakeSocketPair.set_self, FakeSocketPair.set_not]
      exact (h true).congr rfl rfl rfl rfl rfl
    · rw [FakeSocketPair.set_self, FakeSocketPair.set_not]
      have hother := h.other true
      exact ⟨hother.order, hother.all, hother.buffered,
        fun hgone => hother.gone (hgone.imp_right fun hgone => Bool.noConfusion hgone.2), hother.readable,
          fun _ => .inl rfl⟩
  | read k hreadable =>
    refine h.set k ((h k).afterRead hreadable) ?_ ?_ ?_ <;>
    · unfold FakeSocketEnd.afterRead
      dsimp only
      split_ifs <;> rfl
  | write k buf hopen =>
    have hother := h.other k
    refine h.set (!k) ?_ rfl rfl rfl
    rw [Bool.not_not]
    exact hother.write hopen buf
  | shutdown k =>
    refine .of_ends k ?_ ?_
    · simp only [FakeSocketPair.set_of_not, FakeSocketPair.set_self]
      have hpeer : EndOk (p.ends k) { p.ends !k with readable := true } := (h k).congr_peer rfl rfl rfl
      exact hpeer.congr rfl rfl rfl rfl rfl
    · simp only [FakeSocketPair.set_of_not, FakeSocketPair.set_self]
      exact (h.other k).eof (.inl rfl) id
  | close k =>
    refine .of_ends k ?_ ?_
    · simp only [FakeSocketPair.set_of_not, FakeSocketPair.set_self]
      exact (h k).close.congr_peer rfl rfl rfl
    · simp only [FakeSocketPair.set_of_not, FakeSocketPair.set_self]
      exact (h.other k).eof (.inr rfl) fun _ => .inr rfl
  | markEof k => exact h.set k ((h k).congr rfl rfl rfl rfl rfl) rfl rfl rfl

theorem pairOk_of_reachable (h : Reachable s) (hp : p ∈ s.fds) : PairOk p := by
  refine h.forall_pairs ?_ ?_ (fun _ _ hp hmove => hp.move hmove) p hp
  · intro k
    exact .fresh (!k) (!!k)
  · intro k
    exact .fresh true true

/-- The records that were read at an end and those still to read are among the records that its peer wrote, in their
order, and they are all of these unless the end was closed. -/
theorem records_in_order (h : Reachable s) (hp : p ∈ s.fds) (k : Bool) :
    ((p.ends k).received ++ (p.ends k).buffer).Sublist (p.ends k).written ∧
      ((p.ends k).wasClosed = false → (p.ends k).received ++ (p.ends k).buffer = (p.ends k).written) :=
  ⟨(pairOk_of_reachable h hp k).order, (pairOk_of_reachable h hp k).all⟩

theorem records_in_order_pipe2 : ∃ s, Reachable s ∧ ∃ p ∈ s.fds, (p.ends true).received = [[1]] ∧
    (p.ends true).buffer = [[2, 3]] ∧ ((p.ends true).received ++ (p.ends true).buffer).Sublist (p.ends true).written ∧
      ((p.ends true).wasClosed = false → (p.ends true).received ++ (p.ends true).buffer = (p.ends true).written) := by
  have hreach := Reachable.of_run [.pipe2, .write 0 [1], .write 0 [2, 3], .read 1 10] rfl
  exact ⟨_, hreach, _, List.mem_cons_self, rfl, rfl, records_in_order hreach List.mem_cons_self true⟩

/-- The flag of an end that was never closed, and whose peer was not connected again after it was closed. -/
theorem readable_iff (h : Reachable s) (hp : p ∈ s.fds) {k : Bool} (hclosed : (p.ends k).wasClosed = false)
    (hpeer : (p.ends !k).wasClosed = true → (p.ends !k).isOpen = false) :
    (p.ends k).readable = true ↔
      (p.ends k).buffer ≠ [] ∨ (p.ends !k).shutdown = true ∨ (p.ends !k).wasClosed = true := by
  have hok := pairOk_of_reachable h hp k
  constructor
  · intro hreadable
    obtain hbuffer | hshutdown | hwas | hwas := hok.readable hreadable
    · exact .inl hbuffer
    · exact .inr (.inl hshutdown)
    · exact .inr (.inr hwas)
    · rw [hclosed] at hwas
      cases hwas
  · rintro (hbuffer | hshutdown | hwas)
    · exact hok.buffered hbuffer
    · exact hok.gone (.inl hshutdown)
    · exact hok.gone (.inr ⟨hwas, hpeer hwas⟩)

/-- `fakeSocketPoll` has no other report for an end that is not open; for one that is, it reports input exactly if a
record waits, the peer was shut down or closed, or another socket waits for the listener to accept it. -/
theorem pollin_iff (h : Reachable s) (hfd : s.locate fd = .ok (i, k, p)) (hclosed : (p.ends k).wasClosed = false)
    (hpeer : (p.ends !k).wasClosed = true → (p.ends !k).isOpen = false) (events : PollEvents) :
    ((s.checkForPoll fd events).pollnval = true ↔ (p.ends k).isOpen = false) ∧
      ((s.checkForPoll fd events).pollin = true ↔ events.pollin = true ∧ (p.ends k).isOpen = true ∧
        (((p.ends k).buffer ≠ [] ∨ (p.ends !k).shutdown = true ∨ (p.ends !k).wasClosed = true) ∨
          k = false ∧ p.listening = true ∧ p.connectingFd.isSome = true)) := by
  rw [← readable_iff h (List.mem_of_getElem? (locate_eq hfd)) hclosed hpeer]
  have hpoll : s.checkForPoll fd events = revents p k events := by
    unfold checkForPoll
    rw [hfd]
  rw [hpoll]
  unfold revents
  cases hopen : (p.ends k).isOpen
  · simp
  · simp [and_assoc]

/-- One end has nothing more to read, a listener is connected to, and its other end is not open. -/
theorem pollin_iff_listener : ∃ s, Reachable s ∧
    s.checkForPoll 1 ⟨true, false⟩ = { pollin := true } ∧
    s.checkForPoll 2 ⟨true, false⟩ = { pollin := true } ∧
    s.checkForPoll 3 ⟨true, false⟩ = { pollnval := true } ∧
    ∀ fd ∈ [(1 : Int), 2, 3], ∃ i k p, s.locate fd = .ok (i, k, p) ∧
      ((s.checkForPoll fd ⟨true, false⟩).pollnval = true ↔ (p.ends k).isOpen = false) ∧
      ((s.checkForPoll fd ⟨true, false⟩).pollin = true ↔ true = true ∧ (p.ends k).isOpen = true ∧
        (((p.ends k).buffer ≠ [] ∨ (p.ends !k).shutdown = true ∨ (p.ends !k).wasClosed = true) ∨
          k = false ∧ p.listening = true ∧ p.connectingFd.isSome = true)) := by
  have hreach :=
    Reachable.of_run [.pipe2, .socket, .socket, .write 0 [1], .read 1 10, .close 0, .listen 2, .connect 4 2] rfl
  refine ⟨_, hreach, by decide, by decide, by decide, ?_⟩
  refine List.forall_mem_cons.2 ⟨⟨_, _, _, rfl, ?_⟩, List.forall_mem_cons.2 ⟨⟨_, _, _, rfl, ?_⟩,
    List.forall_mem_cons.2 ⟨⟨_, _, _, rfl, ?_⟩, nofun⟩⟩⟩
  · exact pollin_iff hreach rfl rfl (fun _ => rfl) _
  · exact pollin_iff hreach rfl rfl (by rintro ⟨⟩) _
  · exact pollin_iff hreach rfl rfl (by rintro ⟨⟩) _

/-! ### Sleeping threads -/

/-- Whether a poll set has something to report. -/
def anyReady (s : FakeSockets) (pollfds : List (Int × PollEvents)) : Bool :=
  pollfds.any fun pfd => (s.checkForPoll pfd.1 pfd.2).isReady

/-- A pair of no listener does not get ready by this. -/
theorem isReady_revents {p p' : FakeSocketPair} {events : PollEvents}
    (hopen : ∀ l, (p'.ends l).isOpen = (p.ends l).isOpen)
    (hshutdown : ∀ l, (p'.ends l).shutdown = (p.ends l).shutdown)
    (hreadable : (p'.ends k).readable = true → (p.ends k).readable = true)
    (hlistening : p'.listening = true → p'.connectingFd.isSome = true →
      p.listening = true ∧ p.connectingFd.isSome = true)
    (h : (revents p' k events).isReady = true) : (revents p k events).isReady = true := by
  unfold revents at h ⊢
  rw [hopen] at h
  split
  · rfl
  case isFalse hclosed =>
    rw [if_neg hclosed] at h
    simp only [Revents.isReady, hopen, hshutdown, Bool.or_false, Bool.or_eq_true, Bool.and_eq_true,
      Bool.not_eq_true'] at h ⊢
    obtain (⟨hin, hready | ⟨⟨hk, hl⟩, hc⟩⟩ | hout) | hhup := h
    · exact .inl (.inl ⟨hin, .inl (hreadable hready)⟩)
    · exact .inl (.inl ⟨hin, .inr ⟨⟨hk, (hlistening hl hc).1⟩, (hlistening hl hc).2⟩⟩)
    · exact .inl (.inr hout)
    · exact .inr hhup

theorem isReady_put {p' : FakeSocketPair} (hp : s.fds[i]? = some p) {events : PollEvents}
    (hready : ∀ k, (revents p' k events).isReady = true → (revents p k events).isReady = true)
    (h : ((s.put i p').checkForPoll fd events).isReady = true) : (s.checkForPoll fd events).isReady = true := by
  unfold checkForPoll locate put at h
  unfold checkForPoll locate
  split_ifs at h ⊢ with hneg
  · rfl
  · by_cases hi : i = fd.toNat / 2
    · subst hi
      obtain ⟨hlt, -⟩ := List.getElem?_eq_some_iff.1 hp
      rw [List.getElem?_set_self hlt] at h
      rw [hp]
      exact hready _ h
    · rw [List.getElem?_set_ne hi] at h
      exact h

theorem isReady_append {q : FakeSocketPair} {events : PollEvents}
    (h : (checkForPoll { fds := s.fds ++ [q] } fd events).isReady = true) :
    (s.checkForPoll fd events).isReady = true := by
  unfold checkForPoll locate at h ⊢
  split_ifs at h ⊢ with hneg
  · rfl
  · cases hp : s.fds[fd.toNat / 2]? with
    | none => rfl
    | some p =>
      obtain ⟨hlt, -⟩ := List.getElem?_eq_some_iff.1 hp
      rw [List.getElem?_append_left hlt, hp] at h
      exact h

/-- A call after which a socket is ready, and that does not notify, found it ready. -/
theorem ready_of_call (hc : notifies c = false) (h : s.call c = some (.ok s')) {events : PollEvents}
    (hready : (s'.checkForPoll fd events).isReady = true) : (s.checkForPoll fd events).isReady = true := by
  cases c with
  | connect | accept4 | write | shutdown | close => cases hc
  | socket | pipe2 =>
    cases h
    exact isReady_append hready
  | listen fd' =>
    simp only [call, fakeSocketListen, bind, Except.bind, Option.some.injEq] at h
    split at h <;> try cases h
    case h_2 r hr =>
      obtain ⟨i, k, p⟩ := r
      dsimp only at h
      split_ifs at h
      cases h
      refine isReady_put (locate_eq hr) (fun k h => ?_) hready
      refine isReady_revents ?_ ?_ ?_ ?_ h
      · exact fun _ => rfl
      · exact fun _ => rfl
      · exact id
      · exact fun _ hsome => Bool.noConfusion hsome
  | read fd' nbytes =>
    simp only [call, fakeSocketRead, bind, Except.bind, Option.some.injEq] at h
    split at h <;> try cases h
    case h_2 r hr =>
      obtain ⟨i, k, p⟩ := r
      dsimp only at h
      split_ifs at h with hopen hshutdown hreadable hshort
      · cases h
      · cases h
        exact hready
      · cases h
      · cases h
      · cases h
        have hset : ∀ l, ((p.set k ((p.ends k).afterRead (p.ends !k))).ends l).isOpen = (p.ends l).isOpen ∧
            ((p.set k ((p.ends k).afterRead (p.ends !k))).ends l).shutdown = (p.ends l).shutdown ∧
            (((p.set k ((p.ends k).afterRead (p.ends !k))).ends l).readable = true → (p.ends l).readable = true) := by
          intro l
          obtain rfl | rfl : l = k ∨ l = !k := by cases l <;> cases k <;> simp
          · rw [FakeSocketPair.set_self]
            unfold FakeSocketEnd.afterRead
            dsimp only
            split_ifs
            · exact ⟨rfl, rfl, fun _ => by simpa using hreadable⟩
            · exact ⟨rfl, rfl, nofun⟩
            · exact ⟨rfl, rfl, id⟩
          · rw [FakeSocketPair.set_not]
            exact ⟨rfl, rfl, id⟩
        refine isReady_put (locate_eq hr) (fun l h => ?_) hready
        exact isReady_revents (fun l => (hset l).1) (fun l => (hset l).2.1) (hset l).2.2
          (fun hl hsome => ⟨hl, hsome⟩) h
  | hasAnyPendingActivity =>
    cases h
    obtain heq | ⟨i, p, k, hp, heq⟩ := pendingActivity_cases s.fds
    · rwa [show s.fakeSocketHasAnyPendingActivityGlobal.2 = s from congrArg FakeSockets.mk heq] at hready
    · rw [show s.fakeSocketHasAnyPendingActivityGlobal.2 = s.put i (p.markEof k) from
        congrArg FakeSockets.mk heq] at hready
      have hset : ∀ l, ((p.markEof k).ends l).isOpen = (p.ends l).isOpen ∧
          ((p.markEof k).ends l).shutdown = (p.ends l).shutdown ∧
          ((p.markEof k).ends l).readable = (p.ends l).readable := by
        intro l
        unfold FakeSocketPair.markEof
        obtain rfl | rfl : l = k ∨ l = !k := by cases l <;> cases k <;> simp
        · rw [FakeSocketPair.set_self]
          exact ⟨rfl, rfl, rfl⟩
        · rw [FakeSocketPair.set_not]
          exact ⟨rfl, rfl, rfl⟩
      refine isReady_put hp (fun l h => ?_) hready
      exact isReady_revents (fun l => (hset l).1) (fun l => (hset l).2.1) (fun h => (hset l).2.2 ▸ h)
        (fun hl hsome => ⟨hl, hsome⟩) h

end FakeSockets

/-- The threads that use the sockets. -/
structure FakeSocketThreads where
  sockets : FakeSockets := {}
  /-- The poll sets of the threads that wait in `fakeSocketPoll`. -/
  sleeping : List (List (Int × FakeSockets.PollEvents)) := []

namespace FakeSocketThreads

inductive Event
  | call (c : FakeSockets.Call)
  /-- A thread enters `fakeSocketPoll`, or wakes up in it. -/
  | poll (pollfds : List (Int × FakeSockets.PollEvents))
  /-- Or its time is over. -/
  | timeout (i : Nat)

def step (t : FakeSocketThreads) : Event → Option FakeSocketThreads
  | .call c => (t.sockets.call c).map fun
    | .ok sockets => { sockets, sleeping := if FakeSockets.notifies c then [] else t.sleeping }
    | .error _ => t
  | .poll pollfds => some (if t.sockets.anyReady pollfds then t else { t with sleeping := t.sleeping ++ [pollfds] })
  | .timeout i => some { t with sleeping := t.sleeping.eraseIdx i }

abbrev Reachable : FakeSocketThreads → Prop := Run.Reachable (· = {}) step Run.Any

theorem Reachable.of_run {t : FakeSocketThreads} (es : List Event) (h : Run.run step {} es = some t) : Reachable t :=
  Run.Reachable.of_run (.start rfl) h

/-- No thread sleeps in `fakeSocketPoll` while one of its sockets is ready. -/
theorem no_sleeper_ready {t : FakeSocketThreads} (h : Reachable t) :
    ∀ pollfds ∈ t.sleeping, t.sockets.anyReady pollfds = false := by
  refine h.invariant (fun t => ∀ pollfds ∈ t.sleeping, t.sockets.anyReady pollfds = false) ?_ ?_
  · rintro t rfl pollfds hmem
    cases hmem
  · intro t e t' _ ih _ hs
    cases e with
    | call c =>
      obtain ⟨r, hr, rfl⟩ := Option.map_eq_some_iff.1 hs
      cases r with
      | error => exact ih
      | ok sockets =>
        intro pollfds hmem
        dsimp only at hmem ⊢
        cases hc : FakeSockets.notifies c with
        | true =>
          rw [hc] at hmem
          cases hmem
        | false =>
          rw [hc] at hmem
          have hold := ih pollfds hmem
          simp only [FakeSockets.anyReady, List.any_eq_false, Bool.not_eq_true] at hold ⊢
          intro pfd hpfd
          by_contra hready
          rw [Bool.not_eq_false] at hready
          have := FakeSockets.ready_of_call hc hr hready
          rw [hold pfd hpfd] at this
          cases this
    | poll pollfds =>
      cases hs
      split
      case isTrue => exact ih
      case isFalse hnone =>
        intro pollfds' hmem
        obtain hmem | hmem := List.mem_append.1 hmem
        · exact ih pollfds' hmem
        · rw [List.mem_singleton.1 hmem]
          simpa using hnone
    | timeout i =>
      cases hs
      exact fun pollfds hmem => ih pollfds (List.mem_of_mem_eraseIdx hmem)

/-- A thread that waits for input sleeps until the record is written. -/
theorem no_sleeper_ready_pipe2 : ∃ t, Reachable t ∧ t.sleeping.length = 1 ∧
    ∀ pollfds ∈ t.sleeping, t.sockets.anyReady pollfds = false := by
  have hreach := Reachable.of_run [.call .pipe2, .poll [(1, ⟨true, false⟩)], .call (.write 0 [1]), .call (.read 1 10),
    .poll [(1, ⟨true, false⟩)]] rfl
  exact ⟨_, hreach, rfl, no_sleeper_ready hreach⟩

end FakeSocketThreads

end CollaboraOnline
