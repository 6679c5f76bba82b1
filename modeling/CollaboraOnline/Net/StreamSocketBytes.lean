import CollaboraOnline.Net.StreamSocket

/-!
# What a stream socket does with its bytes

`handlePoll` and all calls of a socket are made of a few moves (`Moves`), and each of them keeps the order of the
bytes.
-/

namespace CollaboraOnline

namespace Net

namespace StreamSocket

/-- What a call is made of. -/
inductive Move (s : StreamSocket) : StreamSocket → Prop
  | send (data : List UInt8) : Move s { s with sent := s.sent ++ data, outBuffer := s.outBuffer ++ data }
  | wrote (n : Nat) : Move s (s.wrote n)
  | receive (data : List UInt8) (hinput : s.ignoreInput = false) :
      Move s { s with received := s.received ++ data, inBuffer := s.inBuffer ++ data }
  | take (count : Nat) : Move s (s.eraseFirstInputBytes count)
  | compact (inBuffer : List UInt8) (hsub : inBuffer.Sublist s.inBuffer) :
      Move s { s with inBuffer, removed := s.removed + (s.inBuffer.length - inBuffer.length) }
  | ignore : Move s { s.eraseFirstInputBytes s.inBuffer.length with ignoreInput := true }
  | flags (inputProcessingEnabled shutdownSignalled : Bool) :
    Move s { s with inputProcessingEnabled, shutdownSignalled }
  | dispose (disposition : Disposition) : Move s { s with disposition }
  | disconnect (hdone : s.doneDisconnect = false) (hhandler : s.socketHandler = true) :
      Move s { s with doneDisconnect := true, disconnects := s.disconnects + 1 }
  | disconnectNone (hdone : s.doneDisconnect = false) (hhandler : s.socketHandler = false) :
      Move s { s with doneDisconnect := true }
  | closeAll : Move s s.closeAllSockets
  | shutdown (cause : Cause) (hopen : s.isShutdown = false) (hflushed : cause = .signalled → s.outBuffer = []) :
      Move s { s with isShutdown := true, cause := some (cause, s.sent) }
  | resetHandler (hdone : s.doneDisconnect = true) : Move s { s with socketHandler := false }
  | destroy (hdone : s.doneDisconnect = true) : Move s { s with destroyed := true }

abbrev Moves : StreamSocket → StreamSocket → Prop := Relation.ReflTransGen Move

variable {s s' : StreamSocket}

theorem Moves.writeOutgoingData (s : StreamSocket) (results : List WriteResult) :
    Moves s (s.writeOutgoingData results).2 := by
  induction s, results using StreamSocket.writeOutgoingData.induct with
  | case1 s => exact .refl
  | case2 s results ih =>
    rw [StreamSocket.writeOutgoingData]
    exact ih
  | case3 s e results he =>
    cases e with
    | EINTR => exact absurd rfl he
    | EAGAIN => exact .refl
    | EPIPE => exact .refl
    | ECONNRESET => exact .refl
    | other => exact .refl
  | case4 s n results len hpos hempty =>
    rw [StreamSocket.writeOutgoingData, if_pos hpos, if_pos hempty]
    exact .single (.wrote _)
  | case5 s n results len hpos hmore ih =>
    rw [StreamSocket.writeOutgoingData, if_pos hpos, if_neg hmore]
    exact .head (.wrote _) ih
  | case6 s n results len hpos =>
    rw [StreamSocket.writeOutgoingData, if_neg hpos]

theorem Moves.send (s : StreamSocket) (data : List UInt8) (doFlush : Option (List WriteResult)) :
    Moves s (s.send data doFlush) := by
  unfold StreamSocket.send
  split
  · exact .refl
  · cases doFlush with
    | none => exact .single (.send data)
    | some results => exact .head (.send data) (Moves.writeOutgoingData _ results)

theorem Moves.attemptWrites (s : StreamSocket) (results : List WriteResult) : Moves s (s.attemptWrites results) := by
  unfold StreamSocket.attemptWrites
  split
  · exact .refl
  · exact Moves.writeOutgoingData s results

theorem Moves.setShutdown (s : StreamSocket) {cause : Cause} (hflushed : cause = .signalled → s.outBuffer = []) :
    Moves s (s.setShutdown cause) := by
  unfold StreamSocket.setShutdown
  split
  · exact .refl
  · rename_i hopen
    exact .single (.shutdown cause (Bool.eq_false_iff.2 hopen) hflushed)

theorem Moves.shutdownConnection (s : StreamSocket) {cause : Cause}
    (hflushed : cause = .signalled → s.outBuffer = []) : Moves s (s.shutdownConnection cause) := by
  unfold StreamSocket.shutdownConnection
  split
  · exact .refl
  · exact Moves.setShutdown s hflushed

theorem Moves.signal (s : StreamSocket) : Moves s { s with shutdownSignalled := true } :=
  .single (.flags s.inputProcessingEnabled true)

theorem Moves.compactChunks (s : StreamSocket) (request : CollaboraOnline.StreamSocket.Request) :
    Moves s (s.compactChunks request) := by
  unfold StreamSocket.compactChunks
  split
  · rename_i hframed
    exact .single (.compact _ (CollaboraOnline.StreamSocket.framed_sublist hframed))
  · exact .refl
  · exact .refl

theorem Moves.call (s : StreamSocket) (c : Call) : Moves s (s.call c) := by
  cases c with
  | send data doFlush => exact Moves.send s data doFlush
  | attemptWrites results => exact Moves.attemptWrites s results
  | eraseFirstInputBytes count => exact .single (.take count)
  | compactChunks request => exact Moves.compactChunks s request
  | ignoreInput => exact .single .ignore
  | enableProcessInput enable => exact .single (.flags enable s.shutdownSignalled)
  | asyncShutdown => exact Moves.signal s
  | shutdownConnection => exact Moves.shutdownConnection s (by rintro ⟨⟩)

theorem Moves.calls (s : StreamSocket) (cs : List Call) : Moves s (s.calls cs) := by
  induction cs generalizing s with
  | nil => exact .refl
  | cons c cs ih => exact (Moves.call s c).trans (ih (s.call c))

theorem Moves.ensureDisconnected (s : StreamSocket) {cause : Cause} (hcause : cause ≠ .signalled) (cs : List Call) :
    Moves s (s.ensureDisconnected cause cs) := by
  unfold StreamSocket.ensureDisconnected
  split
  · exact .refl
  case isFalse hdone =>
    have hdone := Bool.eq_false_iff.2 hdone
    dsimp only
    split
    case isTrue hhandler =>
      refine .head (.disconnect hdone hhandler) ((Moves.calls _ cs).trans ?_)
      split
      · exact .refl
      · exact (Moves.signal _).trans (Moves.shutdownConnection _ fun h => absurd h hcause)
    case isFalse hhandler => exact .single (.disconnectNone hdone (Bool.eq_false_iff.2 hhandler))

theorem Moves.drain (s : StreamSocket) (hinput : s.ignoreInput = false) (results : List ReadResult) :
    Moves s (readIncomingData.drain s results).2 := by
  induction s, results using readIncomingData.drain.induct with
  | case1 s => exact .refl
  | case2 s results ih =>
    rw [readIncomingData.drain]
    exact ih hinput
  | case3 s e results he =>
    cases e with
    | EINTR => exact absurd rfl he
    | EAGAIN => exact .refl
    | EPIPE => exact .refl
    | ECONNRESET => exact .refl
    | other => exact .refl
  | case4 s data results s' hfull ih =>
    rw [readIncomingData.drain, if_pos hfull]
    exact .head (.receive data hinput) (ih hinput)
  | case5 s data results hfull =>
    rw [readIncomingData.drain, if_neg hfull]
    exact .single (.receive data hinput)

theorem Moves.readIncomingData (s : StreamSocket) (results : List ReadResult) :
    Moves s (s.readIncomingData results).2 := by
  unfold StreamSocket.readIncomingData
  split
  · exact .refl
  · rename_i hinput
    exact Moves.drain s (Bool.eq_false_iff.2 hinput) results

theorem Moves.setDisposition (s : StreamSocket) (message : Message) : Moves s (s.setDisposition message) := by
  unfold StreamSocket.setDisposition
  split
  · exact .single (.dispose .closed)
  · exact .single (.dispose (message.disposition.getD s.disposition))

theorem Moves.handleIncoming (s : StreamSocket) (oldSize : Nat) (messages : List Message) :
    Moves s (s.handleIncoming oldSize messages) := by
  induction messages generalizing s oldSize with
  | nil => exact .refl
  | cons message messages ih =>
    rw [StreamSocket.handleIncoming]
    split
    · exact .refl
    · have hmessage := (Moves.calls s message.calls).trans (Moves.setDisposition _ message)
      dsimp only
      split
      · exact hmessage
      · exact hmessage.trans (ih _ _)

theorem Moves.writeRound (s : StreamSocket) (pollOut : Bool) (round : WriteRound) :
    Moves s (s.writeRound pollOut round).2 := by
  have hwrites : Moves s
      (if pollOut && 0 < s.sendBufferSize - s.outBuffer.length then s.calls round.performWrites else s) := by
    split
    · exact Moves.calls s round.performWrites
    · exact .refl
  unfold StreamSocket.writeRound
  refine hwrites.trans ?_
  dsimp only
  generalize (if pollOut && 0 < s.sendBufferSize - s.outBuffer.length then s.calls round.performWrites else s) = t
  split
  · rename_i hflushed
    rw [Bool.and_eq_true, List.isEmpty_iff] at hflushed
    exact Moves.shutdownConnection t fun _ => hflushed.2
  · split
    · have hwritten := Moves.writeOutgoingData t round.results
      split
      · exact hwritten
      · split
        · exact hwritten
        · exact hwritten
    · exact .refl

theorem Moves.writeRounds (s : StreamSocket) (pollOut : Bool) (rounds : List WriteRound) :
    Moves s (s.writeRounds pollOut rounds).2 := by
  induction rounds generalizing s with
  | nil => exact Moves.writeRound s pollOut {}
  | cons round rounds ih =>
    have hround := Moves.writeRound s pollOut round
    rw [StreamSocket.writeRounds]
    split
    · rename_i t heq
      rw [heq] at hround
      exact hround.trans (ih t)
    · rename_i roundEnd t _ heq
      rw [heq] at hround
      exact hround

theorem Moves.close (s : StreamSocket) : Moves s { s with disposition := .closed } :=
  .single (.dispose .closed)

theorem Moves.finishPoll (s : StreamSocket) (closed : Bool) (cs : List Call) : Moves s (s.finishPoll closed cs) := by
  unfold StreamSocket.finishPoll
  split
  · have hdisconnect : Moves s (s.ensureDisconnected .disconnected cs) := Moves.ensureDisconnected s (by rintro ⟨⟩) cs
    exact (hdisconnect.trans (Moves.setShutdown _ (by rintro ⟨⟩))).trans (Moves.close _)
  · split
    · exact .refl
    · exact Moves.close s

theorem Moves.remove (s : StreamSocket) (cs : List Call) : Moves s (s.remove cs) := by
  have hdisconnect : Moves s (s.ensureDisconnected .removal cs) := Moves.ensureDisconnected s (by rintro ⟨⟩) cs
  unfold StreamSocket.remove
  dsimp only
  split
  · exact hdisconnect
  · exact (hdisconnect.trans (Moves.signal _)).trans (Moves.shutdownConnection _ (by rintro ⟨⟩))

theorem Moves.readInput (s : StreamSocket) (i : PollInput) : Moves s (s.readInput i).2 := by
  unfold StreamSocket.readInput
  split
  · exact Moves.readIncomingData s i.reads
  · exact .refl

theorem Moves.handlePoll (s : StreamSocket) (i : PollInput) : Moves s (s.handlePoll i) := by
  have hbegin : Moves s ({ s with disposition := .continued }.calls i.checkTimeout) :=
    .head (.dispose .continued) (Moves.calls _ i.checkTimeout)
  unfold StreamSocket.handlePoll
  refine hbegin.trans ?_
  dsimp only
  generalize { s with disposition := .continued }.calls i.checkTimeout = t
  split
  · exact (Moves.setShutdown t (by rintro ⟨⟩)).trans (Moves.close _)
  split
  · exact Moves.close t
  split
  · exact (Moves.remove t i.onDisconnect).trans (Moves.close _)
  split
  · exact .refl
  have hincoming := (Moves.readInput t i).trans (Moves.handleIncoming _ 0 i.messages)
  split
  · exact hincoming
  · exact (hincoming.trans (Moves.writeRounds _ i.events.pollOut i.rounds)).trans
      (Moves.finishPoll _ _ i.onDisconnect)

theorem Moves.doneDisconnect (h : Moves s s') (hdone : s.doneDisconnect = true) : s'.doneDisconnect = true := by
  induction h with
  | refl => exact hdone
  | tail _ hmove ih =>
    cases hmove with
    | disconnect | disconnectNone => rfl
    | _ => exact ih

theorem doneDisconnect_shutdownConnection (s : StreamSocket) (cause : Cause) :
    (s.shutdownConnection cause).doneDisconnect = s.doneDisconnect := by
  unfold StreamSocket.shutdownConnection StreamSocket.setShutdown
  split
  · rfl
  · split <;> rfl

theorem doneDisconnect_ensureDisconnected (s : StreamSocket) (cause : Cause) (cs : List Call) :
    (s.ensureDisconnected cause cs).doneDisconnect = true := by
  unfold ensureDisconnected
  split
  · assumption
  · dsimp only
    split
    · have hcalls := Moves.doneDisconnect
        (Moves.calls { s with doneDisconnect := true, disconnects := s.disconnects + 1 } cs) rfl
      split
      · exact hcalls
      · exact (doneDisconnect_shutdownConnection _ cause).trans hcalls
    · rfl

theorem Moves.destroy (s : StreamSocket) (cs : List Call) : Moves s (s.destroy cs) := by
  have hdisconnect : Moves s (s.ensureDisconnected .destroyed cs) := Moves.ensureDisconnected s (by rintro ⟨⟩) cs
  have hdone := doneDisconnect_ensureDisconnected s .destroyed cs
  unfold StreamSocket.destroy
  generalize s.ensureDisconnected .destroyed cs = u at *
  have hreset : Moves u { u with socketHandler := false } := .single (.resetHandler hdone)
  generalize ht : { u with socketHandler := false } = t at *
  have hdone : t.doneDisconnect = true := by rwa [← ht]
  have hshutdown : Moves t
      (if t.shutdownSignalled then t else { t with shutdownSignalled := true }.shutdownConnection .destroyed) := by
    split
    · exact .refl
    · exact (Moves.signal t).trans (Moves.shutdownConnection _ (by rintro ⟨⟩))
  exact .tail ((hdisconnect.trans hreset).trans hshutdown) (.destroy (hshutdown.doneDisconnect hdone))

theorem moves_of_step {e : Event} (h : s.step e = some s') : Moves s s' := by
  unfold step at h
  split at h
  · cases h
  · cases e with
    | call c =>
      obtain rfl := Option.some.inj h
      exact Moves.call s c
    | handlePoll i =>
      dsimp only at h
      split at h
      · obtain rfl := Option.some.inj h
        exact Moves.handlePoll s i
      · cases h
    | closeAllSockets =>
      obtain rfl := Option.some.inj h
      exact .single .closeAll
    | destroy cs =>
      obtain rfl := Option.some.inj h
      exact Moves.destroy s cs

/-! ### The order of the bytes -/

structure Ordered (s : StreamSocket) : Prop where
  output : s.written ++ s.outBuffer = s.sent
  input : (s.taken ++ s.inBuffer).Sublist s.received
  counted : (s.taken ++ s.inBuffer).length + s.removed = s.received.length
  /-- When the input is ignored nothing of it is kept. -/
  ignored : s.ignoreInput = true → s.inBuffer = []
  once : s.disconnects = if s.doneDisconnect && !s.handlerTaken then 1 else 0
  handler : s.doneDisconnect = false → s.handlerTaken = !s.socketHandler
  destroyed : s.destroyed = true → s.doneDisconnect = true
  shutdown : s.isShutdown = s.cause.isSome
  flushed : ∀ sent, s.cause = some (.signalled, sent) → sent <+: s.written

theorem Move.ordered (h : Move s s') (hs : Ordered s) : Ordered s' := by
  cases h with
  | send data =>
    refine { hs with output := ?_ }
    dsimp only
    rw [← List.append_assoc, hs.output]
  | wrote n =>
    refine { hs with output := ?_, flushed := ?_ }
    · unfold StreamSocket.wrote
      dsimp only
      rw [List.append_assoc, List.take_append_drop, hs.output]
    · intro sent hcause
      exact (hs.flushed sent hcause).trans (List.prefix_append _ _)
  | receive data hinput =>
    refine { hs with input := ?_, counted := ?_, ignored := ?_ }
    · dsimp only
      rw [← List.append_assoc]
      exact hs.input.append_right data
    · have hcounted := hs.counted
      simp only [List.length_append] at hcounted ⊢
      omega
    · intro hignored
      rw [show s.ignoreInput = true from hignored] at hinput
      cases hinput
  | take count =>
    have hsame : (s.eraseFirstInputBytes count).taken ++ (s.eraseFirstInputBytes count).inBuffer =
        s.taken ++ s.inBuffer := by
      unfold eraseFirstInputBytes
      dsimp only
      rw [List.append_assoc, List.take_append_drop]
    refine { hs with input := hsame ▸ hs.input, counted := hsame ▸ hs.counted, ignored := ?_ }
    · intro hignored
      unfold eraseFirstInputBytes
      dsimp only
      rw [hs.ignored hignored, List.drop_nil]
  | compact inBuffer hsub =>
    refine { hs with input := ?_, counted := ?_, ignored := ?_ }
    · exact ((List.append_sublist_append_left s.taken).2 hsub).trans hs.input
    · have hcounted := hs.counted
      have hlength := hsub.length_le
      simp only [List.length_append] at hcounted ⊢
      omega
    · intro hignored
      have hsub := hsub
      rw [hs.ignored hignored] at hsub
      exact List.sublist_nil.1 hsub
  | ignore =>
    have hsame : (s.eraseFirstInputBytes s.inBuffer.length).taken ++
      (s.eraseFirstInputBytes s.inBuffer.length).inBuffer =
        s.taken ++ s.inBuffer := by
      unfold eraseFirstInputBytes
      dsimp only
      rw [List.append_assoc, List.take_append_drop]
    refine { hs with input := hsame ▸ hs.input, counted := hsame ▸ hs.counted, ignored := ?_ }
    · intro _
      unfold eraseFirstInputBytes
      dsimp only
      rw [List.drop_length]
  | flags inputProcessingEnabled shutdownSignalled => exact { hs with }
  | dispose disposition => exact { hs with }
  | disconnect hdone hhandler =>
    have honce := hs.once
    have htaken := hs.handler hdone
    rw [hhandler] at htaken
    rw [hdone, Bool.false_and, if_neg Bool.false_ne_true] at honce
    refine { hs with once := ?_, handler := fun h => Bool.noConfusion h, destroyed := fun _ => rfl }
    dsimp only
    rw [honce, htaken]
    rfl
  | disconnectNone hdone hhandler =>
    have honce := hs.once
    have htaken := hs.handler hdone
    rw [hhandler] at htaken
    rw [hdone, Bool.false_and, if_neg Bool.false_ne_true] at honce
    refine { hs with once := ?_, handler := fun h => Bool.noConfusion h, destroyed := fun _ => rfl }
    dsimp only
    rw [honce, htaken]
    rfl
  | closeAll =>
    unfold closeAllSockets
    refine { hs with once := ?_, handler := ?_ }
    · have honce := hs.once
      dsimp only
      rw [honce]
      cases s.doneDisconnect <;> simp
    · intro hdone
      show (s.handlerTaken || !s.doneDisconnect) = !false
      rw [show s.doneDisconnect = false from hdone, Bool.not_false, Bool.or_true]
  | resetHandler hdone =>
    refine { hs with handler := fun h => ?_ }
    rw [show s.doneDisconnect = false from h] at hdone
    cases hdone
  | shutdown cause hopen hflushed =>
    refine { hs with shutdown := rfl, flushed := ?_ }
    intro sent hcause
    obtain ⟨rfl, rfl⟩ := Prod.mk.inj (Option.some.inj hcause)
    have houtput := hs.output
    rw [hflushed rfl, List.append_nil] at houtput
    exact ⟨[], by rw [List.append_nil, houtput]⟩
  | destroy hdone => exact { hs with destroyed := fun _ => hdone }

theorem ordered_of_reachable (h : Reachable s) : Ordered s := by
  refine h.invariant Ordered ?_ ?_
  · rintro s ⟨sendBufferSize, noShutdown, rfl⟩
    exact ⟨rfl, .refl _, rfl, fun _ => rfl, rfl, fun _ => rfl, by rintro ⟨⟩, rfl, by rintro _ ⟨⟩⟩
  · intro s e s' _ hs _ hstep
    have hmoves := moves_of_step hstep
    clear hstep
    induction hmoves with
    | refl => exact hs
    | tail _ hmove ih => exact hmove.ordered ih

/-- What is written is what was sent, up to what is still in the buffer, and the handler takes what was read in its
order, without the bytes that were removed between chunks; when the input is ignored nothing is left for it. -/
theorem bytes_in_order (h : Reachable s) : s.written ++ s.outBuffer = s.sent ∧
    (s.taken ++ s.inBuffer).Sublist s.received ∧ (s.taken ++ s.inBuffer).length + s.removed = s.received.length ∧
    (s.ignoreInput = true → s.inBuffer = []) := by
  have hs := ordered_of_reachable h
  exact ⟨hs.output, hs.input, hs.counted, hs.ignored⟩

/-- The kernel takes two of three bytes; a request comes in two parts, one chunk and then the end. -/
theorem bytes_in_order_partial : ∃ s, Reachable s ∧ s.outBuffer = [3] ∧
    s.taken ++ s.inBuffer = CollaboraOnline.StreamSocket.postHeader ++ Http.text "hello" ∧ s.removed = 8 ∧
    s.written ++ s.outBuffer = s.sent ∧ (s.taken ++ s.inBuffer).Sublist s.received ∧
    (s.taken ++ s.inBuffer).length + s.removed = s.received.length := by
  have hreach := Reachable.of_run [.call (.send [1, 2, 3] none),
    .handlePoll { events := { pollOut := true }, rounds := [{ results := [.ok 2] }] },
    .handlePoll {
      events := { pollIn := true }
      reads := [.ok (CollaboraOnline.StreamSocket.postHeader ++ Http.text "5\r\nhello\r\n")]
      messages := [{}] },
    .handlePoll {
      events := { pollIn := true }
      reads := [.ok (Http.text "0\r\n")]
      messages :=
        [{ calls := [.compactChunks CollaboraOnline.StreamSocket.postRequest, .eraseFirstInputBytes 30] }] }] rfl
  have horder := bytes_in_order hreach
  exact ⟨_, hreach, by decide +kernel, by decide +kernel, by decide +kernel, horder.1, horder.2.1, horder.2.2.1⟩

/-- When a connection is shut down because that was requested, all that was sent before has been written. -/
theorem flushed_before_shutdown (h : Reachable s) {sent : List UInt8} (hcause : s.cause = some (.signalled, sent)) :
    sent <+: s.written :=
  (ordered_of_reachable h).flushed sent hcause

theorem flushed_before_shutdown_partial : ∃ s, Reachable s ∧ [1, 2, 3] <+: s.written := by
  have hreach := Reachable.of_run [.call (.send [1, 2, 3] none), .call .asyncShutdown,
    .handlePoll { events := { pollOut := true }, rounds := [{ results := [.ok 2] }, { results := [.ok 1] }] }] rfl
  exact ⟨_, hreach, flushed_before_shutdown hreach rfl⟩

/-- The handler is told of the disconnection at most once, and once at the latest when the socket is destroyed, unless
it was taken away before. -/
theorem disconnect_once (h : Reachable s) :
    s.disconnects ≤ 1 ∧ (s.destroyed = true → s.disconnects = if s.handlerTaken then 0 else 1) := by
  have hs := ordered_of_reachable h
  constructor
  · rw [hs.once]
    split <;> omega
  · intro hdestroyed
    rw [hs.once, hs.destroyed hdestroyed]
    cases s.handlerTaken <;> rfl

/-- A handler that is told when the peer hangs up, and one that is taken away in a forked process. -/
theorem disconnect_once_destroyed : (∃ s, Reachable s ∧ s.destroyed = true ∧ s.disconnects = 1) ∧
    ∃ s, Reachable s ∧ s.destroyed = true ∧ s.disconnects = 0 := by
  have htold :=
    Reachable.of_run [.call (.send [1] none), .handlePoll { events := { pollHup := true } }, .destroy []] rfl
  have htaken := Reachable.of_run [.handlePoll { events := { pollOut := true } }, .closeAllSockets, .destroy []] rfl
  exact ⟨⟨_, htold, rfl, (disconnect_once htold).2 rfl⟩, ⟨_, htaken, rfl, (disconnect_once htaken).2 rfl⟩⟩

/-! ### Whether the poll drops the socket -/

@[simp] theorem disposition_writeOutgoingData (s : StreamSocket) (results : List WriteResult) :
    (s.writeOutgoingData results).2.disposition = s.disposition := by
  induction s, results using StreamSocket.writeOutgoingData.induct with
  | case1 s => rfl
  | case2 s results ih =>
    rw [StreamSocket.writeOutgoingData]
    exact ih
  | case3 s e results he =>
    cases e with
    | EINTR => exact absurd rfl he
    | EAGAIN => rfl
    | EPIPE => rfl
    | ECONNRESET => rfl
    | other => rfl
  | case4 s n results len hpos hempty =>
    rw [StreamSocket.writeOutgoingData, if_pos hpos, if_pos hempty]
    rfl
  | case5 s n results len hpos hmore ih =>
    rw [StreamSocket.writeOutgoingData, if_pos hpos, if_neg hmore]
    exact ih
  | case6 s n results len hpos => rw [StreamSocket.writeOutgoingData, if_neg hpos]

theorem disposition_shutdownConnection (s : StreamSocket) (cause : Cause) :
    (s.shutdownConnection cause).disposition = s.disposition := by
  unfold shutdownConnection setShutdown
  split
  · rfl
  · split <;> rfl

theorem disposition_call (s : StreamSocket) (c : Call) : (s.call c).disposition = s.disposition := by
  cases c with
  | send data doFlush =>
    change (s.send data doFlush).disposition = s.disposition
    unfold send
    split
    · rfl
    · cases doFlush with
      | none => rfl
      | some results => exact disposition_writeOutgoingData _ results
  | attemptWrites results =>
    change (s.attemptWrites results).disposition = s.disposition
    unfold attemptWrites
    split
    · rfl
    · exact disposition_writeOutgoingData s results
  | eraseFirstInputBytes count => rfl
  | compactChunks request =>
    change (s.compactChunks request).disposition = s.disposition
    unfold compactChunks
    split <;> rfl
  | ignoreInput => rfl
  | enableProcessInput enable => rfl
  | asyncShutdown => rfl
  | shutdownConnection => exact disposition_shutdownConnection s .handler

@[simp] theorem disposition_calls (s : StreamSocket) (cs : List Call) : (s.calls cs).disposition = s.disposition := by
  induction cs generalizing s with
  | nil => rfl
  | cons c cs ih => exact (ih (s.call c)).trans (disposition_call s c)

theorem disposition_drain (s : StreamSocket) (results : List ReadResult) :
    (readIncomingData.drain s results).2.disposition = s.disposition := by
  induction s, results using readIncomingData.drain.induct with
  | case1 s => rfl
  | case2 s results ih =>
    rw [readIncomingData.drain]
    exact ih
  | case3 s e results he =>
    cases e with
    | EINTR => exact absurd rfl he
    | EAGAIN => rfl
    | EPIPE => rfl
    | ECONNRESET => rfl
    | other => rfl
  | case4 s data results s' hfull ih =>
    rw [readIncomingData.drain, if_pos hfull]
    exact ih
  | case5 s data results hfull =>
    rw [readIncomingData.drain, if_neg hfull]

theorem disposition_readInput (s : StreamSocket) (i : PollInput) : (s.readInput i).2.disposition = s.disposition := by
  unfold readInput readIncomingData
  split
  · dsimp only
    split
    · rfl
    · exact disposition_drain s i.reads
  · rfl

theorem disposition_writeRound (s : StreamSocket) (pollOut : Bool) (round : WriteRound) :
    (s.writeRound pollOut round).2.disposition = s.disposition := by
  have hwrites : (if pollOut && 0 < s.sendBufferSize - s.outBuffer.length then s.calls round.performWrites
      else s).disposition = s.disposition := by
    split
    · exact disposition_calls s round.performWrites
    · rfl
  unfold writeRound
  rw [← hwrites]
  dsimp only
  generalize (if pollOut && 0 < s.sendBufferSize - s.outBuffer.length then s.calls round.performWrites else s) = t
  split
  · exact disposition_shutdownConnection t .signalled
  · split
    · split
      · exact disposition_writeOutgoingData t round.results
      · split <;> exact disposition_writeOutgoingData t round.results
    · rfl

theorem disposition_writeRounds (s : StreamSocket) (pollOut : Bool) (rounds : List WriteRound) :
    (s.writeRounds pollOut rounds).2.disposition = s.disposition := by
  induction rounds generalizing s with
  | nil => exact disposition_writeRound s pollOut {}
  | cons round rounds ih =>
    have hround := disposition_writeRound s pollOut round
    rw [writeRounds]
    split
    · rename_i t heq
      rw [heq] at hround
      exact (ih t).trans hround
    · rename_i roundEnd t _ heq
      rw [heq] at hround
      exact hround

/-- A message of the handler drops the socket. -/
def Message.closes (m : Message) : Bool := m.throws || (m.disposition.map Disposition.isClosed).getD false

theorem closes_of_handleIncoming (s : StreamSocket) (oldSize : Nat) (messages : List Message)
    (hclosed : (s.handleIncoming oldSize messages).disposition.isClosed = true) :
    s.disposition.isClosed = true ∨ ∃ m ∈ messages, Message.closes m = true := by
  induction messages generalizing s oldSize with
  | nil => exact .inl hclosed
  | cons message messages ih =>
    have hmessage (h : ((s.calls message.calls).setDisposition message).disposition.isClosed = true) :
        s.disposition.isClosed = true ∨ Message.closes message = true := by
      unfold setDisposition at h
      unfold Message.closes
      split at h
      · rename_i hthrows
        exact .inr (by rw [hthrows, Bool.true_or])
      · dsimp only at h
        cases hdisposition : message.disposition with
        | none =>
          rw [hdisposition, Option.getD_none, disposition_calls] at h
          exact .inl h
        | some d =>
          rw [hdisposition, Option.getD_some] at h
          exact .inr (by rw [Option.map_some, Option.getD_some, h, Bool.or_true])
    have hhere (h : ((s.calls message.calls).setDisposition message).disposition.isClosed = true) :
        s.disposition.isClosed = true ∨ ∃ m ∈ message :: messages, Message.closes m = true :=
      (hmessage h).imp id fun h => ⟨message, List.mem_cons_self, h⟩
    rw [handleIncoming] at hclosed
    split at hclosed
    · exact .inl hclosed
    · dsimp only at hclosed
      split at hclosed
      · exact hhere hclosed
      · rcases ih _ _ hclosed with h | ⟨m, hm, h⟩
        · exact hhere h
        · exact .inr ⟨m, List.mem_cons_of_mem _ hm, h⟩

theorem Moves.noShutdown (h : Moves s s') : s'.noShutdown = s.noShutdown := by
  induction h with
  | refl => rfl
  | tail _ hmove ih => cases hmove <;> exact ih

theorem isShutdown_setShutdown (s : StreamSocket) (cause : Cause) : (s.setShutdown cause).isShutdown = true := by
  unfold setShutdown
  split
  · assumption
  · rfl

theorem isShutdown_remove (hshutdown : s.noShutdown = false) (cs : List Call) : (s.remove cs).isShutdown = true := by
  have hdisconnect : Moves s (s.ensureDisconnected .removal cs) := Moves.ensureDisconnected s (by rintro ⟨⟩) cs
  have hno := hdisconnect.noShutdown.trans hshutdown
  unfold remove
  generalize s.ensureDisconnected .removal cs = t at *
  dsimp only
  split
  · assumption
  · unfold shutdownConnection
    rw [if_neg (by rw [hno]; rintro ⟨⟩)]
    exact isShutdown_setShutdown _ .removal

/-- A socket that is shut down is dropped by the poll unless it moves to another one, and a socket that is dropped is
shut down unless a message of the handler drops it. -/
theorem handlePoll_closed (hshutdown : s.noShutdown = false) (i : PollInput) :
    ((s.handlePoll i).isShutdown = true →
      (s.handlePoll i).disposition.isTransfer = true ∨ (s.handlePoll i).disposition.isClosed = true) ∧
    ((s.handlePoll i).disposition.isClosed = true →
      (s.handlePoll i).isShutdown = true ∨ ∃ m ∈ i.messages, Message.closes m = true) := by
  have hbegin : Moves s ({ s with disposition := .continued }.calls i.checkTimeout) :=
    .head (.dispose .continued) (Moves.calls _ i.checkTimeout)
  have hno := hbegin.noShutdown.trans hshutdown
  have hcontinued : ({ s with disposition := .continued }.calls i.checkTimeout).disposition = .continued :=
    disposition_calls _ i.checkTimeout
  unfold handlePoll
  dsimp only
  generalize { s with disposition := .continued }.calls i.checkTimeout = t at *
  split
  · exact ⟨fun _ => .inr rfl, fun _ => .inl (isShutdown_setShutdown t .timeout)⟩
  split
  case isTrue hdown => exact ⟨fun _ => .inr rfl, fun _ => .inl hdown⟩
  case isFalse hopen =>
    split
    · exact ⟨fun _ => .inr rfl, fun _ => .inl (isShutdown_remove hno i.onDisconnect)⟩
    split
    · refine ⟨fun h => absurd h hopen, fun h => ?_⟩
      rw [hcontinued] at h
      cases h
    · have hread := (disposition_readInput t i).trans hcontinued
      have hclosed := closes_of_handleIncoming (t.readInput i).2 0 i.messages
      rw [hread] at hclosed
      split
      · rename_i htransfer
        refine ⟨fun _ => .inl htransfer, fun h => ?_⟩
        exact .inr ((hclosed h).resolve_left (by rintro ⟨⟩))
      · have hwrites :=
          disposition_writeRounds ((t.readInput i).2.handleIncoming 0 i.messages) i.events.pollOut i.rounds
        generalize ((t.readInput i).2.handleIncoming 0 i.messages).writeRounds i.events.pollOut i.rounds = w at *
        unfold finishPoll
        split
        · exact ⟨fun _ => .inr rfl, fun _ => .inl (isShutdown_setShutdown _ .disconnected)⟩
        · split
          · rename_i hopen
            refine ⟨fun h => ?_, fun h => ?_⟩
            · unfold isOpen at hopen
              rw [h] at hopen
              cases hopen
            · rw [hwrites] at h
              exact .inr ((hclosed h).resolve_left (by rintro ⟨⟩))
          · rename_i hdown
            exact ⟨fun _ => .inr rfl, fun _ => .inl (by simpa [isOpen] using hdown)⟩

theorem handlePoll_closed_hangup :
    (({} : StreamSocket).handlePoll { events := { pollHup := true } }).disposition.isTransfer = true ∨
      (({} : StreamSocket).handlePoll { events := { pollHup := true } }).disposition.isClosed = true :=
  (handlePoll_closed rfl { events := { pollHup := true } }).1 (by decide)

end StreamSocket

end Net

end CollaboraOnline
