import CollaboraOnline.Net.HttpSession
import Mathlib.Data.List.Range

/-!
# What the client of a session is told

A request whose response is done is reported once, in the order of the requests, as long as nothing is read for a
response that is done (`finished_once`).  What is read for a complete response reports its request again, since
`readData` begins with an incomplete response (`late_input_reported`).  No request that waits is forgotten: a connect
is in progress or has failed, or there is a socket that will tell the session of its end (`pending_watched`).
-/

namespace CollaboraOnline

namespace Http

/-! ### Reading a response -/

theorem ReadChunks.not_finished {n : Nat} {p : List UInt8} (h : (readChunks n p).consumed = none) :
    (readChunks n p).finished = false := by
  induction n generalizing p with
  | zero => rfl
  | succ n ih =>
    rw [readChunks] at h ⊢
    by_cases hnil : p = []
    · rw [if_pos hnil]
    · by_cases hline : findLineBreak p = p.length
      · rw [if_neg hnil, if_pos hline]
      · rw [if_neg hnil, if_neg hline] at h ⊢
        dsimp only at h ⊢
        cases hlen : readChunkLen 0 p with
        | none => rfl
        | some chunkLen =>
          simp only [hlen] at h ⊢
          split_ifs at h ⊢
          exact ih (Option.map_eq_none_iff.1 h)

/-- A read leaves the response incomplete, or completes it without an error. -/
def Reads (o : Option Nat × Response) : Prop :=
  o.2.state = .Incomplete ∨ o.1.isSome = true ∧ o.2.state = .Complete ∧ o.2.parserStage = .Finished

namespace Response

variable {r : Response}

theorem reads_done (h : r.state = .Incomplete) {n : Option Nat} (hn : n.isSome = true ∨ r.parserStage ≠ .Finished) :
    Reads (n, r.done) := by
  unfold done
  split
  case isFalse => exact .inl h
  case isTrue hstage =>
    have hsome : n.isSome = true := hn.resolve_right (not_not_intro hstage)
    refine .inr ⟨hsome, ?_, ?_⟩
    · simp [complete, h]
    · simp [complete, h, hstage]

theorem reads_readBody (h : r.state = .Incomplete) (p : List UInt8) : Reads (r.readBody p) := by
  unfold readBody
  split
  case isFalse => exact reads_done h (.inl rfl)
  case isTrue hbody =>
    split
    · dsimp only
      cases hconsumed : (readChunks p.length p).consumed with
      | some n => exact reads_done (by split <;> exact h) (.inl rfl)
      | none =>
        rw [ReadChunks.not_finished hconsumed, if_neg Bool.false_ne_true]
        have hopen : (r.write (readChunks p.length p).body).parserStage ≠ .Finished := by
          intro hstage
          cases hbody.1.symm.trans hstage
        exact reads_done (r := r.write (readChunks p.length p).body) h (.inr hopen)
    · exact reads_done (by split <;> exact h) (.inl rfl)

theorem reads_readHeader (poco : List UInt8 → HeaderRead) (h : r.state = .Incomplete) (p : List UInt8) :
    Reads (r.readHeader poco p) := by
  unfold readHeader
  split
  case isFalse => exact reads_readBody h p
  case isTrue =>
    obtain ⟨read, hdr⟩ := r.header.parse poco p
    cases read with
    | none => exact .inl h
    | some read =>
      dsimp only
      split
      · exact reads_readBody (by exact h) p
      · cases stageAfterHeader r.statusLine hdr with
        | none => exact .inl h
        | some stage =>
          have hreads := reads_readBody (r := { r with header := hdr, parserStage := stage }) h (p.drop read)
          obtain hincomplete | ⟨hsome, hcomplete⟩ := hreads
          · exact .inl hincomplete
          · exact .inr ⟨by simpa using hsome, hcomplete⟩

theorem reads_readData (poco : List UInt8 → HeaderRead) (r : Response) (p : List UInt8) :
    Reads (r.readData poco p) := by
  unfold readData
  dsimp only
  split
  case isFalse => exact reads_readHeader poco rfl p
  case isTrue =>
    obtain ⟨parsed, read, line⟩ := r.statusLine.parse p
    cases parsed with
    | Incomplete => exact .inl rfl
    | Invalid => exact .inl rfl
    | Valid =>
      dsimp only
      split
      · exact .inl rfl
      · exact reads_readHeader poco rfl p

/-- What is read behind a complete response completes it again. -/
theorem readData_finished (poco : List UInt8 → HeaderRead) (h : r.parserStage = .Finished) (p : List UInt8) :
    r.readData poco p = (some 0, { r with state := .Complete }) := by
  simp [readData, readHeader, readBody, done, complete, h]

end Response

end Http

namespace Net

open Http (Response ResponseState HeaderRead)

/-- The request that has finished. -/
def Report.finishedRequest : Report → Option Nat
  | .finished request _ => some request
  | .connectFail _ => none

namespace Session

variable {poco : List UInt8 → HeaderRead} {s t u : Session} {i : Nat}

/-! ### What stays as it is -/

/-- The sockets and the connects are as before, up to shutdowns and buffers. -/
structure Keeps (s t : Session) : Prop where
  created : t.created = s.created
  lookups : t.lookups = s.lookups
  connectFails : t.connectFails = s.connectFails
  pollEnded : t.pollEnded = s.pollEnded
  started : t.started = s.started
  abandoned : t.abandoned = s.abandoned
  inPoll (i : Nat) : (t.sockets i).inPoll = (s.sockets i).inPoll
  isDestroyed (i : Nat) : t.isDestroyed i = s.isDestroyed i
  doneDisconnect (i : Nat) : (t.sockets i).stream.doneDisconnect = (s.sockets i).stream.doneDisconnect
  noShutdown (i : Nat) : (t.sockets i).stream.noShutdown = (s.sockets i).stream.noShutdown
  isShutdown (i : Nat) : (s.sockets i).stream.isShutdown = true → (t.sockets i).stream.isShutdown = true

theorem Keeps.refl (s : Session) : Keeps s s :=
  ⟨rfl, rfl, rfl, rfl, rfl, rfl, fun _ => rfl, fun _ => rfl, fun _ => rfl, fun _ => rfl, fun _ h => h⟩

theorem Keeps.trans (h : Keeps s t) (h' : Keeps t u) : Keeps s u where
  created := h'.created.trans h.created
  lookups := h'.lookups.trans h.lookups
  connectFails := h'.connectFails.trans h.connectFails
  pollEnded := h'.pollEnded.trans h.pollEnded
  started := h'.started.trans h.started
  abandoned := h'.abandoned.trans h.abandoned
  inPoll i := (h'.inPoll i).trans (h.inPoll i)
  isDestroyed i := (h'.isDestroyed i).trans (h.isDestroyed i)
  doneDisconnect i := (h'.doneDisconnect i).trans (h.doneDisconnect i)
  noShutdown i := (h'.noShutdown i).trans (h.noShutdown i)
  isShutdown i hi := h'.isShutdown i (h.isShutdown i hi)

theorem sockets_modify (s : Session) (i : Nat) (f : StreamSocket → StreamSocket) :
    (s.modify i f).sockets = Function.update s.sockets i { s.sockets i with stream := f (s.sockets i).stream } :=
  rfl

theorem stream_modify (s : Session) (i : Nat) (f : StreamSocket → StreamSocket) (j : Nat) :
    ((s.modify i f).sockets j).stream = if j = i then f (s.sockets i).stream else (s.sockets j).stream := by
  rw [sockets_modify, Function.update_apply]
  split <;> rfl

theorem inPoll_modify (s : Session) (i : Nat) (f : StreamSocket → StreamSocket) (j : Nat) :
    ((s.modify i f).sockets j).inPoll = (s.sockets j).inPoll := by
  rw [sockets_modify, Function.update_apply]
  split
  case isTrue h => rw [h]
  case isFalse => rfl

theorem stream_asyncConnectSuccess (s : Session) (i j : Nat) :
    ((s.asyncConnectSuccess i).sockets j).stream = (s.sockets j).stream := by
  unfold asyncConnectSuccess
  dsimp only
  rw [Function.update_apply]
  split
  case isTrue h => rw [h]
  case isFalse => rfl

/-- The socket is as before, up to its buffers and a shutdown. -/
structure KeepsStream (k l : StreamSocket) : Prop where
  destroyed : l.destroyed = k.destroyed
  doneDisconnect : l.doneDisconnect = k.doneDisconnect
  noShutdown : l.noShutdown = k.noShutdown
  isShutdown : k.isShutdown = true → l.isShutdown = true

theorem KeepsStream.setShutdown (k : StreamSocket) (cause : Cause) : KeepsStream k (k.setShutdown cause) := by
  unfold StreamSocket.setShutdown
  split
  · exact ⟨rfl, rfl, rfl, fun h => h⟩
  · exact ⟨rfl, rfl, rfl, fun _ => rfl⟩

theorem KeepsStream.shutdownConnection (k : StreamSocket) (signalled : Bool) (cause : Cause) :
    KeepsStream k ({ k with shutdownSignalled := signalled }.shutdownConnection cause) := by
  unfold StreamSocket.shutdownConnection
  split
  · exact ⟨rfl, rfl, rfl, fun h => h⟩
  · have hkeeps := KeepsStream.setShutdown { k with shutdownSignalled := signalled } cause
    exact ⟨hkeeps.destroyed, hkeeps.doneDisconnect, hkeeps.noShutdown, hkeeps.isShutdown⟩

theorem keeps_modify (s : Session) (i : Nat) {f : StreamSocket → StreamSocket} (hf : ∀ k, KeepsStream k (f k)) :
    Keeps s (s.modify i f) := by
  have hstream (j : Nat) : KeepsStream (s.sockets j).stream ((s.modify i f).sockets j).stream := by
    rw [stream_modify]
    split
    case isTrue h =>
      rw [h]
      exact hf _
    case isFalse => exact ⟨rfl, rfl, rfl, fun h => h⟩
  exact { Keeps.refl s with
    inPoll := s.inPoll_modify i f
    isDestroyed := fun j => (hstream j).destroyed
    doneDisconnect := fun j => (hstream j).doneDisconnect
    noShutdown := fun j => (hstream j).noShutdown
    isShutdown := fun j => (hstream j).isShutdown }

theorem keeps_receive (s : Session) (i : Nat) (data : List UInt8) : Keeps s (s.receive i data) :=
  keeps_modify s i fun _ => ⟨rfl, rfl, rfl, fun h => h⟩

theorem keeps_asyncShutdown (s : Session) : Keeps s s.asyncShutdown := by
  unfold asyncShutdown
  split
  · exact keeps_modify _ _ (fun _ => ⟨rfl, rfl, rfl, fun h => h⟩)
  · exact .refl s

theorem keeps_callOnFinished (s : Session) (state : ResponseState) : Keeps s (s.callOnFinished state) := by
  unfold callOnFinished
  dsimp only
  split
  · exact s.keeps_asyncShutdown.trans { Keeps.refl _ with }
  · exact { Keeps.refl _ with }

theorem keeps_release (s : Session) : Keeps s s.release := by
  unfold release
  split
  case h_1 i _ =>
    have hmodify := keeps_modify s i (f := fun k => (k.call .asyncShutdown).call .shutdownConnection)
      (fun k => KeepsStream.shutdownConnection k true .handler)
    exact hmodify.trans { Keeps.refl _ with }
  case h_2 => exact { Keeps.refl _ with }

theorem keeps_onFinished (s : Session) (r : Response) : Keeps s (s.onFinished r) := by
  have hresponse : Keeps s { s with response := some r } := { Keeps.refl s with }
  have hcall := hresponse.trans (keeps_callOnFinished { s with response := some r } r.state)
  unfold onFinished
  dsimp only
  split
  · exact hcall.trans (keeps_release _)
  · exact hcall

theorem keeps_finish (s : Session) (state : ResponseState) : Keeps s (s.finish state) := by
  unfold finish
  split
  · split
    · exact .refl s
    · exact keeps_onFinished _ _
  · exact .refl s

theorem keeps_onDisconnect (s : Session) : Keeps s s.onDisconnect := s.keeps_release.trans (keeps_finish _ _)

/-! ### The input -/

theorem inBuffer_modify (s : Session) (i : Nat) {f : StreamSocket → StreamSocket}
    (hf : ∀ k, (f k).inBuffer = k.inBuffer)
    (j : Nat) : ((s.modify i f).sockets j).stream.inBuffer = (s.sockets j).stream.inBuffer := by
  rw [stream_modify]
  split
  case isTrue h => rw [hf, h]
  case isFalse => rfl

theorem inBuffer_asyncShutdown (s : Session) (j : Nat) :
    (s.asyncShutdown.sockets j).stream.inBuffer = (s.sockets j).stream.inBuffer := by
  unfold asyncShutdown
  split
  · refine inBuffer_modify s _ ?_ j
    exact fun _ => rfl
  · rfl

theorem inBuffer_callOnFinished (s : Session) (state : ResponseState) (j : Nat) :
    ((s.callOnFinished state).sockets j).stream.inBuffer = (s.sockets j).stream.inBuffer := by
  unfold callOnFinished
  dsimp only
  split
  · exact s.inBuffer_asyncShutdown j
  · rfl

theorem inBuffer_release (s : Session) (j : Nat) :
    (s.release.sockets j).stream.inBuffer = (s.sockets j).stream.inBuffer := by
  have hshutdown (k : StreamSocket) : ((k.call .asyncShutdown).call .shutdownConnection).inBuffer = k.inBuffer := by
    unfold StreamSocket.call StreamSocket.shutdownConnection StreamSocket.setShutdown
    dsimp only
    split_ifs <;> rfl
  unfold release
  split
  · exact inBuffer_modify s _ hshutdown j
  · rfl

theorem inBuffer_onFinished (s : Session) (r : Response) (j : Nat) :
    ((s.onFinished r).sockets j).stream.inBuffer = (s.sockets j).stream.inBuffer := by
  have hcall := inBuffer_callOnFinished { s with response := some r } r.state j
  unfold onFinished
  dsimp only
  split
  · exact (inBuffer_release _ j).trans hcall
  · exact hcall

/-! ### The response and the reports -/

@[simp] theorem response_asyncShutdown (s : Session) : s.asyncShutdown.response = s.response := by
  unfold asyncShutdown
  split <;> rfl

@[simp] theorem reports_asyncShutdown (s : Session) : s.asyncShutdown.reports = s.reports := by
  unfold asyncShutdown
  split <;> rfl

@[simp] theorem connected_asyncShutdown (s : Session) : s.asyncShutdown.connected = s.connected := by
  unfold asyncShutdown
  split <;> rfl

@[simp] theorem response_release (s : Session) : s.release.response = s.response := by
  unfold release
  split <;> rfl

@[simp] theorem reports_release (s : Session) : s.release.reports = s.reports := by
  unfold release
  split <;> rfl

@[simp] theorem connected_release (s : Session) : s.release.connected = false := by
  unfold release
  split <;> rfl

@[simp] theorem started_release (s : Session) : s.release.started = s.started := s.keeps_release.started

theorem response_callOnFinished (s : Session) (state : ResponseState) :
    (s.callOnFinished state).response = s.response := by
  unfold callOnFinished
  split <;> simp

theorem reports_callOnFinished (s : Session) (state : ResponseState) :
    (s.callOnFinished state).reports = s.reports ++ [.finished (s.started - 1) state] := by
  have hstarted := s.keeps_asyncShutdown.started
  unfold callOnFinished
  split <;> simp [hstarted]

theorem connected_callOnFinished (s : Session) (state : ResponseState) :
    (s.callOnFinished state).connected = s.connected := by
  unfold callOnFinished
  split <;> simp

theorem response_onFinished (s : Session) (r : Response) : (s.onFinished r).response = some r := by
  have hcall := response_callOnFinished { s with response := some r } r.state
  unfold onFinished
  split
  · rw [response_release, hcall]
  · exact hcall

theorem reports_onFinished (s : Session) (r : Response) :
    (s.onFinished r).reports = s.reports ++ [.finished (s.started - 1) r.state] := by
  have hcall := reports_callOnFinished { s with response := some r } r.state
  unfold onFinished
  split
  · rw [reports_release, hcall]
  · exact hcall

theorem connected_onFinished {r : Response} (h : (s.onFinished r).connected = true) : s.connected = true := by
  have hcall := connected_callOnFinished { s with response := some r } r.state
  unfold onFinished at h
  dsimp only at h
  split at h
  · rw [connected_release] at h
    cases h
  · exact hcall.symm.trans h

theorem pending_of_response {r : Response} (h : s.response = some r) : s.pending = !r.state.done := by
  unfold pending
  rw [h]
  rfl

theorem pending_congr (h : t.response = s.response) : t.pending = s.pending := by
  unfold pending
  rw [h]

theorem finish_cases (s : Session) (state : ResponseState) : s.pending = false ∧ s.finish state = s ∨
    ∃ r, s.response = some r ∧ r.state.done = false ∧ s.finish state = s.onFinished { r with state } := by
  unfold finish
  cases hresponse : s.response with
  | none =>
    refine .inl ⟨?_, rfl⟩
    unfold pending
    rw [hresponse]
    rfl
  | some r =>
    dsimp only
    cases hdone : r.state.done with
    | true => exact .inl ⟨by rw [pending_of_response hresponse, hdone]; rfl, if_pos rfl⟩
    | false => exact .inr ⟨r, rfl, hdone, if_neg Bool.false_ne_true⟩

theorem pending_finish {state : ResponseState} (hdone : state.done = true) : (s.finish state).pending = false := by
  obtain ⟨hpending, hfinish⟩ | ⟨r, -, -, hfinish⟩ := s.finish_cases state
  · rw [hfinish]
    exact hpending
  · rw [hfinish, pending_of_response (s.response_onFinished { r with state }), hdone]
    rfl

theorem connected_finish {state : ResponseState} (h : (s.finish state).connected = true) : s.connected = true := by
  obtain ⟨-, hfinish⟩ | ⟨r, -, -, hfinish⟩ := s.finish_cases state
  · rw [hfinish] at h
    exact h
  · rw [hfinish] at h
    exact connected_onFinished h

theorem connected_onDisconnect (s : Session) : s.onDisconnect.connected = false := by
  by_contra h
  have hrelease := connected_finish (Bool.eq_true_of_not_eq_false h)
  rw [connected_release] at hrelease
  cases hrelease

theorem pending_onDisconnect (s : Session) : s.onDisconnect.pending = false := pending_finish rfl

/-! ### What a step reads -/

theorem modify_self (s : Session) (i : Nat) {f : StreamSocket → StreamSocket} (hf : ∀ k, f k = k) :
    s.modify i f = s := by
  unfold modify
  rw [hf, Function.update_eq_self]

/-- All that reading does: nothing, or the response is incomplete, or it is completed. -/
theorem readResponse_cases (poco : List UInt8 → HeaderRead) (s : Session) : (s.readResponse poco).2 = s ∨
    ∃ i r r' read, s.held = some i ∧ s.response = some r ∧ (s.sockets i).stream.inBuffer ≠ [] ∧
      (r'.state = .Incomplete ∧
          (s.readResponse poco).2 = { s with response := some r' }.modify i (·.eraseFirstInputBytes read) ∨
        r'.state = .Complete ∧ r'.parserStage = .Finished ∧
          (s.readResponse poco).2 = (s.onFinished r').modify i (·.eraseFirstInputBytes read)) := by
  unfold readResponse
  split
  case h_2 => exact .inl rfl
  case h_1 i r hheld hresponse =>
    dsimp only
    split
    · exact .inl rfl
    case isFalse hdata =>
      have hreads := Response.reads_readData poco r (s.sockets i).stream.inBuffer
      obtain ⟨read, r', hread⟩ : ∃ read r', r.readData poco (s.sockets i).stream.inBuffer = (read, r') := ⟨_, _, rfl⟩
      rw [hread] at hreads ⊢
      have hinput : (s.sockets i).stream.inBuffer ≠ [] := fun hempty => hdata (List.isEmpty_iff.2 hempty)
      refine .inr ⟨i, r, r', read.getD 0, hheld, hresponse, hinput, ?_⟩
      obtain hincomplete | ⟨hsome, hcomplete, hstage⟩ := hreads
      · refine .inl ⟨hincomplete, ?_⟩
        cases read with
        | none => exact (modify_self _ i fun k => by simp [StreamSocket.eraseFirstInputBytes]).symm
        | some read =>
          dsimp only
          rw [hincomplete]
          rfl
      · obtain ⟨read, rfl⟩ := Option.isSome_iff_exists.1 hsome
        refine .inr ⟨hcomplete, hstage, ?_⟩
        dsimp only
        rw [hcomplete]
        rfl

/-- The session reads if it is connected, and lets its connection go if something is wrong. -/
theorem handleIncomingMessage_cases (poco : List UInt8 → HeaderRead) (s : Session) (i : Nat) :
    ∃ u, (u = s ∨ s.connected = true ∧ u = (s.readResponse poco).2) ∧
      (s.handleIncomingMessage poco i = u ∨
        s.handleIncomingMessage poco i = (u.modify i fun k => { k with disposition := .closed }).onDisconnect) := by
  unfold handleIncomingMessage
  cases hconnected : s.connected with
  | false => exact ⟨s, .inl rfl, .inr rfl⟩
  | true =>
    refine ⟨(s.readResponse poco).2, .inr ⟨rfl, rfl⟩, ?_⟩
    rw [if_pos rfl]
    obtain ⟨ok, u⟩ := s.readResponse poco
    cases ok with
    | true => exact .inl rfl
    | false => exact .inr rfl

/-! ### Moves of the reports -/

/-- All that a callback does to the response and the reports. -/
inductive Move (s t : Session) : Prop
  | kept (hpending : t.pending = s.pending) (hreports : t.reports = s.reports) (hstarted : t.started = s.started)
      (habandoned : t.abandoned = s.abandoned)
  | finished (state : ResponseState) (hdone : state.done = true) (hbefore : s.pending = true)
    (hpending : t.pending = false)
      (hreports : t.reports = s.reports ++ [.finished (s.started - 1) state]) (hstarted : t.started = s.started)
      (habandoned : t.abandoned = s.abandoned)

abbrev Moves : Session → Session → Prop := Relation.ReflTransGen Move

/-- All that an event does to the response and the reports. -/
inductive Effect (s t : Session) : Prop
  | moves (h : Moves s t)
  | connectFail (hpending : t.pending = s.pending)
    (hreports : t.reports = s.reports ++ [.connectFail (s.started - 1)])
      (hstarted : t.started = s.started) (habandoned : t.abandoned = s.abandoned)
  | request (hpending : t.pending = true) (hreports : t.reports = s.reports) (hstarted : t.started = s.started + 1)
      (habandoned : t.abandoned = if s.pending then s.abandoned ++ [s.started - 1] else s.abandoned)

theorem Move.modify (s : Session) (i : Nat) (f : StreamSocket → StreamSocket) : Move s (s.modify i f) :=
  .kept rfl rfl rfl rfl

theorem Move.onFinished {r : Response} (hbefore : s.pending = true) (hdone : r.state.done = true) :
    Move s (s.onFinished r) := by
  have hkeeps := s.keeps_onFinished r
  refine .finished r.state hdone hbefore ?_ (s.reports_onFinished r) hkeeps.started hkeeps.abandoned
  rw [pending_of_response (s.response_onFinished r), hdone]
  rfl

theorem Moves.finish (s : Session) {state : ResponseState} (hdone : state.done = true) :
    Moves s (s.finish state) := by
  obtain ⟨-, hfinish⟩ | ⟨r, hr, hopen, hfinish⟩ := s.finish_cases state
  · rw [hfinish]
  · rw [hfinish]
    exact .single (.onFinished (by rw [pending_of_response hr, hopen]; rfl) hdone)

theorem Moves.onDisconnect (s : Session) : Moves s s.onDisconnect := by
  have hkeeps := s.keeps_release
  have hrelease : Move s s.release :=
    .kept (pending_congr s.response_release) s.reports_release hkeeps.started hkeeps.abandoned
  exact .head hrelease (Moves.finish s.release rfl)

theorem Moves.ensureDisconnected (s : Session) (i : Nat) : Moves s (s.ensureDisconnected i) := by
  unfold Session.ensureDisconnected
  split
  · exact .refl
  · exact .head (.modify _ _ _) (.tail (Moves.onDisconnect _) (.modify _ _ _))

theorem Moves.destroy (s : Session) (i : Nat) : Moves s (s.destroy i) :=
  .head (.modify _ _ _) (.tail (Moves.ensureDisconnected _ _) (.modify _ _ _))

theorem Moves.close (s : Session) (i : Nat) : Moves s (s.close i) :=
    .tail (Moves.ensureDisconnected _ _) (.modify _ _ _)

theorem Moves.checkTimeout (s : Session) (i : Nat) : Moves s (s.checkTimeout i) := by
  unfold Session.checkTimeout
  split
  · exact .tail ((Moves.finish s rfl).trans (Moves.onDisconnect _)) (.modify _ _ _)
  · exact .refl

theorem Moves.pushConnectCompleteToPoll (s : Session) (success : Bool) :
    Moves s (s.pushConnectCompleteToPoll success) := by
  unfold Session.pushConnectCompleteToPoll
  dsimp only
  split_ifs
  · refine .head ?_ (Moves.destroy _ _)
    exact .kept rfl rfl rfl rfl
  all_goals exact .single (.kept rfl rfl rfl rfl)

theorem Effect.asyncRequest (s : Session) (asyncShutdownOnFinish : Bool) :
    Effect s (s.asyncRequest asyncShutdownOnFinish) := by
  unfold Session.asyncRequest
  dsimp only
  split
  all_goals exact .request rfl rfl rfl rfl

/-- Nothing has arrived behind the response. -/
def InTime (s : Session) : Prop :=
  s.pending = true ∨ ∀ i, s.held = some i → (s.sockets i).stream.inBuffer = []

theorem Moves.readResponse (htime : s.InTime) : Moves s (s.readResponse poco).2 := by
  obtain heq | ⟨i, r, r', read, hheld, hresponse, hinput, hread⟩ := s.readResponse_cases poco
  · rw [heq]
  · have hpending : s.pending = true := htime.resolve_right fun hempty => hinput (hempty i hheld)
    obtain ⟨hincomplete, hread⟩ | ⟨hcomplete, -, hread⟩ := hread
    · have hkept : Move s { s with response := some r' } := by
        refine .kept ?_ rfl rfl rfl
        rw [hpending, pending_of_response rfl, hincomplete]
        rfl
      rw [hread]
      exact .tail (.single hkept) (.modify _ _ _)
    · rw [hread]
      exact .tail (.single (.onFinished hpending (by rw [hcomplete]; rfl))) (.modify _ _ _)

theorem Moves.handleIncomingMessage (htime : s.InTime) (i : Nat) : Moves s (s.handleIncomingMessage poco i) := by
  obtain ⟨u, hu, hhandle⟩ := s.handleIncomingMessage_cases poco i
  have hread : Moves s u := by
    obtain rfl | ⟨-, rfl⟩ := hu
    · exact .refl
    · exact Moves.readResponse htime
  obtain hhandle | hhandle := hhandle
  · rw [hhandle]
    exact hread
  · rw [hhandle]
    exact (Relation.ReflTransGen.tail hread (.modify _ _ _)).trans (Moves.onDisconnect _)

/-- Nothing is read behind a response. -/
def readsInTime (s : Session) : Event → Prop
  | .handleIncomingMessage _ => s.InTime
  | _ => True

theorem Effect.handle {e : Event} (htime : s.readsInTime e) : Effect s (s.handle poco e) := by
  cases e with
  | asyncRequest asyncShutdownOnFinish => exact .asyncRequest s asyncShutdownOnFinish
  | asyncShutdown =>
    have hkeeps := s.keeps_asyncShutdown
    refine .moves (.single ?_)
    exact .kept (pending_congr s.response_asyncShutdown) s.reports_asyncShutdown hkeeps.started hkeeps.abandoned
  | pushConnectCompleteToPoll success => exact .moves (.pushConnectCompleteToPoll s success)
  | asyncConnectFailed => exact .connectFail rfl rfl rfl rfl
  | asyncConnectSuccess i => exact .moves (.single (.kept rfl rfl rfl rfl))
  | receive i data => exact .moves (.single (.kept rfl rfl rfl rfl))
  | handleIncomingMessage i => exact .moves (.handleIncomingMessage htime i)
  | checkTimeout i => exact .moves (.checkTimeout s i)
  | onHandshakeFail i => exact .connectFail rfl rfl rfl rfl
  | close i => exact .moves (.close s i)
  | destroy i => exact .moves (.destroy s i)
  | endPoll => exact .moves (.single (.kept rfl rfl rfl rfl))

/-! ### The requests that have finished -/

def finishedRequests (s : Session) : List Nat := s.reports.filterMap Report.finishedRequest

/-- The current request, while it waits. -/
def waiting (s : Session) : List Nat := if s.pending then [s.started - 1] else []

structure Told (s : Session) : Prop where
  order : s.finishedRequests.Pairwise (· < ·)
  accounted : (s.finishedRequests ++ (s.abandoned ++ s.waiting)).Perm (List.range s.started)
  done : ∀ request state, .finished request state ∈ s.reports → state.done = true

theorem Told.of_eq (hs : Told s) (hpending : t.pending = s.pending)
    (hreports : t.finishedRequests = s.finishedRequests)
    (hdone : ∀ request state, .finished request state ∈ t.reports → .finished request state ∈ s.reports)
    (hstarted : t.started = s.started) (habandoned : t.abandoned = s.abandoned) : Told t where
  order := hreports ▸ hs.order
  accounted := by
    unfold waiting
    rw [hreports, hpending, hstarted, habandoned]
    exact hs.accounted
  done request state hmem := hs.done request state (hdone request state hmem)

theorem Move.told (h : Move s t) (hs : Told s) : Told t := by
  cases h with
  | kept hpending hreports hstarted habandoned =>
    refine hs.of_eq hpending ?_ ?_ hstarted habandoned
    · unfold finishedRequests
      rw [hreports]
    · rw [hreports]
      exact fun _ _ hmem => hmem
  | finished state hdone hbefore hpending hreports hstarted habandoned =>
    have hfinished : t.finishedRequests = s.finishedRequests ++ [s.started - 1] := by
      unfold finishedRequests
      rw [hreports, List.filterMap_append]
      rfl
    have haccounted := hs.accounted
    unfold waiting at haccounted
    rw [if_pos hbefore] at haccounted
    refine ⟨?_, ?_, ?_⟩
    · -- the requests that have finished are older than the current one
      rw [hfinished, List.pairwise_append]
      refine ⟨hs.order, List.pairwise_singleton _ _, ?_⟩
      intro n hn m hm
      obtain rfl := List.mem_singleton.1 hm
      have hlt : n < s.started := List.mem_range.1 (haccounted.subset (List.mem_append_left _ hn))
      have hnodup := haccounted.nodup_iff.2 List.nodup_range
      have hne : n ≠ s.started - 1 := by
        rintro rfl
        exact (List.disjoint_of_nodup_append hnodup hn) (List.mem_append_right _ (List.mem_singleton.2 rfl))
      omega
    · unfold waiting
      rw [hfinished, hpending, hstarted, habandoned, if_neg Bool.false_ne_true, List.append_nil, List.append_assoc]
      exact (List.perm_append_comm.append_left _).trans haccounted
    · intro request state' hmem
      rw [hreports, List.mem_append, List.mem_singleton] at hmem
      obtain hmem | hmem := hmem
      · exact hs.done request state' hmem
      · cases hmem
        exact hdone

theorem Effect.told (h : Effect s t) (hs : Told s) : Told t := by
  cases h with
  | moves hmoves =>
    induction hmoves with
    | refl => exact hs
    | tail _ hmove ih => exact hmove.told ih
  | connectFail hpending hreports hstarted habandoned =>
    refine hs.of_eq hpending ?_ ?_ hstarted habandoned
    · unfold finishedRequests
      rw [hreports, List.filterMap_append]
      exact List.append_nil _
    · rw [hreports]
      intro request state hmem
      simpa using hmem
  | request hpending hreports hstarted habandoned =>
    have hfinished : t.finishedRequests = s.finishedRequests := by
      unfold finishedRequests
      rw [hreports]
    refine ⟨hfinished ▸ hs.order, ?_, ?_⟩
    · have hall : t.abandoned ++ t.waiting = s.abandoned ++ s.waiting ++ [s.started] := by
        unfold waiting
        rw [habandoned, hpending, hstarted, if_pos rfl]
        cases s.pending <;> simp
      rw [hfinished, hall, hstarted, List.range_succ, ← List.append_assoc]
      exact hs.accounted.append_right _
    · intro request state hmem
      rw [hreports] at hmem
      exact hs.done request state hmem

theorem told_of_reachable (h : Run.Reachable (· = {}) (step poco) readsInTime s) : Told s := by
  refine h.invariant Told ?_ ?_
  · rintro s rfl
    exact ⟨.nil, .refl [], fun _ _ hmem => absurd hmem List.not_mem_nil⟩
  · intro s e t _ hs htime hstep
    obtain ⟨-, rfl⟩ := step_eq_some.1 hstep
    exact (Effect.handle htime).told hs

/-- While nothing is read behind a response, each request is reported as finished at most once, in the order in which
the requests were started and with a response that is done; the others were replaced by a later request, or it is the
current one that waits. -/
theorem finished_once (h : Run.Reachable (· = {}) (step poco) readsInTime s) :
    s.finishedRequests.Pairwise (· < ·) ∧
    (s.finishedRequests ++ (s.abandoned ++ s.waiting)).Perm (List.range s.started) ∧
      ∀ request state, .finished request state ∈ s.reports → state.done = true :=
  have htold := told_of_reachable h
  ⟨htold.order, htold.accounted, htold.done⟩

/-- The second of three requests is replaced before its response is read. -/
def threeRequests : List Event :=
  [.asyncRequest false, .pushConnectCompleteToPoll true, .asyncConnectSuccess 0,
    .receive 0 (Http.text "HTTP/1.1 204 OK\r\n"), .handleIncomingMessage 0, .receive 0 (Http.text "\r\n"),
    .handleIncomingMessage 0, .asyncRequest false, .asyncRequest true, .close 0]

/-- Only a response that is not done is read for. -/
def readsPending (s : Session) : Event → Bool
  | .handleIncomingMessage _ => s.pending
  | _ => true

theorem finished_once_threeRequests : ∃ s : Session,
    s.reports = [.finished 0 .Complete, .finished 2 .Error] ∧ s.abandoned = [1] ∧
    s.finishedRequests.Pairwise (· < ·) ∧
    (s.finishedRequests ++ (s.abandoned ++ s.waiting)).Perm (List.range s.started) ∧
      ∀ request state, .finished request state ∈ s.reports → state.done = true := by
  have hrun : (Run.run (Run.guarded (step fun _ => .fields []) readsPending) {} threeRequests).any (fun s =>
      s.reports == [.finished 0 .Complete, .finished 2 .Error] && s.abandoned == [1]) = true := by decide +kernel
  obtain ⟨s, hr, hs⟩ := @Run.Reachable.exists_of_run _ _ (· = ({} : Session)) _ _ threeRequests _ rfl hrun
  have hreach : Run.Reachable (· = {}) (step fun _ => .fields []) readsInTime s := by
    refine hr.of_guarded fun s e hok => ?_
    cases e with
    | handleIncomingMessage i => exact .inl hok
    | _ => exact True.intro
  rw [Bool.and_eq_true, beq_iff_eq, beq_iff_eq] at hs
  exact ⟨s, hs.1, hs.2, finished_once hreach⟩

/-! ### Input behind a response -/

/-- A complete response has been read to its end. -/
def Whole (s : Session) : Prop := ∀ r, s.response = some r → r.state = .Complete → r.parserStage = .Finished

theorem Whole.of_response (hs : Whole s) (h : t.response = s.response) : Whole t := by
  intro r hr
  exact hs r (h.symm.trans hr)

theorem Whole.modify (hs : Whole s) (i : Nat) (f : StreamSocket → StreamSocket) : Whole (s.modify i f) :=
    hs.of_response rfl

theorem Whole.finish (hs : Whole s) {state : ResponseState} (hstate : state ≠ .Complete) :
    Whole (s.finish state) := by
  obtain ⟨-, hfinish⟩ | ⟨r, -, -, hfinish⟩ := s.finish_cases state
  · rw [hfinish]
    exact hs
  · rw [hfinish]
    intro r' hr' hcomplete
    rw [response_onFinished] at hr'
    obtain rfl := Option.some.inj hr'
    exact absurd hcomplete hstate

theorem Whole.onDisconnect (hs : Whole s) : Whole s.onDisconnect :=
  (hs.of_response s.response_release).finish (by rintro ⟨⟩)

theorem Whole.ensureDisconnected (hs : Whole s) (i : Nat) : Whole (s.ensureDisconnected i) := by
  unfold Session.ensureDisconnected
  split
  · exact hs
  · exact ((hs.modify _ _).onDisconnect).modify _ _

theorem Whole.destroy (hs : Whole s) (i : Nat) : Whole (s.destroy i) :=
    ((hs.modify _ _).ensureDisconnected i).modify _ _

theorem Whole.readResponse (hs : Whole s) : Whole (s.readResponse poco).2 := by
  obtain heq | ⟨i, r, r', read, -, -, -, ⟨hincomplete, hread⟩ | ⟨-, hstage, hread⟩⟩ := s.readResponse_cases poco
  · rw [heq]
    exact hs
  · rw [hread]
    intro r'' hr'' hcomplete
    obtain rfl := Option.some.inj hr''
    cases hincomplete.symm.trans hcomplete
  · rw [hread]
    intro r'' hr'' _
    obtain rfl := Option.some.inj ((s.response_onFinished r').symm.trans hr'')
    exact hstage

theorem Whole.handleIncomingMessage (hs : Whole s) (i : Nat) : Whole (s.handleIncomingMessage poco i) := by
  obtain ⟨u, hu, hhandle⟩ := s.handleIncomingMessage_cases poco i
  have hread : Whole u := by
    obtain rfl | ⟨-, rfl⟩ := hu
    · exact hs
    · exact hs.readResponse
  obtain hhandle | hhandle := hhandle
  · rw [hhandle]
    exact hread
  · rw [hhandle]
    exact (hread.modify _ _).onDisconnect

theorem Whole.handle (hs : Whole s) (e : Event) : Whole (s.handle poco e) := by
  cases e with
  | asyncRequest asyncShutdownOnFinish =>
    intro r hr hcomplete
    have hresponse : (s.asyncRequest asyncShutdownOnFinish).response = some {} := by
      unfold Session.asyncRequest
      dsimp only
      split <;> rfl
    obtain rfl := Option.some.inj (hresponse.symm.trans hr)
    cases hcomplete
  | asyncShutdown => exact hs.of_response s.response_asyncShutdown
  | pushConnectCompleteToPoll success =>
    unfold Session.handle Session.pushConnectCompleteToPoll
    dsimp only
    split_ifs
    · refine Whole.destroy (hs.of_response ?_) _
      rfl
    all_goals exact hs.of_response rfl
  | asyncConnectFailed => exact hs.of_response rfl
  | asyncConnectSuccess i => exact hs.of_response rfl
  | receive i data => exact hs.of_response rfl
  | handleIncomingMessage i => exact hs.handleIncomingMessage i
  | checkTimeout i =>
    unfold Session.handle Session.checkTimeout
    dsimp only
    split
    · refine (Whole.onDisconnect (hs.finish ?_)).modify _ _
      rintro ⟨⟩
    · exact hs
  | onHandshakeFail i => exact hs.of_response rfl
  | close i => exact (hs.ensureDisconnected i).modify _ _
  | destroy i => exact hs.destroy i
  | endPoll => exact hs.of_response rfl

theorem whole_of_reachable (h : Reachable poco s) : Whole s := by
  refine h.invariant Whole ?_ ?_
  · rintro s rfl r hr
    cases hr
  · intro s e t _ hs _ hstep
    obtain ⟨-, rfl⟩ := step_eq_some.1 hstep
    exact hs.handle e

/-- Whatever is read while the response is complete reports its request as finished once more, and stays in the
buffer. -/
theorem late_input_reported (h : Reachable poco s) (hconnected : s.connected = true) (hheld : s.held = some i)
    (hdata : (s.sockets i).stream.inBuffer ≠ []) {r : Response} (hr : s.response = some r)
    (hcomplete : r.state = .Complete)
    (j : Nat) : (s.handleIncomingMessage poco j).reports = s.reports ++ [.finished (s.started - 1) .Complete] ∧
      ((s.handleIncomingMessage poco j).sockets i).stream.inBuffer = (s.sockets i).stream.inBuffer := by
  have hread : r.readData poco (s.sockets i).stream.inBuffer = (some 0, r) := by
    rw [Response.readData_finished poco (whole_of_reachable h r hr hcomplete), ← hcomplete]
  have hdone : r.state.done = true := by
    rw [hcomplete]
    rfl
  have hdata' : (s.sockets i).stream.inBuffer.isEmpty = false := by
    rw [Bool.eq_false_iff]
    exact fun hempty => hdata (List.isEmpty_iff.1 hempty)
  have hhandle : s.handleIncomingMessage poco j = (s.onFinished r).modify i (·.eraseFirstInputBytes 0) := by
    unfold handleIncomingMessage readResponse
    simp only [hconnected, hheld, hr, hdata', hread, hdone, if_true, Bool.false_eq_true, if_false]
  have herase (k : StreamSocket) : (k.eraseFirstInputBytes 0).inBuffer = k.inBuffer := List.drop_zero
  rw [hhandle]
  refine ⟨(s.reports_onFinished r).trans (by rw [hcomplete]), ?_⟩
  exact (inBuffer_modify _ i herase i).trans (s.inBuffer_onFinished r i)

/-- A byte comes behind a response without content. -/
theorem late_input_reported_byte : ∃ s : Session, s.reports = [.finished 0 .Complete] ∧
    (s.handleIncomingMessage (fun _ => .fields []) 0).reports = s.reports ++ [.finished (s.started - 1) .Complete] ∧
      ((s.handleIncomingMessage (fun _ => .fields []) 0).sockets 0).stream.inBuffer =
      (s.sockets 0).stream.inBuffer := by
  have hreach := @Reachable.of_run (fun _ => .fields []) _ [.asyncRequest false, .pushConnectCompleteToPoll true,
    .asyncConnectSuccess 0, .receive 0 (Http.text "HTTP/1.1 204 OK\r\n\r\n"), .handleIncomingMessage 0,
    .receive 0 [0x58]] rfl
  refine ⟨_, ?_, late_input_reported hreach rfl (i := 0) rfl ?_ rfl rfl 0⟩
  · rfl
  · decide

/-! ### Requests that wait -/

/-- The socket will tell the session of its end. -/
def watching (s : Session) (i : Nat) : Prop :=
  i < s.created ∧ s.isDestroyed i = false ∧ (s.sockets i).stream.doneDisconnect = false

structure Watched (s : Session) : Prop where
  connected : s.connected = true → ∃ i, s.watching i
  pending : s.pending = true → s.pollEnded = true ∨ 0 < s.lookups ∨ 0 < s.connectFails ∨ (∃ i, s.watching i) ∨
    .connectFail (s.started - 1) ∈ s.reports

theorem Watched.of_ended (hconnected : t.connected = false) (hpending : t.pending = false) : Watched t where
  connected h := by
    rw [hconnected] at h
    cases h
  pending h := by
    rw [hpending] at h
    cases h

theorem Keeps.watching (h : Keeps s t) (hi : s.watching i) : t.watching i := by
  refine ⟨?_, (h.isDestroyed i).trans hi.2.1, (h.doneDisconnect i).trans hi.2.2⟩
  rw [h.created]
  exact hi.1

theorem Watched.of_watching (hs : Watched s) (hwatching : ∀ i, s.watching i → ∃ j, t.watching j)
    (hconnected : t.connected = true → s.connected = true)
    (hpending : t.pending = true → s.pending = true ∨ s.connected = true) (hended : t.pollEnded = s.pollEnded)
    (hlookups : t.lookups = s.lookups) (hfails : t.connectFails = s.connectFails) (hstarted : t.started = s.started)
    (hreports : s.reports <+: t.reports) : Watched t := by
  have hwatch : (∃ i, s.watching i) → ∃ j, t.watching j := fun ⟨i, hi⟩ => hwatching i hi
  refine ⟨fun hc => hwatch (hs.connected (hconnected hc)), fun hp => ?_⟩
  rw [hended, hlookups, hfails, hstarted]
  obtain hp | hc := hpending hp
  · obtain hended | hlookups | hfails | hwatched | hmem := hs.pending hp
    · exact .inl hended
    · exact .inr (.inl hlookups)
    · exact .inr (.inr (.inl hfails))
    · exact .inr (.inr (.inr (.inl (hwatch hwatched))))
    · exact .inr (.inr (.inr (.inr (hreports.subset hmem))))
  · exact .inr (.inr (.inr (.inl (hwatch (hs.connected hc)))))

theorem Watched.of_keeps (hs : Watched s) (h : Keeps s t) (hconnected : t.connected = true → s.connected = true)
    (hpending : t.pending = true → s.pending = true ∨ s.connected = true) (hreports : s.reports <+: t.reports) :
    Watched t :=
  hs.of_watching (fun i hi => ⟨i, h.watching hi⟩) hconnected hpending h.pollEnded h.lookups h.connectFails h.started
    hreports

theorem ensureDisconnected_of_done (h : (s.sockets i).stream.doneDisconnect = true) : s.ensureDisconnected i = s :=
    if_pos h

/-- A socket that tells the session of its end leaves it without a connection and without a request that waits. -/
theorem ended_of_ensureDisconnected (h : (s.sockets i).stream.doneDisconnect = false) :
    (s.ensureDisconnected i).connected = false ∧ (s.ensureDisconnected i).pending = false := by
  unfold ensureDisconnected
  rw [if_neg (by rw [h]; exact Bool.false_ne_true)]
  exact ⟨connected_onDisconnect _, pending_onDisconnect _⟩

theorem Watched.close (hs : Watched s) (i : Nat) : Watched (s.close i) := by
  unfold Session.close
  cases hdone : (s.sockets i).stream.doneDisconnect with
  | true =>
    rw [ensureDisconnected_of_done hdone]
    exact hs.of_keeps (keeps_modify s i fun k => KeepsStream.setShutdown k .disconnected) (fun h => h)
      (fun h => .inl h) (List.prefix_refl _)
  | false => exact .of_ended (ended_of_ensureDisconnected hdone).1 (ended_of_ensureDisconnected hdone).2

theorem Watched.destroy (hs : Watched s) (i : Nat) : Watched (s.destroy i) := by
  have hsame : ((s.modify i fun k => { k with destroyed := true }).sockets i).stream.doneDisconnect =
      (s.sockets i).stream.doneDisconnect := by
    rw [stream_modify, if_pos rfl]
  unfold Session.destroy
  cases hdone : (s.sockets i).stream.doneDisconnect with
  | true =>
    rw [ensureDisconnected_of_done (hsame.trans hdone)]
    refine hs.of_watching ?_ (fun h => h) .inl rfl rfl rfl rfl (List.prefix_refl _)
    rintro j ⟨hj, hlive, hopen⟩
    have hne : j ≠ i := by
      rintro rfl
      cases hdone.symm.trans hopen
    refine ⟨j, hj, ?_, ?_⟩
    · unfold isDestroyed
      rw [stream_modify, if_neg hne, stream_modify, if_neg hne]
      exact hlive
    · rw [stream_modify, if_neg hne, stream_modify, if_neg hne]
      exact hopen
  | false =>
    have hended := ended_of_ensureDisconnected (hsame.trans hdone)
    exact .of_ended hended.1 hended.2

theorem watching_new (hi : i < t.created) (hnew : t.sockets i = {}) : t.watching i := by
  refine ⟨hi, ?_, ?_⟩
  · unfold isDestroyed
    rw [hnew]
  · rw [hnew]

theorem Watched.pushConnectCompleteToPoll (hs : Watched s) (success : Bool) :
    Watched (s.pushConnectCompleteToPoll success) := by
  unfold Session.pushConnectCompleteToPoll
  dsimp only
  split_ifs with hsuccess hended hended
  · -- the poll is gone, and the new socket with it
    refine Watched.destroy ⟨fun _ => ⟨s.created, ?_⟩, fun _ => ?_⟩ _
    · exact watching_new (Nat.lt_succ_self _) (Function.update_self _ _ _)
    · exact .inl hended
  · have hnew : Function.update s.sockets s.created {} s.created = ({} : SessionSocket) := Function.update_self _ _ _
    exact ⟨fun _ => ⟨s.created, watching_new (Nat.lt_succ_self _) hnew⟩,
      fun _ => .inr (.inr (.inr (.inl ⟨s.created, watching_new (Nat.lt_succ_self _) hnew⟩)))⟩
  · exact ⟨hs.connected, fun _ => .inl hended⟩
  · exact ⟨hs.connected, fun _ => .inr (.inr (.inl (Nat.succ_pos _)))⟩

theorem Watched.asyncRequest (hs : Watched s) (asyncShutdownOnFinish : Bool) :
    Watched (s.asyncRequest asyncShutdownOnFinish) := by
  unfold Session.asyncRequest
  dsimp only
  split
  case isTrue hconnected => exact ⟨hs.connected, fun _ => .inr (.inr (.inr (.inl (hs.connected hconnected))))⟩
  case isFalse => exact ⟨hs.connected, fun _ => .inr (.inl (Nat.succ_pos _))⟩

theorem keeps_readResponse (s : Session) : Keeps s (s.readResponse poco).2 := by
  have herase (u : Session) (i read : Nat) : Keeps u (u.modify i (·.eraseFirstInputBytes read)) :=
    keeps_modify u i fun _ => ⟨rfl, rfl, rfl, fun h => h⟩
  obtain heq | ⟨i, r, r', read, -, -, -, ⟨-, hread⟩ | ⟨-, -, hread⟩⟩ := s.readResponse_cases poco
  · rw [heq]
    exact .refl s
  · have hresponse : Keeps s { s with response := some r' } := { Keeps.refl s with }
    rw [hread]
    exact hresponse.trans (herase _ i read)
  · rw [hread]
    exact (s.keeps_onFinished r').trans (herase _ i read)

theorem connected_readResponse (h : (s.readResponse poco).2.connected = true) : s.connected = true := by
  obtain heq | ⟨i, r, r', read, -, -, -, ⟨-, hread⟩ | ⟨-, -, hread⟩⟩ := s.readResponse_cases poco
  · rw [heq] at h
    exact h
  · rw [hread] at h
    exact h
  · rw [hread] at h
    exact connected_onFinished (r := r') h

theorem prefix_readResponse (s : Session) : s.reports <+: (s.readResponse poco).2.reports := by
  obtain heq | ⟨i, r, r', read, -, -, -, ⟨-, hread⟩ | ⟨-, -, hread⟩⟩ := s.readResponse_cases poco
  · rw [heq]
  · rw [hread]
    exact List.prefix_refl _
  · rw [hread]
    change s.reports <+: (s.onFinished r').reports
    rw [reports_onFinished]
    exact List.prefix_append _ _

theorem Watched.handleIncomingMessage (hs : Watched s) (i : Nat) : Watched (s.handleIncomingMessage poco i) := by
  obtain ⟨u, hu, hhandle⟩ := s.handleIncomingMessage_cases poco i
  obtain hhandle | hhandle := hhandle
  · rw [hhandle]
    obtain rfl | ⟨hconnected, rfl⟩ := hu
    · exact hs
    · exact hs.of_keeps s.keeps_readResponse connected_readResponse (fun _ => .inr hconnected) s.prefix_readResponse
  · rw [hhandle]
    exact .of_ended (connected_onDisconnect _) (pending_onDisconnect _)

theorem Watched.asyncConnectSuccess (hs : Watched s) (i : Nat) : Watched (s.asyncConnectSuccess i) := by
  refine hs.of_watching ?_ (fun h => h) .inl rfl rfl rfl rfl (List.prefix_refl _)
  rintro j ⟨hj, hlive, hopen⟩
  refine ⟨j, hj, ?_, ?_⟩
  · unfold isDestroyed
    rw [stream_asyncConnectSuccess]
    exact hlive
  · rw [stream_asyncConnectSuccess]
    exact hopen

theorem Watched.handle (hs : Watched s) (e : Event) : Watched (s.handle poco e) := by
  cases e with
  | asyncRequest asyncShutdownOnFinish => exact hs.asyncRequest asyncShutdownOnFinish
  | asyncShutdown =>
    refine hs.of_keeps s.keeps_asyncShutdown ?_ ?_ ?_
    · unfold Session.handle
      rw [connected_asyncShutdown]
      exact fun h => h
    · unfold Session.handle
      rw [pending_congr s.response_asyncShutdown]
      exact .inl
    · unfold Session.handle
      rw [reports_asyncShutdown]
  | pushConnectCompleteToPoll success => exact hs.pushConnectCompleteToPoll success
  | asyncConnectFailed =>
    refine ⟨hs.connected, fun _ => .inr (.inr (.inr (.inr ?_)))⟩
    exact List.mem_append_right _ (List.mem_singleton.2 rfl)
  | asyncConnectSuccess i => exact hs.asyncConnectSuccess i
  | receive i data =>
    exact hs.of_keeps (s.keeps_receive i data) (fun h => h) (fun h => .inl h) (List.prefix_refl _)
  | handleIncomingMessage i => exact hs.handleIncomingMessage i
  | checkTimeout i =>
    unfold Session.handle Session.checkTimeout
    dsimp only
    split
    · exact .of_ended (connected_onDisconnect _) (pending_onDisconnect _)
    · exact hs
  | onHandshakeFail i =>
    exact hs.of_keeps { Keeps.refl s with } (fun h => h) (fun h => .inl h) (List.prefix_append _ _)
  | close i => exact hs.close i
  | destroy i => exact hs.destroy i
  | endPoll => exact ⟨hs.connected, fun _ => .inl rfl⟩

theorem watched_of_reachable (h : Reachable poco s) : Watched s := by
  refine h.invariant Watched ?_ ?_
  · rintro s rfl
    exact .of_ended rfl rfl
  · intro s e t _ hs _ hstep
    obtain ⟨-, rfl⟩ := step_eq_some.1 hstep
    exact hs.handle e

/-- A request that waits is not forgotten: a connect is in progress or is reported as failed, or a socket is there
that will tell the session of its end, unless the poll has ended. -/
theorem pending_watched (h : Reachable poco s) (hpending : s.pending = true) :
    s.pollEnded = true ∨ 0 < s.lookups ∨ 0 < s.connectFails ∨ (∃ i, s.watching i) ∨
      .connectFail (s.started - 1) ∈ s.reports :=
  (watched_of_reachable h).pending hpending

theorem pending_watched_request : ∃ s : Session, s.pending = true ∧
    (s.pollEnded = true ∨ 0 < s.lookups ∨ 0 < s.connectFails ∨ (∃ i, s.watching i) ∨
      .connectFail (s.started - 1) ∈ s.reports) :=
  ⟨_, rfl, pending_watched (@Reachable.of_run (fun _ => .threw) _ [.asyncRequest true] rfl) rfl⟩

end Session

end Net

end CollaboraOnline
