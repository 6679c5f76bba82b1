import CollaboraOnline.Net.HttpSessionReports

/-!
# The connection of a session

A session that starts no request while it connects, or while a socket is there that was shut down, has one socket at
most.  What a socket of the poll hands the session is then either of the connection that the session holds, or of one
that it has released (`input_from_held`).  A client that waits for each report before it starts the next request is
told of every request once and in their order, unless a handshake fails or something is read behind a response
(`reports_exact`).
-/

namespace CollaboraOnline

namespace Net

open Http (Response ResponseState HeaderRead)

namespace Session

variable {poco : List UInt8 → HeaderRead} {s t : Session} {i j : Nat}

/-- The socket exists. -/
def alive (s : Session) (i : Nat) : Prop := i < s.created ∧ s.isDestroyed i = false

def isShutdown (s : Session) (i : Nat) : Bool := (s.sockets i).stream.isShutdown

/-- There is one connect or one socket at most, and the session holds the socket from the time the poll has taken it
until the socket is shut down. -/
structure Base (s : Session) : Prop where
  connects : s.lookups + s.connectFails ≤ 1
  alone : ∀ i, s.alive i → s.lookups = 0 ∧ s.connectFails = 0
  one : ∀ i j, s.alive i → s.alive j → i = j
  noShutdown : ∀ i, (s.sockets i).stream.noShutdown = false
  created : ∀ i, s.socket = some i → i < s.created
  up : ∀ i, s.alive i → s.isShutdown i = false →
    s.connected = true ∧ ((s.sockets i).inPoll = true → s.socket = some i)
  held : ∀ i, s.socket = some i → s.alive i → s.isShutdown i = false ∧ (s.sockets i).inPoll = true
  fresh : ∀ i, s.alive i → (s.sockets i).inPoll = false → s.isShutdown i = false

/-- Where the session holds no socket, none is up. -/
def Ready (s : Session) : Prop := s.held = none → ∀ i, s.alive i → s.isShutdown i = true

structure Settled (s : Session) : Prop extends Base s where
  ready : Ready s

/-- The session has let its connection go. -/
structure Released (s : Session) : Prop extends Base s where
  disconnected : s.connected = false
  nothing : s.held = none

structure Owned (s : Session) : Prop extends Base s where
  connected : s.connected = true → ∃ i, s.alive i ∧ s.isShutdown i = false
  undone : ∀ i, s.alive i → s.isShutdown i = false → (s.sockets i).stream.doneDisconnect = false

theorem held_eq_some : s.held = some i ↔ s.socket = some i ∧ s.isDestroyed i = false := by
  unfold Session.held
  rw [Option.filter_eq_some_iff]
  simp

theorem Base.alive_of_held (hs : Base s) (h : s.held = some i) : s.alive i :=
  ⟨hs.created i (held_eq_some.1 h).1, (held_eq_some.1 h).2⟩

theorem Released.down (hs : Released s) (hi : s.alive i) : s.isShutdown i = true := by
  by_contra h
  have hconnected := (hs.up i hi (Bool.eq_false_of_not_eq_true h)).1
  rw [hs.disconnected] at hconnected
  cases hconnected

theorem Released.owned (hs : Released s) : Owned s := by
  refine { hs with connected := fun h => ?_, undone := fun i hi h => ?_ }
  · rw [hs.disconnected] at h
    cases h
  · rw [hs.down hi] at h
    cases h

theorem Released.settled (hs : Released s) : Settled s := { hs with ready := fun _ _ hi => hs.down hi }

/-- A socket of the poll is the one the session holds, or it is shut down. -/
theorem Owned.settled (hs : Owned s) (hi : s.polled i = true) : Settled s := by
  refine { hs with ready := fun hheld j hj => ?_ }
  simp only [polled, Bool.and_eq_true, decide_eq_true_eq, Bool.not_eq_true'] at hi
  by_contra h
  obtain rfl := hs.one i j ⟨hi.1.1, hi.2⟩ hj
  have hsocket := (hs.up i hj (Bool.eq_false_of_not_eq_true h)).2 hi.1.2
  rw [held_eq_some.2 ⟨hsocket, hi.2⟩] at hheld
  cases hheld

/-! ### What the connection does not see -/

structure Same (s t : Session) : Prop where
  created : t.created = s.created
  lookups : t.lookups = s.lookups
  connectFails : t.connectFails = s.connectFails
  connected : t.connected = s.connected
  socket : t.socket = s.socket
  inPoll (i : Nat) : (t.sockets i).inPoll = (s.sockets i).inPoll
  isDestroyed (i : Nat) : t.isDestroyed i = s.isDestroyed i
  noShutdown (i : Nat) : (t.sockets i).stream.noShutdown = (s.sockets i).stream.noShutdown
  isShutdown (i : Nat) : t.isShutdown i = s.isShutdown i

theorem Same.refl (s : Session) : Same s s :=
  ⟨rfl, rfl, rfl, rfl, rfl, fun _ => rfl, fun _ => rfl, fun _ => rfl, fun _ => rfl⟩

theorem Same.trans {u : Session} (h : Same s t) (h' : Same t u) : Same s u where
  created := h'.created.trans h.created
  lookups := h'.lookups.trans h.lookups
  connectFails := h'.connectFails.trans h.connectFails
  connected := h'.connected.trans h.connected
  socket := h'.socket.trans h.socket
  inPoll i := (h'.inPoll i).trans (h.inPoll i)
  isDestroyed i := (h'.isDestroyed i).trans (h.isDestroyed i)
  noShutdown i := (h'.noShutdown i).trans (h.noShutdown i)
  isShutdown i := (h'.isShutdown i).trans (h.isShutdown i)

theorem Same.alive (h : Same s t) : t.alive i ↔ s.alive i := by
  unfold Session.alive
  rw [h.created, h.isDestroyed]

theorem Same.held (h : Same s t) : t.held = s.held := by
  unfold Session.held
  rw [h.socket]
  congr 1
  funext i
  rw [h.isDestroyed]

theorem Base.same (hs : Base s) (h : Same s t) : Base t where
  connects := by
    rw [h.lookups, h.connectFails]
    exact hs.connects
  alone i hi := by
    rw [h.lookups, h.connectFails]
    exact hs.alone i (h.alive.1 hi)
  one i j hi hj := hs.one i j (h.alive.1 hi) (h.alive.1 hj)
  noShutdown i := (h.noShutdown i).trans (hs.noShutdown i)
  created i hi := by
    rw [h.created]
    exact hs.created i (h.socket.symm.trans hi)
  up i hi hup := by
    rw [h.connected, h.socket, h.inPoll]
    exact hs.up i (h.alive.1 hi) ((h.isShutdown i).symm.trans hup)
  held i hsocket hi := by
    rw [h.isShutdown, h.inPoll]
    exact hs.held i (h.socket.symm.trans hsocket) (h.alive.1 hi)
  fresh i hi hpoll := by
    rw [h.isShutdown]
    exact hs.fresh i (h.alive.1 hi) ((h.inPoll i).symm.trans hpoll)

theorem Settled.same (hs : Settled s) (h : Same s t) : Settled t := by
  refine { hs.toBase.same h with ready := fun hheld i hi => ?_ }
  rw [h.isShutdown]
  exact hs.ready (h.held.symm.trans hheld) i (h.alive.1 hi)

theorem Released.same (hs : Released s) (h : Same s t) : Released t :=
  { hs.toBase.same h with disconnected := h.connected.trans hs.disconnected, nothing := h.held.trans hs.nothing }

theorem Owned.same (hs : Owned s) (h : Same s t) (hkeeps : Keeps s t) : Owned t := by
  refine { hs.toBase.same h with connected := fun hc => ?_, undone := fun i hi hup => ?_ }
  · obtain ⟨i, hi, hup⟩ := hs.connected (h.connected.symm.trans hc)
    exact ⟨i, h.alive.2 hi, (h.isShutdown i).trans hup⟩
  · exact (hkeeps.doneDisconnect i).trans (hs.undone i (h.alive.1 hi) ((h.isShutdown i).symm.trans hup))

theorem same_modify (s : Session) (i : Nat) {f : StreamSocket → StreamSocket}
    (hdestroyed : ∀ k, (f k).destroyed = k.destroyed) (hnoShutdown : ∀ k, (f k).noShutdown = k.noShutdown)
    (hisShutdown : ∀ k, (f k).isShutdown = k.isShutdown) : Same s (s.modify i f) := by
  have hstream (j : Nat) : ((s.modify i f).sockets j).stream = f (s.sockets j).stream ∨
      ((s.modify i f).sockets j).stream = (s.sockets j).stream := by
    rw [stream_modify]
    split
    case isTrue h => exact .inl (by rw [h])
    case isFalse => exact .inr rfl
  refine { Same.refl s with inPoll := s.inPoll_modify i f, isDestroyed := fun j => ?_, noShutdown := fun j => ?_,
                            isShutdown := fun j => ?_ }
  · obtain h | h := hstream j
    · exact (congrArg StreamSocket.destroyed h).trans (hdestroyed _)
    · exact congrArg StreamSocket.destroyed h
  · obtain h | h := hstream j
    · exact (congrArg StreamSocket.noShutdown h).trans (hnoShutdown _)
    · exact congrArg StreamSocket.noShutdown h
  · obtain h | h := hstream j
    · exact (congrArg StreamSocket.isShutdown h).trans (hisShutdown _)
    · exact congrArg StreamSocket.isShutdown h

theorem same_asyncShutdown (s : Session) : Same s s.asyncShutdown := by
  unfold asyncShutdown
  split
  · exact same_modify _ _ (fun _ => rfl) (fun _ => rfl) (fun _ => rfl)
  · exact .refl s

theorem same_callOnFinished (s : Session) (state : ResponseState) : Same s (s.callOnFinished state) := by
  unfold callOnFinished
  dsimp only
  split
  · exact s.same_asyncShutdown.trans { Same.refl _ with }
  · exact { Same.refl _ with }

/-! ### Letting a connection go -/

theorem isShutdown_shutdownConnection {k : StreamSocket} (h : k.noShutdown = false) (cause : Cause) :
    (k.shutdownConnection cause).isShutdown = true := by
  unfold StreamSocket.shutdownConnection StreamSocket.setShutdown
  rw [h, if_neg Bool.false_ne_true]
  split
  case isTrue hdown => exact hdown
  case isFalse => rfl

theorem Keeps.alive (h : Keeps s t) : t.alive i ↔ s.alive i := by
  unfold Session.alive
  rw [h.created, h.isDestroyed]

/-- With all sockets shut down, only what stays as it is matters. -/
theorem Base.released (hs : Base s) (h : Keeps s t) (hdown : ∀ i, t.alive i → t.isShutdown i = true)
    (hpolled : ∀ i, t.alive i → (t.sockets i).inPoll = true) (hdisconnected : t.connected = false)
    (hnothing : t.held = none) (hsocket : ∀ i, t.socket = some i → s.socket = some i) : Released t where
  connects := by
    rw [h.lookups, h.connectFails]
    exact hs.connects
  alone i hi := by
    rw [h.lookups, h.connectFails]
    exact hs.alone i (h.alive.1 hi)
  one i j hi hj := hs.one i j (h.alive.1 hi) (h.alive.1 hj)
  noShutdown i := (h.noShutdown i).trans (hs.noShutdown i)
  created i hi := by
    rw [h.created]
    exact hs.created i (hsocket i hi)
  up i hi hup := by
    rw [hdown i hi] at hup
    cases hup
  held i hi halive := by
    rw [held_eq_some.2 ⟨hi, halive.2⟩] at hnothing
    cases hnothing
  fresh i hi hpoll := by
    rw [hpolled i hi] at hpoll
    cases hpoll
  disconnected := hdisconnected
  nothing := hnothing

theorem Released.inPoll (hs : Released s) (hi : s.alive i) : (s.sockets i).inPoll = true := by
  by_contra h
  have hfresh := hs.fresh i hi (Bool.eq_false_of_not_eq_true h)
  rw [hs.down hi] at hfresh
  cases hfresh

theorem Released.modify (hs : Released s) (i : Nat) {f : StreamSocket → StreamSocket}
    (hf : ∀ k, KeepsStream k (f k)) : Released (s.modify i f) := by
  have hkeeps := keeps_modify s i hf
  refine hs.toBase.released hkeeps (fun j hj => hkeeps.isShutdown j (hs.down (hkeeps.alive.1 hj))) (fun j hj => ?_)
    hs.disconnected ?_ (fun _ h => h)
  · rw [hkeeps.inPoll]
    exact hs.inPoll (hkeeps.alive.1 hj)
  · refine Option.eq_none_iff_forall_ne_some.2 fun j hj => ?_
    obtain ⟨hsocket, hdestroyed⟩ := held_eq_some.1 hj
    have hheld : s.held = some j := held_eq_some.2 ⟨hsocket, (hkeeps.isDestroyed j).symm.trans hdestroyed⟩
    rw [hs.nothing] at hheld
    cases hheld

theorem Settled.release (hs : Settled s) : Released s.release := by
  have hkeeps := s.keeps_release
  cases hheld : s.held with
  | none =>
    have hdown (j : Nat) (hj : s.alive j) : s.isShutdown j = true := hs.ready hheld j hj
    have hrelease : s.release = { s with connected := false } := by
      unfold Session.release
      rw [hheld]
    rw [hrelease] at hkeeps ⊢
    refine hs.toBase.released hkeeps hdown (fun j hj => ?_) rfl hheld (fun _ h => h)
    by_contra h
    have hfresh := hs.fresh j hj (Bool.eq_false_of_not_eq_true h)
    rw [hdown j hj] at hfresh
    cases hfresh
  | some i =>
    have hi := hs.toBase.alive_of_held hheld
    have hrelease : s.release = { s.modify i (fun k => (k.call .asyncShutdown).call .shutdownConnection) with
        socket := none, connected := false } := by
      unfold Session.release
      rw [hheld]
    rw [hrelease] at hkeeps ⊢
    refine hs.toBase.released hkeeps (fun j hj => ?_) (fun j hj => ?_) rfl rfl (fun j hj => ?_)
    · obtain rfl := hs.one i j hi (hkeeps.alive.1 hj)
      have hdown :
        ((s.modify i fun k => (k.call .asyncShutdown).call .shutdownConnection).sockets i).stream.isShutdown =
          true := by
        rw [stream_modify, if_pos rfl]
        exact isShutdown_shutdownConnection (k := (s.sockets i).stream.call .asyncShutdown) (hs.noShutdown i) .handler
      exact hdown
    · obtain rfl := hs.one i j hi (hkeeps.alive.1 hj)
      rw [hkeeps.inPoll]
      exact (hs.held i (held_eq_some.1 hheld).1 hi).2
    · cases hj

theorem Settled.onFinished (hs : Settled s) (r : Response) :
    Same s (s.onFinished r) ∨ Released (s.onFinished r) := by
  have hresponse : Same s { s with response := some r } := { Same.refl s with }
  have hcall := hresponse.trans (same_callOnFinished { s with response := some r } r.state)
  unfold Session.onFinished
  dsimp only
  split
  · exact .inr (hs.same hcall).release
  · exact .inl hcall

theorem Settled.finish (hs : Settled s) (state : ResponseState) :
    Same s (s.finish state) ∨ Released (s.finish state) := by
  obtain ⟨-, hfinish⟩ | ⟨r, -, -, hfinish⟩ := s.finish_cases state
  · rw [hfinish]
    exact .inl (.refl s)
  · rw [hfinish]
    exact hs.onFinished _

theorem Settled.onDisconnect (hs : Settled s) : Released s.onDisconnect := by
  obtain hsame | hreleased := hs.release.settled.finish .Error
  · exact hs.release.same hsame
  · exact hreleased

theorem Settled.ensureDisconnected (hs : Settled s) (hdone : (s.sockets i).stream.doneDisconnect = false) :
    Released (s.ensureDisconnected i) := by
  unfold Session.ensureDisconnected
  rw [if_neg (by rw [hdone]; exact Bool.false_ne_true)]
  refine Released.modify (Settled.onDisconnect (hs.same (same_modify s i ?_ ?_ ?_))) i fun k => ?_
  · exact fun _ => rfl
  · exact fun _ => rfl
  · exact fun _ => rfl
  · split
    · exact ⟨rfl, rfl, rfl, fun h => h⟩
    · exact .shutdownConnection k true .disconnected

/-! ### Events -/

theorem alive_of_polled (h : s.polled i = true) : s.alive i := by
  simp only [polled, Bool.and_eq_true, decide_eq_true_eq, Bool.not_eq_true'] at h
  exact ⟨h.1.1, h.2⟩

theorem alive_of_transfer (h : s.enabled (.asyncConnectSuccess i) = true) :
    s.alive i ∧ (s.sockets i).inPoll = false := by
  simp only [enabled, Bool.and_eq_true, decide_eq_true_eq, Bool.not_eq_true'] at h
  exact ⟨⟨h.1.1, h.2⟩, h.1.2⟩

theorem alive_of_destroy (h : s.enabled (.destroy i) = true) : s.alive i := by
  simp only [enabled, Bool.and_eq_true, decide_eq_true_eq, Bool.not_eq_true'] at h
  exact h

/-- The session has let go a socket that has told it of its end. -/
theorem Owned.released_of_done (hs : Owned s) (hi : s.alive i) (hpoll : (s.sockets i).inPoll = true)
    (hdone : (s.sockets i).stream.doneDisconnect = true) : Released s := by
  have hdown : s.isShutdown i = true := by
    by_contra h
    cases hdone.symm.trans (hs.undone i hi (Bool.eq_false_of_not_eq_true h))
  have hall (j : Nat) (hj : s.alive j) : s.isShutdown j = true := by
    rw [hs.one j i hj hi]
    exact hdown
  refine hs.toBase.released (.refl s) hall (fun j hj => ?_) ?_ ?_ (fun _ h => h)
  · rw [hs.one j i hj hi]
    exact hpoll
  · by_contra h
    obtain ⟨j, hj, hup⟩ := hs.connected (Bool.eq_true_of_not_eq_false h)
    rw [hall j hj] at hup
    cases hup
  · refine Option.eq_none_iff_forall_ne_some.2 fun j hj => ?_
    have hup := (hs.held j (held_eq_some.1 hj).1 (hs.toBase.alive_of_held hj)).1
    rw [hall j (hs.toBase.alive_of_held hj)] at hup
    cases hup

theorem Owned.close (hs : Owned s) (hi : s.polled i = true) : Released (s.close i) := by
  have hensured : Released (s.ensureDisconnected i) := by
    cases hdone : (s.sockets i).stream.doneDisconnect with
    | true =>
      rw [ensureDisconnected_of_done hdone]
      simp only [polled, Bool.and_eq_true] at hi
      exact hs.released_of_done (alive_of_polled (by simp [polled, hi])) hi.1.2 hdone
    | false => exact (hs.settled hi).ensureDisconnected hdone
  exact hensured.modify i fun k => .setShutdown k .disconnected

theorem Owned.destroy (hs : Owned s) (hi : s.alive i) : Released (s.destroy i) := by
  have hnone (j : Nat) : ¬(s.modify i fun k => { k with destroyed := true }).alive j := by
    rintro ⟨hj, hdestroyed⟩
    unfold isDestroyed at hdestroyed
    rw [stream_modify] at hdestroyed
    split at hdestroyed
    · cases hdestroyed
    case isFalse hne => exact hne (hs.one j i ⟨hj, hdestroyed⟩ hi)
  have hnoShutdown (j : Nat) : ((s.modify i fun k => { k with destroyed := true }).sockets j).stream.noShutdown =
    false := by
    rw [stream_modify]
    split
    · exact hs.noShutdown i
    · exact hs.noShutdown j
  have hbase : Base (s.modify i fun k => { k with destroyed := true }) :=
    { hs.toBase with
      alone := fun j hj => absurd hj (hnone j)
      one := fun j _ hj => absurd hj (hnone j)
      noShutdown := hnoShutdown
      up := fun j hj => absurd hj (hnone j)
      held := fun j _ hj => absurd hj (hnone j)
      fresh := fun j hj => absurd hj (hnone j) }
  have hsame : ((s.modify i fun k => { k with destroyed := true }).sockets i).stream.doneDisconnect =
      (s.sockets i).stream.doneDisconnect := by
    rw [stream_modify, if_pos rfl]
  have hensured : Released ((s.modify i fun k => { k with destroyed := true }).ensureDisconnected i) := by
    cases hdone : (s.sockets i).stream.doneDisconnect with
    | true =>
      rw [ensureDisconnected_of_done (hsame.trans hdone)]
      refine { hbase with disconnected := ?_, nothing := ?_ }
      · by_contra h
        obtain ⟨j, hj, hup⟩ := hs.connected (Bool.eq_true_of_not_eq_false h)
        obtain rfl := hs.one j i hj hi
        cases hdone.symm.trans (hs.undone j hj hup)
      · refine Option.eq_none_iff_forall_ne_some.2 fun j hj => ?_
        exact hnone j (hbase.alive_of_held hj)
    | false =>
      exact Settled.ensureDisconnected { hbase with ready := fun _ j hj => absurd hj (hnone j) } (hsame.trans hdone)
  refine hensured.modify i fun k => ?_
  split
  · exact ⟨rfl, rfl, rfl, fun h => h⟩
  · exact .shutdownConnection k true .destroyed

theorem Owned.checkTimeout (hs : Owned s) (hi : s.polled i = true) : Owned (s.checkTimeout i) := by
  have hsettled := hs.settled hi
  unfold Session.checkTimeout
  split
  case isFalse => exact hs
  case isTrue =>
    have hfinish : Settled (s.finish .Timeout) := by
      obtain hsame | hreleased := hsettled.finish .Timeout
      · exact hsettled.same hsame
      · exact hreleased.settled
    exact (hfinish.onDisconnect.modify i fun k => .setShutdown k .timeout).owned

theorem Settled.readResponse (hs : Settled s) :
    Same s (s.readResponse poco).2 ∨ Released (s.readResponse poco).2 := by
  have herase (u : Session) (i read : Nat) : Same u (u.modify i (·.eraseFirstInputBytes read)) :=
    same_modify u i (fun _ => rfl) (fun _ => rfl) (fun _ => rfl)
  obtain heq | ⟨i, r, r', read, -, -, -, ⟨-, hread⟩ | ⟨-, -, hread⟩⟩ := s.readResponse_cases poco
  · rw [heq]
    exact .inl (.refl s)
  · have hresponse : Same s { s with response := some r' } := { Same.refl s with }
    rw [hread]
    exact .inl (hresponse.trans (herase _ i read))
  · rw [hread]
    obtain hsame | hreleased := hs.onFinished r'
    · exact .inl (hsame.trans (herase _ i read))
    · exact .inr (hreleased.same (herase _ i read))

theorem Owned.handleIncomingMessage (hs : Owned s) (hi : s.polled i = true) :
    Owned (s.handleIncomingMessage poco i) := by
  have hsettled := hs.settled hi
  have hclosed (u : Session) : Same u (u.modify i fun k => { k with disposition := .closed }) :=
    same_modify u i (fun _ => rfl) (fun _ => rfl) (fun _ => rfl)
  obtain ⟨u, hu, hhandle⟩ := s.handleIncomingMessage_cases poco i
  have hread : Owned u ∧ Settled u := by
    obtain rfl | ⟨-, rfl⟩ := hu
    · exact ⟨hs, hsettled⟩
    · obtain hsame | hreleased := @Settled.readResponse poco s hsettled
      · exact ⟨hs.same hsame s.keeps_readResponse, hsettled.same hsame⟩
      · exact ⟨hreleased.owned, hreleased.settled⟩
  obtain hhandle | hhandle := hhandle
  · rw [hhandle]
    exact hread.1
  · rw [hhandle]
    exact ((hread.2.same (hclosed u)).onDisconnect).owned

/-- No request is started while the session connects, or while a socket is there that was shut down. -/
def Idle (s : Session) : Prop := s.lookups = 0 ∧ s.connectFails = 0 ∧ ∀ i, s.alive i → s.isShutdown i = false

theorem Owned.asyncRequest (hs : Owned s) (hidle : s.Idle) (asyncShutdownOnFinish : Bool) :
    Owned (s.asyncRequest asyncShutdownOnFinish) := by
  obtain ⟨hlookups, hfails, hup⟩ := hidle
  unfold Session.asyncRequest
  dsimp only
  split
  case isTrue => exact { hs with }
  case isFalse hconnected =>
    have hnone (i : Nat) : ¬s.alive i := by
      intro hi
      exact hconnected (hs.up i hi (hup i hi)).1
    exact {
      connects := by
        change s.lookups + 1 + s.connectFails ≤ 1
        omega
      alone := fun i hi => absurd hi (hnone i)
      one := fun i _ hi => absurd hi (hnone i)
      noShutdown := hs.noShutdown
      created := fun i hi => by cases hi
      up := fun i hi => absurd hi (hnone i)
      held := fun i _ hi => absurd hi (hnone i)
      fresh := fun i hi => absurd hi (hnone i)
      connected := fun h => absurd h hconnected
      undone := fun i hi => absurd hi (hnone i) }

theorem Owned.pushConnectCompleteToPoll (hs : Owned s) (hlookups : 0 < s.lookups) (success : Bool) :
    Owned (s.pushConnectCompleteToPoll success) := by
  have hconnects := hs.connects
  have hnone (i : Nat) : ¬s.alive i := by
    intro hi
    have halone := hs.alone i hi
    omega
  unfold Session.pushConnectCompleteToPoll
  dsimp only
  cases success with
  | true =>
    rw [if_pos rfl]
    have hnew : Function.update s.sockets s.created {} s.created = ({} : SessionSocket) := Function.update_self _ _ _
    -- the new socket is the only one
    have hold (i : Nat) (hi : i < s.created + 1)
        (hdestroyed : (Function.update s.sockets s.created {} i).stream.destroyed = false) : i = s.created := by
      by_contra hne
      rw [Function.update_of_ne hne] at hdestroyed
      exact hnone i ⟨by omega, hdestroyed⟩
    have howned : Owned { s with
        lookups := s.lookups - 1
        sockets := Function.update s.sockets s.created {}
        created := s.created + 1
        connected := true } := {
      connects := by
        dsimp only
        omega
      alone := fun i _ => by
        dsimp only
        omega
      one := fun i j hi hj => (hold i hi.1 hi.2).trans (hold j hj.1 hj.2).symm
      noShutdown := fun i => by
        dsimp only
        rw [Function.update_apply]
        split
        · rfl
        · exact hs.noShutdown i
      created := fun i hi => Nat.lt_succ_of_lt (hs.created i hi)
      up := fun i hi _ => by
        obtain rfl := hold i hi.1 hi.2
        refine ⟨rfl, fun hpoll => ?_⟩
        dsimp only at hpoll
        rw [hnew] at hpoll
        cases hpoll
      held := fun i hsocket hi => by
        have hlt := hs.created i hsocket
        have heq := hold i hi.1 hi.2
        omega
      fresh := fun i hi _ => by
        obtain rfl := hold i hi.1 hi.2
        unfold isShutdown
        dsimp only
        rw [hnew]
      connected := fun _ => by
        refine ⟨s.created, ⟨Nat.lt_succ_self _, ?_⟩, ?_⟩
        · unfold isDestroyed
          dsimp only
          rw [hnew]
        · unfold isShutdown
          dsimp only
          rw [hnew]
      undone := fun i hi _ => by
        obtain rfl := hold i hi.1 hi.2
        dsimp only
        rw [hnew] }
    split
    · refine (howned.destroy ⟨Nat.lt_succ_self _, ?_⟩).owned
      unfold isDestroyed
      dsimp only
      rw [hnew]
    · exact howned
  | false =>
    rw [if_neg Bool.false_ne_true]
    have hconnected (h : s.connected = true) : False := by
      obtain ⟨i, hi, -⟩ := hs.connected h
      exact hnone i hi
    split
    all_goals
      exact { hs with
        connects := by
          dsimp only
          omega
        alone := fun i hi => absurd hi (hnone i)
        connected := fun h => (hconnected h).elim }

theorem Owned.asyncConnectSuccess (hs : Owned s) (hi : s.alive i) (hpoll : (s.sockets i).inPoll = false) :
    Owned (s.asyncConnectSuccess i) := by
  have hstream (j : Nat) := s.stream_asyncConnectSuccess i j
  have halive {j : Nat} : (s.asyncConnectSuccess i).alive j ↔ s.alive j := by
    unfold Session.alive isDestroyed
    rw [hstream]
    rfl
  have hshutdown (j : Nat) : (s.asyncConnectSuccess i).isShutdown j = s.isShutdown j := by
    unfold Session.isShutdown
    rw [hstream]
  have hup := hs.fresh i hi hpoll
  have hin : ((s.asyncConnectSuccess i).sockets i).inPoll = true := by
    unfold Session.asyncConnectSuccess
    dsimp only
    rw [Function.update_self]
  exact {
    connects := hs.connects
    alone := fun j hj => hs.alone j (halive.1 hj)
    one := fun j k hj hk => hs.one j k (halive.1 hj) (halive.1 hk)
    noShutdown := fun j => (congrArg StreamSocket.noShutdown (hstream j)).trans (hs.noShutdown j)
    created := fun j hj => by
      obtain rfl := Option.some.inj hj
      exact hi.1
    up := fun j hj hupj => by
      obtain rfl := hs.one i j hi (halive.1 hj)
      exact ⟨(hs.up i hi hup).1, fun _ => rfl⟩
    held := fun j hj _ => by
      obtain rfl := Option.some.inj hj
      exact ⟨(hshutdown i).trans hup, hin⟩
    fresh := fun j hj hpollj => by
      obtain rfl := hs.one i j hi (halive.1 hj)
      cases hin.symm.trans hpollj
    connected := fun hc => by
      obtain ⟨j, hj, hupj⟩ := hs.connected hc
      exact ⟨j, halive.2 hj, (hshutdown j).trans hupj⟩
    undone := fun j hj hupj => by
      rw [hstream]
      exact hs.undone j (halive.1 hj) ((hshutdown j).symm.trans hupj) }

/-- Requests are started when nothing of an earlier connection is in the way. -/
def startsIdle (s : Session) : Event → Prop
  | .asyncRequest _ => s.Idle
  | _ => True

theorem Owned.handle (hs : Owned s) {e : Event} (hidle : s.startsIdle e) (henabled : s.enabled e = true) :
    Owned (s.handle poco e) := by
  have hconnects := hs.connects
  cases e with
  | asyncRequest asyncShutdownOnFinish => exact hs.asyncRequest hidle asyncShutdownOnFinish
  | asyncShutdown => exact hs.same s.same_asyncShutdown s.keeps_asyncShutdown
  | pushConnectCompleteToPoll success => exact hs.pushConnectCompleteToPoll (of_decide_eq_true henabled) success
  | asyncConnectFailed =>
    refine { hs with connects := ?_, alone := fun i hi => ?_ }
    · change s.lookups + (s.connectFails - 1) ≤ 1
      omega
    · have halone := hs.alone i hi
      exact ⟨halone.1, by change s.connectFails - 1 = 0; omega⟩
  | asyncConnectSuccess i =>
    obtain ⟨hi, hpoll⟩ := alive_of_transfer henabled
    exact hs.asyncConnectSuccess hi hpoll
  | receive i data =>
    have hsame : Same s (s.receive i data) := same_modify s i (fun _ => rfl) (fun _ => rfl) (fun _ => rfl)
    exact hs.same hsame (s.keeps_receive i data)
  | handleIncomingMessage i => exact hs.handleIncomingMessage henabled
  | checkTimeout i => exact hs.checkTimeout henabled
  | onHandshakeFail i => exact { hs with }
  | close i => exact (hs.close henabled).owned
  | destroy i => exact (hs.destroy (alive_of_destroy henabled)).owned
  | endPoll =>
    refine { hs with connects := ?_, alone := fun i hi => ⟨(hs.alone i hi).1, rfl⟩ }
    change s.lookups + 0 ≤ 1
    omega

theorem owned_initial : Owned {} where
  connects := Nat.zero_le _
  alone _ hi := absurd hi.1 (Nat.not_lt_zero _)
  one _ _ hi := absurd hi.1 (Nat.not_lt_zero _)
  noShutdown _ := rfl
  created _ hi := by cases hi
  up _ hi := absurd hi.1 (Nat.not_lt_zero _)
  held _ _ hi := absurd hi.1 (Nat.not_lt_zero _)
  fresh _ hi := absurd hi.1 (Nat.not_lt_zero _)
  connected h := by cases h
  undone _ hi := absurd hi.1 (Nat.not_lt_zero _)

/-- A socket of the poll is the one that the connected session holds, or it is shut down and the session, which is not
connected, holds none: what `handleIncomingMessage` asserts. -/
theorem input_from_held (h : Run.Reachable (· = {}) (Session.step poco) startsIdle s) (hi : s.polled i = true) :
    s.connected = true ∧ s.held = some i ∧ s.isShutdown i = false ∨
      s.connected = false ∧ s.held = none ∧ s.isShutdown i = true := by
  have hs : Owned s := by
    refine h.invariant Owned ?_ ?_
    · rintro s rfl
      exact owned_initial
    · intro s e t _ hs hidle hstep
      obtain ⟨henabled, rfl⟩ := step_eq_some.1 hstep
      exact hs.handle hidle henabled
  have halive := alive_of_polled hi
  cases hshutdown : s.isShutdown i with
  | false =>
    obtain ⟨hconnected, hsocket⟩ := hs.up i halive hshutdown
    simp only [polled, Bool.and_eq_true] at hi
    exact .inl ⟨hconnected, held_eq_some.2 ⟨hsocket hi.1.2, halive.2⟩, rfl⟩
  | true =>
    have hall (j : Nat) (hj : s.alive j) : s.isShutdown j = true := by
      rw [hs.one j i hj halive]
      exact hshutdown
    refine .inr ⟨?_, ?_, rfl⟩
    · by_contra h
      obtain ⟨j, hj, hup⟩ := hs.connected (Bool.eq_true_of_not_eq_false h)
      rw [hall j hj] at hup
      cases hup
    · refine Option.eq_none_iff_forall_ne_some.2 fun j hj => ?_
      have hup := (hs.held j (held_eq_some.1 hj).1 (hs.toBase.alive_of_held hj)).1
      rw [hall j (hs.toBase.alive_of_held hj)] at hup
      cases hup

/-- The first connection. -/
theorem input_from_held_first : ∃ s : Session, s.polled 0 = true ∧
    (s.connected = true ∧ s.held = some 0 ∧ s.isShutdown 0 = false ∨
      s.connected = false ∧ s.held = none ∧ s.isShutdown 0 = true) := by
  have hidle : Idle {} := ⟨rfl, rfl, fun i hi => absurd hi.1 (Nat.not_lt_zero i)⟩
  have hstart : Run.Reachable (· = {}) (Session.step fun _ => .threw) startsIdle {} := .start rfl
  have hreach :=
    ((hstart.next (e := Event.asyncRequest true) hidle rfl).next (e := Event.pushConnectCompleteToPoll true)
    True.intro rfl).next (e := Event.asyncConnectSuccess 0) True.intro rfl
  exact ⟨_, rfl, input_from_held hreach rfl⟩

/-! ### One report for each request -/

/-- The client has been told of all requests, or of all but the current one, which waits. -/
structure Answering (s : Session) : Prop where
  requests : s.reports.map Report.request = List.range s.reports.length
  current : s.reports.length = s.started ∧ s.pending = false ∨ s.reports.length + 1 = s.started ∧ s.pending = true

/-- As before, but the response of a request whose connect has failed goes on waiting, for nothing. -/
structure Exact (s : Session) : Prop where
  requests : s.reports.map Report.request = List.range s.reports.length
  current : s.reports.length = s.started ∧
      (s.pending = true → s.lookups = 0 ∧ s.connectFails = 0 ∧ ∀ i, ¬s.alive i) ∨
    s.reports.length + 1 = s.started ∧ s.pending = true
  connecting : 0 < s.lookups ∨ 0 < s.connectFails → s.pending = true

theorem requests_append {reports : List Report} {started : Nat} {r : Report}
    (h : reports.map Report.request = List.range reports.length) (hlength : reports.length + 1 = started)
    (hr : r.request = started - 1) : (reports ++ [r]).map Report.request = List.range (reports ++ [r]).length := by
  have hlast : r.request = reports.length := by omega
  rw [List.map_append, h, List.length_append, List.length_singleton, List.range_succ]
  simp [hlast]

theorem Move.answering (h : Move s t) (hs : Answering s) : Answering t := by
  cases h with
  | kept hpending hreports hstarted habandoned =>
    refine ⟨?_, ?_⟩
    · rw [hreports]
      exact hs.requests
    · rw [hreports, hpending, hstarted]
      exact hs.current
  | finished state hdone hbefore hpending hreports hstarted habandoned =>
    obtain ⟨-, hwaits⟩ | ⟨hlength, -⟩ := hs.current
    · cases hbefore.symm.trans hwaits
    · refine ⟨?_, .inl ⟨?_, hpending⟩⟩
      · rw [hreports]
        exact requests_append hs.requests hlength rfl
      · rw [hreports, hstarted, List.length_append]
        exact hlength

theorem Moves.answering (h : Moves s t) (hs : Answering s) : Answering t := by
  induction h with
  | refl => exact hs
  | tail _ hmove ih => exact hmove.answering ih

theorem Exact.answering (hs : Exact s) (hbusy : 0 < s.lookups ∨ 0 < s.connectFails ∨ s.alive i) : Answering s := by
  refine ⟨hs.requests, ?_⟩
  obtain ⟨hlength, hfailed⟩ | hwaits := hs.current
  · refine .inl ⟨hlength, ?_⟩
    by_contra h
    obtain ⟨hlookups, hfails, hnone⟩ := hfailed (Bool.eq_true_of_not_eq_false h)
    obtain h | h | h := hbusy
    · omega
    · omega
    · exact hnone i h
  · exact .inr hwaits

theorem Answering.exact (hs : Answering s) (hconnecting : 0 < s.lookups ∨ 0 < s.connectFails → s.pending = true) :
    Exact s := by
  refine ⟨hs.requests, ?_, hconnecting⟩
  obtain ⟨hlength, hanswered⟩ | hwaits := hs.current
  · refine .inl ⟨hlength, fun h => ?_⟩
    cases h.symm.trans hanswered
  · exact .inr hwaits

/-- An event of a socket. -/
theorem Exact.socket (hs : Exact s) (howned : Owned s) (hi : s.alive i) (hmoves : Moves s t)
    (hconnects : t.lookups = s.lookups ∧ t.connectFails = s.connectFails) : Exact t := by
  refine (hmoves.answering (hs.answering (.inr (.inr hi)))).exact ?_
  rw [hconnects.1, hconnects.2]
  have halone := howned.alone i hi
  omega

theorem connects_ensureDisconnected (s : Session) (i : Nat) :
    (s.ensureDisconnected i).lookups = s.lookups ∧ (s.ensureDisconnected i).connectFails = s.connectFails := by
  unfold ensureDisconnected
  split
  · exact ⟨rfl, rfl⟩
  · have hkeeps := keeps_onDisconnect
      (s.modify i fun k => { k with doneDisconnect := true, disconnects := k.disconnects + 1 })
    exact ⟨hkeeps.lookups, hkeeps.connectFails⟩

theorem connects_destroy (s : Session) (i : Nat) :
    (s.destroy i).lookups = s.lookups ∧ (s.destroy i).connectFails = s.connectFails :=
  connects_ensureDisconnected (s.modify i fun k => { k with destroyed := true }) i

theorem connects_checkTimeout (s : Session) (i : Nat) :
    (s.checkTimeout i).lookups = s.lookups ∧ (s.checkTimeout i).connectFails = s.connectFails := by
  have hkeeps := (s.keeps_finish .Timeout).trans (keeps_onDisconnect _)
  unfold checkTimeout
  split
  · exact ⟨hkeeps.lookups, hkeeps.connectFails⟩
  · exact ⟨rfl, rfl⟩

theorem connects_handleIncomingMessage (s : Session) (i : Nat) :
    (s.handleIncomingMessage poco i).lookups = s.lookups ∧
      (s.handleIncomingMessage poco i).connectFails = s.connectFails := by
  obtain ⟨u, hu, hhandle⟩ := s.handleIncomingMessage_cases poco i
  have hread : Keeps s u := by
    obtain rfl | ⟨-, rfl⟩ := hu
    · exact .refl _
    · exact s.keeps_readResponse
  obtain hhandle | hhandle := hhandle
  · rw [hhandle]
    exact ⟨hread.lookups, hread.connectFails⟩
  · have hkeeps := keeps_onDisconnect (u.modify i fun k => { k with disposition := .closed })
    rw [hhandle]
    exact ⟨hkeeps.lookups.trans hread.lookups, hkeeps.connectFails.trans hread.connectFails⟩

theorem Exact.pushConnectCompleteToPoll (hs : Exact s) (howned : Owned s) (hlookups : 0 < s.lookups)
    (success : Bool) : Exact (s.pushConnectCompleteToPoll success) := by
  have hconnects := howned.connects
  have hpending := hs.connecting (.inl hlookups)
  have hanswering := (Moves.pushConnectCompleteToPoll s success).answering (hs.answering (i := 0) (.inl hlookups))
  refine hanswering.exact ?_
  unfold Session.pushConnectCompleteToPoll
  dsimp only
  split_ifs
  · -- the poll is gone, and no connect is left
    rw [(connects_destroy _ _).1, (connects_destroy _ _).2]
    dsimp only
    omega
  all_goals exact fun _ => hpending

theorem Exact.asyncConnectFailed (hs : Exact s) (howned : Owned s) (hfails : 0 < s.connectFails) :
    Exact s.asyncConnectFailed := by
  have hconnects := howned.connects
  obtain ⟨-, hwaits⟩ | ⟨hlength, hpending⟩ := (hs.answering (i := 0) (.inr (.inl hfails))).current
  · cases (hs.connecting (.inr hfails)).symm.trans hwaits
  · refine ⟨requests_append hs.requests hlength rfl, .inl ⟨?_, fun _ => ⟨?_, ?_, fun i hi => ?_⟩⟩, fun _ => hpending⟩
    · change (s.reports ++ [_]).length = s.started
      rw [List.length_append]
      exact hlength
    · change s.lookups = 0
      omega
    · change s.connectFails - 1 = 0
      omega
    · have halone := howned.alone i hi
      omega

/-- The client waits for the report of a request before it starts the next one, no handshake fails, and nothing is
read behind a response. -/
def sequential (s : Session) : Event → Prop
  | .asyncRequest _ => s.Idle ∧ s.reports.length = s.started
  | .handleIncomingMessage _ => s.InTime
  | .onHandshakeFail _ => False
  | _ => True

theorem Exact.handle (hs : Exact s) (howned : Owned s) {e : Event} (hok : s.sequential e)
    (henabled : s.enabled e = true) : Exact (s.handle poco e) := by
  cases e with
  | asyncRequest asyncShutdownOnFinish =>
    unfold Session.handle Session.asyncRequest
    dsimp only
    split
    all_goals exact ⟨hs.requests, .inr ⟨congrArg (· + 1) hok.2, rfl⟩, fun _ => rfl⟩
  | asyncShutdown =>
    have hkeeps := s.keeps_asyncShutdown
    have hpending : s.asyncShutdown.pending = s.pending := pending_congr s.response_asyncShutdown
    unfold Session.handle
    refine ⟨?_, ?_, ?_⟩
    · rw [reports_asyncShutdown]
      exact hs.requests
    · rw [reports_asyncShutdown, hpending, hkeeps.started, hkeeps.lookups, hkeeps.connectFails]
      simp only [hkeeps.alive]
      exact hs.current
    · rw [hpending, hkeeps.lookups, hkeeps.connectFails]
      exact hs.connecting
  | pushConnectCompleteToPoll success =>
    exact hs.pushConnectCompleteToPoll howned (of_decide_eq_true henabled) success
  | asyncConnectFailed => exact hs.asyncConnectFailed howned (of_decide_eq_true henabled)
  | asyncConnectSuccess i =>
    exact hs.socket howned (alive_of_transfer henabled).1 (.single (.kept rfl rfl rfl rfl)) ⟨rfl, rfl⟩
  | receive i data =>
    exact hs.socket howned (alive_of_polled henabled) (.single (.kept rfl rfl rfl rfl)) ⟨rfl, rfl⟩
  | handleIncomingMessage i =>
    exact hs.socket howned (alive_of_polled henabled) (.handleIncomingMessage hok i)
      (s.connects_handleIncomingMessage i)
  | checkTimeout i =>
    exact hs.socket howned (alive_of_polled henabled) (.checkTimeout s i) (s.connects_checkTimeout i)
  | onHandshakeFail i => exact hok.elim
  | close i => exact hs.socket howned (alive_of_polled henabled) (.close s i) (s.connects_ensureDisconnected i)
  | destroy i => exact hs.socket howned (alive_of_destroy henabled) (.destroy s i) (s.connects_destroy i)
  | endPoll =>
    refine ⟨hs.requests, ?_, fun hc => hs.connecting (.inl (hc.resolve_right (Nat.lt_irrefl 0)))⟩
    obtain ⟨hlength, hfailed⟩ | hwaits := hs.current
    · exact .inl ⟨hlength, fun hp => ⟨(hfailed hp).1, rfl, (hfailed hp).2.2⟩⟩
    · exact .inr hwaits

theorem startsIdle_of_sequential {e : Event} (h : s.sequential e) : s.startsIdle e := by
  cases e with
  | asyncRequest => exact h.1
  | _ => exact True.intro

theorem exact_of_reachable (h : Run.Reachable (· = {}) (Session.step poco) sequential s) : Exact s := by
  have hs : Owned s ∧ Exact s := by
    refine h.invariant (fun s => Owned s ∧ Exact s) ?_ ?_
    · rintro s rfl
      exact ⟨owned_initial, rfl, .inl ⟨rfl, fun hp => by cases hp⟩, fun hc => by simp at hc⟩
    · intro s e t _ hs hok hstep
      obtain ⟨henabled, rfl⟩ := step_eq_some.1 hstep
      exact ⟨hs.1.handle (startsIdle_of_sequential hok) henabled, hs.2.handle hs.1 hok henabled⟩
  exact hs.2

/-- The client is told of every request once, in the order of the requests.  The last one may not have been reported
yet; then its response waits, and a connect is in progress or its failure is on its way, or a socket is there that
will tell the session of its end, unless the poll has ended. -/
theorem reports_exact (h : Run.Reachable (· = {}) (Session.step poco) sequential s) :
    s.reports.map Report.request = List.range s.started ∨
      s.reports.map Report.request = List.range (s.started - 1) ∧ s.pending = true ∧
        (s.pollEnded = true ∨ 0 < s.lookups ∨ 0 < s.connectFails ∨ ∃ i, s.watching i) := by
  have hs := exact_of_reachable h
  obtain ⟨hlength, -⟩ | ⟨hlength, hpending⟩ := hs.current
  · exact .inl (hlength ▸ hs.requests)
  · have hlast : s.started - 1 = s.reports.length := by omega
    refine .inr ⟨hlast ▸ hs.requests, hpending, ?_⟩
    have hwatched := (watched_of_reachable (h.mono fun _ _ _ => True.intro)).pending hpending
    obtain hended | hlookups | hfails | hwatching | hmem := hwatched
    · exact .inl hended
    · exact .inr (.inl hlookups)
    · exact .inr (.inr (.inl hfails))
    · exact .inr (.inr (.inr hwatching))
    · -- the current request would have been reported
      have hreported : s.started - 1 ∈ s.reports.map Report.request := List.mem_map.2 ⟨_, hmem, rfl⟩
      rw [hs.requests, List.mem_range] at hreported
      omega

/-- Two requests: the connection of the first is closed, and there is none for the second. -/
theorem reports_exact_two : ∃ s : Session, s.started = 2 ∧ s.lookups = 1 ∧
    (s.reports.map Report.request = List.range s.started ∨
      s.reports.map Report.request = List.range (s.started - 1) ∧ s.pending = true ∧
        (s.pollEnded = true ∨ 0 < s.lookups ∨ 0 < s.connectFails ∨ ∃ i, s.watching i)) := by
  have hidle : Idle {} := ⟨rfl, rfl, fun i hi => absurd hi.1 (Nat.not_lt_zero i)⟩
  have hstart : Run.Reachable (· = {}) (Session.step fun _ => .threw) sequential {} := .start rfl
  have hconnected := ((hstart.next (e := Event.asyncRequest true) ⟨hidle, rfl⟩ rfl).next
    (e := Event.pushConnectCompleteToPoll true) True.intro rfl).next (e := Event.asyncConnectSuccess 0) True.intro rfl
  have hclosed := (hconnected.next (e := Event.close 0) True.intro rfl).next (e := Event.destroy 0) True.intro rfl
  have hreach := hclosed.next (e := Event.asyncRequest true) ⟨⟨rfl, rfl, fun i hi => ?_⟩, rfl⟩ rfl
  · exact ⟨_, rfl, rfl, reports_exact hreach⟩
  · obtain ⟨hlt, hdestroyed⟩ := hi
    obtain rfl : i = 0 := Nat.lt_one_iff.1 hlt
    cases hdestroyed

end Session

end Net

end CollaboraOnline
