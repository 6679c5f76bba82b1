import CollaboraOnline.Net.WebSocketHandler

/-!
# Web sockets under any chunking

The handler reads frames from the front of what has arrived, so it is an incremental reader: `frameStep` is one round
on the connection without its input buffer.  `arrivals_drains` connects the two, hence what the handler does with a
stream does not depend on the pieces it arrives in (`arrivals_chunking`).
-/

namespace CollaboraOnline

open Incremental

/-! ### Frames and what follows them -/

section Frames

variable {p : List UInt8} {f : WebSocketFrame} {len at' : Nat}

private theorem getD_append {i : Nat} (h : i < p.length) (more : List UInt8) : (p ++ more).getD i 0 = p.getD i 0 := by
  rw [List.getD_eq_getElem?_getD, List.getD_eq_getElem?_getD, List.getElem?_append_left h]

private theorem window_append {i n : Nat} (h : i + n ≤ p.length) (more : List UInt8) :
    ((p ++ more).drop i).take n = (p.drop i).take n := by
  rw [List.drop_append_of_le_length (by omega), List.take_append_of_le_length]
  rw [List.length_drop]
  omega

theorem payloadLength_append (h2 : 2 ≤ p.length) (more : List UInt8) (h : payloadLength p = some (len, at')) :
    payloadLength (p ++ more) = some (len, at') := by
  unfold payloadLength at h ⊢
  rw [getD_append (by omega)]
  dsimp only at h ⊢
  split
  · rename_i h126
    rw [if_pos h126] at h
    split at h
    · cases h
    · rw [if_neg (by rw [List.length_append]; omega), window_append (by omega)]
      exact h
  · rename_i h126
    rw [if_neg h126] at h
    split
    · rename_i h127
      rw [if_pos h127] at h
      split at h
      · cases h
      · rw [if_neg (by rw [List.length_append]; omega), window_append (by omega)]
        exact h
    · rename_i h127
      rwa [if_neg h127] at h

theorem payloadLength_at (h : payloadLength p = some (len, at')) : 2 ≤ at' := by
  unfold payloadLength at h
  dsimp only at h
  split at h
  · split at h <;> cases h
    decide
  · split at h
    · split at h <;> cases h
      decide
    · cases h
      decide

/-- What a frame that has arrived is read from. -/
theorem readFrame_eq_some (h : readFrame p = some f) :
    2 ≤ p.length ∧ ∃ len at', payloadLength p = some (len, at') ∧
      ∃ header, header = (if (p.getD 1 0 &&& 0x80 != 0) then at' + 4 else at') ∧ header + len ≤ p.length ∧
        f = { fin := p.getD 0 0 &&& 0x80 != 0, code := p.getD 0 0 &&& 0x0f, hasMask := p.getD 1 0 &&& 0x80 != 0
              payload := if (p.getD 1 0 &&& 0x80 != 0) then xorMask ((p.drop at').take 4) ((p.drop header).take len)
                else (p.drop header).take len
              size := header + len } := by
  unfold readFrame at h
  split at h
  · cases h
  · rename_i h2
    cases hlen : payloadLength p with
    | none => rw [hlen] at h; cases h
    | some r =>
      obtain ⟨len, at'⟩ := r
      rw [hlen] at h
      dsimp only at h
      generalize hheader : (if (p.getD 1 0 &&& 0x80 != 0) = true then at' + 4 else at') = header at h
      by_cases hle : p.length < header ∨ p.length - header < len
      · rw [if_pos hle] at h
        cases h
      · rw [if_neg hle] at h
        cases h
        exact ⟨by omega, len, at', rfl, header, hheader.symm, by omega, rfl⟩

theorem readFrame_size (h : readFrame p = some f) : 2 ≤ f.size ∧ f.size ≤ p.length := by
  obtain ⟨_, len, at', hlen, header, hheader, hle, rfl⟩ := readFrame_eq_some h
  have hat := payloadLength_at hlen
  refine ⟨?_, hle⟩
  change 2 ≤ header + len
  split at hheader <;> omega

/-- A frame that has arrived stays the same when more bytes follow. -/
theorem readFrame_append (more : List UInt8) (h : readFrame p = some f) : readFrame (p ++ more) = some f := by
  obtain ⟨h2, len, at', hlen, header, hheader, hle, rfl⟩ := readFrame_eq_some h
  have hat : at' ≤ header ∧ ((p.getD 1 0 &&& 0x80 != 0) = true → at' + 4 ≤ p.length) := by
    split at hheader
    · exact ⟨by omega, fun _ => by omega⟩
    · rename_i hmask
      exact ⟨by omega, fun hmask' => absurd hmask' hmask⟩
  unfold readFrame
  rw [if_neg (by rw [List.length_append]; omega), payloadLength_append h2 more hlen]
  dsimp only
  rw [getD_append (by omega), getD_append (by omega), ← hheader,
    if_neg (by rw [List.length_append]; omega), window_append hle]
  split
  · rename_i hmask
    rw [window_append (hat.2 hmask)]
  · rfl

end Frames

/-! ### A connection without its input -/

namespace Connection

/-- The connection without the bytes that it has not handled. -/
def forget (c : Connection) : Connection := { c with socket := { c.socket with inBuffer := .empty } }

/-- A connection that ignores its input has none. -/
def Quiet (c : Connection) : Prop := c.socket.ignoreInput = true → c.socket.inBuffer.data = []

variable {beyond : UInt8} {c c' : Connection} {f : WebSocketFrame} {data : List UInt8} {flags : UInt8} {n : Nat}

@[simp] theorem forget_handler : c.forget.handler = c.handler := rfl

@[simp] theorem forget_ignoreInput : c.forget.socket.ignoreInput = c.socket.ignoreInput := rfl

@[simp] theorem forget_forget : c.forget.forget = c.forget := rfl

@[simp] theorem forget_eraseFirst : (c.eraseFirst n).forget = c.forget := rfl

@[simp] theorem eraseFirst_handler : (c.eraseFirst n).handler = c.handler := rfl

theorem forget_sendFrame : (c.sendFrame data flags).forget = c.forget.sendFrame data flags := by
  unfold sendFrame
  split <;> rfl

@[simp] theorem forget_sendPong : (c.sendPong data).forget = c.forget.sendPong data := forget_sendFrame

theorem forget_sendCloseFrame {status : StatusCode} :
    (c.sendCloseFrame status data).forget = c.forget.sendCloseFrame status data := by
  unfold sendCloseFrame
  split
  · rename_i h
    rw [if_pos (by simpa using h)]
  · rename_i h
    rw [if_neg (by simpa using h)]
    exact forget_sendFrame

/-- A connection that is shut down keeps nothing of its input. -/
theorem shutdown_forget {status : StatusCode} : c.forget.shutdown status data = c.shutdown status data := by
  have hclose : (c.sendCloseFrame status data).forget = c.forget.sendCloseFrame status data := forget_sendCloseFrame
  unfold shutdown
  dsimp only
  rw [← hclose]
  by_cases h : c.handler.shuttingDown = true
  · simp only [forget_handler, h, if_true]
    rfl
  · simp only [forget_handler, h]
    rfl

theorem shutdown_ignores {status : StatusCode} : (c.shutdown status data).socket.ignoreInput = true := rfl

theorem shutdown_data {status : StatusCode} : (c.shutdown status data).socket.inBuffer.data = [] := rfl

/-- Connections that differ only in their input are shut down alike. -/
theorem shutdown_congr {status : StatusCode} (h : c.forget = c'.forget) :
    c.shutdown status data = c'.shutdown status data := by
  rw [← shutdown_forget, h, shutdown_forget]

/-- What a frame does to a connection does not depend on the bytes behind it. -/
theorem handleFrame_congr (h : c.forget = c'.forget) :
    (c.handleFrame beyond f).forget = (c'.handleFrame beyond f).forget := by
  have hshut (status data) : c.shutdown status data = c'.shutdown status data := shutdown_congr h
  have herase (status data) : (c.eraseFirst f.size).shutdown status data =
      (c'.eraseFirst f.size).shutdown status data :=
    shutdown_congr (by simpa using h)
  have hpong : ((c.eraseFirst f.size).sendPong f.payload).forget =
      ((c'.eraseFirst f.size).sendPong f.payload).forget := by
    simp only [forget_sendPong, forget_eraseFirst, h]
  obtain ⟨handler, ⟨_, _, _, _⟩⟩ := c
  obtain ⟨handler', ⟨_, _, _, _⟩⟩ := c'
  simp only [forget, Connection.mk.injEq, StreamSocket.mk.injEq] at h
  obtain ⟨rfl, -, rfl, rfl, rfl⟩ := h
  unfold handleFrame
  dsimp only [eraseFirst_handler]
  repeat' split
  all_goals first
    | rfl
    | exact congrArg forget (hshut _ _)
    | exact congrArg forget (herase _ _)
    | exact hpong
    | (rw [herase, herase]; rfl)

theorem sendPong_input : (c.sendPong data).socket.ignoreInput = c.socket.ignoreInput ∧
    (c.sendPong data).socket.inBuffer = c.socket.inBuffer := by
  unfold sendPong sendFrame
  split <;> exact ⟨rfl, rfl⟩

variable (beyond f) in
/-- A frame takes its bytes, or it shuts the connection down. -/
theorem handleFrame_input (hinput : c.socket.ignoreInput = false) :
    ((c.handleFrame beyond f).socket.ignoreInput = true ∧ (c.handleFrame beyond f).socket.inBuffer.data = []) ∨
    ((c.handleFrame beyond f).socket.ignoreInput = false ∧
      (c.handleFrame beyond f).socket.inBuffer.data = c.socket.inBuffer.data.drop f.size) := by
  have herase : (c.eraseFirst f.size).socket.ignoreInput = false ∧
      (c.eraseFirst f.size).socket.inBuffer.data = c.socket.inBuffer.data.drop f.size :=
        ⟨hinput, Buffer.data_eraseFirst _⟩
  unfold handleFrame
  dsimp only
  repeat' split
  all_goals first
    | exact .inl ⟨shutdown_ignores, shutdown_data⟩
    | exact .inr herase
    | exact .inr ⟨sendPong_input.1.trans herase.1, by rw [sendPong_input.2]; exact herase.2⟩

/-! ### The loop is an incremental reader -/

/-- One round on what has arrived. -/
def frameStep (beyond : UInt8) (c : Connection) (data : List UInt8) : Option (Nat × Connection) :=
  if c.socket.ignoreInput then (if data = [] then none else some (1, c))
  else (readFrame data).map fun f => (f.size, (c.handleFrame beyond f).forget)

theorem frameStep_stable : Stable (frameStep beyond) where
  le := by
    intro s data n s' h
    unfold frameStep at h
    split at h
    · split at h
      · cases h
      · rename_i hdata
        cases h
        exact List.length_pos_iff.2 hdata
    · obtain ⟨f, hf, h⟩ := Option.map_eq_some_iff.1 h
      cases h
      exact (readFrame_size hf).2
  stable := by
    intro s data r more h
    unfold frameStep at h ⊢
    split
    · rename_i hinput
      rw [if_pos hinput] at h
      split at h
      · cases h
      · rename_i hdata
        rw [if_neg (by simp [hdata])]
        exact h
    · rename_i hinput
      rw [if_neg hinput] at h
      obtain ⟨f, hf, h⟩ := Option.map_eq_some_iff.1 h
      rw [readFrame_append more hf]
      exact congrArg some h

theorem drains_ignored (hinput : c.socket.ignoreInput = true) : ∀ data, Drains (frameStep beyond) c data c []
  | [] => .stop (by unfold frameStep; rw [if_pos hinput]; rfl)
  | byte :: data => by
    refine .next (n := 1) ?_ (drains_ignored hinput data)
    unfold frameStep
    rw [if_pos hinput]
    rfl

variable (beyond) in
/-- The rounds of the loop, as many as the buffer has bytes. -/
theorem rounds_drains : ∀ n c, c.socket.inBuffer.data.length ≤ n → Quiet c →
    Drains (frameStep beyond) c.forget c.socket.inBuffer.data (rounds beyond n c).forget
      (rounds beyond n c).socket.inBuffer.data ∧ Quiet (rounds beyond n c) := by
  intro n
  induction n with
  | zero =>
    intro c hn hquiet
    refine ⟨.stop ?_, hquiet⟩
    rw [List.eq_nil_of_length_eq_zero (Nat.le_zero.1 hn)]
    unfold frameStep
    split <;> rfl
  | succ n ih =>
    intro c hn hquiet
    unfold rounds
    split
    · rename_i hinput
      refine ⟨?_, hquiet⟩
      rw [hquiet hinput]
      exact drains_ignored (c := c.forget) hinput []
    · rename_i hinput
      have hstep : frameStep beyond c.forget c.socket.inBuffer.data =
          (readFrame c.socket.inBuffer.data).map fun f => (f.size, (c.handleFrame beyond f).forget) := by
        unfold frameStep
        rw [forget_ignoreInput, if_neg hinput]
        simp only [handleFrame_congr (show c.forget.forget = c.forget from rfl)]
      cases hf : readFrame c.socket.inBuffer.data with
      | none =>
        have hround : c.handleTCPStream beyond = (false, c) := by
          unfold handleTCPStream
          split
          · rfl
          · rw [hf]
        rw [hround]
        refine ⟨.stop ?_, hquiet⟩
        rw [hstep, hf]
        rfl
      | some f =>
        obtain ⟨hpos, hsize⟩ := readFrame_size hf
        have hround : c.handleTCPStream beyond = (true, c.handleFrame beyond f) := by
          unfold handleTCPStream
          rw [if_neg (by rw [← Buffer.length_data]; omega), hf]
        rw [hround]
        dsimp only
        rw [hf] at hstep
        -- a frame that shuts the connection down also drops the bytes behind it
        rcases handleFrame_input beyond f (by simpa using hinput) with ⟨hignore, hdata⟩ | ⟨hkeep, hdata⟩
        · have hquiet' : Quiet (c.handleFrame beyond f) := fun _ => hdata
          obtain ⟨hrest, hq⟩ := ih _ (by rw [hdata]; exact Nat.zero_le _) hquiet'
          have hstay : rounds beyond n (c.handleFrame beyond f) = c.handleFrame beyond f := by
            cases n with
            | zero => rfl
            | succ n =>
              unfold rounds
              rw [if_pos hignore]
          rw [hstay] at hrest hq ⊢
          refine ⟨.next hstep ?_, hq⟩
          rw [hdata]
          exact drains_ignored (c := (c.handleFrame beyond f).forget) hignore _
        · have hquiet' : Quiet (c.handleFrame beyond f) := fun hignore => by rw [hkeep] at hignore; cases hignore
          obtain ⟨hrest, hq⟩ := ih _ (by rw [hdata, List.length_drop]; omega) hquiet'
          rw [hdata] at hrest
          exact ⟨.next hstep hrest, hq⟩

variable (beyond c) in
/-- The bytes that arrive go through the incremental reader. -/
theorem arrivals_drains (pieces : List (List UInt8)) (hquiet : Quiet c) :
    Arrives (frameStep beyond) c.forget c.socket.inBuffer.data pieces (c.arrivals beyond pieces).forget
      (c.arrivals beyond pieces).socket.inBuffer.data := by
  induction pieces generalizing c with
  | nil => exact .done
  | cons piece pieces ih =>
    change Arrives _ _ _ _ ((c.arrive beyond piece).arrivals beyond pieces).forget
      ((c.arrive beyond piece).arrivals beyond pieces).socket.inBuffer.data
    by_cases hinput : c.socket.ignoreInput = true
    · have harrive : c.arrive beyond piece = c := by unfold arrive; rw [if_pos hinput]
      rw [harrive]
      refine .next ?_ (ih c hquiet)
      rw [hquiet hinput]
      exact drains_ignored (c := c.forget) hinput _
    · have harrive : c.arrive beyond piece =
          { c with socket := { c.socket with inBuffer := c.socket.inBuffer.append piece } }.handleIncomingMessage
            beyond := by
        unfold arrive
        rw [if_neg hinput]
      rw [harrive]
      obtain ⟨hdrain, hq⟩ := rounds_drains beyond _
        { c with socket := { c.socket with inBuffer := c.socket.inBuffer.append piece } }
        (le_of_eq Buffer.length_data) (fun h => absurd h hinput)
      rw [Buffer.data_append] at hdrain
      exact .next hdrain (ih _ hq)

variable (beyond) in
/-- What a stream does to a new connection does not depend on the pieces that it arrives in. -/
theorem arrivals_chunking {pieces pieces' : List (List UInt8)} (hpieces : pieces.flatten = pieces'.flatten)
    (h : WebSocketHandler) :
    (arrivals beyond ⟨h, {}⟩ pieces).forget = (arrivals beyond ⟨h, {}⟩ pieces').forget :=
  (frameStep_stable.arrivals_eq (arrivals_drains beyond ⟨h, {}⟩ pieces fun _ => rfl)
    (arrivals_drains beyond ⟨h, {}⟩ pieces' fun _ => rfl) rfl hpieces).1

/-! ### A close frame with one byte of payload

Its second byte is read from behind the payload; only the answer to the peer depends on it.
-/

/-- The connection without what it has written. -/
def unwritten (c : Connection) : Connection := { c with socket := { c.socket with outBuffer := [] } }

theorem unwritten_input (h : c.unwritten = c'.unwritten) :
    c.socket.inBuffer = c'.socket.inBuffer ∧ c.socket.ignoreInput = c'.socket.ignoreInput := by
  have hinput := congrArg (fun d : Connection => (d.socket.inBuffer, d.socket.ignoreInput)) h
  exact Prod.mk.inj hinput

theorem unwritten_sendFrame : (c.sendFrame data flags).unwritten = c.unwritten := by
  unfold sendFrame
  split <;> rfl

theorem unwritten_sendCloseFrame {status : StatusCode} : (c.sendCloseFrame status data).unwritten =
    { c.unwritten with handler := { c.handler with shuttingDown := true } } := by
  unfold sendCloseFrame
  split
  · rename_i h
    rw [← h]
    rfl
  · exact unwritten_sendFrame

theorem unwritten_shutdown {status status' : StatusCode} {data' : List UInt8} (h : c.unwritten = c'.unwritten) :
    (c.shutdown status data).unwritten = (c'.shutdown status' data').unwritten := by
  have hclose : (if c.handler.shuttingDown then c else c.sendCloseFrame status data).unwritten =
      { c.unwritten with handler := { c.unwritten.handler with shuttingDown := true } } := by
    split
    · rename_i h
      change c.unwritten = { c.unwritten with handler := { c.handler with shuttingDown := true } }
      rw [← h]
      rfl
    · exact unwritten_sendCloseFrame
  have hclose' : (if c'.handler.shuttingDown then c' else c'.sendCloseFrame status' data').unwritten =
      { c'.unwritten with handler := { c'.unwritten.handler with shuttingDown := true } } := by
    split
    · rename_i h
      change c'.unwritten = { c'.unwritten with handler := { c'.handler with shuttingDown := true } }
      rw [← h]
      rfl
    · exact unwritten_sendCloseFrame
  rw [← h, ← hclose] at hclose'
  unfold shutdown
  dsimp only
  generalize (if c.handler.shuttingDown then c else c.sendCloseFrame status data) = d at hclose hclose' ⊢
  generalize (if c'.handler.shuttingDown then c' else c'.sendCloseFrame status' data') = d' at hclose' ⊢
  obtain ⟨handler, ⟨_, _, _, _⟩⟩ := d
  obtain ⟨handler', ⟨_, _, _, _⟩⟩ := d'
  simp only [unwritten, Connection.mk.injEq, StreamSocket.mk.injEq] at hclose'
  obtain ⟨rfl, rfl, -, rfl, rfl⟩ := hclose'
  rfl

private theorem unwritten_ite {p : Prop} {dec dec' : Decidable p} {d d' : Connection} (h : c.unwritten = c'.unwritten)
    (h' : d.unwritten = d'.unwritten) : (@ite _ p dec c d).unwritten = (@ite _ p dec' c' d').unwritten := by
  by_cases hp : p
  · rw [if_pos hp, if_pos hp]
    exact h
  · rw [if_neg hp, if_neg hp]
    exact h'

theorem unwritten_handleFrame {beyond' : UInt8} (h : c.unwritten = c'.unwritten) :
    (c.handleFrame beyond f).unwritten = (c'.handleFrame beyond' f).unwritten := by
  have hshut (status status' data data') : (c.shutdown status data).unwritten =
      (c'.shutdown status' data').unwritten :=
    unwritten_shutdown h
  have herase' : (c.eraseFirst f.size).unwritten = (c'.eraseFirst f.size).unwritten :=
    congrArg (fun c : Connection => c.eraseFirst f.size) h
  have herase (status status' data data') : ((c.eraseFirst f.size).shutdown status data).unwritten =
      ((c'.eraseFirst f.size).shutdown status' data').unwritten := unwritten_shutdown herase'
  have hpong : ((c.eraseFirst f.size).sendPong f.payload).unwritten =
      ((c'.eraseFirst f.size).sendPong f.payload).unwritten := by
    rw [sendPong, sendPong, unwritten_sendFrame, unwritten_sendFrame, herase']
  obtain ⟨handler, ⟨_, _, _, _⟩⟩ := c
  obtain ⟨handler', ⟨_, _, _, _⟩⟩ := c'
  simp only [unwritten, Connection.mk.injEq, StreamSocket.mk.injEq] at h
  obtain ⟨rfl, rfl, -, rfl, rfl⟩ := h
  unfold handleFrame
  dsimp only [eraseFirst_handler]
  repeat' split
  all_goals first
    | rfl
    | exact hshut _ _ _ _
    | exact herase _ _ _ _
    | exact hpong
    | exact unwritten_ite (herase _ _ _ _) (herase _ _ _ _)

theorem unwritten_rounds {beyond' : UInt8} : ∀ n c c', c.unwritten = c'.unwritten →
    (rounds beyond n c).unwritten = (rounds beyond' n c').unwritten := by
  intro n
  induction n with
  | zero => exact fun _ _ h => h
  | succ n ih =>
    intro c c' h
    have hinput : c.socket.inBuffer = c'.socket.inBuffer := (unwritten_input h).1
    have hignore : c.socket.ignoreInput = c'.socket.ignoreInput := (unwritten_input h).2
    unfold rounds handleTCPStream
    rw [hinput, hignore]
    split
    · exact h
    · by_cases h2 : c'.socket.inBuffer.size < 2
      · rw [if_pos h2, if_pos h2]
        exact h
      · rw [if_neg h2, if_neg h2]
        cases hf : readFrame c'.socket.inBuffer.data with
        | none => exact h
        | some f => exact ih _ _ (unwritten_handleFrame h)

variable (beyond) in
theorem unwritten_arrivals (beyond' : UInt8) (pieces : List (List UInt8)) (h : c.unwritten = c'.unwritten) :
    (c.arrivals beyond pieces).unwritten = (c'.arrivals beyond' pieces).unwritten := by
  induction pieces generalizing c c' with
  | nil => exact h
  | cons piece pieces ih =>
    have hinput : c.socket.inBuffer = c'.socket.inBuffer := (unwritten_input h).1
    have hignore : c.socket.ignoreInput = c'.socket.ignoreInput := (unwritten_input h).2
    refine ih ?_
    unfold arrive handleIncomingMessage
    rw [hignore]
    split
    · exact h
    · dsimp only
      rw [hinput]
      refine unwritten_rounds _ _ _ ?_
      exact congrArg (fun d : Connection =>
        { d with socket := { d.socket with inBuffer := c'.socket.inBuffer.append piece } }) h

end Connection

end CollaboraOnline
