import CollaboraOnline.Lib.Run
import CollaboraOnline.Net.WebSocketStream

/-!
# The two ends of a web socket

A client and a server with the bytes between them.  They send, write, read, shut down and close at any time, and each
write and each read takes any number of bytes.  An end handles the messages of the other one in their order, and all
of them once everything is read, as long as it has not shut down (`messages_in_order`).  It shuts down only when one
of the two was asked to, and the other one follows (`shutdown_together`).
-/

namespace CollaboraOnline

/-- `true` is the client. -/
structure WebSocketPeers where
  ends : Bool → Connection
  /-- What an end has not read yet. -/
  wire : Bool → List UInt8 := fun _ => []
  closed : Bool → Bool := fun _ => false
  /-- The messages that an end has sent. -/
  sent : Bool → List (List UInt8) := fun _ => []
  /-- An end was asked to shut down. -/
  stopped : Bool := false

namespace WebSocketPeers

def new (isMasking : Bool) : WebSocketPeers := { ends := fun isClient => ⟨.new isClient isMasking, {}⟩ }

def update (s : WebSocketPeers) (b : Bool) (c : Connection) : WebSocketPeers :=
  { s with ends := Function.update s.ends b c }

/-- A message that is empty is not sent. -/
def sendMessage (s : WebSocketPeers) (b : Bool) (data : List UInt8) (code : WSOpCode) : WebSocketPeers :=
  { s.update b ((s.ends b).sendFrame data (0x80 ||| code)) with
    sent := Function.update s.sent b (s.sent b ++ if data.isEmpty then [] else [data]) }

/-- The payload is the byte behind an empty text. -/
def sendPing (s : WebSocketPeers) (b : Bool) : WebSocketPeers :=
  s.update b ((s.ends b).sendFrame [0] (0x80 ||| WSOpCode.Ping))

def shutdown (s : WebSocketPeers) (b : Bool) (statusCode : StatusCode) (statusMessage : List UInt8) :
    WebSocketPeers :=
  { s.update b ((s.ends b).shutdown statusCode statusMessage) with stopped := true }

/-- `writeOutgoingData` -/
def write (s : WebSocketPeers) (b : Bool) (n : Nat) : WebSocketPeers :=
  let c := s.ends b
  { s.update b { c with socket := { c.socket with outBuffer := c.socket.outBuffer.drop n } } with
    wire := Function.update s.wire (!b) (s.wire (!b) ++ c.socket.outBuffer.take n) }

/-- `readIncomingData`, and the handler after it. -/
def read (beyond : UInt8) (s : WebSocketPeers) (b : Bool) (n : Nat) : WebSocketPeers :=
  if (s.ends b).socket.ignoreInput then s
  else
    { s.update b ((s.ends b).arrive beyond ((s.wire b).take n)) with
      wire := Function.update s.wire b ((s.wire b).drop n) }

inductive Event
  | sendTextMessage (b : Bool) (data : List UInt8)
  | sendBinaryMessage (b : Bool) (data : List UInt8)
  | sendPing (b : Bool)
  | shutdown (b : Bool) (statusCode : StatusCode) (statusMessage : List UInt8)
  | write (b : Bool) (n : Nat)
  | read (b : Bool) (n : Nat)
  | close (b : Bool)

/-- The socket of the end is open, and lengths have 64 bits. -/
def enabled (s : WebSocketPeers) : Event → Bool
  | .sendTextMessage b data | .sendBinaryMessage b data => !s.closed b && data.length < 2 ^ 64
  | .shutdown b _ statusMessage => !s.closed b && 2 + statusMessage.length < 2 ^ 64
  | .sendPing b | .write b _ | .read b _ | .close b => !s.closed b

def handle (beyond : UInt8) (s : WebSocketPeers) : Event → WebSocketPeers
  | .sendTextMessage b data => s.sendMessage b data .Text
  | .sendBinaryMessage b data => s.sendMessage b data .Binary
  | .sendPing b => s.sendPing b
  | .shutdown b statusCode statusMessage => s.shutdown b statusCode statusMessage
  | .write b n => s.write b n
  | .read b n => s.read beyond b n
  | .close b => { s with closed := Function.update s.closed b true }

def step (beyond : UInt8) (s : WebSocketPeers) (e : Event) : Option WebSocketPeers :=
  if s.enabled e then some (s.handle beyond e) else none

abbrev Reachable (beyond : UInt8) : WebSocketPeers → Prop :=
  Run.Reachable (fun s => ∃ isMasking, s = new isMasking) (step beyond) Run.Any

variable {beyond : UInt8} {s t : WebSocketPeers} {a b : Bool} {w : WireFrame} {handled rest : List WireFrame}

theorem ends_update_self (s : WebSocketPeers) (b : Bool) (c : Connection) : (s.update b c).ends b = c := by
  unfold update
  exact Function.update_self ..

theorem ends_update_of_ne (s : WebSocketPeers) (c : Connection) (h : a ≠ b) : (s.update b c).ends a = s.ends a := by
  unfold update
  exact Function.update_of_ne h ..

theorem update_update (s : WebSocketPeers) (b : Bool) (c d : Connection) :
    (s.update b c).update b d = s.update b d := by
  unfold update
  rw [Function.update_idem]

theorem update_ends (s : WebSocketPeers) (b : Bool) : s.update b (s.ends b) = s := by
  unfold update
  rw [Function.update_eq_self]

/-! ### What goes from one end to the other -/

/-- The frames that an end sends. -/
structure Sendable (w : WireFrame) : Prop where
  fin : w.fin = true
  length : w.payload.length < 2 ^ 64
  code : w.code = .Text ∨ w.code = .Binary ∨ (w.code = .Ping ∨ w.code = .Pong) ∧ w.payload.length ≤ 125 ∨
  w.code = .Close

def messagesOf (ws : List WireFrame) : List (List UInt8) :=
  (ws.filter fun w => !isControlFrame w.code).map WireFrame.payload

theorem messagesOf_append (ws ws' : List WireFrame) : messagesOf (ws ++ ws') = messagesOf ws ++ messagesOf ws' := by
  unfold messagesOf
  rw [List.filter_append, List.map_append]

theorem messagesOf_data (h : isControlFrame w.code = false) : messagesOf [w] = [w.payload] := by
  unfold messagesOf
  rw [List.filter_cons_of_pos (by rw [h]; rfl)]
  rfl

theorem messagesOf_control (h : isControlFrame w.code = true) : messagesOf [w] = [] := by
  unfold messagesOf
  rw [List.filter_cons_of_neg (by rw [h]; decide)]
  rfl

/-- End `b` has handled some of the frames that end `a` has sent; as long as it has not shut down, the bytes of the
rest are in its buffer, on the wire and in the buffer of `a`. -/
structure Link (s : WebSocketPeers) (b a : Bool) (handled rest : List WireFrame) : Prop where
  sendable : ∀ w ∈ handled ++ rest, Sendable w
  sent : s.sent a = messagesOf (handled ++ rest)
  messages : (s.ends b).handler.messages = messagesOf handled
  server : ((s.ends a).handler.isMasking && (s.ends b).handler.isClient) = false
  shuttingDown : (s.ends b).handler.shuttingDown = false
  closing : (s.ends a).socket.ignoreInput = true → ∃ w ∈ handled ++ rest, w.code = .Close
  asked : ∀ w ∈ handled ++ rest, w.code = .Close → s.stopped = true
  ignored : (s.ends b).socket.ignoreInput = true → s.stopped = true
  payload : (s.ends b).handler.wsPayload = []
  inside : (s.ends b).handler.inFragmentBlock = false
  unclosed : (s.ends b).socket.ignoreInput = false → ∀ w ∈ handled, w.code ≠ .Close
  stream : (s.ends b).socket.ignoreInput = false →
    rest.flatMap (WireFrame.bytes (s.ends a).handler.isMasking) =
      (s.ends b).socket.inBuffer.data ++ (s.wire b ++ (s.ends a).socket.outBuffer)

/-- End `a` sends `ws`, and `b` stays as it is. -/
theorem Link.sends (hs : Link s b a handled rest) (ws : List WireFrame) (hends : t.ends b = s.ends b)
    (hmasking : (t.ends a).handler.isMasking = (s.ends a).handler.isMasking) (hsendable : ∀ w ∈ ws, Sendable w)
    (hsent : t.sent a = s.sent a ++ messagesOf ws) (hstopped : s.stopped = true → t.stopped = true)
    (hasked : ∀ w ∈ ws, w.code = .Close → t.stopped = true)
    (hclosing : (t.ends a).socket.ignoreInput = true →
      (s.ends a).socket.ignoreInput = true ∨ ∃ w ∈ ws, w.code = .Close)
    (hstream : t.wire b ++ (t.ends a).socket.outBuffer =
      s.wire b ++ (s.ends a).socket.outBuffer ++ ws.flatMap (WireFrame.bytes (s.ends a).handler.isMasking)) :
    Link t b a handled (rest ++ ws) := by
  have hmem (v : WireFrame) : v ∈ handled ++ (rest ++ ws) ↔ v ∈ handled ++ rest ∨ v ∈ ws := by
    rw [← List.append_assoc, List.mem_append]
  refine {
    sendable := fun v hv => ((hmem v).1 hv).elim (hs.sendable v) (hsendable v)
    sent := ?_
    messages := by rw [hends]; exact hs.messages
    server := by rw [hmasking, hends]; exact hs.server
    shuttingDown := by rw [hends]; exact hs.shuttingDown
    closing := fun hignore => ?_
    asked := fun v hv hcode => ((hmem v).1 hv).elim (fun hv => hstopped (hs.asked v hv hcode)) fun hv =>
      hasked v hv hcode
    ignored := fun hignore => hstopped (hs.ignored (hends ▸ hignore))
    payload := by rw [hends]; exact hs.payload
    inside := by rw [hends]; exact hs.inside
    unclosed := fun hopen => hs.unclosed (hends ▸ hopen)
    stream := fun hopen => ?_ }
  · rw [hsent, hs.sent, ← messagesOf_append, List.append_assoc]
  · obtain hignore | ⟨v, hv, hcode⟩ := hclosing hignore
    · obtain ⟨v, hv, hcode⟩ := hs.closing hignore
      exact ⟨v, (hmem v).2 (.inl hv), hcode⟩
    · exact ⟨v, (hmem v).2 (.inr hv), hcode⟩
  · rw [hends] at hopen ⊢
    rw [hstream, hmasking, List.flatMap_append, hs.stream hopen]
    simp only [List.append_assoc]

/-- What `b` sends itself and what it reads are no frames of `a`. -/
theorem Link.keeps (hs : Link s b a handled rest) (hends : t.ends a = s.ends a) (hsent : t.sent a = s.sent a)
    (hmessages : (t.ends b).handler.messages = (s.ends b).handler.messages)
    (hclient : (t.ends b).handler.isClient = (s.ends b).handler.isClient)
    (hshutting : (t.ends b).handler.shuttingDown = false) (hpayload : (t.ends b).handler.wsPayload = [])
    (hinside : (t.ends b).handler.inFragmentBlock = false) (hstopped : s.stopped = true → t.stopped = true)
    (hopen : (t.ends b).socket.ignoreInput = true ∧ t.stopped = true ∨
      (t.ends b).socket.ignoreInput = (s.ends b).socket.ignoreInput ∧ (t.ends b).socket.inBuffer.data ++ t.wire b =
        (s.ends b).socket.inBuffer.data ++ s.wire b) : Link t b a handled rest := by
  refine {
    sendable := hs.sendable
    sent := hsent.trans hs.sent
    messages := hmessages.trans hs.messages
    server := by rw [hends, hclient]; exact hs.server
    shuttingDown := hshutting
    closing := fun hignore => hs.closing (hends ▸ hignore)
    asked := fun v hv hcode => hstopped (hs.asked v hv hcode)
    ignored := fun hignore => ?_
    payload := hpayload
    inside := hinside
    unclosed := fun hup => ?_
    stream := fun hup => ?_ }
  · obtain ⟨-, hstop⟩ | ⟨hsame, -⟩ := hopen
    · exact hstop
    · exact hstopped (hs.ignored (hsame ▸ hignore))
  · obtain ⟨hignore, -⟩ | ⟨hsame, -⟩ := hopen
    · cases hup.symm.trans hignore
    · exact hs.unclosed (hsame ▸ hup)
  · obtain ⟨hignore, -⟩ | ⟨hsame, hdata⟩ := hopen
    · cases hup.symm.trans hignore
    · rw [hends, ← List.append_assoc, hdata, List.append_assoc]
      exact hs.stream (hsame ▸ hup)

/-- `b` handles the first frame. -/
theorem Link.handles (hs : Link s b a handled (w :: rest)) (hne : a ≠ b) (hup : (s.ends b).socket.ignoreInput = false)
    {c : Connection} (hmessages : c.handler.messages = (s.ends b).handler.messages ++ messagesOf [w])
    (hclient : c.handler.isClient = (s.ends b).handler.isClient) (hshutting : c.handler.shuttingDown = false)
    (hpayload : c.handler.wsPayload = []) (hinside : c.handler.inFragmentBlock = false)
    (hlen : (w.bytes (s.ends a).handler.isMasking).length ≤ (s.ends b).socket.inBuffer.data.length)
    (hopen : c.socket.ignoreInput = true ∧ w.code = .Close ∨
      w.code ≠ .Close ∧ c.socket.ignoreInput = false ∧ c.socket.inBuffer.data =
        (s.ends b).socket.inBuffer.data.drop (w.bytes (s.ends a).handler.isMasking).length) :
    Link (s.update b c) b a (handled ++ [w]) rest := by
  have hself := s.ends_update_self b c
  have hends := s.ends_update_of_ne c hne
  have hall : handled ++ [w] ++ rest = handled ++ w :: rest := by rw [List.append_assoc, List.singleton_append]
  refine {
    sendable := by rw [hall]; exact hs.sendable
    sent := by rw [hall]; exact hs.sent
    messages := by rw [hself, hmessages, hs.messages, messagesOf_append]
    server := by rw [hends, hself, hclient]; exact hs.server
    shuttingDown := by rw [hself]; exact hshutting
    closing := fun hignore => by rw [hall]; exact hs.closing (hends ▸ hignore)
    asked := by rw [hall]; exact hs.asked
    ignored := fun hignore => ?_
    payload := by rw [hself]; exact hpayload
    inside := by rw [hself]; exact hinside
    unclosed := fun hopen' v hv => ?_
    stream := fun hopen' => ?_ }
  · rw [hself] at hignore
    obtain ⟨-, hcode⟩ | ⟨-, hopen, -⟩ := hopen
    · exact hs.asked w (List.mem_append_right _ List.mem_cons_self) hcode
    · cases hopen.symm.trans hignore
  · rw [hself] at hopen'
    obtain ⟨hignore, -⟩ | ⟨hcode, -, -⟩ := hopen
    · cases hopen'.symm.trans hignore
    · obtain hv | hv := List.mem_append.1 hv
      · exact hs.unclosed hup v hv
      · rw [List.mem_singleton.1 hv]
        exact hcode
  · rw [hself] at hopen'
    obtain ⟨hignore, -⟩ | ⟨-, -, hdata⟩ := hopen
    · cases hopen'.symm.trans hignore
    · have hstream := congrArg (List.drop (w.bytes (s.ends a).handler.isMasking).length) (hs.stream hup)
      rw [List.flatMap_cons, List.drop_left, List.drop_append_of_le_length hlen] at hstream
      rw [hends, hself, hdata]
      exact hstream

/-- Each end reads what the other one has sent. -/
def Linked (s : WebSocketPeers) : Prop := ∀ b a, b ≠ a → ∃ handled rest, Link s b a handled rest

theorem linked_of (hne : b ≠ a) (h : ∃ handled rest, Link s b a handled rest)
    (h' : ∃ handled rest, Link s a b handled rest) : Linked s := by
  intro d c hdc
  cases a <;> cases b <;> cases c <;> cases d <;>
    first | exact absurd rfl hne | exact absurd rfl hdc | exact h | exact h'

/-! ### What an end does with a frame -/

section Frames

variable {c : Connection} {isMasking : Bool}

theorem shutdown_eq (h : c.handler.shuttingDown = false) (statusCode : StatusCode) (statusMessage : List UInt8) :
    c.shutdown statusCode statusMessage =
      { handler := { c.handler with wsPayload := [], inFragmentBlock := false, shuttingDown := false }
        socket := { c.socket with
          outBuffer := c.socket.outBuffer ++
            WireFrame.bytes c.handler.isMasking ⟨true, .Close, toBytes 2 statusCode ++ statusMessage⟩
          shutdownSignalled := true, ignoreInput := true, inBuffer := .empty } } := by
  unfold Connection.shutdown Connection.sendCloseFrame Connection.sendFrame
  simp only [h, Bool.false_eq_true, if_false]
  rw [if_neg (by simp [toBytes])]
  rfl

theorem sendFrame_eq {data : List UInt8} (h : data ≠ []) (code : WSOpCode) : c.sendFrame data (0x80 ||| code) =
    { c with socket := { c.socket with
      outBuffer := c.socket.outBuffer ++ WireFrame.bytes c.handler.isMasking ⟨true, code, data⟩ } } := by
  unfold Connection.sendFrame
  rw [if_neg (by rw [List.isEmpty_iff]; exact h)]
  rfl

theorem sendFrame_keeps (c : Connection) (data : List UInt8) (flags : UInt8) :
    (c.sendFrame data flags).handler = c.handler ∧
    (c.sendFrame data flags).socket.ignoreInput = c.socket.ignoreInput ∧
      (c.sendFrame data flags).socket.inBuffer = c.socket.inBuffer := by
  unfold Connection.sendFrame
  split <;> exact ⟨rfl, rfl, rfl⟩

/-- What an end does with a frame of the other one. -/
theorem handleFrame_cases (beyond : UInt8) (hw : Sendable w) (hserver : (isMasking && c.handler.isClient) = false)
    (hshutting : c.handler.shuttingDown = false) (hpayload : c.handler.wsPayload = [])
    (hinside : c.handler.inFragmentBlock = false) (size : Nat) :
    isControlFrame w.code = false ∧ c.handleFrame beyond ⟨w.fin, w.code, isMasking, w.payload, size⟩ =
        { c.eraseFirst size with
          handler :=
            { c.handler with
              messages := c.handler.messages ++ [w.payload], inFragmentBlock := false, wsPayload := [] } } ∨
      isControlFrame w.code = true ∧ w.code ≠ .Close ∧
        (c.handleFrame beyond ⟨w.fin, w.code, isMasking, w.payload, size⟩ = c.eraseFirst size ∨
          w.payload.length ≤ 125 ∧
            c.handleFrame beyond ⟨w.fin, w.code, isMasking, w.payload, size⟩ =
              (c.eraseFirst size).sendPong w.payload) ∨
      w.code = .Close ∧ ∃ statusCode statusMessage, 2 + statusMessage.length < 2 ^ 64 ∧
        c.handleFrame beyond ⟨w.fin, w.code, isMasking, w.payload, size⟩ =
          (c.eraseFirst size).shutdown statusCode statusMessage := by
  obtain ⟨fin, code, payload⟩ := w
  obtain rfl : fin = true := hw.fin
  obtain hcode := hw.code
  dsimp only at hcode ⊢
  unfold Connection.handleFrame
  rw [if_neg (by rw [hserver]; exact Bool.false_ne_true)]
  dsimp only
  obtain rfl | rfl | ⟨rfl | rfl, hshort⟩ | rfl := hcode
  · refine .inl ⟨by decide, ?_⟩
    rw [if_neg (by decide), hinside, hpayload]
    rfl
  · refine .inl ⟨by decide, ?_⟩
    rw [if_neg (by decide), hinside, hpayload]
    rfl
  · refine .inr (.inl ⟨by decide, by decide, .inr ⟨hshort, ?_⟩⟩)
    rw [if_pos (by decide), if_neg (by decide), if_neg (by omega), if_neg (by decide), if_pos rfl]
  · refine .inr (.inl ⟨by decide, by decide, .inl ?_⟩)
    rw [if_pos (by decide), if_neg (by decide), if_neg (by omega), if_pos rfl]
  · refine .inr (.inr ⟨rfl, ?_⟩)
    rw [if_pos (by decide), if_neg (by decide)]
    by_cases hlong : 125 < payload.length
    · rw [if_pos hlong]
      exact ⟨_, [], by decide, rfl⟩
    · rw [if_neg hlong, if_neg (by decide), if_neg (by decide), if_pos rfl, Connection.eraseFirst_handler,
        hshutting, if_neg Bool.false_ne_true]
      refine ⟨_, _, ?_, rfl⟩
      match payload, hlong with
      | [], _ => exact (by decide : 2 + 0 < 2 ^ 64)
      | [_], _ => exact (by decide : 2 + 0 < 2 ^ 64)
      | _ :: _ :: message, hlong =>
        simp only [List.length_cons] at hlong
        change 2 + message.length < 2 ^ 64
        omega

end Frames

/-! ### What an end does to the links -/

theorem Sendable.code_lt (hw : Sendable w) : w.code.toNat < 16 := by
  obtain hcode | hcode | ⟨hcode | hcode, -⟩ | hcode := hw.code
  all_goals
    rw [hcode]
    decide

/-- What can be read from the buffer is the first frame. -/
theorem Link.front (hs : Link s b a handled rest) (hup : (s.ends b).socket.ignoreInput = false) {f : WebSocketFrame}
    (hread : readFrame (s.ends b).socket.inBuffer.data = some f) : ∃ w rest', rest = w :: rest' ∧
      f = ⟨w.fin, w.code, (s.ends a).handler.isMasking, w.payload, (w.bytes (s.ends a).handler.isMasking).length⟩ ∧
      (w.bytes (s.ends a).handler.isMasking).length ≤ (s.ends b).socket.inBuffer.data.length := by
  have hstream := hs.stream hup
  have hsize := readFrame_size hread
  cases rest with
  | nil =>
    have hempty := (List.append_eq_nil_iff.1 hstream.symm).1
    rw [hempty] at hsize
    exact absurd (hsize.1.trans hsize.2) (by decide)
  | cons w rest =>
    have hw := hs.sendable w (List.mem_append_right _ List.mem_cons_self)
    have hfront := readFrame_append (s.wire b ++ (s.ends a).socket.outBuffer) hread
    rw [← hstream, List.flatMap_cons, WireFrame.readFrame_bytes hw.code_lt hw.length] at hfront
    obtain rfl := Option.some.inj hfront
    exact ⟨w, rest, rfl, rfl, hsize.2⟩

theorem Link.sends_update (hs : Link s b a handled rest) (ws : List WireFrame) (hne : b ≠ a) {c : Connection}
    (hmasking : c.handler.isMasking = (s.ends a).handler.isMasking) (hsendable : ∀ w ∈ ws, Sendable w)
    (hnone : messagesOf ws = []) (hasked : ∀ w ∈ ws, w.code = .Close → s.stopped = true)
    (hclosing : c.socket.ignoreInput = true → (s.ends a).socket.ignoreInput = true ∨ ∃ w ∈ ws, w.code = .Close)
    (hout : c.socket.outBuffer =
      (s.ends a).socket.outBuffer ++ ws.flatMap (WireFrame.bytes (s.ends a).handler.isMasking)) :
    Link (s.update a c) b a handled (rest ++ ws) := by
  have hself := s.ends_update_self a c
  refine hs.sends ws (s.ends_update_of_ne c hne) ?_ hsendable ?_ id hasked ?_ ?_
  · rw [hself]
    exact hmasking
  · rw [hnone]
    exact (List.append_nil _).symm
  · rw [hself]
    exact hclosing
  · rw [hself, hout, List.append_assoc]
    rfl

/-- The end handles a frame and the other one goes on reading what it sends. -/
theorem Linked.handleFrame (hs : Linked s) (hup : (s.ends b).socket.ignoreInput = false) {f : WebSocketFrame}
    (hread : readFrame (s.ends b).socket.inBuffer.data = some f) :
    Linked (s.update b ((s.ends b).handleFrame beyond f)) := by
  obtain ⟨a, hne⟩ : ∃ a, b ≠ a := ⟨!b, by cases b <;> decide⟩
  obtain ⟨handled, rest, h⟩ := hs b a hne
  obtain ⟨handled', rest', h'⟩ := hs a b hne.symm
  obtain ⟨w, rest, rfl, rfl, hlen⟩ := h.front hup hread
  have hw := h.sendable w (List.mem_append_right _ List.mem_cons_self)
  generalize hsize : (w.bytes (s.ends a).handler.isMasking).length = size at hlen
  have herase : ((s.ends b).eraseFirst size).socket.inBuffer.data = (s.ends b).socket.inBuffer.data.drop size :=
    Buffer.data_eraseFirst size
  have hnothing : (s.ends b).handler.messages = (s.ends b).handler.messages ++ [] := (List.append_nil _).symm
  have hsilent {c : Connection} (hmasking : c.handler.isMasking = (s.ends b).handler.isMasking)
      (hignore : c.socket.ignoreInput = (s.ends b).socket.ignoreInput)
      (hout : c.socket.outBuffer = (s.ends b).socket.outBuffer) :
        ∃ handled rest, Link (s.update b c) a b handled rest := by
    refine ⟨_, _, h'.sends_update [] hne.symm hmasking (by simp) rfl (by simp) (fun h => .inl (hignore ▸ h)) ?_⟩
    rw [hout]
    exact (List.append_nil _).symm
  -- a ping or a pong changes at most what the end sends
  have hskips {c : Connection} (hcode : isControlFrame w.code = true) (hopen : w.code ≠ .Close)
      (hhandler : c.handler = (s.ends b).handler) (hignore : c.socket.ignoreInput = (s.ends b).socket.ignoreInput)
      (hbuffer : c.socket.inBuffer = ((s.ends b).eraseFirst size).socket.inBuffer) :
      ∃ handled rest, Link (s.update b c) b a handled rest := by
    refine ⟨_, _, h.handles hne.symm hup ?_ (by rw [hhandler]) ?_ ?_ ?_ (hsize ▸ hlen)
      (.inr ⟨hopen, hignore.trans hup, ?_⟩)⟩
    · rw [messagesOf_control hcode, hhandler]
      exact hnothing
    · rw [hhandler]
      exact h.shuttingDown
    · rw [hhandler]
      exact h.payload
    · rw [hhandler]
      exact h.inside
    · rw [hbuffer, hsize]
      exact herase
  have hcases := handleFrame_cases beyond hw h.server h.shuttingDown h.payload h.inside size
  obtain ⟨hdata, heq⟩ | ⟨hcode, hopen, heq | ⟨hshort, heq⟩⟩ | ⟨hcode, statusCode, statusMessage, hshort, heq⟩ :=
    hcases
  · -- a message
    have hopen : w.code ≠ .Close := by
      intro hcode
      rw [hcode] at hdata
      cases hdata
    rw [heq]
    refine linked_of hne
      ⟨_, _, h.handles hne.symm hup ?_ rfl h.shuttingDown rfl rfl (hsize ▸ hlen) (.inr ⟨hopen, hup, ?_⟩)⟩
      (hsilent rfl rfl rfl)
    · rw [messagesOf_data hdata]
    · rw [hsize]
      exact herase
  · -- a pong
    rw [heq]
    exact linked_of hne (hskips hcode hopen rfl rfl rfl) (hsilent rfl rfl rfl)
  · -- a ping, which is answered if it has a payload
    rw [heq]
    obtain ⟨hhandler, hignore, hbuffer⟩ :=
      sendFrame_keeps ((s.ends b).eraseFirst size) w.payload (0x80 ||| WSOpCode.Pong)
    refine linked_of hne (hskips hcode hopen hhandler hignore hbuffer) ?_
    unfold Connection.sendPong
    by_cases hempty : w.payload = []
    · have hsame : ((s.ends b).eraseFirst size).sendFrame w.payload (0x80 ||| WSOpCode.Pong) =
          (s.ends b).eraseFirst size := by
        unfold Connection.sendFrame
        rw [if_pos (by rw [hempty]; rfl)]
      rw [hsame]
      exact hsilent rfl rfl rfl
    · have hpong : Sendable ⟨true, .Pong, w.payload⟩ := ⟨rfl, hw.length, .inr (.inr (.inl ⟨.inr rfl, hshort⟩))⟩
      rw [sendFrame_eq hempty]
      refine ⟨_, _, h'.sends_update [⟨true, .Pong, w.payload⟩] hne.symm rfl ?_ rfl ?_ .inl ?_⟩
      · intro v hv
        rw [List.mem_singleton.1 hv]
        exact hpong
      · intro v hv hclose
        rw [List.mem_singleton.1 hv] at hclose
        cases hclose
      · rw [List.flatMap_singleton]
        rfl
  · -- a close frame, which is answered by one
    have hstopped : s.stopped = true := h.asked w (List.mem_append_right _ List.mem_cons_self) hcode
    have hclose : Sendable ⟨true, .Close, toBytes 2 statusCode ++ statusMessage⟩ := by
      refine ⟨rfl, ?_, .inr (.inr (.inr rfl))⟩
      rw [List.length_append, length_toBytes]
      exact hshort
    rw [heq, shutdown_eq (c := (s.ends b).eraseFirst size) h.shuttingDown]
    refine linked_of hne ⟨_, _, h.handles hne.symm hup ?_ rfl rfl rfl rfl (hsize ▸ hlen) (.inl ⟨rfl, hcode⟩)⟩
      ⟨_, _, h'.sends_update [⟨true, .Close, toBytes 2 statusCode ++ statusMessage⟩] hne.symm rfl ?_ rfl
        (fun _ _ _ => hstopped) (fun _ => .inr ⟨_, List.mem_singleton.2 rfl, rfl⟩) ?_⟩
    · rw [messagesOf_control (by rw [hcode]; decide)]
      exact hnothing
    · intro v hv
      rw [List.mem_singleton.1 hv]
      exact hclose
    · rw [List.flatMap_singleton]
      rfl

/-- Nothing that is complete is left in the buffer. -/
def Drained (c : Connection) : Prop := c.socket.ignoreInput = false → readFrame c.socket.inBuffer.data = none

theorem Linked.rounds (n : Nat) (hs : Linked s) (hn : (s.ends b).socket.inBuffer.data.length ≤ n) :
    Linked (s.update b (Connection.rounds beyond n (s.ends b))) ∧
    Drained (Connection.rounds beyond n (s.ends b)) := by
  induction n generalizing s with
  | zero =>
    refine ⟨by rw [Connection.rounds, update_ends]; exact hs, fun _ => ?_⟩
    rw [Connection.rounds, List.eq_nil_of_length_eq_zero (Nat.le_zero.1 hn)]
    rfl
  | succ n ih =>
    cases hup : (s.ends b).socket.ignoreInput with
    | true =>
      have hstay : Connection.rounds beyond (n + 1) (s.ends b) = s.ends b := by
        unfold Connection.rounds
        rw [if_pos hup]
      rw [hstay, update_ends]
      exact ⟨hs, fun hopen => absurd (hup.symm.trans hopen) (by decide)⟩
    | false =>
      cases hread : readFrame (s.ends b).socket.inBuffer.data with
      | none =>
        have hstay : Connection.rounds beyond (n + 1) (s.ends b) = s.ends b := by
          have hround : (s.ends b).handleTCPStream beyond = (false, s.ends b) := by
            unfold Connection.handleTCPStream
            split
            · rfl
            · rw [hread]
          unfold Connection.rounds
          rw [if_neg (by rw [hup]; exact Bool.false_ne_true), hround]
        rw [hstay, update_ends]
        exact ⟨hs, fun _ => hread⟩
      | some f =>
        obtain ⟨hpos, hsize⟩ := readFrame_size hread
        have hnext : Connection.rounds beyond (n + 1) (s.ends b) =
            Connection.rounds beyond n ((s.ends b).handleFrame beyond f) := by
          have hround : (s.ends b).handleTCPStream beyond = (true, (s.ends b).handleFrame beyond f) := by
            unfold Connection.handleTCPStream
            rw [if_neg (by rw [← Buffer.length_data]; omega), hread]
          rw [Connection.rounds, if_neg (by rw [hup]; exact Bool.false_ne_true), hround]
        have hself := s.ends_update_self b ((s.ends b).handleFrame beyond f)
        have hshorter : ((s.ends b).handleFrame beyond f).socket.inBuffer.data.length ≤ n := by
          obtain ⟨-, hdata⟩ | ⟨-, hdata⟩ := Connection.handleFrame_input beyond f hup
          · rw [hdata]
            exact Nat.zero_le n
          · rw [hdata, List.length_drop]
            omega
        have hrest := ih (hs.handleFrame hup hread) (hself ▸ hshorter)
        rw [hself, update_update, ← hnext] at hrest
        exact hrest

/-- End `b` sends or moves bytes, and handles nothing. -/
theorem Linked.moves (hs : Linked s) (ws : List WireFrame) (hne : b ≠ a) (hends : t.ends a = s.ends a)
    (hhandler : (t.ends b).handler = (s.ends b).handler)
    (hignore : (t.ends b).socket.ignoreInput = (s.ends b).socket.ignoreInput)
    (hinput : (s.ends b).socket.ignoreInput = false →
      (t.ends b).socket.inBuffer.data ++ t.wire b = (s.ends b).socket.inBuffer.data ++ s.wire b)
    (hsent : t.sent a = s.sent a) (hsent' : t.sent b = s.sent b ++ messagesOf ws) (hstopped : t.stopped = s.stopped)
    (hsendable : ∀ w ∈ ws, Sendable w ∧ w.code ≠ .Close)
    (hstream : t.wire a ++ (t.ends b).socket.outBuffer =
      s.wire a ++ (s.ends b).socket.outBuffer ++ ws.flatMap (WireFrame.bytes (s.ends b).handler.isMasking)) :
    Linked t := by
  obtain ⟨handled, rest, h⟩ := hs b a hne
  obtain ⟨handled', rest', h'⟩ := hs a b hne.symm
  refine linked_of hne ⟨_, _, h.keeps hends hsent (by rw [hhandler]) (by rw [hhandler]) ?_ ?_ ?_ (hstopped ▸ id) ?_⟩
    ⟨_, _, h'.sends ws hends (by rw [hhandler]) (fun v hv => (hsendable v hv).1) hsent' (hstopped ▸ id)
      (fun v hv hclose => absurd hclose (hsendable v hv).2) (fun hi => .inl (hignore ▸ hi)) hstream⟩
  · rw [hhandler]
    exact h.shuttingDown
  · rw [hhandler]
    exact h.payload
  · rw [hhandler]
    exact h.inside
  · cases hup : (s.ends b).socket.ignoreInput with
    | true => exact .inl ⟨hignore.trans hup, hstopped ▸ h.ignored hup⟩
    | false => exact .inr ⟨hignore.trans hup, hinput hup⟩

theorem eq_or_eq_of_ne : ∀ {b a : Bool}, b ≠ a → ∀ d, d = b ∨ d = a := by decide

structure Inv (s : WebSocketPeers) : Prop where
  linked : Linked s
  drained : ∀ b, Drained (s.ends b)

theorem Inv.moves (hs : Inv s) (ws : List WireFrame) (hne : b ≠ a) (hends : t.ends a = s.ends a)
    (hhandler : (t.ends b).handler = (s.ends b).handler)
    (hignore : (t.ends b).socket.ignoreInput = (s.ends b).socket.ignoreInput)
    (hbuffer : (t.ends b).socket.inBuffer = (s.ends b).socket.inBuffer) (hwire : t.wire b = s.wire b)
    (hsent : t.sent a = s.sent a) (hsent' : t.sent b = s.sent b ++ messagesOf ws) (hstopped : t.stopped = s.stopped)
    (hsendable : ∀ w ∈ ws, Sendable w ∧ w.code ≠ .Close)
    (hstream : t.wire a ++ (t.ends b).socket.outBuffer =
      s.wire a ++ (s.ends b).socket.outBuffer ++ ws.flatMap (WireFrame.bytes (s.ends b).handler.isMasking)) :
        Inv t where
  linked := hs.linked.moves ws hne hends hhandler hignore
    (fun _ => by rw [hbuffer, hwire]) hsent hsent' hstopped hsendable hstream
  drained d := by
    obtain rfl | rfl := eq_or_eq_of_ne hne d
    · unfold Drained
      rw [hignore, hbuffer]
      exact hs.drained d
    · rw [hends]
      exact hs.drained d

/-- End `b` sends a frame, or nothing if the frame is empty. -/
theorem Inv.sendFrame (hs : Inv s) (hne : b ≠ a) {data : List UInt8} {code : WSOpCode}
    (hw : Sendable ⟨true, code, data⟩) (hcode : code ≠ .Close)
    (hends : t.ends = (s.update b ((s.ends b).sendFrame data (0x80 ||| code))).ends) (hwire : t.wire = s.wire)
    (hsent : t.sent a = s.sent a)
    (hsent' : t.sent b = s.sent b ++ if data.isEmpty then [] else messagesOf [⟨true, code, data⟩])
    (hstopped : t.stopped = s.stopped) : Inv t := by
  have hself : t.ends b = (s.ends b).sendFrame data (0x80 ||| code) := by
    rw [hends]
    exact s.ends_update_self b _
  have hother : t.ends a = s.ends a := by
    rw [hends]
    exact s.ends_update_of_ne _ hne.symm
  obtain ⟨hhandler, hignore, hbuffer⟩ := sendFrame_keeps (s.ends b) data (0x80 ||| code)
  rw [← hself] at hhandler hignore hbuffer
  by_cases hempty : data = []
  · rw [hempty] at hself hsent'
    refine hs.moves [] hne hother hhandler hignore hbuffer (by rw [hwire]) hsent hsent' hstopped (by simp) ?_
    rw [hwire, hself]
    exact (List.append_nil _).symm
  · rw [if_neg (by rw [List.isEmpty_iff]; exact hempty)] at hsent'
    refine hs.moves [⟨true, code, data⟩] hne hother hhandler hignore hbuffer
      (by rw [hwire]) hsent hsent' hstopped ?_ ?_
    · intro v hv
      rw [List.mem_singleton.1 hv]
      exact ⟨hw, hcode⟩
    · rw [hwire, hself, sendFrame_eq hempty, List.flatMap_singleton, List.append_assoc]

theorem Inv.sendMessage (hs : Inv s) (hne : b ≠ a) {data : List UInt8} {code : WSOpCode} (hlen : data.length < 2 ^ 64)
    (hcode : code = .Text ∨ code = .Binary) : Inv (s.sendMessage b data code) := by
  have hdata : isControlFrame code = false := by
    obtain rfl | rfl := hcode <;> decide
  have hopen : code ≠ .Close := by
    obtain rfl | rfl := hcode <;> decide
  have hw : Sendable ⟨true, code, data⟩ := ⟨rfl, hlen, hcode.elim .inl fun h => .inr (.inl h)⟩
  refine hs.sendFrame hne hw hopen rfl rfl ?_ ?_ rfl
  · exact Function.update_of_ne hne.symm ..
  · rw [messagesOf_data hdata]
    exact Function.update_self ..

theorem Inv.sendPing (hs : Inv s) (hne : b ≠ a) : Inv (s.sendPing b) := by
  have hw : Sendable ⟨true, .Ping, [0]⟩ := ⟨rfl, by decide, .inr (.inr (.inl ⟨.inl rfl, by decide⟩))⟩
  exact hs.sendFrame hne hw (by decide) rfl rfl rfl (List.append_nil _).symm rfl

theorem Inv.write (hs : Inv s) (hne : b ≠ a) (n : Nat) : Inv (s.write b n) := by
  have hnot : (!b) = a := (eq_or_eq_of_ne hne (!b)).resolve_left (Bool.not_ne_self b)
  unfold WebSocketPeers.write
  rw [hnot]
  refine hs.moves [] hne (s.ends_update_of_ne _ hne.symm) ?_ ?_ ?_ ?_ rfl (List.append_nil _).symm rfl (by simp) ?_
  · dsimp only
    rw [ends_update_self]
  · dsimp only
    rw [ends_update_self]
  · dsimp only
    rw [ends_update_self]
  · exact Function.update_of_ne hne ..
  · dsimp only
    rw [ends_update_self, Function.update_self, List.append_assoc, List.take_append_drop]
    exact (List.append_nil _).symm

theorem Inv.shutdown (hs : Inv s) (hne : b ≠ a) (statusCode : StatusCode) {statusMessage : List UInt8}
    (hlen : 2 + statusMessage.length < 2 ^ 64) : Inv (s.shutdown b statusCode statusMessage) := by
  obtain ⟨handled, rest, h⟩ := hs.linked b a hne
  obtain ⟨handled', rest', h'⟩ := hs.linked a b hne.symm
  have hself := s.ends_update_self b ((s.ends b).shutdown statusCode statusMessage)
  have hother := s.ends_update_of_ne ((s.ends b).shutdown statusCode statusMessage) hne.symm
  have hshutdown := shutdown_eq h.shuttingDown statusCode statusMessage
  have hclose : Sendable ⟨true, .Close, toBytes 2 statusCode ++ statusMessage⟩ := by
    refine ⟨rfl, ?_, .inr (.inr (.inr rfl))⟩
    rw [List.length_append, length_toBytes]
    exact hlen
  unfold WebSocketPeers.shutdown
  refine ⟨linked_of hne ⟨_, _, h.keeps hother rfl ?_ ?_ ?_ ?_ ?_ (fun _ => rfl) (.inl ⟨?_, rfl⟩)⟩
    ⟨_, _, h'.sends [⟨true, .Close, toBytes 2 statusCode ++ statusMessage⟩] hother ?_ ?_ (List.append_nil _).symm
      (fun _ => rfl) (fun _ _ _ => rfl) (fun _ => .inr ⟨_, List.mem_singleton.2 rfl, rfl⟩) ?_⟩, ?_⟩
  · rw [hself, hshutdown]
  · rw [hself, hshutdown]
  · rw [hself, hshutdown]
  · rw [hself, hshutdown]
  · rw [hself, hshutdown]
  · rw [hself, hshutdown]
  · rw [hself, hshutdown]
  · intro v hv
    rw [List.mem_singleton.1 hv]
    exact hclose
  · rw [hself, hshutdown, List.flatMap_singleton, List.append_assoc]
    rfl
  · intro d
    obtain rfl | rfl := eq_or_eq_of_ne hne d
    · rw [hself, hshutdown]
      intro hopen
      cases hopen
    · rw [hother]
      exact hs.drained d

theorem Inv.read (hs : Inv s) (hne : b ≠ a) (n : Nat) : Inv (s.read beyond b n) := by
  unfold WebSocketPeers.read
  cases hup : (s.ends b).socket.ignoreInput with
  | true =>
    rw [if_pos rfl]
    exact hs
  | false =>
    rw [if_neg Bool.false_ne_true]
    obtain ⟨c, hc⟩ : ∃ c : Connection, c = { s.ends b with socket := { (s.ends b).socket with
      inBuffer := (s.ends b).socket.inBuffer.append ((s.wire b).take n) } } := ⟨_, rfl⟩
    obtain ⟨u, hu⟩ : ∃ u : WebSocketPeers, u = { s.update b c with
      wire := Function.update s.wire b ((s.wire b).drop n) } := ⟨_, rfl⟩
    have hself : u.ends b = c := by
      rw [hu]
      exact s.ends_update_self b c
    have hother : u.ends a = s.ends a := by
      rw [hu]
      exact s.ends_update_of_ne c hne.symm
    have harrive : (s.ends b).arrive beyond ((s.wire b).take n) =
        Connection.rounds beyond c.socket.inBuffer.size c := by
      unfold Connection.arrive
      rw [if_neg (by rw [hup]; exact Bool.false_ne_true), hc]
      rfl
    have hlinked : Linked u := by
      refine hs.linked.moves [] hne hother ?_ ?_ (fun _ => ?_) ?_ ?_ ?_ (by simp) ?_
      · rw [hself, hc]
      · rw [hself, hc]
      · rw [hself, hc, hu]
        dsimp only
        rw [Buffer.data_append, Function.update_self, List.append_assoc, List.take_append_drop]
      · rw [hu]
        rfl
      · rw [hu]
        exact (List.append_nil _).symm
      · rw [hu]
        rfl
      · rw [hself, hc, hu]
        dsimp only
        rw [Function.update_of_ne hne.symm]
        exact (List.append_nil _).symm
    have hrounds := @Linked.rounds beyond u b c.socket.inBuffer.size hlinked (by rw [hself, Buffer.length_data])
    rw [hself, ← harrive] at hrounds
    have hstate : u.update b ((s.ends b).arrive beyond ((s.wire b).take n)) =
        { s.update b ((s.ends b).arrive beyond ((s.wire b).take n)) with
          wire := Function.update s.wire b ((s.wire b).drop n) } := by
      rw [hu]
      unfold update
      dsimp only
      rw [Function.update_idem]
    rw [← hstate]
    refine ⟨hrounds.1, fun d => ?_⟩
    obtain rfl | rfl := eq_or_eq_of_ne hne d
    · rw [ends_update_self]
      exact hrounds.2
    · rw [ends_update_of_ne _ _ hne.symm, hother]
      exact hs.drained d

theorem Inv.handle (hs : Inv s) {e : Event} (henabled : s.enabled e = true) : Inv (s.handle beyond e) := by
  have hne (b : Bool) : b ≠ !b := (Bool.not_ne_self b).symm
  cases e with
  | sendTextMessage b data =>
    exact hs.sendMessage (hne b) (of_decide_eq_true ((Bool.and_eq_true _ _).mp henabled).2) (.inl rfl)
  | sendBinaryMessage b data =>
    exact hs.sendMessage (hne b) (of_decide_eq_true ((Bool.and_eq_true _ _).mp henabled).2) (.inr rfl)
  | sendPing b => exact hs.sendPing (hne b)
  | shutdown b statusCode statusMessage =>
    exact hs.shutdown (hne b) statusCode (of_decide_eq_true ((Bool.and_eq_true _ _).mp henabled).2)
  | write b n => exact hs.write (hne b) n
  | read b n => exact hs.read (hne b) n
  | close b =>
    refine ⟨fun d c hdc => ?_, hs.drained⟩
    obtain ⟨handled, rest, h⟩ := hs.linked d c hdc
    exact ⟨handled, rest, { h with }⟩

theorem inv_new (isMasking : Bool) : Inv (new isMasking) where
  linked b a hne := by
    refine ⟨[], [], ?_⟩
    refine ⟨by simp, rfl, rfl, ?_, rfl, nofun, by simp, nofun, rfl, rfl, by simp, fun _ => rfl⟩
    revert hne
    cases a <;> cases b <;> simp [new, WebSocketHandler.new]
  drained _ _ := rfl

theorem inv_of_reachable (h : Reachable beyond s) : Inv s := by
  refine h.invariant Inv ?_ ?_
  · rintro s ⟨isMasking, rfl⟩
    exact inv_new isMasking
  · intro s e t _ hs _ hstep
    obtain ⟨henabled, hhandle⟩ := Option.ite_none_right_eq_some.1 hstep
    obtain rfl := Option.some.inj hhandle
    exact hs.handle henabled

/-! ### Messages and shutdowns -/

/-- When everything has been read, all frames are handled. -/
theorem Link.all_handled (hs : Link s b a handled rest) (hdrained : Drained (s.ends b)) (hwire : s.wire b = [])
    (hout : (s.ends a).socket.outBuffer = []) (hup : (s.ends b).socket.ignoreInput = false) : rest = [] := by
  have hstream := hs.stream hup
  have hnone := hdrained hup
  rw [hwire, hout, List.append_nil, List.append_nil] at hstream
  cases rest with
  | nil => rfl
  | cons w rest =>
    have hw := hs.sendable w (List.mem_append_right _ List.mem_cons_self)
    rw [← hstream, List.flatMap_cons, WireFrame.readFrame_bytes hw.code_lt hw.length] at hnone
    cases hnone

/-- An end handles the messages of the other one in their order, and all of them once everything has been read and as
long as it has not shut down. -/
theorem messages_in_order (h : Reachable beyond s) (b : Bool) : (s.ends b).handler.messages <+: s.sent (!b) ∧
    (s.wire b = [] → (s.ends (!b)).socket.outBuffer = [] → (s.ends b).socket.ignoreInput = false →
      (s.ends b).handler.messages = s.sent (!b)) := by
  have hs := inv_of_reachable h
  obtain ⟨handled, rest, hlink⟩ := hs.linked b (!b) (Bool.not_ne_self b).symm
  rw [hlink.messages, hlink.sent, messagesOf_append]
  refine ⟨List.prefix_append _ _, fun hwire hout hup => ?_⟩
  rw [hlink.all_handled (hs.drained b) hwire hout hup]
  exact (List.append_nil _).symm

/-- The client sends a text, a ping and a binary message, and the server a text; both are read in pieces. -/
def textPingBinary : List Event :=
  [.sendTextMessage true [0x41, 0x42], .sendPing true, .write true 10, .read false 5,
  .sendBinaryMessage true [1, 2, 3],
    .sendTextMessage false [0x43], .write false 2, .read true 2, .write true 100, .read false 6, .read false 100,
    .write false 100, .read true 1, .read true 100]

theorem messages_in_order_textPingBinary : ∃ s : WebSocketPeers,
    (s.ends false).handler.messages = [[0x41, 0x42], [1, 2, 3]] ∧ (s.ends true).handler.messages = [[0x43]] ∧
    ∀ b, (s.ends b).handler.messages <+: s.sent (!b) ∧
      (s.wire b = [] → (s.ends (!b)).socket.outBuffer = [] → (s.ends b).socket.ignoreInput = false →
        (s.ends b).handler.messages = s.sent (!b)) := by
  obtain ⟨s, hrun, hserver, hclient⟩ : ∃ s, Run.run (step 0) (new true) textPingBinary = some s ∧
      (s.ends false).handler.messages = [[0x41, 0x42], [1, 2, 3]] ∧ (s.ends true).handler.messages = [[0x43]] :=
    ⟨_, rfl, rfl, rfl⟩
  exact ⟨s, hserver, hclient, messages_in_order (Run.Reachable.of_run (.start ⟨true, rfl⟩) hrun)⟩

/-- An end shuts down only if one of the two was asked to, and once everything has been read of an end that has shut
down, the other one has shut down too. -/
theorem shutdown_together (h : Reachable beyond s) (b : Bool) :
    ((s.ends b).socket.ignoreInput = true → s.stopped = true) ∧
    (s.wire b = [] → (s.ends (!b)).socket.outBuffer = [] → (s.ends (!b)).socket.ignoreInput = true →
      (s.ends b).socket.ignoreInput = true) := by
  have hs := inv_of_reachable h
  obtain ⟨handled, rest, hlink⟩ := hs.linked b (!b) (Bool.not_ne_self b).symm
  refine ⟨hlink.ignored, fun hwire hout hdown => ?_⟩
  by_contra hup
  have hup := Bool.eq_false_of_not_eq_true hup
  obtain ⟨w, hw, hcode⟩ := hlink.closing hdown
  rw [hlink.all_handled (hs.drained b) hwire hout hup, List.append_nil] at hw
  exact hlink.unclosed hup w hw hcode

/-- The server shuts down and the client reads its close frame. -/
theorem shutdown_together_server : ∃ s : WebSocketPeers, (s.ends false).socket.ignoreInput = true ∧
    ((s.ends true).socket.ignoreInput = true → s.stopped = true) ∧
    (s.wire true = [] → (s.ends false).socket.outBuffer = [] → (s.ends false).socket.ignoreInput = true →
      (s.ends true).socket.ignoreInput = true) := by
  obtain ⟨s, hrun, hdown⟩ : ∃ s, Run.run (step 0) (new true)
      [.shutdown false .NORMAL_CLOSE [], .write false 16, .read true 16] = some s ∧
        (s.ends false).socket.ignoreInput = true := ⟨_, rfl, rfl⟩
  exact ⟨s, hdown, shutdown_together (Run.Reachable.of_run (.start ⟨true, rfl⟩) hrun) true⟩

end WebSocketPeers

end CollaboraOnline
