import CollaboraOnline.Net.WebSocketChunks

/-!
# The reads of the web socket handler

`readFrameInBounds` and `handleFrameInBounds` fail where they use an index outside of the bytes of a frame.  A frame
is only read when its bytes are there (`readFrameInBounds_eq`).  The status of a close frame is read from two bytes,
also where the payload has only one; everything else stays in bounds (`frames_inBounds`).
-/

namespace CollaboraOnline

/-! ### Reading with bounds -/

/-- The `n` bytes from the index `i` on; `none` where they are not all there. -/
def window (p : List UInt8) (i n : Nat) : Option (List UInt8) :=
  if i + n ≤ p.length then some ((p.drop i).take n) else none

/-- `payloadLength`; `none` where a byte is read that is not there. -/
def payloadLengthInBounds (p : List UInt8) : Option (Option (Nat × Nat)) := do
  let byte ← p[1]?
  let payloadLen := (byte &&& 0x7f).toNat
  if payloadLen = 126 then
    if p.length < 2 + 2 then some none
    else (window p 2 2).map fun bytes => some (ofBytes bytes, 4)
  else if payloadLen = 127 then
    if p.length < 2 + 8 then some none
    else (window p 2 8).map fun bytes => some (ofBytes bytes, 10)
  else some (some (payloadLen, 2))

/-- `readFrame`; `none` where a byte is read that is not there. -/
def readFrameInBounds (p : List UInt8) : Option (Option WebSocketFrame) :=
  if p.length < 2 then some none
  else do
    let flags ← p[0]?
    let second ← p[1]?
    match ← payloadLengthInBounds p with
    | none => some none
    | some (payloadLen, maskAt) =>
      let hasMask := second &&& 0x80 != 0
      let headerLen := if hasMask then maskAt + 4 else maskAt
      if p.length < headerLen ∨ p.length - headerLen < payloadLen then some none
      else do
        let data ← window p headerLen payloadLen
        let payload ← if hasMask then (window p maskAt 4).map fun mask => xorMask mask data else some data
        some (some { fin := flags &&& 0x80 != 0, code := flags &&& 0x0f, hasMask, payload
                     size := headerLen + payloadLen })

/-- The status and the message of a close frame. -/
def closeStatusInBounds (ctrlPayload : List UInt8) : Option (StatusCode × List UInt8) :=
  if ctrlPayload = [] then some (.NORMAL_CLOSE, [])
  else do
    let high ← ctrlPayload[0]?
    let low ← ctrlPayload[1]?
    some (ofBytes [high, low], ctrlPayload.drop 2)

namespace Connection

/-- The status of a close frame is read. -/
def readsStatus (c : Connection) (f : WebSocketFrame) : Bool :=
  !(f.hasMask && c.handler.isClient) && f.code == WSOpCode.Close && f.fin && f.payload.length ≤ 125 &&
    !c.handler.shuttingDown

/-- `handleFrame`; `none` where a byte of the payload is read that is not there. -/
def handleFrameInBounds (c : Connection) (f : WebSocketFrame) : Option Connection :=
  if c.readsStatus f then
    (closeStatusInBounds f.payload).map fun status => (c.eraseFirst f.size).shutdown status.1 status.2
  else some (c.handleFrame 0 f)

def handleTCPStreamInBounds (c : Connection) : Option (Bool × Connection) :=
  if c.socket.inBuffer.size < 2 then some (false, c)
  else do
    match ← readFrameInBounds c.socket.inBuffer.data with
    | none => some (false, c)
    | some f => (c.handleFrameInBounds f).map fun c => (true, c)

def roundsInBounds : Nat → Connection → Option Connection
  | 0, c => some c
  | n + 1, c =>
    if c.socket.ignoreInput then some c
    else
      c.handleTCPStreamInBounds.bind fun
        | (false, c) => some c
        | (true, c) => roundsInBounds n c

/-- The bytes are in the buffer, and are not handled yet. -/
def receive (c : Connection) (piece : List UInt8) : Connection :=
  { c with socket := { c.socket with inBuffer := c.socket.inBuffer.append piece } }

def arriveInBounds (c : Connection) (piece : List UInt8) : Option Connection :=
  if c.socket.ignoreInput then some c else roundsInBounds (c.receive piece).socket.inBuffer.size (c.receive piece)

def arrivalsInBounds (c : Connection) : List (List UInt8) → Option Connection
  | [] => some c
  | piece :: pieces => (c.arriveInBounds piece).bind fun c => c.arrivalsInBounds pieces

end Connection

/-! ### The header, the mask and the payload -/

section Frames

variable {p : List UInt8} {i n : Nat}

theorem window_of_le (h : i + n ≤ p.length) : window p i n = some ((p.drop i).take n) := if_pos h

private theorem getElem?_getD (h : i < p.length) : p[i]? = some (p.getD i 0) := by
  rw [List.getD_eq_getElem?_getD, List.getElem?_eq_getElem h, Option.getD_some]

theorem payloadLengthInBounds_eq (h : 2 ≤ p.length) : payloadLengthInBounds p = some (payloadLength p) := by
  unfold payloadLengthInBounds payloadLength
  rw [getElem?_getD (by omega)]
  dsimp only [bind, Option.bind]
  split
  · split
    · rfl
    · rw [window_of_le (by omega)]
      rfl
  · split
    · split
      · rfl
      · rw [window_of_le (by omega)]
        rfl
    · rfl

/-- Whatever the bytes are, a frame is read within them. -/
theorem readFrameInBounds_eq (p : List UInt8) : readFrameInBounds p = some (readFrame p) := by
  unfold readFrameInBounds readFrame
  split
  · rfl
  · rename_i h2
    rw [getElem?_getD (by omega), getElem?_getD (by omega), payloadLengthInBounds_eq (by omega)]
    dsimp only [bind, Option.bind]
    cases hlen : payloadLength p with
    | none => rfl
    | some r =>
      obtain ⟨payloadLen, maskAt⟩ := r
      dsimp only
      cases p.getD 1 0 &&& 0x80 != 0 with
      | false =>
        simp only [Bool.false_eq_true, if_false]
        by_cases hle : p.length < maskAt ∨ p.length - maskAt < payloadLen
        · rw [if_pos hle, if_pos hle]
        · rw [if_neg hle, if_neg hle, window_of_le (by omega)]
      | true =>
        simp only [if_true]
        by_cases hle : p.length < maskAt + 4 ∨ p.length - (maskAt + 4) < payloadLen
        · rw [if_pos hle, if_pos hle]
        · rw [if_neg hle, if_neg hle, window_of_le (by omega), window_of_le (by omega)]
          rfl

end Frames

/-! ### Control frames -/

namespace Connection

variable {beyond : UInt8} {c c' : Connection} {f : WebSocketFrame} {n : Nat} {piece : List UInt8}

theorem handleFrame_readsStatus (h : c.readsStatus f = true) : c.handleFrame beyond f =
    (c.eraseFirst f.size).shutdown (closeStatus beyond f.payload).1 (closeStatus beyond f.payload).2 := by
  simp only [readsStatus, Bool.and_eq_true, Bool.not_eq_true', beq_iff_eq, decide_eq_true_eq] at h
  obtain ⟨⟨⟨⟨hmask, hcode⟩, hfin⟩, hlen⟩, hshut⟩ := h
  have hcontrol : isControlFrame f.code = true := by rw [hcode]; decide
  have hpong : f.code ≠ WSOpCode.Pong := by rw [hcode]; decide
  have hping : f.code ≠ WSOpCode.Ping := by rw [hcode]; decide
  unfold handleFrame
  dsimp only
  rw [if_neg (by simp [hmask]), if_pos hcontrol, if_neg (by simp [hfin]), if_neg (by omega), if_neg hpong,
    if_neg hping, if_pos hcode, if_neg (by simp [hshut])]

/-- Where no status is read, nothing depends on what stands behind the payload. -/
theorem handleFrame_beyond (beyond : UInt8) (h : c.readsStatus f = false) :
    c.handleFrame beyond f = c.handleFrame 0 f := by
  unfold handleFrame
  dsimp only
  split
  · rfl
  · rename_i hmask
    split
    · split
      · rfl
      · rename_i hfin
        split
        · rfl
        · rename_i hlen
          split
          · rfl
          · split
            · rfl
            · split
              · rename_i hcode
                split
                · rfl
                · rename_i hshut
                  have hreads : c.readsStatus f = true := by
                    simp only [readsStatus, Bool.and_eq_true, Bool.not_eq_true', beq_iff_eq, decide_eq_true_eq]
                    exact ⟨⟨⟨⟨by simpa using hmask, hcode⟩, by simpa using hfin⟩, by omega⟩, by simpa using hshut⟩
                  rw [hreads] at h
                  cases h
              · rfl
    · rfl

theorem closeStatusInBounds_of_length (beyond : UInt8) {ctrlPayload : List UInt8} (h : ctrlPayload.length ≠ 1) :
    closeStatusInBounds ctrlPayload = some (closeStatus beyond ctrlPayload) := by
  cases ctrlPayload with
  | nil => rfl
  | cons high rest =>
    cases rest with
    | nil => exact absurd rfl h
    | cons low message => rfl

/-- The frame in front of the buffer is a close frame with a payload of one byte, whose status will be read. -/
def ShortClose (c : Connection) : Prop :=
  ∃ f, readFrame c.socket.inBuffer.data = some f ∧ c.readsStatus f = true ∧ f.payload.length = 1

/-- A frame is handled in bounds exactly where it is not a close frame with one byte. -/
theorem handleTCPStreamInBounds_eq (beyond : UInt8) (h : ¬ c.ShortClose) :
    c.handleTCPStreamInBounds = some (c.handleTCPStream beyond) := by
  unfold handleTCPStreamInBounds handleTCPStream
  rw [readFrameInBounds_eq]
  split
  · rfl
  · cases hf : readFrame c.socket.inBuffer.data with
    | none => rfl
    | some f =>
      dsimp only [bind, Option.bind]
      unfold handleFrameInBounds
      cases hreads : c.readsStatus f with
      | true =>
        have hlen : f.payload.length ≠ 1 := fun hlen => h ⟨f, hf, hreads, hlen⟩
        rw [if_pos rfl, closeStatusInBounds_of_length beyond hlen, handleFrame_readsStatus hreads]
        rfl
      | false =>
        rw [if_neg Bool.false_ne_true, handleFrame_beyond beyond hreads]
        rfl

theorem handleTCPStreamInBounds_none (h : c.ShortClose) : c.handleTCPStreamInBounds = none := by
  obtain ⟨f, hf, hreads, hlen⟩ := h
  have hsize := readFrame_size hf
  rw [Buffer.length_data] at hsize
  unfold handleTCPStreamInBounds
  rw [if_neg (by omega), readFrameInBounds_eq, hf]
  dsimp only [bind, Option.bind]
  unfold handleFrameInBounds
  rw [if_pos hreads]
  obtain ⟨byte, hbyte⟩ := List.length_eq_one_iff.1 hlen
  rw [hbyte]
  rfl

/-! ### Runs -/

/-- A state in which the loop that starts in `c` handles its next frame. -/
inductive Rounds (beyond : UInt8) : Connection → Connection → Prop
  | here {c : Connection} : c.socket.ignoreInput = false → Rounds beyond c c
  | next {c c' c'' : Connection} : c.socket.ignoreInput = false → c.handleTCPStream beyond = (true, c') →
      Rounds beyond c' c'' → Rounds beyond c c''

theorem handleTCPStream_drains (hinput : c.socket.ignoreInput = false) (h : c.handleTCPStream beyond = (true, c')) :
    c'.socket.ignoreInput = true ∨ c'.socket.inBuffer.size < c.socket.inBuffer.size := by
  unfold handleTCPStream at h
  split at h
  · cases h
  · cases hf : readFrame c.socket.inBuffer.data with
    | none => rw [hf] at h; cases h
    | some f =>
      rw [hf] at h
      cases h
      have hsize := readFrame_size hf
      rcases handleFrame_input beyond f hinput with ⟨hignore, -⟩ | ⟨-, hdata⟩
      · exact .inl hignore
      · right
        have hlen := congrArg List.length hdata
        rw [List.length_drop, Buffer.length_data, Buffer.length_data] at hlen
        rw [Buffer.length_data] at hsize
        omega

theorem Rounds.input (h : Rounds beyond c c') : c.socket.ignoreInput = false := by
  cases h with
  | here h => exact h
  | next h _ _ => exact h

/-- The loop stays in bounds exactly where no close frame with one byte is handled. -/
theorem roundsInBounds_iff (hn : c.socket.inBuffer.size ≤ n) :
    roundsInBounds n c = some (rounds beyond n c) ↔ ∀ c', Rounds beyond c c' → ¬ c'.ShortClose := by
  induction n generalizing c with
  | zero =>
    have hempty : c.socket.inBuffer.size = 0 := Nat.le_zero.1 hn
    have hnone : c.handleTCPStream beyond = (false, c) := if_pos (by omega)
    refine iff_of_true rfl fun c' hc' hshort => ?_
    cases hc' with
    | here _ =>
      obtain ⟨f, hf, -, -⟩ := hshort
      have hsize := readFrame_size hf
      rw [Buffer.length_data] at hsize
      omega
    | next _ hstep _ =>
      rw [hnone] at hstep
      cases hstep
  | succ n ih =>
    unfold roundsInBounds rounds
    cases hinput : c.socket.ignoreInput with
    | true =>
      rw [if_pos rfl, if_pos rfl]
      refine iff_of_true rfl fun c' hc' => ?_
      have := hc'.input
      rw [hinput] at this
      cases this
    | false =>
      rw [if_neg Bool.false_ne_true, if_neg Bool.false_ne_true]
      by_cases hshort : c.ShortClose
      · rw [handleTCPStreamInBounds_none hshort]
        refine iff_of_false ?_ fun h => h c (.here hinput) hshort
        rw [Option.bind_none]
        simp
      · rw [handleTCPStreamInBounds_eq beyond hshort, Option.bind_some]
        cases hstep : c.handleTCPStream beyond with
        | mk handled c₁ =>
          cases handled with
          | false =>
            refine iff_of_true rfl fun c' hc' => ?_
            cases hc' with
            | here _ => exact hshort
            | next _ hstep' _ =>
              rw [hstep] at hstep'
              cases hstep'
          | true =>
            dsimp only
            have hrest : roundsInBounds n c₁ = some (rounds beyond n c₁) ↔ ∀ c', Rounds beyond c₁ c' →
                ¬ c'.ShortClose := by
              rcases handleTCPStream_drains hinput hstep with hignore | hless
              · refine iff_of_true ?_ fun c' hc' => ?_
                · cases n with
                  | zero => rfl
                  | succ n =>
                    unfold roundsInBounds rounds
                    rw [if_pos hignore, if_pos hignore]
                · have := hc'.input
                  rw [hignore] at this
                  cases this
              · exact ih (by omega)
            rw [hrest]
            constructor
            · intro h c' hc'
              cases hc' with
              | here _ => exact hshort
              | next _ hstep' hc' =>
                rw [hstep] at hstep'
                cases hstep'
                exact h c' hc'
            · exact fun h c' hc' => h c' (.next hinput hstep hc')

/-- In bounds, the loop does what it does with any byte behind the payload. -/
theorem roundsInBounds_eq (h : roundsInBounds n c = some c') : c' = rounds beyond n c := by
  induction n generalizing c with
  | zero => exact (Option.some.inj h).symm
  | succ n ih =>
    unfold roundsInBounds at h
    unfold rounds
    split at h
    · rename_i hinput
      rw [if_pos hinput]
      exact (Option.some.inj h).symm
    · rename_i hinput
      rw [if_neg hinput]
      by_cases hshort : c.ShortClose
      · rw [handleTCPStreamInBounds_none hshort] at h
        cases h
      · rw [handleTCPStreamInBounds_eq beyond hshort, Option.bind_some] at h
        cases hstep : c.handleTCPStream beyond with
        | mk handled c₁ =>
          rw [hstep] at h
          cases handled with
          | false => exact (Option.some.inj h).symm
          | true => exact ih h

theorem arriveInBounds_eq (beyond : UInt8) (h : c.arriveInBounds piece = some c') : c' = c.arrive beyond piece := by
  unfold arriveInBounds at h
  unfold arrive
  split at h
  · rename_i hinput
    rw [if_pos hinput]
    exact (Option.some.inj h).symm
  · rename_i hinput
    rw [if_neg hinput]
    exact roundsInBounds_eq h

theorem arriveInBounds_iff : c.arriveInBounds piece = some (c.arrive beyond piece) ↔
    (c.socket.ignoreInput = false → ∀ c', Rounds beyond (c.receive piece) c' → ¬ c'.ShortClose) := by
  unfold arriveInBounds arrive
  cases hinput : c.socket.ignoreInput with
  | true => exact iff_of_true rfl fun h => absurd h (by decide)
  | false =>
    rw [if_neg Bool.false_ne_true, if_neg Bool.false_ne_true]
    rw [forall_prop_of_true rfl]
    exact roundsInBounds_iff (le_refl _)

/-- Whatever the pieces are that a stream arrives in, every index that is used lies in the bytes of the frame, exactly
where no close frame is handled whose payload has one byte. -/
theorem frames_inBounds (beyond : UInt8) (c : Connection) (pieces : List (List UInt8)) :
    c.arrivalsInBounds pieces = some (arrivals beyond c pieces) ↔
      ∀ before piece after, pieces = before ++ piece :: after →
        (arrivals beyond c before).socket.ignoreInput = false →
        ∀ c', Rounds beyond ((arrivals beyond c before).receive piece) c' → ¬ c'.ShortClose := by
  induction pieces generalizing c with
  | nil => simp [arrivalsInBounds, arrivals]
  | cons first pieces ih =>
    constructor
    · intro h before piece after heq
      obtain ⟨c₁, hfirst, hrest⟩ := Option.bind_eq_some_iff.1 h
      obtain rfl := arriveInBounds_eq beyond hfirst
      cases before with
      | nil =>
        obtain ⟨rfl, -⟩ := List.cons.inj heq
        exact arriveInBounds_iff.1 hfirst
      | cons other before =>
        obtain ⟨rfl, hpieces⟩ := List.cons.inj heq
        exact (ih _).1 hrest before piece after hpieces
    · intro h
      have hfirst : c.arriveInBounds first = some (c.arrive beyond first) :=
        arriveInBounds_iff.2 (h [] first pieces rfl)
      unfold arrivalsInBounds
      rw [hfirst]
      exact (ih _).2 fun before piece after heq => h (first :: before) piece after (congrArg (first :: ·) heq)

/-- A close frame of a server with one byte. -/
theorem not_frames_inBounds : ¬ ∀ (beyond : UInt8) (c : Connection) (pieces : List (List UInt8)),
    c.arrivalsInBounds pieces = some (arrivals beyond c pieces) := by
  intro h
  have hnone : (arrivalsInBounds ⟨.new true true, {}⟩ [[0x88, 1, 3]]).isSome = false := by decide +kernel
  rw [h 0] at hnone
  cases hnone

end Connection

end CollaboraOnline
