import CollaboraOnline.Net.WebSocketChunks

/-!
# Messages over a web socket

What the builder writes for a frame is read back as that frame (`readFrame_bytes`).  Messages are split into data
frames, with control frames between them (`Carries`), and the peer handles just these messages.
-/

namespace CollaboraOnline

open Incremental

/-! ### Bytes of numbers -/

theorem length_toBytes : ∀ k n, (toBytes k n).length = k
  | 0, _ => rfl
  | k + 1, n => congrArg (· + 1) (length_toBytes k n)

private theorem foldl_toBytes : ∀ k n acc,
    (toBytes k n).foldl (fun n byte => n * 256 + byte.toNat) acc = acc * 256 ^ k + n % 256 ^ k
  | 0, n, acc => by simp [toBytes, Nat.mod_one]
  | k + 1, n, acc => by
    have hbyte : (UInt8.ofNat (n / 256 ^ k)).toNat = n / 256 ^ k % 256 := by simp
    have hmod : n % 256 ^ (k + 1) = n / 256 ^ k % 256 * 256 ^ k + n % 256 ^ k := by
      rw [Nat.pow_succ, Nat.mod_mul, Nat.add_comm, Nat.mul_comm]
    rw [toBytes, List.foldl_cons, foldl_toBytes k n, hbyte, hmod, Nat.pow_succ]
    ring

theorem ofBytes_toBytes {k n : Nat} (h : n < 256 ^ k) : ofBytes (toBytes k n) = n := by
  rw [ofBytes, foldl_toBytes, Nat.zero_mul, Nat.zero_add, Nat.mod_eq_of_lt h]

theorem length_xorMask (mask data : List UInt8) : (xorMask mask data).length = data.length := List.length_mapIdx

/-- Masking twice gives the data back. -/
theorem xorMask_xorMask (mask data : List UInt8) : xorMask mask (xorMask mask data) = data := by
  apply List.ext_getElem
  · rw [length_xorMask, length_xorMask]
  · intro i h h'
    simp only [xorMask, List.getElem_mapIdx, UInt8.xor_assoc, UInt8.xor_self, UInt8.xor_zero]

/-! ### Frames that are sent -/

/-- A frame that is sent.  The builder makes it; a fragment before the last one has no `Fin`. -/
structure WireFrame where
  fin : Bool
  code : WSOpCode
  payload : List UInt8

namespace WireFrame

def clearFin : List UInt8 → List UInt8
  | [] => []
  | flags :: bytes => (flags &&& 0x7f) :: bytes

def bytes (isMasking : Bool) (w : WireFrame) : List UInt8 :=
  let frame := buildFrame isMasking w.payload (0x80 ||| w.code)
  if w.fin then frame else clearFin frame

def flags (w : WireFrame) : UInt8 := if w.fin then 0x80 ||| w.code else (0x80 ||| w.code) &&& 0x7f

def maskFlag (isMasking : Bool) : UInt8 := if isMasking then 0x80 else 0

def body (isMasking : Bool) (payload : List UInt8) : List UInt8 :=
  if isMasking then builderMask ++ xorMask builderMask payload else payload

variable {isMasking : Bool} {w : WireFrame} {rest tail : List UInt8} {first : UInt8} {len : Nat}

theorem bytes_eq : w.bytes isMasking =
    w.flags :: (lengthBytes (maskFlag isMasking) w.payload.length ++ body isMasking w.payload) := by
  have hbody : (0x80 : UInt8) ||| (0x80 ||| w.code) = 0x80 ||| w.code := by
    rw [← UInt8.or_assoc, UInt8.or_self]
  obtain ⟨fin, code, payload⟩ := w
  unfold bytes flags buildFrame
  rw [hbody]
  cases fin <;> cases isMasking <;> rfl

private theorem flags_spec : ∀ n < 16, ∀ fin : Bool,
    ((⟨fin, UInt8.ofNat n, []⟩ : WireFrame).flags &&& 0x80 != 0) = fin ∧
      (⟨fin, UInt8.ofNat n, []⟩ : WireFrame).flags &&& 0x0f = UInt8.ofNat n := by decide

private theorem length_spec : ∀ n < 128, ∀ isMasking : Bool,
    ((UInt8.ofNat n ||| maskFlag isMasking) &&& 0x7f).toNat = n ∧
      ((UInt8.ofNat n ||| maskFlag isMasking) &&& 0x80 != 0) = isMasking := by decide

variable (isMasking tail first) in
/-- The length is read back, in each of the three encodings, and the flag of the mask with it. -/
theorem payloadLength_bytes (hlen : len < 2 ^ 64) :
    payloadLength (first :: (lengthBytes (maskFlag isMasking) len ++ tail)) =
        some (len, 1 + (lengthBytes (maskFlag isMasking) len).length) ∧
      ((first :: (lengthBytes (maskFlag isMasking) len ++ tail)).getD 1 0 &&& 0x80 != 0) = isMasking := by
  unfold lengthBytes
  split
  · rename_i h
    obtain ⟨hvalue, hmask⟩ := length_spec len (by omega) isMasking
    have hsecond : (first :: ([UInt8.ofNat len ||| maskFlag isMasking] ++ tail)).getD 1 0 =
        UInt8.ofNat len ||| maskFlag isMasking := rfl
    refine ⟨?_, hmask⟩
    unfold payloadLength
    rw [hsecond, hvalue]
    dsimp only
    rw [if_neg (by omega), if_neg (by omega)]
    rfl
  · split
    · rename_i hle
      have hvalue : ((126 ||| maskFlag isMasking) &&& 0x7f).toNat = 126 := (length_spec 126 (by omega) isMasking).1
      have hsecond : (first :: ((126 ||| maskFlag isMasking) :: toBytes 2 len ++ tail)).getD 1 0 =
          126 ||| maskFlag isMasking := rfl
      have hbytes : ((first :: ((126 ||| maskFlag isMasking) :: toBytes 2 len ++ tail)).drop 2).take 2 =
          toBytes 2 len :=
        List.take_left' (length_toBytes 2 len)
      refine ⟨?_, (length_spec 126 (by omega) isMasking).2⟩
      unfold payloadLength
      rw [hsecond, hvalue, hbytes, ofBytes_toBytes (by omega)]
      dsimp only
      rw [if_pos rfl, if_neg (by simp [length_toBytes]), List.length_cons, length_toBytes]
    · have hvalue : ((127 ||| maskFlag isMasking) &&& 0x7f).toNat = 127 := (length_spec 127 (by omega) isMasking).1
      have hsecond : (first :: ((127 ||| maskFlag isMasking) :: toBytes 8 len ++ tail)).getD 1 0 =
          127 ||| maskFlag isMasking := rfl
      have hbytes : ((first :: ((127 ||| maskFlag isMasking) :: toBytes 8 len ++ tail)).drop 2).take 8 =
          toBytes 8 len :=
        List.take_left' (length_toBytes 8 len)
      refine ⟨?_, (length_spec 127 (by omega) isMasking).2⟩
      unfold payloadLength
      rw [hsecond, hvalue, hbytes, ofBytes_toBytes (by omega)]
      dsimp only
      rw [if_neg (by decide), if_pos rfl, if_neg (by simp [length_toBytes]), List.length_cons, length_toBytes]

/-- What the builder writes is read back, whatever follows it. -/
theorem readFrame_bytes (hcode : w.code.toNat < 16) (hlen : w.payload.length < 2 ^ 64) (rest : List UInt8) :
    readFrame (w.bytes isMasking ++ rest) =
      some ⟨w.fin, w.code, isMasking, w.payload, (w.bytes isMasking).length⟩ := by
  have hfirst : (w.flags &&& 0x80 != 0) = w.fin ∧ w.flags &&& 0x0f = w.code := by
    have := flags_spec w.code.toNat hcode w.fin
    rwa [UInt8.ofNat_toNat] at this
  rw [bytes_eq, List.cons_append, List.append_assoc]
  generalize hL : lengthBytes (maskFlag isMasking) w.payload.length = L
  obtain ⟨hread, hmask⟩ := payloadLength_bytes isMasking (body isMasking w.payload ++ rest) w.flags hlen
  rw [hL] at hread hmask
  have hdrop : (w.flags :: (L ++ (body isMasking w.payload ++ rest))).drop (1 + L.length) =
      body isMasking w.payload ++ rest := by
    rw [Nat.add_comm, List.drop_succ_cons, List.drop_left]
  have hlong : 2 ≤ (w.flags :: (L ++ (body isMasking w.payload ++ rest))).length := by
    have := payloadLength_at hread
    simp only [List.length_cons, List.length_append]
    omega
  unfold readFrame
  rw [if_neg (by omega), hread]
  dsimp only
  rw [hmask, List.getD_cons_zero, hfirst.1, hfirst.2]
  cases isMasking with
  | false =>
    have hbody : body false w.payload = w.payload := rfl
    rw [hbody] at hdrop ⊢
    simp only [Bool.false_eq_true, if_false]
    rw [if_neg (by simp only [List.length_cons, List.length_append]; omega), hdrop, List.take_left]
    simp only [List.length_cons, List.length_append, Option.some.injEq, WebSocketFrame.mk.injEq, true_and]
    omega
  | true =>
    have hbody : body true w.payload = builderMask ++ xorMask builderMask w.payload := rfl
    have hbuilder : builderMask.length = 4 := rfl
    rw [hbody, List.append_assoc] at hdrop ⊢
    simp only [if_true]
    rw [if_neg (by simp only [List.length_cons, List.length_append, length_xorMask, hbuilder]; omega), hdrop,
      ← List.drop_drop, hdrop, List.take_left' hbuilder, List.drop_left' hbuilder,
      List.take_left' (length_xorMask _ _), xorMask_xorMask]
    simp only [List.length_cons, List.length_append, length_xorMask, hbuilder, Option.some.injEq,
      WebSocketFrame.mk.injEq, true_and]
    omega

end WireFrame

/-! ### Messages in frames -/

/-- Frames that carry messages: `part` is the part of a message that the frames before these have carried.  Control
frames may stand between any two, and a close frame may end the stream between messages. -/
inductive Carries : Option (List UInt8) → List WireFrame → List (List UInt8) → Prop
  | done : Carries none [] []
  | close {payload : List UInt8} : payload.length ≤ 125 → Carries none [⟨true, WSOpCode.Close, payload⟩] []
  | control {part : Option (List UInt8)} {code : WSOpCode} {payload : List UInt8} {ws : List WireFrame}
      {msgs : List (List UInt8)} : code = WSOpCode.Ping ∨ code = WSOpCode.Pong → payload.length ≤ 125 →
      Carries part ws msgs → Carries part (⟨true, code, payload⟩ :: ws) msgs
  | whole {code : WSOpCode} {payload : List UInt8} {ws : List WireFrame} {msgs : List (List UInt8)} :
      code = WSOpCode.Text ∨ code = WSOpCode.Binary → Carries none ws msgs →
      Carries none (⟨true, code, payload⟩ :: ws) (payload :: msgs)
  | first {code : WSOpCode} {payload : List UInt8} {ws : List WireFrame} {msgs : List (List UInt8)} :
      code = WSOpCode.Text ∨ code = WSOpCode.Binary → Carries (some payload) ws msgs →
      Carries none (⟨false, code, payload⟩ :: ws) msgs
  | middle {part payload : List UInt8} {ws : List WireFrame} {msgs : List (List UInt8)} :
      Carries (some (part ++ payload)) ws msgs →
        Carries (some part) (⟨false, WSOpCode.Continuation, payload⟩ :: ws) msgs
  | last {part payload : List UInt8} {ws : List WireFrame} {msgs : List (List UInt8)} : Carries none ws msgs →
      Carries (some part) (⟨true, WSOpCode.Continuation, payload⟩ :: ws) ((part ++ payload) :: msgs)

namespace Carries

variable {part : Option (List UInt8)} {ws : List WireFrame} {msgs : List (List UInt8)} {n : Nat}

/-- A part of a message is no longer than the message. -/
theorem part_le (h : Carries part ws msgs) (hmsgs : ∀ m ∈ msgs, m.length ≤ n) : ∀ p ∈ part, p.length ≤ n := by
  induction h with
  | done => nofun
  | close _ => nofun
  | control _ _ _ ih => exact ih hmsgs
  | whole _ _ _ => nofun
  | first _ _ _ => nofun
  | middle _ ih =>
    rintro p ⟨⟩
    have := ih hmsgs _ rfl
    rw [List.length_append] at this
    omega
  | last _ _ =>
    rintro p ⟨⟩
    have := hmsgs _ (List.mem_cons_self ..)
    rw [List.length_append] at this
    omega

end Carries

namespace Connection

variable {beyond : UInt8} {c s : Connection} {isMasking : Bool} {w : WireFrame} {data rest payload : List UInt8}
  {code : WSOpCode} {size : Nat} {part : Option (List UInt8)} {ws : List WireFrame} {msgs : List (List UInt8)}

/-- The connection has read `part` of a message. -/
structure Reads (c : Connection) (isMasking : Bool) (part : Option (List UInt8)) : Prop where
  enabled : c.socket.ignoreInput = false
  drained : c.forget = c
  server : (isMasking && c.handler.isClient) = false
  payload : c.handler.wsPayload = part.getD []
  inside : c.handler.inFragmentBlock = part.isSome

theorem drains_frame (hopen : c.socket.ignoreInput = false) (hcode : w.code.toNat < 16)
    (hlen : w.payload.length < 2 ^ 64) (h : Drains (frameStep beyond) (c.handleFrame beyond
      ⟨w.fin, w.code, isMasking, w.payload, (w.bytes isMasking).length⟩).forget data s rest) :
    Drains (frameStep beyond) c (w.bytes isMasking ++ data) s rest := by
  refine .next (n := (w.bytes isMasking).length) ?_ (by rwa [List.drop_left])
  unfold frameStep
  rw [if_neg (by rw [hopen]; decide), WireFrame.readFrame_bytes hcode hlen]
  rfl

variable (beyond) in
/-- A ping is answered; a pong is not. -/
theorem handleFrame_control (h : c.Reads isMasking part) (hcode : code = WSOpCode.Ping ∨ code = WSOpCode.Pong)
    (hlen : payload.length ≤ 125) :
    (c.handleFrame beyond ⟨true, code, isMasking, payload, size⟩).forget.Reads isMasking part ∧
      (c.handleFrame beyond ⟨true, code, isMasking, payload, size⟩).forget.handler.messages = c.handler.messages := by
  have hshort : ¬ 125 < payload.length := by omega
  have hsend : (c.sendPong payload).handler = c.handler := by
    unfold sendPong sendFrame
    split <;> rfl
  rcases hcode with rfl | rfl
  · have hframe : c.handleFrame beyond ⟨true, WSOpCode.Ping, isMasking, payload, size⟩ =
        (c.eraseFirst size).sendPong payload := by
      unfold handleFrame
      rw [if_neg (by rw [h.server]; decide)]
      dsimp only
      rw [if_pos (by decide), if_neg (by decide), if_neg hshort, if_neg (by decide), if_pos rfl]
    rw [hframe, forget_sendPong, forget_eraseFirst, h.drained]
    refine ⟨⟨sendPong_input.1.trans h.enabled, ?_, ?_, ?_, ?_⟩, ?_⟩
    · rw [forget_sendPong, h.drained]
    all_goals rw [hsend]
    · exact h.server
    · exact h.payload
    · exact h.inside
  · have hframe : c.handleFrame beyond ⟨true, WSOpCode.Pong, isMasking, payload, size⟩ = c.eraseFirst size := by
      unfold handleFrame
      rw [if_neg (by rw [h.server]; decide)]
      dsimp only
      rw [if_pos (by decide), if_neg (by decide), if_neg hshort, if_pos rfl]
    rw [hframe, forget_eraseFirst, h.drained]
    exact ⟨h, rfl⟩

variable (beyond) in
theorem handleFrame_close (h : c.Reads isMasking part) (hlen : payload.length ≤ 125) :
    (c.handleFrame beyond ⟨true, WSOpCode.Close, isMasking, payload, size⟩).socket.ignoreInput = true ∧
      (c.handleFrame beyond ⟨true, WSOpCode.Close, isMasking, payload, size⟩).handler.messages =
        c.handler.messages := by
  have hshort : ¬ 125 < payload.length := by omega
  have hmessages (status message) : ((c.eraseFirst size).shutdown status message).handler.messages =
      c.handler.messages := by
    unfold shutdown sendCloseFrame sendFrame
    dsimp only
    repeat' split
    all_goals rfl
  unfold handleFrame
  rw [if_neg (by rw [h.server]; decide)]
  dsimp only
  rw [if_pos (by decide), if_neg (by decide), if_neg hshort, if_neg (by decide), if_neg (by decide), if_pos rfl]
  split
  · exact ⟨rfl, hmessages _ _⟩
  · exact ⟨rfl, hmessages _ _⟩

variable (beyond payload code) in
/-- A data frame is added to the part before it; with the last frame the message is handled. -/
theorem handleFrame_data (fin : Bool) (h : c.Reads isMasking part) (hcode : isControlFrame code = false)
    (hpart : part.isSome = (code == WSOpCode.Continuation)) :
    (c.handleFrame beyond ⟨fin, code, isMasking, payload, size⟩).forget.Reads isMasking
        (if fin then none else some (part.getD [] ++ payload)) ∧
      (c.handleFrame beyond ⟨fin, code, isMasking, payload, size⟩).forget.handler.messages =
        c.handler.messages ++ (if fin then [part.getD [] ++ payload] else []) := by
  have hinside := h.inside.trans hpart
  unfold handleFrame
  rw [if_neg (by rw [h.server]; decide)]
  dsimp only
  rw [if_neg (by rw [hcode]; decide),
    if_neg (by rw [hinside]; cases hc : code == WSOpCode.Continuation <;> simp [bne, hc]),
    if_neg (by rw [hinside]; cases hc : code == WSOpCode.Continuation <;> simp)]
  have henabled := h.enabled
  have hserver := h.server
  cases fin with
  | true => exact ⟨⟨henabled, rfl, hserver, rfl, rfl⟩, by rw [← h.payload]; rfl⟩
  | false => exact ⟨⟨henabled, rfl, hserver, by rw [← h.payload]; rfl, rfl⟩, (List.append_nil _).symm⟩

variable (beyond) in
/-- Frames that carry messages are read to these messages. -/
theorem drains_carries (h : Carries part ws msgs) (hmsgs : ∀ m ∈ msgs, m.length < 2 ^ 31)
    (hc : c.Reads isMasking part) : ∃ s, Drains (frameStep beyond) c (ws.flatMap (WireFrame.bytes isMasking)) s [] ∧
      s.handler.messages = c.handler.messages ++ msgs := by
  induction h generalizing c with
  | done =>
    refine ⟨c, .stop ?_, (List.append_nil _).symm⟩
    unfold frameStep
    split <;> rfl
  | close hlen =>
    obtain ⟨hignore, hmessages⟩ := handleFrame_close beyond hc hlen
    rw [List.flatMap_cons]
    exact ⟨_, drains_frame hc.enabled (by dsimp only; decide) (by dsimp only; omega)
        (drains_ignored (c := (c.handleFrame beyond _).forget) hignore _),
      hmessages.trans (List.append_nil _).symm⟩
  | control hcode hlen _ ih =>
    obtain ⟨hreads, hmessages⟩ := handleFrame_control beyond hc hcode hlen
    obtain ⟨s, hdrain, hs⟩ := ih hmsgs hreads
    rw [List.flatMap_cons]
    refine ⟨s, drains_frame hc.enabled ?_ (by dsimp only; omega) hdrain, hs.trans (by rw [hmessages])⟩
    rcases hcode with rfl | rfl <;> (dsimp only; decide)
  | @whole code payload _ _ hcode _ ih =>
    have hdata : isControlFrame code = false ∧ (code == WSOpCode.Continuation) = false ∧ code.toNat < 16 := by
      rcases hcode with rfl | rfl <;> decide
    obtain ⟨hreads, hmessages⟩ := handleFrame_data beyond payload code true hc hdata.1 hdata.2.1.symm
    obtain ⟨s, hdrain, hs⟩ := ih (fun m hm => hmsgs m (List.mem_cons_of_mem _ hm)) hreads
    have hlen := hmsgs payload (List.mem_cons_self ..)
    rw [List.flatMap_cons]
    refine ⟨s, drains_frame hc.enabled hdata.2.2 (by dsimp only; omega) hdrain, ?_⟩
    rw [hs, hmessages, List.append_assoc]
    rfl
  | @first code payload _ _ hcode hrest ih =>
    have hdata : isControlFrame code = false ∧ (code == WSOpCode.Continuation) = false ∧ code.toNat < 16 := by
      rcases hcode with rfl | rfl <;> decide
    obtain ⟨hreads, hmessages⟩ := handleFrame_data beyond payload code false hc hdata.1 hdata.2.1.symm
    obtain ⟨s, hdrain, hs⟩ := ih hmsgs hreads
    have hlen := hrest.part_le (fun m hm => (hmsgs m hm).le) payload rfl
    rw [List.flatMap_cons]
    refine ⟨s, drains_frame hc.enabled hdata.2.2 (by dsimp only; omega) hdrain, ?_⟩
    rw [hs, hmessages]
    exact congrArg (· ++ _) (List.append_nil _)
  | @middle part payload _ _ hrest ih =>
    obtain ⟨hreads, hmessages⟩ := handleFrame_data beyond payload WSOpCode.Continuation false hc (by decide) rfl
    obtain ⟨s, hdrain, hs⟩ := ih hmsgs hreads
    have hlen := hrest.part_le (fun m hm => (hmsgs m hm).le) _ rfl
    rw [List.length_append] at hlen
    rw [List.flatMap_cons]
    refine ⟨s, drains_frame hc.enabled (by dsimp only; decide) (by dsimp only; omega) hdrain, ?_⟩
    rw [hs, hmessages]
    exact congrArg (· ++ _) (List.append_nil _)
  | @last part payload _ _ _ ih =>
    obtain ⟨hreads, hmessages⟩ := handleFrame_data beyond payload WSOpCode.Continuation true hc (by decide) rfl
    obtain ⟨s, hdrain, hs⟩ := ih (fun m hm => hmsgs m (List.mem_cons_of_mem _ hm)) hreads
    have hlen := hmsgs _ (List.mem_cons_self ..)
    rw [List.length_append] at hlen
    rw [List.flatMap_cons]
    refine ⟨s, drains_frame hc.enabled (by dsimp only; decide) (by dsimp only; omega) hdrain, ?_⟩
    rw [hs, hmessages, List.append_assoc]
    rfl

/-- Messages in frames arrive, however the frames are cut into pieces; and for every stream the messages and the way
the connection ends do not depend on the pieces, nor on what stands behind the payload of a close frame. -/
theorem messages_any_chunking :
    (∀ (beyond : UInt8) (isClient isMasking peerMasking : Bool) (ws : List WireFrame)
      (msgs pieces : List (List UInt8)), (∀ m ∈ msgs, m ≠ [] ∧ m.length < 2 ^ 31) → Carries none ws msgs →
      pieces.flatten = ws.flatMap (WireFrame.bytes (WebSocketHandler.new isClient isMasking).isMasking) →
      (arrivals beyond ⟨.new (!isClient) peerMasking, {}⟩ pieces).handler.messages = msgs) ∧
    (∀ (beyond beyond' : UInt8) (isClient isMasking : Bool) (pieces pieces' : List (List UInt8)),
      pieces.flatten = pieces'.flatten →
      let c := arrivals beyond ⟨.new isClient isMasking, {}⟩ pieces
      let c' := arrivals beyond' ⟨.new isClient isMasking, {}⟩ pieces'
      c.handler.messages = c'.handler.messages ∧ c.handler.shuttingDown = c'.handler.shuttingDown ∧
      c.socket.shutdownSignalled = c'.socket.shutdownSignalled ∧ c.socket.ignoreInput = c'.socket.ignoreInput ∧
      (beyond = beyond' → c.socket.outBuffer = c'.socket.outBuffer)) := by
  constructor
  · intro beyond isClient isMasking peerMasking ws msgs pieces hmsgs hcarries hpieces
    have hreads : Reads ⟨.new (!isClient) peerMasking, {}⟩ (WebSocketHandler.new isClient isMasking).isMasking none :=
      ⟨rfl, rfl, by cases isClient <;> cases isMasking <;> rfl, rfl, rfl⟩
    obtain ⟨s, hdrain, hs⟩ := drains_carries beyond hcarries (fun m hm => (hmsgs m hm).2) hreads
    have harrive := frameStep_stable.arrivals (arrivals_drains beyond ⟨.new (!isClient) peerMasking, {}⟩
      pieces fun _ => rfl) rfl
    rw [← hpieces] at hdrain
    have hstate := (harrive.unique hdrain).1
    calc (arrivals beyond ⟨.new (!isClient) peerMasking, {}⟩ pieces).handler.messages
        = s.handler.messages := by rw [← hstate]; rfl
      _ = msgs := hs
  · intro beyond beyond' isClient isMasking pieces pieces' hpieces c c'
    have hcut := arrivals_chunking beyond hpieces (.new isClient isMasking)
    have hbeyond := unwritten_arrivals beyond beyond' pieces'
      (rfl : unwritten ⟨.new isClient isMasking, {}⟩ = unwritten ⟨.new isClient isMasking, {}⟩)
    have hcut' := congrArg (fun d : Connection => (d.handler, d.socket.shutdownSignalled, d.socket.ignoreInput)) hcut
    have hbeyond' :=
      congrArg (fun d : Connection => (d.handler, d.socket.shutdownSignalled, d.socket.ignoreInput)) hbeyond
    obtain ⟨hhandler, hsocket⟩ := Prod.mk.inj (hcut'.trans hbeyond')
    obtain ⟨hsignal, hignore⟩ := Prod.mk.inj hsocket
    refine ⟨congrArg WebSocketHandler.messages hhandler, congrArg WebSocketHandler.shuttingDown hhandler, hsignal,
      hignore, ?_⟩
    rintro rfl
    have hout := congrArg (fun d : Connection => d.socket.outBuffer) hcut
    exact hout

/-- A masked message in two fragments, cut elsewhere. -/
theorem messages_any_chunking_split :
    (arrivals 0 ⟨.new false false, {}⟩
      [[0x01, 0x81, 0x81, 0x76], [0x81, 0x76, 0xc0, 0x80], [0x81, 0x81, 0x76, 0x81, 0x76, 0xc3]]).handler.messages =
      [[0x41, 0x42]] := by
  refine messages_any_chunking.1 0 true true false
    [⟨false, WSOpCode.Text, [0x41]⟩, ⟨true, WSOpCode.Continuation, [0x42]⟩] [[0x41, 0x42]] _ (by decide) ?_
    (by decide)
  exact .first (.inl rfl) (.last .done)

end Connection

end CollaboraOnline
