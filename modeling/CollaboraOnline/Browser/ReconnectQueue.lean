import CollaboraOnline.Lib.Run

/-!
# The reconnect queue

What the browser sends while the socket is not open, or a reconnect is under way, is kept in an array and a map of
pointer messages, which the socket sends when it opens.  Every message that is kept has a number; the messages that
were kept, sent from the queue and dropped are recorded.  Throttled messages come back as other calls.
-/

namespace CollaboraOnline

inductive MessageInterface
  | text (s : List Char)
  | blob (id : Nat)
deriving DecidableEq

namespace MessageInterface

def startsWith (msg : MessageInterface) (s : String) : Bool :=
  match msg with
  | .text t => s.toList.isPrefixOf t
  | .blob _ => false

def isString : MessageInterface → Bool
  | .text _ => true
  | .blob _ => false

inductive PointerKey
  | mouseMove
  | mouseDrag
  | selecttextStart
  | selecttextEnd
deriving DecidableEq

def getPointerCompactionKey (msg : MessageInterface) : Option PointerKey :=
  if msg.startsWith "mouse type=move" then some .mouseMove
  else if msg.startsWith "mouse type=drag" then some .mouseDrag
  else if msg.startsWith "selecttext type=start" then some .selecttextStart
  else if msg.startsWith "selecttext type=end" then some .selecttextEnd
  else none

def isSelectionPointerMessage (msg : MessageInterface) : Bool :=
  msg.startsWith "selecttext type=start" || msg.startsWith "selecttext type=end"

def isReconnectHeartbeatMessage (msg : MessageInterface) : Bool :=
    msg.startsWith "useractive" || msg.startsWith "userinactive"

def isCriticalReconnectMessage (msg : MessageInterface) : Bool :=
  msg.startsWith "uno " || msg.startsWith "key " || msg.startsWith "textinput " || msg.isSelectionPointerMessage ||
    msg.startsWith "mouse type=buttondown" || msg.startsWith "mouse type=buttonup" || msg.startsWith "useractive" ||
    msg.startsWith "userinactive"

def shouldDeferDuringReconnect (msg : MessageInterface) : Bool :=
  !msg.isString || !(msg.isReconnectHeartbeatMessage || msg.startsWith "mouse type=buttondown" ||
    msg.startsWith "mouse type=buttonup")

def isReconnectHighVolumeMessage (msg : MessageInterface) : Bool :=
  msg.startsWith "tilecombine " || msg.startsWith "tileprocessed " || msg.startsWith "clientvisiblearea "

inductive Reason
  | inactive_reconnecting
  | ui_blocked_reconnecting
  | socket_not_open
deriving DecidableEq

def dropReconnectMessage (msg : MessageInterface) (reason : Reason) : Bool :=
  msg.isString && !msg.isReconnectHeartbeatMessage && !msg.isSelectionPointerMessage &&
    (reason = .ui_blocked_reconnecting || msg.isReconnectHighVolumeMessage)

end MessageInterface

open MessageInterface

/-- A message that was kept, with its number. -/
structure Kept where
  number : Nat
  msg : MessageInterface
deriving DecidableEq

inductive Drop
  /-- By a newer one. -/
  | replaced (old new : Kept)
  /-- The queue was full. -/
  | evicted (old : Kept) (queue : List Kept)
  | reset (old : Kept)
deriving DecidableEq

def Drop.old : Drop → Kept
  | .replaced old _ => old
  | .evicted old _ => old
  | .reset old => old

inductive ReadyState
  | connecting
  | «open»
  | closing
  | closed
deriving DecidableEq

structure ReconnectSocket where
  thisIsAMobileApp : Bool
  socket : Option ReadyState := none
  docLayer : Bool := false
  reconnecting : Bool := false
  interactionBlockedForReconnect : Bool := false
  active : Bool := true
  fatal : Bool := false
  uiBlocked : Bool := false
  msgQueue : List Kept := []
  /-- In the order in which the keys came. -/
  reconnectQueuedPointerMessages : List (PointerKey × Kept) := []
  /-- All messages that were kept, what was sent from the queue each time, and what was dropped. -/
  accepted : List Kept := []
  flushed : List (List Kept) := []
  dropped : List Drop := []
  /-- How many messages had been kept when the socket opened last. -/
  opened : Nat := 0

namespace ReconnectSocket

/-! ### Keeping messages -/

/-- The value of a key that is there is changed in its place. -/
def setPointer (pointers : List (PointerKey × Kept)) (key : PointerKey) (kept : Kept) : List (PointerKey × Kept) :=
  if pointers.any (·.1 == key) then pointers.map fun p => if p.1 == key then (key, kept) else p
  else pointers ++ [(key, kept)]

/-- The pointer message is kept for its key; the start of a selection forgets the end. -/
def compactPointer (s : ReconnectSocket) (key : PointerKey) (kept : Kept) : ReconnectSocket :=
  let gone := s.reconnectQueuedPointerMessages.filter fun p =>
    p.1 == key || (key == .selecttextStart && p.1 == .selecttextEnd)
  let pointers :=
    if key = .selecttextStart then s.reconnectQueuedPointerMessages.filter fun p => p.1 != .selecttextEnd
    else s.reconnectQueuedPointerMessages
  { s with reconnectQueuedPointerMessages := setPointer pointers key kept
           dropped := s.dropped ++ gone.map fun p => .replaced p.2 kept }

/-- The oldest text that is not critical is dropped, else the oldest message. -/
def evict (s : ReconnectSocket) : ReconnectSocket :=
  if s.msgQueue.length < 80 then s
  else
    match s.msgQueue.findIdx? fun m => m.msg.isString && !m.msg.isCriticalReconnectMessage with
    | some i => { s with msgQueue := s.msgQueue.eraseIdx i
                         dropped := s.dropped ++ (s.msgQueue[i]?.map fun old => .evicted old s.msgQueue).toList }
    | none => { s with msgQueue := s.msgQueue.tail
                       dropped := s.dropped ++ (s.msgQueue.head?.map fun old => .evicted old s.msgQueue).toList }

def pushMessage (s : ReconnectSocket) (kept : Kept) : ReconnectSocket :=
  let s := s.evict
  { s with msgQueue := s.msgQueue ++ [kept] }

/-- A newer visible area replaces those in the queue. -/
def replaceVisibleArea (s : ReconnectSocket) (kept : Kept) : ReconnectSocket :=
  if kept.msg.startsWith "clientvisiblearea " then
    { s with msgQueue := s.msgQueue.filter fun m => !m.msg.startsWith "clientvisiblearea "
             dropped := s.dropped ++
              (s.msgQueue.filter fun m => m.msg.startsWith "clientvisiblearea ").map fun old => .replaced old kept }
  else s

def enqueueMessageForReconnect (s : ReconnectSocket) (msg : MessageInterface) (reason : Reason) : ReconnectSocket :=
  if msg.dropReconnectMessage reason then s
  else if msg = .text "uno .uno:SidebarHide".toList ∧ s.msgQueue.any (·.msg == msg) then s
  else
    let kept : Kept := ⟨s.accepted.length, msg⟩
    let s := { s with accepted := s.accepted ++ [kept] }
    let s := s.replaceVisibleArea kept
    match msg.getPointerCompactionKey with
    | some key => s.compactPointer key kept
    | none => s.pushMessage kept

/-! ### Sending -/

/-- The end of `sendMessage`; what is sent at once is not recorded. -/
def sendOrQueue (s : ReconnectSocket) (msg : MessageInterface) (readyState : ReadyState) : ReconnectSocket :=
  if s.interactionBlockedForReconnect && msg.shouldDeferDuringReconnect then
    s.enqueueMessageForReconnect msg .ui_blocked_reconnecting
  else if s.uiBlocked then s
  else if readyState = .open then s
  else s.enqueueMessageForReconnect msg .socket_not_open

def sendMessage (s : ReconnectSocket) (msg : MessageInterface) : ReconnectSocket :=
  match s.socket with
  | none => s
  | some readyState =>
    if s.fatal then s
    else if !s.active then
      if s.reconnecting && msg.shouldDeferDuringReconnect then s.enqueueMessageForReconnect msg .inactive_reconnecting
      else if msg.isReconnectHeartbeatMessage then s.sendOrQueue msg readyState
      else s
    else s.sendOrQueue msg readyState

/-! ### The socket -/

def resetReconnectTransientState (s : ReconnectSocket) : ReconnectSocket :=
  { s with msgQueue := [], reconnectQueuedPointerMessages := []
           dropped := s.dropped ++ (s.msgQueue ++ s.reconnectQueuedPointerMessages.map Prod.snd).map .reset }

def drainDeferredReconnectMessages (s : ReconnectSocket) : ReconnectSocket :=
  { s with
    msgQueue := s.msgQueue ++ s.reconnectQueuedPointerMessages.map Prod.snd, reconnectQueuedPointerMessages := [] }

/-- The visible areas and tiles that wait for their turn are sent at once, if at all. -/
def onSocketOpen (s : ReconnectSocket) : ReconnectSocket :=
  let s := { s with socket := some .open, reconnecting := s.reconnecting || s.docLayer }
  let s := s.drainDeferredReconnectMessages
  { s with flushed := s.flushed ++ [s.msgQueue], msgQueue := [], opened := s.accepted.length }

/-- With an error that is shown to the user nothing is reset. -/
def onSocketClose (s : ReconnectSocket) (shown : Bool) : ReconnectSocket :=
  let s := { s with socket := some .closed }
  if shown then s
  else
    let s := { s with active := false }.resetReconnectTransientState
    if s.thisIsAMobileApp then { s with interactionBlockedForReconnect := true } else s

/-- The end of a reconnect. -/
def onStatusMsg (s : ReconnectSocket) : ReconnectSocket :=
  let s := if s.docLayer && s.reconnecting then s.resetReconnectTransientState else s
  { s with docLayer := true, reconnecting := false, interactionBlockedForReconnect := false }

def finishMobileReconnectAfterDocalreadyloaded (s : ReconnectSocket) : ReconnectSocket :=
  { s.resetReconnectTransientState with reconnecting := false, interactionBlockedForReconnect := false }

inductive Event
  | sendMessage (msg : MessageInterface)
  | socketOpen
  | socketClose (shown : Bool)
  | status
  | docalreadyloaded
  | connect
  | closing
  /-- The timer after the socket was closed. -/
  | reconnectTimer
  | active (active : Bool)
  | fatal
  | uiBlocked (uiBlocked : Bool)

def step (s : ReconnectSocket) : Event → Option ReconnectSocket
  | .sendMessage msg => some (s.sendMessage msg)
  | .socketOpen => some s.onSocketOpen
  | .socketClose shown => some (s.onSocketClose shown)
  | .status => some s.onStatusMsg
  | .docalreadyloaded => some s.finishMobileReconnectAfterDocalreadyloaded
  | .connect => some { s with socket := some .connecting }
  | .closing => some { s with socket := some .closing }
  | .reconnectTimer => some { s with reconnecting := true }
  | .active active => some { s with active }
  | .fatal => some { s with fatal := true }
  | .uiBlocked uiBlocked => some { s with uiBlocked }

def IsInit (s : ReconnectSocket) : Prop := s = { thisIsAMobileApp := s.thisIsAMobileApp }

/-! ### What is promised -/

/-- The newer message makes the old one pointless. -/
def Replaces (new old : Kept) : Prop :=
  (new.msg.startsWith "clientvisiblearea " = true ∧ old.msg.startsWith "clientvisiblearea " = true) ∨
    ∃ key, new.msg.getPointerCompactionKey = some key ∧ (old.msg.getPointerCompactionKey = some key ∨
      (key = .selecttextStart ∧ old.msg.getPointerCompactionKey = some .selecttextEnd))

/-- Why a message was dropped: for a critical one from a full queue, because all text there was critical. -/
def Justified (accepted : List Kept) : Drop → Prop
  | .replaced old new => new ∈ accepted ∧ old.number < new.number ∧ Replaces new old
  | .evicted old queue => old ∈ queue ∧ 80 ≤ queue.length ∧
      (old.msg.isCriticalReconnectMessage = true → ∀ m ∈ queue, m.msg.isString = true →
        m.msg.isCriticalReconnectMessage = true)
  | .reset _ => True

def isPointer (m : Kept) : Bool := m.msg.getPointerCompactionKey.isSome

structure KeepsQueue (s : ReconnectSocket) : Prop where
  /-- What was kept before the socket opened last is sent, or was dropped. -/
  delivered : ∀ m ∈ s.accepted, m.number < s.opened → m ∈ s.flushed.flatten ∨ ∃ d ∈ s.dropped, d.old = m
  dropped : ∀ d ∈ s.dropped, Justified s.accepted d
  /-- The messages but those of the pointer keep their order. -/
  order : (s.flushed.flatten.filter fun m => !isPointer m).Pairwise fun m m' => m.number < m'.number
  /-- The pointer messages are sent behind the others. -/
  pointers : ∀ sent ∈ s.flushed, ∃ messages pointers, sent = messages ++ pointers ∧
    (∀ m ∈ messages, isPointer m = false) ∧ ∀ m ∈ pointers, isPointer m = true


/-! ### Invariant -/

/-- The socket has not opened since a message in the queues was kept; those in `pending` have yet to find their
place. -/
structure Inv (s : ReconnectSocket) (pending : List Kept) : Prop where
  numbers : ∀ m ∈ s.accepted, m.number < s.accepted.length
  msgQueue : ∀ m ∈ s.msgQueue, m ∈ s.accepted ∧ s.opened ≤ m.number ∧ isPointer m = false
  queuedPointers : ∀ p ∈ s.reconnectQueuedPointerMessages,
    p.2 ∈ s.accepted ∧ s.opened ≤ p.2.number ∧ p.2.msg.getPointerCompactionKey = some p.1
  flushed : ∀ m ∈ s.flushed.flatten, m ∈ s.accepted
  unplaced : ∀ m ∈ pending, m ∈ s.accepted ∧ s.opened ≤ m.number ∧
    ∀ p ∈ s.reconnectQueuedPointerMessages, p.2.number < m.number
  accounted : ∀ m ∈ s.accepted, m ∈ s.flushed.flatten ∨ m ∈ s.msgQueue ∨
    m ∈ s.reconnectQueuedPointerMessages.map Prod.snd ∨ (∃ d ∈ s.dropped, d.old = m) ∨ m ∈ pending
  dropped : ∀ d ∈ s.dropped, Justified s.accepted d
  order : ((s.flushed.flatten.filter fun m => !isPointer m) ++ (s.msgQueue ++ pending)).Pairwise
    fun m m' => m.number < m'.number
  pointers : ∀ sent ∈ s.flushed, ∃ messages pointers, sent = messages ++ pointers ∧
    (∀ m ∈ messages, isPointer m = false) ∧ ∀ m ∈ pointers, isPointer m = true
  opened : s.opened ≤ s.accepted.length

theorem Inv.keepsQueue {s : ReconnectSocket} (h : Inv s []) : KeepsQueue s where
  delivered m hm hopened := by
    obtain hflushed | hqueue | hpointer | hdropped | hpending := h.accounted m hm
    · exact .inl hflushed
    · have := (h.msgQueue m hqueue).2.1
      omega
    · obtain ⟨p, hp, rfl⟩ := List.mem_map.1 hpointer
      have := (h.queuedPointers p hp).2.1
      omega
    · exact .inr hdropped
    · exact absurd hpending List.not_mem_nil
  dropped := h.dropped
  order := (List.pairwise_append.1 h.order).1
  pointers := h.pointers

/-- The rest of the state does not matter. -/
theorem Inv.congr {s t : ReconnectSocket} {pending : List Kept} (h : Inv s pending)
    (haccepted : t.accepted = s.accepted) (hqueue : t.msgQueue = s.msgQueue)
    (hpointers : t.reconnectQueuedPointerMessages = s.reconnectQueuedPointerMessages)
    (hflushed : t.flushed = s.flushed) (hdropped : t.dropped = s.dropped) (hopened : t.opened = s.opened) :
    Inv t pending := by
  constructor
  · rw [haccepted]
    exact h.numbers
  · rw [haccepted, hqueue, hopened]
    exact h.msgQueue
  · rw [haccepted, hpointers, hopened]
    exact h.queuedPointers
  · rw [haccepted, hflushed]
    exact h.flushed
  · rw [haccepted, hopened, hpointers]
    exact h.unplaced
  · rw [haccepted, hflushed, hqueue, hpointers, hdropped]
    exact h.accounted
  · rw [haccepted, hdropped]
    exact h.dropped
  · rw [hflushed, hqueue]
    exact h.order
  · rw [hflushed]
    exact h.pointers
  · rw [haccepted, hopened]
    exact h.opened

theorem Justified.mono {accepted accepted' : List Kept} (h : accepted ⊆ accepted') {d : Drop}
    (hd : Justified accepted d) : Justified accepted' d := by
  cases d with
  | replaced old new => exact ⟨h hd.1, hd.2⟩
  | evicted old queue => exact hd
  | reset old => exact hd

/-- Messages may move from the queues to those that were dropped. -/
theorem Inv.drop {s t : ReconnectSocket} {pending : List Kept} (h : Inv s pending) (drops : List Drop)
    (haccepted : t.accepted = s.accepted)
    (hflushed : t.flushed = s.flushed) (hopened : t.opened = s.opened) (hdropped : t.dropped = s.dropped ++ drops)
    (hqueue : t.msgQueue.Sublist s.msgQueue)
    (hpointers : t.reconnectQueuedPointerMessages.Sublist s.reconnectQueuedPointerMessages)
    (hjustified : ∀ d ∈ drops, Justified s.accepted d)
    (hgone : ∀ m ∈ s.msgQueue, m ∈ t.msgQueue ∨ ∃ d ∈ drops, d.old = m)
    (hgone' : ∀ p ∈ s.reconnectQueuedPointerMessages, p ∈ t.reconnectQueuedPointerMessages ∨
    ∃ d ∈ drops, d.old = p.2) :
    Inv t pending := by
  constructor
  · rw [haccepted]
    exact h.numbers
  · intro m hm
    rw [haccepted, hopened]
    exact h.msgQueue m (hqueue.subset hm)
  · intro p hp
    rw [haccepted, hopened]
    exact h.queuedPointers p (hpointers.subset hp)
  · rw [haccepted, hflushed]
    exact h.flushed
  · intro m hm
    rw [haccepted, hopened]
    obtain ⟨hm, hle, hlt⟩ := h.unplaced m hm
    exact ⟨hm, hle, fun p hp => hlt p (hpointers.subset hp)⟩
  · intro m hm
    rw [haccepted] at hm
    rw [hflushed, hdropped]
    obtain hm | hm | hm | ⟨d, hd, rfl⟩ | hm := h.accounted m hm
    · exact .inl hm
    · obtain hm | ⟨d, hd, rfl⟩ := hgone m hm
      · exact .inr (.inl hm)
      · exact .inr (.inr (.inr (.inl ⟨d, List.mem_append_right _ hd, rfl⟩)))
    · obtain ⟨p, hp, rfl⟩ := List.mem_map.1 hm
      obtain hp | ⟨d, hd, hold⟩ := hgone' p hp
      · exact .inr (.inr (.inl (List.mem_map_of_mem hp)))
      · exact .inr (.inr (.inr (.inl ⟨d, List.mem_append_right _ hd, hold⟩)))
    · exact .inr (.inr (.inr (.inl ⟨d, List.mem_append_left _ hd, rfl⟩)))
    · exact .inr (.inr (.inr (.inr hm)))
  · intro d hd
    rw [haccepted]
    rw [hdropped] at hd
    obtain hd | hd := List.mem_append.1 hd
    · exact h.dropped d hd
    · exact hjustified d hd
  · rw [hflushed]
    exact h.order.sublist (List.Sublist.append_left (List.Sublist.append_right hqueue _) _)
  · rw [hflushed]
    exact h.pointers
  · rw [haccepted, hopened]
    exact h.opened


theorem Inv.lt_pending {s : ReconnectSocket} {kept : Kept} (h : Inv s [kept]) {m : Kept} (hm : m ∈ s.msgQueue) :
    m.number < kept.number :=
  (List.pairwise_append.1 (List.pairwise_append.1 h.order).2.1).2.2 m hm kept List.mem_cons_self

/-- The next message is kept. -/
theorem Inv.accept {s : ReconnectSocket} (h : Inv s []) (msg : MessageInterface) :
    Inv { s with accepted := s.accepted ++ [⟨s.accepted.length, msg⟩] } [⟨s.accepted.length, msg⟩] := by
  constructor
  · intro m hm
    change m.number < (s.accepted ++ [(⟨s.accepted.length, msg⟩ : Kept)]).length
    rw [List.length_append, List.length_singleton]
    obtain hm | hm := List.mem_append.1 hm
    · have := h.numbers m hm
      omega
    · obtain rfl := List.mem_singleton.1 hm
      exact Nat.lt_succ_self _
  · intro m hm
    obtain ⟨haccepted, hm⟩ := h.msgQueue m hm
    exact ⟨List.mem_append_left _ haccepted, hm⟩
  · intro p hp
    obtain ⟨haccepted, hp⟩ := h.queuedPointers p hp
    exact ⟨List.mem_append_left _ haccepted, hp⟩
  · intro m hm
    exact List.mem_append_left _ (h.flushed m hm)
  · intro m hm
    obtain rfl := List.mem_singleton.1 hm
    exact ⟨List.mem_append_right _ hm, h.opened, fun p hp => h.numbers p.2 (h.queuedPointers p hp).1⟩
  · intro m hm
    obtain hm | hm := List.mem_append.1 hm
    · obtain hm | hm | hm | hm | hm := h.accounted m hm
      · exact .inl hm
      · exact .inr (.inl hm)
      · exact .inr (.inr (.inl hm))
      · exact .inr (.inr (.inr (.inl hm)))
      · exact absurd hm List.not_mem_nil
    · exact .inr (.inr (.inr (.inr hm)))
  · intro d hd
    exact (h.dropped d hd).mono (List.subset_append_left _ _)
  · -- What is queued or was sent has been kept before.
    have horder := h.order
    rw [List.append_nil] at horder
    rw [← List.append_assoc]
    refine List.pairwise_append.2 ⟨horder, List.pairwise_singleton _ _, ?_⟩
    intro m hm m' hm'
    obtain rfl := List.mem_singleton.1 hm'
    obtain hm | hm := List.mem_append.1 hm
    · exact h.numbers m (h.flushed m (List.mem_of_mem_filter hm))
    · exact h.numbers m (h.msgQueue m hm).1
  · exact h.pointers
  · have := h.opened
    simp only [List.length_append, List.length_singleton]
    omega

theorem Inv.push {s : ReconnectSocket} {kept : Kept} (h : Inv s [kept]) (hkey : isPointer kept = false) :
    Inv { s with msgQueue := s.msgQueue ++ [kept] } [] := by
  obtain ⟨haccepted, hopened, -⟩ := h.unplaced kept List.mem_cons_self
  constructor
  · exact h.numbers
  · intro m hm
    obtain hm | hm := List.mem_append.1 hm
    · exact h.msgQueue m hm
    · obtain rfl := List.mem_singleton.1 hm
      exact ⟨haccepted, hopened, hkey⟩
  · exact h.queuedPointers
  · exact h.flushed
  · exact fun m hm => absurd hm List.not_mem_nil
  · intro m hm
    obtain hm | hm | hm | hm | hm := h.accounted m hm
    · exact .inl hm
    · exact .inr (.inl (List.mem_append_left _ hm))
    · exact .inr (.inr (.inl hm))
    · exact .inr (.inr (.inr (.inl hm)))
    · exact .inr (.inl (List.mem_append_right _ hm))
  · exact h.dropped
  · rw [List.append_nil]
    exact h.order
  · exact h.pointers
  · exact h.opened

/-! ### Keeping a message -/

theorem mem_setPointer {pointers : List (PointerKey × Kept)} {key : PointerKey} {kept : Kept} {p : PointerKey × Kept}
    (h : p ∈ setPointer pointers key kept) : p = (key, kept) ∨ p ∈ pointers := by
  unfold setPointer at h
  split at h
  · obtain ⟨q, hq, rfl⟩ := List.mem_map.1 h
    split
    · exact .inl rfl
    · exact .inr hq
  · obtain h | h := List.mem_append.1 h
    · exact .inr h
    · exact .inl (List.mem_singleton.1 h)

theorem mem_setPointer_self (pointers : List (PointerKey × Kept)) (key : PointerKey) (kept : Kept) :
    (key, kept) ∈ setPointer pointers key kept := by
  unfold setPointer
  split
  case isTrue h =>
    obtain ⟨q, hq, hkey⟩ := List.any_eq_true.1 h
    exact List.mem_map.2 ⟨q, hq, if_pos hkey⟩
  case isFalse => exact List.mem_append_right _ List.mem_cons_self

theorem mem_setPointer_of_ne {pointers : List (PointerKey × Kept)} {key : PointerKey} {kept : Kept}
    {p : PointerKey × Kept} (h : p ∈ pointers) (hne : (p.1 == key) = false) : p ∈ setPointer pointers key kept := by
  unfold setPointer
  split
  · exact List.mem_map.2 ⟨p, h, by rw [hne]; rfl⟩
  · exact List.mem_append_left _ h

theorem Inv.replaceVisibleArea {s : ReconnectSocket} {kept : Kept} (h : Inv s [kept]) :
    Inv (s.replaceVisibleArea kept) [kept] := by
  unfold ReconnectSocket.replaceVisibleArea
  split
  case isFalse => exact h
  case isTrue hnew =>
    refine h.drop _ rfl rfl rfl rfl List.filter_sublist (List.Sublist.refl _) ?_ ?_ ?_
    · intro d hd
      obtain ⟨old, hold, rfl⟩ := List.mem_map.1 hd
      obtain ⟨hqueue, hold⟩ := List.mem_filter.1 hold
      exact ⟨(h.unplaced kept List.mem_cons_self).1, h.lt_pending hqueue, .inl ⟨hnew, hold⟩⟩
    · intro m hm
      by_cases hold : m.msg.startsWith "clientvisiblearea " = true
      · exact .inr ⟨.replaced m kept, List.mem_map_of_mem (List.mem_filter.2 ⟨hm, hold⟩), rfl⟩
      · exact .inl (List.mem_filter.2 ⟨hm, by simpa using hold⟩)
    · exact fun p hp => .inl hp

theorem Inv.evict {s : ReconnectSocket} {pending : List Kept} (h : Inv s pending) : Inv s.evict pending := by
  unfold ReconnectSocket.evict
  split
  case isTrue => exact h
  case isFalse hfull =>
    split
    case h_1 i hi =>
      -- The first text that is not critical.
      obtain ⟨hlt, hp, -⟩ := List.findIdx?_eq_some_iff_getElem.1 hi
      have hget : s.msgQueue[i]? = some s.msgQueue[i] := List.getElem?_eq_getElem hlt
      refine h.drop _ rfl rfl rfl rfl (List.eraseIdx_sublist _ _) (List.Sublist.refl _) ?_ ?_ ?_
      · intro d hd
        rw [hget] at hd
        obtain rfl := List.mem_singleton.1 hd
        refine ⟨List.getElem_mem hlt, by omega, fun hcritical => ?_⟩
        simp only [hcritical, Bool.not_true, Bool.and_false, Bool.false_eq_true] at hp
      · intro m hm
        rw [hget]
        obtain ⟨j, hj, rfl⟩ := List.getElem_of_mem hm
        by_cases hji : j = i
        · subst hji
          exact .inr ⟨_, List.mem_singleton_self _, rfl⟩
        · exact .inl (List.mem_eraseIdx_iff_getElem.2 ⟨j, hj, hji, rfl⟩)
      · exact fun p hp => .inl hp
    case h_2 hnone =>
      have hcritical : ∀ m ∈ s.msgQueue, m.msg.isString = true → m.msg.isCriticalReconnectMessage = true := by
        intro m hm hstring
        have := List.findIdx?_eq_none_iff.1 hnone m hm
        simpa [hstring] using this
      obtain ⟨old, rest, hqueue⟩ : ∃ old rest, s.msgQueue = old :: rest := by
        refine List.exists_cons_of_ne_nil fun hnil => hfull ?_
        simp [hnil]
      refine h.drop _ rfl rfl rfl rfl (List.tail_sublist _) (List.Sublist.refl _) ?_ ?_ ?_
      · intro d hd
        rw [hqueue] at hd
        obtain rfl := List.mem_singleton.1 hd
        rw [← hqueue]
        refine ⟨?_, by omega, fun _ => hcritical⟩
        rw [hqueue]
        exact List.mem_cons_self
      · intro m hm
        rw [hqueue] at hm ⊢
        obtain rfl | hm := List.mem_cons.1 hm
        · exact .inr ⟨_, List.mem_singleton_self _, rfl⟩
        · exact .inl hm
      · exact fun p hp => .inl hp

theorem Inv.pushMessage {s : ReconnectSocket} {kept : Kept} (h : Inv s [kept]) (hkey : isPointer kept = false) :
    Inv (s.pushMessage kept) [] :=
  h.evict.push hkey

/-- The kept messages of the key, and the end of a selection that starts anew, are those that go. -/
theorem Inv.compactPointer {s : ReconnectSocket} {key : PointerKey} {kept : Kept} (h : Inv s [kept])
    (hkey : kept.msg.getPointerCompactionKey = some key) : Inv (s.compactPointer key kept) [] := by
  obtain ⟨haccepted, hopened, hlt⟩ := h.unplaced kept List.mem_cons_self
  have hmem : ∀ p ∈ (s.compactPointer key kept).reconnectQueuedPointerMessages,
      p = (key, kept) ∨ p ∈ s.reconnectQueuedPointerMessages := by
    intro p hp
    obtain rfl | hp := mem_setPointer hp
    · exact .inl rfl
    · split at hp
      · exact .inr (List.mem_of_mem_filter hp)
      · exact .inr hp
  have hgone : ∀ p ∈ s.reconnectQueuedPointerMessages,
    p ∈ (s.compactPointer key kept).reconnectQueuedPointerMessages ∨
      ∃ d ∈ (s.compactPointer key kept).dropped, d.old = p.2 := by
    intro p hp
    by_cases hold : (p.1 == key || (key == .selecttextStart && p.1 == .selecttextEnd)) = true
    · refine .inr ⟨.replaced p.2 kept, List.mem_append_right _ ?_, rfl⟩
      exact List.mem_map.2 ⟨p, List.mem_filter.2 ⟨hp, hold⟩, rfl⟩
    · obtain ⟨hne, hend⟩ : (p.1 == key) = false ∧ ¬ (key = .selecttextStart ∧ p.1 = .selecttextEnd) := by
        simpa using hold
      refine .inl (mem_setPointer_of_ne ?_ hne)
      split
      case isTrue hstart => exact List.mem_filter.2 ⟨hp, by simpa [hstart] using hend⟩
      case isFalse => exact hp
  have hdropped : ∀ d ∈ (s.compactPointer key kept).dropped, Justified s.accepted d := by
    intro d hd
    obtain hd | hd := List.mem_append.1 hd
    · exact h.dropped d hd
    · obtain ⟨p, hp, rfl⟩ := List.mem_map.1 hd
      obtain ⟨hp, hold⟩ := List.mem_filter.1 hp
      have hpkey := (h.queuedPointers p hp).2.2
      refine ⟨haccepted, hlt p hp, .inr ⟨key, hkey, ?_⟩⟩
      obtain heq | ⟨hstart, hend⟩ : p.1 = key ∨ key = .selecttextStart ∧ p.1 = .selecttextEnd := by simpa using hold
      · exact .inl (heq ▸ hpkey)
      · exact .inr ⟨hstart, hend ▸ hpkey⟩
  constructor
  · exact h.numbers
  · exact h.msgQueue
  · intro p hp
    obtain rfl | hp := hmem p hp
    · exact ⟨haccepted, hopened, hkey⟩
    · exact h.queuedPointers p hp
  · exact h.flushed
  · exact fun m hm => absurd hm List.not_mem_nil
  · intro m hm
    obtain hm | hm | hm | ⟨d, hd, rfl⟩ | hm := h.accounted m hm
    · exact .inl hm
    · exact .inr (.inl hm)
    · obtain ⟨p, hp, rfl⟩ := List.mem_map.1 hm
      obtain hp | hd := hgone p hp
      · exact .inr (.inr (.inl (List.mem_map_of_mem hp)))
      · exact .inr (.inr (.inr (.inl hd)))
    · exact .inr (.inr (.inr (.inl ⟨d, List.mem_append_left _ hd, rfl⟩)))
    · obtain rfl := List.mem_singleton.1 hm
      exact .inr (.inr (.inl (List.mem_map.2 ⟨_, mem_setPointer_self _ _ _, rfl⟩)))
  · exact hdropped
  · exact h.order.sublist (List.Sublist.append_left (List.Sublist.append_left (List.nil_sublist _) _) _)
  · exact h.pointers
  · exact h.opened

theorem Inv.enqueueMessageForReconnect {s : ReconnectSocket} (h : Inv s []) (msg : MessageInterface)
    (reason : Reason) : Inv (s.enqueueMessageForReconnect msg reason) [] := by
  unfold ReconnectSocket.enqueueMessageForReconnect
  split
  case isTrue => exact h
  case isFalse =>
    split
    case isTrue => exact h
    case isFalse =>
      have hnew := (h.accept msg).replaceVisibleArea
      split
      case h_1 key hkey => exact hnew.compactPointer hkey
      case h_2 hkey => exact hnew.pushMessage (by simp [isPointer, hkey])

/-! ### The events -/

theorem Inv.sendOrQueue {s : ReconnectSocket} (h : Inv s []) (msg : MessageInterface) (readyState : ReadyState) :
    Inv (s.sendOrQueue msg readyState) [] := by
  unfold ReconnectSocket.sendOrQueue
  split
  · exact h.enqueueMessageForReconnect msg _
  · split
    · exact h
    · split
      · exact h
      · exact h.enqueueMessageForReconnect msg _

theorem Inv.sendMessage {s : ReconnectSocket} (h : Inv s []) (msg : MessageInterface) :
    Inv (s.sendMessage msg) [] := by
  unfold ReconnectSocket.sendMessage
  split
  · exact h
  · split
    · exact h
    · split
      · split
        · exact h.enqueueMessageForReconnect msg _
        · split
          · exact h.sendOrQueue msg _
          · exact h
      · exact h.sendOrQueue msg _

theorem Inv.reset {s : ReconnectSocket} (h : Inv s []) : Inv s.resetReconnectTransientState [] := by
  refine h.drop _ rfl rfl rfl rfl (List.nil_sublist _) (List.nil_sublist _) ?_ ?_ ?_
  · intro d hd
    obtain ⟨old, -, rfl⟩ := List.mem_map.1 hd
    trivial
  · exact fun m hm => .inr ⟨.reset m, List.mem_map_of_mem (List.mem_append_left _ hm), rfl⟩
  · exact fun p hp => .inr ⟨.reset p.2, List.mem_map_of_mem (List.mem_append_right _ (List.mem_map_of_mem hp)), rfl⟩

/-- Everything in the queues is sent, the pointer messages last. -/
theorem Inv.onSocketOpen {s : ReconnectSocket} (h : Inv s []) : Inv s.onSocketOpen [] := by
  have hmessages : ∀ m ∈ s.msgQueue, isPointer m = false := fun m hm => (h.msgQueue m hm).2.2
  have hpointers : ∀ m ∈ s.reconnectQueuedPointerMessages.map Prod.snd, isPointer m = true := by
    intro m hm
    obtain ⟨p, hp, rfl⟩ := List.mem_map.1 hm
    simp [isPointer, (h.queuedPointers p hp).2.2]
  have hflatten : s.onSocketOpen.flushed.flatten =
      s.flushed.flatten ++ (s.msgQueue ++ s.reconnectQueuedPointerMessages.map Prod.snd) := by
    change (s.flushed ++ [_]).flatten = _
    rw [List.flatten_append, List.flatten_singleton]
    rfl
  constructor
  · exact h.numbers
  · exact fun m hm => absurd hm List.not_mem_nil
  · exact fun p hp => absurd hp List.not_mem_nil
  · intro m hm
    rw [hflatten] at hm
    obtain hm | hm := List.mem_append.1 hm
    · exact h.flushed m hm
    · obtain hm | hm := List.mem_append.1 hm
      · exact (h.msgQueue m hm).1
      · obtain ⟨p, hp, rfl⟩ := List.mem_map.1 hm
        exact (h.queuedPointers p hp).1
  · exact fun m hm => absurd hm List.not_mem_nil
  · intro m hm
    rw [hflatten]
    obtain hm | hm | hm | hm | hm := h.accounted m hm
    · exact .inl (List.mem_append_left _ hm)
    · exact .inl (List.mem_append_right _ (List.mem_append_left _ hm))
    · exact .inl (List.mem_append_right _ (List.mem_append_right _ hm))
    · exact .inr (.inr (.inr (.inl hm)))
    · exact absurd hm List.not_mem_nil
  · exact h.dropped
  · have hfilter : (s.onSocketOpen.flushed.flatten.filter fun m => !isPointer m) =
        (s.flushed.flatten.filter fun m => !isPointer m) ++ s.msgQueue := by
      have hsame : (s.msgQueue.filter fun m => !isPointer m) = s.msgQueue :=
        List.filter_eq_self.2 fun m hm => by simp [hmessages m hm]
      have hnone : ((s.reconnectQueuedPointerMessages.map Prod.snd).filter fun m => !isPointer m) = [] :=
        List.filter_eq_nil_iff.2 fun m hm => by simp [hpointers m hm]
      rw [hflatten, List.filter_append, List.filter_append, hsame, hnone, List.append_nil]
    rw [hfilter]
    exact (List.append_nil _).symm ▸ (List.append_nil s.msgQueue ▸ h.order)
  · intro sent hsent
    obtain hsent | hsent := List.mem_append.1 hsent
    · exact h.pointers sent hsent
    · obtain rfl := List.mem_singleton.1 hsent
      exact ⟨_, _, rfl, hmessages, hpointers⟩
  · exact Nat.le_refl _

theorem Inv.onSocketClose {s : ReconnectSocket} (h : Inv s []) (shown : Bool) : Inv (s.onSocketClose shown) [] := by
  unfold ReconnectSocket.onSocketClose
  have hclosed : Inv { s with socket := some .closed, active := false } [] := h.congr rfl rfl rfl rfl rfl rfl
  split
  · exact h.congr rfl rfl rfl rfl rfl rfl
  · dsimp only
    split
    · exact hclosed.reset.congr rfl rfl rfl rfl rfl rfl
    · exact hclosed.reset

theorem Inv.onStatusMsg {s : ReconnectSocket} (h : Inv s []) : Inv s.onStatusMsg [] := by
  unfold ReconnectSocket.onStatusMsg
  split
  · exact h.reset.congr rfl rfl rfl rfl rfl rfl
  · exact h.congr rfl rfl rfl rfl rfl rfl

theorem step_inv {s s' : ReconnectSocket} {e : Event} (h : Inv s []) (hs : step s e = some s') : Inv s' [] := by
  cases e with
  | sendMessage msg =>
    obtain rfl := Option.some.inj hs
    exact h.sendMessage msg
  | socketOpen =>
    obtain rfl := Option.some.inj hs
    exact h.onSocketOpen
  | socketClose shown =>
    obtain rfl := Option.some.inj hs
    exact h.onSocketClose shown
  | status =>
    obtain rfl := Option.some.inj hs
    exact h.onStatusMsg
  | docalreadyloaded =>
    obtain rfl := Option.some.inj hs
    exact h.reset.congr rfl rfl rfl rfl rfl rfl
  | connect | closing | reconnectTimer | fatal =>
    obtain rfl := Option.some.inj hs
    exact h.congr rfl rfl rfl rfl rfl rfl
  | active active | uiBlocked uiBlocked =>
    obtain rfl := Option.some.inj hs
    exact h.congr rfl rfl rfl rfl rfl rfl

theorem reachable_inv {s : ReconnectSocket} (h : Run.Reachable IsInit step Run.Any s) : Inv s [] := by
  refine h.invariant (Inv · []) ?_ fun s e s' _ hinv _ hs => step_inv hinv hs
  intro s hs
  rw [hs]
  constructor <;> simp

/-- In every run: what was kept before the socket opened is sent, unless it was dropped, and nothing is dropped
without a reason. -/
theorem reachable_keepsQueue {s : ReconnectSocket} (h : Run.Reachable IsInit step Run.Any s) : KeepsQueue s :=
  (reachable_inv h).keepsQueue

/-- The socket is closed and opens again, and the document gets its status. -/
def reconnect (messages : List String) : List Event :=
  [.socketOpen, .active true, .status, .socketClose false, .reconnectTimer, .connect] ++
    messages.map (fun msg => .sendMessage (.text msg.toList)) ++ [.socketOpen, .active true, .status]

theorem reachable_keepsQueue_reconnect : ∃ s, Run.Reachable IsInit step Run.Any s ∧
    s.flushed = [[], [⟨1, .text "key type=input char=97 key=0".toList⟩, ⟨2, .text "mouse type=move x=2".toList⟩]] ∧
    KeepsQueue s := by
  have hinit : IsInit { thisIsAMobileApp := false } := rfl
  have hrun : ∃ s, Run.Reachable IsInit step Run.Any s ∧ decide (s.flushed =
      [[], [⟨1, .text "key type=input char=97 key=0".toList⟩, ⟨2, .text "mouse type=move x=2".toList⟩]]) = true :=
    Run.Reachable.exists_of_run { thisIsAMobileApp := false }
      (reconnect ["mouse type=move x=1", "key type=input char=97 key=0", "mouse type=move x=2"]) hinit
      (by decide +kernel)
  obtain ⟨s, hs, hflushed⟩ := hrun
  exact ⟨s, hs, of_decide_eq_true hflushed, reachable_keepsQueue hs⟩

/-- Every message is sent after the reconnect. -/
def SendsAll (s : ReconnectSocket) : Prop :=
  s.socket = some .open → s.reconnecting = false → s.interactionBlockedForReconnect = false →
    ∀ m ∈ s.accepted, m ∈ s.flushed.flatten

/-- The queue holds 80 messages: with one more, the oldest is never sent, and no reset has dropped anything. -/
theorem not_sendsAll : ¬ ∀ s, Run.Reachable IsInit step Run.Any s → (∀ d ∈ s.dropped, d ≠ .reset d.old) →
    SendsAll s := by
  intro h
  have hinit : IsInit { thisIsAMobileApp := false } := rfl
  have hrun : ∃ s, Run.Reachable IsInit step Run.Any s ∧ decide (s.socket = some .open ∧ s.reconnecting = false ∧
      s.interactionBlockedForReconnect = false ∧ (∀ d ∈ s.dropped, d ≠ .reset d.old) ∧
      ∃ m ∈ s.accepted, m ∉ s.flushed.flatten) = true :=
    Run.Reachable.exists_of_run { thisIsAMobileApp := false }
      (reconnect (List.replicate 81 "key type=input char=97 key=0")) hinit (by decide +kernel)
  obtain ⟨s, hs, hlost⟩ := hrun
  obtain ⟨hopen, hreconnecting, hblocked, hreset, m, hm, hlost⟩ := of_decide_eq_true hlost
  exact hlost (h s hs hreset hopen hreconnecting hblocked m hm)

end ReconnectSocket

end CollaboraOnline
