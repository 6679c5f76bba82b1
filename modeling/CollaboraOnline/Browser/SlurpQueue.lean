import CollaboraOnline.Lib.Run
import Mathlib.Tactic.Common

/-!
# The slurp queue of the browser's socket

Incoming messages are queued and emitted when a timer fires.  Messages wait for their images, and a timer that fires
in a layer transaction is remembered until the transaction completes.  What a handler slurps while its message is
emitted is put behind the queue, and the queue is replaced at the end of the emission.
-/

namespace CollaboraOnline

structure SlurpMessage where
  id : Nat
  imageIsComplete : Bool
deriving DecidableEq

/-- A message that comes in, and what `filterSlurpedMessage` and `predictTilesToSlurp` say. -/
structure Incoming where
  evt : SlurpMessage
  filtered : Bool := false
  predictedTiles : Nat := 0
  now : Nat := 1
deriving DecidableEq

structure SlurpSocket where
  slurpQueue : List SlurpMessage := []
  /-- The delay of the timer that is armed. -/
  slurpTimer : Option Int := none
  slurpTimerDelay : Option Int := none
  slurpTimerLaunchTime : Option Nat := none
  inLayerTransaction : Bool := false
  slurpDuringTransaction : Bool := false
  /-- The callbacks that `endTransaction` has not called yet. -/
  callbacks : Nat := 0
  /-- The messages that were queued, and those that were emitted. -/
  arrived : List Nat := []
  emitted : List Nat := []
deriving DecidableEq

namespace SlurpSocket

def armTimer (s : SlurpSocket) (delayMS : Int) (now : Nat) : SlurpSocket :=
  if s.slurpTimer.isSome then s
  else if s.slurpTimerLaunchTime.getD 0 = 0 then
    { s with slurpTimerLaunchTime := some now, slurpTimerDelay := some delayMS, slurpTimer := some delayMS }
  else { s with slurpTimer := some delayMS }

def queueSlurpEventEmission (s : SlurpSocket) (delayMS : Int) (now : Nat) : SlurpSocket :=
  if s.slurpTimer.isSome && s.slurpTimerDelay != some delayMS then
    match s.slurpTimerLaunchTime with
    | none => { s with slurpTimer := none, slurpTimerDelay := some delayMS }
    | some launch =>
      let sinceLaunchMS := (now : Int) - launch
      { s with slurpTimer := none, slurpTimerDelay := some delayMS }.armTimer
        (if delayMS - sinceLaunchMS ≤ 0 then 1 else delayMS - sinceLaunchMS) now
  else s.armTimer delayMS now

def slurpMessage (s : SlurpSocket) (e : Incoming) : SlurpSocket :=
  if e.filtered then s
  else
    { s with slurpQueue := s.slurpQueue ++ [e.evt], arrived := s.arrived ++ [e.evt.id] }.queueSlurpEventEmission
      (max (min e.predictedTiles 50) 1 : Nat) e.now

def emptyQueue (s : SlurpSocket) (queueMsg : List Incoming) : SlurpSocket := queueMsg.foldl slurpMessage s

/-- The loop over the messages that were queued, where `handlers` is what `_onMessage` slurps for each; the index of
the message that stops it. -/
def emitLoop : List SlurpMessage → List (List Incoming) → Nat → SlurpSocket → SlurpSocket × Option Nat
  | [], _, _, s => (s, none)
  | evt :: evts, handlers, i, s =>
    if evt.imageIsComplete then
      emitLoop evts handlers.tail (i + 1)
        ((handlers.headD []).foldl slurpMessage { s with emitted := s.emitted ++ [evt.id] })
    else (s, some i)

def completeCallback (s : SlurpSocket) (now : Nat) : SlurpSocket :=
  let s := { s with inLayerTransaction := false }
  if s.slurpDuringTransaction then { s with slurpDuringTransaction := false }.queueSlurpEventEmission 1 now else s

/-- `docLayer` and `docLayer'` say whether there is a layer before and after the messages. -/
def emitSlurpedEvents (s : SlurpSocket) (handlers : List (List Incoming)) (docLayer docLayer' : Bool) (now : Nat) :
    SlurpSocket :=
  let queueLength := s.slurpQueue.length
  let s := if docLayer then { s with inLayerTransaction := true } else s
  let (s, stop) := emitLoop s.slurpQueue handlers 0 s
  let s := { s with slurpQueue := stop.elim [] fun i => (s.slurpQueue.take queueLength).drop i }
  if s.inLayerTransaction && docLayer' then { s with callbacks := s.callbacks + 1 } else s.completeCallback now

/-- The handler of the timer. -/
def onTimer (s : SlurpSocket) (handlers : List (List Incoming)) (docLayer docLayer' : Bool) (now : Nat) :
    SlurpSocket :=
  let s := { s with slurpTimer := none, slurpTimerLaunchTime := none, slurpTimerDelay := none }
  if s.inLayerTransaction then { s with slurpDuringTransaction := true }
  else s.emitSlurpedEvents handlers docLayer docLayer' now

/-- The image of a message was loaded, or failed. -/
def onImage (s : SlurpSocket) (id : Nat) (now : Nat) : SlurpSocket :=
  let slurpQueue := s.slurpQueue.map fun (evt : SlurpMessage) =>
    if evt.id = id then { evt with imageIsComplete := true } else evt
  { s with slurpQueue }.queueSlurpEventEmission 1 now

/-! ### Runs -/

inductive Event
  | message (e : Incoming)
  | emptyQueue (queueMsg : List Incoming)
  | timer (handlers : List (List Incoming)) (docLayer docLayer' : Bool) (now : Nat)
  | image (id : Nat) (now : Nat)
  /-- `endTransaction` calls its callback. -/
  | transactionDone (now : Nat)

def step (s : SlurpSocket) : Event → Option SlurpSocket
  | .message e => some (s.slurpMessage e)
  | .emptyQueue queueMsg => some (s.emptyQueue queueMsg)
  | .timer handlers docLayer docLayer' now =>
    if s.slurpTimer.isSome then some (s.onTimer handlers docLayer docLayer' now) else none
  | .image id now => some (s.onImage id now)
  | .transactionDone now =>
    if s.callbacks = 0 then none else some ({ s with callbacks := s.callbacks - 1 }.completeCallback now)

abbrev Reachable (ok : SlurpSocket → Event → Prop) : SlurpSocket → Prop := Run.Reachable (· = {}) step ok

/-- How many messages an emission passes to `_onMessage`. -/
def ready (s : SlurpSocket) : List SlurpMessage := s.slurpQueue.takeWhile SlurpMessage.imageIsComplete

/-- No message is queued while the timer's messages are emitted. -/
def Quiet (s : SlurpSocket) : Event → Prop
  | .timer handlers _ _ _ =>
    s.inLayerTransaction = false → ∀ slurped ∈ handlers.take s.ready.length, ∀ e ∈ slurped, e.filtered = true
  | _ => True

/-- Every message that was queued was emitted once, in order, or still waits. -/
def InOrder (s : SlurpSocket) : Prop := s.arrived = s.emitted ++ s.slurpQueue.map SlurpMessage.id

instance (s : SlurpSocket) : Decidable s.InOrder := inferInstanceAs (Decidable (_ = _))

/-- A timer is armed, or an open transaction will arm it. -/
def WillEmit (s : SlurpSocket) : Prop :=
  s.slurpTimer.isSome = true ∨ (s.inLayerTransaction = true ∧ s.slurpDuringTransaction = true ∧ 0 < s.callbacks)

def Progress (s : SlurpSocket) : Prop :=
    (∀ evt ∈ s.slurpQueue.head?, evt.imageIsComplete = true) → s.slurpQueue ≠ [] → s.WillEmit

/-! ### The timer -/

/-- Only the timer has changed. -/
structure KeepsQueue (s s' : SlurpSocket) : Prop where
  slurpQueue : s'.slurpQueue = s.slurpQueue
  inLayerTransaction : s'.inLayerTransaction = s.inLayerTransaction
  slurpDuringTransaction : s'.slurpDuringTransaction = s.slurpDuringTransaction
  callbacks : s'.callbacks = s.callbacks
  arrived : s'.arrived = s.arrived
  emitted : s'.emitted = s.emitted

/-- A timer that is armed has a launch time. -/
def Launched (s : SlurpSocket) : Prop := s.slurpTimer.isSome = true → s.slurpTimerLaunchTime.isSome = true

variable {s : SlurpSocket}

theorem armTimer_spec (delayMS : Int) (now : Nat) (h : s.Launched) : KeepsQueue s (s.armTimer delayMS now) ∧
    (s.armTimer delayMS now).slurpTimer.isSome = true ∧ (s.armTimer delayMS now).Launched := by
  unfold armTimer
  split
  · rename_i htimer
    exact ⟨⟨rfl, rfl, rfl, rfl, rfl, rfl⟩, htimer, h⟩
  · split
    · exact ⟨⟨rfl, rfl, rfl, rfl, rfl, rfl⟩, rfl, fun _ => rfl⟩
    · rename_i hlaunch
      refine ⟨⟨rfl, rfl, rfl, rfl, rfl, rfl⟩, rfl, fun _ => ?_⟩
      cases hl : s.slurpTimerLaunchTime with
      | none =>
        rw [hl] at hlaunch
        exact absurd rfl hlaunch
      | some launch => rfl

/-- An emission is queued whatever timer was armed. -/
theorem queueSlurpEventEmission_spec (delayMS : Int) (now : Nat) (h : s.Launched) :
    KeepsQueue s (s.queueSlurpEventEmission delayMS now) ∧
      (s.queueSlurpEventEmission delayMS now).slurpTimer.isSome = true ∧
      (s.queueSlurpEventEmission delayMS now).Launched := by
  unfold queueSlurpEventEmission
  split
  · rename_i hcancel
    rw [Bool.and_eq_true] at hcancel
    split
    · rename_i hlaunch
      have hsome := h hcancel.1
      rw [hlaunch] at hsome
      cases hsome
    · rename_i launch hlaunch
      obtain ⟨hkeep, hsome, hlaunched⟩ :=
        armTimer_spec (s := { s with slurpTimer := none, slurpTimerDelay := some delayMS })
          (if delayMS - ((now : Int) - launch) ≤ 0 then 1 else delayMS - ((now : Int) - launch)) now
          (fun h => by cases h)
      exact ⟨⟨hkeep.slurpQueue, hkeep.inLayerTransaction, hkeep.slurpDuringTransaction, hkeep.callbacks,
        hkeep.arrived, hkeep.emitted⟩, hsome, hlaunched⟩
  · exact armTimer_spec delayMS now h

/-! ### The invariant -/

/-- What holds between any two events. -/
structure Inv (s : SlurpSocket) : Prop where
  launched : s.Launched
  callbacks : s.callbacks = if s.inLayerTransaction then 1 else 0
  progress : s.Progress

theorem inv_new : Inv {} where
  launched := fun h => by cases h
  callbacks := rfl
  progress := fun _ h => absurd rfl h

theorem progress_of_timer (h : s.slurpTimer.isSome = true) : s.Progress := fun _ _ => .inl h

theorem Inv.queueSlurpEventEmission (hl : s.Launched) (hc : s.callbacks = if s.inLayerTransaction then 1 else 0)
    (delayMS : Int) (now : Nat) : Inv (s.queueSlurpEventEmission delayMS now) := by
  obtain ⟨hkeep, hsome, hlaunched⟩ := queueSlurpEventEmission_spec delayMS now hl
  exact ⟨hlaunched, by rw [hkeep.callbacks, hkeep.inLayerTransaction, hc], progress_of_timer hsome⟩

theorem Inv.slurpMessage (h : Inv s) (e : Incoming) : Inv (s.slurpMessage e) := by
  unfold SlurpSocket.slurpMessage
  split
  · exact h
  · exact Inv.queueSlurpEventEmission (s := { s with slurpQueue := s.slurpQueue ++ [e.evt]
                                                     arrived := s.arrived ++ [e.evt.id] }) h.launched h.callbacks _ _

theorem Inv.emptyQueue (h : Inv s) (queueMsg : List Incoming) : Inv (queueMsg.foldl SlurpSocket.slurpMessage s) := by
  induction queueMsg generalizing s with
  | nil => exact h
  | cons e queueMsg ih => exact ih (h.slurpMessage e)

/-- The flags stay, and the queue only grows. -/
structure OnlySlurps (s s' : SlurpSocket) : Prop where
  launched : s'.Launched
  inLayerTransaction : s'.inLayerTransaction = s.inLayerTransaction
  slurpDuringTransaction : s'.slurpDuringTransaction = s.slurpDuringTransaction
  callbacks : s'.callbacks = s.callbacks
  slurpQueue : s.slurpQueue <+: s'.slurpQueue

theorem onlySlurps_slurpMessage (hl : s.Launched) (e : Incoming) : OnlySlurps s (s.slurpMessage e) := by
  unfold slurpMessage
  split
  · exact ⟨hl, rfl, rfl, rfl, List.prefix_refl _⟩
  · obtain ⟨hkeep, _, hlaunched⟩ := queueSlurpEventEmission_spec
      (s := { s with slurpQueue := s.slurpQueue ++ [e.evt], arrived := s.arrived ++ [e.evt.id] })
      (max (min e.predictedTiles 50) 1 : Nat) e.now hl
    refine ⟨hlaunched, hkeep.inLayerTransaction, hkeep.slurpDuringTransaction, hkeep.callbacks, ?_⟩
    rw [hkeep.slurpQueue]
    exact List.prefix_append ..

theorem OnlySlurps.trans {s₁ s₂ s₃ : SlurpSocket} (h : OnlySlurps s₁ s₂) (h' : OnlySlurps s₂ s₃) : OnlySlurps s₁ s₃ :=
  ⟨h'.launched, h'.inLayerTransaction.trans h.inLayerTransaction,
    h'.slurpDuringTransaction.trans h.slurpDuringTransaction, h'.callbacks.trans h.callbacks,
    h.slurpQueue.trans h'.slurpQueue⟩

theorem onlySlurps_foldl (slurped : List Incoming) (hl : s.Launched) :
    OnlySlurps s (slurped.foldl slurpMessage s) := by
  induction slurped generalizing s with
  | nil => exact ⟨hl, rfl, rfl, rfl, List.prefix_refl _⟩
  | cons e slurped ih =>
    have hfirst := onlySlurps_slurpMessage hl e
    exact hfirst.trans (ih hfirst.launched)

theorem foldl_filtered {slurped : List Incoming} (h : ∀ e ∈ slurped, e.filtered = true) :
    slurped.foldl slurpMessage s = s := by
  induction slurped generalizing s with
  | nil => rfl
  | cons e slurped ih =>
    have he : s.slurpMessage e = s := by rw [slurpMessage, if_pos (h e (List.mem_cons_self ..))]
    rw [List.foldl_cons, he]
    exact ih fun e he => h e (List.mem_cons_of_mem _ he)

/-! ### An emission -/

/-- The loop stops at the first message that is not complete. -/
theorem emitLoop_spec (evts : List SlurpMessage) (handlers : List (List Incoming)) (i : Nat) (hl : s.Launched) :
    OnlySlurps s (emitLoop evts handlers i s).1 ∧
      (∀ l : List SlurpMessage, i ≤ l.length → l.drop i = evts → (emitLoop evts handlers i s).2.elim [] (l.drop ·) =
        evts.dropWhile SlurpMessage.imageIsComplete) := by
  induction evts generalizing handlers i s with
  | nil => exact ⟨⟨hl, rfl, rfl, rfl, List.prefix_refl _⟩, fun l _ _ => rfl⟩
  | cons evt evts ih =>
    rw [emitLoop]
    split
    · rename_i hcomplete
      have hslurps := onlySlurps_foldl (s := { s with emitted := s.emitted ++ [evt.id] }) (handlers.headD []) hl
      obtain ⟨hrest, hstop⟩ := ih handlers.tail (i + 1) hslurps.launched
      have hfirst : OnlySlurps s { s with emitted := s.emitted ++ [evt.id] } :=
        ⟨hl, rfl, rfl, rfl, List.prefix_refl _⟩
      refine ⟨(hfirst.trans hslurps).trans hrest, ?_⟩
      intro l hi hdrop
      have hlen := congrArg List.length hdrop
      rw [List.length_drop, List.length_cons] at hlen
      rw [hstop l (by omega) (by rw [← List.drop_drop, hdrop]; rfl), List.dropWhile_cons_of_pos hcomplete]
    · rename_i hcomplete
      refine ⟨⟨hl, rfl, rfl, rfl, List.prefix_refl _⟩, fun l _ hdrop => ?_⟩
      rw [List.dropWhile_cons_of_neg hcomplete]
      exact hdrop

/-- Without messages from the handlers, the loop only emits. -/
theorem emitLoop_quiet (evts : List SlurpMessage) (handlers : List (List Incoming)) (i : Nat)
    (hquiet : ∀ slurped ∈ handlers.take (evts.takeWhile SlurpMessage.imageIsComplete).length, ∀ e ∈ slurped,
    e.filtered = true) :
    (emitLoop evts handlers i s).1 =
      { s with emitted := s.emitted ++ (evts.takeWhile SlurpMessage.imageIsComplete).map SlurpMessage.id } := by
  induction evts generalizing handlers i s with
  | nil =>
    rw [emitLoop, List.takeWhile_nil, List.map_nil, List.append_nil]
  | cons evt evts ih =>
    rw [emitLoop]
    split
    · rename_i hcomplete
      rw [List.takeWhile_cons_of_pos hcomplete, List.length_cons] at hquiet
      have hhead : ∀ e ∈ handlers.headD [], e.filtered = true := by
        cases handlers with
        | nil => exact fun e he => absurd he List.not_mem_nil
        | cons slurped handlers => exact hquiet slurped (List.mem_cons_self ..)
      rw [foldl_filtered hhead, ih handlers.tail (i + 1)]
      · rw [List.takeWhile_cons_of_pos hcomplete, List.map_cons, List.append_assoc, List.singleton_append]
      · intro slurped hslurped
        cases handlers with
        | nil =>
          rw [List.tail_nil, List.take_nil] at hslurped
          exact absurd hslurped List.not_mem_nil
        | cons first handlers => exact hquiet slurped (List.mem_cons_of_mem _ hslurped)
    · rename_i hcomplete
      rw [List.takeWhile_cons_of_neg hcomplete, List.map_nil, List.append_nil]

/-- The state at the end of the loop, with the queue that is left. -/
def afterLoop (s : SlurpSocket) (handlers : List (List Incoming)) (docLayer : Bool) : SlurpSocket :=
  let s := if docLayer then { s with inLayerTransaction := true } else s
  { (emitLoop s.slurpQueue handlers 0 s).1 with slurpQueue := s.slurpQueue.dropWhile SlurpMessage.imageIsComplete }

theorem emitSlurpedEvents_eq (handlers : List (List Incoming)) (docLayer docLayer' : Bool) (now : Nat)
    (hl : s.Launched) : s.emitSlurpedEvents handlers docLayer docLayer' now =
      if (s.afterLoop handlers docLayer).inLayerTransaction && docLayer' then
        { s.afterLoop handlers docLayer with callbacks := (s.afterLoop handlers docLayer).callbacks + 1 }
      else (s.afterLoop handlers docLayer).completeCallback now := by
  have hqueue : (if docLayer then { s with inLayerTransaction := true } else s).slurpQueue = s.slurpQueue := by
    split <;> rfl
  have hl' : (if docLayer then { s with inLayerTransaction := true } else s).Launched := by
    split
    · exact hl
    · exact hl
  unfold emitSlurpedEvents afterLoop
  dsimp only
  generalize (if docLayer = true then { s with inLayerTransaction := true } else s) = s₁ at hqueue hl'
  obtain ⟨hslurps, hstop⟩ := emitLoop_spec s₁.slurpQueue handlers 0 hl'
  have htake : (emitLoop s₁.slurpQueue handlers 0 s₁).1.slurpQueue.take s.slurpQueue.length = s₁.slurpQueue := by
    obtain ⟨extra, hextra⟩ := hslurps.slurpQueue
    rw [← hextra, ← hqueue, List.take_left]
  rw [htake, hstop s₁.slurpQueue (Nat.zero_le _) rfl]

/-- What the loop leaves begins with a message that is not complete. -/
theorem eq_nil_of_dropWhile {evts : List SlurpMessage}
    (h : s.slurpQueue = evts.dropWhile SlurpMessage.imageIsComplete)
    (hhead : ∀ evt ∈ s.slurpQueue.head?, evt.imageIsComplete = true) : s.slurpQueue = [] := by
  by_contra hne
  rw [h] at hhead hne
  have hnot := List.head_dropWhile_not SlurpMessage.imageIsComplete hne
  have hcomplete := hhead _ (List.head?_eq_some_head hne)
  rw [hnot] at hcomplete
  cases hcomplete

theorem Inv.completeCallback (hl : s.Launched) (hc : s.callbacks = 0)
    (hp : (∀ evt ∈ s.slurpQueue.head?, evt.imageIsComplete = true) → s.slurpQueue ≠ [] →
      s.slurpTimer.isSome = true ∨ s.slurpDuringTransaction = true) (now : Nat) : Inv (s.completeCallback now) := by
  unfold SlurpSocket.completeCallback
  dsimp only
  split
  · exact Inv.queueSlurpEventEmission
      (s := { s with inLayerTransaction := false, slurpDuringTransaction := false }) hl hc _ _
  · rename_i hduring
    refine ⟨hl, hc, fun hhead hne => ?_⟩
    rcases hp hhead hne with htimer | hduring'
    · exact .inl htimer
    · exact absurd hduring' hduring

theorem Inv.emitSlurpedEvents (hl : s.Launched) (hc : s.callbacks = 0)
    (handlers : List (List Incoming)) (docLayer docLayer' : Bool) (now : Nat) :
    Inv (s.emitSlurpedEvents handlers docLayer docLayer' now) := by
  have hafter : (s.afterLoop handlers docLayer).Launched ∧ (s.afterLoop handlers docLayer).callbacks = 0 ∧
      ∃ evts : List SlurpMessage, (s.afterLoop handlers docLayer).slurpQueue =
        evts.dropWhile SlurpMessage.imageIsComplete := by
    unfold afterLoop
    dsimp only
    cases docLayer with
    | true =>
      obtain ⟨hslurps, _⟩ := emitLoop_spec (s := { s with inLayerTransaction := true }) s.slurpQueue handlers 0 hl
      exact ⟨hslurps.launched, hslurps.callbacks.trans hc, _, rfl⟩
    | false =>
      obtain ⟨hslurps, _⟩ := emitLoop_spec s.slurpQueue handlers 0 hl
      exact ⟨hslurps.launched, hslurps.callbacks.trans hc, _, rfl⟩
  rw [emitSlurpedEvents_eq handlers docLayer docLayer' now hl]
  generalize s.afterLoop handlers docLayer = s₁ at hafter
  obtain ⟨hlaunched, hcallbacks, evts, hqueue⟩ := hafter
  split
  · rename_i hopen
    rw [Bool.and_eq_true] at hopen
    refine ⟨hlaunched, ?_, fun hhead hne => absurd (eq_nil_of_dropWhile hqueue hhead) hne⟩
    dsimp only
    rw [hopen.1, hcallbacks]
    rfl
  · exact Inv.completeCallback hlaunched hcallbacks
      (fun hhead hne => absurd (eq_nil_of_dropWhile hqueue hhead) hne) now

theorem Inv.step {e : Event} {s' : SlurpSocket} (h : Inv s) (hs : SlurpSocket.step s e = some s') : Inv s' := by
  cases e with
  | message e =>
    cases hs
    exact h.slurpMessage e
  | emptyQueue queueMsg =>
    cases hs
    exact h.emptyQueue queueMsg
  | image id now =>
    cases hs
    exact Inv.queueSlurpEventEmission (s := { s with slurpQueue := s.slurpQueue.map fun (evt : SlurpMessage) =>
      if evt.id = id then { evt with imageIsComplete := true } else evt }) h.launched h.callbacks _ _
  | transactionDone now =>
    unfold SlurpSocket.step at hs
    dsimp only at hs
    split at hs
    · cases hs
    · rename_i hcallbacks
      cases hs
      have hone := h.callbacks
      have hzero : s.callbacks - 1 = 0 := by
        split at hone <;> omega
      refine Inv.completeCallback (s := { s with callbacks := s.callbacks - 1 }) h.launched hzero ?_ now
      intro hhead hne
      rcases h.progress hhead hne with htimer | ⟨_, hduring, _⟩
      · exact .inl htimer
      · exact .inr hduring
  | timer handlers docLayer docLayer' now =>
    unfold SlurpSocket.step at hs
    dsimp only at hs
    split at hs
    · cases hs
      have hcallbacks := h.callbacks
      unfold onTimer
      dsimp only
      split
      · rename_i hopen
        -- the transaction remembers the timer
        rw [if_pos hopen] at hcallbacks
        refine ⟨fun h => (by cases h), ?_, fun _ _ => .inr ⟨hopen, rfl, ?_⟩⟩
        · dsimp only
          rw [if_pos hopen, hcallbacks]
        · dsimp only
          omega
      · rename_i hclosed
        rw [if_neg hclosed] at hcallbacks
        exact Inv.emitSlurpedEvents
          (s := { s with slurpTimer := none, slurpTimerLaunchTime := none, slurpTimerDelay := none })
          (fun h => by cases h) hcallbacks _ _ _ _
    · cases hs

/-! ### Order -/

theorem inOrder_slurpMessage (h : s.InOrder) (hl : s.Launched) (e : Incoming) : (s.slurpMessage e).InOrder := by
  unfold slurpMessage
  split
  · exact h
  · obtain ⟨hkeep, _⟩ := queueSlurpEventEmission_spec
      (s := { s with slurpQueue := s.slurpQueue ++ [e.evt], arrived := s.arrived ++ [e.evt.id] })
      (max (min e.predictedTiles 50) 1 : Nat) e.now hl
    unfold InOrder at h ⊢
    rw [hkeep.arrived, hkeep.emitted, hkeep.slurpQueue]
    dsimp only
    rw [h, List.map_append, List.append_assoc]
    rfl

theorem inOrder_emptyQueue (h : s.InOrder) (hl : s.Launched) (queueMsg : List Incoming) :
    (s.emptyQueue queueMsg).InOrder := by
  unfold emptyQueue
  induction queueMsg generalizing s with
  | nil => exact h
  | cons e queueMsg ih => exact ih (inOrder_slurpMessage h hl e) (onlySlurps_slurpMessage hl e).launched

theorem completeCallback_keeps (hl : s.Launched) (now : Nat) : (s.completeCallback now).slurpQueue = s.slurpQueue ∧
    (s.completeCallback now).arrived = s.arrived ∧ (s.completeCallback now).emitted = s.emitted := by
  unfold completeCallback
  dsimp only
  split
  · obtain ⟨hkeep, _⟩ := queueSlurpEventEmission_spec
      (s := { s with inLayerTransaction := false, slurpDuringTransaction := false }) 1 now hl
    exact ⟨hkeep.slurpQueue, hkeep.arrived, hkeep.emitted⟩
  · exact ⟨rfl, rfl, rfl⟩

/-- A quiet emission moves the complete messages at the front of the queue. -/
theorem emitSlurpedEvents_quiet (hl : s.Launched) (handlers : List (List Incoming)) (docLayer docLayer' : Bool)
    (now : Nat) (hquiet : ∀ slurped ∈ handlers.take s.ready.length, ∀ e ∈ slurped, e.filtered = true) :
    (s.emitSlurpedEvents handlers docLayer docLayer' now).slurpQueue =
      s.slurpQueue.dropWhile SlurpMessage.imageIsComplete ∧
      (s.emitSlurpedEvents handlers docLayer docLayer' now).arrived = s.arrived ∧
      (s.emitSlurpedEvents handlers docLayer docLayer' now).emitted = s.emitted ++ s.ready.map SlurpMessage.id := by
  have hafter : (s.afterLoop handlers docLayer).Launched ∧
      (s.afterLoop handlers docLayer).slurpQueue = s.slurpQueue.dropWhile SlurpMessage.imageIsComplete ∧
      (s.afterLoop handlers docLayer).arrived = s.arrived ∧
      (s.afterLoop handlers docLayer).emitted = s.emitted ++ s.ready.map SlurpMessage.id := by
    unfold afterLoop
    dsimp only
    cases docLayer with
    | true =>
      have hloop := emitLoop_quiet (s := { s with inLayerTransaction := true }) s.slurpQueue handlers 0 hquiet
      rw [if_pos rfl, hloop]
      exact ⟨hl, rfl, rfl, rfl⟩
    | false =>
      have hloop := emitLoop_quiet (s := s) s.slurpQueue handlers 0 hquiet
      rw [if_neg Bool.false_ne_true, hloop]
      exact ⟨hl, rfl, rfl, rfl⟩
  rw [emitSlurpedEvents_eq handlers docLayer docLayer' now hl]
  generalize s.afterLoop handlers docLayer = s₁ at hafter
  obtain ⟨hlaunched, hqueue, harrived, hemitted⟩ := hafter
  split
  · exact ⟨hqueue, harrived, hemitted⟩
  · obtain ⟨hqueue', harrived', hemitted'⟩ := completeCallback_keeps hlaunched now
    exact ⟨hqueue'.trans hqueue, harrived'.trans harrived, hemitted'.trans hemitted⟩

theorem inOrder_step {e : Event} {s' : SlurpSocket} (h : s.InOrder) (hinv : Inv s) (hquiet : Quiet s e)
    (hs : SlurpSocket.step s e = some s') : s'.InOrder := by
  cases e with
  | message e =>
    cases hs
    exact inOrder_slurpMessage h hinv.launched e
  | emptyQueue queueMsg =>
    cases hs
    exact inOrder_emptyQueue h hinv.launched queueMsg
  | image id now =>
    cases hs
    unfold onImage
    obtain ⟨hkeep, _⟩ := queueSlurpEventEmission_spec
      (s := { s with slurpQueue := s.slurpQueue.map fun (evt : SlurpMessage) =>
        if evt.id = id then { evt with imageIsComplete := true } else evt }) 1 now hinv.launched
    have hids : ((s.slurpQueue.map fun (evt : SlurpMessage) =>
        if evt.id = id then { evt with imageIsComplete := true } else evt).map SlurpMessage.id) =
          s.slurpQueue.map SlurpMessage.id := by
      rw [List.map_map]
      refine List.map_congr_left fun evt _ => ?_
      rw [Function.comp_apply]
      split <;> rfl
    unfold InOrder at h ⊢
    rw [hkeep.arrived, hkeep.emitted, hkeep.slurpQueue, hids]
    exact h
  | transactionDone now =>
    unfold SlurpSocket.step at hs
    dsimp only at hs
    split at hs
    · cases hs
    · cases hs
      obtain ⟨hqueue, harrived, hemitted⟩ :=
        completeCallback_keeps (s := { s with callbacks := s.callbacks - 1 }) hinv.launched now
      unfold InOrder at h ⊢
      rw [hqueue, harrived, hemitted]
      exact h
  | timer handlers docLayer docLayer' now =>
    unfold SlurpSocket.step at hs
    dsimp only at hs
    split at hs
    · cases hs
      unfold onTimer
      dsimp only
      split
      · exact h
      · rename_i hclosed
        obtain ⟨hqueue, harrived, hemitted⟩ := emitSlurpedEvents_quiet
          (s := { s with slurpTimer := none, slurpTimerLaunchTime := none, slurpTimerDelay := none })
          (fun h => by cases h) handlers docLayer docLayer' now (hquiet (Bool.eq_false_iff.2 hclosed))
        unfold InOrder at h ⊢
        rw [hqueue, harrived, hemitted, List.append_assoc, ← List.map_append]
        have hsplit := List.takeWhile_append_dropWhile (p := SlurpMessage.imageIsComplete) (l := s.slurpQueue)
        exact h.trans (congrArg (fun l => s.emitted ++ l.map SlurpMessage.id) hsplit.symm)
    · cases hs

/-- In a run whose emissions are quiet, the messages are emitted once and in order, and none that is complete is left
without a timer. -/
theorem slurp_in_order {s : SlurpSocket} (h : Reachable Quiet s) : s.InOrder ∧ s.Progress ∧
    ∀ handlers docLayer docLayer' now s', Quiet s (.timer handlers docLayer docLayer' now) →
      s.inLayerTransaction = false → step s (.timer handlers docLayer docLayer' now) = some s' →
      s'.emitted = s.emitted ++ s.ready.map SlurpMessage.id := by
  have hinv : s.InOrder ∧ Inv s := by
    refine h.invariant (fun s => s.InOrder ∧ Inv s) ?_ ?_
    · rintro s rfl
      exact ⟨rfl, inv_new⟩
    · intro s e s' _ hinv hquiet hs
      exact ⟨inOrder_step hinv.1 hinv.2 hquiet hs, hinv.2.step hs⟩
  refine ⟨hinv.1, hinv.2.progress, ?_⟩
  intro handlers docLayer docLayer' now s' hquiet hclosed hs
  unfold step at hs
  dsimp only at hs
  split at hs
  · cases hs
    have hfalse : ¬ s.inLayerTransaction = true := by rw [hclosed]; decide
    unfold onTimer
    dsimp only
    rw [if_neg hfalse]
    exact (emitSlurpedEvents_quiet
      (s := { s with slurpTimer := none, slurpTimerLaunchTime := none, slurpTimerDelay := none })
      (fun h => by cases h) handlers docLayer docLayer' now (hquiet hclosed)).2.2
  · cases hs

/-- The second message waits for the image of the first. -/
theorem slurp_in_order_two : ∃ s, Reachable Quiet s ∧ s.emitted = [1, 2] ∧ s.InOrder := by
  have hstart : Reachable Quiet ({} : SlurpSocket) := .start rfl
  have hfirst : Quiet {} (.message { evt := ⟨1, false⟩ }) := True.intro
  have h₁ := hstart.next hfirst rfl
  have hsecond : Quiet (({} : SlurpSocket).slurpMessage { evt := ⟨1, false⟩ }) (.message { evt := ⟨2, true⟩ }) :=
    True.intro
  have h₂ := h₁.next hsecond rfl
  have himage : Quiet ((({} : SlurpSocket).slurpMessage { evt := ⟨1, false⟩ }).slurpMessage { evt := ⟨2, true⟩ })
      (.image 1 2) := True.intro
  have h₃ := h₂.next himage rfl
  have htimer : Quiet (((({} : SlurpSocket).slurpMessage { evt := ⟨1, false⟩ }).slurpMessage
      { evt := ⟨2, true⟩ }).onImage 1 2) (.timer [] true true 3) := by
    intro _ slurped hslurped
    rw [List.take_nil] at hslurped
    exact absurd hslurped List.not_mem_nil
  have h₄ := h₃.next htimer rfl
  exact ⟨_, h₄, by decide, (slurp_in_order h₄).1⟩

/-- What a handler slurps is lost. -/
theorem slurp_lost : ¬ ∀ s, Reachable Run.Any s → s.InOrder := by
  intro h
  have hrun : ∃ s, Reachable Run.Any s ∧ decide (¬ s.InOrder) = true := Run.Reachable.exists_of_run {}
    [.message { evt := ⟨1, true⟩ }, .timer [[{ evt := ⟨2, true⟩ }]] true true 2] rfl (by decide)
  obtain ⟨s, hs, hlost⟩ := hrun
  exact of_decide_eq_true hlost (h s hs)

end SlurpSocket

end CollaboraOnline
