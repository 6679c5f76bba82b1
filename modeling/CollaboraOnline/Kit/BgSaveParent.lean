import CollaboraOnline.Kit.ModifiedState

/-!
# The parent handler of a background save

What `BgSaveParentWebSocketHandler` makes of the messages of a save process and of its end, and the frames that wsd is
sent.  Of a message the handler reads the second token and the JSON body; a field that is not there throws, and the
exception is only logged.  The effects on the document are those of `KitDocument`.  The document goes on between the
events of the handler.
-/

namespace CollaboraOnline

/-- A message: its first two tokens, and the fields of the JSON body if it parses. -/
structure BgSaveFrame where
  client : String
  kind : String
  json : Option (List (String × String)) := none
deriving DecidableEq, Repr

namespace BgSaveFrame

def field (frame : BgSaveFrame) (name : String) : Option String := frame.json.bind fun object => object.lookup name

/-- A `.uno:Save` result. -/
def isSaveResult (frame : BgSaveFrame) : Bool :=
  frame.kind == "unocommandresult:" && frame.field "commandName" == some ".uno:Save"

def isSaveSuccess (frame : BgSaveFrame) : Bool := frame.isSaveResult && frame.field "success" == some "true"

def isSaveFailure (frame : BgSaveFrame) : Bool := frame.isSaveResult && frame.field "success" != some "true"

/-- A dialog that ends the save: not one of those that are benign. -/
def isInteractive (frame : BgSaveFrame) : Bool :=
  frame.kind == "jsdialog:" &&
    match frame.json with
    | none => true
    | some object =>
      match object.lookup "jsontype" with
      | none => false
      | some jsontype => !(jsontype == "notebookbar" || jsontype == "sidebar" || jsontype == "formulabar")

end BgSaveFrame

/-- `childMessages` is the history of what came from the save process. -/
structure BgSaveParentWebSocketHandler where
  document : KitDocument
  save : BgSave
  sessionId : String
  ignoreInput : Bool := false
  connected : Bool := true
  sentToChild : List String := []
  childMessages : List BgSaveFrame := []
  sent : List BgSaveFrame := []
deriving DecidableEq

namespace BgSaveParentWebSocketHandler

def sendFrame (h : BgSaveParentWebSocketHandler) (frame : BgSaveFrame) : BgSaveParentWebSocketHandler :=
  { h with sent := h.sent ++ [frame] }

def setSaveCompleted (h : BgSaveParentWebSocketHandler) : BgSaveParentWebSocketHandler :=
  { h with document := h.document.setSaveCompleted h.save, save := { h.save with saveCompleted := true } }

def saveFailed (h : BgSaveParentWebSocketHandler) : BgSaveFrame :=
  ⟨"client-" ++ h.sessionId, "unocommandresult:", some [("commandName", ".uno:Save"), ("success", "false")]⟩

def reportFailedSave (h : BgSaveParentWebSocketHandler) : BgSaveParentWebSocketHandler :=
  let h := { h with document := h.document.disableBgSave }
  let h := h.sendFrame h.saveFailed
  { h with document := h.document.updateModifiedOnFailedBgSave }.setSaveCompleted

/-- The socket is shut down: whatever the process sent that is not handled yet is ignored. -/
def terminateSave (h : BgSaveParentWebSocketHandler) : BgSaveParentWebSocketHandler :=
  { h with sentToChild := h.sentToChild ++ ["exit"], ignoreInput := true }.reportFailedSave

/-- A result that was forwarded. -/
def handleResult (h : BgSaveParentWebSocketHandler) (frame : BgSaveFrame) : BgSaveParentWebSocketHandler :=
  if frame.field "commandName" = some ".uno:Save" then
    match frame.field "success" with
    | none => h
    | some success =>
      let document :=
        if success = "true" then (h.document.saveSucceeded h.save).notifySyntheticUnmodifiedState
        else h.document.updateModifiedOnFailedBgSave.disableBgSave
      { h with document := document }.setSaveCompleted
  else h

/-- The messages that make sense. -/
def acceptedKinds : List String :=
  ["error:", "jsdialog:", "progress:", "traceevent:", "forcedtraceevent:", "unocommandresult:"]

def handleMessage (h : BgSaveParentWebSocketHandler) (frame : BgSaveFrame) : BgSaveParentWebSocketHandler :=
  if frame.kind ∉ acceptedKinds then h
  else if frame.kind = "jsdialog:" then
    if frame.isInteractive then h.terminateSave else h
  else
    let h := h.sendFrame frame
    if frame.kind = "error:" then { h with document := h.document.disableBgSave }
    else if frame.kind = "unocommandresult:" then h.handleResult frame
    else h

/-- The process is reaped: `sig` is the signal that it crashed with. -/
def onDisconnect (h : BgSaveParentWebSocketHandler) (sig : Option Nat) : BgSaveParentWebSocketHandler :=
  let h := if sig.isSome then h.reportFailedSave else h
  let h := if !h.save.saveCompleted then h.reportFailedSave else h
  { h with connected := false, document := { h.document with saves := h.document.saves.erase h.save.childPid } }

/-! ### Steps -/

inductive Event where
  | message (frame : BgSaveFrame)
  | disconnect (sig : Option Nat)
  | elsewhere (document : KitDocument)
deriving DecidableEq

/-- The process reports at most one `.uno:Save` result. -/
def step (h : BgSaveParentWebSocketHandler) : Event → Option BgSaveParentWebSocketHandler
  | .message frame =>
    if h.connected && !h.ignoreInput && !(frame.isSaveResult && h.childMessages.any BgSaveFrame.isSaveResult) then
      some ({ h with childMessages := h.childMessages ++ [frame] }.handleMessage frame)
    else none
  | .disconnect sig => if h.connected then some (h.onDisconnect sig) else none
  | .elsewhere document => if h.connected then some { h with document := document } else none

/-- The handler of a save that was just forked. -/
def IsInitial (h : BgSaveParentWebSocketHandler) : Prop :=
  ∃ document childPid covers sessionId, h = { document, save := ⟨childPid, covers, false⟩, sessionId }

/-- wsd gets one result for the save, by the time the disconnect is handled, and no failure after a success. -/
structure OneResult (h : BgSaveParentWebSocketHandler) : Prop where
  atEnd : h.connected = false → h.sent.countP BgSaveFrame.isSaveResult = 1
  atMostOne : h.sent.countP BgSaveFrame.isSaveResult ≤ 1
  notFailed : h.sent.Pairwise fun f g => f.isSaveSuccess = true → g.isSaveFailure = false

/-- The condition on a step: a `.uno:Save` result says whether the save was a success, and after a result there is
neither an interactive dialog nor a crash. -/
def InTime (h : BgSaveParentWebSocketHandler) : Event → Prop
  | .message frame =>
    (frame.isSaveResult = true → (frame.field "success").isSome = true) ∧
      (frame.isInteractive = true → h.save.saveCompleted = false)
  | .disconnect sig => sig.isSome = true → h.save.saveCompleted = false
  | .elsewhere _ => True

/-- The invariant of the runs that meet the condition: one result was sent when the save counts as completed, and then
no other one comes. -/
structure Tracks (h : BgSaveParentWebSocketHandler) : Prop where
  count : h.sent.countP BgSaveFrame.isSaveResult = h.save.saveCompleted.toNat
  ignored : h.ignoreInput = true → h.save.saveCompleted = true
  ended : h.connected = false → h.save.saveCompleted = true
  received : h.save.saveCompleted = true →
    h.ignoreInput = true ∨ h.connected = false ∨ h.childMessages.any BgSaveFrame.isSaveResult = true

variable {h : BgSaveParentWebSocketHandler} {frame : BgSaveFrame}

/-! ### The document of the handler -/

/-- The message as the document sees it. -/
def toMessage (frame : BgSaveFrame) : BgSaveMessage :=
  if frame.kind = "error:" then .error
  else if frame.kind = "jsdialog:" then
    match frame.json with
    | none => .jsdialog ""
    | some object =>
      match object.lookup "jsontype" with
      | none => .other
      | some jsontype => .jsdialog jsontype
  else if frame.kind = "unocommandresult:" then
    match frame.field "commandName", frame.field "success" with
    | some commandName, some success => .unocommandresult commandName success
    | _, _ => .other
  else .other

theorem document_reportFailedSave : h.reportFailedSave.document = h.document.reportFailedSave h.save := rfl

/-- The handler does with the document what the kit document does with the message. -/
theorem document_handleMessage :
    (h.handleMessage frame).document = h.document.handleMessage h.save (toMessage frame) := by
  unfold handleMessage toMessage
  split
  · rename_i hkind
    simp only [acceptedKinds, List.mem_cons, not_or] at hkind
    rw [if_neg hkind.1, if_neg hkind.2.1, if_neg hkind.2.2.2.2.2.1]
    rfl
  · split
    · rename_i hkind
      have herror : frame.kind ≠ "error:" := by rw [hkind]; decide
      rw [if_neg herror]
      have hkind : (frame.kind == "jsdialog:") = true := by simp [hkind]
      unfold BgSaveFrame.isInteractive
      cases hjson : frame.json with
      | none => simp [hkind, KitDocument.handleMessage, terminateSave, KitDocument.terminateSave,
        document_reportFailedSave]
      | some object =>
        cases htype : object.lookup "jsontype" with
        | none => simp [htype, KitDocument.handleMessage]
        | some jsontype =>
          cases hbenign : (jsontype == "notebookbar" || jsontype == "sidebar" || jsontype == "formulabar") with
          | true => simp [htype, KitDocument.handleMessage, hbenign]
          | false =>
            simp only [htype, hkind, KitDocument.handleMessage, hbenign, Bool.true_and, Bool.not_false, if_true,
              Bool.false_eq_true, if_false]
            rfl
    · split
      · rfl
      · split
        · unfold handleResult
          cases hname : frame.field "commandName" with
          | none => simp [KitDocument.handleMessage, sendFrame]
          | some commandName =>
            cases hsuccess : frame.field "success" with
            | none =>
              simp only [KitDocument.handleMessage]
              split <;> rfl
            | some success =>
              simp only [KitDocument.handleMessage, Option.some.injEq, beq_iff_eq]
              split
              · split <;> rfl
              · rfl
        · rfl

/-! ### What is sent -/

@[simp] theorem sent_reportFailedSave : h.reportFailedSave.sent = h.sent ++ [h.saveFailed] := rfl

@[simp] theorem saveCompleted_reportFailedSave : h.reportFailedSave.save.saveCompleted = true := rfl

/-- A failure is reported once. -/
theorem count_reportFailedSave (hcount : h.sent.countP BgSaveFrame.isSaveResult = 0) :
    h.reportFailedSave.sent.countP BgSaveFrame.isSaveResult = 1 := by
  rw [sent_reportFailedSave, List.countP_append, hcount]
  rfl

theorem Tracks.count_of_running (ht : h.Tracks) (hrunning : h.save.saveCompleted = false) :
    h.sent.countP BgSaveFrame.isSaveResult = 0 := by
  rw [ht.count, hrunning]
  rfl

/-- The invariant says what is asked for: with at most one result there is none after a success. -/
theorem Tracks.oneResult (ht : h.Tracks) : h.OneResult := by
  have hle : h.sent.countP BgSaveFrame.isSaveResult ≤ 1 := by
    rw [ht.count]
    exact Bool.toNat_le _
  refine ⟨fun hend => by rw [ht.count, ht.ended hend]; rfl, hle, ?_⟩
  rw [List.pairwise_iff_forall_sublist]
  intro f g hsub hsuccess
  have hf : f.isSaveResult = true := (Bool.and_eq_true_iff.1 hsuccess).1
  have hcount := hsub.countP_le (p := BgSaveFrame.isSaveResult)
  cases hg : g.isSaveResult with
  | false => simp [BgSaveFrame.isSaveFailure, hg]
  | true =>
    simp only [List.countP_cons, hf, hg, if_true, List.countP_nil] at hcount
    omega

/-! ### Steps keep the invariant -/

theorem Tracks.handleMessage (ht : h.Tracks) (hconnected : h.connected = true) (hinput : h.ignoreInput = false)
    (hone : (frame.isSaveResult && h.childMessages.any BgSaveFrame.isSaveResult) = false)
    (hok : h.InTime (.message frame)) :
    ({ h with childMessages := h.childMessages ++ [frame] }.handleMessage frame).Tracks := by
  set h₁ : BgSaveParentWebSocketHandler := { h with childMessages := h.childMessages ++ [frame] } with hh₁
  have hreceived : h.save.saveCompleted = true → h₁.childMessages.any BgSaveFrame.isSaveResult = true := by
    intro hcompleted
    rcases ht.received hcompleted with hignored | hended | hany
    · exact absurd (hignored.symm.trans hinput) (by decide)
    · exact absurd (hconnected.symm.trans hended) (by decide)
    · simp [hh₁, List.any_append, hany]
  have hkeep : h₁.Tracks := ⟨ht.count, ht.ignored, ht.ended, fun hcompleted => .inr (.inr (hreceived hcompleted))⟩
  unfold BgSaveParentWebSocketHandler.handleMessage
  split
  · exact hkeep
  · split
    · split
      · rename_i hinteractive
        -- the save was not completed, so this is its only result
        have hcount := ht.count_of_running (hok.2 hinteractive)
        exact ⟨count_reportFailedSave (h := { h₁ with
          sentToChild := h₁.sentToChild ++ ["exit"], ignoreInput := true }) hcount, fun _ => rfl, fun _ => rfl,
          fun _ => .inl rfl⟩
      · exact hkeep
    · rename_i hjsdialog
      have hsent : frame.isSaveResult = false → (h₁.sendFrame frame).Tracks := by
        intro hresult
        refine ⟨?_, ht.ignored, ht.ended, hkeep.received⟩
        simpa [sendFrame, List.countP_append, hresult] using hkeep.count
      dsimp only
      split
      · rename_i hkind
        have hresult : frame.isSaveResult = false := by simp [BgSaveFrame.isSaveResult, hkind]
        have hsent := hsent hresult
        exact ⟨hsent.count, hsent.ignored, hsent.ended, hsent.received⟩
      · split
        · rename_i hkind
          unfold handleResult
          split
          · rename_i hname
            have hresult : frame.isSaveResult = true := by simp [BgSaveFrame.isSaveResult, hkind, hname]
            obtain ⟨success, hsuccess⟩ := Option.isSome_iff_exists.1 (hok.1 hresult)
            -- a first result finds the save running
            have hrunning : h.save.saveCompleted = false := by
              rw [hresult, Bool.true_and] at hone
              by_contra hcompleted
              rcases ht.received (by simpa using hcompleted) with hignored | hended | hany
              · exact absurd (hignored.symm.trans hinput) (by decide)
              · exact absurd (hconnected.symm.trans hended) (by decide)
              · exact absurd (hany.symm.trans hone) (by decide)
            have hcount := ht.count_of_running hrunning
            have hcount₁ : (h₁.sent ++ [frame]).countP BgSaveFrame.isSaveResult = 1 := by
              rw [List.countP_append, show h₁.sent = h.sent from rfl, hcount]
              simp [hresult]
            rw [hsuccess]
            refine ⟨hcount₁, fun _ => rfl, fun _ => rfl, fun _ => .inr (.inr ?_)⟩
            simp [setSaveCompleted, sendFrame, hh₁, List.any_append, hresult]
          · rename_i hname
            exact hsent (by simpa [BgSaveFrame.isSaveResult, hkind] using hname)
        · rename_i hkind
          exact hsent (by simp [BgSaveFrame.isSaveResult, hkind])

theorem Tracks.onDisconnect (ht : h.Tracks) {sig : Option Nat} (hok : h.InTime (.disconnect sig)) :
    (h.onDisconnect sig).Tracks := by
  unfold BgSaveParentWebSocketHandler.onDisconnect
  have hfailed (hrunning : h.save.saveCompleted = false) :
      h.reportFailedSave.sent.countP BgSaveFrame.isSaveResult = 1 :=
        count_reportFailedSave (ht.count_of_running hrunning)
  by_cases hsig : sig.isSome = true
  · simp only [hsig, if_true, saveCompleted_reportFailedSave, Bool.not_true, Bool.false_eq_true, if_false]
    exact ⟨hfailed (hok hsig), fun _ => rfl, fun _ => rfl, fun _ => .inr (.inl rfl)⟩
  · rw [if_neg hsig]
    by_cases hcompleted : h.save.saveCompleted = true
    · simp only [hcompleted, Bool.not_true, Bool.false_eq_true, if_false]
      exact ⟨ht.count, fun _ => hcompleted, fun _ => hcompleted, fun _ => .inr (.inl rfl)⟩
    · have hrunning : h.save.saveCompleted = false := by simpa using hcompleted
      simp only [hrunning, Bool.not_false, if_true]
      exact ⟨hfailed hrunning, fun _ => rfl, fun _ => rfl, fun _ => .inr (.inl rfl)⟩

theorem Tracks.step (ht : h.Tracks) {e : Event} (hok : h.InTime e) {h' : BgSaveParentWebSocketHandler}
    (hs : BgSaveParentWebSocketHandler.step h e = some h') : h'.Tracks := by
  cases e with
  | message frame =>
    obtain ⟨hcond, hs⟩ := Option.ite_none_right_eq_some.1 hs
    obtain rfl := Option.some.inj hs
    simp only [Bool.and_eq_true, Bool.not_eq_true'] at hcond
    exact ht.handleMessage hcond.1.1 hcond.1.2 hcond.2 hok
  | disconnect sig =>
    obtain ⟨-, hs⟩ := Option.ite_none_right_eq_some.1 hs
    obtain rfl := Option.some.inj hs
    exact ht.onDisconnect hok
  | elsewhere document =>
    obtain ⟨-, hs⟩ := Option.ite_none_right_eq_some.1 hs
    obtain rfl := Option.some.inj hs
    exact ⟨ht.count, ht.ignored, ht.ended, ht.received⟩

/-- In every run whose results say whether the save was a success, and in which neither an interactive dialog nor a
crash follows a result, wsd gets one result. -/
theorem oneResult_of_inTime (hr : Run.Reachable IsInitial step InTime h) : h.OneResult := by
  have htracks : h.Tracks := by
    refine hr.invariant Tracks ?_ ?_
    · rintro _ ⟨document, childPid, covers, sessionId, rfl⟩
      exact ⟨rfl, fun hf => absurd hf Bool.false_ne_true,
        fun hf => absurd hf.symm Bool.false_ne_true, fun hf => absurd hf Bool.false_ne_true⟩
    · intro h e h' _ ht hok hs
      exact ht.step hok hs
  exact htracks.oneResult

/-! ### Runs -/

/-- The result that a process reports. -/
def saveResult (success : String) : BgSaveFrame :=
  ⟨"client-1", "unocommandresult:", some [("commandName", ".uno:Save"), ("success", success)]⟩

def start : BgSaveParentWebSocketHandler := { document := .initial 1, save := ⟨0, 0, false⟩, sessionId := "1" }

theorem isInitial_start : IsInitial start := ⟨.initial 1, 0, 0, "1", rfl⟩

/-- The process crashes after its success was forwarded, or a dialog comes after it. -/
theorem reports_failure_after_success :
    (∃ h, Run.Reachable IsInitial step Run.Any h ∧ h.sent.map BgSaveFrame.isSaveSuccess = [true, false] ∧
    ¬ h.OneResult) ∧
    ∃ h, Run.Reachable IsInitial step Run.Any h ∧ h.connected = true ∧ ¬ h.OneResult := by
  have hnot {h : BgSaveParentWebSocketHandler} (hcount : h.sent.countP BgSaveFrame.isSaveResult = 2) :
      ¬ h.OneResult :=
    fun hone => absurd (hcount ▸ hone.atMostOne) (by decide)
  constructor
  · obtain ⟨h, hr, hh⟩ : ∃ h, Run.Reachable IsInitial step Run.Any h ∧
        (h.sent.map BgSaveFrame.isSaveSuccess == [true, false] && h.sent.countP BgSaveFrame.isSaveResult == 2) =
          true :=
      Run.Reachable.exists_of_run start [.message (saveResult "true"), .disconnect (some 11)] isInitial_start
        (by decide)
    simp only [Bool.and_eq_true, beq_iff_eq] at hh
    exact ⟨h, hr, hh.1, hnot hh.2⟩
  · obtain ⟨h, hr, hh⟩ : ∃ h, Run.Reachable IsInitial step Run.Any h ∧
        (h.connected == true && h.sent.countP BgSaveFrame.isSaveResult == 2) = true :=
      Run.Reachable.exists_of_run start
        [.message (saveResult "true"), .message ⟨"client-1", "jsdialog:", some [("jsontype", "dialog")]⟩]
        isInitial_start (by decide)
    simp only [Bool.and_eq_true, beq_iff_eq] at hh
    exact ⟨h, hr, hh.1, hnot hh.2⟩

instance (h : BgSaveParentWebSocketHandler) (e : Event) : Decidable (h.InTime e) := by
  cases e <;> unfold InTime <;> infer_instance

/-- A dialog ends the save, and the process exits. -/
theorem oneResult_of_dialog :
    ∃ h, Run.Reachable IsInitial step InTime h ∧ h.connected = false ∧ h.sent = [start.saveFailed] ∧ h.OneResult := by
  obtain ⟨h, hr, hh⟩ : ∃ h, Run.Reachable IsInitial (Run.guarded step fun h e => decide (h.InTime e)) Run.Any h ∧
      (h.connected == false && h.sent == [start.saveFailed]) = true :=
    Run.Reachable.exists_of_run start
      [.message ⟨"client-1", "jsdialog:", some [("jsontype", "notebookbar")]⟩,
        .message ⟨"client-1", "jsdialog:", some [("jsontype", "dialog")]⟩, .disconnect none] isInitial_start
          (by decide)
  simp only [Bool.and_eq_true, beq_iff_eq] at hh
  have hr := hr.of_guarded fun h e => of_decide_eq_true
  exact ⟨h, hr, hh.1, hh.2, oneResult_of_inTime hr⟩

end BgSaveParentWebSocketHandler

end CollaboraOnline
