import CollaboraOnline.Wsd.DocumentState

/-!
# Saving and uploading in the document broker

The state of a document broker as far as saving, uploading and unloading depend on it, with the save requests that the
kit has not answered, and the functions that change it, in the order of the source.  `DocumentBroker` adds the history
that the properties speak of: the frames sent to clients, the request ids of the save commands of clients, the results
sent for them, the calls of `stop` and the re-synchronisations of the timestamp, each with the state at that moment,
the copies in the quarantine, and the activities that could not be started.
-/

namespace CollaboraOnline

namespace DocumentBroker

structure Config where
  limStoreFailures : Nat := 5
  idleDocTimeoutSecs : Nat := 3600
  alwaysSaveOnExit : Bool := false
  backgroundAutoSave : Bool := true
  backgroundManualSave : Bool := true
  forceBackgroundEnv : Bool := false
  indirectionServerEnabled : Bool := false
  migrationMsgTimeoutSecs : Nat := 180
  quarantineEnabled : Bool := true
deriving DecidableEq, Repr

/-- A save command that the kit has received and not answered, and the request id that it was sent for. -/
structure SaveCommand where
  session : Nat
  background : Bool
  dontTerminateEdit : Bool
  dontSaveIfUnmodified : Bool
  requestId : String
deriving DecidableEq, Repr

structure ChildProcess where
  alive : Bool := true
  saves : List SaveCommand := []
deriving DecidableEq, Repr

def ChildProcess.terminate (p : ChildProcess) : ChildProcess := { p with alive := false }

def ChildProcess.sendSave (p : ChildProcess) (save : SaveCommand) : ChildProcess :=
    { p with saves := p.saves ++ [save] }

/-- The answer to one of the save commands arrives. -/
def ChildProcess.dropSave (p : ChildProcess) (index : Nat) : ChildProcess :=
    { p with saves := p.saves.eraseIdx index }

structure CheckFileInfo where
  session : Nat
  completed : Bool := false
deriving DecidableEq, Repr

inductive Message where
  | toSession (session : Nat) (text : String)
  | broadcast (text : String)
  | saveResult (success : Bool) (result errorMsg : String)
deriving DecidableEq, Repr

inductive NeedToUpload where
  | No
  | Yes
deriving DecidableEq, Repr

inductive NeedToSave where
  | No
  | Maybe
  | Yes_Modified
  | Yes_LastSaveFailed
deriving DecidableEq, Repr

inductive CanSave where
  | Yes
  | NoKit
  | NotLoaded
  | NoWriteSession
deriving DecidableEq, Repr

/-- `savedVersions` is history: the file to upload after each save response, with the request id of the save. -/
structure BrokerState where
  config : Config
  now : Nat
  shutdownRequestFlag : Bool := false
  terminationFlag : Bool := false
  continuePolling : Bool := true
  docState : DocumentState
  saveManager : SaveManager
  storageManager : StorageManager
  sessions : SessionMap
  childProcess : ChildProcess := {}
  nextStorageAttrs : Attributes := {}
  currentStorageAttrs : Attributes := {}
  lastStorageAttrs : Attributes := {}
  uploadRequest : Option UploadRequest := none
  storage : WopiStorage
  checkFileInfo : Option CheckFileInfo := none
  renameFilename : String := ""
  renameSessionId : Option Nat := none
  closeReason : String := ""
  stopFlag : Bool := false
  isModified : Bool := false
  documentChangedInStorage : Bool := false
  isViewFileExtension : Bool := false
  migrateMsgReceived : Bool := false
  migrationMsgStartTime : Option Nat := none
  lastActivityTime : Nat
  lastModifyActivityTime : Nat := 0
  lastEditingSessionId : Option Nat := none
  savedVersions : List (String × Option LocalFile) := []
deriving DecidableEq

/-! ### Questions about the state -/

namespace BrokerState

variable (s : BrokerState)

def isLoaded : Bool := s.docState.loaded

def isMarkedToDestroy : Bool := s.docState.isMarkedToDestroy || s.stopFlag

def isUnloadingUnrecoverably : Bool :=
  s.isMarkedToDestroy || s.docState.closeRequested || s.stopFlag || s.shutdownRequestFlag

def isUnloading : Bool := s.isUnloadingUnrecoverably || s.docState.unloadRequested

def isAsyncUploading : Bool := s.storage.isAsyncUploading

/-- The idle time in milliseconds. -/
def getIdleTime : Nat := toMilliseconds (s.now - s.lastActivityTime)

def haveModifyActivityAfterSaveRequest : Bool := s.saveManager.lastSaveRequestTime < s.lastModifyActivityTime

def isPossiblyModified : Bool :=
  if s.haveModifyActivityAfterSaveRequest then true
  else if s.isViewFileExtension then !s.saveManager.lastSaveSuccessful
  else s.isModified

def isStorageOutdated : Bool :=
  match s.storage.fileUploading with
  | none => false
  | some file => file.modifiedTime ≠ s.storageManager.lastUploadedFileModifiedLocalTime

def needToUploadToStorage : NeedToUpload :=
  if s.isUnloading && s.config.alwaysSaveOnExit && 0 < s.saveManager.version then .Yes
  else if !s.storageManager.lastUploadSuccessful && !s.documentChangedInStorage then .Yes
  else if s.isStorageOutdated then .Yes
  else .No

def needToSaveToDisk : NeedToSave :=
  if !s.saveManager.lastSaveSuccessful then .Yes_LastSaveFailed
  else if s.isModified && !s.isViewFileExtension then .Yes_Modified
  else if s.haveModifyActivityAfterSaveRequest then .Maybe
  else .No

def getFirstAuthorizedSession : Option ClientSession := s.sessions.list.find? fun c => !c.authorizationExpired

/-- One round of the loop of `getWriteableSession`, over the sessions that are left. -/
def chooseSavingSession (savingSession : Option ClientSession) : List ClientSession → Option ClientSession
  | [] => savingSession
  | c :: rest =>
    let savingSession :=
      if savingSession.isNone || (c.isViewLoaded && c.isEditable && !c.authorizationExpired) then some c
      else savingSession
    if c.isDocumentOwner then some c else chooseSavingSession savingSession rest

def getWriteableSession : Option ClientSession := chooseSavingSession none s.sessions.list

def canSaveToDisk : CanSave :=
  if s.docState.isKitDisconnected then .NoKit
  else if !s.isLoaded then .NotLoaded
  else if s.sessions.list.isEmpty || s.getWriteableSession.isNone then .NoWriteSession
  else .Yes

def haveAnotherEditableSession (id : Nat) : Bool :=
  s.sessions.list.any fun c => c.id ≠ id && c.isViewLoaded && c.isEditable

def countActiveSessions : Nat := s.sessions.list.countP fun c => c.isLive

def countLoadingSessions : Nat := s.sessions.list.countP fun c => !c.isLive && !c.inWaitDisconnected

end BrokerState

/-- A result sent for a save request, and the state when it was sent. -/
structure SaveRequestResult where
  session : Nat
  requestId : String
  success : Bool
  result : String
  errorMsg : String
  state : BrokerState
deriving DecidableEq

inductive StopCaller where
  | autoSaveAndStop
  | handleUploadToStorageSuccessful
  | other
deriving DecidableEq, Repr

/-- A call of `stop`, and the state when it was made. -/
structure StopCall where
  caller : StopCaller
  reason : String
  state : BrokerState
deriving DecidableEq

/-- What followed from a `CheckFileInfo`, after an upload without a response or for a session that joined, for the
size that was reported: the time that was reported is now that of the storage, or the document is in conflict. -/
inductive ResyncOutcome where
  | adopted
  | conflict
deriving DecidableEq, Repr

structure Resync where
  size : Nat
  outcome : ResyncOutcome
  state : BrokerState
deriving DecidableEq

/-- A copy in the quarantine: of a saved version, or of the original document. -/
inductive QuarantinedFile where
  | saved (file : LocalFile)
  | original
deriving DecidableEq, Repr

end DocumentBroker

structure DocumentBroker extends DocumentBroker.BrokerState where
  sent : List DocumentBroker.Message := []
  saveRequestIds : List String := []
  saveRequestResults : List DocumentBroker.SaveRequestResult := []
  stopCalls : List DocumentBroker.StopCall := []
  resyncs : List DocumentBroker.Resync := []
  quarantined : List DocumentBroker.QuarantinedFile := []
  refusedActivities : List Activity := []
deriving DecidableEq

namespace DocumentBroker

/-! ### Frames to the clients -/

def sendTextFrame (b : DocumentBroker) (session : ClientSession) (text : String) : DocumentBroker :=
  if session.isCloseFrame then b else { b with sent := b.sent ++ [.toSession session.id text] }

/-- The number of sessions that got the message is `activeClients`. -/
def broadcastMessage (b : DocumentBroker) (text : String) : DocumentBroker :=
  { b with sent := b.sent ++ [.broadcast text] }

def activeClients (b : DocumentBroker) : Nat := b.sessions.list.countP fun c => !c.isCloseFrame

def broadcastSaveResult (b : DocumentBroker) (success : Bool) (result errorMsg : String) : DocumentBroker :=
  { b with sent := b.sent ++ [.saveResult success result errorMsg] }

def sendSaveRequestResult (b : DocumentBroker) (session : Option ClientSession) (requestId : String) (success : Bool)
    (result errorMsg : String) : DocumentBroker :=
  match session with
  | none => b
  | some session =>
    if requestId = "" ∨ session.isCloseFrame then b
    else
      { b with saveRequestResults :=
          b.saveRequestResults ++ [⟨session.id, requestId, success, result, errorMsg, b.toBrokerState⟩] }

def blockUI (b : DocumentBroker) (msg : String) : DocumentBroker := b.broadcastMessage ("blockui: " ++ msg)

def unblockUI (b : DocumentBroker) : DocumentBroker := b.broadcastMessage "unblockui: "

/-! ### Activities -/

/-- The result is false when an activity exists. -/
def startActivity (b : DocumentBroker) (activity : Activity) : DocumentBroker × Bool :=
  if b.docState.activity ≠ .None then ({ b with refusedActivities := b.refusedActivities ++ [activity] }, false)
  else ({ b with docState := b.docState.setActivity activity }, true)

def endActivity (b : DocumentBroker) : DocumentBroker := { b with docState := b.docState.setActivity .None }

def stop (b : DocumentBroker) (caller : StopCaller) (reason : String) : DocumentBroker :=
  { b with
    closeReason := if b.closeReason = "" ∨ b.closeReason = reason then reason else b.closeReason
    stopFlag := true
    stopCalls := b.stopCalls ++ [⟨caller, reason, b.toBrokerState⟩] }

def endRenameFileCommand (b : DocumentBroker) : DocumentBroker :=
  { b with renameSessionId := none, renameFilename := "" }.unblockUI.endActivity

def endSwitchingToOffline (b : DocumentBroker) : DocumentBroker := b.unblockUI.endActivity

/-- The session of the rename command, as long as it is there. -/
def renameSession (b : DocumentBroker) : Option ClientSession := b.renameSessionId.bind b.sessions.find

/-! ### Sessions -/

def finalRemoveSession (b : DocumentBroker) (session : ClientSession) : DocumentBroker :=
  { b with sessions := b.sessions.erase session.id }

def failLoadingSession (remove : Bool) (b : DocumentBroker) (session : ClientSession) : DocumentBroker :=
  if !session.isLive && !session.inWaitDisconnected && !session.isCloseFrame then
    let b := b.sendTextFrame session "error: cmd=load kind=docunloading"
    if remove then b.finalRemoveSession session else b
  else b

def failLoadingSessions (b : DocumentBroker) (remove : Bool) : DocumentBroker :=
  b.sessions.list.reverse.foldl (failLoadingSession remove) b

/-- The session waits for the kit to acknowledge the disconnection, when it was loaded or loading. -/
def disconnectFromKit (b : DocumentBroker) (session : ClientSession) : DocumentBroker × Bool :=
  if session.state = .LIVE ∨ session.state = .LOADING then
    ({ b with sessions := b.sessions.update session.id (fun c => { c with state := .WAIT_DISCONNECT }) fun _ => rfl },
      false)
  else (b, true)

def disconnectSessionInternal (b : DocumentBroker) (session : ClientSession) : DocumentBroker :=
  let b := if b.docState.unloadRequested then { b with docState := b.docState.markToDestroy } else b
  if session.inWaitDisconnected then b.finalRemoveSession session
  else
    let (b, hardDisconnect) := b.disconnectFromKit session
    let b := if b.sessions.list.length = b.countLoadingSessions + 1 then b.failLoadingSessions true else b
    let b :=
      if !b.isLoaded && b.sessions.list.length ≤ 1 then
        { b with childProcess := b.childProcess.terminate }.stop .other "Disconnected before loading"
      else b
    if hardDisconnect then b.finalRemoveSession session else b

def disconnectIfClosed (b : DocumentBroker) (id : Nat) : DocumentBroker :=
  match b.sessions.find id with
  | none => b
  | some session =>
    if session.isCloseFrame && !session.inWaitDisconnected then b.disconnectSessionInternal session else b

/-- The sessions pending disconnection are disconnected. -/
def disconnectClosedSessions (b : DocumentBroker) : DocumentBroker :=
  (b.sessions.list.map ClientSession.id).foldl disconnectIfClosed b

/-! ### Saving -/

/-- What goes to the quarantine of a file that may exist. -/
def filesToQuarantine (b : DocumentBroker) (file : Option LocalFile) : List QuarantinedFile :=
  if b.config.quarantineEnabled then file.toList.map .saved else []

/-- The result tells whether the message could be sent to the kit. -/
def forwardToChild (b : DocumentBroker) (session : ClientSession) (save : SaveCommand) : DocumentBroker × Bool :=
  if (b.sessions.find session.id).isNone then (b, false)
  else if b.childProcess.alive then
    ({ b with childProcess := b.childProcess.sendSave save }, true)
  else (b, false)

/-- The command, and the attributes that the save is given. -/
def prepareUnoSave (b : DocumentBroker) (session : ClientSession)
    (dontTerminateEdit dontSaveIfUnmodified isAutosave finalWrite : Bool) (extendedData requestId : String) :
    DocumentBroker × SaveCommand :=
  let b := { b with saveManager := b.saveManager.setLastModifiedLocalTime 0 }
  let backgroundConfigured := (isAutosave && b.config.backgroundAutoSave) || b.config.backgroundManualSave
  let canBackground := b.config.forceBackgroundEnv || (!finalWrite && backgroundConfigured)
  let background := canBackground && b.saveManager.lastSaveSuccessful && b.saveManager.saveFailureCount < 2
  let b :=
    { b with nextStorageAttrs :=
        { b.nextStorageAttrs with
          isUserModified := b.isModified || b.haveModifyActivityAfterSaveRequest
          isAutosave := isAutosave
          extendedData := extendedData
          requestId := requestId } }
  (b, ⟨session.id, background, dontTerminateEdit && !background, dontSaveIfUnmodified, requestId⟩)

def sendUnoSave (b : DocumentBroker) (session : ClientSession)
    (dontTerminateEdit dontSaveIfUnmodified isAutosave finalWrite : Bool) (extendedData requestId : String) :
    DocumentBroker × Bool :=
  let (b, save) :=
    b.prepareUnoSave session dontTerminateEdit dontSaveIfUnmodified isAutosave finalWrite extendedData requestId
  match b.forwardToChild session save with
  | (b, true) =>
    let b := { b with saveManager := b.saveManager.markLastSaveRequestTime b.now }
    -- a generic save on its own, if we aren't in the midst of any particular activity
    (if b.docState.activity = .None then (b.startActivity .Save).1 else b, true)
  | (b, false) => (b, false)

def manualSave (b : DocumentBroker) (session : ClientSession) (dontTerminateEdit dontSaveIfUnmodified : Bool)
    (extendedData requestId : String) : DocumentBroker × Bool :=
  if b.docState.activity ≠ .Save then
    match b.sendUnoSave session dontTerminateEdit dontSaveIfUnmodified false false extendedData requestId with
    | (b, true) => (b, true)
    | (b, false) =>
      if requestId = "" then (b, false)
      else
        let b := { b with nextStorageAttrs := { b.nextStorageAttrs with requestId := "" } }
        (b.sendSaveRequestResult (some session) requestId false "savefailed" "Could not start saving the document",
        false)
  else
    (b.sendSaveRequestResult (some session) requestId false "save_in_progress" "The document is already saving",
    false)

/-- The last editing view, if still valid, otherwise the first writable session. -/
def autoSaveSession (b : DocumentBroker) : Option ClientSession :=
  match b.lastEditingSessionId.bind b.sessions.find with
  | some session => if session.isEditable && session.isViewLoaded then some session else b.getWriteableSession
  | none => b.getWriteableSession

/-- Idle long enough, or time for an autosave. -/
def isTimeToSave (b : DocumentBroker) : Bool :=
  let m := b.saveManager
  let timeSinceLastSave := min (m.timeSinceLastSaveRequest b.now) (b.storageManager.timeSinceLastUploadResponse b.now)
  (m.isIdleSaveEnabled && m.idleSaveInterval ≤ b.getIdleTime && m.idleSaveInterval ≤ timeSinceLastSave) ||
    (m.isAutoSaveEnabled && m.autoSaveInterval ≤ timeSinceLastSave)

def autoSave (b : DocumentBroker) (force dontSaveIfUnmodified finalWrite : Bool) : DocumentBroker × Bool :=
  if b.docState.activity = .Save then (b, true)
  else
    let b := { b with saveManager := b.saveManager.autoSaveChecked b.now }
    if b.canSaveToDisk ≠ .Yes then (b, false)
    else if !b.isModified && !force then (b, false)
    else
      match b.autoSaveSession with
      | none => (b, false)
      | some session =>
        if force then b.sendUnoSave session true dontSaveIfUnmodified false finalWrite "" ""
        else if b.isTimeToSave then b.sendUnoSave session true true true finalWrite "" ""
        else (b, false)

def startRenameFileCommand (b : DocumentBroker) : DocumentBroker :=
  match b.startActivity .Rename with
  | (b, false) => b
  | (b, true) =>
    let b := b.blockUI "rename"
    match b.renameSession with
    | none => (b.broadcastSaveResult false "Renaming session not found" "").endRenameFileCommand
    | some session => (b.sendUnoSave session false true false true "" "").1

/-- The answer to the client is empty when the command is taken. -/
def handleRenameFileCommand (b : DocumentBroker) (session : ClientSession) (newFilename : String) : DocumentBroker :=
  if newFilename = "" then b.sendTextFrame session "error: cmd=renamefile kind=invalid"
  else if b.docState.activity = .Rename ∧ b.renameFilename ≠ newFilename then
    b.sendTextFrame session "error: cmd=renamefile kind=conflict"
  else
    let b := { b with renameFilename := newFilename, renameSessionId := some session.id }
    if b.docState.activity = .None then b.startRenameFileCommand else b

def startSwitchingToOffline (b : DocumentBroker) (session : ClientSession) : DocumentBroker :=
  if b.docState.activity ≠ .None then b
  else
    match b.startActivity .SwitchingToOffline with
    | (b, false) => b
    | (b, true) => ((b.blockUI "switchingtooffline").sendUnoSave session false true false true "" "").1

def startSwitchingToOnline (b : DocumentBroker) : DocumentBroker :=
  if b.docState.activity ≠ .None then b
  else
    match b.startActivity .SwitchingToOnline with
    | (b, false) => b
    | (b, true) => b.blockUI "switchingtoonline"

def switchMode (b : DocumentBroker) (session : ClientSession) (mode : String) : DocumentBroker :=
  if mode = "online" then b.startSwitchingToOnline
  else if mode = "offline" then
    if 1 < b.sessions.list.length then b.sendTextFrame session "error: cmd=switch kind=multiviews"
    else b.startSwitchingToOffline session
  else b

/-- The document is done; the user will reconnect. -/
def switchToOffline (b : DocumentBroker) : DocumentBroker :=
  let session := b.sessions.list.head?
  let b := b.endActivity
  let b := { b with docState := b.docState.markToDestroy }
  match session with
  | none => b
  | some session => b.sendTextFrame session "reload"

end DocumentBroker

end CollaboraOnline
