import CollaboraOnline.Wsd.DocumentUpload

/-!
# The life of a document broker

Unloading, the session events, the poll loop, and the events that a document broker meets, one after the other.  Every
event takes some time.  When the loop is left, sockets are flushed, so further events can come, until the child is
terminated and the last version is put into the quarantine if need be.  `Lifetime` is the broker with the phase that
its thread is in.
-/

namespace CollaboraOnline

namespace DocumentBroker

/-! ### Unloading -/

def closeDocument (b : DocumentBroker) (reason : String) : DocumentBroker :=
  let b := { b with docState := b.docState.setCloseRequested, closeReason := reason }
  -- discard the changes in the face of a conflict in storage
  if b.documentChangedInStorage then b.stop .other reason else b

def disconnectedFromKit (b : DocumentBroker) (unexpected : Bool) : DocumentBroker :=
  let b := { b with docState := b.docState.setKitDisconnected (if unexpected then .Unexpected else .Normal) }
  let b := if b.closeReason = "" then b.closeDocument "docdisconnected" else b
  b.failLoadingSessions false

def reachedStoreFailures (b : DocumentBroker) (failures : Nat) : Bool :=
  0 < b.config.limStoreFailures && b.config.limStoreFailures ≤ failures

/-- The first part of `autoSaveAndStop`: whether it can stop because there is nothing to do, or nothing it could
do. -/
def canStopNow (b : DocumentBroker) : Bool :=
  let needToSave := b.needToSaveToDisk
  let canStop : Bool := needToSave = .No ∧ b.needToUploadToStorage = .No
  let canStop :=
    if !canStop && needToSave = .No && !b.isStorageOutdated then
      if b.config.alwaysSaveOnExit && !b.storageManager.lastUploadSuccessful then
        b.reachedStoreFailures b.storageManager.uploadFailureCount
      else true
    else canStop
  if !canStop && needToSave ≠ .No then b.canSaveToDisk ≠ .Yes else canStop

/-- Nothing to upload, the last save was successful and there was no activity since; the modified flag is given two
seconds to clear.  `none` is to wait. -/
def canStopAfterSave (b : DocumentBroker) (canStop : Bool) : Option Bool :=
  if !canStop && b.needToUploadToStorage = .No then
    if !b.haveModifyActivityAfterSaveRequest && b.saveManager.lastSaveSuccessful then
      if b.isModified && b.saveManager.timeSinceLastSaveResponse b.now < 2000 then none else some true
    else if b.needToSaveToDisk = .No then some true
    else some canStop
  else some canStop

/-- The last part of `autoSaveAndStop`: save, or upload, or find that neither is possible. -/
def saveBeforeStop (b : DocumentBroker) (reason : String) : DocumentBroker :=
  match b.autoSave (b.isPossiblyModified || !b.saveManager.lastSaveSuccessful) true true with
  | (b, true) => b
  | (b, false) =>
    match b.getWriteableSession with
    | some session =>
      if !session.authorizationExpired then b.checkAndUploadToStorage session false
      else b.stop .autoSaveAndStop reason
    | none => b.stop .autoSaveAndStop reason

def autoSaveAndStop (b : DocumentBroker) (reason : String) : DocumentBroker :=
  if b.saveManager.isSaving || b.isAsyncUploading then b
  else
    match b.canStopAfterSave b.canStopNow with
    | none => b
    | some true => b.stop .autoSaveAndStop reason
    | some false =>
      -- don't hammer on saving
      if b.saveManager.canSaveNow b.now b.isUnloading then b.saveBeforeStop reason else b

def removeSession (b : DocumentBroker) (session : ClientSession) : DocumentBroker :=
  let activeSessionCount := b.countActiveSessions
  let lastEditableSession := session.isEditable && !b.haveAnotherEditableSession session.id
  let b :=
    if !lastEditableSession then b.disconnectSessionInternal session
    else if b.saveManager.isSaving then b
    else
      match b.autoSave (b.config.alwaysSaveOnExit || b.isPossiblyModified) true true with
      | (b, true) => b
      | (b, false) => b.disconnectSessionInternal session
  if activeSessionCount ≤ 1 then
    if b.saveManager.isSaving || b.isAsyncUploading then
      { b with docState := b.docState.setUnloadRequested }
    else if b.sessions.list.isEmpty then { b with docState := b.docState.markToDestroy }
    else b
  else b

/-! ### The poll loop -/

def pollUnloading (b : DocumentBroker) : DocumentBroker :=
  if b.reachedStoreFailures b.saveManager.saveFailureCount ||
      b.reachedStoreFailures b.storageManager.uploadFailureCount then
    b.stop .other "storefailed"
  else
    b.autoSaveAndStop
      (if b.shutdownRequestFlag then "recycling" else if b.closeReason ≠ "" then b.closeReason else "unloading")

def waitForMigration (b : DocumentBroker) : DocumentBroker :=
  match b.migrationMsgStartTime with
  | none => { b with migrationMsgStartTime := some b.now }
  | some start =>
    if b.config.migrationMsgTimeoutSecs * 1000000000 < b.now - start then { b with migrateMsgReceived := true } else b

def pollNoSessions (b : DocumentBroker) : DocumentBroker :=
  if !b.isLoaded then (b.stop .other "dead").autoSaveAndStop "dead"
  else if b.saveManager.isSaving || b.isAsyncUploading then b
  else b.autoSaveAndStop "dead"

/-- Retry uploading, if the last one failed and we can try again. -/
def retryUpload (b : DocumentBroker) : DocumentBroker :=
  if !b.isAsyncUploading && !b.storageManager.lastUploadSuccessful && b.needToUploadToStorage ≠ .No then
    match b.getWriteableSession with
    | some session => if !session.authorizationExpired then b.checkAndUploadToStorage session false else b
    | none => b
  else b

def forgetFinishedRequests (b : DocumentBroker) : DocumentBroker :=
  { b with
    checkFileInfo := none
    uploadRequest := b.uploadRequest.filter fun request => !request.completed }

/-- One round while there is no activity. -/
def pollNone (b : DocumentBroker) : DocumentBroker :=
  let b := b.forgetFinishedRequests
  if b.renameFilename ≠ "" ∧ b.renameSessionId.isSome then b.startRenameFileCommand
  else if b.isLoaded && b.config.idleDocTimeoutSecs * 1000 ≤ b.getIdleTime then b.autoSaveAndStop "idle"
  else if b.sessions.list.isEmpty && (b.isLoaded || b.docState.isMarkedToDestroy) then b.pollNoSessions
  else if b.config.indirectionServerEnabled && b.shutdownRequestFlag && !b.migrateMsgReceived then b.waitForMigration
  else if b.docState.unloadRequested || b.shutdownRequestFlag || b.docState.closeRequested then b.pollUnloading
  else if !b.stopFlag && b.saveManager.needAutoSaveCheck b.now then (b.autoSave false true false).1
  else b.retryUpload

/-- One round while saving: the save is given up when the kit is gone or the save timed out. -/
def pollSave (b : DocumentBroker) : DocumentBroker :=
  if b.docState.isKitDisconnected || b.saveManager.hasSavingTimedOut b.now then
    { b with saveManager := b.saveManager.setLastSaveResult b.now false false }.endActivity
  else b

/-- One round after an upload without a response: `CheckFileInfo` is to tell the modified time. -/
def pollSyncFileTimestamp (b : DocumentBroker) : DocumentBroker :=
  match b.checkFileInfo with
  | some _ => b
  | none =>
    match b.getFirstAuthorizedSession with
    | none => { b with storage := b.storage.setLastModifiedTimeUnSafe }.endActivity
    | some session =>
      if b.storage.hostIsInvalid then b else { b with checkFileInfo := some ⟨session.id, false⟩ }

def poll (b : DocumentBroker) : DocumentBroker :=
  match b.docState.activity with
  | .None => b.pollNone
  | .Save | .SaveAs => b.pollSave
  | .SyncFileTimestamp => b.pollSyncFileTimestamp
  | _ => { b with saveManager := b.saveManager.postponeAutosave b.now 30 }

/-- What `CheckFileInfo` found. -/
inductive CheckFileInfoResult where
  | Pass (lastModifiedTime : Option String) (size : Option Nat)
  | Unauthorized
  | Timedout
  | Fail
deriving DecidableEq, Repr

/-- The continuation of `checkFileInfo`. -/
def checkFileInfoContinuation (b : DocumentBroker) (session : Nat) (result : CheckFileInfoResult) : DocumentBroker :=
  let b := { b with checkFileInfo := some ⟨session, true⟩ }.endActivity
  match result with
  | .Pass lastModifiedTime size =>
    let lastModifiedTime := lastModifiedTime.getD ""
    let size := size.getD 0
    if b.storageManager.sizeAsUploaded = size ∨ b.storageManager.sizeOnServer ≠ 0 then
      { b with
        storage := b.storage.setLastModifiedTime lastModifiedTime
        storageManager := b.storageManager.setLastModifiedServerTimeString lastModifiedTime
        resyncs := b.resyncs ++ [⟨size, .adopted, b.toBrokerState⟩] }
    else
      let b : DocumentBroker := { b with resyncs := b.resyncs ++ [⟨size, .conflict, b.toBrokerState⟩] }
      b.handleDocumentConflict
  | .Unauthorized =>
    { b with
      storage := b.storage.setLastModifiedTimeUnSafe
      sessions := b.sessions.update session (fun c => c.invalidateAuthorizationToken)
        ClientSession.id_invalidateAuthorizationToken }
  | .Timedout | .Fail => { b with storage := b.storage.setLastModifiedTimeUnSafe }

/-! ### Leaving the loop -/

/-- The test for data loss when the loop is left. -/
def dataLossDetected (b : DocumentBroker) : Bool :=
  (b.haveModifyActivityAfterSaveRequest || !b.saveManager.lastSaveSuccessful ||
    !b.storageManager.lastUploadSuccessful || b.isStorageOutdated) &&
  !(b.docState.closeRequested && b.documentChangedInStorage)

def shutdownClient (b : DocumentBroker) (id : Nat) : DocumentBroker :=
  match b.sessions.find id with
  | none => b
  | some session => if session.inWaitDisconnected then b.finalRemoveSession session else b.removeSession session

def terminateChild (b : DocumentBroker) : DocumentBroker :=
  let reason := b.closeReason
  let b := (b.sessions.list.map ClientSession.id).foldl shutdownClient b
  { b with childProcess := b.childProcess.terminate }.stop .other reason

/-- Quarantine the last copy: of the `.uploading` file, else of the `.upload` file, else the original. -/
def quarantineLastVersion (b : DocumentBroker) : DocumentBroker :=
  if b.config.quarantineEnabled then
    { b with quarantined := b.quarantined ++
        [match b.storage.fileUploading.or b.storage.fileToUpload with
          | some file => .saved file
          | none => .original] }
  else b

/-! ### Events -/

inductive Event where
  | elapse (nanoseconds : Nat)
  | addSession (session : ClientSession) (fileInfo : Option FileInfo)
  | loaded (session : Nat) (isFirst : Bool) (templateSize : Option Nat)
  | setCloseFrame (session : Nat)
  | setAuthorizationExpired (session : Nat) (expired : Bool)
  | setReadOnly (session : Nat)
  | onDisconnect (session : Nat)
  | disconnected (session : Nat)
  | userActivity
  | modifyingActivity (session : Nat)
  | setModified (value : Bool)
  | save (session : Nat) (dontTerminateEdit dontSaveIfUnmodified : Bool) (extendedData requestId : String)
  | savetostorage (session : Nat) (force : Bool)
  | saveas (session : Nat) (path filename : String) (isExport : Bool) (size : Nat)
  | renamefile (session : Nat) (newFilename : String)
  | switchMode (session : Nat) (mode : String)
  | adminAutoSave
  | kitSaved (size : Nat)
  | saveResponse (index : Nat) (response : SaveResponse)
  | uploadFinished (attempt : Nat) (response : WopiResponse)
  | uploadConnectFailed (attempt : Nat)
  | checkFileInfoFinished (result : CheckFileInfoResult)
  | setHostIsInvalid (value : Bool)
  | closeDocument (reason : String)
  | childProcessClosed
  | disconnectedFromKit (unexpected : Bool)
  | setShutdownRequestFlag
  | setTerminationFlag
  | stopPolling
  | stop (reason : String)
  | poll
  | leaveLoop
  | finish
deriving DecidableEq, Repr

def withSession (b : DocumentBroker) (id : Nat) (f : ClientSession → DocumentBroker) : Option DocumentBroker :=
  (b.sessions.find id).map f

def updateSession (b : DocumentBroker) (id : Nat) (f : ClientSession → ClientSession) (hf : ∀ c, (f c).id = c.id) :
    DocumentBroker :=
  { b with sessions := b.sessions.update id f hf }

/-- The document has been modified by some external action; while *we* are uploading it might be us. -/
def isModifiedBehindOurBack (b : DocumentBroker) (fileInfo : FileInfo) : Bool :=
  b.storageManager.lastModifiedServerTimeString ≠ "" && fileInfo.modifiedTime ≠ "" &&
    b.storageManager.lastModifiedServerTimeString ≠ fileInfo.modifiedTime && b.uploadRequest.isNone

def joinOutcome (b : DocumentBroker) (fileInfo : FileInfo) : ResyncOutcome :=
  if fileInfo.isValid && b.isModifiedBehindOurBack fileInfo then .conflict else .adopted

/-- A time of the storage is noted when it is not the one that is known. -/
def noteFileInfo (b : DocumentBroker) (fileInfo : FileInfo) : DocumentBroker :=
  if fileInfo.modifiedTime = "" ∨ fileInfo.modifiedTime = b.storageManager.lastModifiedServerTimeString then b
  else { b with resyncs := b.resyncs ++ [⟨fileInfo.size, b.joinOutcome fileInfo, b.toBrokerState⟩] }

/-- What `download` does for a session that joins after the document was downloaded, and whether it succeeds.  There
is no `fileInfo` when `CheckFileInfo` failed. -/
def download (b : DocumentBroker) (fileInfo : Option FileInfo) : DocumentBroker × Bool :=
  match fileInfo with
  | none => (b, false)
  | some fileInfo =>
    let b := b.noteFileInfo fileInfo
    let b := { b with storage := b.storage.setFileInfo fileInfo }
    if !fileInfo.isValid then (b, false)
    else if b.isModifiedBehindOurBack fileInfo then (b.handleDocumentConflict, true)
    else (b, true)

/-- A session joins, with the permissions that its `CheckFileInfo` gave it; an unload that was requested is given up.
For the first session the `CheckFileInfo` is that of the download. -/
def addSession (b : DocumentBroker) (session : ClientSession) (fileInfo : Option FileInfo) : Option DocumentBroker :=
  if b.isMarkedToDestroy ∨ b.docState.closeRequested ∨ session.state ≠ .LOADING then none
  else
    match { b with docState := b.docState.resetUnloadRequested }.download fileInfo with
    | (b, true) =>
      if h : ∀ c ∈ b.sessions.list, c.id < session.id then some { b with sessions := b.sessions.add session h }
      else none
    | (b, false) =>
      some (if b.sessions.list.isEmpty then { b with docState := b.docState.markToDestroy } else b)

/-- The saving timeout of a document that loads at once. -/
def setLoaded (b : DocumentBroker) : DocumentBroker :=
  if b.isLoaded then b
  else
    { b with
      docState := b.docState.setLive
      saveManager := { b.saveManager with savingTimeout := max ((toMilliseconds b.now * 4 + 500) / 1000) 5 } }

/-- A view is loaded.  The kit has saved a template right after loading it. -/
def sessionLoaded (b : DocumentBroker) (session : ClientSession) (isFirst : Bool) (templateSize : Option Nat) :
    DocumentBroker :=
  if session.state = .LOADING then
    let b := b.updateSession session.id (fun c => { c with state := .LIVE }) fun _ => rfl
    if isFirst then
      let b := b.setLoaded
      match templateSize with
      | none => b
      | some size =>
        { b with storage := b.storage.writeFileToUpload ⟨b.now, size⟩ }.uploadAfterLoadingTemplate
          { session with state := .LIVE }
    else b
  else b

def modifyingActivity (b : DocumentBroker) (session : ClientSession) : DocumentBroker :=
  let b := { b with lastActivityTime := b.now, lastEditingSessionId := some session.id }
  if session.isEditable then { b with lastModifyActivityTime := b.now } else b

/-- The save command of a client. -/
def clientSave (b : DocumentBroker) (session : ClientSession) (dontTerminateEdit dontSaveIfUnmodified : Bool)
    (extendedData requestId : String) : DocumentBroker :=
  let b := { b with saveRequestIds := requestId :: b.saveRequestIds }
  if !session.isWritable then
    (b.sendTextFrame session "error: cmd=save kind=savefailed").sendSaveRequestResult (some session) requestId false
      "savefailed" "No write permission"
  else (b.manualSave session dontTerminateEdit dontSaveIfUnmodified extendedData requestId).1

/-- The kit has written the file and tells the session. -/
def savedAs (b : DocumentBroker) (session : ClientSession) (path filename : String) (isExport : Bool) (size : Nat) :
    DocumentBroker :=
  let storage := { b.storage with saveAsFiles := (path, ⟨b.now, size⟩) :: b.storage.saveAsFiles }
  { b with storage := storage }.uploadAsToStorage session path filename false isExport

/-- The kit answers one of the save commands; the session may be gone. -/
def saveResponse (b : DocumentBroker) (index : Nat) (response : SaveResponse) : Option DocumentBroker :=
  match b.childProcess.saves[index]? with
  | none => none
  | some save =>
    let b := { b with childProcess := b.childProcess.dropSave index }
    match b.sessions.find save.session with
    | none => some b
    | some session =>
      let file := b.storage.renameFileToUpload.fileUploading
      let b := { b with savedVersions := (save.requestId, file) :: b.savedVersions }
      some (b.handleSaveResponse session response)

def findUpload (b : DocumentBroker) (attempt : Nat) : Option HttpUpload :=
  b.storage.sessions.find? fun upload => upload.attempt = attempt

/-- An `http::Session` whose connection failed can finish only without a response. -/
def uploadFinished (b : DocumentBroker) (attempt : Nat) (response : WopiResponse) : Option DocumentBroker :=
  match b.findUpload attempt with
  | none => none
  | some upload =>
    if upload.connectFailed && response.statusCode ≠ 0 then none
    else
      let (storage, asyncUp) := b.storage.finished upload response
      some ({ b with storage := storage }.asyncUploadCallback asyncUp)

def uploadConnectFailed (b : DocumentBroker) (attempt : Nat) : Option DocumentBroker :=
  match b.findUpload attempt with
  | none => none
  | some upload =>
    let (storage, asyncUp) := b.storage.connectFailed upload
    some ({ b with storage := storage }.asyncUploadCallback asyncUp)

def checkFileInfoFinished (b : DocumentBroker) (result : CheckFileInfoResult) : Option DocumentBroker :=
  match b.checkFileInfo with
  | none => none
  | some checkFileInfo =>
    if checkFileInfo.completed then none else some (b.checkFileInfoContinuation checkFileInfo.session result)

/-- The events of the sockets and of the rest of the process. -/
def handle (b : DocumentBroker) : Event → Option DocumentBroker
  | .elapse nanoseconds => some { b with now := b.now + nanoseconds }
  | .addSession session fileInfo => b.addSession session fileInfo
  | .loaded sid isFirst templateSize => b.withSession sid fun c => b.sessionLoaded c isFirst templateSize
  | .setCloseFrame sid => some (b.updateSession sid (fun c => { c with isCloseFrame := true }) fun _ => rfl)
  | .setAuthorizationExpired sid expired =>
    some (b.updateSession sid (fun c => { c with authorizationExpired := expired }) fun _ => rfl)
  | .setReadOnly sid => some (b.updateSession sid (fun c => { c with isReadOnly := true }) fun _ => rfl)
  | .onDisconnect sid => b.withSession sid b.removeSession
  | .disconnected sid => b.withSession sid b.finalRemoveSession
  | .userActivity => some { b with lastActivityTime := b.now }
  | .modifyingActivity sid => b.withSession sid b.modifyingActivity
  | .setModified value => some { b with isModified := value }
  | .save sid dontTerminateEdit dontSaveIfUnmodified extendedData requestId =>
    b.withSession sid fun c => b.clientSave c dontTerminateEdit dontSaveIfUnmodified extendedData requestId
  | .savetostorage sid force => b.withSession sid fun c => b.uploadToStorage c force
  | .saveas sid path filename isExport size => b.withSession sid fun c => b.savedAs c path filename isExport size
  | .renamefile sid newFilename => b.withSession sid fun c => b.handleRenameFileCommand c newFilename
  | .switchMode sid mode => b.withSession sid fun c => b.switchMode c mode
  | .adminAutoSave => some (b.autoSave true true false).1
  | .kitSaved size =>
    if b.childProcess.alive ∧ b.childProcess.saves ≠ [] then
      some { b with storage := b.storage.writeFileToUpload ⟨b.now, size⟩ }
    else none
  | .saveResponse index response => if b.childProcess.alive then b.saveResponse index response else none
  | .uploadFinished attempt response => b.uploadFinished attempt response
  | .uploadConnectFailed attempt => b.uploadConnectFailed attempt
  | .checkFileInfoFinished result => b.checkFileInfoFinished result
  | .setHostIsInvalid value => some { b with storage := { b.storage with hostIsInvalid := value } }
  | .closeDocument reason => some (b.closeDocument reason)
  | .childProcessClosed => some { b with childProcess := b.childProcess.terminate }
  | .disconnectedFromKit unexpected => some (b.disconnectedFromKit unexpected)
  | .setShutdownRequestFlag => some { b with shutdownRequestFlag := true }
  | .setTerminationFlag => some { b with terminationFlag := true }
  | .stopPolling => some { b with continuePolling := false }
  | .stop reason => some (b.stop .other reason)
  | .poll => some b.poll
  | .leaveLoop => some (b.failLoadingSessions false)
  | .finish => some b.terminateChild

end DocumentBroker

/-- Where the thread of the broker is: in the loop, or past it with the result of the test for data loss and the state
in which the loop was left, or done. -/
inductive Phase where
  | polling
  | flushing (dataLoss : Bool) (left : DocumentBroker.BrokerState)
  | finished (dataLoss : Bool) (left : DocumentBroker.BrokerState)
deriving DecidableEq

/-- The settings and the file that a document is loaded with. -/
structure Download where
  config : DocumentBroker.Config := {}
  now : Nat := 1000000000
  minTimeBetweenSaves : Nat := 500
  minTimeBetweenUploads : Nat := 5000
  idleSaveInterval : Nat := 30000
  autoSaveInterval : Nat := 300000
  isTemplate : Bool := false
  isViewFileExtension : Bool := false
  file : LocalFile
  lastModifiedTime : String
  downloaded : file.modifiedTime < now

structure Lifetime where
  broker : DocumentBroker
  phase : Phase := .polling
deriving DecidableEq

namespace Lifetime

open DocumentBroker (Event)

/-- A broker that has downloaded the document and has no session yet. -/
def initial (d : Download) : Lifetime where
  broker :=
    let modifiedTime := if d.isTemplate then 0 else d.file.modifiedTime
    { config := d.config
      now := d.now
      docState := { status := .Loading }
      saveManager :=
        ⟨⟨d.minTimeBetweenSaves, 0, 0, 0, 0⟩, modifiedTime, d.idleSaveInterval, d.autoSaveInterval, 0, 0, 0⟩
      storageManager := ⟨⟨d.minTimeBetweenUploads, 0, 0, 0, 0⟩, modifiedTime, d.lastModifiedTime, 0, 0⟩
      sessions := .empty
      storage := { size := d.file.size, modifiedTime := d.lastModifiedTime }
      isViewFileExtension := d.isViewFileExtension
      lastActivityTime := 0 }

def Initial (s : Lifetime) : Prop := ∃ d, s = initial d

/-- Every event finds a later time. -/
def clocked (b : DocumentBroker) : DocumentBroker := { b with now := b.now + 1 }

/-- The thread leaves the loop when it is told to, tests for data loss, and at last quarantines what may be lost. -/
def step (s : Lifetime) (e : Event) : Option Lifetime :=
  let b := clocked s.broker
  match e, s.phase with
  | _, .finished _ _ => none
  | .poll, .polling => if b.stopFlag then none else (b.handle .poll).map fun b => { s with broker := b }
  | .poll, .flushing _ _ => none
  | .leaveLoop, .polling =>
    if b.stopFlag || b.terminationFlag || !b.continuePolling then
      (b.handle .leaveLoop).map fun b' => ⟨b', .flushing b.dataLossDetected b.toBrokerState⟩
    else none
  | .leaveLoop, .flushing _ _ => none
  | .finish, .polling => none
  | .finish, .flushing dataLoss left =>
    (b.handle .finish).map fun b =>
      ⟨if dataLoss || b.docState.kitDisconnected = .Unexpected then b.quarantineLastVersion else b,
        .finished dataLoss left⟩
  | e, _ => (b.handle e).map fun b => { s with broker := b }

end Lifetime

end CollaboraOnline
