import Mathlib.Logic.Relation
import CollaboraOnline.Wsd.DocumentBrokerPoll

/-!
# The moves of saving and uploading

`Storing` is the part of a document broker that saving and uploading is about, and `Move` are the moves that it makes:
a save is requested, answered or given up, an upload is attempted, finishes or fails, its result is taken over, a
result is sent for a save request, the broker stops.  Every handler is a sequence of moves, and whatever else it does
leaves `Storing` alone.  A `Guard` names the conditions under which some of the moves are made.
-/

namespace CollaboraOnline

namespace DocumentBroker

/-- A call of `stop` by `autoSaveAndStop` or by `handleUploadToStorageSuccessful`. -/
def StopCall.isJudged (call : StopCall) : Bool := call.caller ≠ .other

end DocumentBroker

open DocumentBroker (SaveCommand SaveRequestResult SaveResponse StopCall Resync ResyncOutcome)

structure Storing where
  now : Nat
  saving : RequestManager
  uploading : RequestManager
  lastUploadedFileModifiedLocalTime : Nat
  sizeAsUploaded : Nat
  sizeOnServer : Nat
  nextStorageAttrs : Attributes
  currentStorageAttrs : Attributes
  lastStorageAttrs : Attributes
  uploadRequest : Option UploadRequest
  saves : List SaveCommand
  size : Nat
  fileToUpload : Option LocalFile
  fileUploading : Option LocalFile
  uploadHttpSession : Option Nat
  sessions : List HttpUpload
  attempts : Nat
  versions : List LocalFile
  acknowledged : List LocalFile
  lastAttempt : Option UploadAttempt
  savedVersions : List (String × Option LocalFile)
  saveRequestIds : List String
  results : List SaveRequestResult
  stops : List StopCall
  resyncs : List Resync

namespace DocumentBroker

def storing (b : DocumentBroker) : Storing where
  now := b.now
  saving := b.saveManager.request
  uploading := b.storageManager.request
  lastUploadedFileModifiedLocalTime := b.storageManager.lastUploadedFileModifiedLocalTime
  sizeAsUploaded := b.storageManager.sizeAsUploaded
  sizeOnServer := b.storageManager.sizeOnServer
  nextStorageAttrs := b.nextStorageAttrs
  currentStorageAttrs := b.currentStorageAttrs
  lastStorageAttrs := b.lastStorageAttrs
  uploadRequest := b.uploadRequest
  saves := b.childProcess.saves
  size := b.storage.size
  fileToUpload := b.storage.fileToUpload
  fileUploading := b.storage.fileUploading
  uploadHttpSession := b.storage.uploadHttpSession
  sessions := b.storage.sessions
  attempts := b.storage.attempts
  versions := b.storage.versions
  acknowledged := b.storage.acknowledged
  lastAttempt := b.storage.lastAttempt
  savedVersions := b.savedVersions
  saveRequestIds := b.saveRequestIds
  results := b.saveRequestResults
  stops := b.stopCalls.filter StopCall.isJudged
  resyncs := b.resyncs

end DocumentBroker

/-! ### What a move does -/

/-- The attributes of an upload. -/
def Attributes.taken (attrs : Attributes) (exitSave force : Bool) : Attributes :=
  { attrs with isExitSave := exitSave, forced := if force then true else attrs.forced }

/-- The attributes that a save is given. -/
def Attributes.ofSave (attrs : Attributes) (userModified isAutosave : Bool) (extendedData requestId : String) :
    Attributes :=
  { attrs with
    isUserModified := userModified
    isAutosave := isAutosave
    extendedData := extendedData
    requestId := requestId }

/-- The attributes of a save that was answered: Core may know whether the document was modified. -/
def Attributes.answered (attrs : Attributes) (response : SaveResponse) : Attributes :=
  match response.wasModified with
  | none => attrs
  | some wasModified => { attrs with isUserModified := wasModified }

namespace Storing

variable (c : Storing)

/-- A save is requested: the kit gets the command, or it could not be sent. -/
def requestSave (next : Attributes) (save : Option SaveCommand) : Storing :=
  { c with
    nextStorageAttrs := next
    saves := c.saves ++ save.toList
    saving := if save.isSome then c.saving.markLastRequestTime c.now else c.saving }

def giveUpSave : Storing := { c with saving := c.saving.setLastRequestResult c.now false }

def writeFile (size : Nat) : Storing :=
  { c with fileToUpload := some ⟨c.now, size⟩, versions := ⟨c.now, size⟩ :: c.versions }

def renameFile : Storing :=
  { c with fileToUpload := none, fileUploading := c.fileToUpload.or c.fileUploading }

/-- The kit's answer to a save command, before it is handled. -/
def dropSave (index : Nat) : Storing := { c with saves := c.saves.eraseIdx index }

def noteSaved (requestId : String) : Storing :=
  { c with savedVersions := (requestId, c.fileToUpload.or c.fileUploading) :: c.savedVersions }

def takeSave (response : SaveResponse) : Storing :=
  { c with
    currentStorageAttrs := c.currentStorageAttrs.merge (c.nextStorageAttrs.answered response)
    nextStorageAttrs := .reset
    saving := c.saving.setLastRequestResult c.now response.saved }.renameFile

/-- Results are sent, or not, when the session is gone. -/
def send (results : List SaveRequestResult) : Storing := { c with results := c.results ++ results }

@[simp] theorem send_nil : c.send [] = c := by simp [send]

def clearCurrentId : Storing := { c with currentStorageAttrs := { c.currentStorageAttrs with requestId := "" } }

def clearLastId : Storing := { c with lastStorageAttrs := { c.lastStorageAttrs with requestId := "" } }

/-- An upload is attempted. -/
def attempt (request : UploadRequest) (file : Option LocalFile) (started exitSave force : Bool) : Storing :=
  { c with
    uploadRequest := some request
    lastStorageAttrs := c.currentStorageAttrs.taken exitSave force
    currentStorageAttrs := .reset
    nextStorageAttrs := .reset
    uploading := c.uploading.markLastRequestTime c.now
    attempts := c.attempts + 1
    lastAttempt := some ⟨file, started⟩ }

def startUpload (request : UploadRequest) (upload : HttpUpload) (exitSave force : Bool) : Storing :=
  { c.attempt request (some upload.file) true exitSave force with
    uploadHttpSession := some c.attempts
    sessions := c.sessions ++ [upload]
    sizeAsUploaded := upload.file.size }

/-- The callback with an error. -/
def failUpload (request : UploadRequest) : Storing :=
  { c with
    uploadRequest := some { request with completed := true }
    uploading := c.uploading.setLastRequestResult c.now false }

def refuseUpload (request : UploadRequest) (file : Option LocalFile) (exitSave force : Bool) : Storing :=
  { (c.attempt request file false exitSave force).failUpload request with sizeAsUploaded := 0 }

def forget : Storing := { c with uploadRequest := c.uploadRequest.filter fun request => !request.completed }

def finish (upload : HttpUpload) (statusCode : Nat) : Storing :=
  { c with
    uploadHttpSession := none
    sessions := c.sessions.erase upload
    acknowledged := if statusCode = 200 ∧ upload.isPutFile then upload.file :: c.acknowledged else c.acknowledged }

def failConnection (upload : HttpUpload) : Storing :=
  { c with
    uploadHttpSession := none
    sessions := c.sessions.map fun s => if s = upload then { s with connectFailed := true } else s }

/-- The result of an upload is taken for that of the current request. -/
def takeResult (request : UploadRequest) (success : Bool) : Storing :=
  { c with
    uploadRequest := some { request with completed := true }
    uploading := c.uploading.setLastRequestResult c.now success }

def markUploaded (request : UploadRequest) : Storing :=
  { c with
    lastUploadedFileModifiedLocalTime := request.newFileModifiedLocalTime
    lastStorageAttrs := .reset }

/-- After a failed upload its attributes are merged back. -/
def mergeLast : Storing :=
  { c with
    currentStorageAttrs := c.currentStorageAttrs.merge c.lastStorageAttrs
    lastStorageAttrs := .reset }

def elapse (nanoseconds : Nat) : Storing := { c with now := c.now + nanoseconds }

def noteStop (call : StopCall) : Storing := { c with stops := c.stops ++ [call] }

def noteResync (resync : Resync) : Storing := { c with resyncs := c.resyncs ++ [resync] }

end Storing

/-! ### Moves -/

namespace DocumentBroker

/-- A session that `getWriteableSession` may choose has a valid authorization. -/
def BrokerState.WriterIsValid (s : BrokerState) : Prop :=
  ∃ session, s.getWriteableSession = some session ∧ session.authorizationExpired = false

/-- The modified flag is set though nothing is to be uploaded, the last save was successful, no modifying activity
came after its request, and two seconds have passed since its response. -/
structure BrokerState.ModifiedIsDelayed (s : BrokerState) : Prop where
  isModified : s.isModified = true
  upToDate : s.needToUploadToStorage = .No
  saved : s.saveManager.lastSaveSuccessful = true
  noActivity : s.haveModifyActivityAfterSaveRequest = false
  late : 2000 ≤ s.saveManager.timeSinceLastSaveResponse s.now

/-- What `autoSaveAndStop` has found out when it stops a document that could still be saved. -/
structure BrokerState.SafeToStop (s : BrokerState) : Prop where
  notSaving : s.saveManager.isSaving = false
  noActivity : s.haveModifyActivityAfterSaveRequest = false
  upToDate : s.isStorageOutdated = false
  notModified : s.isPossiblyModified = false ∨ s.ModifiedIsDelayed

/-- The document could be saved and uploaded: the kit is alive, the document is loaded, a session can write, and the
limit of upload failures is not reached. -/
structure BrokerState.Savable (s : BrokerState) : Prop where
  kitAlive : s.docState.isKitDisconnected = false
  isLoaded : s.isLoaded = true
  writer : s.WriterIsValid
  belowLimit : 0 < s.config.limStoreFailures → s.storageManager.uploadFailureCount < s.config.limStoreFailures

/-- Why a call of `stop` does not abandon work that could be saved. -/
def StopCall.Justified (call : StopCall) : Prop :=
  match call.caller with
  | .autoSaveAndStop => call.state.Savable → call.state.SafeToStop
  | .handleUploadToStorageSuccessful => call.state.isPossiblyModified = false
  | .other => True

end DocumentBroker

namespace Storing

/-- The conditions under which moves are made. -/
structure Guard where
  save : Storing → Prop
  upload : Storing → Bool → Prop
  write : Storing → Prop
  load : Storing → Prop
  response : Storing → SaveCommand → SaveResponse → Prop
  result : Storing → UploadRequest → Bool → Prop
  resync : Storing → Nat → Prop
  /-- A session that joins reports a new time. -/
  join : ResyncOutcome → Prop
  /-- The kit's answer is dropped because the session is gone. -/
  drop : Storing → Prop
  giveUp : Storing → Prop
  /-- The result for a save request may be dropped because the session is gone. -/
  mayDrop : Prop
  upload_notSent : ∀ {c : Storing} {isPutFile : Bool} (userModified isAutosave : Bool), upload c isPutFile →
    upload (c.requestSave (c.nextStorageAttrs.ofSave userModified isAutosave "" "") none) isPutFile
  upload_answered : ∀ {c : Storing} {isPutFile : Bool} (results : List SaveRequestResult), upload c isPutFile →
    upload (c.send results).clearCurrentId isPutFile

/-- The results sent for the request id `id`: one, unless there is no id or it may be dropped. -/
structure Answers (G : Guard) (c : Storing) (id : String) (success : Bool) (results : List SaveRequestResult) :
    Prop where
  length_le : results.length ≤ 1
  of_mem : ∀ r ∈ results, r.requestId = id ∧ id ≠ "" ∧ r.success = success ∧
    r.state.storage.acknowledged = c.acknowledged ∧ r.state.savedVersions = c.savedVersions
  of_nil : results = [] → id = "" ∨ G.mayDrop

/-- An upload and the request that it is made for. -/
structure Started (c : Storing) (request : UploadRequest) (upload : HttpUpload) (exitSave force : Bool) : Prop where
  free : c.uploadHttpSession = none
  requestAttempt : request.attempt = c.attempts
  attempt : upload.attempt = c.attempts
  attribs : upload.attribs = c.currentStorageAttrs.taken exitSave force
  connectFailed : upload.connectFailed = false
  isPutFile : request.isSaveAs = false → request.isRename = false → upload.isPutFile = true
  file : upload.isPutFile = true → c.fileUploading = some upload.file

inductive Move (G : Guard) : Storing → Storing → Prop
  | stop {c : Storing} (call : StopCall) : call.Justified → Move G c (c.noteStop call)
  | requestSave {c : Storing} (userModified isAutosave : Bool) (save : Option SaveCommand) : G.save c →
      (∀ s ∈ save, s.requestId = "") →
      Move G c (c.requestSave (c.nextStorageAttrs.ofSave userModified isAutosave "" "") save)
  | refuseSave {c : Storing} {results : List SaveRequestResult} (id : String) : Answers G c id false results →
      Move G c ({ c with saveRequestIds := id :: c.saveRequestIds }.send results)
  | clientSave {c : Storing} (userModified isAutosave : Bool) (extendedData : String) (save : SaveCommand) :
    G.save c →
      Move G c ({ c with saveRequestIds := save.requestId :: c.saveRequestIds }.requestSave
        (c.nextStorageAttrs.ofSave userModified isAutosave extendedData save.requestId) (some save))
  | clientSaveNotSent {c : Storing} {results : List SaveRequestResult} (userModified isAutosave : Bool)
      (extendedData id : String) : G.save c → Answers G c id false results →
      Move G c (({ c with saveRequestIds := id :: c.saveRequestIds }.requestSave
        (c.nextStorageAttrs.ofSave userModified isAutosave extendedData "") none).send results)
  | giveUpSave {c : Storing} : G.giveUp c → Move G c c.giveUpSave
  | writeFile {c : Storing} (size : Nat) : G.write c → Move G c (c.writeFile size)
  | loadTemplate {c : Storing} (size : Nat) : G.write c → G.load c → Move G c (c.writeFile size).renameFile
  | dropSave {c : Storing} (index : Nat) : G.drop c → Move G c (c.dropSave index)
  | takeSave {c : Storing} (index : Nat) (save : SaveCommand) (response : SaveResponse) :
      c.saves[index]? = some save → G.response c save response →
      Move G c (((c.dropSave index).noteSaved save.requestId).takeSave response)
  | answerCurrent {c : Storing} {success : Bool} {results : List SaveRequestResult} :
      Answers G c c.currentStorageAttrs.requestId success results →
      (success = true → ∀ r ∈ results, r.state.needToUploadToStorage = .No) → Move G c (c.send results).clearCurrentId
  | startUpload {c : Storing} {request : UploadRequest} {upload : HttpUpload} (exitSave force : Bool) :
      G.upload c (!request.isSaveAs && !request.isRename) → Started c request upload exitSave force →
      Move G c (c.startUpload request upload exitSave force)
  | refuseUpload {c : Storing} (request : UploadRequest) (file : Option LocalFile) (exitSave force : Bool) :
      G.upload c (!request.isSaveAs && !request.isRename) → request.attempt = c.attempts →
      Move G c (c.refuseUpload request file exitSave force)
  | forget {c : Storing} : Move G c c.forget
  | finish {c : Storing} {upload : HttpUpload} (statusCode : Nat) : upload ∈ c.sessions →
      (upload.connectFailed = true → statusCode = 0) → Move G c (c.finish upload statusCode)
  | failConnection {c : Storing} {upload : HttpUpload} : upload ∈ c.sessions → Move G c (c.failConnection upload)
  | failUpload {c : Storing} {request : UploadRequest} : c.uploadRequest = some request →
      Move G c (c.failUpload request)
  | uploaded {c : Storing} {request : UploadRequest} {results : List SaveRequestResult} :
      c.uploadRequest = some request → (!request.isSaveAs && !request.isRename) = true → G.result c request true →
      Answers G c c.lastStorageAttrs.requestId true results →
      Move G c ((((c.takeResult request true).send results).clearLastId).markUploaded request)
  | otherUploaded {c : Storing} {request : UploadRequest} {results : List SaveRequestResult} :
      c.uploadRequest = some request → (!request.isSaveAs && !request.isRename) = false → G.result c request true →
      Answers G c c.lastStorageAttrs.requestId true results →
      Move G c (((c.takeResult request true).send results).clearLastId)
  | uploadFailed {c : Storing} {request : UploadRequest} {results : List SaveRequestResult} :
      c.uploadRequest = some request → G.result c request false →
      Answers G c c.lastStorageAttrs.requestId false results →
      Move G c ((((c.takeResult request false).send results).clearLastId).mergeLast)
  | resync {c : Storing} (resync : Resync) : G.resync c resync.size →
      resync.outcome = (if c.sizeAsUploaded = resync.size ∨ c.sizeOnServer ≠ 0 then .adopted else .conflict) →
      resync.state.storage.lastAttempt = c.lastAttempt → Move G c (c.noteResync resync)
  | join {c : Storing} (resync : Resync) : G.join resync.outcome → Move G c (c.noteResync resync)
  | elapse {c : Storing} (nanoseconds : Nat) : Move G c (c.elapse nanoseconds)

abbrev Moves (G : Guard) : Storing → Storing → Prop := Relation.ReflTransGen (Move G)

/-- Nothing is required of a move. -/
def Guard.any : Guard where
  save _ := True
  upload _ _ := True
  write _ := True
  load _ := True
  response _ _ _ := True
  result _ _ _ := True
  resync _ _ := True
  join _ := True
  drop _ := True
  giveUp _ := True
  mayDrop := True
  upload_notSent _ _ _ := True.intro
  upload_answered _ _ := True.intro

end Storing

/-! ### What leaves the storing part alone -/

namespace DocumentBroker

open Storing (Guard Moves Move Answers)

variable {b b' : DocumentBroker} {session : ClientSession} {request : UploadRequest}

theorem storing_foldl {α : Type} {f : DocumentBroker → α → DocumentBroker} (hf : ∀ b x, (f b x).storing = b.storing)
    (l : List α) (b : DocumentBroker) : (l.foldl f b).storing = b.storing := by
  induction l generalizing b with
  | nil => rfl
  | cons x l ih => rw [List.foldl_cons, ih, hf]

@[simp] theorem storing_sendTextFrame (text : String) : (b.sendTextFrame session text).storing = b.storing := by
  unfold sendTextFrame
  split <;> rfl

@[simp] theorem storing_broadcastMessage (text : String) : (b.broadcastMessage text).storing = b.storing := rfl

@[simp] theorem storing_broadcastSaveResult (success : Bool) (result errorMsg : String) :
    (b.broadcastSaveResult success result errorMsg).storing = b.storing := rfl

@[simp] theorem storing_blockUI (msg : String) : (b.blockUI msg).storing = b.storing := rfl

@[simp] theorem storing_endActivity : b.endActivity.storing = b.storing := rfl

@[simp] theorem storing_startActivity (activity : Activity) :
    (b.startActivity activity).1.storing = b.storing := by
  unfold startActivity
  split <;> rfl

/-- An activity starts where there is none. -/
theorem startActivity_of_none (h : b.docState.activity = .None) (activity : Activity) :
    b.startActivity activity = ({ b with docState := b.docState.setActivity activity }, true) :=
  if_neg (not_not.2 h)

@[simp] theorem storing_stop_other (reason : String) : (b.stop .other reason).storing = b.storing := by
  simp [stop, storing, List.filter_append, StopCall.isJudged]

theorem storing_stop {caller : StopCaller} (h : caller ≠ .other) (reason : String) :
    (b.stop caller reason).storing = b.storing.noteStop ⟨caller, reason, b.toBrokerState⟩ := by
  simp [stop, storing, List.filter_append, StopCall.isJudged, h, Storing.noteStop]

@[simp] theorem storing_endRenameFileCommand : b.endRenameFileCommand.storing = b.storing := rfl

@[simp] theorem storing_endSwitchingToOffline : b.endSwitchingToOffline.storing = b.storing := rfl

@[simp] theorem storing_finalRemoveSession : (b.finalRemoveSession session).storing = b.storing := rfl

@[simp] theorem storing_failLoadingSession (remove : Bool) :
    (failLoadingSession remove b session).storing = b.storing := by
  unfold failLoadingSession
  split
  · cases remove <;> simp
  · rfl

@[simp] theorem storing_failLoadingSessions (remove : Bool) : (b.failLoadingSessions remove).storing = b.storing :=
  storing_foldl (fun _ _ => storing_failLoadingSession remove) _ b

theorem storing_disconnectFromKit (b : DocumentBroker) (session : ClientSession) :
    (b.disconnectFromKit session).1.storing = b.storing := by
  unfold disconnectFromKit
  split <;> rfl

@[simp] theorem storing_disconnectSessionInternal : (b.disconnectSessionInternal session).storing = b.storing := by
  unfold disconnectSessionInternal
  set b₁ := if b.docState.unloadRequested then { b with docState := b.docState.markToDestroy } else b with hb₁
  have h₁ : b₁.storing = b.storing := by rw [hb₁]; split <;> rfl
  dsimp only
  split
  · exact h₁
  · have h₂ := storing_disconnectFromKit b₁ session
    generalize b₁.disconnectFromKit session = p at h₂
    obtain ⟨b₂, hard⟩ := p
    dsimp only at h₂ ⊢
    rw [← h₁, ← h₂]
    set b₃ :=
      if b₂.sessions.list.length = b₂.countLoadingSessions + 1 then b₂.failLoadingSessions true else b₂ with hb₃
    have h₃ : b₃.storing = b₂.storing := by rw [hb₃]; split <;> simp
    rw [← h₃]
    have h₄ : ({ b₃ with childProcess := b₃.childProcess.terminate } : DocumentBroker).storing = b₃.storing := rfl
    split_ifs
    · rw [storing_finalRemoveSession, storing_stop_other, h₄]
    · rfl
    · rw [storing_stop_other, h₄]
    · rfl

@[simp] theorem storing_disconnectIfClosed (id : Nat) : (b.disconnectIfClosed id).storing = b.storing := by
  unfold disconnectIfClosed
  split
  · rfl
  · split <;> simp

@[simp] theorem storing_disconnectClosedSessions : b.disconnectClosedSessions.storing = b.storing :=
  storing_foldl (fun _ id => storing_disconnectIfClosed id) _ b

@[simp] theorem storing_sendToSession (session : Option ClientSession) (text : String) :
    (b.sendToSession session text).storing = b.storing := by
  cases session with
  | none => rfl
  | some session => exact storing_sendTextFrame text

@[simp] theorem storing_reportUploadToStorageFailed : (b.reportUploadToStorageFailed request).storing = b.storing :=
  storing_sendToSession _ _

@[simp] theorem storing_endFailedActivity : (b.endFailedActivity request).storing = b.storing := by
  unfold endFailedActivity
  split <;> simp

@[simp] theorem storing_startSwitchingToOnline : b.startSwitchingToOnline.storing = b.storing := by
  unfold startSwitchingToOnline
  split
  · rfl
  · rename_i hact
    rw [startActivity_of_none (not_not.1 hact)]
    rfl

@[simp] theorem storing_switchToOffline : b.switchToOffline.storing = b.storing := by
  unfold switchToOffline
  dsimp only
  split
  · rfl
  · rw [storing_sendTextFrame]
    rfl

@[simp] theorem storing_documentRenamed (result : UploadResult) :
    (b.documentRenamed result).storing = b.storing := rfl

@[simp] theorem storing_documentSavedAs (result : UploadResult) :
    (b.documentSavedAs request result).storing = b.storing := storing_sendToSession _ _

@[simp] theorem storing_handleDocumentConflict : b.handleDocumentConflict.storing = b.storing := by
  unfold handleDocumentConflict
  extract_lets b₁ message b₂
  split
  · exact storing_stop_other _
  · rfl

@[simp] theorem storing_setAllReadOnly (message : String) : (b.setAllReadOnly message).storing = b.storing := rfl

@[simp] theorem storing_handleFailedResult (result : UploadResult) :
    (b.handleFailedResult request result).storing = b.storing := by
  unfold handleFailedResult
  split <;> simp
  exact storing_sendToSession _ _

@[simp] theorem storing_closeDocument (reason : String) : (b.closeDocument reason).storing = b.storing := by
  unfold closeDocument
  dsimp only
  split
  · rw [storing_stop_other]
    rfl
  · rfl

@[simp] theorem storing_disconnectedFromKit (unexpected : Bool) :
    (b.disconnectedFromKit unexpected).storing = b.storing := by
  unfold disconnectedFromKit
  extract_lets b₁
  rw [storing_failLoadingSessions]
  change (if b₁.closeReason = "" then b₁.closeDocument "docdisconnected" else b₁).storing = b₁.storing
  split
  · exact storing_closeDocument _
  · rfl

@[simp] theorem storing_waitForMigration : b.waitForMigration.storing = b.storing := by
  unfold waitForMigration
  split
  · rfl
  · split <;> rfl

@[simp] theorem storing_pollSyncFileTimestamp : b.pollSyncFileTimestamp.storing = b.storing := by
  unfold pollSyncFileTimestamp
  split
  · rfl
  · split
    · rfl
    · split <;> rfl

end DocumentBroker

end CollaboraOnline
