import CollaboraOnline.Wsd.DocumentBroker

/-!
# Uploading, and the responses of the kit and of the storage

The storage calls `asyncUploadCallback` at once with `Error` or `Running`, and later, from the handlers of the
`http::Session`, with `Complete` or `Error`.  The first case is `asyncUploadFailed`; this cuts the recursion through
the upload that follows a successful one while the document is being renamed.
-/

namespace CollaboraOnline

namespace DocumentBroker

/-! ### Uploading -/

/-- The session that asked for the upload, as long as it is there. -/
def uploadSession (b : DocumentBroker) (request : UploadRequest) : Option ClientSession :=
    b.sessions.find request.session

def sendToSession (b : DocumentBroker) (session : Option ClientSession) (text : String) : DocumentBroker :=
  match session with
  | none => b
  | some session => b.sendTextFrame session text

def reportUploadToStorageFailed (b : DocumentBroker) (request : UploadRequest) : DocumentBroker :=
  b.sendToSession (b.uploadSession request)
    ("error: cmd=storage kind=" ++ if request.isRename then "renamefailed" else "savefailed")

/-- What follows a failed upload, by activity. -/
def endFailedActivity (b : DocumentBroker) (request : UploadRequest) : DocumentBroker :=
  match b.docState.activity with
  | .Rename =>
    let session := b.renameSession
    b.endRenameFileCommand.sendToSession session "error: cmd=renamefile kind=failed"
  | .SwitchingToOffline => b.endSwitchingToOffline
  | _ => b.reportUploadToStorageFailed request

/-- The callback of an upload in the state `Error`. -/
def asyncUploadFailed (b : DocumentBroker) (result : UploadResult) : DocumentBroker :=
  match b.uploadRequest with
  | none => b
  | some request =>
    let b := { b with uploadRequest := some { request with completed := true } }
    let b := b.broadcastSaveResult false "Could not upload document to storage" result.reason
    let b := { b with storageManager := b.storageManager.setLastUploadResult b.now false }
    b.endFailedActivity request

/-- The request and the attributes of the upload that is about to start. -/
def prepareUpload (b : DocumentBroker) (session : ClientSession) (isSaveAs isRename isExport force : Bool) :
    DocumentBroker :=
  let newFileModifiedTime := (b.storage.fileUploading.map LocalFile.modifiedTime).getD 0
  { b with
    uploadRequest := some ⟨b.storage.attempts, newFileModifiedTime, session.id, isSaveAs, isExport, isRename, false⟩
    lastStorageAttrs :=
      { b.currentStorageAttrs with
        isExitSave := b.isUnloading
        forced := if force then true else b.currentStorageAttrs.forced }
    currentStorageAttrs := .reset
    nextStorageAttrs := .reset
    storageManager := b.storageManager.markLastUploadRequestTime b.now }

def uploadToStorageInternal (b : DocumentBroker) (session : ClientSession) (saveAsPath saveAsFilename : String)
    (isRename isExport force : Bool) : DocumentBroker :=
  if !session.isEditable then b
  else
    let b := b.prepareUpload session (saveAsPath != "") isRename isExport force
    match b.storage.uploadLocalFileToStorageAsync saveAsPath saveAsFilename isRename b.lastStorageAttrs with
    | (storage, .error reason) =>
      let b := { b with storage := storage }.asyncUploadFailed ⟨.FAILED, reason, "", ""⟩
      { b with storageManager := b.storageManager.setSizeAsUploaded 0 }
    | (storage, .ok size) =>
      { b with storage := storage, storageManager := b.storageManager.setSizeAsUploaded size }

/-- Upload immediately if forced or had no failures, otherwise throttle. -/
def uploadToStorage (b : DocumentBroker) (session : ClientSession) (force : Bool) : DocumentBroker :=
  if force || b.storageManager.lastUploadSuccessful || b.storageManager.canUploadNow b.now b.isUnloading then
    b.uploadToStorageInternal session "" "" false false force
  else b

def uploadAsToStorage (b : DocumentBroker) (session : ClientSession) (uploadAsPath uploadAsFilename : String)
    (isRename isExport : Bool) : DocumentBroker :=
  b.uploadToStorageInternal session uploadAsPath uploadAsFilename isRename isExport false

def uploadAfterLoadingTemplate (b : DocumentBroker) (session : ClientSession) : DocumentBroker :=
  { b with storage := b.storage.renameFileToUpload }.uploadToStorage session false

/-- The rename of the document in the storage, when its session is there. -/
def renameInStorage (b : DocumentBroker) : DocumentBroker :=
  match b.renameSession with
  | none => (b.broadcastSaveResult false "Renaming session not found" "").endRenameFileCommand
  | some session => b.uploadToStorageInternal session "" b.renameFilename true false false

/-! ### The result of an upload -/

/-- After an upload of the document itself. -/
def documentUploaded (b : DocumentBroker) (request : UploadRequest) : DocumentBroker :=
  let b :=
    { b with
      saveManager := b.saveManager.setLastModifiedLocalTime request.newFileModifiedLocalTime
      storageManager :=
        (b.storageManager.setLastModifiedServerTimeString b.storage.modifiedTime).setLastUploadedFileModifiedLocalTime
          request.newFileModifiedLocalTime
      documentChangedInStorage := false
      lastStorageAttrs := .reset }
  match b.docState.activity with
  | .Rename => b.renameInStorage
  | .SwitchingToOffline => b.switchToOffline
  | _ => b

def documentRenamed (b : DocumentBroker) (result : UploadResult) : DocumentBroker :=
  let b := b.endRenameFileCommand
  let b := b.broadcastMessage s!"renamefile: filename={result.saveAsName} url={result.saveAsUrl}"
  b.broadcastMessage "close: reloadafterrename"

def documentSavedAs (b : DocumentBroker) (request : UploadRequest) (result : UploadResult) : DocumentBroker :=
  b.sendToSession (b.uploadSession request)
    ((if request.isExport then "exportas:" else "saveas:") ++
      s!" url={result.saveAsUrl} filename={result.saveAsName}")

def handleUploadToStorageSuccessful (b : DocumentBroker) (request : UploadRequest) (result : UploadResult) :
    DocumentBroker :=
  let b := b.sendSaveRequestResult (b.uploadSession request) b.lastStorageAttrs.requestId true "saved" ""
  let b := { b with lastStorageAttrs := { b.lastStorageAttrs with requestId := "" } }
  let b :=
    if !request.isSaveAs && !request.isRename then b.documentUploaded request
    else if request.isRename then b.documentRenamed result
    else b.documentSavedAs request result
  let b := if b.docState.unloadRequested then { b with docState := b.docState.markToDestroy } else b
  let b :=
    if (b.docState.isMarkedToDestroy || b.sessions.list.isEmpty) && !b.isPossiblyModified then
      b.stop .handleUploadToStorageSuccessful "unloading"
    else b
  b.disconnectClosedSessions

def handleDocumentConflict (b : DocumentBroker) : DocumentBroker :=
  let b := { b with documentChangedInStorage := true }
  let message :=
    if b.lastStorageAttrs.isUserModified || b.currentStorageAttrs.isUserModified || b.isPossiblyModified then
      "error: cmd=storage kind=documentconflict"
    else "close: documentconflict"
  let b := b.broadcastMessage message
  if b.activeClients = 0 then b.stop .other "conflict" else b

/-- Everyone is made read-only and told why. -/
def setAllReadOnly (b : DocumentBroker) (message : String) : DocumentBroker :=
  { b with
    sent := b.sent ++ (b.sessions.list.filter fun c => !c.isCloseFrame).map fun c => .toSession c.id message
    sessions := b.sessions.map (fun c => c.setWritable false) fun _ => rfl }

/-- What follows a failed upload, by result. -/
def handleFailedResult (b : DocumentBroker) (request : UploadRequest) (result : UploadResult) : DocumentBroker :=
  match result.result with
  | .TOO_LARGE =>
    (b.setAllReadOnly "error: cmd=storage kind=savetoolarge").broadcastSaveResult false "Too large" result.reason
  | .DISKFULL =>
    (b.setAllReadOnly "error: cmd=storage kind=savediskfull").broadcastSaveResult false "Disk full" result.reason
  | .UNAUTHORIZED =>
    let b := b.sendToSession (b.uploadSession request) "error: cmd=storage kind=saveunauthorized"
    let b :=
      { b with sessions :=
          b.sessions.update request.session (fun c => c.invalidateAuthorizationToken) fun _ => rfl }
    b.broadcastSaveResult false "Invalid or expired access token" ""
  | .FAILED =>
    -- without a response we cannot know if the storage has been updated
    let b := b.endActivity
    let b := (b.startActivity .SyncFileTimestamp).1
    (b.reportUploadToStorageFailed request).broadcastSaveResult false "Save failed" result.reason
  | .DOC_CHANGED | .CONFLICT =>
    (b.broadcastSaveResult false "Conflict: Document changed in storage" result.reason).handleDocumentConflict
  | .OK => b

def handleUploadToStorageFailed (b : DocumentBroker) (request : UploadRequest) (result : UploadResult) :
    DocumentBroker :=
  let b := b.sendSaveRequestResult (b.uploadSession request) b.lastStorageAttrs.requestId false "savefailed"
    result.reason
  let b := { b with lastStorageAttrs := { b.lastStorageAttrs with requestId := "" } }
  let b :=
    if b.docState.activity = .Rename then
      let session := b.renameSession
      b.endRenameFileCommand.sendToSession session "error: cmd=renamefile kind=failed"
    else b
  let b := b.handleFailedResult request result
  { b with
    currentStorageAttrs := b.currentStorageAttrs.merge b.lastStorageAttrs
    lastStorageAttrs := .reset }

def handleUploadToStorageResponse (b : DocumentBroker) (request : UploadRequest) (result : UploadResult) :
    DocumentBroker :=
  let b :=
    { b with storageManager := b.storageManager.setLastUploadResult b.now (result.result == UploadResultCode.OK) }
  if result.result = .OK then b.handleUploadToStorageSuccessful request result
  else b.handleUploadToStorageFailed request result

/-- The callback of an upload. -/
def asyncUploadCallback (b : DocumentBroker) : AsyncUpload → DocumentBroker
  | .Running => b
  | .Error result => b.asyncUploadFailed result
  | .Complete result =>
    match b.uploadRequest with
    | none => b
    | some request =>
      { b with uploadRequest := some { request with completed := true } }.handleUploadToStorageResponse
        { request with completed := true } result

/-! ### The result of a save -/

/-- Called when either we just got a save response, or there was nothing to save. -/
def checkAndUploadToStorage (b : DocumentBroker) (session : ClientSession) (justSaved : Bool) : DocumentBroker :=
  let needToUpload := b.needToUploadToStorage
  if b.docState.activity = .Rename ∧ needToUpload = .No then b.renameInStorage
  else if b.docState.activity = .SwitchingToOffline ∧ needToUpload = .No then b.switchToOffline
  else
    let b := if b.docState.activity = .Save then b.endActivity else b
    let modified := if justSaved then b.haveModifyActivityAfterSaveRequest else b.needToSaveToDisk ≠ .No
    -- save again before unloading
    if modified && b.isUnloading then b
    else if needToUpload ≠ .No then b.uploadToStorage session false
    else if !b.isAsyncUploading then
      let b := b.sendSaveRequestResult (some session) b.currentStorageAttrs.requestId true "saved" ""
      let b := { b with currentStorageAttrs := { b.currentStorageAttrs with requestId := "" } }
      b.disconnectClosedSessions
    else b

/-- A save response: `success`, the `result` that is a string, and whether Core says the document was modified. -/
structure SaveResponse where
  success : Bool
  result : String := ""
  wasModified : Option Bool := none
deriving DecidableEq, Repr

def SaveResponse.saved (response : SaveResponse) : Bool := response.success || response.result == "unmodified"

/-- The attributes of the version to be uploaded, the result of the save, and the saved file. -/
def takeSaveResponse (b : DocumentBroker) (response : SaveResponse) : DocumentBroker :=
  let next :=
    match response.wasModified with
    | none => b.nextStorageAttrs
    | some wasModified => { b.nextStorageAttrs with isUserModified := wasModified }
  { b with
    currentStorageAttrs := b.currentStorageAttrs.merge next
    nextStorageAttrs := .reset
    saveManager := b.saveManager.setLastSaveResult b.now response.saved response.success
    quarantined := b.quarantined ++ b.filesToQuarantine b.storage.fileToUpload
    storage := b.storage.renameFileToUpload }

/-- The clients are told of a save that failed. -/
def reportSaveFailed (b : DocumentBroker) (session : ClientSession) (response : SaveResponse) : DocumentBroker :=
  let b := b.sendTextFrame session "error: cmd=storage kind=savefailed"
  let b := b.broadcastSaveResult false "Could not save the document" ""
  let b :=
    b.sendSaveRequestResult (some session) b.currentStorageAttrs.requestId false
      (if response.result = "" then "savefailed" else response.result) "Could not save the document"
  { b with currentStorageAttrs := { b.currentStorageAttrs with requestId := "" } }

def handleSaveResponse (b : DocumentBroker) (session : ClientSession) (response : SaveResponse) : DocumentBroker :=
  let b := b.takeSaveResponse response
  let b := if response.saved then b else b.reportSaveFailed session response
  b.checkAndUploadToStorage session response.saved

end DocumentBroker

end CollaboraOnline
