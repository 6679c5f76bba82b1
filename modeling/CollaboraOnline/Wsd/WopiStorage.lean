import Mathlib

/-!
# The WOPI storage of a document

The attributes of an upload, the two local files of a document that is saved (`.upload`, which the kit writes, and
`.uploading`, which it is renamed to when the kit answers), and the asynchronous uploads.  A file version is known by
its modified time.  An upload reads the file that is there when it starts.  The `http::Session` of an upload whose
connection failed may call back again, so sessions are kept until they finish; `uploadHttpSession` is the one that the
storage knows of.  Attempts are numbered.  The history of a storage is in three further fields: the versions that the
kit has written, those whose upload was answered with OK, and the last attempt to upload.
-/

namespace CollaboraOnline

/-- `StorageBase::Attributes`. -/
structure Attributes where
  forced : Bool := false
  isUserModified : Bool := false
  isAutosave : Bool := false
  isExitSave : Bool := false
  extendedData : String := ""
  requestId : String := ""
deriving DecidableEq, Repr

namespace Attributes

def reset : Attributes := {}

/-- Clobber with the `lhs`, assuming it's newer. -/
def merge (attrs lhs : Attributes) : Attributes where
  forced := if lhs.forced then true else attrs.forced
  isUserModified := if lhs.isUserModified then true else attrs.isUserModified
  isAutosave := if lhs.isAutosave then true else attrs.isAutosave
  isExitSave := if lhs.isExitSave then true else attrs.isExitSave
  extendedData := if lhs.extendedData ≠ "" then lhs.extendedData else attrs.extendedData
  requestId := if lhs.requestId ≠ "" then lhs.requestId else attrs.requestId

end Attributes

/-- `StorageBase::UploadResult::Result`. -/
inductive UploadResultCode where
  | OK
  | DISKFULL
  | TOO_LARGE
  | UNAUTHORIZED
  | DOC_CHANGED
  | CONFLICT
  | FAILED
deriving DecidableEq, Repr

structure UploadResult where
  result : UploadResultCode
  reason : String := ""
  saveAsName : String := ""
  saveAsUrl : String := ""
deriving DecidableEq, Repr

/-- `StorageBase::AsyncUpload`, with the states in which the callback is called. -/
inductive AsyncUpload where
  | Error (result : UploadResult)
  | Running
  | Complete (result : UploadResult)
deriving DecidableEq, Repr

structure LocalFile where
  modifiedTime : Nat
  size : Nat
deriving DecidableEq, Repr

/-- The `http::Session` of an upload: what it uploads, and whether its connection failed. -/
structure HttpUpload where
  attempt : Nat
  isSaveAs : Bool
  isRename : Bool
  file : LocalFile
  attribs : Attributes
  timestamp : Option String
  connectFailed : Bool := false
deriving DecidableEq, Repr

/-- Whether the session is a `PutFile`. -/
def HttpUpload.isPutFile (session : HttpUpload) : Bool := !session.isSaveAs && !session.isRename

/-- The JSON body of a response. -/
structure WopiResponseJson where
  lastModifiedTime : String := ""
  name : String := ""
  url : String := ""
  coolStatusCode : Nat := 0
  loolStatusCode : Nat := 0
deriving DecidableEq, Repr

/-- A response to an upload; without a response the status code is 0. -/
structure WopiResponse where
  statusCode : Nat
  reasonPhrase : String := ""
  body : String := ""
  json : Option WopiResponseJson := none
deriving DecidableEq, Repr

/-- What an attempt to upload would read, and whether the upload started. -/
structure UploadAttempt where
  file : Option LocalFile
  started : Bool
deriving DecidableEq, Repr

/-- `StorageBase::FileInfo`. -/
structure FileInfo where
  size : Nat
  filename : String
  modifiedTime : String
deriving DecidableEq, Repr

/-- Files of 0 bytes are valid. -/
def FileInfo.isValid (fileInfo : FileInfo) : Bool := fileInfo.filename ≠ ""

/-- `size` and `modifiedTime` are those of the `FileInfo`, the size as downloaded. -/
structure WopiStorage where
  size : Nat
  modifiedTime : String
  fileToUpload : Option LocalFile := none
  fileUploading : Option LocalFile := none
  saveAsFiles : List (String × LocalFile) := []
  uploadHttpSession : Option Nat := none
  sessions : List HttpUpload := []
  attempts : Nat := 0
  hostIsInvalid : Bool := false
  versions : List LocalFile := []
  acknowledged : List LocalFile := []
  lastAttempt : Option UploadAttempt := none
deriving DecidableEq, Repr

namespace WopiStorage

def isLastModifiedTimeSafe (st : WopiStorage) : Bool := st.modifiedTime != ""

def setLastModifiedTime (st : WopiStorage) (modifiedTime : String) : WopiStorage :=
  { st with modifiedTime := modifiedTime }

def setLastModifiedTimeUnSafe (st : WopiStorage) : WopiStorage := { st with modifiedTime := "" }

/-- The assignment of a `FileInfo` leaves the size as it is. -/
def setFileInfo (st : WopiStorage) (fileInfo : FileInfo) : WopiStorage :=
  { st with modifiedTime := fileInfo.modifiedTime }

def isAsyncUploading (st : WopiStorage) : Bool := st.uploadHttpSession.isSome

/-- The kit writes `.upload`. -/
def writeFileToUpload (st : WopiStorage) (file : LocalFile) : WopiStorage :=
  { st with fileToUpload := some file, versions := file :: st.versions }

/-- `rename` of `.upload` to `.uploading`, when there is such a file. -/
def renameFileToUpload (st : WopiStorage) : WopiStorage :=
  match st.fileToUpload with
  | none => st
  | some file => { st with fileToUpload := none, fileUploading := some file }

/-- The file that an upload would read. -/
def fileToRead (st : WopiStorage) (saveAsPath saveAsFilename : String) : Option LocalFile :=
  if saveAsPath ≠ "" ∧ saveAsFilename ≠ "" then (st.saveAsFiles.find? fun f => f.1 = saveAsPath).map Prod.snd
  else st.fileUploading

/-- The reason of the error with which the callback is called at once, if any. -/
def uploadError (st : WopiStorage) (saveAsPath saveAsFilename : String) : Option String :=
  if st.uploadHttpSession.isSome then some "Already in progress."
  else if (st.fileToRead saveAsPath saveAsFilename).isNone then some "File not found."
  else if st.hostIsInvalid then some "Internal error."
  else none

/-- The request of an upload: the attributes and the timestamp are headers of a `PutFile`. -/
def uploadRequest (st : WopiStorage) (saveAsPath saveAsFilename : String) (isRename : Bool) (attribs : Attributes)
    (file : LocalFile) : HttpUpload :=
  let isSaveAs : Bool := saveAsPath ≠ "" ∧ saveAsFilename ≠ ""
  { attempt := st.attempts
    isSaveAs := isSaveAs
    isRename := isRename
    file := file
    attribs := attribs
    timestamp :=
      if !isSaveAs && !isRename && !attribs.forced && st.isLastModifiedTimeSafe then some st.modifiedTime else none }

/-- The size that is uploaded, or the reason of the error. -/
def uploadLocalFileToStorageAsync (st : WopiStorage) (saveAsPath saveAsFilename : String) (isRename : Bool)
    (attribs : Attributes) : WopiStorage × Except String Nat :=
  let file := st.fileToRead saveAsPath saveAsFilename
  match st.uploadError saveAsPath saveAsFilename, file with
  | none, some localFile =>
    ({ st with
        attempts := st.attempts + 1
        uploadHttpSession := some st.attempts
        sessions := st.sessions ++ [st.uploadRequest saveAsPath saveAsFilename isRename attribs localFile]
        lastAttempt := some ⟨file, true⟩ },
      .ok localFile.size)
  | error, _ =>
    ({ st with attempts := st.attempts + 1, lastAttempt := some ⟨file, false⟩ }, .error (error.getD ""))

/-- An upload starts with the file that it reads, or the callback is called with an error. -/
theorem uploadLocalFileToStorageAsync_cases (st : WopiStorage) (path name : String) (isRename : Bool)
    (attribs : Attributes) :
    (∃ file reason, st.uploadLocalFileToStorageAsync path name isRename attribs =
      ({ st with attempts := st.attempts + 1, lastAttempt := some ⟨file, false⟩ }, .error reason)) ∨
    ∃ file, st.uploadHttpSession = none ∧ st.fileToRead path name = some file ∧
      st.uploadLocalFileToStorageAsync path name isRename attribs =
        ({ st with
            attempts := st.attempts + 1
            uploadHttpSession := some st.attempts
            sessions := st.sessions ++ [st.uploadRequest path name isRename attribs file]
            lastAttempt := some ⟨some file, true⟩ }, .ok file.size) := by
  unfold uploadLocalFileToStorageAsync
  cases herror : st.uploadError path name with
  | some error => exact .inl ⟨st.fileToRead path name, _, rfl⟩
  | none =>
    cases hfile : st.fileToRead path name with
    | none => exact .inl ⟨none, _, rfl⟩
    | some file =>
      refine .inr ⟨file, ?_, rfl, rfl⟩
      unfold uploadError at herror
      split at herror
      · cases herror
      · rename_i hfree
        simpa using hfree

/-- `COOLStatusCode::DOC_CHANGED`. -/
def DOC_CHANGED : Nat := 1010

def failedReason (response : WopiResponse) : String :=
  if response.body = "" then
    if response.statusCode < 100 then
      "No response received. Connection terminated or timed-out."
    else s!"{response.statusCode} {response.reasonPhrase}"
  else s!"{response.statusCode} {response.reasonPhrase} - {response.body}"

def handleUploadToStorageResponse (st : WopiStorage) (isSaveAs isRename : Bool) (response : WopiResponse) :
    WopiStorage × UploadResult :=
  if response.statusCode = 200 then
    match response.json with
    | none => (st, ⟨.OK, response.body, "", ""⟩)
    | some json =>
      let st := st.setLastModifiedTime json.lastModifiedTime
      if isSaveAs || isRename then (st, ⟨.OK, response.body, json.name, json.url⟩)
      else (st, ⟨.OK, response.body, "", ""⟩)
  else if response.statusCode = 413 then (st, ⟨.TOO_LARGE, response.body, "", ""⟩)
  else if response.statusCode = 401 ∨ response.statusCode = 403 ∨ response.statusCode = 404 then
    (st, ⟨.UNAUTHORIZED, response.body, "", ""⟩)
  else if response.statusCode = 409 then
    match response.json with
    | none => (st, ⟨.CONFLICT, response.body, "", ""⟩)
    | some json =>
      if json.coolStatusCode = DOC_CHANGED ∨ json.loolStatusCode = DOC_CHANGED then
        (st, ⟨.DOC_CHANGED, response.body, "", ""⟩)
      else (st, ⟨.CONFLICT, response.body, "", ""⟩)
  else (st, ⟨.FAILED, failedReason response, "", ""⟩)

/-- Only the modified time may change, and only the status 200 is a success. -/
theorem handleUploadToStorageResponse_cases (st : WopiStorage) (isSaveAs isRename : Bool) (response : WopiResponse) :
    (∃ modifiedTime, (st.handleUploadToStorageResponse isSaveAs isRename response).1 =
      { st with modifiedTime := modifiedTime }) ∧
    ((st.handleUploadToStorageResponse isSaveAs isRename response).2.result = .OK ↔ response.statusCode = 200) := by
  obtain ⟨statusCode, reasonPhrase, body, json⟩ := response
  unfold handleUploadToStorageResponse
  cases json with
  | none => dsimp only; split_ifs <;> exact ⟨⟨st.modifiedTime, rfl⟩, by simp [*]⟩
  | some json =>
    dsimp only
    split_ifs with h
    · exact ⟨⟨json.lastModifiedTime, rfl⟩, by simp [h]⟩
    · exact ⟨⟨json.lastModifiedTime, rfl⟩, by simp [h]⟩
    all_goals exact ⟨⟨st.modifiedTime, rfl⟩, by simp [*]⟩

/-- The finished handler: the storage and what the callback is called with. -/
def finished (st : WopiStorage) (session : HttpUpload) (response : WopiResponse) : WopiStorage × AsyncUpload :=
  let st :=
    { st with
      uploadHttpSession := none
      sessions := st.sessions.erase session
      acknowledged :=
        if response.statusCode = 200 ∧ session.isPutFile then session.file :: st.acknowledged else st.acknowledged }
  let (st, result) := st.handleUploadToStorageResponse session.isSaveAs session.isRename response
  (st, .Complete result)

theorem finished_cases (st : WopiStorage) (session : HttpUpload) (response : WopiResponse) :
    ∃ modifiedTime result, (result.result = .OK ↔ response.statusCode = 200) ∧
      st.finished session response =
        ({ st with
            uploadHttpSession := none
            sessions := st.sessions.erase session
            acknowledged :=
              if response.statusCode = 200 ∧ session.isPutFile then session.file :: st.acknowledged
              else st.acknowledged
            modifiedTime := modifiedTime },
          .Complete result) := by
  unfold finished
  extract_lets st₁
  obtain ⟨⟨modifiedTime, hst⟩, hok⟩ :=
    st₁.handleUploadToStorageResponse_cases session.isSaveAs session.isRename response
  refine ⟨modifiedTime, _, hok, ?_⟩
  generalize st₁.handleUploadToStorageResponse session.isSaveAs session.isRename response = p at hst
  obtain ⟨st₂, result⟩ := p
  dsimp only at hst ⊢
  rw [hst]

/-- The connect-fail handler.  The session may call back again. -/
def connectFailed (st : WopiStorage) (session : HttpUpload) : WopiStorage × AsyncUpload :=
  ({ st with
      uploadHttpSession := none
      sessions := st.sessions.map fun s => if s = session then { s with connectFailed := true } else s },
    .Error ⟨.FAILED, "Connection failed.", "", ""⟩)

end WopiStorage

end CollaboraOnline
