import CollaboraOnline.Wsd.WopiStorage

/-!
# The parts of the state of a document broker

The managers of save and upload requests, the upload request, the sessions, the phases and activities of a document.
Times are nanoseconds since the broker was created, durations are milliseconds unless said otherwise.
-/

namespace CollaboraOnline

def toMilliseconds (nanoseconds : Nat) : Nat := nanoseconds / 1000000

/-- `RequestManager`: common fields of save and upload requests. -/
structure RequestManager where
  minTimeBetweenRequests : Nat
  lastRequestTime : Nat
  lastResponseTime : Nat
  lastRequestDuration : Nat := 0
  lastRequestFailureCount : Nat := 0
deriving DecidableEq, Repr

namespace RequestManager

def markLastRequestTime (r : RequestManager) (now : Nat) : RequestManager := { r with lastRequestTime := now }

def timeSinceLastRequest (r : RequestManager) (now : Nat) : Nat := toMilliseconds (now - r.lastRequestTime)

def markLastResponseTime (r : RequestManager) (now : Nat) : RequestManager :=
  { r with lastResponseTime := now, lastRequestDuration := toMilliseconds (now - r.lastRequestTime) }

def timeSinceLastResponse (r : RequestManager) (now : Nat) : Nat := toMilliseconds (now - r.lastResponseTime)

/-- There is an active request in progress. -/
def isActive (r : RequestManager) : Bool := r.lastResponseTime < r.lastRequestTime

def hasLastRequestTimedOut (r : RequestManager) (now timeout : Nat) : Bool :=
  r.isActive && timeout ≤ r.timeSinceLastRequest now

def timeToNextRequest (r : RequestManager) (now : Nat) (unloading : Bool) : Nat :=
  let minTime := max r.minTimeBetweenRequests r.lastRequestDuration
  let minTime := if unloading then minTime / 10 else minTime
  let timeSinceLastCommunication := min (r.timeSinceLastRequest now) (r.timeSinceLastResponse now)
  if minTime ≤ timeSinceLastCommunication then 0 else minTime - timeSinceLastCommunication

def canRequestNow (r : RequestManager) (now : Nat) (unloading : Bool) : Bool :=
  !r.isActive && r.timeToNextRequest now unloading == 0

def setLastRequestResult (r : RequestManager) (now : Nat) (success : Bool) : RequestManager :=
  let r := r.markLastResponseTime now
  { r with lastRequestFailureCount := if success then 0 else r.lastRequestFailureCount + 1 }

def lastRequestSuccessful (r : RequestManager) : Bool := r.lastRequestFailureCount == 0

end RequestManager

structure SaveManager where
  request : RequestManager
  lastModifiedLocalTime : Nat
  idleSaveInterval : Nat
  autoSaveInterval : Nat
  savingTimeout : Nat
  lastAutosaveCheckTime : Nat
  version : Nat
deriving DecidableEq, Repr

namespace SaveManager

def isIdleSaveEnabled (m : SaveManager) : Bool := 0 < m.idleSaveInterval

def isAutoSaveEnabled (m : SaveManager) : Bool := 0 < m.autoSaveInterval

def checkInterval (m : SaveManager) : Nat :=
  if 0 < m.idleSaveInterval then
    if 0 < m.autoSaveInterval then min m.idleSaveInterval m.autoSaveInterval else m.idleSaveInterval
  else m.autoSaveInterval

/-- The time since the last check counts in whole seconds. -/
def needAutoSaveCheck (m : SaveManager) (now : Nat) : Bool :=
  0 < m.checkInterval && m.checkInterval ≤ (now - m.lastAutosaveCheckTime) / 1000000000 * 1000

def autoSaveChecked (m : SaveManager) (now : Nat) : SaveManager := { m with lastAutosaveCheckTime := now }

def postponeAutosave (m : SaveManager) (now seconds : Nat) : SaveManager :=
  let nextAutosaveCheck := m.lastAutosaveCheckTime + m.autoSaveInterval * 1000000
  let postponeTime := now + seconds * 1000000000
  if nextAutosaveCheck < postponeTime then
    { m with lastAutosaveCheckTime := m.lastAutosaveCheckTime + (postponeTime - nextAutosaveCheck) }
  else m

def markLastSaveRequestTime (m : SaveManager) (now : Nat) : SaveManager :=
  { m with request := m.request.markLastRequestTime now }

def lastSaveSuccessful (m : SaveManager) : Bool := m.request.lastRequestSuccessful

def saveFailureCount (m : SaveManager) : Nat := m.request.lastRequestFailureCount

def setLastSaveResult (m : SaveManager) (now : Nat) (success newVersion : Bool) : SaveManager :=
  { m with
    version := if newVersion then m.version + 1 else m.version
    request := m.request.setLastRequestResult now success }

def lastSaveRequestTime (m : SaveManager) : Nat := m.request.lastRequestTime

def setLastModifiedLocalTime (m : SaveManager) (time : Nat) : SaveManager := { m with lastModifiedLocalTime := time }

/-- A save is requested but not completed. -/
def isSaving (m : SaveManager) : Bool := m.request.isActive

/-- The timeout is in seconds. -/
def hasSavingTimedOut (m : SaveManager) (now : Nat) : Bool :=
  m.request.hasLastRequestTimedOut now (m.savingTimeout * 1000)

def timeSinceLastSaveRequest (m : SaveManager) (now : Nat) : Nat := m.request.timeSinceLastRequest now

def timeSinceLastSaveResponse (m : SaveManager) (now : Nat) : Nat := m.request.timeSinceLastResponse now

def canSaveNow (m : SaveManager) (now : Nat) (unloading : Bool) : Bool := m.request.canRequestNow now unloading

end SaveManager

/-- The session that asked for an upload is known as long as it is not removed. -/
structure UploadRequest where
  attempt : Nat
  newFileModifiedLocalTime : Nat
  session : Nat
  isSaveAs : Bool
  isExport : Bool
  isRename : Bool
  completed : Bool := false
deriving DecidableEq, Repr

structure StorageManager where
  request : RequestManager
  lastUploadedFileModifiedLocalTime : Nat
  lastModifiedServerTimeString : String
  sizeOnServer : Nat := 0
  sizeAsUploaded : Nat := 0
deriving DecidableEq, Repr

namespace StorageManager

def lastUploadSuccessful (m : StorageManager) : Bool := m.request.lastRequestSuccessful

def setLastUploadResult (m : StorageManager) (now : Nat) (success : Bool) : StorageManager :=
  { m with request := m.request.setLastRequestResult now success }

def markLastUploadRequestTime (m : StorageManager) (now : Nat) : StorageManager :=
  { m with request := m.request.markLastRequestTime now }

def timeSinceLastUploadResponse (m : StorageManager) (now : Nat) : Nat := m.request.timeSinceLastResponse now

def uploadFailureCount (m : StorageManager) : Nat := m.request.lastRequestFailureCount

def setLastUploadedFileModifiedLocalTime (m : StorageManager) (modifiedTime : Nat) : StorageManager :=
  { m with lastUploadedFileModifiedLocalTime := modifiedTime }

def setLastModifiedServerTimeString (m : StorageManager) (time : String) : StorageManager :=
  { m with lastModifiedServerTimeString := time }

def setSizeAsUploaded (m : StorageManager) (size : Nat) : StorageManager := { m with sizeAsUploaded := size }

def canUploadNow (m : StorageManager) (now : Nat) (unloading : Bool) : Bool := m.request.canRequestNow now unloading

end StorageManager

/-! ### The document -/

/-- The phases of a document, in their order. -/
inductive DocumentStatus where
  | None
  | Downloading
  | Loading
  | Live
  | Destroying
  | Destroyed
deriving DecidableEq, Repr

inductive Activity where
  | None
  | Rename
  | SaveAs
  | Conflict
  | Save
  | Upload
  | SyncFileTimestamp
  | SwitchingToOffline
  | SwitchingToOnline
deriving DecidableEq, Repr

inductive KitDisconnected where
  | No
  | Normal
  | Unexpected
deriving DecidableEq, Repr

structure DocumentState where
  status : DocumentStatus
  activity : Activity := .None
  loaded : Bool := false
  closeRequested : Bool := false
  unloadRequested : Bool := false
  kitDisconnected : KitDisconnected := .No
deriving DecidableEq, Repr

namespace DocumentState

def setActivity (s : DocumentState) (activity : Activity) : DocumentState := { s with activity := activity }

def setLive (s : DocumentState) : DocumentState := { s with loaded := true, status := .Live }

def markToDestroy (s : DocumentState) : DocumentState := { s with status := .Destroying }

def isMarkedToDestroy (s : DocumentState) : Bool := s.status = .Destroying || s.status = .Destroyed

def setCloseRequested (s : DocumentState) : DocumentState := { s with closeRequested := true }

def setUnloadRequested (s : DocumentState) : DocumentState := { s with unloadRequested := true }

def resetUnloadRequested (s : DocumentState) : DocumentState := { s with unloadRequested := false }

def setKitDisconnected (s : DocumentState) (disconnected : KitDisconnected) : DocumentState :=
  { s with kitDisconnected := disconnected }

def isKitDisconnected (s : DocumentState) : Bool := s.kitDisconnected ≠ .No

end DocumentState

/-! ### The sessions -/

namespace DocumentBroker

inductive SessionState where
  | DETACHED
  | LOADING
  | LIVE
  | WAIT_DISCONNECT
deriving DecidableEq, Repr

/-- The parts of a client session that saving and uploading depend on. -/
structure ClientSession where
  id : Nat
  state : SessionState
  isWritable : Bool := true
  isReadOnly : Bool := false
  isAllowChangeComments : Bool := false
  isAllowManageRedlines : Bool := false
  isDocumentOwner : Bool := false
  isCloseFrame : Bool := false
  authorizationExpired : Bool := false
deriving DecidableEq, Repr

namespace ClientSession

def isEditable (s : ClientSession) : Bool := !s.isReadOnly || s.isAllowChangeComments || s.isAllowManageRedlines

def isViewLoaded (s : ClientSession) : Bool := s.state = .LIVE

def inWaitDisconnected (s : ClientSession) : Bool := s.state = .WAIT_DISCONNECT

def isLive (s : ClientSession) : Bool := s.state = .LIVE && !s.isCloseFrame

def setWritable (s : ClientSession) (writable : Bool) : ClientSession :=
  if writable then { s with isWritable := true }
  else { s with
    isWritable := false, isReadOnly := true, isAllowChangeComments := false, isAllowManageRedlines := false }

def invalidateAuthorizationToken (s : ClientSession) : ClientSession := { s with authorizationExpired := true }

theorem id_invalidateAuthorizationToken (s : ClientSession) : s.invalidateAuthorizationToken.id = s.id := rfl

end ClientSession

/-- The sessions of a document in the order of their ids, which grow. -/
structure SessionMap where
  list : List ClientSession
  sorted : (list.map ClientSession.id).Pairwise (· < ·)

namespace SessionMap

instance : DecidableEq SessionMap := fun s t => decidable_of_iff (s.list = t.list) (by cases s; cases t; simp)

def empty : SessionMap := ⟨[], by simp⟩

def find (m : SessionMap) (id : Nat) : Option ClientSession := m.list.find? fun s => s.id = id

def erase (m : SessionMap) (id : Nat) : SessionMap :=
  ⟨m.list.filter fun s => s.id ≠ id, m.sorted.sublist (List.filter_sublist.map _)⟩

/-- Change sessions in a way that keeps their ids. -/
def map (m : SessionMap) (f : ClientSession → ClientSession) (hf : ∀ s, (f s).id = s.id) : SessionMap :=
  ⟨m.list.map f, by simpa [List.map_map, Function.comp_def, hf] using m.sorted⟩

/-- Change the session with this id in a way that keeps the id. -/
def update (m : SessionMap) (id : Nat) (f : ClientSession → ClientSession) (hf : ∀ s, (f s).id = s.id) : SessionMap :=
  m.map (fun s => if s.id = id then f s else s) fun s => by split <;> simp [hf]

/-- A session with a new id joins. -/
def add (m : SessionMap) (s : ClientSession) (h : ∀ t ∈ m.list, t.id < s.id) : SessionMap :=
  ⟨m.list ++ [s], by
    rw [List.map_append, List.pairwise_append]
    exact ⟨m.sorted, by simp, by simpa using h⟩⟩

end SessionMap

end DocumentBroker

end CollaboraOnline
