import CollaboraOnline.Lib.Run
import CollaboraOnline.Wsd.DocumentBroker

/-!
# The lock of the document in the storage

`LockContext` is what the broker believes about the lock.  Lock requests on load and unlock requests are synchronous:
the thread of the broker waits for the answer.  The lock is refreshed by an asynchronous request on a connection of
its own, which the storage handles, and whose answer the broker takes, at any later time.  `LockBroker` adds what the
storage did.
-/

namespace CollaboraOnline

open DocumentBroker (SessionMap)

inductive LockState where
  | LOCK
  | UNLOCK
deriving DecidableEq, Repr

inductive LockUpdateStatus where
  | UNSUPPORTED
  | OK
  | UNAUTHORIZED
  | FAILED
deriving DecidableEq, Repr

structure LockUpdateResult where
  status : LockUpdateStatus
  requestedLockState : LockState
  reason : String := ""
deriving DecidableEq, Repr

inductive AsyncLockUpdateState where
  | Running
  | Complete
  | Error
deriving DecidableEq, Repr

structure AsyncLockUpdate where
  state : AsyncLockUpdateState
  result : LockUpdateResult
deriving DecidableEq, Repr

/-- Times are in seconds. -/
structure LockContext where
  refreshSeconds : Nat := 900
  supportsLocks : Bool := false
  lockState : LockState := .UNLOCK
  lastLockTime : Nat := 0
deriving DecidableEq, Repr

namespace LockContext

def isLocked (c : LockContext) : Bool := c.lockState = .LOCK

def bumpTimer (c : LockContext) (now : Nat) : LockContext := { c with lastLockTime := now }

def setState (c : LockContext) (state : LockState) (now : Nat) : LockContext :=
  { c with lockState := state }.bumpTimer now

def needsRefresh (c : LockContext) (now : Nat) : Bool :=
  c.supportsLocks && c.isLocked && 0 < c.refreshSeconds && c.refreshSeconds ≤ now - c.lastLockTime

@[simp] theorem bumpTimer_isLocked {c : LockContext} {now : Nat} : (c.bumpTimer now).isLocked = c.isLocked := rfl

@[simp] theorem setState_isLocked {c : LockContext} {state : LockState} {now : Nat} :
    (c.setState state now).isLocked = decide (state = .LOCK) := rfl

end LockContext

/-- The answer to a lock request, or the exception that the request ends with. -/
inductive LockResponse where
  | http (statusCode : Nat) (failureReason : String)
  | exception (what : String)
deriving DecidableEq, Repr

namespace LockResponse

def isOK : LockResponse → Bool
  | .http statusCode _ => statusCode = 200
  | .exception _ => false

/-- The result of `updateLockState`. -/
def syncResult (lock : LockState) : LockResponse → LockUpdateResult
  | .http statusCode failureReason => if statusCode = 200 then ⟨.OK, lock, ""⟩ else ⟨.FAILED, lock, failureReason⟩
  | .exception what => ⟨.FAILED, lock, "Internal error: " ++ what⟩

/-- The update that the finished callback of `updateLockStateAsync` reports. -/
def asyncUpdate (lock : LockState) : LockResponse → AsyncLockUpdate
  | .http statusCode failureReason =>
    if statusCode = 200 then ⟨.Complete, .OK, lock, ""⟩
    else if statusCode = 401 || statusCode = 403 || statusCode = 404 then ⟨.Error, .UNAUTHORIZED, lock, failureReason⟩
    else ⟨.Error, .FAILED, lock, failureReason⟩
  | .exception _ => ⟨.Error, .FAILED, lock, "Internal error"⟩

end LockResponse

/-- An asynchronous lock request: the session that made it, and the answer of the storage once it handled it. -/
structure LockStateUpdateRequest where
  requestedLockState : LockState
  session : Nat
  answer : Option LockResponse := none
deriving DecidableEq, Repr

/-- `lastCarriedOut` is the last lock or unlock that the storage carried out.  `lastUnlocked` says that the last
request sent was an unlock, and answered with success. -/
structure LockBroker where
  now : Nat := 0
  hasStorage : Bool := true
  lockCtx : LockContext := {}
  sessions : SessionMap := .empty
  lockFailed : List Nat := []
  lockStateUpdateRequest : Option LockStateUpdateRequest := none
  sent : List (Nat × String) := []
  lastCarriedOut : LockState := .UNLOCK
  lastUnlocked : Bool := false
deriving DecidableEq

namespace LockBroker

/-! ### Functions of the broker -/

def sendTextFrame (b : LockBroker) (session : Nat) (text : String) : LockBroker :=
  { b with sent := b.sent ++ [(session, text)] }

def setReadOnly (b : LockBroker) (session : Nat) (readOnly : Bool) : LockBroker :=
  { b with sessions := b.sessions.update session (fun s => { s with isReadOnly := readOnly }) fun _ => rfl }

def setLockFailed (b : LockBroker) (session : Nat) (reason : String) : LockBroker :=
  ({ b with lockFailed := session :: b.lockFailed }.setReadOnly session true).sendTextFrame session
    ("lockfailed:" ++ reason)

def invalidateAuthorizationToken (b : LockBroker) (session : Nat) : LockBroker :=
  { b with sessions := b.sessions.update session DocumentBroker.ClientSession.invalidateAuthorizationToken
             DocumentBroker.ClientSession.id_invalidateAuthorizationToken }

/-- Whether the request succeeded, and the broker after its result. -/
def handleLockResult (b : LockBroker) (session : Nat) (result : LockUpdateResult) : Bool × LockBroker :=
  match result.status with
  | .UNSUPPORTED => (true, b)
  | .OK => (true, { b with lockCtx := b.lockCtx.setState result.requestedLockState b.now })
  | .UNAUTHORIZED =>
    let b := b.invalidateAuthorizationToken session
    (false, if result.requestedLockState = .LOCK then b.setLockFailed session result.reason else b)
  | .FAILED => (false, if result.requestedLockState = .LOCK then b.setLockFailed session result.reason else b)

/-- The request reaches the storage. -/
def carryOut (b : LockBroker) (lock : LockState) (response : LockResponse) : LockBroker :=
  if response.isOK then { b with lastCarriedOut := lock } else b

/-- `updateLockState` of the storage. -/
def updateLockState (b : LockBroker) (lock : LockState) (response : LockResponse) : LockUpdateResult × LockBroker :=
  if !b.lockCtx.supportsLocks then (⟨.UNSUPPORTED, lock, ""⟩, b)
  else
    let b := { b with lastUnlocked := decide (lock = LockState.UNLOCK) && response.isOK }.carryOut lock response
    (response.syncResult lock, if response.isOK then { b with lockCtx := b.lockCtx.setState lock b.now } else b)

/-- Whether the request succeeded, the error, and the broker after it. -/
def updateStorageLockState (b : LockBroker) (session : DocumentBroker.ClientSession) (lock : LockState)
    (response : LockResponse) : Bool × String × LockBroker :=
  if session.authorizationExpired then (false, "Expired authorization token", b)
  else if lock = .LOCK ∧ session.isReadOnly then (false, "Readonly session", b)
  else if !b.hasStorage then (false, "Missing storage", b)
  else
    let (result, b) := b.updateLockState lock response
    let (success, b) := b.handleLockResult session.id result
    (success, "", b)

/-- `sessionExists` says whether the session that made the request is still there. -/
def asyncLockCallback (b : LockBroker) (asyncLock : AsyncLockUpdate) (sessionExists : Bool) : LockBroker :=
  match b.lockStateUpdateRequest with
  | none => b
  | some request =>
    if asyncLock.state = .Running then b
    else
      let b := { b with lockStateUpdateRequest := none }
      if sessionExists then (b.handleLockResult request.session asyncLock.result).2 else b

def updateStorageLockStateAsync (b : LockBroker) (session : DocumentBroker.ClientSession) (lock : LockState) :
    Except String LockBroker :=
  if session.authorizationExpired then .error "Expired authorization token"
  else if lock = .LOCK ∧ session.isReadOnly then .error "Readonly session"
  else if b.lockStateUpdateRequest.isSome then .error "A lock-update request is already in progress"
  else
    let b := { b with lockStateUpdateRequest := some ⟨lock, session.id, none⟩ }
    if !b.lockCtx.supportsLocks then .ok (b.asyncLockCallback ⟨.Complete, .UNSUPPORTED, lock, ""⟩ true)
    else .ok ({ b with lastUnlocked := false }.asyncLockCallback ⟨.Running, .OK, lock, ""⟩ true)

def lockIfEditing (b : LockBroker) (session : DocumentBroker.ClientSession) (response : LockResponse) : LockBroker :=
  if !b.lockCtx.supportsLocks || b.lockCtx.isLocked then b
  else if session.isReadOnly then b
  else
    match b.updateStorageLockState session .LOCK response with
    | (true, _, b) => b
    | (false, _, b) =>
      { b with sessions := b.sessions.update session.id (fun s => s.setWritable false) fun s => by
                 unfold DocumentBroker.ClientSession.setWritable; split <;> rfl }

/-- `attemptLock` of the session. -/
def attemptLock (b : LockBroker) (session : DocumentBroker.ClientSession) (response : LockResponse) : LockBroker :=
  if !session.isReadOnly then b
  else if session.id ∉ b.lockFailed then b
  else
    match b.updateStorageLockState session .LOCK response with
    | (true, _, b) => b.setReadOnly session.id false
    | (false, failReason, b) => b.sendTextFrame session.id ("lockfailed:" ++ failReason)

def getWriteableSession (b : LockBroker) : Option DocumentBroker.ClientSession :=
  DocumentBroker.BrokerState.chooseSavingSession none b.sessions.list

def haveAnotherEditableSession (b : LockBroker) (id : Nat) : Bool :=
  b.sessions.list.any fun c => c.id ≠ id && c.isViewLoaded && c.isEditable

def bumpTimer (b : LockBroker) : LockBroker := { b with lockCtx := b.lockCtx.bumpTimer b.now }

def refreshLock (b : LockBroker) : LockBroker :=
  match b.getWriteableSession with
  | none => b.bumpTimer
  | some session =>
    if session.authorizationExpired then b.bumpTimer
    else
      match b.updateStorageLockStateAsync session .LOCK with
      | .ok b => b
      | .error _ => b

/-- The unlock of `disconnectSessionInternal`. -/
def unlockForLast (b : LockBroker) (session : DocumentBroker.ClientSession) (response : LockResponse) : LockBroker :=
  let lastEditableSession := session.isEditable && !b.haveAnotherEditableSession session.id
  if lastEditableSession && b.lockCtx.isLocked && b.hasStorage then
    (b.updateStorageLockState session .UNLOCK response).2.2
  else b

/-- The unlock at the end of `pollThread`. -/
def unlockAtEnd (b : LockBroker) (response : LockResponse) : LockBroker :=
  if b.lockCtx.supportsLocks && b.lockCtx.isLocked then
    match b.getWriteableSession with
    | none => b.bumpTimer
    | some session =>
      if session.authorizationExpired then b.bumpTimer
      else (b.updateStorageLockState session .UNLOCK response).2.2
  else b

/-! ### Steps -/

/-- `response` is the answer of the storage to the synchronous request of the event, if it makes one. -/
inductive Event where
  | createStorage (supportsLocks : Bool)
  | addSession (session : DocumentBroker.ClientSession)
  | changeSession (session : DocumentBroker.ClientSession)
  | removeSession (id : Nat)
  | load (id : Nat) (response : LockResponse)
  | attemptLock (id : Nat) (response : LockResponse)
  | poll
  | disconnect (id : Nat) (response : LockResponse)
  | endPolling (response : LockResponse)
  | storageHandles (response : LockResponse)
  | answerArrives (sessionExists : Bool)
  | elapse (seconds : Nat)
deriving DecidableEq

/-- A session that is in the map exists. -/
def step (b : LockBroker) : Event → Option LockBroker
  | .createStorage supportsLocks =>
    some { b with hasStorage := true
                  lockCtx := { b.lockCtx with supportsLocks := b.lockCtx.supportsLocks || supportsLocks } }
  | .addSession session =>
    if h : ∀ t ∈ b.sessions.list, t.id < session.id then some { b with sessions := b.sessions.add session h }
    else none
  | .changeSession session =>
    some { b with sessions := b.sessions.update session.id (fun s => { session with id := s.id }) fun _ => rfl }
  | .removeSession id => some { b with sessions := b.sessions.erase id }
  | .load id response => (b.sessions.find id).map fun session => b.lockIfEditing session response
  | .attemptLock id response => (b.sessions.find id).map fun session => b.attemptLock session response
  | .poll =>
    some (if b.hasStorage && b.lockStateUpdateRequest.isNone && b.lockCtx.needsRefresh b.now then b.refreshLock
      else b)
  | .disconnect id response => (b.sessions.find id).map fun session => b.unlockForLast session response
  | .endPolling response => some (b.unlockAtEnd response)
  | .storageHandles response =>
    match b.lockStateUpdateRequest with
    | some request =>
      if request.answer.isNone then
        some ({ b with lockStateUpdateRequest := some { request with answer := some response } }.carryOut
          request.requestedLockState response)
      else none
    | none => none
  | .answerArrives sessionExists =>
    match b.lockStateUpdateRequest with
    | some request =>
      match request.answer with
      | some response =>
        if (b.sessions.find request.session).isSome → sessionExists = true then
          some (b.asyncLockCallback (response.asyncUpdate request.requestedLockState) sessionExists)
        else none
      | none => none
    | none => none
  | .elapse seconds => some { b with now := b.now + seconds }

/-- A new broker. -/
def IsInitial (b : LockBroker) : Prop :=
    ∃ now refreshSeconds, b = { now, hasStorage := false, lockCtx := { refreshSeconds } }

/-- While no lock request is outstanding, the broker believes what the storage did last, and a document that was
unlocked by the last request is unlocked. -/
structure NotLeaked (b : LockBroker) : Prop where
  belief : b.lockStateUpdateRequest = none → (b.lockCtx.isLocked = true ↔ b.lastCarriedOut = .LOCK)
  unlocked : b.lockStateUpdateRequest = none → b.lastUnlocked = true → b.lastCarriedOut = .UNLOCK

/-- The storage carried out the refresh that is outstanding. -/
def refreshCarriedOut (b : LockBroker) : Bool :=
  b.lockStateUpdateRequest.any fun request => request.answer.any LockResponse.isOK

/-- The condition on a step: the document was not unlocked since the refresh was sent, when the storage carries the
refresh out and when the broker takes the answer. -/
def notOvertaken (b : LockBroker) : Event → Bool
  | .storageHandles response => !response.isOK || b.lockCtx.isLocked
  | .answerArrives sessionExists => !sessionExists || !b.refreshCarriedOut || b.lockCtx.isLocked
  | _ => true

/-- The invariant of the runs that meet the condition. -/
structure Agrees (b : LockBroker) : Prop where
  belief : b.lockCtx.isLocked = true ↔ b.lastCarriedOut = .LOCK
  unlocked : b.lastUnlocked = true → b.lockCtx.isLocked = false
  refresh : ∀ request ∈ b.lockStateUpdateRequest, request.requestedLockState = .LOCK

namespace Agrees

variable {b : LockBroker} {session : DocumentBroker.ClientSession} {id : Nat} {lock : LockState}
  {response : LockResponse}

theorem notLeaked (h : b.Agrees) : b.NotLeaked := by
  constructor
  · exact fun _ => h.belief
  · intro _ hunlocked
    have hnot : b.lastCarriedOut ≠ .LOCK := by
      rw [Ne, ← h.belief, h.unlocked hunlocked]
      simp
    cases hlast : b.lastCarriedOut with
    | LOCK => exact absurd hlast hnot
    | UNLOCK => rfl

/-- The fields that the lock depends on. -/
theorem congr {b' : LockBroker} (h : b.Agrees) (hlocked : b'.lockCtx.isLocked = b.lockCtx.isLocked)
    (hlast : b'.lastCarriedOut = b.lastCarriedOut) (hunlocked : b'.lastUnlocked = b.lastUnlocked)
    (hrequest : b'.lockStateUpdateRequest = b.lockStateUpdateRequest) : b'.Agrees := by
  constructor
  · rw [hlocked, hlast]
    exact h.belief
  · rw [hlocked, hunlocked]
    exact h.unlocked
  · rw [hrequest]
    exact h.refresh

theorem setLockFailed {reason : String} (h : b.Agrees) : (b.setLockFailed id reason).Agrees := h.congr rfl rfl rfl rfl

theorem bumpTimer (h : b.Agrees) : b.bumpTimer.Agrees := h.congr rfl rfl rfl rfl

/-- Only a success changes what the broker believes. -/
theorem handleLockResult {result : LockUpdateResult} (h : b.Agrees)
    (hok : result.status = .OK → b.lockCtx.isLocked = decide (result.requestedLockState = .LOCK)) :
    (b.handleLockResult id result).2.Agrees := by
  unfold LockBroker.handleLockResult
  cases hstatus : result.status with
  | UNSUPPORTED => exact h
  | OK =>
    exact h.congr (hok hstatus).symm rfl rfl rfl
  | UNAUTHORIZED =>
    have hinvalid : (b.invalidateAuthorizationToken id).Agrees := h.congr rfl rfl rfl rfl
    dsimp only
    split
    · exact hinvalid.setLockFailed
    · exact hinvalid
  | FAILED =>
    dsimp only
    split
    · exact h.setLockFailed
    · exact h

/-- A synchronous request that the storage carries out is believed at once. -/
theorem updateLockState (h : b.Agrees) (lock : LockState) (response : LockResponse) :
    (b.updateLockState lock response).2.Agrees ∧
      ((b.updateLockState lock response).1.status = .OK →
        (b.updateLockState lock response).2.lockCtx.isLocked =
          decide ((b.updateLockState lock response).1.requestedLockState = .LOCK)) := by
  unfold LockBroker.updateLockState carryOut
  split
  · exact ⟨h, fun hok => nomatch hok⟩
  · cases hok : response.isOK with
    | true =>
      refine ⟨⟨?_, ?_, h.refresh⟩, ?_⟩
      · simp
      · cases lock <;> simp
      · cases response with
        | http statusCode failureReason =>
          have h200 : statusCode = 200 := by simpa [LockResponse.isOK] using hok
          simp [LockResponse.syncResult, h200]
        | exception what => simp [LockResponse.isOK] at hok
    | false =>
      refine ⟨⟨h.belief, ?_, h.refresh⟩, ?_⟩
      · simp
      · cases response with
        | http statusCode failureReason =>
          have h200 : statusCode ≠ 200 := by simpa [LockResponse.isOK] using hok
          simp [LockResponse.syncResult, h200]
        | exception what => simp [LockResponse.syncResult]

theorem updateStorageLockState (h : b.Agrees) (session : DocumentBroker.ClientSession) (lock : LockState)
    (response : LockResponse) : (b.updateStorageLockState session lock response).2.2.Agrees := by
  unfold LockBroker.updateStorageLockState
  split
  · exact h
  · split
    · exact h
    · split
      · exact h
      · obtain ⟨hupdate, hok⟩ := h.updateLockState lock response
        exact hupdate.handleLockResult hok

theorem lockIfEditing (h : b.Agrees) : (b.lockIfEditing session response).Agrees := by
  have hupdate := h.updateStorageLockState session .LOCK response
  unfold LockBroker.lockIfEditing
  split
  · exact h
  · split
    · exact h
    · split <;> rename_i heq <;> rw [heq] at hupdate
      · exact hupdate
      · exact hupdate.congr rfl rfl rfl rfl

theorem attemptLock (h : b.Agrees) : (b.attemptLock session response).Agrees := by
  have hupdate := h.updateStorageLockState session .LOCK response
  unfold LockBroker.attemptLock
  split
  · exact h
  · split
    · exact h
    · split <;> rename_i heq <;> rw [heq] at hupdate <;> exact hupdate.congr rfl rfl rfl rfl

theorem unlockForLast (h : b.Agrees) : (b.unlockForLast session response).Agrees := by
  unfold LockBroker.unlockForLast
  dsimp only
  split
  · exact h.updateStorageLockState _ _ _
  · exact h

theorem unlockAtEnd (h : b.Agrees) : (b.unlockAtEnd response).Agrees := by
  unfold LockBroker.unlockAtEnd
  split
  · split
    · exact h.bumpTimer
    · split
      · exact h.bumpTimer
      · exact h.updateStorageLockState _ _ _
  · exact h

theorem refreshLock (h : b.Agrees) : b.refreshLock.Agrees := by
  unfold LockBroker.refreshLock
  split
  · exact h.bumpTimer
  · split
    · exact h.bumpTimer
    · split
      · rename_i b' hsent
        unfold updateStorageLockStateAsync at hsent
        split at hsent
        · cases hsent
        · split at hsent
          · cases hsent
          · split at hsent
            · cases hsent
            · dsimp only at hsent
              split at hsent
              · cases hsent
                exact ⟨h.belief, h.unlocked, by simp [asyncLockCallback, LockBroker.handleLockResult]⟩
              · cases hsent
                exact ⟨h.belief, by simp [asyncLockCallback], by simp [asyncLockCallback]⟩
      · exact h

/-- The refresh is carried out or refused. -/
theorem storageHandles {request : LockStateUpdateRequest} (h : b.Agrees)
    (hrequest : b.lockStateUpdateRequest = some request)
    (hlocked : response.isOK = true → b.lockCtx.isLocked = true) :
    ({ b with lockStateUpdateRequest := some { request with answer := some response } }.carryOut
      request.requestedLockState response).Agrees := by
  have hlock : request.requestedLockState = .LOCK := h.refresh request (by simp [hrequest])
  have hsame : ∀ r ∈ some { request with answer := some response }, r.requestedLockState = .LOCK := by
    simpa using hlock
  unfold carryOut
  split
  · rename_i hok
    exact ⟨by simp [hlocked hok, hlock], h.unlocked, hsame⟩
  · exact ⟨h.belief, h.unlocked, hsame⟩

theorem answerArrives {request : LockStateUpdateRequest} {sessionExists : Bool} (h : b.Agrees)
    (hrequest : b.lockStateUpdateRequest = some request)
    (hlocked : sessionExists = true → response.isOK = true → b.lockCtx.isLocked = true) :
    (b.asyncLockCallback (response.asyncUpdate request.requestedLockState) sessionExists).Agrees := by
  have hlock : request.requestedLockState = .LOCK := h.refresh request (by simp [hrequest])
  have hdone : { b with lockStateUpdateRequest := none }.Agrees := ⟨h.belief, h.unlocked, by simp⟩
  unfold asyncLockCallback
  simp only [hrequest]
  split
  · exact h
  · split
    · rename_i hexists
      apply hdone.handleLockResult
      intro hstatus
      cases response with
      | http statusCode failureReason =>
        by_cases h200 : statusCode = 200
        · simpa [LockResponse.asyncUpdate, h200, hlock] using hlocked hexists (by simp [LockResponse.isOK, h200])
        · simp only [LockResponse.asyncUpdate, h200, if_false] at hstatus
          split at hstatus <;> cases hstatus
      | exception what => cases hstatus
    · exact hdone

theorem step {b' : LockBroker} {e : Event} (h : b.Agrees) (hok : b.notOvertaken e = true) (hs : b.step e = some b') :
    b'.Agrees := by
  cases e with
  | createStorage supportsLocks =>
    cases hs
    exact h.congr rfl rfl rfl rfl
  | addSession session =>
    simp only [LockBroker.step] at hs
    split at hs
    · cases hs
      exact h.congr rfl rfl rfl rfl
    · cases hs
  | changeSession session =>
    cases hs
    exact h.congr rfl rfl rfl rfl
  | removeSession id =>
    cases hs
    exact h.congr rfl rfl rfl rfl
  | load id response =>
    obtain ⟨session, -, rfl⟩ := Option.map_eq_some_iff.1 hs
    exact h.lockIfEditing
  | attemptLock id response =>
    obtain ⟨session, -, rfl⟩ := Option.map_eq_some_iff.1 hs
    exact h.attemptLock
  | poll =>
    cases hs
    split
    · exact h.refreshLock
    · exact h
  | disconnect id response =>
    obtain ⟨session, -, rfl⟩ := Option.map_eq_some_iff.1 hs
    exact h.unlockForLast
  | endPolling response =>
    cases hs
    exact h.unlockAtEnd
  | storageHandles response =>
    simp only [LockBroker.step] at hs
    split at hs
    · rename_i request hrequest
      split at hs
      · cases hs
        exact h.storageHandles hrequest fun hsuccess => by simpa [notOvertaken, hsuccess] using hok
      · cases hs
    · cases hs
  | answerArrives sessionExists =>
    simp only [LockBroker.step] at hs
    split at hs
    · rename_i request hrequest
      split at hs
      · rename_i response hanswer
        split at hs
        · cases hs
          refine h.answerArrives hrequest fun hexists hsuccess => ?_
          simpa [notOvertaken, hexists, refreshCarriedOut, hrequest, hanswer, hsuccess] using hok
        · cases hs
      · cases hs
    · cases hs
  | elapse seconds =>
    cases hs
    exact h.congr rfl rfl rfl rfl

end Agrees

/-- In the runs in which no refresh is overtaken by an unlock, the lock is not leaked. -/
theorem notLeaked_of_notOvertaken {b : LockBroker}
    (h : Run.Reachable IsInitial step (fun b e => b.notOvertaken e = true) b) : b.NotLeaked := by
  have hagrees : b.Agrees := by
    refine h.invariant Agrees ?_ ?_
    · rintro b ⟨now, refreshSeconds, rfl⟩
      exact ⟨by simp [LockContext.isLocked], by simp, by simp⟩
    · intro b e b' _ ih hok hs
      exact ih.step hok hs
  exact hagrees.notLeaked

def newBroker : LockBroker := { hasStorage := false, lockCtx := { refreshSeconds := 900 } }

def editor : DocumentBroker.ClientSession := { id := 1, state := .LIVE }

/-- The editor loads the document, and the lock is refreshed when it is due. -/
def refreshDue : List Event :=
  [.createStorage true, .addSession editor, .load 1 (.http 200 ""), .elapse 900, .poll]

/-- The editor leaves while the refresh is under way: the unlock is carried out before it, and the document stays
locked. -/
theorem leaks_lock :
    ¬ ∀ b, Run.Reachable IsInitial step Run.Any b → b.NotLeaked := by
  intro hall
  obtain ⟨b, hreach, hb⟩ : ∃ b, Run.Reachable IsInitial step Run.Any b ∧
      (b.lockStateUpdateRequest.isNone && b.lastUnlocked && decide (b.lastCarriedOut = .LOCK)) = true :=
    Run.Reachable.exists_of_run newBroker
      (refreshDue ++ [.disconnect 1 (.http 200 ""), .removeSession 1, .storageHandles (.http 200 ""),
        .answerArrives false])
      ⟨0, 900, rfl⟩ (by decide)
  simp only [Bool.and_eq_true, Option.isNone_iff_eq_none, decide_eq_true_eq] at hb
  obtain ⟨⟨hnone, hunlocked⟩, hlast⟩ := hb
  have := (hall b hreach).unlocked hnone hunlocked
  simp [hlast] at this

/-- The refresh is answered before the editor leaves. -/
theorem notLeaked_of_editor :
    ∃ b : LockBroker, b.NotLeaked ∧ b.lockStateUpdateRequest = none ∧ b.lastUnlocked = true ∧
    b.lastCarriedOut = .UNLOCK := by
  obtain ⟨b, hreach, hb⟩ : ∃ b, Run.Reachable IsInitial (Run.guarded step notOvertaken) Run.Any b ∧
      (b.lockStateUpdateRequest.isNone && b.lastUnlocked && decide (b.lastCarriedOut = .UNLOCK)) = true :=
    Run.Reachable.exists_of_run newBroker
      (refreshDue ++ [.storageHandles (.http 200 ""), .answerArrives true, .disconnect 1 (.http 200 ""),
        .removeSession 1])
      ⟨0, 900, rfl⟩ (by decide)
  simp only [Bool.and_eq_true, Option.isNone_iff_eq_none, decide_eq_true_eq] at hb
  exact ⟨b, notLeaked_of_notOvertaken (hreach.of_guarded fun _ _ h => h), hb.1.1, hb.1.2, hb.2⟩

end LockBroker

end CollaboraOnline
