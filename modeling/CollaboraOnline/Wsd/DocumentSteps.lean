import CollaboraOnline.Lib.Run
import CollaboraOnline.Wsd.DocumentMoves

/-!
# The handlers as sequences of moves

Each handler of a document broker makes moves of `Storing`, under the conditions of a guard that its caller supplies.
-/

namespace CollaboraOnline

namespace DocumentBroker

open Storing (Guard Moves Move Answers Started)

variable {G : Guard} {b b' : DocumentBroker} {session : ClientSession} {request : UploadRequest}

theorem Moves.of_eq {c c' : Storing} (h : c' = c) : Moves G c c' := h ▸ .refl

/-! ### Results for save requests -/

/-- A result can be sent to the session. -/
def Reaches (session : Option ClientSession) : Prop := ∃ c, session = some c ∧ c.isCloseFrame = false

theorem sendSaveRequestResult_answers {session : Option ClientSession} {id : String}
    (hd : id = "" ∨ Reaches session ∨ G.mayDrop) (success : Bool) (result errorMsg : String) :
    ∃ results, (b.sendSaveRequestResult session id success result errorMsg).storing = b.storing.send results ∧
      Answers G b.storing id success results ∧ ∀ r ∈ results, r.state = b.toBrokerState := by
  unfold sendSaveRequestResult
  cases session with
  | none =>
    refine ⟨[], by simp [Storing.send], ⟨by simp, by simp, fun _ => ?_⟩, by simp⟩
    rcases hd with hid | ⟨c, hc, -⟩ | hd
    · exact .inl hid
    · cases hc
    · exact .inr hd
  | some session =>
    dsimp only
    split
    · rename_i hdropped
      refine ⟨[], by simp [Storing.send], ⟨by simp, by simp, fun _ => ?_⟩, by simp⟩
      rcases hd with hid | ⟨c, hc, hopen⟩ | hd
      · exact .inl hid
      · obtain rfl := Option.some.inj hc
        simpa [hopen] using hdropped.imp_right fun h => absurd h (by simp [hopen])
      · exact .inr hd
    · rename_i hsent
      refine ⟨[⟨session.id, id, success, result, errorMsg, b.toBrokerState⟩], rfl, ⟨by simp, ?_, by simp⟩, by simp⟩
      intro r hr
      obtain rfl := List.mem_singleton.1 hr
      exact ⟨rfl, fun hid => hsent (.inl hid), rfl, rfl, rfl⟩

/-! ### Saving -/

/-- The kit gets the save command, or it is not sent. -/
theorem storing_sendUnoSave (b : DocumentBroker) (session : ClientSession) (a₁ a₂ isAutosave a₄ : Bool)
    (extendedData id : String) :
    ∃ userModified save, (∀ s ∈ save, s.requestId = id) ∧
      (b.sendUnoSave session a₁ a₂ isAutosave a₄ extendedData id).2 = save.isSome ∧
      (b.sendUnoSave session a₁ a₂ isAutosave a₄ extendedData id).1.storing =
        b.storing.requestSave (b.nextStorageAttrs.ofSave userModified isAutosave extendedData id) save := by
  refine ⟨b.isModified || b.haveModifyActivityAfterSaveRequest, ?_⟩
  unfold sendUnoSave forwardToChild
  by_cases hfound : (b.sessions.find session.id).isNone
  · refine ⟨none, by simp, ?_, ?_⟩ <;> simp [prepareUnoSave, hfound]
    simp [Storing.requestSave, storing, Attributes.ofSave, SaveManager.setLastModifiedLocalTime]
    rfl
  · by_cases halive : b.childProcess.alive
    · refine ⟨some (b.prepareUnoSave session a₁ a₂ isAutosave a₄ extendedData id).2, by simp [prepareUnoSave], ?_, ?_⟩
      · simp [prepareUnoSave, hfound, halive]
      · simp [prepareUnoSave, hfound, halive]
        by_cases hact : b.docState.activity = .None
        · rw [if_pos hact, storing_startActivity]
          rfl
        · rw [if_neg hact]
          rfl
    · refine ⟨none, by simp, ?_, ?_⟩ <;> simp [prepareUnoSave, hfound, halive]
      simp [Storing.requestSave, storing, Attributes.ofSave, SaveManager.setLastModifiedLocalTime]
      rfl

theorem sendUnoSave_moves (hs : G.save b.storing) (a₁ a₂ isAutosave a₄ : Bool) :
    Moves G b.storing (b.sendUnoSave session a₁ a₂ isAutosave a₄ "" "").1.storing := by
  obtain ⟨userModified, save, hid, -, hstoring⟩ :=
    storing_sendUnoSave b session a₁ a₂ isAutosave a₄ "" ""
  rw [hstoring]
  exact .single (.requestSave userModified isAutosave save hs hid)

/-- The save command of a client that is handed to `manualSave`. -/
theorem manualSave_moves (hs : b.docState.activity ≠ .Save → G.save b.storing) {id : String}
    (hd : id = "" ∨ session.isCloseFrame = false ∨ G.mayDrop) (a₁ a₂ : Bool) (extendedData : String) :
    Moves G b.storing
      ({ b with saveRequestIds := id :: b.saveRequestIds }.manualSave session a₁ a₂ extendedData id).1.storing := by
  set b₁ : DocumentBroker := { b with saveRequestIds := id :: b.saveRequestIds } with hb₁
  have hd' : id = "" ∨ Reaches (some session) ∨ G.mayDrop :=
    hd.imp_right fun h => h.imp_left fun h => ⟨session, rfl, h⟩
  unfold manualSave
  split
  · rename_i hact
    obtain ⟨userModified, save, hid, hsome, hstoring⟩ :=
      storing_sendUnoSave b₁ session a₁ a₂ false false extendedData id
    generalize b₁.sendUnoSave session a₁ a₂ false false extendedData id = p at hsome hstoring
    obtain ⟨b₂, sent⟩ := p
    dsimp only at hsome hstoring
    cases save with
    | some save =>
      subst hsome
      obtain rfl : save.requestId = id := hid save rfl
      dsimp only [Option.isSome]
      rw [hstoring]
      exact .single (.clientSave userModified false extendedData save (hs hact))
    | none =>
      subst hsome
      dsimp only [Option.isSome]
      by_cases hempty : id = ""
      · subst hempty
        rw [if_pos rfl, hstoring]
        have hans : Answers G b.storing "" false [] := ⟨by simp, by simp, fun _ => .inl rfl⟩
        have hmove := Move.clientSaveNotSent userModified false extendedData "" (hs hact) hans
        rw [Storing.send_nil] at hmove
        exact .single hmove
      · rw [if_neg hempty]
        dsimp only
        obtain ⟨results, hsend, hans, -⟩ := sendSaveRequestResult_answers
          (b := { b₂ with nextStorageAttrs := { b₂.nextStorageAttrs with requestId := "" } }) hd' false "savefailed"
          "Could not start saving the document"
        rw [hsend]
        have hans' : Answers G b.storing id false results := by
          refine ⟨hans.length_le, fun r hr => ?_, hans.of_nil⟩
          obtain ⟨h₁, h₂, h₃, h₄, h₅⟩ := hans.of_mem r hr
          have hacked : b₂.storing.acknowledged = b.storing.acknowledged := by rw [hstoring]; rfl
          have hversions : b₂.storing.savedVersions = b.storing.savedVersions := by rw [hstoring]; rfl
          exact ⟨h₁, h₂, h₃, h₄.trans hacked, h₅.trans hversions⟩
        have hmove := Move.clientSaveNotSent userModified false extendedData id (hs hact) hans'
        have hcleared : ({ b₂ with nextStorageAttrs := { b₂.nextStorageAttrs with requestId := "" } } :
            DocumentBroker).storing = { b₂.storing with
              nextStorageAttrs := { b₂.storing.nextStorageAttrs with requestId := "" } } := rfl
        rw [hcleared, hstoring]
        exact .single hmove
  · obtain ⟨results, hsend, hans, -⟩ := sendSaveRequestResult_answers (b := b₁) hd' false "save_in_progress"
      "The document is already saving"
    rw [hsend]
    exact .single (.refuseSave id ⟨hans.length_le, hans.of_mem, hans.of_nil⟩)

theorem clientSave_moves (hs : session.isWritable = true → b.docState.activity ≠ .Save → G.save b.storing)
    {id : String} (hd : id = "" ∨ session.isCloseFrame = false ∨ G.mayDrop) (a₁ a₂ : Bool) (extendedData : String) :
    Moves G b.storing (b.clientSave session a₁ a₂ extendedData id).storing := by
  unfold clientSave
  extract_lets b₁
  split
  · have hd' : id = "" ∨ Reaches (some session) ∨ G.mayDrop :=
      hd.imp_right fun h => h.imp_left fun h => ⟨session, rfl, h⟩
    obtain ⟨results, hsend, hans, -⟩ := sendSaveRequestResult_answers
      (b := b₁.sendTextFrame session "error: cmd=save kind=savefailed") hd' false "savefailed" "No write permission"
    rw [hsend, storing_sendTextFrame]
    rw [storing_sendTextFrame] at hans
    exact .single (.refuseSave id ⟨hans.length_le, hans.of_mem, hans.of_nil⟩)
  · rename_i hwritable
    exact manualSave_moves (hs (by simpa using hwritable)) hd a₁ a₂ extendedData

/-- An autosave asks for a save. -/
def autoSaves (b : DocumentBroker) (force : Bool) : Bool :=
  b.docState.activity ≠ .Save && b.canSaveToDisk = .Yes && (b.isModified || force) && b.autoSaveSession.isSome &&
    (force || b.isTimeToSave)

theorem activity_of_autoSaves {force : Bool} (h : b.autoSaves force = true) : b.docState.activity ≠ .Save := by
  simp only [autoSaves, Bool.and_eq_true, decide_eq_true_eq] at h
  exact h.1.1.1.1

/-- An autosave requests a save, or its command is not sent, or nothing is done. -/
theorem autoSave_cases (force a finalWrite : Bool) :
    (b.autoSave force a finalWrite).1.storing = b.storing ∨
      b.autoSaves force = true ∧ ∃ userModified isAutosave save, (∀ s ∈ save, s.requestId = "") ∧
        (b.autoSave force a finalWrite).2 = save.isSome ∧
        (b.autoSave force a finalWrite).1.storing =
          b.storing.requestSave (b.nextStorageAttrs.ofSave userModified isAutosave "" "") save := by
  unfold autoSave
  split
  · exact .inl rfl
  · rename_i hact
    extract_lets b₁
    split
    · exact .inl rfl
    · rename_i hcan
      have hcan : b.canSaveToDisk = .Yes := not_not.1 hcan
      split
      · exact .inl rfl
      · rename_i hmodified
        have hmodified : (b.isModified || force) = true := by
          rw [show b₁.isModified = b.isModified from rfl] at hmodified
          cases hm : b.isModified <;> simp_all
        split
        · exact .inl rfl
        · rename_i session hsession
          have hsession : b.autoSaveSession = some session := hsession
          have hsaves (htime : (force || b.isTimeToSave) = true) : b.autoSaves force = true := by
            simp [autoSaves, hact, hcan, hmodified, hsession, htime]
          split
          · rename_i hforce
            obtain ⟨userModified, save, hid, hsome, hstoring⟩ :=
              storing_sendUnoSave b₁ session true a false finalWrite "" ""
            exact .inr ⟨hsaves (by simp [hforce]), userModified, false, save, hid, hsome, hstoring⟩
          · split
            · rename_i htime
              have htime : b.isTimeToSave = true := htime
              obtain ⟨userModified, save, hid, hsome, hstoring⟩ :=
                storing_sendUnoSave b₁ session true true true finalWrite "" ""
              exact .inr ⟨hsaves (by simp [htime]), userModified, true, save, hid, hsome, hstoring⟩
            · exact .inl rfl

theorem autoSave_moves (force : Bool) (hs : b.autoSaves force = true → G.save b.storing) (a finalWrite : Bool) :
    Moves G b.storing (b.autoSave force a finalWrite).1.storing := by
  rcases autoSave_cases (b := b) force a finalWrite with h | ⟨hsaves, userModified, isAutosave, save, hid, -, h⟩
  · exact Moves.of_eq h
  · rw [h]
    exact .single (.requestSave userModified isAutosave save (hs hsaves) hid)

/-- An autosave that is not sent keeps what an upload needs. -/
theorem upload_autoSave {isPutFile : Bool} (hu : G.upload b.storing isPutFile) (force a finalWrite : Bool)
    (hsent : (b.autoSave force a finalWrite).2 = false) :
    G.upload (b.autoSave force a finalWrite).1.storing isPutFile := by
  rcases autoSave_cases (b := b) force a finalWrite with h | ⟨-, userModified, isAutosave, save, -, hsome, h⟩
  · rwa [h]
  · rw [hsent] at hsome
    obtain rfl : save = none := Option.isSome_eq_false_iff.1 hsome.symm |> Option.isNone_iff_eq_none.1
    rw [h]
    exact G.upload_notSent userModified isAutosave hu

theorem startRenameFileCommand_moves
    (hs : b.docState.activity = .None → b.renameSession.isSome = true → G.save b.storing) :
    Moves G b.storing b.startRenameFileCommand.storing := by
  unfold startRenameFileCommand
  by_cases hact : b.docState.activity = .None
  · rw [startActivity_of_none hact]
    dsimp only
    set b₁ : DocumentBroker := { b with docState := b.docState.setActivity .Rename }
    have h₁ : (b₁.blockUI "rename").storing = b.storing := rfl
    have hrename : (b₁.blockUI "rename").renameSession = b.renameSession := rfl
    split
    · rw [storing_endRenameFileCommand, storing_broadcastSaveResult, h₁]
    · rename_i session hsession
      rw [hrename] at hsession
      have hs₁ : G.save (b₁.blockUI "rename").storing := by
        rw [h₁]
        exact hs hact (by simp [hsession])
      simpa [h₁] using sendUnoSave_moves hs₁ false true false true
  · unfold startActivity
    rw [if_pos hact]
    exact .refl

theorem handleRenameFileCommand_moves {newFilename : String}
    (hs : newFilename ≠ "" → b.docState.activity = .None → G.save b.storing) :
    Moves G b.storing (b.handleRenameFileCommand session newFilename).storing := by
  unfold handleRenameFileCommand
  split
  · rw [storing_sendTextFrame]
  · rename_i hname
    split
    · rw [storing_sendTextFrame]
    · extract_lets b₁
      change Moves G b₁.storing (if b₁.docState.activity = .None then b₁.startRenameFileCommand else b₁).storing
      split
      · exact startRenameFileCommand_moves fun hact _ => hs hname hact
      · exact .refl

theorem switchMode_moves {mode : String}
    (hs : mode = "offline" → b.sessions.list.length ≤ 1 → b.docState.activity = .None → G.save b.storing) :
    Moves G b.storing (b.switchMode session mode).storing := by
  unfold switchMode
  split
  · rw [storing_startSwitchingToOnline]
  · split
    · rename_i hmode
      split
      · rw [storing_sendTextFrame]
      · rename_i hviews
        unfold startSwitchingToOffline
        split
        · exact .refl
        · rename_i hact
          rw [startActivity_of_none (not_not.1 hact)]
          dsimp only
          set b₁ : DocumentBroker := { b with docState := b.docState.setActivity .SwitchingToOffline }
          have h₁ : (b₁.blockUI "switchingtooffline").storing = b.storing := rfl
          have hs₁ : G.save (b₁.blockUI "switchingtooffline").storing := by
            rw [h₁]
            exact hs hmode (not_lt.1 hviews) (not_not.1 hact)
          simpa [h₁] using sendUnoSave_moves hs₁ false true false true
    · exact .refl

/-! ### Uploading -/

theorem storing_asyncUploadFailed (h : b.uploadRequest = some request) (result : UploadResult) :
    (b.asyncUploadFailed result).storing = b.storing.failUpload request := by
  unfold asyncUploadFailed
  rw [h]
  dsimp only
  rw [storing_endFailedActivity]
  rfl

/-- An upload starts or is refused, or nothing is done because the session may not edit. -/
theorem uploadToStorageInternal_cases (b : DocumentBroker) (session : ClientSession) (path name : String)
    (isRename isExport force : Bool) :
    (b.uploadToStorageInternal session path name isRename isExport force).storing = b.storing ∨
      ∃ request : UploadRequest, request.attempt = b.storing.attempts ∧
        (!request.isSaveAs && !request.isRename) = (path == "" && !isRename) ∧
        ((∃ file, (b.uploadToStorageInternal session path name isRename isExport force).storing =
            b.storing.refuseUpload request file b.isUnloading force) ∨
          ∃ upload, Started b.storing request upload b.isUnloading force ∧
            (b.uploadToStorageInternal session path name isRename isExport force).storing =
              b.storing.startUpload request upload b.isUnloading force) := by
  unfold uploadToStorageInternal
  split
  · exact .inl rfl
  · dsimp only
    set request : UploadRequest := ⟨b.storage.attempts, (b.storage.fileUploading.map LocalFile.modifiedTime).getD 0,
      session.id, path != "", isExport, isRename, false⟩ with hrequest
    refine .inr ⟨request, rfl, by simp [hrequest, bne], ?_⟩
    set b₁ := b.prepareUpload session (path != "") isRename isExport force with hb₁
    have hrequest₁ : b₁.uploadRequest = some request := rfl
    rcases b₁.storage.uploadLocalFileToStorageAsync_cases path name isRename b₁.lastStorageAttrs with
      ⟨file, reason, hupload⟩ | ⟨file, hfree, hfile, hupload⟩
    · rw [hupload]
      dsimp only
      have hfailed := storing_asyncUploadFailed (b := { b₁ with storage :=
        { b₁.storage with attempts := b₁.storage.attempts + 1, lastAttempt := some ⟨file, false⟩ } }) hrequest₁
        ⟨.FAILED, reason, "", ""⟩
      exact .inl ⟨file, congrArg (fun c : Storing => { c with sizeAsUploaded := 0 }) hfailed⟩
    · rw [hupload]
      have hstarted : Started b.storing request (b₁.storage.uploadRequest path name isRename b₁.lastStorageAttrs file)
          b.isUnloading force := by
        refine ⟨hfree, rfl, rfl, rfl, rfl, fun hs hr => ?_, fun hput => ?_⟩
        · have hpath : path = "" := by simpa [hrequest] using hs
          have hren : isRename = false := hr
          simp [WopiStorage.uploadRequest, HttpUpload.isPutFile, hpath, hren]
        · have hplain : ¬(path ≠ "" ∧ name ≠ "") := by
            intro hboth
            simp [WopiStorage.uploadRequest, HttpUpload.isPutFile, hboth.1, hboth.2] at hput
          rw [WopiStorage.fileToRead, if_neg hplain] at hfile
          exact hfile
      exact .inr ⟨_, hstarted, rfl⟩

theorem uploadToStorageInternal_moves {path name : String} {isRename : Bool}
    (hu : G.upload b.storing (path == "" && !isRename)) (isExport force : Bool) :
    Moves G b.storing (b.uploadToStorageInternal session path name isRename isExport force).storing := by
  rcases b.uploadToStorageInternal_cases session path name isRename isExport force with
    h | ⟨request, hattempt, hplain, ⟨file, h⟩ | ⟨upload, hstarted, h⟩⟩
  · exact Moves.of_eq h
  · rw [h]
    exact .single (.refuseUpload request file b.isUnloading force (hplain ▸ hu) hattempt)
  · rw [h]
    exact .single (.startUpload b.isUnloading force (hplain ▸ hu) hstarted)

/-- Whether an upload that is not forced is not throttled. -/
def mayUpload (b : DocumentBroker) : Bool :=
  b.storageManager.lastUploadSuccessful || b.storageManager.canUploadNow b.now b.isUnloading

theorem uploadToStorage_moves {force : Bool} (hu : force = true ∨ b.mayUpload = true → G.upload b.storing true) :
    Moves G b.storing (b.uploadToStorage session force).storing := by
  unfold uploadToStorage
  split
  · rename_i h
    have hmay : force = true ∨ b.mayUpload = true := by simpa [mayUpload, or_assoc] using h
    exact uploadToStorageInternal_moves (by simpa using hu hmay) false force
  · exact .refl

theorem renameInStorage_moves (hu : G.upload b.storing false) : Moves G b.storing b.renameInStorage.storing := by
  unfold renameInStorage
  split
  · rw [storing_endRenameFileCommand, storing_broadcastSaveResult]
  · exact uploadToStorageInternal_moves (by simpa using hu) false false

/-- The request id of the version to be uploaded is answered. -/
theorem answerCurrent_moves {session : Option ClientSession} {success : Bool}
    (hd : b.currentStorageAttrs.requestId = "" ∨ Reaches session ∨ G.mayDrop)
    (hup : success = true → b.needToUploadToStorage = .No) (result errorMsg : String) :
    Moves G b.storing (b.sendSaveRequestResult session b.currentStorageAttrs.requestId success result
      errorMsg).storing.clearCurrentId := by
  obtain ⟨results, hsend, hans, hstate⟩ := sendSaveRequestResult_answers (b := b) hd success result errorMsg
  rw [hsend]
  refine .single (.answerCurrent hans fun hs r hr => ?_)
  rw [hstate r hr]
  exact hup hs

theorem checkAndUploadToStorage_moves {justSaved : Bool}
    (hr : b.docState.activity = .Rename → G.upload b.storing false)
    (hu : b.mayUpload = true → G.upload b.storing true)
    (hd : b.currentStorageAttrs.requestId = "" ∨ session.isCloseFrame = false ∨ G.mayDrop) :
    Moves G b.storing (b.checkAndUploadToStorage session justSaved).storing := by
  unfold checkAndUploadToStorage
  extract_lets needToUpload b₁ modified b₂ _ b₃
  have h₁ : b₁ = b ∨ b₁ = b.endActivity := by
    dsimp only [b₁]
    split
    · exact .inr rfl
    · exact .inl rfl
  have hstoring : b₁.storing = b.storing := by rcases h₁ with h | h <;> exact (congrArg storing h).trans rfl
  split
  · rename_i hact
    exact renameInStorage_moves (hr hact.1)
  · split
    · rw [storing_switchToOffline]
    · split
      · exact Moves.of_eq hstoring
      · split
        · rw [← hstoring]
          refine uploadToStorage_moves fun hmay => ?_
          rw [hstoring]
          have hmay₁ : b₁.mayUpload = b.mayUpload := by
            rcases h₁ with h | h <;> exact (congrArg mayUpload h).trans rfl
          exact hu (by simpa [hmay₁] using hmay)
        · rename_i hneed
          split
          · rw [storing_disconnectClosedSessions, ← hstoring]
            have hd' : b₁.currentStorageAttrs.requestId = "" ∨ Reaches (some session) ∨ G.mayDrop := by
              have hid : b₁.currentStorageAttrs = b.currentStorageAttrs := by
                rcases h₁ with h | h <;> exact (congrArg (fun c : DocumentBroker => c.currentStorageAttrs) h).trans
                  rfl
              rw [hid]
              exact hd.imp_right fun h => h.imp_left fun h => ⟨session, rfl, h⟩
            refine answerCurrent_moves hd' (fun _ => ?_) "saved" ""
            have hno : b.needToUploadToStorage = .No := not_not.1 hneed
            rcases h₁ with h | h <;> rw [h] <;> exact hno
          · exact Moves.of_eq hstoring

/-! ### Save responses -/

/-- What the guard needs to know when the kit answers a save command. -/
def ResponseAllowed (G : Guard) (b : DocumentBroker) (index : Nat) (response : SaveResponse) : Prop :=
  ∀ save session, b.childProcess.saves[index]? = some save → b.sessions.find save.session = some session →
    G.response b.storing save response ∧
    ((((b.storing.dropSave index).noteSaved save.requestId).takeSave response).currentStorageAttrs.requestId = "" ∨
      session.isCloseFrame = false ∨ G.mayDrop) ∧
    (b.docState.activity = .Rename →
      G.upload (((b.storing.dropSave index).noteSaved save.requestId).takeSave response) false) ∧
    (b.mayUpload = true → G.upload (((b.storing.dropSave index).noteSaved save.requestId).takeSave response) true)

theorem storing_takeSaveResponse (response : SaveResponse) :
    (b.takeSaveResponse response).storing = b.storing.takeSave response := by
  unfold takeSaveResponse Storing.takeSave Storing.renameFile WopiStorage.renameFileToUpload
  cases hm : response.wasModified <;> cases hf : b.storage.fileToUpload <;>
    simp [storing, Attributes.answered, hm, hf, SaveManager.setLastSaveResult]

theorem fileUploading_renameFileToUpload (st : WopiStorage) :
    st.renameFileToUpload.fileUploading = st.fileToUpload.or st.fileUploading := by
  unfold WopiStorage.renameFileToUpload
  cases hf : st.fileToUpload <;> simp

theorem reportSaveFailed_moves {response : SaveResponse}
    (hd : b.currentStorageAttrs.requestId = "" ∨ session.isCloseFrame = false ∨ G.mayDrop) :
    ∃ results, (b.reportSaveFailed session response).storing = (b.storing.send results).clearCurrentId ∧
      Moves G b.storing (b.reportSaveFailed session response).storing := by
  unfold reportSaveFailed
  set b₁ := (b.sendTextFrame session "error: cmd=storage kind=savefailed").broadcastSaveResult false
    "Could not save the document" "" with hb₁
  have hstoring : b₁.storing = b.storing := by rw [hb₁, storing_broadcastSaveResult, storing_sendTextFrame]
  have hid : b₁.currentStorageAttrs = b.currentStorageAttrs := by
    rw [hb₁]
    unfold sendTextFrame
    split <;> rfl
  have hd : b₁.currentStorageAttrs.requestId = "" ∨ Reaches (some session) ∨ G.mayDrop := by
    rw [hid]
    exact hd.imp_right fun h => h.imp_left fun h => ⟨session, rfl, h⟩
  obtain ⟨results, hsend, hans, -⟩ := sendSaveRequestResult_answers hd false
    (if response.result = "" then "savefailed" else response.result) "Could not save the document"
  have hcleared := congrArg Storing.clearCurrentId hsend
  rw [hstoring] at hcleared hans
  refine ⟨results, hcleared, ?_⟩
  have hmove : Moves G b.storing (b.storing.send results).clearCurrentId := by
    rw [hid] at hans
    exact .single (.answerCurrent hans (fun h => absurd h (by simp)))
  rw [← hcleared] at hmove
  exact hmove

theorem handleSaveResponse_moves {response : SaveResponse}
    (hopen : (b.storing.takeSave response).currentStorageAttrs.requestId = "" ∨ session.isCloseFrame = false ∨
    G.mayDrop)
    (hr : b.docState.activity = .Rename → G.upload (b.storing.takeSave response) false)
    (hu : b.mayUpload = true → G.upload (b.storing.takeSave response) true) :
    Moves G (b.storing.takeSave response) (b.handleSaveResponse session response).storing := by
  unfold handleSaveResponse
  extract_lets b₁ b₂
  have h₁ : b₁.storing = b.storing.takeSave response := storing_takeSaveResponse response
  rw [← h₁] at hr hu hopen ⊢
  have hmoves : Moves G b₁.storing b₂.storing ∧ b₂.docState = b₁.docState ∧ b₂.mayUpload = b₁.mayUpload ∧
      (∀ isPutFile, G.upload b₁.storing isPutFile → G.upload b₂.storing isPutFile) ∧
      (b₂.storing.currentStorageAttrs.requestId = "" ∨ session.isCloseFrame = false ∨ G.mayDrop) := by
    dsimp only [b₂]
    split
    · exact ⟨.refl, rfl, rfl, fun _ h => h, hopen⟩
    · have hstate : (b₁.reportSaveFailed session response).docState = b₁.docState ∧
          (b₁.reportSaveFailed session response).mayUpload = b₁.mayUpload := by
        unfold reportSaveFailed sendSaveRequestResult sendTextFrame mayUpload
        dsimp only
        split_ifs <;> exact ⟨rfl, rfl⟩
      obtain ⟨results, hstoring, hmove⟩ := reportSaveFailed_moves hopen
      refine ⟨hmove, hstate.1, hstate.2, fun isPutFile h => hstoring ▸ G.upload_answered results h, .inl ?_⟩
      rw [hstoring]
      rfl
  obtain ⟨hmoves, hact, hmay, hup, hopen⟩ := hmoves
  have hact₁ : b₁.docState = b.docState := rfl
  have hmay₁ : b₁.mayUpload = b.mayUpload := rfl
  refine hmoves.trans (checkAndUploadToStorage_moves (fun h => ?_) (fun h => ?_) hopen)
  · exact hup _ (hr (by rwa [hact, hact₁] at h))
  · exact hup _ (hu (by rwa [hmay, hmay₁] at h))

/-- The session of a save command that the kit answers is gone. -/
def dropsResponse (b : DocumentBroker) (index : Nat) : Bool :=
  (b.childProcess.saves[index]?).any fun save => (b.sessions.find save.session).isNone

/-- The moves after the answer to a save was taken. -/
theorem saveResponse_taken {index : Nat} {response : SaveResponse} (ha : ResponseAllowed G b index response)
    {save : SaveCommand} (hsave : b.childProcess.saves[index]? = some save)
    (hsession : b.sessions.find save.session = some session) (h : b.saveResponse index response = some b') :
    Moves G (((b.storing.dropSave index).noteSaved save.requestId).takeSave response) b'.storing := by
  obtain ⟨-, hopen, hr, hu⟩ := ha save session hsave hsession
  simp only [saveResponse, hsave, hsession] at h
  obtain rfl := Option.some.inj h
  set b₁ : DocumentBroker := { b with
    childProcess := b.childProcess.dropSave index
    savedVersions := (save.requestId, b.storage.renameFileToUpload.fileUploading) :: b.savedVersions } with hb₁
  have hstoring : b₁.storing = (b.storing.dropSave index).noteSaved save.requestId := by
    simp [hb₁, storing, Storing.noteSaved, Storing.dropSave, fileUploading_renameFileToUpload, ChildProcess.dropSave]
  rw [← hstoring] at hr hu hopen ⊢
  exact handleSaveResponse_moves hopen hr hu

theorem saveResponse_moves {index : Nat} {response : SaveResponse} (ha : ResponseAllowed G b index response)
    (hdrop : b.dropsResponse index = true → G.drop b.storing) (h : b.saveResponse index response = some b') :
    Moves G b.storing b'.storing := by
  cases hsave : b.childProcess.saves[index]? with
  | none => simp [saveResponse, hsave] at h
  | some save =>
    cases hsession : b.sessions.find save.session with
    | none =>
      have hgone : b' = { b with childProcess := b.childProcess.dropSave index } := by
        simpa [saveResponse, hsave, hsession] using h.symm
      rw [hgone]
      exact .single (.dropSave index (hdrop (by simp [dropsResponse, hsave, hsession])))
    | some session =>
      exact .head (.takeSave index save response hsave (ha save session hsave hsession).1)
        (saveResponse_taken ha hsave hsession h)

/-! ### Results of uploads -/

theorem answers_congr {c c' : Storing} {id : String} {success : Bool} {results : List SaveRequestResult}
    (h : Answers G c id success results) (hacked : c.acknowledged = c'.acknowledged)
    (hversions : c.savedVersions = c'.savedVersions) : Answers G c' id success results :=
  ⟨h.length_le, fun r hr => hacked ▸ hversions ▸ h.of_mem r hr, h.of_nil⟩

/-- What the guard needs to know when the result of an upload comes. -/
def ResultAllowed (G : Guard) (b : DocumentBroker) (success : Bool) : Prop :=
  ∀ request, b.uploadRequest = some request →
    G.result b.storing request success ∧
    (b.lastStorageAttrs.requestId = "" ∨ Reaches (b.uploadSession request) ∨ G.mayDrop) ∧
    (success = true → b.docState.activity = .Rename → (!request.isSaveAs && !request.isRename) = true →
      ∀ results, G.upload ((((b.storing.takeResult request true).send results).clearLastId).markUploaded request)
        false)

/-- The broker when the result of the upload is taken. -/
def takeResult (b : DocumentBroker) (request : UploadRequest) (success : Bool) : DocumentBroker :=
  { b with
    uploadRequest := some { request with completed := true }
    storageManager := b.storageManager.setLastUploadResult b.now success }

/-- The result is sent for the request id of the upload. -/
theorem answerLast (success : Bool)
    (hd : b.lastStorageAttrs.requestId = "" ∨ Reaches (b.uploadSession request) ∨ G.mayDrop)
    (text errorMsg : String) : ∃ results, Answers G b.storing b.lastStorageAttrs.requestId success results ∧
      ((b.takeResult request success).sendSaveRequestResult ((b.takeResult request success).uploadSession request)
        b.lastStorageAttrs.requestId success text errorMsg).storing =
          (b.storing.takeResult request success).send results := by
  obtain ⟨results, hsend, hans, -⟩ :=
    sendSaveRequestResult_answers (b := b.takeResult request success) hd success text errorMsg
  exact ⟨results, answers_congr hans rfl rfl, hsend⟩

theorem storing_endOfUpload : ∃ calls : List StopCall, (∀ call ∈ calls, call.Justified) ∧
    ((if (b.docState.isMarkedToDestroy || b.sessions.list.isEmpty) && !b.isPossiblyModified then
        b.stop .handleUploadToStorageSuccessful "unloading" else b).disconnectClosedSessions).storing =
      calls.foldl Storing.noteStop b.storing := by
  rw [storing_disconnectClosedSessions]
  split
  · rename_i h
    refine ⟨[⟨.handleUploadToStorageSuccessful, "unloading", b.toBrokerState⟩], ?_, storing_stop (by decide) _⟩
    intro call hcall
    obtain rfl := List.mem_singleton.1 hcall
    simpa [StopCall.Justified] using (Bool.and_eq_true_iff.1 h).2
  · exact ⟨[], by simp, rfl⟩

theorem noteStop_moves {c : Storing} {calls : List StopCall} (h : ∀ call ∈ calls, call.Justified) :
    Moves G c (calls.foldl Storing.noteStop c) := by
  induction calls generalizing c with
  | nil => exact .refl
  | cons call calls ih =>
    exact .head (.stop call (h call List.mem_cons_self)) (ih fun call' h' => h call' (List.mem_cons_of_mem _ h'))

theorem handleUploadToStorageSuccessful_moves {result : UploadResult} (hreq : b.uploadRequest = some request)
    (ha : ResultAllowed G b true) :
    Moves G b.storing ((b.takeResult request true).handleUploadToStorageSuccessful
      { request with completed := true } result).storing := by
  obtain ⟨hresult, hd, hrename⟩ := ha request hreq
  obtain ⟨results, hans, hsend⟩ := answerLast true hd "saved" ""
  unfold handleUploadToStorageSuccessful
  extract_lets b₁ _ b₂ b₃ b₄
  have h₂ : b₂.storing = ((b.storing.takeResult request true).send results).clearLastId :=
    congrArg Storing.clearLastId hsend
  have hact₁ : b₁.docState = b.docState := by
    dsimp only [b₁]
    unfold sendSaveRequestResult
    split
    · rfl
    · split <;> rfl
  have h₃ : Moves G b.storing b₃.storing := by
    dsimp only [b₃]
    split
    · rename_i hplain
      have hmove := Relation.ReflTransGen.single (Move.uploaded hreq hplain hresult hans)
      unfold documentUploaded
      extract_lets b₅
      have h₅ : b₅.storing = (((b.storing.takeResult request true).send results).clearLastId).markUploaded
          request := by
        have := congrArg (Storing.markUploaded · request) h₂
        exact this
      rw [← h₅] at hmove
      have hact₅ : b₅.docState.activity = b.docState.activity := congrArg DocumentState.activity hact₁
      split
      · rename_i hact
        refine hmove.trans (renameInStorage_moves ?_)
        rw [h₅]
        exact hrename rfl (hact₅ ▸ hact) hplain results
      · rwa [storing_switchToOffline]
      · exact hmove
    · rename_i hplain
      have hmove := Relation.ReflTransGen.single
        (Move.otherUploaded hreq (by simpa using hplain) hresult hans)
      rw [← h₂] at hmove
      split
      · rwa [storing_documentRenamed]
      · rwa [storing_documentSavedAs]
  have h₄ : b₄.storing = b₃.storing := by
    dsimp only [b₄]
    split <;> rfl
  obtain ⟨calls, hjustified, hend⟩ := storing_endOfUpload (b := b₄)
  rw [← h₄] at h₃
  exact h₃.trans (hend ▸ noteStop_moves hjustified)

theorem handleUploadToStorageFailed_moves {result : UploadResult} (hreq : b.uploadRequest = some request)
    (ha : ResultAllowed G b false) :
    Moves G b.storing ((b.takeResult request false).handleUploadToStorageFailed
      { request with completed := true } result).storing := by
  obtain ⟨hresult, hd, -⟩ := ha request hreq
  obtain ⟨results, hans, hsend⟩ := answerLast false hd "savefailed" result.reason
  unfold handleUploadToStorageFailed
  extract_lets b₁ _ b₂ session b₃ b₄
  have h₂ : b₂.storing = ((b.storing.takeResult request false).send results).clearLastId :=
    congrArg Storing.clearLastId hsend
  have h₃ : b₃.storing = b₂.storing := by
    dsimp only [b₃]
    split
    · rw [storing_sendToSession, storing_endRenameFileCommand]
    · rfl
  have h₄ : b₄.storing = ((b.storing.takeResult request false).send results).clearLastId := by
    rw [← h₂, ← h₃]
    exact storing_handleFailedResult result
  have hmove := Move.uploadFailed hreq hresult hans
  rw [← h₄] at hmove
  exact .single hmove

theorem asyncUploadCallback_complete_moves {result : UploadResult} {success : Bool}
    (hok : result.result = .OK ↔ success = true) (ha : ResultAllowed G b success) :
    Moves G b.storing (b.asyncUploadCallback (.Complete result)).storing := by
  unfold asyncUploadCallback
  dsimp only
  split
  · exact .refl
  · rename_i request hreq
    unfold handleUploadToStorageResponse
    extract_lets b₁
    have h₁ : b₁ = b.takeResult request success := by
      have hbool : (result.result == UploadResultCode.OK) = success := by
        rw [Bool.eq_iff_iff, beq_iff_eq, hok]
      simp only [b₁, hbool]
      rfl
    rw [h₁]
    cases success with
    | true =>
      rw [if_pos (hok.2 rfl)]
      exact handleUploadToStorageSuccessful_moves hreq ha
    | false =>
      rw [if_neg (by simpa using hok)]
      exact handleUploadToStorageFailed_moves hreq ha

/-- What the guard needs to know when an upload finishes: the storage has taken note of it. -/
def FinishAllowed (G : Guard) (b : DocumentBroker) (upload : HttpUpload) (statusCode : Nat) : Prop :=
  ∀ modifiedTime, ResultAllowed G { b with storage :=
    { b.storage with
      uploadHttpSession := none
      sessions := b.storage.sessions.erase upload
      acknowledged := if statusCode = 200 ∧ upload.isPutFile then upload.file :: b.storage.acknowledged
        else b.storage.acknowledged
      modifiedTime := modifiedTime } } (statusCode == 200)

theorem mem_of_findUpload {attempt : Nat} {upload : HttpUpload} (h : b.findUpload attempt = some upload) :
    upload ∈ b.storing.sessions := List.mem_of_find?_eq_some h

theorem uploadFinished_moves {attempt : Nat} {response : WopiResponse}
    (ha : ∀ upload, b.findUpload attempt = some upload → FinishAllowed G b upload response.statusCode)
    (h : b.uploadFinished attempt response = some b') : Moves G b.storing b'.storing := by
  unfold uploadFinished at h
  split at h
  · cases h
  · rename_i upload hfind
    split at h
    · cases h
    · rename_i hconnect
      obtain ⟨modifiedTime, result, hok, hfinished⟩ := b.storage.finished_cases upload response
      rw [hfinished] at h
      obtain rfl := Option.some.inj h
      have hstatus : upload.connectFailed = true → response.statusCode = 0 := by
        intro hfailed
        simpa [hfailed] using hconnect
      refine .head (.finish response.statusCode (mem_of_findUpload hfind) hstatus) ?_
      have hallowed := ha upload hfind modifiedTime
      exact asyncUploadCallback_complete_moves (by rw [hok, beq_iff_eq]) hallowed

theorem uploadConnectFailed_moves {attempt : Nat} (h : b.uploadConnectFailed attempt = some b') :
    Moves G b.storing b'.storing := by
  unfold uploadConnectFailed at h
  split at h
  · cases h
  · rename_i upload hfind
    set b₁ : DocumentBroker := { b with storage := (b.storage.connectFailed upload).1 } with hb₁
    have h : some (b₁.asyncUploadFailed ⟨.FAILED, "Connection failed.", "", ""⟩) = some b' := h
    obtain rfl := Option.some.inj h
    refine .head (.failConnection (mem_of_findUpload hfind)) ?_
    cases hreq : b₁.uploadRequest with
    | none =>
      unfold asyncUploadFailed
      rw [hreq]
      exact .refl
    | some request =>
      rw [storing_asyncUploadFailed hreq]
      exact .single (.failUpload (c := b₁.storing) hreq)

/-! ### Unloading -/

/-- Where the save command is not sent, an autosave changes what the next one starts from. -/
theorem autoSave_notSent (b : DocumentBroker) (force a finalWrite : Bool)
    (hsent : (b.autoSave force a finalWrite).2 = false) :
    ∃ saveManager nextStorageAttrs, saveManager.request = b.saveManager.request ∧
      (b.autoSave force a finalWrite).1 =
        { b with saveManager := saveManager, nextStorageAttrs := nextStorageAttrs } := by
  have hsend {b₁ : DocumentBroker} {session : ClientSession} {a₁ a₂ a₃ a₄ : Bool}
      (h : (b₁.sendUnoSave session a₁ a₂ a₃ a₄ "" "").2 = false) : ∃ saveManager nextStorageAttrs,
        saveManager.request = b₁.saveManager.request ∧ (b₁.sendUnoSave session a₁ a₂ a₃ a₄ "" "").1 =
          { b₁ with saveManager := saveManager, nextStorageAttrs := nextStorageAttrs } := by
    unfold sendUnoSave forwardToChild at h ⊢
    by_cases hfound : (b₁.sessions.find session.id).isNone
    · refine ⟨b₁.saveManager.setLastModifiedLocalTime 0,
        b₁.nextStorageAttrs.ofSave (b₁.isModified || b₁.haveModifyActivityAfterSaveRequest) a₃ "" "", rfl, ?_⟩
      simp only [prepareUnoSave, hfound, if_true]
      rfl
    · by_cases halive : b₁.childProcess.alive
      · simp [prepareUnoSave, hfound, halive] at h
      · refine ⟨b₁.saveManager.setLastModifiedLocalTime 0,
          b₁.nextStorageAttrs.ofSave (b₁.isModified || b₁.haveModifyActivityAfterSaveRequest) a₃ "" "", rfl, ?_⟩
        simp only [prepareUnoSave, hfound, halive, if_false, Bool.false_eq_true]
        rfl
  unfold autoSave at hsent ⊢
  split at hsent
  · cases hsent
  · rename_i hact
    rw [if_neg hact]
    extract_lets b₁ at hsent ⊢
    have hkeep : ∃ saveManager nextStorageAttrs, saveManager.request = b.saveManager.request ∧
        b₁ = { b with saveManager := saveManager, nextStorageAttrs := nextStorageAttrs } :=
      ⟨b.saveManager.autoSaveChecked b.now, b.nextStorageAttrs, rfl, rfl⟩
    split at hsent
    · rename_i hcan
      rwa [if_pos hcan]
    · rename_i hcan
      rw [if_neg hcan]
      split at hsent
      · rename_i hmod
        rwa [if_pos hmod]
      · rename_i hmod
        rw [if_neg hmod]
        split at hsent
        · exact hkeep
        · split at hsent
          · rename_i hforce
            rw [if_pos hforce]
            exact hsend hsent
          · rename_i hforce
            rw [if_neg hforce]
            split at hsent
            · rename_i htime
              rw [if_pos htime]
              exact hsend hsent
            · rename_i htime
              rwa [if_neg htime]

/-- The current version's request can be answered by the session that writes, if any. -/
def WriterReaches (G : Guard) (b : DocumentBroker) : Prop :=
  b.currentStorageAttrs.requestId = "" ∨ G.mayDrop ∨
    ∀ session, b.getWriteableSession = some session → session.isCloseFrame = false

theorem writer_reaches (h : b.WriterReaches G) (hsession : b.getWriteableSession = some session) :
    b.currentStorageAttrs.requestId = "" ∨ session.isCloseFrame = false ∨ G.mayDrop := by
  rcases h with hid | hd | hopen
  · exact .inl hid
  · exact .inr (.inr hd)
  · exact .inr (.inl (hopen session hsession))

theorem canSaveToDisk_of_savable (h : b.Savable) : b.canSaveToDisk = .Yes := by
  obtain ⟨session, hsession, -⟩ := h.writer
  have hne : b.sessions.list ≠ [] := by
    intro hnil
    simp [BrokerState.getWriteableSession, hnil, BrokerState.chooseSavingSession] at hsession
  unfold BrokerState.canSaveToDisk
  rw [if_neg (by simp [h.kitAlive]), if_neg (by simp [h.isLoaded]), if_neg (by simp [hne, hsession])]

theorem needToSaveToDisk_eq_no (h : b.needToSaveToDisk = .No) :
    b.saveManager.lastSaveSuccessful = true ∧ b.haveModifyActivityAfterSaveRequest = false ∧
      b.isPossiblyModified = false := by
  unfold BrokerState.needToSaveToDisk at h
  split at h
  · cases h
  · rename_i hsaved
    split at h
    · cases h
    · rename_i hmodified
      split at h
      · cases h
      · rename_i hactivity
        have hsaved : b.saveManager.lastSaveSuccessful = true := by simpa using hsaved
        have hactivity : b.haveModifyActivityAfterSaveRequest = false := by simpa using hactivity
        refine ⟨hsaved, hactivity, ?_⟩
        unfold BrokerState.isPossiblyModified
        rw [if_neg (by simp [hactivity])]
        split
        · simp [hsaved]
        · rename_i hview
          cases hm : b.isModified with
          | false => rfl
          | true => simp [hm, hview] at hmodified

theorem isStorageOutdated_eq_false (h : b.needToUploadToStorage = .No) : b.isStorageOutdated = false := by
  unfold BrokerState.needToUploadToStorage at h
  split_ifs at h
  rename_i houtdated
  simpa using houtdated

/-- The document can be stopped at once, while it could be saved, only if nothing is to be saved and the last saved
file is uploaded. -/
theorem canStopNow_of_savable (h : b.Savable) (hstop : b.canStopNow = true) :
    b.needToSaveToDisk = .No ∧ b.isStorageOutdated = false := by
  have hcan := canSaveToDisk_of_savable h
  unfold canStopNow at hstop
  simp only [hcan, ne_eq, not_true_eq_false, decide_false] at hstop
  by_cases hsave : b.needToSaveToDisk = .No
  · refine ⟨hsave, ?_⟩
    by_cases hupload : b.needToUploadToStorage = .No
    · exact isStorageOutdated_eq_false hupload
    · cases houtdated : b.isStorageOutdated with
      | false => rfl
      | true => simp [hsave, hupload, houtdated] at hstop
  · simp [hsave] at hstop

theorem safeToStop_of_needToSave (hsaving : b.saveManager.isSaving = false) (hsave : b.needToSaveToDisk = .No)
    (houtdated : b.isStorageOutdated = false) : b.SafeToStop := by
  obtain ⟨-, hactivity, hmodified⟩ := needToSaveToDisk_eq_no hsave
  exact ⟨hsaving, hactivity, houtdated, .inl hmodified⟩

/-- What `autoSaveAndStop` checks before it stops without a further save. -/
theorem safeToStop_of_canStop (h : b.Savable) (hsaving : b.saveManager.isSaving = false)
    (hstop : b.canStopAfterSave b.canStopNow = some true) : b.SafeToStop := by
  cases hnow : b.canStopNow with
  | true =>
    obtain ⟨hsave, houtdated⟩ := canStopNow_of_savable h hnow
    exact safeToStop_of_needToSave hsaving hsave houtdated
  | false =>
    rw [hnow] at hstop
    unfold canStopAfterSave at hstop
    by_cases hupload : b.needToUploadToStorage = .No
    · have houtdated := isStorageOutdated_eq_false hupload
      rw [if_pos (by simp [hupload])] at hstop
      split at hstop
      · rename_i hsaved
        simp only [Bool.and_eq_true, Bool.not_eq_true'] at hsaved
        split at hstop
        · cases hstop
        · rename_i hdelay
          refine ⟨hsaving, hsaved.1, houtdated, ?_⟩
          cases hm : b.isModified with
          | false =>
            left
            unfold BrokerState.isPossiblyModified
            rw [if_neg (by simp [hsaved.1])]
            simp [hsaved.2, hm]
          | true =>
            right
            refine ⟨hm, hupload, hsaved.2, hsaved.1, ?_⟩
            simpa [hm] using hdelay
      · split at hstop
        · rename_i hsave
          exact safeToStop_of_needToSave hsaving hsave houtdated
        · cases hstop
    · rw [if_neg (by simp [hupload])] at hstop
      cases hstop

theorem saveBeforeStop_moves (hs : b.docState.activity ≠ .Save → G.save b.storing)
    (hr : b.docState.activity = .Rename → G.upload b.storing false)
    (hu : b.mayUpload = true → G.upload b.storing true)
    (hd : b.WriterReaches G) (reason : String) : Moves G b.storing (b.saveBeforeStop reason).storing := by
  unfold saveBeforeStop
  have hmoves := autoSave_moves (b.isPossiblyModified || !b.saveManager.lastSaveSuccessful)
    (fun hsaves => hs (activity_of_autoSaves hsaves)) true true
  have hnot := autoSave_notSent b (b.isPossiblyModified || !b.saveManager.lastSaveSuccessful) true true
  have hupload (isPutFile : Bool) (hup : G.upload b.storing isPutFile) := upload_autoSave hup
    (b.isPossiblyModified || !b.saveManager.lastSaveSuccessful) true true
  generalize b.autoSave (b.isPossiblyModified || !b.saveManager.lastSaveSuccessful) true true =
    p at hmoves hnot hupload ⊢
  obtain ⟨b₁, sent⟩ := p
  dsimp only at hmoves hnot hupload
  cases sent with
  | true => exact hmoves
  | false =>
    obtain ⟨saveManager, nextStorageAttrs, -, rfl⟩ := hnot rfl
    set b₁ : DocumentBroker := { b with saveManager := saveManager, nextStorageAttrs := nextStorageAttrs } with hb₁
    have hsessions : b₁.getWriteableSession = b.getWriteableSession := rfl
    refine hmoves.trans ?_
    dsimp only
    -- a stop here finds no session that could write
    have hstop (hwriter : ¬ b₁.WriterIsValid) : Moves G b₁.storing (b₁.stop .autoSaveAndStop reason).storing := by
      rw [storing_stop (by decide)]
      refine .single (.stop _ ?_)
      exact fun hsavable => absurd hsavable.writer hwriter
    split
    · rename_i session hsession
      split
      · refine checkAndUploadToStorage_moves (fun hact => hupload false (hr hact) rfl)
          (fun hmay => hupload true (hu hmay) rfl) ?_
        exact writer_reaches hd hsession
      · rename_i hexpired
        refine hstop ?_
        rintro ⟨session', hsession', hvalid⟩
        obtain rfl := Option.some.inj (hsession.symm.trans hsession')
        simp [hvalid] at hexpired
    · rename_i hnone
      refine hstop ?_
      rintro ⟨session', hsession', -⟩
      rw [hnone] at hsession'
      cases hsession'

/-- What the guard needs to know when a document is saved or uploaded before it is stopped. -/
structure StopAllowed (G : Guard) (b : DocumentBroker) : Prop where
  save : b.docState.activity ≠ .Save → G.save b.storing
  rename : b.docState.activity = .Rename → G.upload b.storing false
  upload : b.mayUpload = true → G.upload b.storing true
  writer : b.WriterReaches G

theorem autoSaveAndStop_moves
    (ha : b.saveManager.isSaving = false → b.isAsyncUploading = false → b.StopAllowed G) (reason : String) :
    Moves G b.storing (b.autoSaveAndStop reason).storing := by
  unfold autoSaveAndStop
  split
  · exact .refl
  · rename_i hidle
    have hidle : b.saveManager.isSaving = false ∧ b.isAsyncUploading = false := by simpa using hidle
    obtain ⟨hsaving, huploading⟩ := hidle
    obtain ⟨hs, hr, hu, hd⟩ := ha hsaving huploading
    split
    · exact .refl
    · rename_i hstop
      rw [storing_stop (by decide)]
      exact .single (.stop _ fun hsavable => safeToStop_of_canStop hsavable hsaving hstop)
    · split
      · exact saveBeforeStop_moves hs hr hu hd reason
      · exact .refl

/-- The last session that can edit leaves, and no save is in flight. -/
def savesOnRemove (b : DocumentBroker) (session : ClientSession) : Bool :=
  session.isEditable && !b.haveAnotherEditableSession session.id && !b.saveManager.isSaving

theorem removeSession_moves (hs : b.savesOnRemove session = true → b.docState.activity ≠ .Save → G.save b.storing) :
    Moves G b.storing (b.removeSession session).storing := by
  unfold removeSession
  extract_lets activeSessionCount lastEditableSession b₁
  have h₁ : Moves G b.storing b₁.storing := by
    dsimp only [b₁]
    split
    · rw [storing_disconnectSessionInternal]
    · rename_i hlast
      split
      · exact .refl
      · rename_i hsaving
        have hsaves : b.savesOnRemove session = true := by
          have hlast : lastEditableSession = true := by simpa using hlast
          unfold savesOnRemove
          rw [show (session.isEditable && !b.haveAnotherEditableSession session.id) = true from hlast]
          simpa using hsaving
        have hmoves := autoSave_moves (b.config.alwaysSaveOnExit || b.isPossiblyModified)
          (fun h => hs hsaves (activity_of_autoSaves h)) true true
        generalize b.autoSave (b.config.alwaysSaveOnExit || b.isPossiblyModified) true true = p at hmoves ⊢
        obtain ⟨b₂, sent⟩ := p
        cases sent with
        | true => exact hmoves
        | false =>
          dsimp only
          rwa [storing_disconnectSessionInternal]
  split_ifs
  · exact h₁
  · exact h₁
  · exact h₁
  · exact h₁

/-! ### The poll loop -/

/-- A round may save or upload the document to unload it. -/
def mayUnload (b : DocumentBroker) : Bool :=
  ((b.isLoaded && decide (b.config.idleDocTimeoutSecs * 1000 ≤ b.getIdleTime)) || b.sessions.list.isEmpty ||
      b.docState.unloadRequested || b.shutdownRequestFlag || b.docState.closeRequested) &&
    !b.saveManager.isSaving && !b.isAsyncUploading

/-- A round without an activity may request a save. -/
def pollMaySave (b : DocumentBroker) : Bool :=
  (b.renameFilename != "" && b.renameSessionId.isSome) || b.mayUnload ||
    (b.saveManager.needAutoSaveCheck b.now && b.isModified)

/-- The check of a round without an activity asks for an autosave. -/
def pollAutoSaves (b : DocumentBroker) : Bool :=
  !(b.isLoaded && decide (b.config.idleDocTimeoutSecs * 1000 ≤ b.getIdleTime)) &&
    !(b.config.indirectionServerEnabled && b.shutdownRequestFlag && !b.migrateMsgReceived) &&
    !(b.docState.unloadRequested || b.shutdownRequestFlag || b.docState.closeRequested) && !b.stopFlag &&
    b.saveManager.needAutoSaveCheck b.now && b.autoSaves false

/-- A round without an activity asks for a save, to rename the document, to unload it or because it is time to. -/
def pollSaves (b : DocumentBroker) : Bool :=
  (b.renameFilename != "" && b.renameSession.isSome) || b.mayUnload || b.pollAutoSaves

theorem pollMaySave_of_pollSaves (h : b.pollSaves = true) : b.pollMaySave = true := by
  unfold pollSaves at h
  unfold pollMaySave
  simp only [Bool.or_eq_true, Bool.and_eq_true] at h ⊢
  rcases h with (⟨hname, hsession⟩ | hunload) | hauto
  · obtain ⟨session, hsession⟩ := Option.isSome_iff_exists.1 hsession
    obtain ⟨id, hid, -⟩ := Option.bind_eq_some_iff.1 hsession
    exact .inl (.inl ⟨hname, by simp [hid]⟩)
  · exact .inl (.inr hunload)
  · simp only [pollAutoSaves, autoSaves, Bool.and_eq_true, Bool.or_false] at hauto
    exact .inr ⟨hauto.1.2, hauto.2.1.1.2⟩

/-- A round without an activity may retry an upload. -/
def mayRetry (b : DocumentBroker) : Bool :=
  !b.isAsyncUploading && !b.storageManager.lastUploadSuccessful && b.needToUploadToStorage ≠ .No

/-- What the guard needs to know when the loop takes a round without an activity. -/
structure PollAllowed (G : Guard) (b : DocumentBroker) : Prop where
  save : b.pollSaves = true → G.save b.storing.forget
  upload : b.mayUnload = true ∨ b.mayRetry = true → b.mayUpload = true ∨ b.isLoaded = false →
    G.upload b.storing.forget true
  writer : b.mayUnload = true ∨ b.mayRetry = true → b.WriterReaches G

/-- The same for the broker that has forgotten the finished requests. -/
structure RoundAllowed (G : Guard) (b : DocumentBroker) : Prop where
  activity : b.docState.activity = .None
  save : b.pollSaves = true → G.save b.storing
  upload : b.mayUnload = true ∨ b.mayRetry = true → b.mayUpload = true ∨ b.isLoaded = false → G.upload b.storing true
  writer : b.mayUnload = true ∨ b.mayRetry = true → b.WriterReaches G

theorem RoundAllowed.stop (h : b.RoundAllowed G) (hunload : b.mayUnload = true) : b.StopAllowed G :=
  ⟨fun _ => h.save (by simp [pollSaves, hunload]), fun hact => absurd (h.activity.symm.trans hact) (by decide),
    fun hmay => h.upload (.inl hunload) (.inl hmay), h.writer (.inl hunload)⟩

theorem mayUnload_of {cond : Bool} (hcond : cond = true)
    (hsub : cond = true → ((b.isLoaded && decide (b.config.idleDocTimeoutSecs * 1000 ≤ b.getIdleTime)) ||
      b.sessions.list.isEmpty || b.docState.unloadRequested || b.shutdownRequestFlag || b.docState.closeRequested) =
        true)
    (hsaving : b.saveManager.isSaving = false) (huploading : b.isAsyncUploading = false) : b.mayUnload = true := by
  unfold mayUnload
  rw [hsub hcond, hsaving, huploading]
  rfl

theorem retryUpload_moves (ha : b.RoundAllowed G) : Moves G b.storing b.retryUpload.storing := by
  unfold retryUpload
  split
  · rename_i hretry
    have hretry : b.mayRetry = true := hretry
    split
    · rename_i session hsession
      split
      · exact checkAndUploadToStorage_moves (fun hact => absurd (ha.activity.symm.trans hact) (by decide))
          (fun hmay => ha.upload (.inr hretry) (.inl hmay)) (writer_reaches (ha.writer (.inr hretry)) hsession)
      · exact .refl
    · exact .refl
  · exact .refl

theorem pollNoSessions_moves (ha : b.RoundAllowed G) (hempty : b.sessions.list.isEmpty = true) :
    Moves G b.storing b.pollNoSessions.storing := by
  have hunload (hsaving : b.saveManager.isSaving = false) (huploading : b.isAsyncUploading = false) :
      b.mayUnload = true := mayUnload_of hempty (fun h => by simp [h]) hsaving huploading
  unfold pollNoSessions
  split
  · rename_i hloaded
    have hstopped := autoSaveAndStop_moves (G := G) (b := b.stop .other "dead") (fun hsaving huploading => by
      have hunload := hunload hsaving huploading
      refine ⟨?_, fun hact => absurd (ha.activity.symm.trans hact) (by decide), ?_, ha.writer (.inl hunload)⟩
      · rw [storing_stop_other]
        exact fun _ => ha.save (by simp [pollSaves, hunload])
      · rw [storing_stop_other]
        exact fun _ => ha.upload (.inl hunload) (.inr (by simpa using hloaded))) "dead"
    rwa [storing_stop_other] at hstopped
  · split
    · exact .refl
    · exact autoSaveAndStop_moves (fun hsaving huploading => ha.stop (hunload hsaving huploading)) "dead"

theorem pollUnloading_moves (ha : b.RoundAllowed G)
    (hunloading : (b.docState.unloadRequested || b.shutdownRequestFlag || b.docState.closeRequested) = true) :
    Moves G b.storing b.pollUnloading.storing := by
  unfold pollUnloading
  split
  · rw [storing_stop_other]
  · refine autoSaveAndStop_moves (fun hsaving huploading => ha.stop ?_) _
    refine mayUnload_of hunloading (fun h => ?_) hsaving huploading
    simp only [Bool.or_eq_true] at h ⊢
    tauto

theorem pollNone_moves (ha : b.PollAllowed G) (hact : b.docState.activity = .None) :
    Moves G b.storing b.pollNone.storing := by
  have hforget : Moves G b.storing b.forgetFinishedRequests.storing := .single .forget
  have ha : b.forgetFinishedRequests.RoundAllowed G := ⟨hact, ha.save, ha.upload, ha.writer⟩
  refine hforget.trans ?_
  unfold pollNone
  dsimp only
  generalize b.forgetFinishedRequests = b₁ at *
  split
  · rename_i hrename
    exact startRenameFileCommand_moves fun _ hsession => ha.save (by simp [pollSaves, hrename.1, hsession])
  split
  · rename_i hidle
    refine autoSaveAndStop_moves (fun hsaving huploading => ha.stop ?_) "idle"
    exact mayUnload_of hidle (fun h => by simp only [h, Bool.true_or]) hsaving huploading
  rename_i hidle
  split
  · rename_i hempty
    exact pollNoSessions_moves ha (Bool.and_eq_true_iff.1 hempty).1
  split
  · exact Moves.of_eq storing_waitForMigration
  rename_i hmigration
  split
  · rename_i hunloading
    exact pollUnloading_moves ha hunloading
  rename_i hunloading
  split
  · rename_i hcheck
    refine autoSave_moves false (fun hsaves => ha.save ?_) true false
    have hauto : b₁.pollAutoSaves = true := by
      unfold pollAutoSaves
      rw [Bool.not_eq_true] at hidle hmigration hunloading
      rw [hidle, hmigration, hunloading, hsaves]
      simpa using hcheck
    simp [pollSaves, hauto]
  · exact retryUpload_moves ha

theorem postponeAutosave_request (m : SaveManager) (now seconds : Nat) :
    (m.postponeAutosave now seconds).request = m.request := by
  have hite (c : Prop) [Decidable c] (time : Nat) :
      (if c then { m with lastAutosaveCheckTime := time } else m).request = m.request := by split <;> rfl
  exact hite _ _

theorem storing_setSaveManager {m : SaveManager} (h : m.request = b.saveManager.request) :
    ({ b with saveManager := m } : DocumentBroker).storing = b.storing := by
  unfold storing
  rw [h]

/-- A round while saving gives the save up. -/
def givesUpSave (b : DocumentBroker) : Bool := b.docState.isKitDisconnected || b.saveManager.hasSavingTimedOut b.now

theorem pollSave_moves (hg : b.givesUpSave = true → G.giveUp b.storing) : Moves G b.storing b.pollSave.storing := by
  unfold pollSave
  split
  · rename_i hlost
    exact .single (.giveUpSave (hg hlost))
  · exact .refl

theorem poll_moves (ha : b.docState.activity = .None → b.PollAllowed G)
    (hg : b.givesUpSave = true → G.giveUp b.storing) : Moves G b.storing b.poll.storing := by
  unfold poll
  split
  · rename_i hact
    exact pollNone_moves (ha hact) hact
  · exact pollSave_moves hg
  · exact pollSave_moves hg
  · exact Moves.of_eq storing_pollSyncFileTimestamp
  · exact Moves.of_eq (storing_setSaveManager (postponeAutosave_request _ _ _))

/-- The size that was reported decides what a re-synchronisation leads to. -/
theorem checkFileInfoContinuation_moves {sid : Nat} {result : CheckFileInfoResult}
    (ha : ∀ lastModifiedTime size, result = .Pass lastModifiedTime size → G.resync b.storing (size.getD 0)) :
    Moves G b.storing (b.checkFileInfoContinuation sid result).storing := by
  unfold checkFileInfoContinuation
  set b₁ : DocumentBroker := { b with checkFileInfo := some ⟨sid, true⟩ }.endActivity with hb₁
  cases result with
  | Pass lastModifiedTime size =>
    have hresync : G.resync b₁.storing (size.getD 0) := ha lastModifiedTime size rfl
    dsimp only
    split
    · rename_i hadopted
      exact .single (.resync (c := b₁.storing) ⟨size.getD 0, .adopted, b₁.toBrokerState⟩ hresync
        (if_pos hadopted).symm rfl)
    · rename_i hconflict
      rw [storing_handleDocumentConflict]
      exact .single (.resync (c := b₁.storing) ⟨size.getD 0, .conflict, b₁.toBrokerState⟩ hresync
        (if_neg hconflict).symm rfl)
  | Unauthorized => exact .refl
  | Timedout => exact .refl
  | Fail => exact .refl

/-- The time that a session that joins reports is a new one. -/
def ReportsNewTime (b : DocumentBroker) (fileInfo : FileInfo) : Prop :=
  fileInfo.modifiedTime ≠ "" ∧ fileInfo.modifiedTime ≠ b.storageManager.lastModifiedServerTimeString

theorem noteFileInfo_moves {fileInfo : FileInfo}
    (ha : b.ReportsNewTime fileInfo → G.join (b.joinOutcome fileInfo)) :
    Moves G b.storing (b.noteFileInfo fileInfo).storing := by
  unfold noteFileInfo
  split
  · exact .refl
  · rename_i hnew
    rw [not_or] at hnew
    exact .single (.join (c := b.storing) ⟨fileInfo.size, b.joinOutcome fileInfo, b.toBrokerState⟩ (ha hnew))

theorem download_moves {fileInfo : Option FileInfo}
    (ha : ∀ info, fileInfo = some info → b.ReportsNewTime info → G.join (b.joinOutcome info)) :
    Moves G b.storing (b.download fileInfo).1.storing := by
  unfold download
  cases fileInfo with
  | none => exact .refl
  | some info =>
    have hnote := noteFileInfo_moves (ha info rfl)
    dsimp only
    split
    · exact hnote
    · split
      · rw [storing_handleDocumentConflict]
        exact hnote
      · exact hnote

theorem addSession_moves {fileInfo : Option FileInfo}
    (ha : ∀ info, fileInfo = some info → b.ReportsNewTime info → G.join (b.joinOutcome info))
    (h : b.addSession session fileInfo = some b') : Moves G b.storing b'.storing := by
  unfold addSession at h
  split at h
  · cases h
  · have hdownload := download_moves (b := { b with docState := b.docState.resetUnloadRequested }) ha
    generalize ({ b with docState := b.docState.resetUnloadRequested } : DocumentBroker).download fileInfo = p
      at h hdownload
    obtain ⟨b₁, joined⟩ := p
    cases joined with
    | true =>
      dsimp only at h
      split at h
      · obtain rfl := Option.some.inj h
        exact hdownload
      · cases h
    | false =>
      obtain rfl := Option.some.inj h
      split
      · exact hdownload
      · exact hdownload

/-! ### The end of the thread -/

/-- An autosave, as far as it is a move. -/
def AutoSaved (c c' : Storing) : Prop :=
  c.saving.isActive = false ∧ ∃ userModified isAutosave save, (∀ s ∈ save, s.requestId = "") ∧
    c' = c.requestSave (c.nextStorageAttrs.ofSave userModified isAutosave "" "") save

/-- Before the child is terminated the sessions are removed, each with an autosave, maybe. -/
def TerminationAllowed (G : Guard) (b : DocumentBroker) : Prop :=
  ∀ c, Relation.ReflTransGen AutoSaved b.storing c → c.saving.isActive = false → G.save c

theorem removeSession_autoSaved :
    Relation.ReflTransGen AutoSaved b.storing (b.removeSession session).storing := by
  unfold removeSession
  extract_lets activeSessionCount lastEditableSession b₁
  have h₁ : Relation.ReflTransGen AutoSaved b.storing b₁.storing := by
    dsimp only [b₁]
    split
    · rw [storing_disconnectSessionInternal]
    · split
      · exact .refl
      · rename_i hsaving
        have hcases := autoSave_cases (b := b) (b.config.alwaysSaveOnExit || b.isPossiblyModified) true true
        generalize b.autoSave (b.config.alwaysSaveOnExit || b.isPossiblyModified) true true = p at hcases ⊢
        obtain ⟨b₂, sent⟩ := p
        have h₂ : Relation.ReflTransGen AutoSaved b.storing b₂.storing := by
          rcases hcases with h | ⟨-, userModified, isAutosave, save, hid, -, h⟩
          · rw [show b₂.storing = b.storing from h]
          · have hidle : b.storing.saving.isActive = false := Bool.eq_false_iff.2 hsaving
            exact .single ⟨hidle, userModified, isAutosave, save, hid, h⟩
        cases sent with
        | true => exact h₂
        | false =>
          dsimp only
          rwa [storing_disconnectSessionInternal]
  split_ifs
  · exact h₁
  · exact h₁
  · exact h₁
  · exact h₁

theorem autoSaved_moves {c c' : Storing}
    (hs : ∀ d, Relation.ReflTransGen AutoSaved c d → d.saving.isActive = false → G.save d)
    (h : Relation.ReflTransGen AutoSaved c c') : Moves G c c' := by
  induction h with
  | refl => exact .refl
  | tail hd hstep ih =>
    obtain ⟨hsaving, userModified, isAutosave, save, hid, rfl⟩ := hstep
    exact ih.tail (.requestSave userModified isAutosave save (hs _ hd hsaving) hid)

theorem terminateChild_autoSaved : Relation.ReflTransGen AutoSaved b.storing b.terminateChild.storing := by
  have hfold (ids : List Nat) (b : DocumentBroker) :
      Relation.ReflTransGen AutoSaved b.storing (ids.foldl shutdownClient b).storing := by
    induction ids generalizing b with
    | nil => exact .refl
    | cons id ids ih =>
      refine .trans ?_ (ih (b.shutdownClient id))
      unfold shutdownClient
      split
      · exact .refl
      · split
        · exact .refl
        · exact removeSession_autoSaved
  unfold terminateChild
  rw [storing_stop_other]
  exact hfold _ b

theorem terminateChild_moves (ha : b.TerminationAllowed G) : Moves G b.storing b.terminateChild.storing :=
  autoSaved_moves ha terminateChild_autoSaved

/-! ### Events -/

/-- What the guard needs to know of an event. -/
def Allows (G : Guard) (b : DocumentBroker) : Event → Prop
  | .addSession _ fileInfo => ∀ info, fileInfo = some info → b.ReportsNewTime info → G.join (b.joinOutcome info)
  | .loaded _ isFirst templateSize => isFirst = true → ∀ size, templateSize = some size →
    G.write b.storing ∧ G.load b.storing ∧ G.upload (b.storing.writeFile size).renameFile true
  | .onDisconnect sid => ∀ session, b.sessions.find sid = some session → b.savesOnRemove session = true →
    b.docState.activity ≠ .Save → G.save b.storing
  | .save sid _ _ _ requestId => (∀ session, b.sessions.find sid = some session → session.isWritable = true →
      b.docState.activity ≠ .Save → G.save b.storing) ∧
    (requestId = "" ∨ G.mayDrop ∨ ∀ session, b.sessions.find sid = some session → session.isCloseFrame = false)
  | .savetostorage _ force => force = true ∨ b.mayUpload = true → G.upload b.storing true
  | .saveas _ path _ _ _ => G.upload b.storing (path == "")
  | .renamefile _ newFilename => newFilename ≠ "" → b.docState.activity = .None → G.save b.storing
  | .switchMode _ mode => mode = "offline" → b.sessions.list.length ≤ 1 → b.docState.activity = .None →
    G.save b.storing
  | .adminAutoSave => b.autoSaves true = true → G.save b.storing
  | .kitSaved _ => G.write b.storing
  | .saveResponse index response =>
    ResponseAllowed G b index response ∧ (b.dropsResponse index = true → G.drop b.storing)
  | .uploadFinished attempt response =>
    ∀ upload, b.findUpload attempt = some upload → FinishAllowed G b upload response.statusCode
  | .checkFileInfoFinished result =>
    ∀ lastModifiedTime size, result = .Pass lastModifiedTime size → G.resync b.storing (size.getD 0)
  | .poll => (b.docState.activity = .None → b.PollAllowed G) ∧ (b.givesUpSave = true → G.giveUp b.storing)
  | .finish => b.TerminationAllowed G
  | _ => True

theorem withSession_moves {id : Nat} {f : ClientSession → DocumentBroker} (h : b.withSession id f = some b')
    (hf : ∀ session, b.sessions.find id = some session → Moves G b.storing (f session).storing) :
    Moves G b.storing b'.storing := by
  obtain ⟨session, hsession, rfl⟩ := Option.map_eq_some_iff.1 h
  exact hf session hsession

theorem sessionLoaded_moves {isFirst : Bool} {templateSize : Option Nat}
    (ha : isFirst = true → ∀ size, templateSize = some size →
      G.write b.storing ∧ G.load b.storing ∧ G.upload (b.storing.writeFile size).renameFile true) :
    Moves G b.storing (b.sessionLoaded session isFirst templateSize).storing := by
  unfold sessionLoaded
  split
  · extract_lets b₁ b₂
    split
    · rename_i hfirst
      have h₂ : b₂.storing = b.storing := by
        dsimp only [b₂]
        unfold setLoaded
        split <;> rfl
      cases templateSize with
      | none => exact Moves.of_eq h₂
      | some size =>
        obtain ⟨hwrite, hload, hupload⟩ := ha hfirst size rfl
        rw [← h₂] at hwrite hload hupload
        set b₃ : DocumentBroker :=
          { b₂ with storage := (b₂.storage.writeFileToUpload ⟨b₂.now, size⟩).renameFileToUpload } with hb₃
        have h₃ : b₃.storing = (b₂.storing.writeFile size).renameFile := rfl
        have hmove : Moves G b₂.storing b₃.storing := by
          rw [h₃]
          exact .single (.loadTemplate size hwrite hload)
        rw [← h₃] at hupload
        exact (Moves.of_eq h₂).trans (hmove.trans (uploadToStorage_moves fun _ => hupload))
    · exact .refl
  · exact .refl

theorem savedAs_moves {path : String} (ha : G.upload b.storing (path == "")) (filename : String) (isExport : Bool)
    (size : Nat) : Moves G b.storing (b.savedAs session path filename isExport size).storing := by
  set b₁ : DocumentBroker :=
    { b with storage := { b.storage with saveAsFiles := (path, ⟨b.now, size⟩) :: b.storage.saveAsFiles } } with hb₁
  have hallowed : G.upload b₁.storing (path == "" && !false) := by
    rw [Bool.not_false, Bool.and_true]
    exact ha
  exact uploadToStorageInternal_moves hallowed isExport false

theorem handle_moves {e : Event} (ha : b.Allows G e) (h : b.handle e = some b') : Moves G b.storing b'.storing := by
  have hmoves {c : DocumentBroker} (h : some c = some b') (hc : Moves G b.storing c.storing) :
      Moves G b.storing b'.storing := by
    obtain rfl := Option.some.inj h
    exact hc
  have hsilent {c : DocumentBroker} (h : some c = some b') (hc : c.storing = b.storing) :
      Moves G b.storing b'.storing := hmoves h (Moves.of_eq hc)
  cases e with
  | elapse nanoseconds => exact hmoves h (.single (.elapse nanoseconds))
  | addSession session fileInfo => exact addSession_moves ha h
  | loaded sid isFirst templateSize => exact withSession_moves h fun _ _ => sessionLoaded_moves ha
  | setCloseFrame sid => exact hsilent h rfl
  | setAuthorizationExpired sid expired => exact hsilent h rfl
  | setReadOnly sid => exact hsilent h rfl
  | onDisconnect sid => exact withSession_moves h fun session hsession => removeSession_moves (ha session hsession)
  | disconnected sid => exact withSession_moves h fun _ _ => Moves.of_eq storing_finalRemoveSession
  | userActivity => exact hsilent h rfl
  | modifyingActivity sid =>
    refine withSession_moves h fun session _ => Moves.of_eq ?_
    unfold modifyingActivity
    dsimp only
    split <;> rfl
  | setModified value => exact hsilent h rfl
  | save sid a₁ a₂ extendedData requestId =>
    refine withSession_moves h fun session hsession => clientSave_moves (ha.1 session hsession) ?_ a₁ a₂ extendedData
    rcases ha.2 with hid | hd | hopen
    · exact .inl hid
    · exact .inr (.inr hd)
    · exact .inr (.inl (hopen session hsession))
  | savetostorage sid force => exact withSession_moves h fun _ _ => uploadToStorage_moves ha
  | saveas sid path filename isExport size =>
    exact withSession_moves h fun _ _ => savedAs_moves ha filename isExport size
  | renamefile sid newFilename => exact withSession_moves h fun _ _ => handleRenameFileCommand_moves ha
  | switchMode sid mode => exact withSession_moves h fun _ _ => switchMode_moves ha
  | adminAutoSave => exact hmoves h (autoSave_moves true ha true false)
  | kitSaved size =>
    obtain ⟨-, h⟩ := Option.ite_none_right_eq_some.1 h
    exact hmoves h (.single (.writeFile size ha))
  | saveResponse index response =>
    obtain ⟨-, h⟩ := Option.ite_none_right_eq_some.1 h
    exact saveResponse_moves ha.1 ha.2 h
  | uploadFinished attempt response => exact uploadFinished_moves ha h
  | uploadConnectFailed attempt => exact uploadConnectFailed_moves h
  | checkFileInfoFinished result =>
    simp only [handle, checkFileInfoFinished] at h
    split at h
    · cases h
    · split at h
      · cases h
      · exact hmoves h (checkFileInfoContinuation_moves ha)
  | setHostIsInvalid value => exact hsilent h rfl
  | closeDocument reason => exact hsilent h (storing_closeDocument reason)
  | childProcessClosed => exact hsilent h rfl
  | disconnectedFromKit unexpected => exact hsilent h (storing_disconnectedFromKit unexpected)
  | setShutdownRequestFlag => exact hsilent h rfl
  | setTerminationFlag => exact hsilent h rfl
  | stopPolling => exact hsilent h rfl
  | stop reason => exact hsilent h (storing_stop_other reason)
  | poll => exact hmoves h (poll_moves ha.1 ha.2)
  | leaveLoop => exact hsilent h (storing_failLoadingSessions false)
  | finish => exact hmoves h (terminateChild_moves ha)

theorem allows_any (e : Event) : b.Allows .any e := by
  have hwriter : b.WriterReaches .any := .inr (.inl True.intro)
  cases e with
  | addSession => exact fun _ _ _ => True.intro
  | loaded => exact fun _ _ _ => ⟨True.intro, True.intro, True.intro⟩
  | save => exact ⟨fun _ _ _ _ => True.intro, .inr (.inl True.intro)⟩
  | saveResponse => exact ⟨fun _ _ _ _ =>
      ⟨True.intro, .inr (.inr True.intro), fun _ => True.intro, fun _ => True.intro⟩, fun _ => True.intro⟩
  | uploadFinished => exact fun _ _ _ _ _ => ⟨True.intro, .inr (.inr True.intro), fun _ _ _ _ => True.intro⟩
  | poll => exact ⟨fun _ => ⟨fun _ => True.intro, fun _ _ => True.intro, fun _ => hwriter⟩, fun _ => True.intro⟩
  | checkFileInfoFinished => exact fun _ _ _ => True.intro
  | finish => exact fun _ _ _ => True.intro
  | onDisconnect => exact fun _ _ _ _ => True.intro
  | savetostorage => exact fun _ => True.intro
  | renamefile => exact fun _ _ => True.intro
  | switchMode => exact fun _ _ _ => True.intro
  | adminAutoSave => exact fun _ => True.intro
  | _ => exact True.intro

@[simp] theorem storing_quarantineLastVersion : b.quarantineLastVersion.storing = b.storing := by
  unfold quarantineLastVersion
  split <;> rfl

end DocumentBroker

namespace Lifetime

open DocumentBroker (Event)
open Storing (Guard Moves Move)

variable {G : Guard} {s s' : Lifetime}

/-- The broker that an event finds. -/
theorem storing_clocked (b : DocumentBroker) : (clocked b).storing = b.storing.elapse 1 := rfl

/-- A step handles its event, and may go on to the next phase. -/
theorem step_cases {e : Event} (h : step s e = some s') :
    ∃ b, (clocked s.broker).handle e = some b ∧ (s'.broker = b ∨ s'.broker = b.quarantineLastVersion) := by
  unfold step at h
  dsimp only at h
  -- which event is handled does not matter here
  generalize DocumentBroker.handle (clocked s.broker) = handle at h ⊢
  have hmap {e : Event} {f : DocumentBroker → Lifetime}
      (hf : ∀ b, (f b).broker = b ∨ (f b).broker = b.quarantineLastVersion) (h : (handle e).map f = some s') :
      ∃ b, handle e = some b ∧ (s'.broker = b ∨ s'.broker = b.quarantineLastVersion) := by
    obtain ⟨b, hb, rfl⟩ := Option.map_eq_some_iff.1 h
    exact ⟨b, hb, hf b⟩
  split at h
  · cases h
  · split at h
    · cases h
    · exact hmap (fun _ => .inl rfl) h
  · cases h
  · split at h
    · exact hmap (fun _ => .inl rfl) h
    · cases h
  · cases h
  · cases h
  · refine hmap (fun b => ?_) h
    dsimp only
    split
    · exact .inr rfl
    · exact .inl rfl
  · exact hmap (fun _ => .inl rfl) h

theorem step_moves {e : Event} (ha : (clocked s.broker).Allows G e) (h : step s e = some s') :
    Moves G s.broker.storing s'.broker.storing := by
  obtain ⟨b, hb, hs'⟩ := step_cases h
  refine .head (.elapse 1) ?_
  rw [← storing_clocked]
  have hmoves := DocumentBroker.handle_moves ha hb
  rcases hs' with hs' | hs'
  · rwa [hs']
  · rwa [hs', DocumentBroker.storing_quarantineLastVersion]

/-- What every move keeps holds in every state of the runs whose events the guard allows. -/
theorem storing_invariant {ok : Lifetime → Event → Prop} (G : Guard) (inv : Storing → Prop)
    (hinit : ∀ d, inv (initial d).broker.storing) (hmove : ∀ c c', inv c → Move G c c' → inv c')
    (hallows : ∀ s e, Run.Reachable Initial step ok s → inv s.broker.storing → ok s e → (clocked s.broker).Allows G e)
    (h : Run.Reachable Initial step ok s) : inv s.broker.storing := by
  refine h.invariant (fun s => inv s.broker.storing) ?_ ?_
  · rintro _ ⟨d, rfl⟩
    exact hinit d
  · intro s e s' hr hinv hok hs
    have hmoves := step_moves (hallows s e hr hinv hok) hs
    generalize s'.broker.storing = c at hmoves ⊢
    induction hmoves with
    | refl => exact hinv
    | tail _ hstep ih => exact hmove _ _ ih hstep

/-! ### The start of some runs -/

/-- A document of 100 bytes. -/
def download : Download := { file := ⟨0, 100⟩, lastModifiedTime := "V0", downloaded := by decide }

def firstSession : DocumentBroker.ClientSession := { id := 1, state := .LOADING }

/-- The first session joins. -/
def firstJoin : Event := .addSession firstSession (some ⟨100, "a.odt", "V0"⟩)

/-- A document is edited, saved and uploaded. -/
def editAndSave : List Event :=
  [firstJoin, .loaded 1 true none, .modifyingActivity 1, .setModified true, .save 1 false false "" "r1",
    .kitSaved 120, .saveResponse 0 ⟨true, "", none⟩]

end Lifetime

end CollaboraOnline
