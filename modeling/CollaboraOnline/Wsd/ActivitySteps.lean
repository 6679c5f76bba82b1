import CollaboraOnline.Wsd.DocumentSteps

/-!
# What drives an activity on, and what blocks the user interface

A rename and a switch to offline block the user interface, save, upload, and go on when the results come.  `Driven`
says that a save or an upload is in flight that drives such an activity on, `Tidy` that the user interface is blocked
for an activity, or because the document is done with.  Functions that neither start nor end anything are `Calm`; most
others keep both invariants, and refuse no activity.  The answers to saves and uploads do so on a condition, for every
event `goesOn`.
-/

namespace CollaboraOnline

/-- The clients are blocked while the document is in this activity. -/
def Activity.blocksUI : Activity → Bool
  | .Rename | .SwitchingToOffline | .SwitchingToOnline => true
  | _ => false

/-- The activity goes on when a save or an upload is answered. -/
def Activity.isDriven : Activity → Bool
  | .Rename | .SwitchingToOffline => true
  | _ => false

theorem Activity.isDriven_eq_false {activity : Activity} (hrename : activity ≠ .Rename)
    (hoffline : activity ≠ .SwitchingToOffline) : activity.isDriven = false := by
  cases activity with
  | Rename => exact absurd rfl hrename
  | SwitchingToOffline => exact absurd rfl hoffline
  | _ => rfl

/-- The storage answers in one of the ways that the broker knows. -/
def WopiResponse.isAnswer (response : WopiResponse) : Bool :=
  response.statusCode ∈ [200, 401, 403, 404, 409, 413]

namespace WopiStorage

/-- The upload that the storage knows of is in flight. -/
def isInFlight (st : WopiStorage) : Bool :=
  st.sessions.any fun upload => st.uploadHttpSession = some upload.attempt

@[simp] theorem isInFlight_renameFileToUpload (st : WopiStorage) :
    st.renameFileToUpload.isInFlight = st.isInFlight := by
  unfold renameFileToUpload
  split <;> rfl

theorem not_isInFlight_of_none {st : WopiStorage} (h : st.uploadHttpSession = none) : st.isInFlight = false := by
  simp [isInFlight, h]

theorem isAnswer_of_failed {st : WopiStorage} {isSaveAs isRename : Bool} {response : WopiResponse}
    (h : (st.handleUploadToStorageResponse isSaveAs isRename response).2.result = .FAILED) :
    response.isAnswer = false := by
  obtain ⟨statusCode, reasonPhrase, body, json⟩ := response
  unfold handleUploadToStorageResponse at h
  cases json with
  | none =>
    dsimp only at h
    split_ifs at h
    simp_all [WopiResponse.isAnswer]
  | some json =>
    dsimp only at h
    split_ifs at h
    simp_all [WopiResponse.isAnswer]

/-- What the callback of an upload is called with; only an answer that is not known is a failure. -/
theorem finished_complete (st : WopiStorage) (upload : HttpUpload) (response : WopiResponse) :
    ∃ st' result, st.finished upload response = (st', .Complete result) ∧
      (result.result = .OK ↔ response.statusCode = 200) ∧ (result.result = .FAILED → response.isAnswer = false) := by
  unfold finished
  extract_lets st₁
  exact ⟨_, _, rfl, (st₁.handleUploadToStorageResponse_cases _ _ response).2, isAnswer_of_failed⟩

end WopiStorage

namespace DocumentBroker

variable {b b' b'' : DocumentBroker} {session : ClientSession}

/-! ### What is in flight, and what is blocked -/

/-- A frame that blocks the user interface, or unblocks it. -/
def Message.blocksUI (blocked : Bool) : Message → Bool
  | .broadcast text =>
    if "blockui: ".toList.isPrefixOf text.toList then true
    else if "unblockui: ".toList.isPrefixOf text.toList then false
    else blocked
  | _ => blocked

/-- The last of the `blockui` and `unblockui` frames that were broadcast is a `blockui`. -/
def uiBlocked (b : DocumentBroker) : Bool := b.sent.foldl Message.blocksUI false

/-- An upload is in flight, and it is not that of a save-as. -/
def isDrivingUpload (b : DocumentBroker) : Bool :=
  b.storage.isInFlight && b.uploadRequest.any fun request => !request.isSaveAs

/-- A save or an upload is in flight that drives the activity on, while there is a kit. -/
def Driven (b : DocumentBroker) : Prop :=
  b.docState.activity.isDriven = true → b.childProcess.alive = true →
    b.childProcess.saves ≠ [] ∨ b.isDrivingUpload = true

/-- The user interface is blocked only for an activity, or when the document is done with. -/
structure Tidy (b : DocumentBroker) : Prop where
  blocked : b.uiBlocked = true →
    b.docState.activity.blocksUI = true ∨ b.isLoaded = true ∧ b.docState.isMarkedToDestroy = true
  loaded : b.docState.activity = .SwitchingToOffline → b.isLoaded = true

theorem Driven.of_activity (h : b.docState.activity.isDriven = false) : b.Driven := by
  intro hdriven
  rw [h] at hdriven
  cases hdriven

theorem Driven.of_saves (h : b.childProcess.saves ≠ []) : b.Driven := fun _ _ => .inl h

/-- An activity that does not block follows one that does not block. -/
theorem Tidy.setActivity (h : b.Tidy) (hfree : b.docState.activity.blocksUI = false) {activity : Activity}
    (hoffline : activity ≠ .SwitchingToOffline) : Tidy { b with docState := b.docState.setActivity activity } where
  blocked hblocked := by
    rcases h.blocked hblocked with hact | hdone
    · rw [hfree] at hact
      cases hact
    · exact .inr hdone
  loaded hact := absurd hact hoffline

/-- The other parts of the state that the invariants speak of. -/
def watched (b : DocumentBroker) : DocumentState × List Activity × ChildProcess × Bool :=
  (b.docState, b.refusedActivities, b.childProcess, b.isDrivingUpload)

/-- Nothing starts and nothing ends. -/
structure Calm (b b' : DocumentBroker) : Prop where
  activity : b'.docState.activity = b.docState.activity
  refused : b'.refusedActivities = b.refusedActivities
  uiBlocked : b'.uiBlocked = b.uiBlocked
  loaded : b.isLoaded = true → b'.isLoaded = true
  destroying : b.isLoaded = true → b.docState.isMarkedToDestroy = true → b'.docState.isMarkedToDestroy = true
  alive : b'.childProcess.alive = true → b.childProcess.alive = true
  saves : b.childProcess.saves ≠ [] → b'.childProcess.saves ≠ []
  uploading : b.isDrivingUpload = true → b'.isDrivingUpload = true

/-- The invariants are kept. -/
structure Keeps (b b' : DocumentBroker) : Prop where
  refused : b'.refusedActivities = b.refusedActivities
  tidy : b.Tidy → b'.Tidy
  driven : b.Driven → b'.Driven

/-- No activity is refused, and the invariants are kept on a condition. -/
structure Attends (ok : Prop) (b b' : DocumentBroker) : Prop where
  refused : b'.refusedActivities = b.refusedActivities
  keeps : ok → b.Tidy → b.Driven → b'.Tidy ∧ b'.Driven

/-- What is said of one round of a loop is said of the loop. -/
theorem foldl_rel {r : DocumentBroker → DocumentBroker → Prop} (hrefl : ∀ b, r b b)
    (htrans : ∀ {b b' b''}, r b b' → r b' b'' → r b b'') {α : Type*} {f : DocumentBroker → α → DocumentBroker}
    (hf : ∀ b a, r b (f b a)) (l : List α) : r b (l.foldl f b) := by
  induction l generalizing b with
  | nil => exact hrefl b
  | cons a l ih => exact htrans (hf b a) ih

namespace Calm

theorem of_watched (hui : b'.uiBlocked = b.uiBlocked) (h : b'.watched = b.watched) : Calm b b' := by
  simp only [watched, Prod.mk.injEq] at h
  obtain ⟨hstate, hrefused, hchild, hup⟩ := h
  refine ⟨congrArg DocumentState.activity hstate, hrefused, hui, ?_, ?_, ?_, ?_, ?_⟩
  · simp [BrokerState.isLoaded, hstate]
  · simp [hstate]
  · simp [hchild]
  · simp [hchild]
  · simp [hup]

theorem refl : Calm b b := .of_watched rfl rfl

theorem trans (h : Calm b b') (h' : Calm b' b'') : Calm b b'' where
  activity := h'.activity.trans h.activity
  refused := h'.refused.trans h.refused
  uiBlocked := h'.uiBlocked.trans h.uiBlocked
  loaded := h'.loaded ∘ h.loaded
  destroying hloaded := h'.destroying (h.loaded hloaded) ∘ h.destroying hloaded
  alive := h.alive ∘ h'.alive
  saves := h'.saves ∘ h.saves
  uploading := h'.uploading ∘ h.uploading

theorem foldl {α : Type*} {f : DocumentBroker → α → DocumentBroker} (hf : ∀ b a, Calm b (f b a)) (l : List α) :
    Calm b (l.foldl f b) := foldl_rel (fun _ => refl) trans hf l

theorem tidy (h : Calm b b') (ht : b.Tidy) : b'.Tidy where
  blocked hblocked := by
    rw [h.uiBlocked] at hblocked
    rw [h.activity]
    rcases ht.blocked hblocked with hact | ⟨hloaded, hdestroying⟩
    · exact .inl hact
    · exact .inr ⟨h.loaded hloaded, h.destroying hloaded hdestroying⟩
  loaded hact := h.loaded (ht.loaded (h.activity.symm.trans hact))

theorem driven (h : Calm b b') (hd : b.Driven) : b'.Driven := by
  intro hact halive
  rw [h.activity] at hact
  exact (hd hact (h.alive halive)).imp h.saves h.uploading

theorem keeps (h : Calm b b') : Keeps b b' := ⟨h.refused, h.tidy, h.driven⟩

end Calm

namespace Keeps

theorem of_watched (hui : b'.uiBlocked = b.uiBlocked) (h : b'.watched = b.watched) : Keeps b b' :=
  (Calm.of_watched hui h).keeps

theorem refl : Keeps b b := ⟨rfl, id, id⟩

theorem trans (h : Keeps b b') (h' : Keeps b' b'') : Keeps b b'' :=
  ⟨h'.refused.trans h.refused, h'.tidy ∘ h.tidy, h'.driven ∘ h.driven⟩

theorem foldl {α : Type*} {f : DocumentBroker → α → DocumentBroker} (hf : ∀ b a, Keeps b (f b a)) (l : List α) :
    Keeps b (l.foldl f b) := foldl_rel (fun _ => refl) trans hf l

theorem attends (h : Keeps b b') {ok : Prop} : Attends ok b b' :=
  ⟨h.refused, fun _ ht hd => ⟨h.tidy ht, h.driven hd⟩⟩

end Keeps

theorem Attends.of_keeps {ok : Prop} (hrefused : b'.refusedActivities = b.refusedActivities) (h : ok → Keeps b b') :
    Attends ok b b' := ⟨hrefused, fun hok ht hd => ⟨(h hok).tidy ht, (h hok).driven hd⟩⟩

/-! ### Frames to the clients -/

theorem uiBlocked_broadcastMessage (text : String) :
    (b.broadcastMessage text).uiBlocked = Message.blocksUI b.uiBlocked (.broadcast text) := by
  simp [uiBlocked, broadcastMessage]

theorem uiBlocked_blockUI (msg : String) : (b.blockUI msg).uiBlocked = true := by
  rw [blockUI, uiBlocked_broadcastMessage]
  simp [Message.blocksUI]

theorem uiBlocked_unblockUI : b.unblockUI.uiBlocked = false := by
  rw [unblockUI, uiBlocked_broadcastMessage]
  rfl

theorem calm_broadcastMessage {text : String} (h : ∀ blocked, Message.blocksUI blocked (.broadcast text) = blocked) :
    Calm b (b.broadcastMessage text) :=
  .of_watched (by rw [uiBlocked_broadcastMessage, h]) rfl

theorem calm_sendTextFrame (text : String) : Calm b (b.sendTextFrame session text) := by
  unfold sendTextFrame
  split
  · exact .refl
  · exact .of_watched (by simp [uiBlocked, Message.blocksUI]) rfl

theorem calm_broadcastSaveResult (success : Bool) (result errorMsg : String) :
    Calm b (b.broadcastSaveResult success result errorMsg) :=
  .of_watched (by simp [uiBlocked, broadcastSaveResult, Message.blocksUI]) rfl

theorem calm_sendSaveRequestResult (client : Option ClientSession) (requestId : String) (success : Bool)
    (result errorMsg : String) : Calm b (b.sendSaveRequestResult client requestId success result errorMsg) := by
  cases client with
  | none => exact .refl
  | some client =>
    unfold sendSaveRequestResult
    dsimp only
    split
    · exact .refl
    · exact .of_watched rfl rfl

theorem calm_sendToSession (client : Option ClientSession) (text : String) :
    Calm b (b.sendToSession client text) := by
  cases client with
  | none => exact .refl
  | some client => exact calm_sendTextFrame text

/-! ### Sessions -/

theorem calm_stop (caller : StopCaller) (reason : String) : Calm b (b.stop caller reason) := .of_watched rfl rfl

theorem calm_markToDestroy : Calm b { b with docState := b.docState.markToDestroy } :=
  ⟨rfl, rfl, rfl, id, fun _ _ => rfl, id, id, id⟩

theorem calm_finalRemoveSession : Calm b (b.finalRemoveSession session) := .of_watched rfl rfl

theorem calm_failLoadingSession (remove : Bool) : Calm b (failLoadingSession remove b session) := by
  unfold failLoadingSession
  split
  · dsimp only
    split
    · exact (calm_sendTextFrame _).trans calm_finalRemoveSession
    · exact calm_sendTextFrame _
  · exact .refl

theorem calm_failLoadingSessions (remove : Bool) : Calm b (b.failLoadingSessions remove) :=
  .foldl (fun _ _ => calm_failLoadingSession remove) _

theorem calm_terminate : Calm b { b with childProcess := b.childProcess.terminate } :=
  ⟨rfl, rfl, rfl, id, fun _ => id, (fun h => nomatch h), id, id⟩

theorem calm_disconnectFromKit : Calm b (b.disconnectFromKit session).1 := by
  unfold disconnectFromKit
  split <;> exact .of_watched rfl rfl

theorem calm_disconnectSessionInternal : Calm b (b.disconnectSessionInternal session) := by
  unfold disconnectSessionInternal
  extract_lets b₁
  have h₁ : Calm b b₁ := by
    dsimp only [b₁]
    split
    · exact calm_markToDestroy
    · exact .refl
  refine h₁.trans ?_
  split
  · exact calm_finalRemoveSession
  · have h₂ : Calm b₁ (b₁.disconnectFromKit session).1 := calm_disconnectFromKit
    generalize b₁.disconnectFromKit session = p at h₂ ⊢
    obtain ⟨b₂, hardDisconnect⟩ := p
    refine h₂.trans ?_
    dsimp only
    set b₃ :=
      if b₂.sessions.list.length = b₂.countLoadingSessions + 1 then b₂.failLoadingSessions true else b₂ with hb₃
    have h₃ : Calm b₂ b₃ := by
      rw [hb₃]
      split
      · exact calm_failLoadingSessions true
      · exact .refl
    refine h₃.trans ?_
    have h₄ (reason : String) :
        Calm b₃ ({ b₃ with childProcess := b₃.childProcess.terminate }.stop .other reason) :=
      calm_terminate.trans (calm_stop _ _)
    split_ifs
    · exact (h₄ _).trans calm_finalRemoveSession
    · exact calm_finalRemoveSession
    · exact h₄ _
    · exact .refl

theorem calm_disconnectClosedSessions : Calm b b.disconnectClosedSessions := by
  refine .foldl (fun b id => ?_) _
  unfold disconnectIfClosed
  split
  · exact .refl
  · split
    · exact calm_disconnectSessionInternal
    · exact .refl

/-! ### Activities end -/

/-- An activity ends, and the user interface is unblocked. -/
theorem keeps_of_unblocked (hact : b'.docState.activity = .None) (hui : b'.uiBlocked = false)
    (hrefused : b'.refusedActivities = b.refusedActivities) : Keeps b b' where
  refused := hrefused
  tidy _ :=
    { blocked := fun hblocked => by
        rw [hui] at hblocked
        cases hblocked
      loaded := fun hoffline => by
        rw [hact] at hoffline
        cases hoffline }
  driven _ := .of_activity (by rw [hact]; rfl)

theorem keeps_endRenameFileCommand : Keeps b b.endRenameFileCommand :=
  keeps_of_unblocked rfl uiBlocked_unblockUI rfl

theorem keeps_endSwitchingToOffline : Keeps b b.endSwitchingToOffline :=
  keeps_of_unblocked rfl uiBlocked_unblockUI rfl

/-- An activity that does not block ends. -/
theorem keeps_endActivity (hfree : b.docState.activity.blocksUI = false) : Keeps b b.endActivity where
  refused := rfl
  tidy h := h.setActivity hfree (by decide)
  driven _ := .of_activity rfl

theorem calm_switchToOffline :
    Calm { b.endActivity with docState := b.endActivity.docState.markToDestroy } b.switchToOffline := by
  unfold switchToOffline
  dsimp only
  split
  · exact .refl
  · exact calm_sendTextFrame _

/-- The switch to offline is done: the document is marked to destroy. -/
theorem keeps_switchToOffline (hact : b.docState.activity = .SwitchingToOffline) : Keeps b b.switchToOffline := by
  have hdone : Keeps b { b.endActivity with docState := b.endActivity.docState.markToDestroy } :=
    { refused := rfl
      tidy := fun h =>
        { blocked := fun _ => .inr ⟨h.loaded hact, rfl⟩
          loaded := fun hoffline => by cases hoffline }
      driven := fun _ => .of_activity rfl }
  exact hdone.trans calm_switchToOffline.keeps

theorem switchToOffline_driven : b.switchToOffline.Driven := calm_switchToOffline.driven (.of_activity rfl)

/-! ### Saving -/

theorem id_of_find {m : SessionMap} {id : Nat} (h : m.find id = some session) : session.id = id := by
  simpa using List.find?_some h

theorem calm_forwardToChild (save : SaveCommand) : Calm b (b.forwardToChild session save).1 := by
  unfold forwardToChild
  split
  · exact .refl
  · split
    · exact ⟨rfl, rfl, rfl, id, fun _ => id, id, fun _ => by simp [ChildProcess.sendSave], id⟩
    · exact .refl

theorem keeps_startSave (hact : b.docState.activity = .None) : Keeps b (b.startActivity .Save).1 := by
  rw [startActivity_of_none hact]
  exact ⟨rfl, fun h => h.setActivity (by rw [hact]; rfl) (by decide), fun _ => .of_activity rfl⟩

theorem keeps_sendUnoSave (a₁ a₂ isAutosave a₄ : Bool) (extendedData id : String) :
    Keeps b (b.sendUnoSave session a₁ a₂ isAutosave a₄ extendedData id).1 := by
  unfold sendUnoSave
  have hprepare : Calm b (b.prepareUnoSave session a₁ a₂ isAutosave a₄ extendedData id).1 := .of_watched rfl rfl
  generalize b.prepareUnoSave session a₁ a₂ isAutosave a₄ extendedData id = p at hprepare ⊢
  obtain ⟨b₁, save⟩ := p
  have hforward : Calm b₁ (b₁.forwardToChild session save).1 := calm_forwardToChild save
  dsimp only
  generalize b₁.forwardToChild session save = p at hforward ⊢
  obtain ⟨b₂, sent⟩ := p
  refine (hprepare.trans hforward).keeps.trans ?_
  cases sent with
  | false => exact .refl
  | true =>
    have hmark : Calm b₂ { b₂ with saveManager := b₂.saveManager.markLastSaveRequestTime b₂.now } :=
      .of_watched rfl rfl
    refine hmark.keeps.trans ?_
    dsimp only
    split
    · rename_i hact
      exact keeps_startSave hact
    · exact .refl

/-- The save of an activity is in flight, if there is a kit. -/
theorem sendUnoSave_driven (hfound : (b.sessions.find session.id).isSome = true) (hact : b.docState.activity ≠ .None)
    (a₁ a₂ isAutosave a₄ : Bool) (extendedData id : String) :
    (b.sendUnoSave session a₁ a₂ isAutosave a₄ extendedData id).1.Driven := by
  have hfound : (b.sessions.find session.id).isNone = false := by simpa using hfound
  by_cases halive : b.childProcess.alive = true
  · refine .of_saves ?_
    simp [sendUnoSave, forwardToChild, prepareUnoSave, hfound, halive, hact, ChildProcess.sendSave]
  · intro _ halive'
    simp [sendUnoSave, forwardToChild, prepareUnoSave, hfound, halive] at halive'

theorem keeps_manualSave (a₁ a₂ : Bool) (extendedData id : String) :
    Keeps b (b.manualSave session a₁ a₂ extendedData id).1 := by
  unfold manualSave
  split
  · have hsend : Keeps b (b.sendUnoSave session a₁ a₂ false false extendedData id).1 :=
      keeps_sendUnoSave a₁ a₂ false false extendedData id
    generalize b.sendUnoSave session a₁ a₂ false false extendedData id = p at hsend ⊢
    obtain ⟨b₁, sent⟩ := p
    refine hsend.trans ?_
    cases sent with
    | true => exact .refl
    | false =>
      dsimp only
      split
      · exact .refl
      · have hclear : Calm b₁ { b₁ with nextStorageAttrs := { b₁.nextStorageAttrs with requestId := "" } } :=
          .of_watched rfl rfl
        exact (hclear.trans (calm_sendSaveRequestResult (some session) id false _ _)).keeps
  · exact (calm_sendSaveRequestResult (some session) id false _ _).keeps

theorem keeps_autoSave (force a finalWrite : Bool) : Keeps b (b.autoSave force a finalWrite).1 := by
  unfold autoSave
  split
  · exact .refl
  · extract_lets b₁
    have hchecked : Calm b b₁ := .of_watched rfl rfl
    refine hchecked.keeps.trans ?_
    split
    · exact .refl
    · split
      · exact .refl
      · split
        · exact .refl
        · split
          · exact keeps_sendUnoSave _ _ _ _ _ _
          · split
            · exact keeps_sendUnoSave _ _ _ _ _ _
            · exact .refl

/-! ### Renaming, and switching the mode -/

/-- An activity starts that blocks the user interface. -/
theorem Tidy.start {activity : Activity} (hblocks : activity.blocksUI = true)
    (hoffline : activity = .SwitchingToOffline → b.isLoaded = true) (msg : String) :
    Tidy ({ b with docState := b.docState.setActivity activity }.blockUI msg) where
  blocked _ := .inl hblocks
  loaded := hoffline

/-- An activity starts with a save. -/
theorem keeps_startWithSave {activity : Activity} (hblocks : activity.blocksUI = true)
    (hoffline : activity = .SwitchingToOffline → b.isLoaded = true) (msg : String)
    (hfound : b.sessions.find session.id = some session) :
    Keeps b (({ b with docState := b.docState.setActivity activity }.blockUI msg).sendUnoSave session false true false
      true "" "").1 where
  refused := (keeps_sendUnoSave _ _ _ _ _ _).refused
  tidy _ := (keeps_sendUnoSave _ _ _ _ _ _).tidy (Tidy.start hblocks hoffline msg)
  driven _ := by
    set b₁ := { b with docState := b.docState.setActivity activity }.blockUI msg
    have hfound₁ : b₁.sessions.find session.id = some session := hfound
    refine sendUnoSave_driven (Option.isSome_of_eq_some hfound₁) (fun hnone => ?_) _ _ _ _ _ _
    rw [show activity = .None from hnone] at hblocks
    cases hblocks

theorem renameSession_find (h : b.renameSession = some session) : b.sessions.find session.id = some session := by
  obtain ⟨id, -, hfind⟩ := Option.bind_eq_some_iff.1 h
  rwa [id_of_find hfind]

theorem keeps_startRenameFileCommand (hact : b.docState.activity = .None) : Keeps b b.startRenameFileCommand := by
  unfold startRenameFileCommand
  rw [startActivity_of_none hact]
  dsimp only
  split
  · exact keeps_of_unblocked rfl uiBlocked_unblockUI rfl
  · rename_i session hsession
    exact keeps_startWithSave rfl (fun h => by cases h) "rename" (renameSession_find hsession)

theorem keeps_handleRenameFileCommand (newFilename : String) :
    Keeps b (b.handleRenameFileCommand session newFilename) := by
  unfold handleRenameFileCommand
  split
  · exact (calm_sendTextFrame _).keeps
  · split
    · exact (calm_sendTextFrame _).keeps
    · extract_lets b₁
      have hnamed : Calm b b₁ := .of_watched rfl rfl
      refine hnamed.keeps.trans ?_
      split
      · rename_i hact
        exact keeps_startRenameFileCommand hact
      · exact .refl

theorem keeps_startSwitchingToOnline : Keeps b b.startSwitchingToOnline := by
  unfold startSwitchingToOnline
  split
  · exact .refl
  · rename_i hact
    rw [startActivity_of_none (not_not.1 hact)]
    exact ⟨rfl, fun _ => Tidy.start rfl (fun h => by cases h) _, fun _ => .of_activity rfl⟩

theorem switchMode_attends {mode : String} (hfound : b.sessions.find session.id = some session) :
    Attends (mode = "offline" → b.isLoaded = true) b (b.switchMode session mode) := by
  unfold switchMode
  split
  · exact keeps_startSwitchingToOnline.attends
  · split
    · rename_i hmode
      split
      · exact (calm_sendTextFrame _).keeps.attends
      · unfold startSwitchingToOffline
        split
        · exact Keeps.refl.attends
        · rename_i hact
          rw [startActivity_of_none (not_not.1 hact)]
          exact .of_keeps (keeps_sendUnoSave _ _ _ _ _ _).refused fun hloaded =>
            keeps_startWithSave rfl (fun _ => hloaded hmode) "switchingtooffline" hfound
    · exact Keeps.refl.attends

/-! ### Uploading -/

/-- A rename or a switch to offline ends when its upload fails. -/
theorem keeps_endFailedActivity (request : UploadRequest) : Keeps b (b.endFailedActivity request) := by
  unfold endFailedActivity
  split
  · exact keeps_endRenameFileCommand.trans (calm_sendToSession _ _).keeps
  · exact keeps_endSwitchingToOffline
  · exact (calm_sendToSession _ _).keeps

theorem endFailedActivity_driven (request : UploadRequest) : (b.endFailedActivity request).Driven := by
  unfold endFailedActivity
  split
  · exact (calm_sendToSession _ _).driven (.of_activity rfl)
  · exact .of_activity rfl
  · rename_i hrename hoffline
    exact (calm_sendToSession _ _).driven (.of_activity (Activity.isDriven_eq_false hrename hoffline))

/-- The upload request is marked as completed. -/
theorem calm_completed {request : UploadRequest} (h : b.uploadRequest = some request) :
    Calm b { b with uploadRequest := some { request with completed := true } } :=
  .of_watched rfl (by simp [watched, isDrivingUpload, h])

theorem keeps_asyncUploadFailed (result : UploadResult) : Keeps b (b.asyncUploadFailed result) := by
  unfold asyncUploadFailed
  split
  · exact .refl
  · rename_i request hrequest
    dsimp only
    refine (calm_completed hrequest).keeps.trans ?_
    refine (calm_broadcastSaveResult false "Could not upload document to storage" result.reason).keeps.trans ?_
    refine Keeps.trans (Calm.keeps ?_) (keeps_endFailedActivity request)
    exact .of_watched rfl rfl

theorem asyncUploadFailed_driven (h : b.uploadRequest.isSome = true) (result : UploadResult) :
    (b.asyncUploadFailed result).Driven := by
  obtain ⟨request, hrequest⟩ := Option.isSome_iff_exists.1 h
  unfold asyncUploadFailed
  rw [hrequest]
  exact endFailedActivity_driven request

/-- An upload that starts drives the activity on, unless it is that of a save-as; one that is refused ends it. -/
theorem uploadToStorageInternal_keeps_drives (path name : String) (isRename isExport force : Bool) :
    Keeps b (b.uploadToStorageInternal session path name isRename isExport force) ∧
      (session.isEditable = true → path = "" →
        (b.uploadToStorageInternal session path name isRename isExport force).Driven) := by
  unfold uploadToStorageInternal
  split
  · rename_i hreadOnly
    refine ⟨.refl, fun heditable => ?_⟩
    simp [heditable] at hreadOnly
  · dsimp only
    set b₁ := b.prepareUpload session (path != "") isRename isExport force with hb₁
    rcases b₁.storage.uploadLocalFileToStorageAsync_cases path name isRename b₁.lastStorageAttrs with
      ⟨file, reason, hupload⟩ | ⟨file, hfree, -, hupload⟩
    · rw [hupload]
      dsimp only
      set b₂ : DocumentBroker := { b₁ with storage :=
        { b₁.storage with attempts := b₁.storage.attempts + 1, lastAttempt := some ⟨file, false⟩ } } with hb₂
      set b₃ := b₂.asyncUploadFailed ⟨.FAILED, reason, "", ""⟩ with hb₃
      have hfailed : Keeps b₂ b₃ := keeps_asyncUploadFailed _
      have hdriven : b₃.Driven := asyncUploadFailed_driven rfl _
      have hsize : Calm b₃ { b₃ with storageManager := b₃.storageManager.setSizeAsUploaded 0 } := .of_watched rfl rfl
      refine ⟨⟨?_, fun h => hsize.tidy (hfailed.tidy ⟨h.blocked, h.loaded⟩), fun _ => hsize.driven hdriven⟩,
        fun _ _ => hsize.driven hdriven⟩
      exact hsize.refused.trans hfailed.refused
    · rw [hupload]
      have hstarted (hpath : path = "") : isDrivingUpload { b₁ with
          storage := { b₁.storage with
            attempts := b₁.storage.attempts + 1
            uploadHttpSession := some b₁.storage.attempts
            sessions := b₁.storage.sessions ++
              [b₁.storage.uploadRequest path name isRename b₁.lastStorageAttrs file]
            lastAttempt := some ⟨some file, true⟩ }
          storageManager := b₁.storageManager.setSizeAsUploaded file.size } = true := by
        simp [isDrivingUpload, WopiStorage.isInFlight, WopiStorage.uploadRequest, hb₁, prepareUpload, hpath]
      refine ⟨⟨rfl, fun h => ⟨h.blocked, h.loaded⟩, fun hdriven hact halive => ?_⟩,
        fun _ hpath _ _ => .inr (hstarted hpath)⟩
      -- no upload was in flight, so a save is
      left
      refine (hdriven hact halive).resolve_right fun hup => ?_
      have hidle : b.storage.isInFlight = false := WopiStorage.not_isInFlight_of_none hfree
      rw [isDrivingUpload, hidle] at hup
      cases hup

theorem keeps_uploadToStorageInternal (path name : String) (isRename isExport force : Bool) :
    Keeps b (b.uploadToStorageInternal session path name isRename isExport force) :=
  (uploadToStorageInternal_keeps_drives path name isRename isExport force).1

theorem uploadToStorageInternal_driven (heditable : session.isEditable = true) (name : String)
    (isRename isExport force : Bool) : (b.uploadToStorageInternal session "" name isRename isExport force).Driven :=
  (uploadToStorageInternal_keeps_drives "" name isRename isExport force).2 heditable rfl

theorem keeps_uploadToStorage (force : Bool) : Keeps b (b.uploadToStorage session force) := by
  unfold uploadToStorage
  split
  · exact keeps_uploadToStorageInternal _ _ _ _ _
  · exact .refl

theorem uploadToStorage_driven (heditable : session.isEditable = true) (hmay : b.mayUpload = true) (force : Bool) :
    (b.uploadToStorage session force).Driven := by
  unfold uploadToStorage
  rw [if_pos (by rw [Bool.or_assoc, show (_ || _) = b.mayUpload from rfl, hmay, Bool.or_true])]
  exact uploadToStorageInternal_driven heditable _ _ _ _

/-- The session of the rename command can upload, if it is there. -/
def renameCanUpload (b : DocumentBroker) : Bool := b.renameSession.all ClientSession.isEditable

theorem keeps_renameInStorage : Keeps b b.renameInStorage := by
  unfold renameInStorage
  split
  · exact keeps_of_unblocked rfl uiBlocked_unblockUI rfl
  · exact keeps_uploadToStorageInternal _ _ _ _ _

theorem renameInStorage_driven (h : b.renameCanUpload = true) : b.renameInStorage.Driven := by
  unfold renameInStorage
  split
  · exact .of_activity rfl
  · rename_i session hsession
    have heditable : session.isEditable = true := by simpa [renameCanUpload, hsession] using h
    exact uploadToStorageInternal_driven heditable _ _ _ _

/-! ### The result of an upload -/

theorem keeps_documentUploaded (request : UploadRequest) : Keeps b (b.documentUploaded request) := by
  unfold documentUploaded
  extract_lets b₁
  have hnoted : Calm b b₁ := .of_watched rfl rfl
  refine hnoted.keeps.trans ?_
  split
  · exact keeps_renameInStorage
  · rename_i hact
    exact keeps_switchToOffline hact
  · exact .refl

theorem documentUploaded_driven (h : b.docState.activity = .Rename → b.renameCanUpload = true)
    (request : UploadRequest) : (b.documentUploaded request).Driven := by
  unfold documentUploaded
  extract_lets b₁
  have hact : b₁.docState.activity = b.docState.activity := rfl
  split
  · rename_i hrename
    exact renameInStorage_driven (b := b₁) (h (hact.symm.trans hrename))
  · exact switchToOffline_driven
  · rename_i hrename hoffline
    exact .of_activity (Activity.isDriven_eq_false hrename hoffline)

theorem calm_documentRenamed (result : UploadResult) : Calm b.endRenameFileCommand (b.documentRenamed result) := by
  refine (calm_broadcastMessage fun blocked => ?_).trans (calm_broadcastMessage fun blocked => by rfl)
  simp [Message.blocksUI, List.isPrefixOf, toString]

theorem calm_documentSavedAs (request : UploadRequest) (result : UploadResult) :
    Calm b (b.documentSavedAs request result) := calm_sendToSession _ _

/-- The end of `handleUploadToStorageSuccessful`. -/
theorem calm_endOfUpload :
    let b₁ := if b.docState.unloadRequested then { b with docState := b.docState.markToDestroy } else b
    let b₂ :=
      if (b₁.docState.isMarkedToDestroy || b₁.sessions.list.isEmpty) && !b₁.isPossiblyModified then
        b₁.stop .handleUploadToStorageSuccessful "unloading"
      else b₁
    Calm b b₂.disconnectClosedSessions := by
  extract_lets b₁ b₂
  have h₁ : Calm b b₁ := by
    dsimp only [b₁]
    split
    · exact calm_markToDestroy
    · exact .refl
  have h₂ : Calm b₁ b₂ := by
    dsimp only [b₂]
    split
    · exact calm_stop _ _
    · exact .refl
  exact (h₁.trans h₂).trans calm_disconnectClosedSessions

/-- What the upload was for is done; it drives nothing on if it was that of a save-as. -/
theorem handleUploadToStorageSuccessful_keeps_drives (request : UploadRequest) (result : UploadResult) :
    Keeps b (b.handleUploadToStorageSuccessful request result) ∧
      (request.isSaveAs = false →
        (request.isRename = false → b.docState.activity = .Rename → b.renameCanUpload = true) →
        (b.handleUploadToStorageSuccessful request result).Driven) := by
  unfold handleUploadToStorageSuccessful
  extract_lets b₁ _ b₂ b₃ b₄ b₅
  have h₂ : Calm b b₂ := (calm_sendSaveRequestResult _ _ _ _ _).trans (.of_watched rfl rfl)
  have hsessions : b₂.renameCanUpload = b.renameCanUpload := by
    dsimp only [b₂, b₁]
    unfold sendSaveRequestResult
    split
    · rfl
    · split <;> rfl
  have h₅ : Calm b₃ b₅.disconnectClosedSessions := calm_endOfUpload (b := b₃)
  dsimp only [b₃] at h₅ ⊢
  by_cases hplain : (!request.isSaveAs && !request.isRename) = true
  · rw [if_pos hplain] at h₅
    refine ⟨(h₂.keeps.trans (keeps_documentUploaded request)).trans h₅.keeps, fun _ hrename => h₅.driven ?_⟩
    have hrequest : request.isRename = false := by simp_all
    refine documentUploaded_driven (fun hact => ?_) request
    rw [hsessions]
    exact hrename hrequest (h₂.activity.symm.trans hact)
  · rw [if_neg hplain] at h₅
    by_cases hrequest : request.isRename = true
    · rw [if_pos hrequest] at h₅
      have hrenamed : Keeps b₂ (b₂.documentRenamed result) :=
        keeps_endRenameFileCommand.trans (calm_documentRenamed result).keeps
      refine ⟨(h₂.keeps.trans hrenamed).trans h₅.keeps, fun _ _ => h₅.driven ?_⟩
      exact (calm_documentRenamed result).driven (.of_activity rfl)
    · rw [if_neg hrequest] at h₅
      refine ⟨(h₂.trans ((calm_documentSavedAs request result).trans h₅)).keeps, fun hsaveAs => ?_⟩
      simp [hsaveAs, hrequest] at hplain

theorem calm_handleDocumentConflict : Calm b b.handleDocumentConflict := by
  unfold handleDocumentConflict
  extract_lets b₁ message b₂
  have h₁ : Calm b b₁ := .of_watched rfl rfl
  have h₂ : Calm b₁ b₂ := by
    refine calm_broadcastMessage fun blocked => ?_
    dsimp only [message]
    split <;> rfl
  refine (h₁.trans h₂).trans ?_
  split
  · exact calm_stop _ _
  · exact .refl

theorem calm_setAllReadOnly (message : String) : Calm b (b.setAllReadOnly message) := by
  refine .of_watched ?_ rfl
  simp only [uiBlocked, setAllReadOnly, List.foldl_append, List.foldl_map]
  exact List.foldl_fixed _

/-- A failed upload that had no answer ends what blocked the user interface without unblocking it. -/
theorem keeps_handleFailedResult {result : UploadResult}
    (h : result.result = .FAILED → b.docState.activity.blocksUI = false) (request : UploadRequest) :
    Keeps b (b.handleFailedResult request result) := by
  unfold handleFailedResult
  split
  · exact ((calm_setAllReadOnly _).trans (calm_broadcastSaveResult _ _ _)).keeps
  · exact ((calm_setAllReadOnly _).trans (calm_broadcastSaveResult _ _ _)).keeps
  · have hexpired (b : DocumentBroker) (sessions : SessionMap) : Calm b { b with sessions := sessions } :=
      .of_watched rfl rfl
    exact ((calm_sendToSession _ _).trans ((hexpired _ _).trans (calm_broadcastSaveResult _ _ _))).keeps
  · rename_i hfailed
    dsimp only
    rw [startActivity_of_none (show b.endActivity.docState.activity = .None from rfl)]
    have hsync : Keeps b { b with docState := b.docState.setActivity .SyncFileTimestamp } :=
      ⟨rfl, fun ht => ht.setActivity (h hfailed) (by decide), fun _ => .of_activity rfl⟩
    exact hsync.trans ((calm_sendToSession _ _).trans (calm_broadcastSaveResult _ _ _)).keeps
  · exact ((calm_broadcastSaveResult _ _ _).trans calm_handleDocumentConflict).keeps
  · exact ((calm_broadcastSaveResult _ _ _).trans calm_handleDocumentConflict).keeps
  · exact .refl

theorem refused_handleFailedResult (request : UploadRequest) (result : UploadResult) :
    (b.handleFailedResult request result).refusedActivities = b.refusedActivities := by
  by_cases hfailed : result.result = .FAILED
  · unfold handleFailedResult
    rw [hfailed]
    dsimp only
    rw [startActivity_of_none (show b.endActivity.docState.activity = .None from rfl)]
    exact ((calm_sendToSession _ _).trans (calm_broadcastSaveResult _ _ _)).refused
  · exact (keeps_handleFailedResult (fun h => absurd h hfailed) request).refused

/-- A failed upload ends a rename.  Without an answer of the storage it ends a switch too, but does not unblock. -/
theorem handleUploadToStorageFailed_keeps_drives (request : UploadRequest) (result : UploadResult) :
    (b.handleUploadToStorageFailed request result).refusedActivities = b.refusedActivities ∧
      ((result.result = .FAILED → b.docState.activity = .Rename ∨ b.docState.activity.blocksUI = false) →
        Keeps b (b.handleUploadToStorageFailed request result)) ∧
      (b.docState.activity = .Rename → (b.handleUploadToStorageFailed request result).Driven) := by
  unfold handleUploadToStorageFailed
  extract_lets b₁ _ b₂ client b₃ b₄
  have h₂ : Calm b b₂ := (calm_sendSaveRequestResult _ _ _ _ _).trans (.of_watched rfl rfl)
  have h₃ : Keeps b₂ b₃ ∧ (b.docState.activity = .Rename → b₃.docState.activity = .None) ∧
      (b.docState.activity ≠ .Rename → b₃.docState.activity = b.docState.activity) := by
    dsimp only [b₃]
    rw [← h₂.activity]
    split
    · rename_i hact
      have hcalm : Calm b₂.endRenameFileCommand
          (b₂.endRenameFileCommand.sendToSession client "error: cmd=renamefile kind=failed") := calm_sendToSession _ _
      exact ⟨keeps_endRenameFileCommand.trans hcalm.keeps, fun _ => hcalm.activity, fun hne => absurd hact hne⟩
    · rename_i hact
      exact ⟨.refl, fun hrename => absurd hrename hact, fun _ => rfl⟩
  obtain ⟨hkeeps, hended, hother⟩ := h₃
  have h₄ (h : result.result = .FAILED → b₃.docState.activity.blocksUI = false) : Keeps b₃ b₄ :=
    keeps_handleFailedResult h request
  have h₅ (current last : Attributes) :
      Calm b₄ { b₄ with currentStorageAttrs := current, lastStorageAttrs := last } := .of_watched rfl rfl
  refine ⟨?_, fun h => h₂.keeps.trans (hkeeps.trans ((h₄ fun hfailed => ?_).trans (h₅ _ _).keeps)),
    fun hact => (h₅ _ _).driven ((h₄ fun _ => by rw [hended hact]; rfl).driven ?_)⟩
  · exact (refused_handleFailedResult request result).trans (hkeeps.refused.trans h₂.refused)
  · by_cases hact : b.docState.activity = .Rename
    · rw [hended hact]
      rfl
    · rw [hother hact]
      exact (h hfailed).resolve_left hact
  · exact .of_activity (by rw [hended hact]; rfl)

/-- A save is in flight, if there is a kit. -/
def isSaveInFlight (b : DocumentBroker) : Bool := !b.childProcess.alive || !b.childProcess.saves.isEmpty

theorem driven_of_isSaveInFlight (h : b.isSaveInFlight = true) : b.Driven := by
  intro _ halive
  left
  simpa [isSaveInFlight, halive] using h

theorem isSaveInFlight_of_driven (h : b.Driven) (hact : b.docState.activity.isDriven = true)
    (hup : b.isDrivingUpload = false) : b.isSaveInFlight = true := by
  cases halive : b.childProcess.alive with
  | false => simp [isSaveInFlight, halive]
  | true =>
    have hsaves : b.childProcess.saves ≠ [] := (h hact halive).resolve_right (by simp [hup])
    simpa [isSaveInFlight, halive] using hsaves

/-- The result of an upload drives the activity on, or ends it and unblocks the user interface: where no save is in
flight, the session of a rename can upload what is left, and a switch to offline is not answered with an error; no
switch is left without an answer. -/
def goesOnAfterUpload (b : DocumentBroker) (response : WopiResponse) : Bool :=
  b.uploadRequest.all fun request =>
    match b.docState.activity with
    | .Rename =>
      response.statusCode ≠ 200 || request.isSaveAs || request.isRename || b.isSaveInFlight || b.renameCanUpload
    | .SwitchingToOffline => response.statusCode = 200 || (response.isAnswer && b.isSaveInFlight)
    | .SwitchingToOnline => response.isAnswer
    | _ => true

/-- The response to the upload of a request is handled, with any state of the storage. -/
theorem handleUploadToStorageResponse_attends {response : WopiResponse} {request : UploadRequest}
    (hrequest : b.uploadRequest = some request) {result : UploadResult}
    (hsuccess : result.result = .OK ↔ response.statusCode = 200)
    (hfailed : result.result = .FAILED → response.isAnswer = false) (st : WopiStorage) (finished : UploadRequest)
    (hsaveAs : finished.isSaveAs = request.isSaveAs) (hrename : finished.isRename = request.isRename) :
    Attends (b.goesOnAfterUpload response = true) b
      ({ b with storage := st, uploadRequest := some finished }.handleUploadToStorageResponse finished result) := by
  unfold handleUploadToStorageResponse
  extract_lets b₁
  have hact₁ : b₁.docState.activity = b.docState.activity := rfl
  have hd₁ (h : b.isSaveInFlight = true ∨ b.docState.activity.isDriven = false) : b₁.Driven :=
    h.elim (driven_of_isSaveInFlight (b := b₁)) (Driven.of_activity (b := b₁))
  split
  · rename_i hresult
    obtain ⟨hkeeps, hdriven⟩ := handleUploadToStorageSuccessful_keeps_drives (b := b₁) finished result
    refine ⟨hkeeps.refused, fun hok ht hd => ⟨hkeeps.tidy ⟨ht.blocked, ht.loaded⟩, ?_⟩⟩
    simp only [goesOnAfterUpload, hrequest, Option.all_some] at hok
    by_cases hsaving : b.isSaveInFlight = true ∨ b.docState.activity.isDriven = false
    · exact hkeeps.driven (hd₁ hsaving)
    · obtain ⟨hsaving, hact⟩ := not_or.1 hsaving
      have hresponse : response.statusCode = 200 := hsuccess.1 hresult
      have hplain : request.isSaveAs = false := by
        by_contra hother
        rw [Bool.not_eq_false] at hother
        refine hsaving (isSaveInFlight_of_driven hd (by simpa using hact) ?_)
        simp [isDrivingUpload, hrequest, hother]
      refine hdriven (hsaveAs.trans hplain) fun hplain' hact' => ?_
      rw [hact₁.symm.trans hact'] at hok
      have hsaving : b.isSaveInFlight = false := by simpa using hsaving
      have hcan : b.renameCanUpload = true := by
        simpa [hresponse, hplain, hrename.symm.trans hplain', hsaving] using hok
      exact hcan
  · rename_i hresult
    have hresponse : response.statusCode ≠ 200 := fun h => hresult (hsuccess.2 h)
    obtain ⟨hrefused, hkeeps, hdriven⟩ := handleUploadToStorageFailed_keeps_drives (b := b₁) finished result
    refine ⟨hrefused, fun hok ht hd => ?_⟩
    simp only [goesOnAfterUpload, hrequest, Option.all_some] at hok
    have hends : result.result = .FAILED →
        b₁.docState.activity = .Rename ∨ b₁.docState.activity.blocksUI = false := by
      intro hlost
      rw [hact₁]
      cases hact : b.docState.activity with
      | Rename => exact .inl rfl
      | SwitchingToOffline => simp [hact, hresponse, hfailed hlost] at hok
      | SwitchingToOnline => simp [hact, hfailed hlost] at hok
      | _ => exact .inr rfl
    have hkeeps := hkeeps hends
    refine ⟨hkeeps.tidy ⟨ht.blocked, ht.loaded⟩, ?_⟩
    cases hact : b.docState.activity with
    | Rename => exact hdriven hact
    | SwitchingToOffline =>
      have hsaving : response.isAnswer = true ∧ b.isSaveInFlight = true := by simpa [hact, hresponse] using hok
      exact hkeeps.driven (hd₁ (.inl hsaving.2))
    | _ => exact hkeeps.driven (hd₁ (.inr (by rw [hact]; rfl)))

theorem uploadFinished_attends {attempt : Nat} {response : WopiResponse}
    (h : b.uploadFinished attempt response = some b') : Attends (b.goesOnAfterUpload response = true) b b' := by
  unfold uploadFinished at h
  split at h
  · cases h
  · rename_i upload hupload
    split at h
    · cases h
    · obtain ⟨st, result, hfinished, hsuccess, hfailed⟩ := b.storage.finished_complete upload response
      rw [hfinished] at h
      obtain rfl := Option.some.inj h
      unfold asyncUploadCallback
      dsimp only
      split
      · rename_i hrequest
        refine ⟨rfl, fun _ ht hd => ⟨⟨ht.blocked, ht.loaded⟩, fun hact halive => .inl ?_⟩⟩
        refine (hd hact halive).resolve_right fun hup => ?_
        rw [isDrivingUpload, show b.uploadRequest = none from hrequest] at hup
        simp at hup
      · rename_i request hrequest
        exact handleUploadToStorageResponse_attends hrequest hsuccess hfailed st
          { request with completed := true } rfl rfl

theorem keeps_uploadConnectFailed {attempt : Nat} (h : b.uploadConnectFailed attempt = some b') : Keeps b b' := by
  unfold uploadConnectFailed at h
  split at h
  · cases h
  · rename_i upload hupload
    obtain rfl := Option.some.inj h
    unfold asyncUploadCallback
    dsimp only
    refine ⟨(keeps_asyncUploadFailed _).refused, fun ht => (keeps_asyncUploadFailed _).tidy ⟨ht.blocked, ht.loaded⟩,
      fun hd => ?_⟩
    cases hrequest : b.uploadRequest with
    | none =>
      refine (keeps_asyncUploadFailed _).driven fun hact halive => .inl ?_
      refine (hd hact halive).resolve_right fun hup => ?_
      rw [isDrivingUpload, hrequest] at hup
      simp at hup
    | some request => exact asyncUploadFailed_driven rfl _

/-! ### The result of a save -/

/-- With a save just done or nothing to save, the session can upload what there is to upload. -/
def canGoOn (b : DocumentBroker) (session : ClientSession) (justSaved : Bool) : Bool :=
  let modified := if justSaved then b.haveModifyActivityAfterSaveRequest else b.needToSaveToDisk ≠ .No
  if b.needToUploadToStorage = .No then b.docState.activity ≠ .Rename || b.renameCanUpload
  else session.isEditable && b.mayUpload && !(modified && b.isUnloading)

theorem checkAndUploadToStorage_keeps_drives (session : ClientSession) (justSaved : Bool) :
    Keeps b (b.checkAndUploadToStorage session justSaved) ∧
      (b.canGoOn session justSaved = true → (b.checkAndUploadToStorage session justSaved).Driven) := by
  unfold checkAndUploadToStorage
  extract_lets needToUpload b₁ modified b₂ _ b₃
  split
  · rename_i hact
    refine ⟨keeps_renameInStorage, fun hgo => renameInStorage_driven ?_⟩
    simpa [canGoOn, hact.1, show b.needToUploadToStorage = .No from hact.2] using hgo
  · split
    · rename_i hact
      exact ⟨keeps_switchToOffline hact.1, fun _ => switchToOffline_driven⟩
    · rename_i hrename hoffline
      have h₁ : Keeps b b₁ := by
        dsimp only [b₁]
        split
        · rename_i hact
          exact keeps_endActivity (by rw [hact]; rfl)
        · exact .refl
      have h₂ : Calm b₁ b₂ := calm_sendSaveRequestResult _ _ _ _ _
      have h₃ : Calm b₂ b₃ := .of_watched rfl rfl
      set b₄ := if (modified && b₁.isUnloading) = true then b₁
        else if needToUpload ≠ .No then b₁.uploadToStorage session false
        else if (!b₁.isAsyncUploading) = true then b₃.disconnectClosedSessions else b₁ with hb₄
      have h₄ : Keeps b₁ b₄ := by
        rw [hb₄]
        split_ifs
        · exact .refl
        · exact keeps_uploadToStorage false
        · exact (h₂.trans (h₃.trans calm_disconnectClosedSessions)).keeps
        · exact .refl
      refine ⟨h₁.trans h₄, fun hgo => ?_⟩
      cases hact : b.docState.activity.isDriven with
      | false => exact (h₁.trans h₄).driven (.of_activity hact)
      | true =>
        have hsave : b.docState.activity ≠ .Save := fun hsave => by simp [hsave, Activity.isDriven] at hact
        have hb₁ : b₁ = b := if_neg hsave
        have hneed : needToUpload ≠ .No := by
          intro hnone
          rw [Activity.isDriven_eq_false (fun h => hrename ⟨h, hnone⟩) fun h => hoffline ⟨h, hnone⟩] at hact
          cases hact
        have hmodified : modified =
            if justSaved then b.haveModifyActivityAfterSaveRequest else b.needToSaveToDisk ≠ .No := by
          dsimp only [modified]
          rw [hb₁]
        obtain ⟨⟨heditable, hmay⟩, hstay⟩ : (session.isEditable = true ∧ b.mayUpload = true) ∧
            (modified && b.isUnloading) = false := by
          rw [hmodified]
          unfold canGoOn at hgo
          rw [if_neg hneed, Bool.and_eq_true, Bool.and_eq_true, Bool.not_eq_true'] at hgo
          exact hgo
        rw [hb₄, hb₁, if_neg (by simp [hstay]), if_pos hneed]
        exact uploadToStorage_driven heditable hmay false

/-- Whether the version that a save response is for has been uploaded already, or there is none. -/
def isVersionUploaded (b : DocumentBroker) (response : SaveResponse) : Bool :=
  !(b.isUnloading && b.config.alwaysSaveOnExit && (response.success || 0 < b.saveManager.version)) &&
    (b.storageManager.lastUploadSuccessful || b.documentChangedInStorage) &&
    (b.storage.fileToUpload.or b.storage.fileUploading).all fun file =>
      file.modifiedTime = b.storageManager.lastUploadedFileModifiedLocalTime

theorem needToUploadToStorage_takeSaveResponse (response : SaveResponse) :
    (b.takeSaveResponse response).needToUploadToStorage = .No ↔ b.isVersionUploaded response = true := by
  have hfile : b.storage.renameFileToUpload.fileUploading = b.storage.fileToUpload.or b.storage.fileUploading := by
    unfold WopiStorage.renameFileToUpload
    split <;> rename_i h <;> simp [h]
  have houtdated : (b.takeSaveResponse response).isStorageOutdated =
      !(b.storage.fileToUpload.or b.storage.fileUploading).all fun file =>
        file.modifiedTime = b.storageManager.lastUploadedFileModifiedLocalTime := by
    rw [← hfile]
    unfold BrokerState.isStorageOutdated takeSaveResponse
    dsimp only
    split <;> rename_i h <;> simp [h]
  have hversion : decide (0 < (b.takeSaveResponse response).saveManager.version) =
      (response.success || decide (0 < b.saveManager.version)) := by
    simp only [takeSaveResponse, SaveManager.setLastSaveResult]
    split <;> rename_i h <;> simp [h]
  have hsame : (b.takeSaveResponse response).isUnloading = b.isUnloading ∧
      (b.takeSaveResponse response).config = b.config ∧
      (b.takeSaveResponse response).storageManager = b.storageManager ∧
      (b.takeSaveResponse response).documentChangedInStorage = b.documentChangedInStorage := ⟨rfl, rfl, rfl, rfl⟩
  obtain ⟨hunloading, hconfig, hmanager, hchanged⟩ := hsame
  unfold BrokerState.needToUploadToStorage isVersionUploaded
  rw [houtdated, hversion, hunloading, hconfig, hmanager, hchanged]
  have hcases (exit last changed all : Bool) :
      (if exit = true then NeedToUpload.Yes else if (!last && !changed) = true then .Yes
        else if (!all) = true then .Yes else .No) = .No ↔ (!exit && (last || changed) && all) = true := by
    cases exit <;> cases last <;> cases changed <;> cases all <;> decide
  exact hcases _ _ _ _

/-- The clients are told, and nothing else changes but the request id of the version. -/
theorem reportSaveFailed_eq (response : SaveResponse) : ∃ sent results attrs,
    b.reportSaveFailed session response =
      { b with sent := sent, saveRequestResults := results, currentStorageAttrs := attrs } := by
  unfold reportSaveFailed sendTextFrame sendSaveRequestResult broadcastSaveResult
  dsimp only
  split_ifs <;> exact ⟨_, _, _, rfl⟩

/-- The session of a save can go on with the upload when the response comes. -/
def canUploadSaved (b : DocumentBroker) (session : ClientSession) (response : SaveResponse) : Bool :=
  if b.isVersionUploaded response then b.docState.activity ≠ .Rename || b.renameCanUpload
  else
    session.isEditable && b.mayUpload &&
      !((!response.saved || b.haveModifyActivityAfterSaveRequest) && b.isUnloading)

/-- A save response drives the activity on: something else is in flight, or the session of the save is there and can
go on. -/
def goesOnAfterSave (b : DocumentBroker) (index : Nat) (response : SaveResponse) : Bool :=
  !b.docState.activity.isDriven || 1 < b.childProcess.saves.length || b.isDrivingUpload ||
    ((b.childProcess.saves[index]?).bind fun save => b.sessions.find save.session).any fun session =>
      b.canUploadSaved session response

theorem canGoOn_of_canUploadSaved {response : SaveResponse} (h : b.canUploadSaved session response = true)
    (sent : List Message) (results : List SaveRequestResult) (attrs : Attributes) :
    canGoOn { b.takeSaveResponse response with sent, saveRequestResults := results, currentStorageAttrs := attrs }
      session response.saved = true := by
  set b₁ : DocumentBroker :=
    { b.takeSaveResponse response with sent, saveRequestResults := results, currentStorageAttrs := attrs } with hb₁
  have hneed : b₁.needToUploadToStorage = .No ↔ b.isVersionUploaded response = true :=
    needToUploadToStorage_takeSaveResponse (b := b) response
  unfold canUploadSaved at h
  unfold canGoOn
  dsimp only
  by_cases hup : b.isVersionUploaded response = true
  · rw [if_pos hup] at h
    rw [if_pos (hneed.2 hup)]
    exact h
  · rw [if_neg hup] at h
    rw [if_neg (mt hneed.1 hup)]
    cases hsaved : response.saved with
    | true =>
      rw [hsaved] at h
      exact h
    | false =>
      have hstays : (session.isEditable = true ∧ b.mayUpload = true) ∧ b.isUnloading = false := by
        simpa [hsaved] using h
      obtain ⟨⟨heditable, hmay⟩, hstays⟩ := hstays
      have hmay₁ : b₁.mayUpload = true := hmay
      have hstays₁ : b₁.isUnloading = false := hstays
      simp [heditable, hmay₁, hstays₁]

theorem handleSaveResponse_keeps_drives (session : ClientSession) (response : SaveResponse) :
    Keeps b (b.handleSaveResponse session response) ∧
      (b.canUploadSaved session response = true → (b.handleSaveResponse session response).Driven) := by
  unfold handleSaveResponse
  dsimp only
  set b₁ := if response.saved then b.takeSaveResponse response
    else (b.takeSaveResponse response).reportSaveFailed session response with hb₁
  obtain ⟨sent, results, attrs, h₁⟩ : ∃ sent results attrs, b₁ =
      { b.takeSaveResponse response with sent, saveRequestResults := results, currentStorageAttrs := attrs } := by
    rw [hb₁]
    split
    · exact ⟨_, _, _, rfl⟩
    · exact reportSaveFailed_eq response
  have hcalm : Calm b b₁ := by
    have htake : Calm b (b.takeSaveResponse response) := by
      refine .of_watched rfl ?_
      simp [watched, takeSaveResponse, isDrivingUpload]
    refine htake.trans ?_
    rw [hb₁]
    split
    · exact .refl
    · exact ((calm_sendTextFrame _).trans ((calm_broadcastSaveResult _ _ _).trans
        (calm_sendSaveRequestResult _ _ _ _ _))).trans (.of_watched rfl rfl)
  obtain ⟨hkeeps, hdriven⟩ := checkAndUploadToStorage_keeps_drives (b := b₁) session response.saved
  refine ⟨hcalm.keeps.trans hkeeps, fun hgo => hdriven ?_⟩
  rw [h₁]
  exact canGoOn_of_canUploadSaved hgo sent results attrs

/-- With something else in flight when a save is answered, or a session that can go on. -/
theorem goesOnAfterSave_cases {index : Nat} {response : SaveResponse} {save : SaveCommand}
    (hsave : b.childProcess.saves[index]? = some save) (h : b.goesOnAfterSave index response = true) :
    Driven { b with childProcess := b.childProcess.dropSave index } ∨
      ∃ session, b.sessions.find save.session = some session ∧ b.canUploadSaved session response = true := by
  unfold goesOnAfterSave at h
  rw [hsave] at h
  simp only [Bool.or_eq_true, Bool.not_eq_true', decide_eq_true_eq, Option.bind_some, Option.any_eq_true] at h
  rcases h with ((hact | hmore) | hup) | hsession
  · exact .inl (.of_activity hact)
  · refine .inl (.of_saves fun hnone => ?_)
    have hlength := congrArg List.length hnone
    rw [ChildProcess.dropSave, List.length_eraseIdx_of_lt (List.getElem?_eq_some_iff.1 hsave).1,
      List.length_nil] at hlength
    omega
  · exact .inl fun _ _ => .inr hup
  · exact .inr hsession

theorem saveResponse_attends {index : Nat} {response : SaveResponse} (h : b.saveResponse index response = some b') :
    Attends (b.goesOnAfterSave index response = true) b b' := by
  unfold saveResponse at h
  split at h
  · cases h
  · rename_i save hsave
    extract_lets b₁ file b₂ at h
    split at h
    · rename_i hnone
      obtain rfl := Option.some.inj h
      refine ⟨rfl, fun hok ht _ => ⟨⟨ht.blocked, ht.loaded⟩, ?_⟩⟩
      refine (goesOnAfterSave_cases hsave hok).resolve_right ?_
      rintro ⟨session, hsession, -⟩
      cases hnone.symm.trans hsession
    · rename_i session hsession
      obtain rfl := Option.some.inj h
      have hnoted : Calm b₁ b₂ := .of_watched rfl rfl
      obtain ⟨hkeeps, hdriven⟩ := handleSaveResponse_keeps_drives (b := b₂) session response
      refine ⟨hkeeps.refused, fun hok ht _ => ⟨hkeeps.tidy ⟨ht.blocked, ht.loaded⟩, ?_⟩⟩
      rcases goesOnAfterSave_cases hsave hok with hother | ⟨session', hsession', hgo⟩
      · exact hkeeps.driven (hnoted.driven hother)
      · obtain rfl := Option.some.inj (hsession.symm.trans hsession')
        exact hdriven hgo

/-! ### Unloading -/

theorem calm_closeDocument (reason : String) : Calm b (b.closeDocument reason) := by
  unfold closeDocument
  extract_lets b₁
  have h₁ : Calm b b₁ := ⟨rfl, rfl, rfl, id, fun _ => id, id, id, id⟩
  refine h₁.trans ?_
  split
  · exact calm_stop _ _
  · exact .refl

theorem calm_disconnectedFromKit (unexpected : Bool) : Calm b (b.disconnectedFromKit unexpected) := by
  unfold disconnectedFromKit
  extract_lets b₁ b₂
  have h₁ : Calm b b₁ := ⟨rfl, rfl, rfl, id, fun _ => id, id, id, id⟩
  have h₂ : Calm b₁ b₂ := by
    dsimp only [b₂]
    split
    · exact calm_closeDocument _
    · exact .refl
  exact (h₁.trans h₂).trans (calm_failLoadingSessions false)

theorem keeps_saveBeforeStop (reason : String) : Keeps b (b.saveBeforeStop reason) := by
  unfold saveBeforeStop
  have hsave : Keeps b (b.autoSave (b.isPossiblyModified || !b.saveManager.lastSaveSuccessful) true true).1 :=
    keeps_autoSave _ _ _
  generalize b.autoSave (b.isPossiblyModified || !b.saveManager.lastSaveSuccessful) true true = p at hsave ⊢
  obtain ⟨b₁, sent⟩ := p
  refine hsave.trans ?_
  cases sent with
  | true => exact .refl
  | false =>
    dsimp only
    split
    · split
      · exact (checkAndUploadToStorage_keeps_drives _ false).1
      · exact (calm_stop _ _).keeps
    · exact (calm_stop _ _).keeps

theorem keeps_autoSaveAndStop (reason : String) : Keeps b (b.autoSaveAndStop reason) := by
  unfold autoSaveAndStop
  split
  · exact .refl
  · split
    · exact .refl
    · exact (calm_stop _ _).keeps
    · split
      · exact keeps_saveBeforeStop reason
      · exact .refl

theorem keeps_removeSession : Keeps b (b.removeSession session) := by
  unfold removeSession
  extract_lets activeSessionCount lastEditableSession b₁
  have h₁ : Keeps b b₁ := by
    dsimp only [b₁]
    split
    · exact calm_disconnectSessionInternal.keeps
    · split
      · exact .refl
      · have hsave : Keeps b (b.autoSave (b.config.alwaysSaveOnExit || b.isPossiblyModified) true true).1 :=
          keeps_autoSave _ _ _
        generalize b.autoSave (b.config.alwaysSaveOnExit || b.isPossiblyModified) true true = p at hsave ⊢
        obtain ⟨b₂, sent⟩ := p
        cases sent with
        | true => exact hsave
        | false => exact hsave.trans calm_disconnectSessionInternal.keeps
  refine h₁.trans (Calm.keeps ?_)
  split_ifs
  · exact ⟨rfl, rfl, rfl, id, fun _ => id, id, id, id⟩
  · exact calm_markToDestroy
  · exact .refl
  · exact .refl

/-! ### The poll loop -/

theorem keeps_pollNone (hact : b.docState.activity = .None) : Keeps b b.pollNone := by
  unfold pollNone
  extract_lets b₁
  have h₁ : Keeps b b₁ := ⟨rfl, fun h => ⟨h.blocked, h.loaded⟩,
    fun _ => .of_activity (by rw [show b₁.docState.activity = .None from hact]; rfl)⟩
  refine h₁.trans ?_
  split_ifs
  · exact keeps_startRenameFileCommand hact
  · exact keeps_autoSaveAndStop "idle"
  · unfold pollNoSessions
    split_ifs
    · exact (calm_stop _ _).keeps.trans (keeps_autoSaveAndStop "dead")
    · exact .refl
    · exact keeps_autoSaveAndStop "dead"
  · unfold waitForMigration
    split
    · exact .of_watched rfl rfl
    · split
      · exact .of_watched rfl rfl
      · exact .refl
  · unfold pollUnloading
    split
    · exact (calm_stop _ _).keeps
    · exact keeps_autoSaveAndStop _
  · exact keeps_autoSave _ _ _
  · unfold retryUpload
    split
    · split
      · split
        · exact (checkAndUploadToStorage_keeps_drives _ false).1
        · exact .refl
      · exact .refl
    · exact .refl

theorem keeps_pollSave (hfree : b.docState.activity.blocksUI = false) : Keeps b b.pollSave := by
  unfold pollSave
  split
  · have hfailed : Calm b { b with saveManager := b.saveManager.setLastSaveResult b.now false false } :=
      .of_watched rfl rfl
    exact hfailed.keeps.trans (keeps_endActivity hfree)
  · exact .refl

theorem keeps_pollSyncFileTimestamp (hfree : b.docState.activity.blocksUI = false) :
    Keeps b b.pollSyncFileTimestamp := by
  unfold pollSyncFileTimestamp
  split
  · exact .refl
  · split
    · have hunsafe : Calm b { b with storage := b.storage.setLastModifiedTimeUnSafe } := .of_watched rfl rfl
      exact hunsafe.keeps.trans (keeps_endActivity hfree)
    · split
      · exact .refl
      · exact .of_watched rfl rfl

theorem keeps_poll : Keeps b b.poll := by
  unfold poll
  split
  · rename_i hact
    exact keeps_pollNone hact
  · rename_i hact
    exact keeps_pollSave (by rw [hact]; rfl)
  · rename_i hact
    exact keeps_pollSave (by rw [hact]; rfl)
  · rename_i hact
    exact keeps_pollSyncFileTimestamp (by rw [hact]; rfl)
  · have hpostponed (m : SaveManager) : Calm b { b with saveManager := m } := .of_watched rfl rfl
    exact (hpostponed _).keeps

theorem checkFileInfoContinuation_attends (id : Nat) (result : CheckFileInfoResult) :
    Attends (b.docState.activity.blocksUI = false) b (b.checkFileInfoContinuation id result) := by
  have hended : Keeps { b with checkFileInfo := some ⟨id, true⟩ }.endActivity
      (b.checkFileInfoContinuation id result) := by
    unfold checkFileInfoContinuation
    dsimp only
    split
    · split
      · exact .of_watched rfl rfl
      · refine Keeps.trans ?_ calm_handleDocumentConflict.keeps
        exact .of_watched rfl rfl
    · exact .of_watched rfl rfl
    · exact .of_watched rfl rfl
    · exact .of_watched rfl rfl
  refine ⟨hended.refused, fun hfree ht _ => ⟨hended.tidy ?_, hended.driven (.of_activity rfl)⟩⟩
  exact (keeps_endActivity (b := { b with checkFileInfo := some ⟨id, true⟩ }) hfree).tidy ⟨ht.blocked, ht.loaded⟩

/-! ### Events -/

theorem calm_download (fileInfo : Option FileInfo) : Calm b (b.download fileInfo).1 := by
  unfold download
  split
  · exact .refl
  · rename_i fileInfo
    extract_lets b₁ b₂
    have h₁ : Calm b b₁ := by
      dsimp only [b₁]
      unfold noteFileInfo
      split
      · exact .refl
      · exact .of_watched rfl rfl
    have h₂ : Calm b₁ b₂ := .of_watched rfl rfl
    refine (h₁.trans h₂).trans ?_
    split
    · exact .refl
    · split
      · exact calm_handleDocumentConflict
      · exact .refl

theorem keeps_addSession {fileInfo : Option FileInfo} (h : b.addSession session fileInfo = some b') : Keeps b b' := by
  unfold addSession at h
  split at h
  · cases h
  · have hreset : Calm b { b with docState := b.docState.resetUnloadRequested } :=
      ⟨rfl, rfl, rfl, id, fun _ => id, id, id, id⟩
    have hdownload := calm_download (b := { b with docState := b.docState.resetUnloadRequested }) fileInfo
    generalize download _ fileInfo = p at h hdownload
    obtain ⟨b₁, downloaded⟩ := p
    refine (hreset.trans hdownload).keeps.trans ?_
    cases downloaded with
    | true =>
      dsimp only at h
      split at h
      · obtain rfl := Option.some.inj h
        exact .of_watched rfl rfl
      · cases h
    | false =>
      obtain rfl := Option.some.inj h
      dsimp only
      split
      · exact calm_markToDestroy.keeps
      · exact .refl

theorem calm_setLoaded : Calm b b.setLoaded := by
  unfold setLoaded
  split
  · exact .refl
  · rename_i hnot
    exact ⟨rfl, rfl, rfl, fun _ => rfl, fun hloaded => absurd hloaded hnot, id, id, id⟩

theorem keeps_sessionLoaded (isFirst : Bool) (templateSize : Option Nat) :
    Keeps b (b.sessionLoaded session isFirst templateSize) := by
  unfold sessionLoaded
  split
  · extract_lets b₁ b₂
    have h₁ : Calm b b₁ := .of_watched rfl rfl
    refine h₁.keeps.trans ?_
    split
    · refine calm_setLoaded.keeps.trans ?_
      split
      · exact .refl
      · refine Keeps.trans ?_ (keeps_uploadToStorage false)
        refine .of_watched rfl ?_
        simp only [watched, isDrivingUpload, WopiStorage.isInFlight_renameFileToUpload]
        rfl
    · exact .refl
  · exact .refl

theorem calm_quarantineLastVersion : Calm b b.quarantineLastVersion := by
  unfold quarantineLastVersion
  split
  · exact .of_watched rfl rfl
  · exact .refl

theorem keeps_terminateChild : Keeps b b.terminateChild := by
  unfold terminateChild
  extract_lets reason b₁
  have h₁ : Keeps b b₁ := by
    refine .foldl (fun b id => ?_) _
    unfold shutdownClient
    split
    · exact .refl
    · split
      · exact calm_finalRemoveSession.keeps
      · exact keeps_removeSession
  exact h₁.trans (calm_terminate.trans (calm_stop _ _)).keeps

theorem keeps_withSession {id : Nat} {f : ClientSession → DocumentBroker} (h : b.withSession id f = some b')
    (hf : ∀ session, b.sessions.find id = some session → Keeps b (f session)) : Keeps b b' := by
  obtain ⟨session, hsession, rfl⟩ := Option.map_eq_some_iff.1 h
  exact hf session hsession

/-- An event lets a rename or a switch go on, or ends it and unblocks the user interface. -/
def goesOn (b : DocumentBroker) : Event → Bool
  | .switchMode _ mode => mode ≠ "offline" || b.isLoaded
  | .saveResponse index response => b.goesOnAfterSave index response
  | .uploadFinished _ response => b.goesOnAfterUpload response
  | .checkFileInfoFinished _ => !b.docState.activity.blocksUI
  | _ => true

theorem handle_attends {e : Event} (h : b.handle e = some b') : Attends (b.goesOn e = true) b b' := by
  have hkeeps {c : DocumentBroker} (h : some c = some b') (hc : Keeps b c) : Keeps b b' := by
    obtain rfl := Option.some.inj h
    exact hc
  have hcalm {c : DocumentBroker} (h : some c = some b') (hc : Calm b c) : Keeps b b' := hkeeps h hc.keeps
  cases e with
  | addSession session fileInfo => exact (keeps_addSession h).attends
  | loaded sid isFirst templateSize =>
    exact (keeps_withSession h fun _ _ => keeps_sessionLoaded isFirst templateSize).attends
  | onDisconnect sid => exact (keeps_withSession h fun _ _ => keeps_removeSession).attends
  | disconnected sid => exact (keeps_withSession h fun _ _ => calm_finalRemoveSession.keeps).attends
  | modifyingActivity sid =>
    refine (keeps_withSession h fun session _ => Calm.keeps ?_).attends
    unfold modifyingActivity
    dsimp only
    split <;> exact .of_watched rfl rfl
  | save sid a₁ a₂ extendedData requestId =>
    refine (keeps_withSession h fun session _ => ?_).attends
    unfold clientSave
    dsimp only
    have hasked : Calm b { b with saveRequestIds := requestId :: b.saveRequestIds } := .of_watched rfl rfl
    refine hasked.keeps.trans ?_
    split
    · exact ((calm_sendTextFrame _).trans (calm_sendSaveRequestResult _ _ _ _ _)).keeps
    · exact keeps_manualSave a₁ a₂ extendedData requestId
  | savetostorage sid force => exact (keeps_withSession h fun _ _ => keeps_uploadToStorage force).attends
  | saveas sid path filename isExport size =>
    refine (keeps_withSession h fun session _ => Keeps.trans ?_ (keeps_uploadToStorageInternal _ _ _ _ _)).attends
    exact .of_watched rfl rfl
  | renamefile sid newFilename =>
    exact (keeps_withSession h fun _ _ => keeps_handleRenameFileCommand newFilename).attends
  | switchMode sid mode =>
    obtain ⟨session, hsession, rfl⟩ := Option.map_eq_some_iff.1 h
    have hfound : b.sessions.find session.id = some session := by rwa [id_of_find hsession]
    refine ⟨(switchMode_attends hfound).refused, fun hok => (switchMode_attends hfound).keeps fun hmode => ?_⟩
    simpa [goesOn, hmode] using hok
  | adminAutoSave => exact (hkeeps h (keeps_autoSave true true false)).attends
  | kitSaved size =>
    obtain ⟨-, h⟩ := Option.ite_none_right_eq_some.1 h
    exact (hcalm h (.of_watched rfl rfl)).attends
  | saveResponse index response =>
    obtain ⟨-, h⟩ := Option.ite_none_right_eq_some.1 h
    exact saveResponse_attends h
  | uploadFinished attempt response => exact uploadFinished_attends h
  | uploadConnectFailed attempt => exact (keeps_uploadConnectFailed h).attends
  | checkFileInfoFinished result =>
    simp only [handle, checkFileInfoFinished] at h
    split at h
    · cases h
    · split at h
      · cases h
      · rename_i checkFileInfo _ _
        obtain rfl := Option.some.inj h
        have hchecked := checkFileInfoContinuation_attends (b := b) checkFileInfo.session result
        refine ⟨hchecked.refused, fun hok => hchecked.keeps ?_⟩
        simpa [goesOn] using hok
  | closeDocument reason => exact (hcalm h (calm_closeDocument reason)).attends
  | childProcessClosed => exact (hcalm h calm_terminate).attends
  | disconnectedFromKit unexpected => exact (hcalm h (calm_disconnectedFromKit unexpected)).attends
  | poll => exact (hkeeps h keeps_poll).attends
  | leaveLoop => exact (hcalm h (calm_failLoadingSessions false)).attends
  | finish => exact (hkeeps h keeps_terminateChild).attends
  | _ => exact (hcalm h (.of_watched rfl rfl)).attends

end DocumentBroker

end CollaboraOnline
