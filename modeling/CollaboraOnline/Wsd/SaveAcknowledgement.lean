import CollaboraOnline.Wsd.DocumentSteps

/-!
# The results for save requests

A request id travels with the attributes of its save: from the next ones, which the save was given, to the current
ones, when the kit has answered, to the last ones, when the version is uploaded.  Each id that was requested is in one
of them, or a result was sent for it.
-/

namespace CollaboraOnline

namespace DocumentBroker

/-- The version that the save with this request id has produced. -/
def versionOf (savedVersions : List (String × Option LocalFile)) (requestId : String) : Option LocalFile :=
  ((savedVersions.find? fun saved => saved.1 = requestId).map Prod.snd).join

/-- The version of the id was acknowledged, or nothing needs to be uploaded. -/
def SaveRequestResult.Backed (r : SaveRequestResult) : Prop :=
  r.state.needToUploadToStorage = .No ∨
    ∃ file ∈ r.state.storage.acknowledged, versionOf r.state.savedVersions r.requestId = some file

end DocumentBroker

open DocumentBroker (SaveRequestResult SaveCommand SaveResponse versionOf)

namespace Attributes

variable (attrs : Attributes)

@[simp] theorem requestId_reset : reset.requestId = "" := rfl

theorem requestId_merge (lhs : Attributes) :
    (attrs.merge lhs).requestId = if lhs.requestId ≠ "" then lhs.requestId else attrs.requestId := rfl

@[simp] theorem requestId_taken (exitSave force : Bool) :
    (attrs.taken exitSave force).requestId = attrs.requestId := rfl

@[simp] theorem requestId_ofSave (userModified isAutosave : Bool) (extendedData requestId : String) :
    (attrs.ofSave userModified isAutosave extendedData requestId).requestId = requestId := rfl

@[simp] theorem requestId_answered (response : SaveResponse) :
    (attrs.answered response).requestId = attrs.requestId := by
  unfold answered
  split <;> rfl

end Attributes

namespace Storing

variable {c c' : Storing} {id : String}

/-- How many of the attributes carry the id. -/
def pending (c : Storing) (id : String) : Nat :=
  (decide (c.nextStorageAttrs.requestId = id)).toNat + (decide (c.currentStorageAttrs.requestId = id)).toNat +
    (decide (c.lastStorageAttrs.requestId = id)).toNat

def answers (c : Storing) (id : String) : Nat := c.results.countP fun r => decide (r.requestId = id)

/-- An upload is attempted while no save has an id and the id of the last upload is answered, and where it is not the
upload of the document itself the version to be uploaded has no id either. -/
def Guard.correlation : Guard where
  save c := c.nextStorageAttrs.requestId = ""
  upload c isPutFile := c.nextStorageAttrs.requestId = "" ∧ c.lastStorageAttrs.requestId = "" ∧
    (isPutFile = false → c.currentStorageAttrs.requestId = "")
  write _ := True
  load c := c.currentStorageAttrs.requestId = ""
  response c save _ := save.requestId = c.nextStorageAttrs.requestId ∧
    (c.nextStorageAttrs.requestId ≠ "" → c.nextStorageAttrs.requestId ≠ c.lastStorageAttrs.requestId) ∧
    (c.currentStorageAttrs.requestId ≠ "" → c.nextStorageAttrs.requestId = "" ∧ c.fileToUpload = none)
  result c _ success := success = true → c.lastStorageAttrs.requestId ≠ "" →
    ∃ file ∈ c.acknowledged, versionOf c.savedVersions c.lastStorageAttrs.requestId = some file
  resync _ _ := True
  join _ := True
  drop _ := True
  giveUp _ := True
  mayDrop := False
  upload_notSent _ _ h := ⟨rfl, h.2.1, h.2.2⟩
  upload_answered _ h := ⟨h.1, h.2.1, fun _ => rfl⟩

/-- Every request for an id is answered or pending, and a pending id is that of the version it travels with. -/
structure Correlated (c : Storing) : Prop where
  counted : ∀ id, id ≠ "" → c.answers id + c.pending id = c.saveRequestIds.count id
  current : c.currentStorageAttrs.requestId ≠ "" →
    versionOf c.savedVersions c.currentStorageAttrs.requestId = c.fileUploading
  attempts : ∀ upload ∈ c.sessions, upload.attempt < c.attempts
  last : c.lastStorageAttrs.requestId ≠ "" → ∀ request, c.uploadRequest = some request → ∀ upload ∈ c.sessions,
    upload.attempt = request.attempt → upload.isPutFile = true →
      versionOf c.savedVersions c.lastStorageAttrs.requestId = some upload.file
  backed : ∀ r ∈ c.results, r.success = true → r.Backed

/-! ### Results -/

theorem count_cons (id id' : String) (ids : List String) :
    (id :: ids).count id' = ids.count id' + (decide (id = id')).toNat := by
  rw [List.count_cons]
  by_cases heq : id = id' <;> simp [heq]

/-- One result is sent for an id, and none if there is no id. -/
theorem Answers.count {results : List SaveRequestResult} (h : Answers .correlation c id success results)
    {id' : String} (hid' : id' ≠ "") :
    results.countP (fun r => decide (r.requestId = id')) = (decide (id = id')).toNat := by
  match results, h with
  | [], h =>
    have hid : id = "" := (h.of_nil rfl).resolve_right fun hdrop => hdrop
    simp [hid, hid'.symm]
  | [r], h =>
    have hr := (h.of_mem r List.mem_cons_self).1
    rw [List.countP_singleton, hr]
    cases decide (id = id') <;> rfl
  | r₁ :: r₂ :: rest, h =>
    have hlength := h.length_le
    simp at hlength

theorem answers_append {results : List SaveRequestResult} (hresults : c'.results = c.results ++ results)
    (id : String) : c'.answers id = c.answers id + results.countP fun r => decide (r.requestId = id) := by
  rw [answers, hresults, List.countP_append]
  rfl

theorem backed_append {results : List SaveRequestResult} (h : ∀ r ∈ c.results, r.success = true → r.Backed)
    (hnew : ∀ r ∈ results, r.success = true → r.Backed) :
      ∀ r ∈ c.results ++ results, r.success = true → r.Backed := by
  intro r hr
  rcases List.mem_append.1 hr with hr | hr
  · exact h r hr
  · exact hnew r hr

theorem Answers.not_success {G : Guard} {results : List SaveRequestResult} (h : Answers G c id false results) :
    ∀ r ∈ results, r.success = true → r.Backed := by
  intro r hr hsuccess
  have hfalse := (h.of_mem r hr).2.2.1
  rw [hsuccess] at hfalse
  cases hfalse

/-! ### Moves -/

theorem Correlated.requestSave (h : c.Correlated) (hsave : c.nextStorageAttrs.requestId = "")
    (userModified isAutosave : Bool) (save : Option SaveCommand) :
    (c.requestSave (c.nextStorageAttrs.ofSave userModified isAutosave "" "") save).Correlated := by
  refine ⟨fun id hid => ?_, h.current, h.attempts, h.last, h.backed⟩
  have hcounted := h.counted id hid
  simp only [pending, hsave] at hcounted
  exact hcounted

theorem Correlated.refuseSave (h : c.Correlated) {results : List SaveRequestResult}
    (hans : Answers .correlation c id false results) :
    ({ c with saveRequestIds := id :: c.saveRequestIds }.send results).Correlated := by
  refine ⟨fun id' hid' => ?_, h.current, h.attempts, h.last, backed_append h.backed hans.not_success⟩
  have hcounted := h.counted id' hid'
  have hpending : ({ c with saveRequestIds := id :: c.saveRequestIds }.send results).pending id' = c.pending id' :=
    rfl
  have hids : ({ c with saveRequestIds := id :: c.saveRequestIds }.send results).saveRequestIds =
    id :: c.saveRequestIds := rfl
  rw [answers_append (c := c) rfl, hans.count hid', hpending, hids, count_cons]
  omega

theorem Correlated.clientSave (h : c.Correlated) (hsave : c.nextStorageAttrs.requestId = "")
    (userModified isAutosave : Bool) (extendedData : String) (save : SaveCommand) :
    ({ c with saveRequestIds := save.requestId :: c.saveRequestIds }.requestSave
      (c.nextStorageAttrs.ofSave userModified isAutosave extendedData save.requestId) (some save)).Correlated := by
  refine ⟨fun id hid => ?_, h.current, h.attempts, h.last, h.backed⟩
  have hcounted := h.counted id hid
  simp only [Storing.requestSave, answers, pending, hsave, Attributes.requestId_ofSave, count_cons, hid.symm,
    decide_false, Bool.toNat_false] at hcounted ⊢
  omega

theorem Correlated.clientSaveNotSent (h : c.Correlated) (hsave : c.nextStorageAttrs.requestId = "")
    (userModified isAutosave : Bool) (extendedData : String) {results : List SaveRequestResult}
    (hans : Answers .correlation c id false results) :
    (({ c with saveRequestIds := id :: c.saveRequestIds }.requestSave
      (c.nextStorageAttrs.ofSave userModified isAutosave extendedData "") none).send results).Correlated := by
  refine ⟨fun id' hid' => ?_, h.current, h.attempts, h.last, backed_append h.backed hans.not_success⟩
  have hcounted := h.counted id' hid'
  rw [answers_append (c := c) rfl, hans.count hid']
  simp only [send, Storing.requestSave, pending, hsave, Attributes.requestId_ofSave, count_cons] at hcounted ⊢
  omega

/-- The response of the save that has the id moves it to the version that was saved. -/
theorem Correlated.takeSave (h : c.Correlated) (index : Nat) {save : SaveCommand} (response : SaveResponse)
    (hresponse : Guard.correlation.response c save response) :
    (((c.dropSave index).noteSaved save.requestId).takeSave response).Correlated := by
  obtain ⟨hsame, hlast, hcurrent⟩ := hresponse
  set c₁ := ((c.dropSave index).noteSaved save.requestId).takeSave response with hc₁
  have hid₁ : c₁.currentStorageAttrs.requestId =
      if c.nextStorageAttrs.requestId ≠ "" then c.nextStorageAttrs.requestId
      else c.currentStorageAttrs.requestId := by
    simp [hc₁, Storing.takeSave, Storing.renameFile, Attributes.requestId_merge, noteSaved, dropSave]
  have hversions : c₁.savedVersions = (save.requestId, c.fileToUpload.or c.fileUploading) :: c.savedVersions := rfl
  refine ⟨fun id hid => ?_, fun hne => ?_, h.attempts, fun hne request hrequest upload hupload hattempt hput => ?_,
    h.backed⟩
  · have hcounted := h.counted id hid
    have hpending : c₁.pending id = c.pending id := by
      unfold pending
      rw [hid₁]
      by_cases hnext : c.nextStorageAttrs.requestId = ""
      · simp [hnext, hc₁, Storing.takeSave, Storing.renameFile, noteSaved, dropSave, hid.symm]
      · have hempty : c.currentStorageAttrs.requestId = "" := by
          by_contra hne
          exact hnext (hcurrent hne).1
        simp [hnext, hempty, hc₁, Storing.takeSave, Storing.renameFile, noteSaved, dropSave, hid.symm]
    rw [hpending]
    exact hcounted
  · change versionOf c₁.savedVersions c₁.currentStorageAttrs.requestId = c.fileToUpload.or c.fileUploading
    rw [hid₁] at hne ⊢
    rw [hversions]
    by_cases hnext : c.nextStorageAttrs.requestId = ""
    · -- the version of the id is still the one to be uploaded
      rw [if_neg (not_not.2 hnext)] at hne ⊢
      obtain ⟨-, hfile⟩ := hcurrent hne
      rw [hfile, Option.none_or, ← h.current hne, versionOf, versionOf, List.find?_cons_of_neg]
      simpa [hsame, hnext] using hne.symm
    · rw [if_pos hnext, versionOf, List.find?_cons_of_pos (by simpa using hsame)]
      rfl
  · have hne' : c.lastStorageAttrs.requestId ≠ "" := hne
    change versionOf c₁.savedVersions c.lastStorageAttrs.requestId = some upload.file
    rw [hversions, versionOf, List.find?_cons_of_neg]
    · exact h.last hne' request hrequest upload hupload hattempt hput
    · rw [hsame, decide_eq_true_eq]
      intro heq
      by_cases hnext : c.nextStorageAttrs.requestId = ""
      · exact hne' (heq.symm.trans hnext)
      · exact hlast hnext heq

theorem Correlated.answerCurrent (h : c.Correlated) {success : Bool} {results : List SaveRequestResult}
    (hans : Answers .correlation c c.currentStorageAttrs.requestId success results)
    (hno : success = true → ∀ r ∈ results, r.state.needToUploadToStorage = .No) :
    (c.send results).clearCurrentId.Correlated := by
  refine ⟨fun id hid => ?_, fun hne => absurd rfl hne, h.attempts, h.last, backed_append h.backed ?_⟩
  · have hcounted := h.counted id hid
    have hpending : c.pending id =
        (c.send results).clearCurrentId.pending id + (decide (c.currentStorageAttrs.requestId = id)).toNat := by
      have hempty : (decide (("" : String) = id)).toNat = 0 := by simp [hid.symm]
      change (decide (c.nextStorageAttrs.requestId = id)).toNat +
        (decide (c.currentStorageAttrs.requestId = id)).toNat +
          (decide (c.lastStorageAttrs.requestId = id)).toNat =
        (decide (c.nextStorageAttrs.requestId = id)).toNat + (decide (("" : String) = id)).toNat +
          (decide (c.lastStorageAttrs.requestId = id)).toNat + (decide (c.currentStorageAttrs.requestId = id)).toNat
      omega
    have hids : (c.send results).clearCurrentId.saveRequestIds = c.saveRequestIds := rfl
    rw [answers_append (c := c) rfl, hans.count hid, hids]
    omega
  · intro r hr hsuccess
    have heq := (hans.of_mem r hr).2.2.1
    exact .inl (hno (heq ▸ hsuccess) r hr)

/-- The id of the version to be uploaded becomes that of the upload. -/
theorem Correlated.attempt_counted (h : c.Correlated) {isPutFile : Bool}
    (hupload : Guard.correlation.upload c isPutFile) (hresults : c'.results = c.results)
    (hids : c'.saveRequestIds = c.saveRequestIds) (hnext : c'.nextStorageAttrs.requestId = "")
    (hcurrent : c'.currentStorageAttrs.requestId = "")
    (hlast : c'.lastStorageAttrs.requestId = c.currentStorageAttrs.requestId) :
    ∀ id, id ≠ "" → c'.answers id + c'.pending id = c'.saveRequestIds.count id := by
  intro id hid
  have hcounted := h.counted id hid
  simp only [answers, pending, hresults, hids, hnext, hcurrent, hlast, hupload.1, hupload.2.1] at hcounted ⊢
  omega

theorem Correlated.startUpload (h : c.Correlated) {request : UploadRequest} {upload : HttpUpload}
    {exitSave force : Bool} (hupload : Guard.correlation.upload c (!request.isSaveAs && !request.isRename))
    (hstarted : Started c request upload exitSave force) :
    (c.startUpload request upload exitSave force).Correlated := by
  refine ⟨h.attempt_counted hupload rfl rfl rfl rfl rfl, fun hne => absurd rfl hne, fun u hu => ?_,
    fun hne request' hrequest u hu hattempt hput => ?_, h.backed⟩
  · rcases List.mem_append.1 hu with hu | hu
    · exact Nat.lt_succ_of_lt (h.attempts u hu)
    · obtain rfl := List.mem_singleton.1 hu
      exact Nat.lt_succ_of_le hstarted.attempt.le
  · obtain rfl := Option.some.inj hrequest
    have hid : c.currentStorageAttrs.requestId ≠ "" := hne
    rcases List.mem_append.1 hu with hu | hu
    · -- an older upload has an older number
      have hlt := h.attempts u hu
      have heq := hattempt.trans hstarted.requestAttempt
      omega
    · obtain rfl := List.mem_singleton.1 hu
      exact (h.current hid).trans (hstarted.file hput)

theorem Correlated.refuseUpload (h : c.Correlated) {request : UploadRequest} {isPutFile : Bool}
    (hupload : Guard.correlation.upload c isPutFile) (hattempt : request.attempt = c.attempts)
    (file : Option LocalFile) (exitSave force : Bool) : (c.refuseUpload request file exitSave force).Correlated := by
  refine ⟨h.attempt_counted hupload rfl rfl rfl rfl rfl, fun hne => absurd rfl hne,
    fun u hu => Nat.lt_succ_of_lt (h.attempts u hu), fun _ request' hrequest u hu heq _ => ?_, h.backed⟩
  obtain rfl := Option.some.inj hrequest
  have hlt := h.attempts u hu
  have heq : u.attempt = request.attempt := heq
  omega

/-- A result is sent for the id of the upload. -/
theorem Correlated.answerLast (h : c.Correlated) {success : Bool} {results : List SaveRequestResult}
    (hans : Answers .correlation c c.lastStorageAttrs.requestId success results)
    (hresults : c'.results = c.results ++ results) (hids : c'.saveRequestIds = c.saveRequestIds)
    (hnext : c'.nextStorageAttrs = c.nextStorageAttrs)
    (hcurrent : c'.currentStorageAttrs.requestId = c.currentStorageAttrs.requestId)
    (hlast : c'.lastStorageAttrs.requestId = "") :
    ∀ id, id ≠ "" → c'.answers id + c'.pending id = c'.saveRequestIds.count id := by
  intro id hid
  have hcounted := h.counted id hid
  rw [answers_append hresults, hans.count hid]
  simp only [pending, hids, hnext, hcurrent, hlast, hid.symm, decide_false, Bool.toNat_false] at hcounted ⊢
  omega

/-- The version of the id that is answered with success was acknowledged. -/
theorem backed_of_result {request : UploadRequest} {results : List SaveRequestResult}
    (hresult : Guard.correlation.result c request true)
    (hans : Answers .correlation c c.lastStorageAttrs.requestId true results) :
    ∀ r ∈ results, r.success = true → r.Backed := by
  intro r hr _
  obtain ⟨hid, hne, -, hacked, hversions⟩ := hans.of_mem r hr
  obtain ⟨file, hfile, hversion⟩ := hresult rfl hne
  refine .inr ⟨file, hacked ▸ hfile, ?_⟩
  rw [hversions, hid]
  exact hversion

theorem Correlated.move (h : c.Correlated) (hmove : Move .correlation c c') : c'.Correlated := by
  cases hmove with
  | requestSave userModified isAutosave save hsave => exact h.requestSave hsave userModified isAutosave save
  | refuseSave id hans => exact h.refuseSave hans
  | clientSave userModified isAutosave extendedData save hsave =>
    exact h.clientSave hsave userModified isAutosave extendedData save
  | clientSaveNotSent userModified isAutosave extendedData id hsave hans =>
    exact h.clientSaveNotSent hsave userModified isAutosave extendedData hans
  | loadTemplate size _ hload => exact ⟨h.counted, fun hne => absurd hload hne, h.attempts, h.last, h.backed⟩
  | takeSave index save response _ hresponse => exact h.takeSave index response hresponse
  | answerCurrent hans hno => exact h.answerCurrent hans hno
  | startUpload exitSave force hupload hstarted => exact h.startUpload hupload hstarted
  | refuseUpload request file exitSave force hupload hattempt =>
    exact h.refuseUpload hupload hattempt file exitSave force
  | forget =>
    refine ⟨h.counted, h.current, h.attempts, fun hne request hrequest => ?_, h.backed⟩
    exact h.last hne request (Option.mem_filter_iff.1 hrequest).1
  | finish statusCode hupload =>
    refine ⟨h.counted, h.current, fun u hu => h.attempts u (List.mem_of_mem_erase hu),
      fun hne request hrequest u hu => h.last hne request hrequest u (List.mem_of_mem_erase hu), h.backed⟩
  | @failConnection upload hupload =>
    have hold {u : HttpUpload} (hu : u ∈ (c.failConnection upload).sessions) :
        ∃ v ∈ c.sessions, v.attempt = u.attempt ∧ v.isPutFile = u.isPutFile ∧ v.file = u.file := by
      obtain ⟨v, hv, rfl⟩ := List.mem_map.1 hu
      refine ⟨v, hv, ?_⟩
      split <;> exact ⟨rfl, rfl, rfl⟩
    refine ⟨h.counted, h.current, fun u hu => ?_, fun hne request hrequest u hu hattempt hput => ?_, h.backed⟩
    · obtain ⟨v, hv, hattempt, -, -⟩ := hold hu
      exact hattempt ▸ h.attempts v hv
    · obtain ⟨v, hv, hattempt', hput', hfile⟩ := hold hu
      rw [← hfile]
      exact h.last hne request hrequest v hv (hattempt'.trans hattempt) (hput'.trans hput)
  | failUpload hrequest =>
    refine ⟨h.counted, h.current, h.attempts, fun hne request' hrequest' => ?_, h.backed⟩
    obtain rfl := Option.some.inj hrequest'
    have hlast := h.last hne _ hrequest
    exact hlast
  | uploaded hrequest _ hresult hans =>
    exact ⟨h.answerLast hans rfl rfl rfl rfl rfl, h.current, h.attempts, fun hne => absurd rfl hne,
      backed_append h.backed (backed_of_result hresult hans)⟩
  | otherUploaded hrequest _ hresult hans =>
    exact ⟨h.answerLast hans rfl rfl rfl rfl rfl, h.current, h.attempts, fun hne => absurd rfl hne,
      backed_append h.backed (backed_of_result hresult hans)⟩
  | uploadFailed hrequest _ hans =>
    exact ⟨h.answerLast hans rfl rfl rfl rfl rfl, h.current, h.attempts, fun hne => absurd rfl hne,
      backed_append h.backed hans.not_success⟩
  | _ => exact ⟨h.counted, h.current, h.attempts, h.last, h.backed⟩

end Storing

namespace Lifetime

open DocumentBroker (Event)
open Storing (Guard Correlated)

variable {s : Lifetime} {e : Event}

/-- Each id is answered at most as often as it was requested, with success only when its version was acknowledged or
nothing needed to be uploaded, and what is not answered is still with the attributes. -/
structure AnswersCorrelate (s : Lifetime) : Prop where
  atMostOnce : ∀ id, id ≠ "" →
    (s.broker.saveRequestResults.countP fun r => decide (r.requestId = id)) ≤ s.broker.saveRequestIds.count id
  backed : ∀ r ∈ s.broker.saveRequestResults, r.success = true → r.Backed
  notLost : ∀ id, id ≠ "" → (s.broker.saveRequestResults.countP fun r => decide (r.requestId = id)) <
    s.broker.saveRequestIds.count id → s.broker.nextStorageAttrs.requestId = id ∨
      s.broker.currentStorageAttrs.requestId = id ∨ s.broker.lastStorageAttrs.requestId = id

theorem answersCorrelate_of_correlated (h : s.broker.storing.Correlated) : s.AnswersCorrelate := by
  have hcounted (id : String) (hid : id ≠ "") :
      (s.broker.saveRequestResults.countP fun r => decide (r.requestId = id)) + s.broker.storing.pending id =
        s.broker.saveRequestIds.count id := h.counted id hid
  refine ⟨fun id hid => ?_, h.backed, fun id hid hlt => ?_⟩
  · have := hcounted id hid
    omega
  · have heq := hcounted id hid
    by_contra hnone
    simp only [not_or] at hnone
    have hzero : s.broker.storing.pending id = 0 := by
      unfold Storing.pending
      simp [DocumentBroker.storing, hnone.1, hnone.2.1, hnone.2.2]
    omega

/-- The condition on a step: a save is requested only while the next attributes have no id; the kit answers the save
that has the id, and no other version is waiting with an id; an upload is attempted only while the id of the last one
is answered, and OK comes for the upload that has the id; and whoever is to get a result is still there. -/
def AnswersInTurn (s : Lifetime) (e : Event) : Prop :=
  let b := clocked s.broker
  let next := b.nextStorageAttrs.requestId
  let current := b.currentStorageAttrs.requestId
  let last := b.lastStorageAttrs.requestId
  match e with
  | .loaded _ isFirst templateSize => isFirst = true → templateSize.isSome = true →
    next = "" ∧ current = "" ∧ last = ""
  | .onDisconnect sid => ∀ session, b.sessions.find sid = some session → b.savesOnRemove session = true →
    b.docState.activity ≠ .Save → next = ""
  | .save sid _ _ _ requestId => (b.docState.activity ≠ .Save → next = "") ∧
    (requestId ≠ "" → ∀ session, b.sessions.find sid = some session → session.isCloseFrame = false)
  | .savetostorage _ force => force = true ∨ b.mayUpload = true → next = "" ∧ last = ""
  | .saveas _ path _ _ _ => next = "" ∧ last = "" ∧ (path ≠ "" → current = "")
  | .renamefile _ _ => b.docState.activity = .None → next = ""
  | .switchMode _ _ => b.docState.activity = .None → next = ""
  | .adminAutoSave => b.docState.activity ≠ .Save → next = ""
  | .saveResponse index _ => ∀ save session, b.childProcess.saves[index]? = some save →
    b.sessions.find save.session = some session →
      save.requestId = next ∧ (next ≠ "" → next ≠ last) ∧
      (current ≠ "" → next = "" ∧ b.storage.fileToUpload = none) ∧
      (next ≠ "" ∨ current ≠ "" → session.isCloseFrame = false) ∧
      (b.docState.activity = .Rename → next = "" ∧ current = "" ∧ last = "") ∧
      (b.mayUpload = true → last = "")
  | .uploadFinished attempt response => ∀ upload request, b.findUpload attempt = some upload →
    b.uploadRequest = some request →
      (last ≠ "" → (∃ session, b.uploadSession request = some session ∧ session.isCloseFrame = false) ∧
        (response.statusCode = 200 → upload.attempt = request.attempt ∧ upload.isPutFile = true)) ∧
      (response.statusCode = 200 → b.docState.activity = .Rename → (!request.isSaveAs && !request.isRename) = true →
        next = "" ∧ current = "")
  | .poll => b.docState.activity = .None → (b.pollMaySave = true → next = "") ∧
    (b.mayUnload = true ∨ b.mayRetry = true → (b.mayUpload = true ∨ b.isLoaded = false → next = "" ∧ last = "") ∧
      (current ≠ "" → ∀ session, b.getWriteableSession = some session → session.isCloseFrame = false))
  | .finish => next = ""
  | _ => True

theorem current_takeSave (c : Storing) (index : Nat) (save : SaveCommand) (response : SaveResponse) :
    (((c.dropSave index).noteSaved save.requestId).takeSave response).currentStorageAttrs.requestId =
      if c.nextStorageAttrs.requestId ≠ "" then c.nextStorageAttrs.requestId
      else c.currentStorageAttrs.requestId := by
  simp [Storing.takeSave, Storing.renameFile, Attributes.requestId_merge, Storing.noteSaved, Storing.dropSave]

theorem saveResponse_allowed {index : Nat} {response : SaveResponse}
    (hok : s.AnswersInTurn (.saveResponse index response)) :
    DocumentBroker.ResponseAllowed .correlation (clocked s.broker) index response := by
  intro save session hsave hsession
  obtain ⟨hsame, hlast, hcurrent, hopen, hrename, hupload⟩ := hok save session hsave hsession
  refine ⟨⟨hsame, hlast, hcurrent⟩, ?_, fun hact => ?_,
    fun hmay => ⟨rfl, hupload hmay, fun h => absurd h (by decide)⟩⟩
  · rw [current_takeSave]
    by_cases hnext : (clocked s.broker).storing.nextStorageAttrs.requestId = ""
    · rw [if_neg (not_not.2 hnext)]
      by_cases hid : (clocked s.broker).currentStorageAttrs.requestId = ""
      · exact .inl hid
      · exact .inr (.inl (hopen (.inr hid)))
    · exact .inr (.inl (hopen (.inl hnext)))
  · obtain ⟨hnext, hid, hlast⟩ := hrename hact
    refine ⟨rfl, hlast, fun _ => ?_⟩
    have hnext : (clocked s.broker).storing.nextStorageAttrs.requestId = "" := hnext
    rw [current_takeSave, if_neg (not_not.2 hnext)]
    exact hid

theorem uploadFinished_allowed (h : s.broker.storing.Correlated) {attempt : Nat} {response : WopiResponse}
    (hok : s.AnswersInTurn (.uploadFinished attempt response)) {upload : HttpUpload}
    (hfind : (clocked s.broker).findUpload attempt = some upload) :
    DocumentBroker.FinishAllowed .correlation (clocked s.broker) upload response.statusCode := by
  intro modifiedTime request hrequest
  have hmem := DocumentBroker.mem_of_findUpload hfind
  obtain ⟨hlast, hrename⟩ := hok upload request hfind hrequest
  refine ⟨fun hsuccess hne => ?_, ?_, fun hsuccess hact hplain results => ?_⟩
  · have hstatus : response.statusCode = 200 := by simpa using hsuccess
    obtain ⟨hattempt, hput⟩ := (hlast hne).2 hstatus
    refine ⟨upload.file, ?_, h.last hne request hrequest upload hmem hattempt hput⟩
    simp [DocumentBroker.storing, hstatus, hput]
  · by_cases hne : (clocked s.broker).lastStorageAttrs.requestId = ""
    · exact .inl hne
    · obtain ⟨session, hsession, hopen⟩ := (hlast hne).1
      exact .inr (.inl ⟨session, hsession, hopen⟩)
  · obtain ⟨hnext, hid⟩ := hrename (by simpa using hsuccess) hact hplain
    exact ⟨hnext, rfl, fun _ => hid⟩

theorem autoSaved_next {c c' : Storing} (h : Relation.ReflTransGen DocumentBroker.AutoSaved c c')
    (hnext : c.nextStorageAttrs.requestId = "") : c'.nextStorageAttrs.requestId = "" := by
  induction h with
  | refl => exact hnext
  | tail _ hstep =>
    obtain ⟨-, userModified, isAutosave, save, -, rfl⟩ := hstep
    rfl

theorem allows_correlation (h : s.broker.storing.Correlated) (hok : s.AnswersInTurn e) :
    (clocked s.broker).Allows .correlation e := by
  cases e with
  | addSession => exact fun _ _ _ => True.intro
  | loaded sid isFirst templateSize =>
    rintro hfirst size rfl
    obtain ⟨hnext, hcurrent, hlast⟩ := hok hfirst rfl
    exact ⟨True.intro, hcurrent, hnext, hlast, fun h => absurd h (by decide)⟩
  | onDisconnect sid => exact hok
  | save sid a₁ a₂ extendedData requestId =>
    refine ⟨fun _ _ _ => hok.1, ?_⟩
    by_cases hid : requestId = ""
    · exact .inl hid
    · exact .inr (.inr (hok.2 hid))
  | savetostorage sid force =>
    intro hmay
    obtain ⟨hnext, hlast⟩ := hok hmay
    exact ⟨hnext, hlast, fun h => absurd h (by decide)⟩
  | saveas sid path filename isExport size =>
    obtain ⟨hnext, hlast, hcurrent⟩ := hok
    exact ⟨hnext, hlast, fun hpath => hcurrent (by simpa using hpath)⟩
  | renamefile sid newFilename => exact fun _ => hok
  | switchMode sid mode => exact fun _ _ => hok
  | adminAutoSave => exact fun hsaves => hok (DocumentBroker.activity_of_autoSaves hsaves)
  | kitSaved => exact True.intro
  | saveResponse index response => exact ⟨saveResponse_allowed hok, fun _ => True.intro⟩
  | uploadFinished attempt response => exact fun upload hfind => uploadFinished_allowed h hok hfind
  | checkFileInfoFinished => exact fun _ _ _ => True.intro
  | poll =>
    refine ⟨fun hact => ?_, fun _ => True.intro⟩
    obtain ⟨hsave, hupload⟩ := hok hact
    refine ⟨fun hsaves => hsave (DocumentBroker.pollMaySave_of_pollSaves hsaves), fun hwhen hmay => ?_,
      fun hwhen => ?_⟩
    · obtain ⟨hnext, hlast⟩ := (hupload hwhen).1 hmay
      exact ⟨hnext, hlast, fun h => absurd h (by decide)⟩
    · by_cases hid : (clocked s.broker).currentStorageAttrs.requestId = ""
      · exact .inl hid
      · exact .inr (.inr ((hupload hwhen).2 hid))
  | finish => exact fun c hc _ => autoSaved_next hc hok
  | _ => exact True.intro

theorem correlated_initial (d : Download) : (initial d).broker.storing.Correlated := by
  refine ⟨fun id hid => ?_, fun hne => absurd rfl hne, fun _ hu => ?_, fun hne => absurd rfl hne, fun _ hr => ?_⟩
  · simp [initial, DocumentBroker.storing, Storing.answers, Storing.pending, hid.symm]
  · cases hu
  · cases hr

/-- In every run whose steps are in turn, the results for save requests are correlated with them. -/
theorem answersCorrelate_of_inTurn (h : Run.Reachable Initial step AnswersInTurn s) : s.AnswersCorrelate :=
  answersCorrelate_of_correlated (storing_invariant .correlation Correlated correlated_initial
    (fun _ _ hc hmove => hc.move hmove) (fun _ _ _ hc hok => allows_correlation hc hok) h)

/-! ### Runs -/

instance (r : SaveRequestResult) : Decidable r.Backed := by
  unfold DocumentBroker.SaveRequestResult.Backed
  infer_instance

/-- The save `r2` is answered while the version of `r1` is uploaded: its upload is refused, and then OK comes for the
first version. -/
theorem not_answersCorrelate :
    ∃ s, Run.Reachable Initial step Run.Any s ∧
      (∃ r ∈ s.broker.saveRequestResults, r.requestId = "r2" ∧ r.success = true ∧ ¬ r.Backed) ∧
      ("r1" ∈ s.broker.saveRequestIds ∧ (∀ r ∈ s.broker.saveRequestResults, r.requestId ≠ "r1") ∧
        s.broker.nextStorageAttrs.requestId ≠ "r1" ∧ s.broker.currentStorageAttrs.requestId ≠ "r1" ∧
        s.broker.lastStorageAttrs.requestId ≠ "r1") ∧ ¬ s.AnswersCorrelate := by
  obtain ⟨s, hr, hs⟩ : ∃ s, Run.Reachable Initial step Run.Any s ∧ decide
      ((∃ r ∈ s.broker.saveRequestResults, r.requestId = "r2" ∧ r.success = true ∧ ¬ r.Backed) ∧
        ("r1" ∈ s.broker.saveRequestIds ∧ (∀ r ∈ s.broker.saveRequestResults, r.requestId ≠ "r1") ∧
          s.broker.nextStorageAttrs.requestId ≠ "r1" ∧ s.broker.currentStorageAttrs.requestId ≠ "r1" ∧
          s.broker.lastStorageAttrs.requestId ≠ "r1")) = true :=
    Run.Reachable.exists_of_run (initial download)
      (editAndSave ++ [.save 1 false false "" "r2", .kitSaved 130, .saveResponse 0 ⟨true, "", none⟩,
        .uploadFinished 0 ⟨200, "", "", none⟩])
      ⟨download, rfl⟩ (by decide)
  obtain ⟨hwrong, hlost⟩ := of_decide_eq_true hs
  refine ⟨s, hr, hwrong, hlost, fun h => ?_⟩
  obtain ⟨r, hmem, -, hsuccess, hnot⟩ := hwrong
  exact hnot (h.backed r hmem hsuccess)

/-- Enough for a step to be in turn: only one id is on its way. -/
def inTurn (s : Lifetime) : Event → Bool
  | .addSession .. | .modifyingActivity _ | .setModified _ | .kitSaved _ => true
  | .loaded _ _ templateSize => templateSize.isNone
  | .save sid _ _ _ _ => s.broker.nextStorageAttrs.requestId == "" &&
    (s.broker.sessions.find sid).all fun session => !session.isCloseFrame
  | .saveResponse index _ =>
    s.broker.currentStorageAttrs.requestId == "" && s.broker.lastStorageAttrs.requestId == "" &&
    s.broker.docState.activity != .Rename && (s.broker.childProcess.saves[index]?).all fun save =>
      save.requestId == s.broker.nextStorageAttrs.requestId &&
        (s.broker.sessions.find save.session).all fun session => !session.isCloseFrame
  | .uploadFinished attempt _ =>
    s.broker.docState.activity != .Rename && (s.broker.findUpload attempt).all fun upload =>
      s.broker.uploadRequest.all fun request => upload.attempt == request.attempt && upload.isPutFile &&
        (s.broker.uploadSession request).any fun session => !session.isCloseFrame
  | _ => false

theorem inTurn_sound (h : s.inTurn e = true) : s.AnswersInTurn e := by
  cases e with
  | addSession => trivial
  | modifyingActivity => trivial
  | setModified => trivial
  | kitSaved => trivial
  | loaded sid isFirst templateSize =>
    intro _ hsome
    rw [show templateSize = none by simpa [inTurn] using h] at hsome
    cases hsome
  | save sid a₁ a₂ extendedData requestId =>
    simp only [inTurn, Bool.and_eq_true, beq_iff_eq, Option.all_eq_true, Bool.not_eq_true'] at h
    exact ⟨fun _ => h.1, fun _ => h.2⟩
  | saveResponse index response =>
    simp only [inTurn, Bool.and_eq_true, beq_iff_eq, bne_iff_ne, Option.all_eq_true, Bool.not_eq_true'] at h
    obtain ⟨⟨⟨hcurrent, hlast⟩, hact⟩, hsaves⟩ := h
    intro save session hsave hsession
    obtain ⟨hsame, hopen⟩ := hsaves save hsave
    exact ⟨hsame, fun hne heq => hne (heq.trans hlast), fun hne => absurd hcurrent hne,
      fun _ => hopen session hsession, fun h => absurd h hact, fun _ => hlast⟩
  | uploadFinished attempt response =>
    simp only [inTurn, Bool.and_eq_true, beq_iff_eq, bne_iff_ne, Option.all_eq_true, Option.any_eq_true,
      Bool.not_eq_true'] at h
    obtain ⟨hact, hupload⟩ := h
    intro upload request hfind hrequest
    obtain ⟨⟨hattempt, hput⟩, hsession⟩ := hupload upload hfind request hrequest
    exact ⟨fun _ => ⟨hsession, fun _ => ⟨hattempt, hput⟩⟩, fun _ h => absurd h hact⟩
  | _ => exact absurd h Bool.false_ne_true

/-- Two saves, one after the other. -/
theorem answersCorrelate_of_two_saves :
    ∃ s, Run.Reachable Initial step AnswersInTurn s ∧
      (s.broker.saveRequestResults.map fun r => (r.requestId, r.success)) = [("r1", true), ("r2", false)] ∧
      s.AnswersCorrelate := by
  obtain ⟨s, hr, hs⟩ : ∃ s, Run.Reachable Initial (Run.guarded step inTurn) Run.Any s ∧
      ((s.broker.saveRequestResults.map fun r => (r.requestId, r.success)) == [("r1", true), ("r2", false)]) = true :=
    Run.Reachable.exists_of_run (initial download)
      (editAndSave ++ [.uploadFinished 0 ⟨200, "", "", none⟩, .save 1 false false "" "r2", .kitSaved 130,
        .saveResponse 0 ⟨false, "failed", none⟩])
      ⟨download, rfl⟩ (by decide)
  have hr := hr.of_guarded fun s e => inTurn_sound
  exact ⟨s, hr, beq_iff_eq.1 hs, answersCorrelate_of_inTurn hr⟩

end Lifetime

end CollaboraOnline
