import CollaboraOnline.Wsd.DocumentSteps

/-!
# The version that counts as uploaded

Every saved version has a modified time of its own, and an upload carries the version that is there when it starts.
What is recorded as uploaded is the version of the current upload request, so the storage has acknowledged it if the
response is one for that version.
-/

namespace CollaboraOnline

namespace Storing

variable {c c' : Storing}

/-- An upload that is recorded as successful is one whose version the storage has acknowledged. -/
def Guard.versions : Guard where
  save _ := True
  upload _ _ := True
  write c := ∀ v ∈ c.versions, v.modifiedTime < c.now
  load _ := True
  response _ _ _ := True
  result c request success := success = true → (!request.isSaveAs && !request.isRename) = true →
    ∃ file ∈ c.acknowledged, file.modifiedTime = request.newFileModifiedLocalTime
  resync _ _ := True
  join _ := True
  drop _ := True
  giveUp _ := True
  mayDrop := True
  upload_notSent _ _ _ := True.intro
  upload_answered _ _ := True.intro

/-- The versions are told apart by their modified times, and the last uploaded version is older than all of them or
one that was acknowledged. -/
structure Versioned (c : Storing) : Prop where
  written : ∀ v ∈ c.versions, v.modifiedTime ≤ c.now
  distinct : ∀ v ∈ c.versions, ∀ w ∈ c.versions, v.modifiedTime = w.modifiedTime → v = w
  toUpload : ∀ file, c.fileToUpload = some file → file ∈ c.versions
  uploading : ∀ file, c.fileUploading = some file → file ∈ c.versions
  sessions : ∀ upload ∈ c.sessions, upload.isPutFile = true → upload.file ∈ c.versions
  acknowledged : ∀ file ∈ c.acknowledged, file ∈ c.versions
  last : (c.lastUploadedFileModifiedLocalTime < c.now ∧
      ∀ v ∈ c.versions, c.lastUploadedFileModifiedLocalTime < v.modifiedTime) ∨
    ∃ file ∈ c.acknowledged, file.modifiedTime = c.lastUploadedFileModifiedLocalTime

theorem Versioned.acknowledged_of_eq (h : c.Versioned) {file : LocalFile} (hfile : c.fileUploading = some file)
    (htime : file.modifiedTime = c.lastUploadedFileModifiedLocalTime) : file ∈ c.acknowledged := by
  have hmem := h.uploading file hfile
  rcases h.last with ⟨-, hnew⟩ | ⟨acked, hacked, heq⟩
  · have hlt := hnew file hmem
    omega
  · have hsame := h.distinct acked (h.acknowledged acked hacked) file hmem (heq.trans htime.symm)
    exact hsame ▸ hacked

theorem Versioned.writeFile (h : c.Versioned) (hwrite : ∀ v ∈ c.versions, v.modifiedTime < c.now) (size : Nat) :
    (c.writeFile size).Versioned := by
  have hlater {v : LocalFile} (hv : v ∈ c.versions) : v ∈ (c.writeFile size).versions := List.mem_cons_of_mem _ hv
  refine ⟨?_, ?_, ?_, fun file hfile => hlater (h.uploading file hfile),
    fun upload hupload hput => hlater (h.sessions upload hupload hput),
    fun file hfile => hlater (h.acknowledged file hfile), ?_⟩
  · intro v hv
    rcases List.mem_cons.1 hv with rfl | hv
    · exact le_rfl
    · exact h.written v hv
  · intro v hv w hw heq
    rcases List.mem_cons.1 hv with rfl | hv <;> rcases List.mem_cons.1 hw with rfl | hw
    · rfl
    · have := hwrite w hw
      dsimp only at heq
      omega
    · have := hwrite v hv
      dsimp only at heq
      omega
    · exact h.distinct v hv w hw heq
  · intro file hfile
    obtain rfl := Option.some.inj hfile
    exact List.mem_cons_self
  · refine h.last.imp_left fun ⟨hnow, hnew⟩ => ⟨hnow, fun v hv => ?_⟩
    rcases List.mem_cons.1 hv with rfl | hv
    · exact hnow
    · exact hnew v hv

theorem Versioned.renameFile (h : c.Versioned) : c.renameFile.Versioned := by
  refine ⟨h.written, h.distinct, fun file hfile => absurd hfile (by simp [Storing.renameFile]), ?_, h.sessions,
    h.acknowledged, h.last⟩
  intro file hfile
  rcases Option.or_eq_some_iff.1 hfile with hfile | ⟨-, hfile⟩
  · exact h.toUpload file hfile
  · exact h.uploading file hfile

theorem Versioned.finish (h : c.Versioned) {upload : HttpUpload} (hupload : upload ∈ c.sessions) (statusCode : Nat) :
    (c.finish upload statusCode).Versioned := by
  refine ⟨h.written, h.distinct, h.toUpload, h.uploading,
    fun u hu hput => h.sessions u (List.mem_of_mem_erase hu) hput, ?_, ?_⟩
  · intro file hfile
    dsimp only [Storing.finish] at hfile
    split at hfile
    · rename_i hok
      rcases List.mem_cons.1 hfile with rfl | hfile
      · exact h.sessions upload hupload hok.2
      · exact h.acknowledged file hfile
    · exact h.acknowledged file hfile
  · refine h.last.imp_right fun ⟨file, hfile, heq⟩ => ⟨file, ?_, heq⟩
    dsimp only [Storing.finish]
    split
    · exact List.mem_cons_of_mem _ hfile
    · exact hfile

theorem Versioned.failConnection (h : c.Versioned) (upload : HttpUpload) : (c.failConnection upload).Versioned := by
  refine ⟨h.written, h.distinct, h.toUpload, h.uploading, ?_, h.acknowledged, h.last⟩
  intro u hu hput
  obtain ⟨v, hv, rfl⟩ := List.mem_map.1 hu
  split at hput
  · rename_i heq
    rw [if_pos heq]
    exact h.sessions v hv hput
  · rename_i hne
    rw [if_neg hne]
    exact h.sessions v hv hput

theorem Versioned.startUpload (h : c.Versioned) {request : UploadRequest} {upload : HttpUpload}
    {exitSave force : Bool} (hstarted : Started c request upload exitSave force) :
    (c.startUpload request upload exitSave force).Versioned := by
  refine ⟨h.written, h.distinct, h.toUpload, h.uploading, ?_, h.acknowledged, h.last⟩
  intro u hu hput
  rcases List.mem_append.1 hu with hu | hu
  · exact h.sessions u hu hput
  · obtain rfl := List.mem_singleton.1 hu
    exact h.uploading _ (hstarted.file hput)

theorem Versioned.elapse (h : c.Versioned) (nanoseconds : Nat) : (c.elapse nanoseconds).Versioned :=
  ⟨fun v hv => Nat.le_add_right_of_le (h.written v hv), h.distinct, h.toUpload, h.uploading, h.sessions,
    h.acknowledged, h.last.imp_left fun ⟨hnow, hnew⟩ => ⟨Nat.lt_add_right _ hnow, hnew⟩⟩

theorem Versioned.move (h : c.Versioned) (hmove : Move .versions c c') : c'.Versioned := by
  cases hmove with
  | writeFile size hwrite => exact h.writeFile hwrite size
  | loadTemplate size hwrite => exact (h.writeFile hwrite size).renameFile
  | takeSave index save response =>
    have hnoted : ((c.dropSave index).noteSaved save.requestId).Versioned :=
      ⟨h.written, h.distinct, h.toUpload, h.uploading, h.sessions, h.acknowledged, h.last⟩
    have hrenamed := hnoted.renameFile
    exact ⟨hrenamed.written, hrenamed.distinct, hrenamed.toUpload, hrenamed.uploading, hrenamed.sessions,
      hrenamed.acknowledged, hrenamed.last⟩
  | startUpload exitSave force _ hstarted => exact h.startUpload hstarted
  | finish statusCode hupload => exact h.finish hupload statusCode
  | failConnection => exact h.failConnection _
  | uploaded _ hplain hresult => exact ⟨h.written, h.distinct, h.toUpload, h.uploading, h.sessions, h.acknowledged,
      .inr (hresult rfl hplain)⟩
  | elapse nanoseconds => exact h.elapse nanoseconds
  | _ => exact ⟨h.written, h.distinct, h.toUpload, h.uploading, h.sessions, h.acknowledged, h.last⟩

end Storing

namespace Lifetime

open DocumentBroker (Event ResultAllowed)
open Storing (Guard Versioned)

variable {s : Lifetime} {e : Event}

/-- A version that counts as uploaded was acknowledged by the storage. -/
def UploadedIsAcknowledged (s : Lifetime) : Prop :=
  ∀ file, s.broker.storage.fileUploading = some file → s.broker.storageManager.lastUploadSuccessful = true →
    s.broker.isStorageOutdated = false → file ∈ s.broker.storage.acknowledged

/-- The condition on a step: OK comes for the version that the current upload request is about, if there is a request
and it is about the document itself. -/
def OKForCurrentVersion (s : Lifetime) (e : Event) : Prop :=
  ∀ attempt response upload request, e = .uploadFinished attempt response → response.statusCode = 200 →
    s.broker.findUpload attempt = some upload → s.broker.uploadRequest = some request →
    (!request.isSaveAs && !request.isRename) = true →
    upload.isPutFile = true ∧ upload.file.modifiedTime = request.newFileModifiedLocalTime

theorem allows_versions (h : s.broker.storing.Versioned) (hok : s.OKForCurrentVersion e) :
    (clocked s.broker).Allows .versions e := by
  have hwrite : ∀ v ∈ (clocked s.broker).storing.versions, v.modifiedTime < (clocked s.broker).storing.now :=
    fun v hv => Nat.lt_succ_of_le (h.written v hv)
  cases e with
  | addSession => exact fun _ _ _ => True.intro
  | loaded => exact fun _ _ _ => ⟨hwrite, True.intro, True.intro⟩
  | kitSaved => exact hwrite
  | uploadFinished attempt response =>
    intro upload hupload modifiedTime request hrequest
    refine ⟨fun hsuccess hplain => ?_, .inr (.inr True.intro), fun _ _ _ _ => True.intro⟩
    have hstatus : response.statusCode = 200 := by simpa using hsuccess
    obtain ⟨hput, htime⟩ := hok attempt response upload request rfl hstatus hupload hrequest hplain
    refine ⟨upload.file, ?_, htime⟩
    simp [DocumentBroker.storing, hstatus, hput]
  | save => exact ⟨fun _ _ _ _ => True.intro, .inr (.inl True.intro)⟩
  | saveResponse => exact ⟨fun _ _ _ _ =>
      ⟨True.intro, .inr (.inr True.intro), fun _ => True.intro, fun _ => True.intro⟩, fun _ => True.intro⟩
  | poll => exact ⟨fun _ => ⟨fun _ => True.intro, fun _ _ => True.intro, fun _ => .inr (.inl True.intro)⟩,
      fun _ => True.intro⟩
  | checkFileInfoFinished => exact fun _ _ _ => True.intro
  | finish => exact fun _ _ _ => True.intro
  | onDisconnect => exact fun _ _ _ _ => True.intro
  | savetostorage => exact fun _ => True.intro
  | renamefile => exact fun _ _ => True.intro
  | switchMode => exact fun _ _ _ => True.intro
  | adminAutoSave => exact fun _ => True.intro
  | _ => exact True.intro

theorem versioned_initial (d : Download) : (initial d).broker.storing.Versioned := by
  refine ⟨fun v hv => ?_, fun v hv => ?_, fun _ h => ?_, fun _ h => ?_, fun u hu => ?_, fun f hf => ?_,
    .inl ⟨?_, fun v hv => ?_⟩⟩
  · cases hv
  · cases hv
  · cases h
  · cases h
  · cases hu
  · cases hf
  · have hdownloaded := d.downloaded
    simp only [initial, DocumentBroker.storing]
    split <;> omega
  · cases hv

theorem versioned_of_okForCurrentVersion (h : Run.Reachable Initial step OKForCurrentVersion s) :
    s.broker.storing.Versioned :=
  storing_invariant .versions Versioned versioned_initial (fun _ _ hc hmove => hc.move hmove)
    (fun _ _ _ hc hok => allows_versions hc hok) h

/-- In every run in which OK comes only for the version that the current upload request is about, no version is
believed uploaded that was not. -/
theorem uploadedIsAcknowledged_of_ok (h : Run.Reachable Initial step OKForCurrentVersion s) :
    s.UploadedIsAcknowledged := by
  intro file hfile _ houtdated
  have htime : file.modifiedTime = s.broker.storageManager.lastUploadedFileModifiedLocalTime := by
    simpa [DocumentBroker.BrokerState.isStorageOutdated, hfile] using houtdated
  exact (versioned_of_okForCurrentVersion h).acknowledged_of_eq hfile htime

/-! ### Runs -/

instance (s : Lifetime) (e : Event) : Decidable (s.OKForCurrentVersion e) :=
  match e with
  | .uploadFinished attempt response =>
    decidable_of_iff (response.statusCode = 200 → ∀ upload ∈ s.broker.findUpload attempt,
        ∀ request ∈ s.broker.uploadRequest, (!request.isSaveAs && !request.isRename) = true →
          upload.isPutFile = true ∧ upload.file.modifiedTime = request.newFileModifiedLocalTime)
      ⟨fun h attempt' response' upload request he hstatus hupload hrequest => by
          obtain ⟨rfl, rfl⟩ := Event.uploadFinished.inj he
          exact h hstatus upload hupload request hrequest,
        fun h hstatus upload hupload request hrequest => h _ _ upload request rfl hstatus hupload hrequest⟩
  | .elapse _ | .addSession .. | .loaded .. | .setCloseFrame _ | .setAuthorizationExpired .. | .setReadOnly _
  | .onDisconnect _ | .disconnected _ | .userActivity | .modifyingActivity _ | .setModified _ | .save ..
  | .savetostorage .. | .saveas .. | .renamefile .. | .switchMode .. | .adminAutoSave | .kitSaved _ | .saveResponse ..
  | .uploadConnectFailed _ | .checkFileInfoFinished _ | .setHostIsInvalid _ | .closeDocument _ | .childProcessClosed
  | .disconnectedFromKit _ | .setShutdownRequestFlag | .setTerminationFlag | .stopPolling | .stop
    _ | .poll | .leaveLoop
  | .finish => isTrue fun _ _ _ _ he => by cases he

/-- A second version is saved while the first one is uploaded: its upload is refused, and then OK comes for the
first. -/
def saveTwice : List Event :=
  editAndSave ++ [.save 1 false false "" "r2", .kitSaved 130, .saveResponse 0 ⟨true, "", none⟩]

theorem not_uploadedIsAcknowledged :
    ∃ s, Run.Reachable Initial step Run.Any s ∧ ¬ s.UploadedIsAcknowledged := by
  obtain ⟨s, hr, hs⟩ : ∃ s, Run.Reachable Initial step Run.Any s ∧
      (s.broker.storage.fileUploading.any fun file => s.broker.storageManager.lastUploadSuccessful &&
        !s.broker.isStorageOutdated && decide (file ∉ s.broker.storage.acknowledged)) = true :=
    Run.Reachable.exists_of_run (initial download) (saveTwice ++ [.uploadFinished 0 ⟨200, "", "", none⟩])
      ⟨download, rfl⟩ (by decide)
  refine ⟨s, hr, fun h => ?_⟩
  obtain ⟨file, hfile, hbad⟩ := Option.any_eq_true _ _ |>.1 hs
  simp only [Bool.and_eq_true, Bool.not_eq_true', decide_eq_true_eq] at hbad
  exact hbad.2 (h file hfile hbad.1.1 hbad.1.2)

/-- The same run with an answer that is no OK, and a second upload. -/
theorem uploadedIsAcknowledged_of_retry :
    ∃ s, Run.Reachable Initial step OKForCurrentVersion s ∧ s.broker.storage.acknowledged.map LocalFile.size = [130] ∧
      s.broker.storageManager.lastUploadSuccessful = true ∧ s.broker.isStorageOutdated = false ∧
      s.UploadedIsAcknowledged := by
  obtain ⟨s, hr, hs⟩ : ∃ s, Run.Reachable Initial (Run.guarded step fun s e => decide (s.OKForCurrentVersion e))
        Run.Any s ∧
      (s.broker.storage.acknowledged.map LocalFile.size == [130] && s.broker.storageManager.lastUploadSuccessful &&
        !s.broker.isStorageOutdated) = true :=
    Run.Reachable.exists_of_run (initial download)
      (saveTwice ++ [.uploadFinished 0 ⟨500, "", "", none⟩, .poll, .checkFileInfoFinished .Fail, .elapse 10000000000,
        .poll, .uploadFinished 2 ⟨200, "", "", none⟩])
      ⟨download, rfl⟩ (by decide)
  have hr := hr.of_guarded fun s e => of_decide_eq_true
  simp only [Bool.and_eq_true, beq_iff_eq, Bool.not_eq_true'] at hs
  exact ⟨s, hr, hs.1.1, hs.1.2, hs.2, uploadedIsAcknowledged_of_ok hr⟩

end Lifetime

end CollaboraOnline
