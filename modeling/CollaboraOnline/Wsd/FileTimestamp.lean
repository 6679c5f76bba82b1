import CollaboraOnline.Wsd.DocumentSteps

/-!
# The timestamp after an upload without a response

When the broker re-synchronises its timestamp with `CheckFileInfo`, the size that is reported tells whether the
document in the storage is the one that was uploaded.  The broker remembers the size of the last attempt to upload,
and 0 where the attempt was refused.  The `CheckFileInfo` of a session that joins replaces the timestamp as well: its
size is not looked at, and while an upload request is kept the document is not declared in conflict.
-/

namespace CollaboraOnline

namespace DocumentBroker

/-- The size of the file that was to be uploaded last. -/
def BrokerState.sizeTried (s : BrokerState) : Option Nat :=
  s.storage.lastAttempt.bind fun attempt => attempt.file.map LocalFile.size

/-- The size that the document is known to have in the storage: of the last upload that was acknowledged, or as
downloaded. -/
def BrokerState.sizeKnown (s : BrokerState) : Nat :=
    (s.storage.acknowledged.head?.map LocalFile.size).getD s.storage.size

/-- The timestamp of the storage is adopted only with one of the two sizes. -/
def Resync.Justified (resync : Resync) : Prop :=
  resync.outcome = .adopted → resync.state.sizeTried = some resync.size ∨ resync.state.sizeKnown = resync.size

instance (resync : Resync) : Decidable resync.Justified := by
  unfold Resync.Justified
  infer_instance

end DocumentBroker

namespace Storing

variable {c c' : Storing}

open DocumentBroker (Resync)

/-- The last attempt was not refused. -/
def LastStarted (c : Storing) : Prop := ∃ attempt, c.lastAttempt = some attempt ∧ attempt.started = true

/-- A size of 0 is reported only after an attempt that was started, and a session that joins has no time adopted. -/
def Guard.sizes : Guard :=
  { Guard.any with
    resync := fun c size => c.LastStarted ∨ size ≠ 0
    join := fun outcome => outcome = .conflict }

/-- The size as uploaded is that of the last attempt, or 0. -/
structure SizeTracked (c : Storing) : Prop where
  onServer : c.sizeOnServer = 0
  started : ∀ attempt, c.lastAttempt = some attempt → attempt.started = true →
    attempt.file.map LocalFile.size = some c.sizeAsUploaded
  refused : ¬ c.LastStarted → c.sizeAsUploaded = 0
  resyncs : ∀ resync ∈ c.resyncs, resync.Justified

theorem SizeTracked.justified (h : c.SizeTracked) {resync : Resync} (hsize : c.LastStarted ∨ resync.size ≠ 0)
    (houtcome : resync.outcome =
      (if c.sizeAsUploaded = resync.size ∨ c.sizeOnServer ≠ 0 then .adopted else .conflict))
    (hlast : resync.state.storage.lastAttempt = c.lastAttempt) : resync.Justified := by
  intro hadopted
  have hequal : c.sizeAsUploaded = resync.size := by
    by_contra hne
    rw [if_neg (by simp [hne, h.onServer]), hadopted] at houtcome
    cases houtcome
  have hstarted : c.LastStarted := by
    by_contra hrefused
    rcases hsize with hsize | hsize
    · exact hrefused hsize
    · exact hsize (hequal.symm.trans (h.refused hrefused))
  obtain ⟨attempt, hattempt, hstarted⟩ := hstarted
  left
  unfold DocumentBroker.BrokerState.sizeTried
  rw [hlast, hattempt, ← hequal]
  exact h.started attempt hattempt hstarted

theorem SizeTracked.move (h : c.SizeTracked) (hmove : Move .sizes c c') : c'.SizeTracked := by
  cases hmove with
  | startUpload exitSave force =>
    refine ⟨h.onServer, ?_, fun hrefused => ?_, h.resyncs⟩
    · intro attempt hattempt _
      obtain rfl := Option.some.inj hattempt
      rfl
    · exact absurd ⟨_, rfl, rfl⟩ hrefused
  | refuseUpload request file exitSave force =>
    refine ⟨h.onServer, ?_, fun _ => rfl, h.resyncs⟩
    intro attempt hattempt hstarted
    obtain rfl := Option.some.inj hattempt
    cases hstarted
  | resync resync hsize houtcome hlast =>
    refine ⟨h.onServer, h.started, h.refused, ?_⟩
    intro resync' hmem
    rcases List.mem_append.1 hmem with hmem | hmem
    · exact h.resyncs resync' hmem
    · obtain rfl := List.mem_singleton.1 hmem
      exact h.justified hsize houtcome hlast
  | join resync hconflict =>
    refine ⟨h.onServer, h.started, h.refused, ?_⟩
    intro resync' hmem hadopted
    rcases List.mem_append.1 hmem with hmem | hmem
    · exact h.resyncs resync' hmem hadopted
    · obtain rfl := List.mem_singleton.1 hmem
      cases hconflict.symm.trans hadopted
  | _ => exact ⟨h.onServer, h.started, h.refused, h.resyncs⟩

end Storing

namespace Lifetime

open DocumentBroker (Event)
open Storing (Guard SizeTracked)

variable {s : Lifetime} {e : Event}

/-- The condition on a step: after an attempt to upload that was refused, `CheckFileInfo` reports a size, and not 0.
A session that joins reports no time but the one that is known, or the document is declared in conflict: there is a
known time, and no upload request. -/
structure ReportsSize (s : Lifetime) (e : Event) : Prop where
  answers : ∀ lastModifiedTime size, e = .checkFileInfoFinished (.Pass lastModifiedTime size) →
    s.broker.storing.LastStarted ∨ size.getD 0 ≠ 0
  joins : ∀ session fileInfo, e = .addSession session (some fileInfo) →
    fileInfo.modifiedTime = "" ∨ fileInfo.modifiedTime = s.broker.storageManager.lastModifiedServerTimeString ∨
      fileInfo.isValid = true ∧ s.broker.storageManager.lastModifiedServerTimeString ≠ "" ∧
        s.broker.uploadRequest = none

theorem joinOutcome_eq_conflict {b : DocumentBroker} {fileInfo : FileInfo} (hnew : b.ReportsNewTime fileInfo)
    (hvalid : fileInfo.isValid = true) (hknown : b.storageManager.lastModifiedServerTimeString ≠ "")
    (hrequest : b.uploadRequest = none) : b.joinOutcome fileInfo = .conflict := by
  have hmodified : b.isModifiedBehindOurBack fileInfo = true := by
    simp [DocumentBroker.isModifiedBehindOurBack, hknown, hnew.1, hnew.2.symm, hrequest]
  rw [DocumentBroker.joinOutcome, hvalid, hmodified]
  rfl

theorem allows_sizes (hok : s.ReportsSize e) : (clocked s.broker).Allows .sizes e := by
  cases e with
  | checkFileInfoFinished result =>
    rintro lastModifiedTime size rfl
    exact hok.answers lastModifiedTime size rfl
  | addSession session fileInfo =>
    rintro info rfl hnew
    rcases hok.joins session info rfl with htime | htime | ⟨hvalid, hknown, hrequest⟩
    · exact absurd htime hnew.1
    · exact absurd htime hnew.2
    · exact joinOutcome_eq_conflict hnew hvalid hknown hrequest
  | loaded => exact fun _ _ _ => ⟨True.intro, True.intro, True.intro⟩
  | save => exact ⟨fun _ _ _ _ => True.intro, .inr (.inl True.intro)⟩
  | saveResponse => exact ⟨fun _ _ _ _ =>
      ⟨True.intro, .inr (.inr True.intro), fun _ => True.intro, fun _ => True.intro⟩, fun _ => True.intro⟩
  | uploadFinished => exact fun _ _ _ _ _ => ⟨True.intro, .inr (.inr True.intro), fun _ _ _ _ => True.intro⟩
  | poll => exact ⟨fun _ => ⟨fun _ => True.intro, fun _ _ => True.intro, fun _ => .inr (.inl True.intro)⟩,
      fun _ => True.intro⟩
  | finish => exact fun _ _ _ => True.intro
  | onDisconnect => exact fun _ _ _ _ => True.intro
  | savetostorage => exact fun _ => True.intro
  | renamefile => exact fun _ _ => True.intro
  | switchMode => exact fun _ _ _ => True.intro
  | adminAutoSave => exact fun _ => True.intro
  | _ => exact True.intro

theorem sizeTracked_initial (d : Download) : (initial d).broker.storing.SizeTracked := by
  refine ⟨rfl, fun _ h => ?_, fun _ => rfl, fun _ h => ?_⟩
  · cases h
  · cases h

instance (c : Storing) : Decidable c.LastStarted :=
  decidable_of_iff (c.lastAttempt.any UploadAttempt.started = true)
    (by simp [Storing.LastStarted, Option.any_eq_true])

instance (s : Lifetime) (e : Event) : Decidable (s.ReportsSize e) :=
  match e with
  | .checkFileInfoFinished (.Pass lastModifiedTime size) =>
    decidable_of_iff (s.broker.storing.LastStarted ∨ size.getD 0 ≠ 0)
      ⟨fun h => ⟨fun lastModifiedTime' size' he => by
          obtain ⟨rfl, rfl⟩ := DocumentBroker.CheckFileInfoResult.Pass.inj (Event.checkFileInfoFinished.inj he)
          exact h, fun _ _ he => by cases he⟩,
        fun h => h.answers lastModifiedTime size rfl⟩
  | .addSession session (some fileInfo) =>
    decidable_of_iff (fileInfo.modifiedTime = "" ∨
        fileInfo.modifiedTime = s.broker.storageManager.lastModifiedServerTimeString ∨
        fileInfo.isValid = true ∧ s.broker.storageManager.lastModifiedServerTimeString ≠ "" ∧
          s.broker.uploadRequest = none)
      ⟨fun h => ⟨fun _ _ he => (by cases he), fun session' fileInfo' he => by
          obtain ⟨rfl, hinfo⟩ := Event.addSession.inj he
          obtain rfl := Option.some.inj hinfo
          exact h⟩,
        fun h => h.joins session fileInfo rfl⟩
  | .addSession _ none | .checkFileInfoFinished .Unauthorized | .checkFileInfoFinished .Timedout
  | .checkFileInfoFinished .Fail | .elapse _ | .loaded .. | .setCloseFrame _ | .setAuthorizationExpired ..
  | .setReadOnly _ | .onDisconnect _ | .disconnected _ | .userActivity | .modifyingActivity _ | .setModified
    _ | .save ..
  | .savetostorage .. | .saveas .. | .renamefile .. | .switchMode .. | .adminAutoSave | .kitSaved _ | .saveResponse ..
  | .uploadFinished .. | .uploadConnectFailed _ | .setHostIsInvalid _ | .closeDocument _ | .childProcessClosed
  | .disconnectedFromKit _ | .setShutdownRequestFlag | .setTerminationFlag | .stopPolling | .stop
    _ | .poll | .leaveLoop
  | .finish => isTrue ⟨fun _ _ he => (by cases he), fun _ _ he => (by cases he)⟩

/-- A timestamp was adopted though neither size matched. -/
def adoptsUnjustified (s : Lifetime) : Bool :=
  s.broker.resyncs.any fun resync => decide (resync.outcome = .adopted ∧ ¬ resync.Justified)

theorem exists_of_adoptsUnjustified (h : s.adoptsUnjustified = true) :
    ∃ resync ∈ s.broker.resyncs, resync.outcome = .adopted ∧ ¬ resync.Justified := by
  obtain ⟨resync, hmem, h⟩ := List.any_eq_true.1 h
  exact ⟨resync, hmem, of_decide_eq_true h⟩

/-- A view that joins later. -/
def secondSession : DocumentBroker.ClientSession := { id := 2, state := .LOADING }

/-- The first upload gets no response. -/
def unanswered : List Event := [.uploadFinished 0 ⟨0, "", "", none⟩, .poll]

end Lifetime

end CollaboraOnline
