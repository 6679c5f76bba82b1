import CollaboraOnline.Wsd.UploadVersions

/-!
# Data loss when the poll loop is left

What the test for data loss finds when the thread of a broker leaves its loop, and what goes to the quarantine at its
end, when the document then has content that the storage has not acknowledged.
-/

namespace CollaboraOnline

namespace DocumentBroker

/-- The last version that the kit has saved was not acknowledged. -/
def BrokerState.LastVersionIsLost (s : BrokerState) : Prop :=
  ∃ file, s.storage.versions.head? = some file ∧ file ∉ s.storage.acknowledged

/-- The document has content that the storage has not acknowledged. -/
def BrokerState.HasUnacknowledgedContent (s : BrokerState) : Prop :=
  s.isModified = true ∨ s.haveModifyActivityAfterSaveRequest = true ∨ s.childProcess.saves ≠ [] ∨ s.LastVersionIsLost

/-- The owner asked to close a document in conflict. -/
def BrokerState.DiscardsConflict (s : BrokerState) : Prop :=
  s.docState.closeRequested = true ∧ s.documentChangedInStorage = true

/-- The version that was taken over last from the kit was not acknowledged. -/
def BrokerState.TakenVersionIsLost (s : BrokerState) : Prop :=
  ∃ file ∈ s.storage.fileUploading, file ∉ s.storage.acknowledged

/-- There is neither the modified flag, nor an unanswered save, nor a file that the kit has written and that was not
taken over. -/
def BrokerState.KitIsSettled (s : BrokerState) : Prop :=
  s.isModified = false ∧ s.childProcess.saves = [] ∧ s.storage.fileToUpload = none

/-- The copy of the last version. -/
def BrokerState.lastVersion (s : BrokerState) : QuarantinedFile :=
  match s.storage.versions.head? with
  | none => .original
  | some file => .saved file

variable {b : DocumentBroker}

/-- The test looks at four pieces of state. -/
theorem dataLossDetected_iff : b.dataLossDetected = true ↔
    (b.haveModifyActivityAfterSaveRequest = true ∨ b.saveManager.lastSaveSuccessful = false ∨
      b.storageManager.lastUploadSuccessful = false ∨ b.isStorageOutdated = true) ∧ ¬ b.DiscardsConflict := by
  unfold dataLossDetected BrokerState.DiscardsConflict
  simp only [Bool.and_eq_true, Bool.or_eq_true, Bool.not_eq_true', Bool.and_eq_false_iff, or_assoc, not_and_or,
    Bool.not_eq_true]

end DocumentBroker

namespace Storing

variable {c c' : Storing}

/-- The last saved version is the one to be uploaded. -/
def HasLastVersion (c : Storing) : Prop := c.versions.head? = c.fileToUpload.or c.fileUploading

theorem HasLastVersion.move {G : Guard} (h : c.HasLastVersion) (hmove : Move G c c') : c'.HasLastVersion := by
  cases hmove with
  | writeFile => rfl
  | loadTemplate => simp [HasLastVersion, renameFile, Storing.writeFile]
  | takeSave => simpa [HasLastVersion, takeSave, renameFile, noteSaved, dropSave] using h
  | _ => exact h

end Storing

namespace Lifetime

open DocumentBroker (Event QuarantinedFile AutoSaved)
open Storing (HasLastVersion)

variable {s s' : Lifetime} {e : Event}

theorem hasLastVersion {ok : Lifetime → Event → Prop} (h : Run.Reachable Initial step ok s) :
    s.broker.storing.HasLastVersion :=
  storing_invariant .any HasLastVersion (fun _ => rfl) (fun _ _ hc hmove => hc.move hmove)
    (fun _ e _ _ _ => DocumentBroker.allows_any e) h

/-- What is lost is detected when the loop is left, and the last version is in the quarantine at the end. -/
def DetectsDataLoss (s : Lifetime) : Prop :=
  match s.phase with
  | .polling => True
  | .flushing dataLoss left => left.HasUnacknowledgedContent → ¬ left.DiscardsConflict → dataLoss = true
  | .finished dataLoss left =>
    (left.HasUnacknowledgedContent → ¬ left.DiscardsConflict → dataLoss = true) ∧
      (dataLoss = true → s.broker.config.quarantineEnabled = true → s.broker.lastVersion ∈ s.broker.quarantined)

/-- The condition on a step: OK comes only for the version that the current upload request is about.  The modified
flag, an unanswered save and a file that the kit has written are not all that is left when the loop is left: an
editing command came after the last save request, or the last save failed, or the version taken over last was not
acknowledged.  And at the end there are not both files. -/
structure LeavesInTime (s : Lifetime) (e : Event) : Prop where
  uploads : s.OKForCurrentVersion e
  leaving : e = .leaveLoop → s.broker.DiscardsConflict ∨ s.broker.KitIsSettled ∨
    s.broker.saveManager.lastSaveRequestTime < s.broker.lastModifyActivityTime ∨
      0 < s.broker.saveManager.saveFailureCount ∨ s.broker.TakenVersionIsLost
  finishing : e = .finish → s.broker.storage.fileUploading = none ∨ s.broker.storage.fileToUpload = none

theorem versioned_of_leavesInTime (h : Run.Reachable Initial step LeavesInTime s) : s.broker.storing.Versioned :=
  versioned_of_okForCurrentVersion (h.mono fun _ _ hok => hok.uploads)

/-- A version that was taken over and not acknowledged is newer than the last one that counts as uploaded. -/
theorem outdated_of_takenVersionIsLost (h : Run.Reachable Initial step LeavesInTime s)
    (hlost : s.broker.TakenVersionIsLost) : s.broker.isStorageOutdated = true := by
  obtain ⟨file, huploading, hlost⟩ := hlost
  rw [Option.mem_def] at huploading
  cases houtdated : s.broker.isStorageOutdated with
  | true => rfl
  | false =>
    refine absurd ((versioned_of_leavesInTime h).acknowledged_of_eq huploading ?_) hlost
    change file.modifiedTime = s.broker.storageManager.lastUploadedFileModifiedLocalTime
    simpa [DocumentBroker.BrokerState.isStorageOutdated, huploading] using houtdated

/-- Where the kit is settled, the last version is the one that was taken over. -/
theorem takenVersionIsLost_of_settled (h : Run.Reachable Initial step LeavesInTime s)
    (hsettled : s.broker.KitIsSettled) (hlost : s.broker.LastVersionIsLost) : s.broker.TakenVersionIsLost := by
  obtain ⟨file, hfirst, hlost⟩ := hlost
  have hlast : s.broker.storage.versions.head? =
    s.broker.storage.fileToUpload.or s.broker.storage.fileUploading := hasLastVersion h
  rw [hsettled.2.2, Option.none_or] at hlast
  exact ⟨file, hlast.symm.trans hfirst, hlost⟩

/-- The test finds what is lost. -/
theorem detects_of_leaving (h : Run.Reachable Initial step LeavesInTime s)
    (hleaving : s.broker.DiscardsConflict ∨ s.broker.KitIsSettled ∨
      s.broker.saveManager.lastSaveRequestTime < s.broker.lastModifyActivityTime ∨
        0 < s.broker.saveManager.saveFailureCount ∨ s.broker.TakenVersionIsLost)
    (hlost : s.broker.HasUnacknowledgedContent) (hdiscards : ¬ s.broker.DiscardsConflict) :
    s.broker.dataLossDetected = true := by
  refine DocumentBroker.dataLossDetected_iff.2 ⟨?_, hdiscards⟩
  have htaken (hnot : s.broker.TakenVersionIsLost) : s.broker.haveModifyActivityAfterSaveRequest = true ∨
      s.broker.saveManager.lastSaveSuccessful = false ∨ s.broker.storageManager.lastUploadSuccessful = false ∨
      s.broker.isStorageOutdated = true :=
    .inr (.inr (.inr (outdated_of_takenVersionIsLost h hnot)))
  rcases hleaving with hconflict | hsettled | hedited | hfailed | hnotAcknowledged
  · exact absurd hconflict hdiscards
  · rcases hlost with hmodified | hedited | hsaves | hversion
    · rw [hsettled.1] at hmodified
      cases hmodified
    · exact .inl hedited
    · exact absurd hsettled.2.1 hsaves
    · exact htaken (takenVersionIsLost_of_settled h hsettled hversion)
  · exact .inl (decide_eq_true hedited)
  · refine .inr (.inl ?_)
    have hne : s.broker.saveManager.request.lastRequestFailureCount ≠ 0 := Nat.pos_iff_ne_zero.1 hfailed
    simpa [SaveManager.lastSaveSuccessful, RequestManager.lastRequestSuccessful] using hne
  · exact htaken hnotAcknowledged

theorem autoSaved_files {c c' : Storing} (h : Relation.ReflTransGen AutoSaved c c') :
    c'.versions = c.versions ∧ c'.fileToUpload = c.fileToUpload ∧ c'.fileUploading = c.fileUploading := by
  induction h with
  | refl => exact ⟨rfl, rfl, rfl⟩
  | tail _ hstep ih =>
    obtain ⟨-, userModified, isAutosave, save, -, rfl⟩ := hstep
    exact ih

theorem lastVersion_mem_quarantined {b : DocumentBroker} (henabled : b.config.quarantineEnabled = true)
    (hlast : b.storing.HasLastVersion) (hone : b.storage.fileUploading = none ∨ b.storage.fileToUpload = none) :
    b.lastVersion ∈ b.quarantineLastVersion.quarantined := by
  have hlast : b.storage.versions.head? = b.storage.fileToUpload.or b.storage.fileUploading := hlast
  unfold DocumentBroker.quarantineLastVersion DocumentBroker.BrokerState.lastVersion
  rw [if_pos henabled, hlast]
  refine List.mem_append_right _ (List.mem_singleton.2 ?_)
  rcases hone with hone | hone
  · rw [hone, Option.none_or, Option.or_none]
    cases b.storage.fileToUpload <;> rfl
  · rw [hone, Option.none_or, Option.or_none]
    cases b.storage.fileUploading <;> rfl

theorem detectsDataLoss_step (h : Run.Reachable Initial step LeavesInTime s) (hd : s.DetectsDataLoss)
    (hok : s.LeavesInTime e) (hs : step s e = some s') : s'.DetectsDataLoss := by
  have hlast' : s'.broker.storing.HasLastVersion := hasLastVersion (.next h hok hs)
  unfold step at hs
  dsimp only at hs
  split at hs
  · cases hs
  · split at hs
    · cases hs
    · obtain ⟨b, -, rfl⟩ := Option.map_eq_some_iff.1 hs
      unfold DetectsDataLoss at hd ⊢
      rename_i hphase _
      rw [hphase]
      exact True.intro
  · cases hs
  · split at hs
    · obtain ⟨b, -, rfl⟩ := Option.map_eq_some_iff.1 hs
      exact fun hlost hdiscards => detects_of_leaving h (hok.leaving rfl) hlost hdiscards
    · cases hs
  · cases hs
  · cases hs
  · rename_i dataLoss left hphase
    obtain ⟨b, hb, rfl⟩ := Option.map_eq_some_iff.1 hs
    rw [DetectsDataLoss, hphase] at hd
    refine ⟨hd, fun hloss henabled => ?_⟩
    obtain rfl : (clocked s.broker).terminateChild = b := Option.some.inj hb
    obtain ⟨-, htoUpload, huploading⟩ := autoSaved_files
      (DocumentBroker.terminateChild_autoSaved (b := clocked s.broker))
    subst hloss
    simp only [Bool.true_or, if_true] at henabled hlast' ⊢
    rw [DocumentBroker.storing_quarantineLastVersion] at hlast'
    generalize (clocked s.broker).terminateChild = b at *
    have hkeep : b.quarantineLastVersion.lastVersion = b.lastVersion ∧
        b.quarantineLastVersion.config = b.config := by
      unfold DocumentBroker.quarantineLastVersion
      split <;> exact ⟨rfl, rfl⟩
    rw [hkeep.1]
    rw [hkeep.2] at henabled
    refine lastVersion_mem_quarantined henabled hlast' ?_
    rcases hok.finishing rfl with hone | hone
    · exact .inl (huploading.trans hone)
    · exact .inr (htoUpload.trans hone)
  · obtain ⟨b, -, rfl⟩ := Option.map_eq_some_iff.1 hs
    rename_i hnot _ _ _ _ _ _
    unfold DetectsDataLoss at hd ⊢
    dsimp only at hd ⊢
    cases hphase : s.phase with
    | polling => trivial
    | flushing dataLoss left => rwa [hphase] at hd
    | finished dataLoss left => exact absurd hphase (hnot dataLoss left)

/-- In every run that leaves the loop in time, what is lost is detected. -/
theorem detectsDataLoss_of_leavesInTime (h : Run.Reachable Initial step LeavesInTime s) : s.DetectsDataLoss := by
  refine h.invariant DetectsDataLoss ?_ ?_
  · rintro _ ⟨d, rfl⟩
    exact True.intro
  · exact fun s e s' hr hd hok hs => detectsDataLoss_step hr hd hok hs

/-! ### Runs -/

instance (s : DocumentBroker.BrokerState) : Decidable s.DiscardsConflict := by
  unfold DocumentBroker.BrokerState.DiscardsConflict
  infer_instance

instance (s : DocumentBroker.BrokerState) : Decidable s.KitIsSettled := by
  unfold DocumentBroker.BrokerState.KitIsSettled
  infer_instance

instance (s : DocumentBroker.BrokerState) : Decidable s.TakenVersionIsLost := by
  unfold DocumentBroker.BrokerState.TakenVersionIsLost
  infer_instance

instance (s : Lifetime) (e : Event) : Decidable (s.LeavesInTime e) :=
  decidable_of_iff (s.OKForCurrentVersion e ∧
      (e = .leaveLoop → s.broker.DiscardsConflict ∨ s.broker.KitIsSettled ∨
        s.broker.saveManager.lastSaveRequestTime < s.broker.lastModifyActivityTime ∨
          0 < s.broker.saveManager.saveFailureCount ∨ s.broker.TakenVersionIsLost) ∧
      (e = .finish → s.broker.storage.fileUploading = none ∨ s.broker.storage.fileToUpload = none))
    ⟨fun h => ⟨h.1, h.2.1, h.2.2⟩, fun h => ⟨h.1, h.2, h.3⟩⟩

/-- The loop is left without a loss being detected. -/
def leavesUnnoticed (s : Lifetime) : Bool :=
  match s.phase with
  | .flushing dataLoss left => !dataLoss && !decide left.DiscardsConflict
  | _ => false

theorem not_detectsDataLoss (h : s.leavesUnnoticed = true)
    (hlost : ∀ dataLoss left, s.phase = .flushing dataLoss left → left.HasUnacknowledgedContent) :
      ¬ s.DetectsDataLoss := by
  intro hd
  unfold leavesUnnoticed at h
  unfold DetectsDataLoss at hd
  cases hphase : s.phase with
  | polling => simp [hphase] at h
  | finished => simp [hphase] at h
  | flushing dataLoss left =>
    rw [hphase] at hd
    simp only [hphase, Bool.and_eq_true, Bool.not_eq_true', decide_eq_false_iff_not] at h
    have hloss := hd (hlost dataLoss left hphase) h.2
    rw [h.1] at hloss
    cases hloss

/-- Core reports the document modified, or a save is unanswered, when the broker is stopped. -/
theorem leaves_unnoticed :
    (∃ s, Run.Reachable Initial step Run.Any s ∧ (∃ left, s.phase = .flushing false left ∧ left.isModified = true) ∧
      ¬ s.DetectsDataLoss) ∧
    ∃ s, Run.Reachable Initial step Run.Any s ∧ (∃ left, s.phase = .flushing false left ∧ left.isModified = false ∧
      left.childProcess.saves ≠ []) ∧ ¬ s.DetectsDataLoss := by
  constructor
  · obtain ⟨s, hr, hs⟩ : ∃ s, Run.Reachable Initial step Run.Any s ∧
        (s.leavesUnnoticed && match s.phase with
          | .flushing dataLoss left => !dataLoss && left.isModified
          | _ => false) = true :=
      Run.Reachable.exists_of_run (initial download)
        [firstJoin, .loaded 1 true none, .setModified true, .stop "stopped", .leaveLoop]
        ⟨download, rfl⟩ (by decide)
    rw [Bool.and_eq_true] at hs
    obtain ⟨hunnoticed, hs⟩ := hs
    cases hphase : s.phase with
    | polling => simp [hphase] at hs
    | finished => simp [hphase] at hs
    | flushing dataLoss left =>
      simp only [hphase, Bool.and_eq_true, Bool.not_eq_true'] at hs
      refine ⟨s, hr, ⟨left, by rw [hphase, hs.1], hs.2⟩, not_detectsDataLoss hunnoticed ?_⟩
      intro dataLoss' left' hphase'
      obtain ⟨-, rfl⟩ := Phase.flushing.inj (hphase.symm.trans hphase')
      exact .inl hs.2
  · obtain ⟨s, hr, hs⟩ : ∃ s, Run.Reachable Initial step Run.Any s ∧
        (s.leavesUnnoticed && match s.phase with
          | .flushing dataLoss left => !dataLoss && !left.isModified && left.childProcess.saves != []
          | _ => false) = true :=
      Run.Reachable.exists_of_run (initial download)
        [firstJoin, .loaded 1 true none, .modifyingActivity 1, .save 1 false false "" "",
          .stop "stopped", .leaveLoop]
        ⟨download, rfl⟩ (by decide)
    rw [Bool.and_eq_true] at hs
    obtain ⟨hunnoticed, hs⟩ := hs
    cases hphase : s.phase with
    | polling => simp [hphase] at hs
    | finished => simp [hphase] at hs
    | flushing dataLoss left =>
      simp only [hphase, Bool.and_eq_true, Bool.not_eq_true', bne_iff_ne] at hs
      refine ⟨s, hr, ⟨left, by rw [hphase, hs.1.1], hs.1.2, hs.2⟩, not_detectsDataLoss hunnoticed ?_⟩
      intro dataLoss' left' hphase'
      obtain ⟨-, rfl⟩ := Phase.flushing.inj (hphase.symm.trans hphase')
      exact .inr (.inr (.inl hs.2))

/-- The broker is stopped while the last version is uploaded: it goes to the quarantine. -/
theorem detectsDataLoss_of_upload :
    ∃ s, Run.Reachable Initial step LeavesInTime s ∧ (∃ left, s.phase = .finished true left) ∧
      s.broker.lastVersion ∈ s.broker.quarantined ∧ s.DetectsDataLoss := by
  obtain ⟨s, hr, hs⟩ : ∃ s, Run.Reachable Initial (Run.guarded step fun s e => decide (s.LeavesInTime e)) Run.Any s ∧
      (decide (s.broker.lastVersion ∈ s.broker.quarantined) && match s.phase with
        | .finished dataLoss _ => dataLoss
        | _ => false) = true :=
    Run.Reachable.exists_of_run (initial download) (editAndSave ++ [.stop "stopped", .leaveLoop, .finish])
      ⟨download, rfl⟩ (by decide)
  have hr := hr.of_guarded fun s e => of_decide_eq_true
  rw [Bool.and_eq_true, decide_eq_true_eq] at hs
  obtain ⟨hquarantined, hs⟩ := hs
  cases hphase : s.phase with
  | polling => simp [hphase] at hs
  | flushing => simp [hphase] at hs
  | finished dataLoss left =>
    rw [hphase] at hs
    obtain rfl : dataLoss = true := hs
    exact ⟨s, hr, ⟨left, hphase⟩, hquarantined, detectsDataLoss_of_leavesInTime hr⟩

end Lifetime

end CollaboraOnline
