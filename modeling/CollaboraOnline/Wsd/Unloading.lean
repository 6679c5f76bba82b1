import CollaboraOnline.Wsd.DocumentSteps

/-!
# Unloading and work that could be saved

When `autoSaveAndStop` and `handleUploadToStorageSuccessful` stop a document that could still be saved and uploaded.
-/

namespace CollaboraOnline

namespace DocumentBroker

variable {s : BrokerState}

/-! ### The session that saves -/

/-- A session that may write, with a valid authorization. -/
def ClientSession.canWrite (c : ClientSession) : Bool := c.isViewLoaded && c.isEditable && !c.authorizationExpired

theorem chooseSavingSession_of_canWrite {sessions : List ClientSession}
    (howner : ∀ c ∈ sessions, c.isDocumentOwner = true → c.authorizationExpired = false)
    (savingSession : Option ClientSession)
    (h : (∃ c ∈ sessions, c.canWrite = true) ∨ ∃ c, savingSession = some c ∧ c.authorizationExpired = false) :
    ∃ c, BrokerState.chooseSavingSession savingSession sessions = some c ∧ c.authorizationExpired = false := by
  induction sessions generalizing savingSession with
  | nil =>
    rcases h with ⟨c, hc, -⟩ | h
    · cases hc
    · exact h
  | cons c rest ih =>
    unfold BrokerState.chooseSavingSession
    dsimp only
    split
    · rename_i hc
      exact ⟨c, rfl, howner c List.mem_cons_self hc⟩
    · refine ih (fun c' hc' => howner c' (List.mem_cons_of_mem _ hc')) _ ?_
      by_cases hcan : c.canWrite = true
      · right
        refine ⟨c, if_pos (by rw [show (c.isViewLoaded && c.isEditable && !c.authorizationExpired) = true from hcan,
          Bool.or_true]), ?_⟩
        simp only [ClientSession.canWrite, Bool.and_eq_true, Bool.not_eq_true'] at hcan
        exact hcan.2
      · rcases h with ⟨c', hc', hcan'⟩ | ⟨c', rfl, hvalid⟩
        · rcases List.mem_cons.1 hc' with rfl | hc'
          · exact absurd hcan' hcan
          · exact .inl ⟨c', hc', hcan'⟩
        · right
          refine ⟨c', if_neg ?_, hvalid⟩
          rw [show (c.isViewLoaded && c.isEditable && !c.authorizationExpired) = c.canWrite from rfl,
            Bool.eq_false_of_not_eq_true hcan]
          simp

/-- The work of the document could be saved: the kit is alive, the document is loaded, a session can write, and the
limit of store failures is not reached. -/
structure BrokerState.CanBeSaved (s : BrokerState) : Prop where
  kitAlive : s.docState.isKitDisconnected = false
  isLoaded : s.isLoaded = true
  writer : ∃ c ∈ s.sessions.list, c.canWrite = true
  belowLimit : 0 < s.config.limStoreFailures →
    s.saveManager.saveFailureCount < s.config.limStoreFailures ∧
      s.storageManager.uploadFailureCount < s.config.limStoreFailures

/-- No session of an owner of the document has an expired authorization. -/
def BrokerState.OwnersAreValid (s : BrokerState) : Prop :=
  ∀ c ∈ s.sessions.list, c.isDocumentOwner = true → c.authorizationExpired = false

theorem savable_of_canBeSaved (h : s.CanBeSaved) (howners : s.OwnersAreValid) : s.Savable := by
  obtain ⟨session, hsession, hvalid⟩ := chooseSavingSession_of_canWrite howners none (.inl h.writer)
  exact ⟨h.kitAlive, h.isLoaded, ⟨session, hsession, hvalid⟩, fun hlim => (h.belowLimit hlim).2⟩

/-! ### When a document is stopped -/

/-- The call abandons work: a save is in flight, the document is possibly modified, or the last saved file is not
uploaded, and the changes are not to be discarded. -/
def StopCall.Abandons (call : StopCall) : Prop :=
  call.caller ≠ .other ∧ call.state.CanBeSaved ∧
    ¬ (call.state.docState.closeRequested = true ∧ call.state.documentChangedInStorage = true) ∧
    (call.state.saveManager.isSaving = true ∨ call.state.isPossiblyModified = true ∨
    call.state.isStorageOutdated = true)

/-- What is checked before a document is stopped that could be saved. -/
structure StopCall.Checked (call : StopCall) : Prop where
  autoSaveAndStop : call.caller = .autoSaveAndStop → call.state.CanBeSaved → call.state.OwnersAreValid →
    call.state.SafeToStop
  uploaded : call.caller = .handleUploadToStorageSuccessful → call.state.isPossiblyModified = false

theorem StopCall.Justified.checked {call : StopCall} (h : call.Justified) : call.Checked := by
  constructor
  · intro hcaller hsaved howners
    rw [StopCall.Justified, hcaller] at h
    exact h (savable_of_canBeSaved hsaved howners)
  · intro hcaller
    rwa [StopCall.Justified, hcaller] at h

end DocumentBroker

namespace Lifetime

open DocumentBroker (StopCall Event)
open Storing (Guard Move)

variable {s : Lifetime}

/-- The calls of `stop` by `autoSaveAndStop` and `handleUploadToStorageSuccessful` are checked, in every run. -/
theorem stopCalls_checked (h : Run.Reachable Initial step Run.Any s) : ∀ call ∈ s.broker.stopCalls, call.Checked := by
  have hjustified : ∀ call ∈ s.broker.storing.stops, call.Justified := by
    refine storing_invariant .any (fun c => ∀ call ∈ c.stops, call.Justified) ?_ ?_ ?_ h
    · intro d call hcall
      cases hcall
    · intro c c' hc hmove
      cases hmove with
      | stop call hcall =>
        intro call' hcall'
        rcases List.mem_append.1 hcall' with hcall' | hcall'
        · exact hc call' hcall'
        · obtain rfl := List.mem_singleton.1 hcall'
          exact hcall
      | _ => exact hc
    · exact fun s e _ _ _ => DocumentBroker.allows_any e
  intro call hcall
  cases hj : call.isJudged with
  | true => exact (hjustified call (List.mem_filter.2 ⟨hcall, hj⟩)).checked
  | false =>
    have hother : call.caller = .other := by simpa [DocumentBroker.StopCall.isJudged] using hj
    exact ⟨fun hcaller => absurd (hother.symm.trans hcaller) (by decide),
      fun hcaller => absurd (hother.symm.trans hcaller) (by decide)⟩

/-! ### Runs -/

instance (s : DocumentBroker.BrokerState) : Decidable s.CanBeSaved :=
  decidable_of_iff (s.docState.isKitDisconnected = false ∧ s.isLoaded = true ∧
    (∃ c ∈ s.sessions.list, c.canWrite = true) ∧ (0 < s.config.limStoreFailures →
      s.saveManager.saveFailureCount < s.config.limStoreFailures ∧
        s.storageManager.uploadFailureCount < s.config.limStoreFailures))
    ⟨fun ⟨h₁, h₂, h₃, h₄⟩ => ⟨h₁, h₂, h₃, h₄⟩, fun h => ⟨h.1, h.2, h.3, h.4⟩⟩

instance (call : StopCall) : Decidable call.Abandons := by
  unfold StopCall.Abandons
  infer_instance

/-- The modified flag stays set, and after two seconds `autoSaveAndStop` stops.  And a second save is requested while
the first version is uploaded, and the last session disconnects. -/
theorem abandons_work :
    (∃ s, Run.Reachable Initial step Run.Any s ∧ ∃ call ∈ s.broker.stopCalls, call.caller = .autoSaveAndStop ∧
      call.Abandons) ∧
    ∃ s, Run.Reachable Initial step Run.Any s ∧ ∃ call ∈ s.broker.stopCalls,
      call.caller = .handleUploadToStorageSuccessful ∧ call.Abandons := by
  constructor
  · obtain ⟨s, hr, hs⟩ : ∃ s, Run.Reachable Initial step Run.Any s ∧
        (s.broker.stopCalls.any fun call => decide (call.caller = .autoSaveAndStop ∧ call.Abandons)) = true :=
      Run.Reachable.exists_of_run (initial download)
        (editAndSave ++ [.uploadFinished 0 ⟨200, "", "", none⟩, .elapse 3000000000, .closeDocument "closed", .poll])
        ⟨download, rfl⟩ (by decide)
    obtain ⟨call, hcall, h⟩ := List.any_eq_true.1 hs
    obtain ⟨hcaller, habandons⟩ := of_decide_eq_true h
    exact ⟨s, hr, call, hcall, hcaller, habandons⟩
  · obtain ⟨s, hr, hs⟩ : ∃ s, Run.Reachable Initial step Run.Any s ∧
        (s.broker.stopCalls.any fun call =>
          decide (call.caller = .handleUploadToStorageSuccessful ∧ call.Abandons)) = true :=
      Run.Reachable.exists_of_run (initial download)
        (editAndSave ++ [.setModified false, .modifyingActivity 1, .save 1 false false "" "r2", .onDisconnect 1,
          .uploadFinished 0 ⟨200, "", "", none⟩])
        ⟨download, rfl⟩ (by decide)
    obtain ⟨call, hcall, h⟩ := List.any_eq_true.1 hs
    obtain ⟨hcaller, habandons⟩ := of_decide_eq_true h
    exact ⟨s, hr, call, hcall, hcaller, habandons⟩

/-- A saved and uploaded document is stopped when it is idle. -/
theorem stopCalls_checked_of_idle :
    ∃ s, Run.Reachable Initial step Run.Any s ∧ ∃ call ∈ s.broker.stopCalls, call.caller = .autoSaveAndStop ∧
      call.state.CanBeSaved ∧ call.Checked := by
  obtain ⟨s, hr, hs⟩ : ∃ s, Run.Reachable Initial step Run.Any s ∧
      (s.broker.stopCalls.any fun call => decide (call.caller = .autoSaveAndStop ∧ call.state.CanBeSaved)) = true :=
    Run.Reachable.exists_of_run (initial download)
      (editAndSave ++ [.uploadFinished 0 ⟨200, "", "", none⟩, .setModified false, .elapse 3600000000000, .poll])
      ⟨download, rfl⟩ (by decide)
  obtain ⟨call, hcall, h⟩ := List.any_eq_true.1 hs
  obtain ⟨hcaller, hsaved⟩ := of_decide_eq_true h
  exact ⟨s, hr, call, hcall, hcaller, hsaved, stopCalls_checked hr call hcall⟩

end Lifetime

end CollaboraOnline
