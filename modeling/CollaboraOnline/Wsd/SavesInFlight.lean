import CollaboraOnline.Wsd.DocumentSteps

/-!
# One save at a time

`manualSave` and `autoSave` refuse a save in the activity `Save`.  A save that was requested in another activity, or
whose activity was ended by an upload, is in flight without it.  `isSaving` tells whether one is in flight, where no
save is asked for while it does, and every answer finds the session that asked.
-/

namespace CollaboraOnline

namespace Storing

open DocumentBroker (SaveCommand SaveResponse)

variable {c c' : Storing}

/-- A save is requested when none is in flight, and every answer is taken. -/
def Guard.oneSave : Guard :=
  { Guard.any with
    save := fun c => c.saves = [] ∧ c.saving.lastResponseTime < c.now
    drop := fun _ => False
    giveUp := fun _ => False }

/-- At most one save is in flight, and then it is the active request. -/
structure OneSave (c : Storing) : Prop where
  atMostOne : c.saves.length ≤ 1
  active : c.saving.isActive = true ↔ c.saves ≠ []
  requested : c.saving.lastRequestTime ≤ c.now
  answered : c.saving.lastResponseTime ≤ c.now

theorem OneSave.requestSave (h : c.OneSave) (hfree : c.saves = [] ∧ c.saving.lastResponseTime < c.now)
    (next : Attributes) (save : Option SaveCommand) : (c.requestSave next save).OneSave := by
  cases save with
  | none =>
    refine ⟨?_, ?_, h.requested, h.answered⟩
    · simpa [Storing.requestSave] using h.atMostOne
    · simpa [Storing.requestSave] using h.active
  | some save =>
    refine ⟨?_, ?_, Nat.le_refl _, h.answered⟩
    · simp [Storing.requestSave, hfree.1]
    · simp [Storing.requestSave, RequestManager.isActive, RequestManager.markLastRequestTime, hfree.2]

theorem OneSave.takeSave (h : c.OneSave) {index : Nat} {save : SaveCommand} (hsave : c.saves[index]? = some save)
    (response : SaveResponse) :
    (((c.dropSave index).noteSaved save.requestId).takeSave response).OneSave := by
  have hlt : index < c.saves.length := (List.getElem?_eq_some_iff.1 hsave).1
  have hone := h.atMostOne
  have hnone : c.saves.eraseIdx index = [] := by
    rw [← List.length_eq_zero_iff, List.length_eraseIdx_of_lt hlt]
    omega
  have hrequested := h.requested
  refine ⟨?_, ?_, h.requested, Nat.le_refl _⟩
  · change (c.saves.eraseIdx index).length ≤ 1
    simp [hnone]
  · change decide (c.now < c.saving.lastRequestTime) = true ↔ c.saves.eraseIdx index ≠ []
    rw [hnone, decide_eq_true_eq]
    exact ⟨fun hlate => absurd hlate (by omega), fun hne => absurd rfl hne⟩

theorem OneSave.move (h : c.OneSave) (hmove : Move .oneSave c c') : c'.OneSave := by
  cases hmove with
  | requestSave userModified isAutosave save hfree => exact h.requestSave hfree _ save
  | clientSave userModified isAutosave extendedData save hfree =>
    have hsame := h.requestSave hfree (c.nextStorageAttrs.ofSave userModified isAutosave extendedData save.requestId)
      (some save)
    exact ⟨hsame.atMostOne, hsame.active, hsame.requested, hsame.answered⟩
  | clientSaveNotSent userModified isAutosave extendedData id hfree =>
    have hsame := h.requestSave hfree (c.nextStorageAttrs.ofSave userModified isAutosave extendedData "") none
    exact ⟨hsame.atMostOne, hsame.active, hsame.requested, hsame.answered⟩
  | giveUpSave hgive => exact hgive.elim
  | dropSave index hdrop => exact hdrop.elim
  | takeSave index save response hsave => exact h.takeSave hsave response
  | elapse nanoseconds =>
    exact ⟨h.atMostOne, h.active, Nat.le_add_right_of_le h.requested, Nat.le_add_right_of_le h.answered⟩
  | _ => exact ⟨h.atMostOne, h.active, h.requested, h.answered⟩

end Storing

namespace DocumentBroker

open Storing (OneSave)

/-- An event asks for a save; those that test `isSaving` on their own are left out. -/
def asksForSave (b : DocumentBroker) : Event → Bool
  | .save sid _ _ _ _ => b.docState.activity ≠ .Save && (b.sessions.find sid).any ClientSession.isWritable
  | .adminAutoSave => b.autoSaves true
  | .renamefile _ newFilename => newFilename ≠ "" && b.docState.activity = .None
  | .switchMode _ mode => mode = "offline" && b.sessions.list.length ≤ 1 && b.docState.activity = .None
  | .poll => b.docState.activity = .None && b.pollSaves
  | _ => false

/-- The answer to a save comes for a session that is gone. -/
def losesAnswer (b : DocumentBroker) : Event → Bool
  | .saveResponse index _ => b.dropsResponse index
  | _ => false

end DocumentBroker

namespace Lifetime

open DocumentBroker (Event AutoSaved)
open Storing (OneSave)

variable {s : Lifetime} {e : Event}

/-- The kit is connected, and no save has timed out. -/
structure KitConnected (s : Lifetime) (e : Event) : Prop where
  alive : s.broker.childProcess.alive = true
  connected : s.broker.docState.isKitDisconnected = false
  inTime : e = .poll → (clocked s.broker).saveManager.hasSavingTimedOut (clocked s.broker).now = false

/-- The condition on a step: no save is asked for while one is in flight, and every answer is taken. -/
structure AsksInTurn (s : Lifetime) (e : Event) : Prop extends KitConnected s e where
  asks : (clocked s.broker).asksForSave e = true → s.broker.saveManager.isSaving = false
  answers : (clocked s.broker).losesAnswer e = false

/-- At most one save command that was forwarded is unanswered, and the save manager is active exactly when there is
one. -/
structure OneSaveInFlight (s : Lifetime) : Prop where
  atMostOne : s.broker.childProcess.saves.length ≤ 1
  active : s.broker.saveManager.request.isActive = true ↔ s.broker.childProcess.saves ≠ []

theorem autoSaved_oneSave {c c' : Storing} (h : Relation.ReflTransGen AutoSaved c c') (hone : c.OneSave)
    (htime : c.saving.lastResponseTime < c.now) : c'.OneSave ∧ c'.saving.lastResponseTime < c'.now := by
  induction h with
  | refl => exact ⟨hone, htime⟩
  | @tail d _ _ hstep ih =>
    obtain ⟨hidle, userModified, isAutosave, save, -, rfl⟩ := hstep
    obtain ⟨hone, htime⟩ := ih
    have hfree : d.saves = [] := by
      by_contra hne
      rw [hone.active.2 hne] at hidle
      cases hidle
    refine ⟨hone.requestSave ⟨hfree, htime⟩ _ save, ?_⟩
    cases save <;> exact htime

theorem allows_oneSave (h : s.broker.storing.OneSave) (hok : s.AsksInTurn e) :
    (clocked s.broker).Allows .oneSave e := by
  have htime : (clocked s.broker).storing.saving.lastResponseTime < (clocked s.broker).storing.now :=
    Nat.lt_succ_of_le h.answered
  have hone : (clocked s.broker).storing.OneSave :=
    ⟨h.atMostOne, h.active, Nat.le_succ_of_le h.requested, Nat.le_succ_of_le h.answered⟩
  have hfree (hidle : s.broker.saveManager.isSaving = false) : s.broker.childProcess.saves = [] := by
    by_contra hne
    have hactive : s.broker.saveManager.isSaving = true := h.active.2 hne
    rw [hactive] at hidle
    cases hidle
  have hasks := hok.asks
  cases e with
  | addSession => exact fun _ _ _ => True.intro
  | loaded => exact fun _ _ _ => ⟨True.intro, True.intro, True.intro⟩
  | save sid =>
    refine ⟨fun session hsession hwritable hact => ⟨hfree (hasks ?_), htime⟩, .inr (.inl True.intro)⟩
    simp [DocumentBroker.asksForSave, hact, hsession, hwritable]
  | adminAutoSave => exact fun hsaves => ⟨hfree (hasks hsaves), htime⟩
  | renamefile sid newFilename =>
    exact fun hname hact => ⟨hfree (hasks (by simp [DocumentBroker.asksForSave, hname, hact])), htime⟩
  | switchMode sid mode =>
    intro hmode hviews hact
    refine ⟨hfree (hasks ?_), htime⟩
    simp [DocumentBroker.asksForSave, hmode, hviews, hact]
  | onDisconnect sid =>
    intro session _ hsaves _
    simp only [DocumentBroker.savesOnRemove, Bool.and_eq_true, Bool.not_eq_true'] at hsaves
    exact ⟨hfree hsaves.2, htime⟩
  | saveResponse index response =>
    refine ⟨fun _ _ _ _ => ⟨True.intro, .inr (.inr True.intro), fun _ => True.intro, fun _ => True.intro⟩,
      fun hdrop => ?_⟩
    have hlost : (clocked s.broker).dropsResponse index = false := hok.answers
    rw [hlost] at hdrop
    cases hdrop
  | uploadFinished => exact fun _ _ _ _ _ => ⟨True.intro, .inr (.inr True.intro), fun _ _ _ _ => True.intro⟩
  | poll =>
    refine ⟨fun hact => ⟨fun hsaves => ⟨hfree (hasks ?_), htime⟩, fun _ _ => True.intro,
      fun _ => .inr (.inl True.intro)⟩, fun hgive => ?_⟩
    · simp [DocumentBroker.asksForSave, hact, hsaves]
    · have hconnected : (clocked s.broker).docState.isKitDisconnected = false := hok.connected
      rw [DocumentBroker.givesUpSave, hconnected, hok.inTime rfl] at hgive
      cases hgive
  | checkFileInfoFinished => exact fun _ _ _ => True.intro
  | finish =>
    intro c hc hidle
    obtain ⟨hone, htime⟩ := autoSaved_oneSave hc hone htime
    refine ⟨?_, htime⟩
    by_contra hne
    rw [hone.active.2 hne] at hidle
    cases hidle
  | savetostorage => exact fun _ => True.intro
  | saveas => exact True.intro
  | kitSaved => exact True.intro
  | _ => exact True.intro

theorem oneSave_initial (d : Download) : (initial d).broker.storing.OneSave :=
  ⟨Nat.zero_le _, by simp [initial, DocumentBroker.storing, RequestManager.isActive], Nat.zero_le _, Nat.zero_le _⟩

/-- In every run with a connected kit, at most one save is in flight, if none is asked for while one is, and every
answer is taken. -/
theorem oneSaveInFlight_of_asksInTurn (h : Run.Reachable Initial step AsksInTurn s) : s.OneSaveInFlight :=
  have hone := storing_invariant .oneSave OneSave oneSave_initial (fun _ _ hc hmove => hc.move hmove)
    (fun _ _ _ hc hok => allows_oneSave hc hok) h
  ⟨hone.atMostOne, hone.active⟩

/-! ### Runs -/

instance (s : Lifetime) (e : Event) : Decidable (s.KitConnected e) :=
  decidable_of_iff (s.broker.childProcess.alive = true ∧ s.broker.docState.isKitDisconnected = false ∧
      (e = .poll → (clocked s.broker).saveManager.hasSavingTimedOut (clocked s.broker).now = false))
    ⟨fun ⟨h₁, h₂, h₃⟩ => ⟨h₁, h₂, h₃⟩, fun h => ⟨h.1, h.2, h.3⟩⟩

instance (s : Lifetime) (e : Event) : Decidable (s.AsksInTurn e) :=
  decidable_of_iff (s.KitConnected e ∧
      ((clocked s.broker).asksForSave e = true → s.broker.saveManager.isSaving = false) ∧
      (clocked s.broker).losesAnswer e = false)
    ⟨fun ⟨h₁, h₂, h₃⟩ => ⟨h₁, h₂, h₃⟩, fun h => ⟨h.1, h.2, h.3⟩⟩

/-- A client saves while the save of a rename is in flight. -/
theorem not_oneSaveInFlight : ¬ ∀ s, Run.Reachable Initial step KitConnected s → s.OneSaveInFlight := by
  obtain ⟨s, hr, hs⟩ : ∃ s, Run.Reachable Initial (Run.guarded step fun s e => decide (s.KitConnected e)) Run.Any s ∧
      decide (1 < s.broker.childProcess.saves.length) = true :=
    Run.Reachable.exists_of_run (initial download)
      [firstJoin, .loaded 1 true none, .renamefile 1 "b.odt", .save 1 false false "" "r1"]
      ⟨download, rfl⟩ (by decide)
  have hr := hr.of_guarded fun s e => of_decide_eq_true
  intro h
  have hone := (h s hr).atMostOne
  have htwo := of_decide_eq_true hs
  omega

/-- Two saves, the second one after the first was answered. -/
theorem oneSaveInFlight_of_two_saves :
    ∃ s, Run.Reachable Initial step AsksInTurn s ∧ s.broker.saveRequestIds = ["r2", "r1"] ∧ s.OneSaveInFlight := by
  obtain ⟨s, hr, hs⟩ : ∃ s, Run.Reachable Initial (Run.guarded step fun s e => decide (s.AsksInTurn e)) Run.Any s ∧
      (s.broker.saveRequestIds == ["r2", "r1"]) = true :=
    Run.Reachable.exists_of_run (initial download) (editAndSave ++ [.save 1 false false "" "r2"])
      ⟨download, rfl⟩ (by decide)
  have hr := hr.of_guarded fun s e => of_decide_eq_true
  exact ⟨s, hr, beq_iff_eq.1 hs, oneSaveInFlight_of_asksInTurn hr⟩

end Lifetime

end CollaboraOnline
