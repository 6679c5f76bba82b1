import CollaboraOnline.Wsd.ActivitySteps

/-!
# Activities and the blocked user interface

No activity is started while another one is current.  A rename or a switch to offline has a save or an upload in
flight, and the user interface is blocked for an activity only, as long as every answer lets the activity go on or
ends it.  The switch to online has no end, and the switch to offline leaves the user interface blocked when it is
done, as the client reloads then.
-/

namespace CollaboraOnline

namespace Lifetime

open DocumentBroker (Event Attends calm_quarantineLastVersion)

variable {s s' : Lifetime} {e : Event}

/-- The condition on a step: the document is loaded when a switch to offline is asked for; the answer to a save or an
upload lets a rename or a switch go on, or ends it; `CheckFileInfo` answers in none of these activities. -/
def GoesOn (s : Lifetime) (e : Event) : Prop := (clocked s.broker).goesOn e = true

/-- A rename or a switch to offline has a save or an upload in flight, while there is a kit, and the user interface is
blocked for one of these or the switch to online, or because the document is done with. -/
structure ActivitiesGoOn (s : Lifetime) : Prop where
  driven : s.broker.docState.activity = .Rename ∨ s.broker.docState.activity = .SwitchingToOffline →
    s.broker.childProcess.alive = true → s.broker.childProcess.saves ≠ [] ∨ s.broker.isDrivingUpload = true
  blocked : s.broker.uiBlocked = true →
    s.broker.docState.activity ∈ [.Rename, .SwitchingToOffline, .SwitchingToOnline] ∨
      s.broker.docState.isMarkedToDestroy = true

theorem step_attends (h : step s e = some s') : Attends (s.GoesOn e) s.broker s'.broker := by
  obtain ⟨b, hb, hs'⟩ := step_cases h
  have hclock : DocumentBroker.Calm s.broker (clocked s.broker) := .of_watched rfl rfl
  have hhandle := DocumentBroker.handle_attends hb
  have hend : DocumentBroker.Calm b s'.broker := by
    rcases hs' with hs' | hs'
    · rw [hs']
      exact .refl
    · rw [hs']
      exact calm_quarantineLastVersion
  refine ⟨hend.refused.trans (hhandle.refused.trans hclock.refused), fun hok ht hd => ?_⟩
  obtain ⟨ht, hd⟩ := hhandle.keeps hok (hclock.tidy ht) (hclock.driven hd)
  exact ⟨hend.tidy ht, hend.driven hd⟩

/-- A changed document is saved for its renaming, uploaded, and uploaded again under its new name. -/
def saveAndRename : List Event :=
  [firstJoin, .loaded 1 true none, .modifyingActivity 1, .setModified true, .renamefile 1 "b.odt", .kitSaved 120,
    .saveResponse 0 ⟨true, "", none⟩, .uploadFinished 0 ⟨200, "", "", none⟩]

end Lifetime

end CollaboraOnline
