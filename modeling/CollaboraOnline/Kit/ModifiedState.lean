import Mathlib.Tactic
import CollaboraOnline.Lib.Run
import CollaboraOnline.Lib.Table

/-!
# The modified state of a kit document

While a background save runs the document counts as unmodified, so that real changes are noticed: the state of the
kit, the flag of Core, the notifications that Core has queued and not yet delivered, and the saves that run.  Edits
are numbered from 0; a save contains the edits made before it was forked, and what the saves that succeeded contain is
recorded, as is how often the flag was cleared by force.  Core runs the posted `.uno:Modified` command at once.
-/

namespace CollaboraOnline

inductive ModifiedState where
  | Modified
  | UnModifiedButSaving
  | UnModified
deriving DecidableEq, Repr

/-- A queued `.uno:ModifiedStatus` notification, and how often the flag had been cleared by force before. -/
structure ModifiedStatus where
  modified : Bool
  clears : Nat
deriving DecidableEq, Repr

/-- A save process and its `BgSaveParentWebSocketHandler`.  It contains the edits before `covers`. -/
structure BgSave where
  childPid : Nat
  covers : Nat
  saveCompleted : Bool
deriving DecidableEq, Repr

structure KitDocument where
  modified : ModifiedState
  isBgSaveDisabled : Bool
  coreModified : Bool
  views : Nat
  queue : List ModifiedStatus
  saves : Table BgSave.childPid
  nextPid : Nat
  edits : Nat
  saved : List Nat
  clears : Nat
  clearedAt : Nat
  statusSent : List Bool
deriving DecidableEq

/-- What a save process tells its parent. -/
inductive BgSaveMessage where
  | error
  | jsdialog (jsontype : String)
  | progress
  | traceevent
  | unocommandresult (commandName success : String)
  | other
deriving DecidableEq, Repr

namespace KitDocument

def initial (views : Nat) : KitDocument :=
  ⟨.UnModified, false, false, views, [], Table.empty, 0, 0, [], 0, 0, []⟩

/-! ### Core -/

/-- Core sets its flag, and queues one notification for each view when it changes. -/
def setCoreModified (d : KitDocument) (modified : Bool) : KitDocument :=
  if d.coreModified = modified then d
  else { d with coreModified := modified, queue := d.queue ++ List.replicate d.views ⟨modified, d.clears⟩ }

def edit (d : KitDocument) : KitDocument := { d with edits := d.edits + 1 }.setCoreModified true

/-- A synchronous save that succeeds. -/
def saveSync (d : KitDocument) : KitDocument := { d with saved := d.edits :: d.saved }.setCoreModified false

/-! ### The modified state -/

def postForceModifiedCommand (d : KitDocument) (modified : Bool) : KitDocument := d.setCoreModified modified

def forceDocUnmodifiedForBgSave (d : KitDocument) : KitDocument :=
  if d.modified = .Modified then
    { d with modified := .UnModifiedButSaving, clears := d.clears + 1, clearedAt := d.edits }.postForceModifiedCommand
      false
  else d

def updateModifiedOnFailedBgSave (d : KitDocument) : KitDocument :=
  if d.modified = .UnModifiedButSaving then { d with modified := .Modified }.postForceModifiedCommand true else d

def notifySyntheticUnmodifiedState (d : KitDocument) : KitDocument :=
  if d.modified = .UnModifiedButSaving then
    { d with modified := .UnModified, statusSent := d.statusSent ++ [false] }
  else d

/-- The new state, and whether the notification is filtered. -/
def trackDocModifiedState : ModifiedState → Bool → ModifiedState × Bool
  | .Modified, modified => (if !modified then .UnModified else .Modified, false)
  | .UnModifiedButSaving, modified => if modified then (.Modified, false) else (.UnModifiedButSaving, true)
  | .UnModified, modified => (if modified then .Modified else .UnModified, false)

/-- The delivery of the first queued notification to its view. -/
def stateChanged (d : KitDocument) (status : ModifiedStatus) (rest : List ModifiedStatus) : KitDocument :=
  let (newState, filter) := trackDocModifiedState d.modified status.modified
  let d := { d with queue := rest, modified := newState }
  if filter then d else { d with statusSent := d.statusSent ++ [status.modified] }

/-! ### Background saves -/

def disableBgSave (d : KitDocument) : KitDocument := { d with isBgSaveDisabled := true }

/-- The parent side of `forkToSave`, `none` where it refuses. -/
def forkToSave (d : KitDocument) : Option KitDocument :=
  if d.isBgSaveDisabled then none
  else
    let d := d.forceDocUnmodifiedForBgSave
    some { d with saves := d.saves.put ⟨d.nextPid, d.edits, false⟩, nextPid := d.nextPid + 1 }

def setSaveCompleted (d : KitDocument) (save : BgSave) : KitDocument :=
  { d with saves := d.saves.put { save with saveCompleted := true } }

def reportFailedSave (d : KitDocument) (save : BgSave) : KitDocument :=
  (d.disableBgSave.updateModifiedOnFailedBgSave).setSaveCompleted save

def terminateSave (d : KitDocument) (save : BgSave) : KitDocument := d.reportFailedSave save

/-- A save that reports success is one that succeeded. -/
def saveSucceeded (d : KitDocument) (save : BgSave) : KitDocument := { d with saved := save.covers :: d.saved }

def handleMessage (d : KitDocument) (save : BgSave) : BgSaveMessage → KitDocument
  | .other => d
  | .progress => d
  | .traceevent => d
  | .error => d.disableBgSave
  | .jsdialog jsontype =>
    if jsontype == "notebookbar" || jsontype == "sidebar" || jsontype == "formulabar" then d else d.terminateSave save
  | .unocommandresult commandName success =>
    if commandName == ".uno:Save" then
      if success == "true" then ((d.saveSucceeded save).notifySyntheticUnmodifiedState).setSaveCompleted save
      else (d.updateModifiedOnFailedBgSave.disableBgSave).setSaveCompleted save
    else d

/-- The process has ended, by a signal or not. -/
def onDisconnect (d : KitDocument) (save : BgSave) (sig : Bool) : KitDocument :=
  let reported := sig || !save.saveCompleted
  let d := if reported then d.reportFailedSave save else d
  { d with saves := d.saves.erase save.childPid }

/-! ### Steps -/

inductive Event where
  | edit
  | saveSync
  | forkToSave
  | deliver
  | message (childPid : Nat) (message : BgSaveMessage)
  | disconnect (childPid : Nat) (sig : Bool)
  | setViews (views : Nat)
deriving DecidableEq

def step (d : KitDocument) : Event → Option KitDocument
  | .edit => some d.edit
  | .saveSync => some d.saveSync
  | .forkToSave => d.forkToSave
  | .deliver =>
    match d.queue with
    | [] => none
    | status :: rest => some (d.stateChanged status rest)
  | .message childPid message => (d.saves.find childPid).map fun save => d.handleMessage save message
  | .disconnect childPid sig => (d.saves.find childPid).map fun save => d.onDisconnect save sig
  | .setViews views => if 0 < views then some { d with views := views } else none

/-- A document with at least one view, before the first edit. -/
def IsInitial (d : KitDocument) : Prop := ∃ views, 0 < views ∧ d = initial views

/-! ### What the state says -/

/-- Each of the first `n` edits is contained in a save that succeeded. -/
def Saved (d : KitDocument) (n : Nat) : Prop := ∀ i < n, ∃ covers ∈ d.saved, i < covers

/-- The save still runs. -/
def Running (d : KitDocument) (save : BgSave) : Prop := save ∈ d.saves.entries ∧ save.saveCompleted = false

/-- With all notifications delivered, an unmodified document is saved, and one that is unmodified but saving has a
save running that contains every edit not yet saved. -/
def NeverOptimistic (d : KitDocument) : Prop :=
  d.queue = [] →
    (d.modified = .UnModified → d.Saved d.edits) ∧
    (d.modified = .UnModifiedButSaving → ∃ save, d.Running save ∧
      ∀ i < d.edits, (∃ covers ∈ d.saved, i < covers) ∨ i < save.covers)

/-- While the state is unmodified but saving, what is taken for a change is one: a notification of a modified document
was queued after the flag was last cleared by force, or else everything is saved. -/
def DeliversInOrder (d : KitDocument) : Prop :=
  ∀ status rest, d.queue = status :: rest → d.modified = .UnModifiedButSaving → status.modified = true →
    status.clears = d.clears ∨ d.Saved d.edits

/-- While the state is unmodified but saving, a save that succeeds contains the edits made before the flag was last
cleared by force, or they are saved without it. -/
def SavesInOrder (d : KitDocument) (save : BgSave) : Prop :=
  d.modified = .UnModifiedButSaving → (d.saveSucceeded save).Saved d.clearedAt

/-- The condition on a step. -/
def InOrder (d : KitDocument) (e : Event) : Prop :=
  (e = .deliver → d.DeliversInOrder) ∧
    ∀ childPid save, e = .message childPid (.unocommandresult ".uno:Save" "true") →
      d.saves.find childPid = some save → d.SavesInOrder save

/-- The invariant of the runs that meet the condition. -/
structure Tracks (d : KitDocument) : Prop where
  views : 0 < d.views
  pids : ∀ save ∈ d.saves.entries, save.childPid < d.nextPid
  clears : ∀ status ∈ d.queue, status.clears ≤ d.clears
  clearedAt : d.clearedAt ≤ d.edits
  last : ∀ status, d.queue.getLast? = some status → status.modified = d.coreModified
  flagged : d.coreModified = true → d.queue = [] → d.modified = .Modified
  settled : d.modified = .UnModified → d.queue = [] → d.Saved d.edits
  settling : d.modified ≠ .UnModifiedButSaving → d.queue ≠ [] → d.coreModified = false → d.Saved d.edits
  saving : d.modified = .UnModifiedButSaving → d.Saved d.edits ∨ d.edits = d.clearedAt ∨ d.coreModified = true
  changed : d.modified = .UnModifiedButSaving →
    ∀ status ∈ d.queue, status.modified = true → status.clears = d.clears → d.clearedAt < d.edits
  running : d.modified = .UnModifiedButSaving → ∃ save, d.Running save ∧ save.covers = d.clearedAt

variable {d : KitDocument}

theorem Saved.mono {d' : KitDocument} {n : Nat} (h : d.Saved n) (hsub : d.saved ⊆ d'.saved) : d'.Saved n := by
  intro i hi
  obtain ⟨covers, hmem, hlt⟩ := h i hi
  exact ⟨covers, hsub hmem, hlt⟩

/-- The invariant says what is asked for once all notifications are delivered. -/
theorem Tracks.neverOptimistic (h : d.Tracks) : d.NeverOptimistic := by
  intro hqueue
  refine ⟨fun hm => h.settled hm hqueue, fun hm => ?_⟩
  obtain ⟨save, hrunning, hcovers⟩ := h.running hm
  refine ⟨save, hrunning, ?_⟩
  rcases h.saving hm with hsaved | hedits | hflag
  · exact fun i hi => .inl (hsaved i hi)
  · exact fun i hi => .inr (by omega)
  · have hmodified := h.flagged hflag hqueue
    rw [hm] at hmodified
    cases hmodified

/-! ### Core -/

/-- Core's flag changes and notifications are queued behind the others, or nothing happens. -/
theorem setCoreModified_cases (d : KitDocument) (modified : Bool) :
    (d.coreModified = modified ∧ d.setCoreModified modified = d) ∨
      (d.coreModified ≠ modified ∧ d.setCoreModified modified =
        { d with coreModified := modified, queue := d.queue ++ List.replicate d.views ⟨modified, d.clears⟩ }) := by
  unfold setCoreModified
  split
  · rename_i h
    exact .inl ⟨h, rfl⟩
  · rename_i h
    exact .inr ⟨h, rfl⟩

theorem mem_queue_notified {status : ModifiedStatus} {modified : Bool}
    (h : status ∈ d.queue ++ List.replicate d.views ⟨modified, d.clears⟩) :
    status ∈ d.queue ∨ status = ⟨modified, d.clears⟩ := by
  rcases List.mem_append.1 h with h | h
  · exact .inl h
  · exact .inr (List.mem_replicate.1 h).2

theorem notified_ne_nil (hviews : 0 < d.views) (modified : Bool) :
    d.queue ++ List.replicate d.views ⟨modified, d.clears⟩ ≠ [] := by
  obtain ⟨n, hn⟩ : ∃ n, d.views = n + 1 := ⟨d.views - 1, by omega⟩
  simp [hn, List.replicate_succ]

theorem modified_of_getLast?_notified (hviews : 0 < d.views) {modified : Bool} {status : ModifiedStatus}
    (h : (d.queue ++ List.replicate d.views (ModifiedStatus.mk modified d.clears)).getLast? = some status) :
    status.modified = modified := by
  obtain ⟨n, hn⟩ : ∃ n, d.views = n + 1 := ⟨d.views - 1, by omega⟩
  rw [hn, List.replicate_succ', ← List.append_assoc, List.getLast?_concat] at h
  rw [← Option.some.inj h]

/-- An edit sets the flag. -/
theorem Tracks.edit (h : d.Tracks) : d.edit.Tracks := by
  have hcleared := h.clearedAt
  unfold KitDocument.edit
  rcases setCoreModified_cases { d with edits := d.edits + 1 } true with ⟨hflag, heq⟩ | ⟨hflag, heq⟩
  · rw [heq]
    refine ⟨h.views, h.pids, h.clears, Nat.le_succ_of_le hcleared, h.last, h.flagged, ?_, ?_, ?_, ?_, h.running⟩
    · intro hm hqueue
      have hmodified := h.flagged hflag hqueue
      rw [show d.modified = .UnModified from hm] at hmodified
      cases hmodified
    · intro _ _ hfalse
      exact absurd (hflag.symm.trans hfalse) (by decide)
    · exact fun _ => .inr (.inr hflag)
    · intro _ _ _ _ _
      exact Nat.lt_succ_of_le hcleared
  · rw [heq]
    have hne := notified_ne_nil h.views true
    refine ⟨h.views, h.pids, ?_, Nat.le_succ_of_le hcleared, ?_, ?_, ?_, ?_, ?_, ?_, h.running⟩
    · intro status hs
      rcases mem_queue_notified hs with hs | rfl
      · exact h.clears status hs
      · exact le_rfl
    · exact fun _ hs => modified_of_getLast?_notified h.views hs
    · exact fun _ hqueue => absurd hqueue hne
    · exact fun _ hqueue => absurd hqueue hne
    · exact fun _ _ hfalse => absurd hfalse (by simp)
    · exact fun _ => .inr (.inr rfl)
    · intro _ _ _ _ _
      exact Nat.lt_succ_of_le hcleared

/-- A synchronous save contains all edits. -/
theorem Tracks.saveSync (h : d.Tracks) : d.saveSync.Tracks := by
  unfold KitDocument.saveSync
  have hsaved {d' : KitDocument} (hs : d'.saved = d.edits :: d.saved) : d'.Saved d.edits :=
    fun i hi => ⟨d.edits, by simp [hs], hi⟩
  rcases setCoreModified_cases { d with saved := d.edits :: d.saved } false with ⟨hflag, heq⟩ | ⟨hflag, heq⟩
  · rw [heq]
    exact ⟨h.views, h.pids, h.clears, h.clearedAt, h.last, h.flagged, fun _ _ => hsaved rfl,
      fun _ _ _ => hsaved rfl, fun _ => .inl (hsaved rfl), h.changed, h.running⟩
  · rw [heq]
    refine ⟨h.views, h.pids, ?_, h.clearedAt, ?_, ?_, fun _ _ => hsaved rfl, fun _ _ _ => hsaved rfl,
      fun _ => .inl (hsaved rfl), ?_, h.running⟩
    · intro status hs
      rcases mem_queue_notified hs with hs | rfl
      · exact h.clears status hs
      · exact le_rfl
    · exact fun _ hs => modified_of_getLast?_notified h.views hs
    · exact fun htrue => absurd htrue (by simp)
    · intro hm status hs hmodified hclears
      rcases mem_queue_notified hs with hs | rfl
      · exact h.changed hm status hs hmodified hclears
      · cases hmodified

/-! ### Notifications -/

theorem Tracks.stateChanged (h : d.Tracks) {status : ModifiedStatus} {rest : List ModifiedStatus}
    (hqueue : d.queue = status :: rest) (hok : d.DeliversInOrder) : (d.stateChanged status rest).Tracks := by
  have hne : d.queue ≠ [] := by simp [hqueue]
  have hlast : ∀ s, rest.getLast? = some s → s.modified = d.coreModified := by
    intro s hs
    refine h.last s ?_
    rw [hqueue, List.getLast?_cons, hs]
    rfl
  have hend (hrest : rest = []) : status.modified = d.coreModified := h.last status (by simp [hqueue, hrest])
  have hclears : ∀ s ∈ rest, s.clears ≤ d.clears := fun s hs => h.clears s (by simp [hqueue, hs])
  have hview : (d.stateChanged status rest).Tracks ↔
      ({ d with queue := rest, modified := (trackDocModifiedState d.modified status.modified).1 } :
        KitDocument).Tracks := by
    unfold KitDocument.stateChanged
    dsimp only
    split
    · exact Iff.rfl
    · exact ⟨fun h => ⟨h.1, h.2, h.3, h.4, h.5, h.6, h.7, h.8, h.9, h.10, h.11⟩,
        fun h => ⟨h.1, h.2, h.3, h.4, h.5, h.6, h.7, h.8, h.9, h.10, h.11⟩⟩
  rw [hview]
  by_cases hm : d.modified = .UnModifiedButSaving
  · cases hv : status.modified with
    | false =>
      -- our own cleared flag, which is ignored
      rw [hm]
      refine ⟨h.views, h.pids, hclears, h.clearedAt, hlast, ?_, ?_, ?_, fun _ => h.saving hm, ?_,
        fun _ => h.running hm⟩
      · intro hflag hrest
        have heq := hend hrest
        rw [hv, show d.coreModified = true from hflag] at heq
        cases heq
      · exact fun hm' => absurd hm' (by simp [trackDocModifiedState])
      · exact fun hm' => absurd rfl hm'
      · exact fun _ s hs => h.changed hm s (by simp [hqueue, show s ∈ rest from hs])
    | true =>
      rw [hm]
      refine ⟨h.views, h.pids, hclears, h.clearedAt, hlast, fun _ _ => rfl, ?_, ?_, ?_, ?_, ?_⟩
      · exact fun hm' => absurd hm' (by simp [trackDocModifiedState])
      · -- the change was made after the flag was cleared by force
        intro _ _ hflag
        rcases hok status rest hqueue hm hv with hfresh | hsaved
        · have hlt := h.changed hm status (by simp [hqueue]) hv hfresh
          rcases h.saving hm with hsaved | hedits | hflag'
          · exact hsaved
          · omega
          · exact absurd (hflag'.symm.trans hflag) (by decide)
        · exact hsaved
      · exact fun hm' => absurd hm' (by simp [trackDocModifiedState])
      · exact fun hm' => absurd hm' (by simp [trackDocModifiedState])
      · exact fun hm' => absurd hm' (by simp [trackDocModifiedState])
  · have htrack : (trackDocModifiedState d.modified status.modified).1 =
        if status.modified then .Modified else .UnModified := by
      cases hd : d.modified with
      | Modified => cases status.modified <;> rfl
      | UnModifiedButSaving => exact absurd hd hm
      | UnModified => cases status.modified <;> rfl
    rw [htrack]
    have hnot : (if status.modified then ModifiedState.Modified else .UnModified) ≠ .UnModifiedButSaving := by
      cases status.modified <;> decide
    refine ⟨h.views, h.pids, hclears, h.clearedAt, hlast, ?_, ?_, ?_, ?_, ?_, ?_⟩
    · intro hflag hrest
      rw [hend hrest, show d.coreModified = true from hflag]
      rfl
    · intro hmod hrest
      refine h.settling hm hne ?_
      rw [← hend hrest]
      cases hv : status.modified with
      | false => rfl
      | true => simp [hv] at hmod
    · exact fun _ _ hflag => h.settling hm hne hflag
    · exact fun hm' => absurd hm' hnot
    · exact fun hm' => absurd hm' hnot
    · exact fun hm' => absurd hm' hnot

/-! ### Background saves -/

theorem not_saving_updateModifiedOnFailedBgSave :
    d.updateModifiedOnFailedBgSave.modified ≠ .UnModifiedButSaving := by
  unfold updateModifiedOnFailedBgSave postForceModifiedCommand
  split
  · rcases setCoreModified_cases { d with modified := .Modified } true with ⟨-, heq⟩ | ⟨-, heq⟩ <;> simp [heq]
  · assumption

/-- After a failed save the document is modified again, and Core is told. -/
theorem Tracks.updateModifiedOnFailedBgSave (h : d.Tracks) : d.updateModifiedOnFailedBgSave.Tracks := by
  unfold KitDocument.updateModifiedOnFailedBgSave postForceModifiedCommand
  split
  · rcases setCoreModified_cases { d with modified := .Modified } true with ⟨hflag, heq⟩ | ⟨hflag, heq⟩
    · rw [heq]
      refine ⟨h.views, h.pids, h.clears, h.clearedAt, h.last, fun _ _ => rfl, ?_, ?_, ?_, ?_, ?_⟩
      · exact fun hm => absurd hm (by simp)
      · exact fun _ _ hfalse => absurd (hflag.symm.trans hfalse) (by decide)
      all_goals exact fun hm => absurd hm (by simp)
    · rw [heq]
      refine ⟨h.views, h.pids, ?_, h.clearedAt, ?_, fun _ _ => rfl, ?_, ?_, ?_, ?_, ?_⟩
      · intro status hs
        rcases mem_queue_notified hs with hs | rfl
        · exact h.clears status hs
        · exact le_rfl
      · exact fun _ hs => modified_of_getLast?_notified h.views hs
      · exact fun hm => absurd hm (by simp)
      · exact fun _ _ hfalse => absurd hfalse (by simp)
      all_goals exact fun hm => absurd hm (by simp)
  · exact h

theorem Tracks.disableBgSave (h : d.Tracks) : d.disableBgSave.Tracks :=
  ⟨h.1, h.2, h.3, h.4, h.5, h.6, h.7, h.8, h.9, h.10, h.11⟩

/-- The process table changes while no save is waited for. -/
theorem Tracks.setSaves (h : d.Tracks) (hm : d.modified ≠ .UnModifiedButSaving) (saves : Table BgSave.childPid)
    (hpids : ∀ save ∈ saves.entries, save.childPid < d.nextPid) : ({ d with saves := saves } : KitDocument).Tracks :=
  ⟨h.views, hpids, h.clears, h.clearedAt, h.last, h.flagged, h.settled, h.settling, fun hm' => absurd hm' hm,
    fun hm' => absurd hm' hm, fun hm' => absurd hm' hm⟩

theorem mem_put {saves : Table BgSave.childPid} {save save' : BgSave} (h : save' ∈ (saves.put save).entries) :
    save' = save ∨ save' ∈ saves.entries := by
  rcases List.mem_cons.1 h with h | h
  · exact .inl h
  · exact .inr (List.mem_filter.1 h).1

theorem Tracks.setSaveCompleted (h : d.Tracks) (hm : d.modified ≠ .UnModifiedButSaving) {save : BgSave}
    (hpid : save.childPid < d.nextPid) : (d.setSaveCompleted save).Tracks := by
  refine h.setSaves hm _ ?_
  intro save' hs
  rcases mem_put hs with rfl | hs
  · exact hpid
  · exact h.pids save' hs

@[simp] theorem nextPid_updateModifiedOnFailedBgSave : d.updateModifiedOnFailedBgSave.nextPid = d.nextPid := by
  unfold updateModifiedOnFailedBgSave postForceModifiedCommand
  split
  · rcases setCoreModified_cases { d with modified := .Modified } true with ⟨-, heq⟩ | ⟨-, heq⟩ <;> simp [heq]
  · rfl

theorem Tracks.reportFailedSave (h : d.Tracks) {save : BgSave} (hpid : save.childPid < d.nextPid) :
    (d.reportFailedSave save).Tracks :=
  h.disableBgSave.updateModifiedOnFailedBgSave.setSaveCompleted not_saving_updateModifiedOnFailedBgSave
    (by simpa [KitDocument.disableBgSave] using hpid)

/-- A save that succeeds after the flag was cleared contains what was cleared. -/
theorem Tracks.saveSucceeded (h : d.Tracks) {save : BgSave} (hpid : save.childPid < d.nextPid)
    (hok : d.SavesInOrder save) :
    (((d.saveSucceeded save).notifySyntheticUnmodifiedState).setSaveCompleted save).Tracks := by
  have hmono {n : Nat} (hs : d.Saved n) : (d.saveSucceeded save).Saved n := hs.mono (List.subset_cons_self _ _)
  by_cases hm : d.modified = .UnModifiedButSaving
  · have heq : (d.saveSucceeded save).notifySyntheticUnmodifiedState =
        { d.saveSucceeded save with modified := .UnModified, statusSent := d.statusSent ++ [false] } := by
      unfold notifySyntheticUnmodifiedState
      exact if_pos hm
    -- where there is no later change everything is saved now
    have hsaved (hflag : d.coreModified = false) : (d.saveSucceeded save).Saved d.edits := by
      rcases h.saving hm with hs | hedits | hflag'
      · exact hmono hs
      · rw [hedits]
        exact hok hm
      · exact absurd (hflag'.symm.trans hflag) (by decide)
    have hempty (hflag : d.coreModified = true) : d.queue ≠ [] := by
      intro hqueue
      have hmodified := h.flagged hflag hqueue
      rw [hm] at hmodified
      cases hmodified
    rw [heq]
    set d₁ : KitDocument :=
      { d.saveSucceeded save with modified := .UnModified, statusSent := d.statusSent ++ [false] } with hd₁
    have hm₁ : d₁.modified ≠ .UnModifiedButSaving := by simp [hd₁]
    refine Tracks.setSaveCompleted (d := d₁) ⟨h.views, h.pids, h.clears, h.clearedAt, h.last, ?_, ?_, ?_, ?_, ?_, ?_⟩
      hm₁ hpid
    · exact fun hflag hqueue => absurd hqueue (hempty hflag)
    · intro _ hqueue
      cases hflag : d.coreModified with
      | false => exact hsaved hflag
      | true => exact absurd hqueue (hempty hflag)
    · exact fun _ _ hflag => hsaved hflag
    all_goals exact fun hm => absurd hm hm₁
  · have heq : (d.saveSucceeded save).notifySyntheticUnmodifiedState = d.saveSucceeded save := by
      unfold notifySyntheticUnmodifiedState
      exact if_neg hm
    rw [heq]
    refine Tracks.setSaveCompleted (d := d.saveSucceeded save)
      ⟨h.views, h.pids, h.clears, h.clearedAt, h.last, h.flagged,
      fun hm' hqueue => hmono (h.settled hm' hqueue), fun hm' hqueue hflag => hmono (h.settling hm' hqueue hflag),
      ?_, ?_, ?_⟩ hm hpid
    all_goals exact fun hm' => absurd hm' hm

/-- A fork clears the flag by force where the document is modified, and the new save contains what was cleared. -/
theorem Tracks.forkToSave (h : d.Tracks) {d' : KitDocument} (hfork : d.forkToSave = some d') : d'.Tracks := by
  unfold KitDocument.forkToSave at hfork
  split at hfork
  · cases hfork
  · obtain rfl := Option.some.inj hfork
    have hfresh {saves : Table BgSave.childPid} {n : Nat} {covers : Nat}
        (hp : ∀ save ∈ saves.entries, save.childPid < n) :
        ∀ save ∈ (saves.put ⟨n, covers, false⟩).entries, save.childPid < n + 1 := by
      intro save hs
      rcases mem_put hs with rfl | hs
      · exact Nat.lt_succ_self n
      · exact Nat.lt_succ_of_lt (hp save hs)
    unfold forceDocUnmodifiedForBgSave
    split
    · rename_i hm
      unfold postForceModifiedCommand
      set d₁ : KitDocument :=
        { d with modified := .UnModifiedButSaving, clears := d.clears + 1, clearedAt := d.edits } with hd₁
      have hnew (saves : Table BgSave.childPid) : (⟨d.nextPid, d.edits, false⟩ : BgSave) ∈
          (saves.put ⟨d.nextPid, d.edits, false⟩).entries := List.mem_cons_self
      rcases setCoreModified_cases d₁ false with ⟨hflag, heq⟩ | ⟨hflag, heq⟩
      · rw [heq]
        refine ⟨h.views, hfresh h.pids, fun s hs => Nat.le_succ_of_le (h.clears s hs), le_rfl, h.last, ?_, ?_, ?_,
          fun _ => .inr (.inl rfl), ?_, fun _ => ⟨_, ⟨hnew _, rfl⟩, rfl⟩⟩
        · exact fun htrue => absurd (hflag.symm.trans htrue) (by decide)
        · exact fun hm' => absurd hm' (by simp [hd₁])
        · exact fun hm' => absurd rfl hm'
        · intro _ s hs _ hclears
          have := h.clears s hs
          simp only [hd₁] at hclears
          omega
      · rw [heq]
        refine ⟨h.views, hfresh h.pids, ?_, le_rfl, ?_, ?_, ?_, ?_, fun _ => .inr (.inl rfl), ?_,
          fun _ => ⟨_, ⟨hnew _, rfl⟩, rfl⟩⟩
        · intro s hs
          rcases mem_queue_notified hs with hs | rfl
          · exact Nat.le_succ_of_le (h.clears s hs)
          · exact le_rfl
        · exact fun _ hs => modified_of_getLast?_notified (d := d₁) h.views hs
        · exact fun htrue => absurd htrue (by simp)
        · exact fun hm' => absurd hm' (by simp [hd₁])
        · exact fun hm' => absurd rfl hm'
        · intro _ s hs hmodified hclears
          rcases mem_queue_notified hs with hs | rfl
          · have := h.clears s hs
            simp only [hd₁] at hclears
            omega
          · cases hmodified
    · -- nothing is cleared: the save that is waited for goes on
      refine ⟨h.views, hfresh h.pids, h.clears, h.clearedAt, h.last, h.flagged, h.settled, h.settling, h.saving,
        h.changed, fun hm => ?_⟩
      obtain ⟨save, ⟨hmem, hcompleted⟩, hcovers⟩ := h.running hm
      refine ⟨save, ⟨List.mem_cons_of_mem _ (List.mem_filter.2 ⟨hmem, ?_⟩), hcompleted⟩, hcovers⟩
      have := h.pids save hmem
      simp only [ne_eq, decide_not, Bool.not_eq_true', decide_eq_false_iff_not]
      omega

theorem Tracks.onDisconnect (h : d.Tracks) {childPid : Nat} {save : BgSave}
    (hfind : d.saves.find childPid = some save) (sig : Bool) : (d.onDisconnect save sig).Tracks := by
  have hpid := h.pids save (Table.mem_of_find hfind)
  have herase {d' : KitDocument} (h' : d'.Tracks) :
      ∀ s ∈ (d'.saves.erase save.childPid).entries, s.childPid < d'.nextPid :=
    fun s hs => h'.pids s (List.mem_filter.1 hs).1
  unfold KitDocument.onDisconnect
  dsimp only
  split
  · exact (h.reportFailedSave hpid).setSaves not_saving_updateModifiedOnFailedBgSave _
      (herase (h.reportFailedSave hpid))
  · -- a save that had completed is not the one that is waited for
    rename_i hcompleted
    refine ⟨h.views, herase h, h.clears, h.clearedAt, h.last, h.flagged, h.settled, h.settling, h.saving, h.changed,
      fun hm => ?_⟩
    obtain ⟨save', ⟨hmem, hrunning⟩, hcovers⟩ := h.running hm
    refine ⟨save', ⟨List.mem_filter.2 ⟨hmem, ?_⟩, hrunning⟩, hcovers⟩
    have hne : save'.childPid ≠ save.childPid := by
      intro heq
      have hsave : save.childPid = childPid := Table.key_of_find hfind
      have hself := Table.find_of_mem hmem
      rw [heq, hsave, hfind] at hself
      rw [Option.some.inj hself, hrunning] at hcompleted
      simp at hcompleted
    simpa using hne

theorem Tracks.handleMessage (h : d.Tracks) {childPid : Nat} {save : BgSave}
    (hfind : d.saves.find childPid = some save) (message : BgSaveMessage)
    (hok : message = .unocommandresult ".uno:Save" "true" → d.SavesInOrder save) :
    (d.handleMessage save message).Tracks := by
  have hpid := h.pids save (Table.mem_of_find hfind)
  cases message with
  | error => exact h.disableBgSave
  | jsdialog jsontype =>
    unfold KitDocument.handleMessage
    dsimp only
    split
    · exact h
    · exact h.reportFailedSave hpid
  | progress => exact h
  | traceevent => exact h
  | unocommandresult commandName success =>
    unfold KitDocument.handleMessage
    dsimp only
    split
    · rename_i hname
      split
      · rename_i hsuccess
        exact h.saveSucceeded hpid (hok (by rw [beq_iff_eq.1 hname, beq_iff_eq.1 hsuccess]))
      · exact h.updateModifiedOnFailedBgSave.disableBgSave.setSaveCompleted not_saving_updateModifiedOnFailedBgSave
          (by simpa [KitDocument.disableBgSave] using hpid)
    · exact h
  | other => exact h

/-! ### Runs -/

theorem tracks_initial {views : Nat} (hviews : 0 < views) : (initial views).Tracks := by
  refine ⟨hviews, by simp [initial, Table.empty], by simp [initial],
    le_rfl, by simp [initial], by simp [initial], ?_, ?_, ?_, ?_, ?_⟩
  · intro _ _ i hi
    exact absurd hi (Nat.not_lt_zero i)
  · exact fun _ hqueue => absurd rfl hqueue
  all_goals exact fun hm => absurd hm (by simp [initial])

theorem Tracks.step (h : d.Tracks) {e : Event} (hok : d.InOrder e) {d' : KitDocument}
    (hs : KitDocument.step d e = some d') : d'.Tracks := by
  cases e with
  | edit =>
    obtain rfl := Option.some.inj hs
    exact h.edit
  | saveSync =>
    obtain rfl := Option.some.inj hs
    exact h.saveSync
  | forkToSave => exact h.forkToSave hs
  | deliver =>
    unfold KitDocument.step at hs
    cases hqueue : d.queue with
    | nil => simp [hqueue] at hs
    | cons status rest =>
      simp only [hqueue, Option.some.injEq] at hs
      exact hs ▸ h.stateChanged hqueue (hok.1 rfl)
  | message childPid message =>
    obtain ⟨save, hfind, rfl⟩ := Option.map_eq_some_iff.1 hs
    exact h.handleMessage hfind message fun heq => hok.2 childPid save (by rw [heq]) hfind
  | disconnect childPid sig =>
    obtain ⟨save, hfind, rfl⟩ := Option.map_eq_some_iff.1 hs
    exact h.onDisconnect hfind sig
  | setViews views =>
    obtain ⟨hviews, hs⟩ := Option.ite_none_right_eq_some.1 hs
    obtain rfl := Option.some.inj hs
    exact ⟨hviews, h.2, h.3, h.4, h.5, h.6, h.7, h.8, h.9, h.10, h.11⟩

/-- In every run in which, while the document is unmodified but saving, only changes made after the flag was cleared
are delivered as changes, and only saves of what was cleared succeed, the modified state is never optimistic. -/
theorem neverOptimistic_of_inOrder (h : Run.Reachable IsInitial step InOrder d) : d.NeverOptimistic := by
  have htracks : d.Tracks := by
    refine h.invariant Tracks ?_ ?_
    · rintro _ ⟨views, hviews, rfl⟩
      exact tracks_initial hviews
    · intro d e d' _ htracks hok hs
      exact htracks.step hok hs
  exact htracks.neverOptimistic

/-! ### Two optimistic runs and one that is not -/

instance (n : Nat) : Decidable (d.Saved n) := inferInstanceAs (Decidable (∀ i < n, ∃ covers ∈ d.saved, i < covers))

/-- The condition on a step, evaluated. -/
def inOrder (d : KitDocument) : Event → Bool
  | .deliver => d.queue.head?.all fun status => !(d.modified == .UnModifiedButSaving && status.modified) ||
      status.clears == d.clears || decide (d.Saved d.edits)
  | .message childPid (.unocommandresult ..) => (d.saves.find childPid).all fun save =>
      d.modified != .UnModifiedButSaving || decide ((d.saveSucceeded save).Saved d.clearedAt)
  | _ => true

theorem inOrder_of_eq_true {e : Event} (h : d.inOrder e = true) : d.InOrder e := by
  constructor
  · rintro rfl status rest hqueue hm hmodified
    simpa [inOrder, hqueue, hm, hmodified] using h
  · rintro childPid save rfl hfind hm
    simpa [inOrder, hfind, hm] using h

/-- All notifications are delivered, the document counts as unmodified, and edit `i` is in no save that succeeded. -/
def losesEdit (i : Nat) (d : KitDocument) : Bool :=
  d.queue == [] && d.modified == .UnModified && decide (i < d.edits) && d.saved.all fun covers => covers ≤ i

theorem not_neverOptimistic {i : Nat} (h : d.losesEdit i = true) : ¬ d.NeverOptimistic := by
  simp only [losesEdit, Bool.and_eq_true, beq_iff_eq, decide_eq_true_eq, List.all_eq_true] at h
  obtain ⟨⟨⟨hqueue, hm⟩, hi⟩, hsaved⟩ := h
  intro hno
  obtain ⟨covers, hmem, hlt⟩ := (hno hqueue).1 hm i hi
  have hle := hsaved covers hmem
  omega

/-- With two views, the notification of an edit that the second view gets after the fork is taken for a new change,
and the cleared flag then for a saved document, while the save still runs.  With one view, a save that was forked
before an edit succeeds after a second save was forked for that edit. -/
theorem loses_edits :
    (∃ d, Run.Reachable IsInitial step Run.Any d ∧ (d.saves.entries.any fun save => !save.saveCompleted) ∧
      ¬ d.NeverOptimistic) ∧
    ∃ d, Run.Reachable IsInitial step Run.Any d ∧ d.views = 1 ∧ ¬ d.NeverOptimistic := by
  constructor
  · obtain ⟨d, hr, hd⟩ : ∃ d, Run.Reachable IsInitial step Run.Any d ∧
        ((d.saves.entries.any fun save => !save.saveCompleted) && d.losesEdit 0) = true :=
      Run.Reachable.exists_of_run (initial 2) [.edit, .deliver, .forkToSave, .deliver, .deliver, .deliver]
        ⟨2, by decide, rfl⟩ (by decide)
    rw [Bool.and_eq_true] at hd
    exact ⟨d, hr, hd.1, not_neverOptimistic hd.2⟩
  · obtain ⟨d, hr, hd⟩ : ∃ d, Run.Reachable IsInitial step Run.Any d ∧ (d.views == 1 && d.losesEdit 1) = true :=
      Run.Reachable.exists_of_run (initial 1)
        [.edit, .deliver, .forkToSave, .deliver, .edit, .deliver, .forkToSave, .deliver,
          .message 0 (.unocommandresult ".uno:Save" "true")]
        ⟨1, by decide, rfl⟩ (by decide)
    rw [Bool.and_eq_true, beq_iff_eq] at hd
    exact ⟨d, hr, hd.1, not_neverOptimistic hd.2⟩

/-- An edit is saved in the background while another one is made. -/
theorem neverOptimistic_of_edit_while_saving :
    ∃ d, Run.Reachable IsInitial step InOrder d ∧ d.queue = [] ∧ d.modified = .Modified ∧ d.saved = [1] ∧
      d.NeverOptimistic := by
  obtain ⟨d, hr, hd⟩ : ∃ d, Run.Reachable IsInitial (Run.guarded step inOrder) Run.Any d ∧
      (d.queue == [] && d.modified == .Modified && d.saved == [1]) = true :=
    Run.Reachable.exists_of_run (initial 1)
      [.edit, .deliver, .forkToSave, .deliver, .edit, .deliver, .message 0 (.unocommandresult ".uno:Save" "true"),
        .disconnect 0 false] ⟨1, by decide, rfl⟩ (by decide)
  simp only [Bool.and_eq_true, beq_iff_eq] at hd
  have hr := hr.of_guarded fun d e => inOrder_of_eq_true
  exact ⟨d, hr, hd.1.1, hd.1.2, hd.2, neverOptimistic_of_inOrder hr⟩

end KitDocument

end CollaboraOnline
