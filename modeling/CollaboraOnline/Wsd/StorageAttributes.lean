import CollaboraOnline.Wsd.SavesInFlight

/-!
# The attributes of an upload

The flags and the extended data that a save is given travel from the next attributes to the current ones, when the kit
has answered, and to the last ones, when an upload is attempted; a failed upload merges them back.  They are owed
until an upload of the document that started later succeeds.  An attempt resets the next attributes and replaces the
last ones: what is owed is kept where no upload is attempted while the save is in flight, or while the last attributes
still have something to carry, and where no other extended data takes its place.
-/

namespace CollaboraOnline

namespace Attributes

/-- An upload with these attributes carries the flags and the extended data that are owed. -/
structure Carries (attrs owed : Attributes) : Prop where
  forced : owed.forced = true → attrs.forced = true
  isUserModified : owed.isUserModified = true → attrs.isUserModified = true
  extendedData : owed.extendedData ≠ "" → attrs.extendedData = owed.extendedData

/-- There is nothing that an upload would have to carry. -/
def isClear (attrs : Attributes) : Bool := !attrs.forced && !attrs.isUserModified && attrs.extendedData == ""

/-- The extended data does not take the place of that which is owed. -/
def leavesData (attrs owed : Attributes) : Bool :=
  owed.extendedData == "" || attrs.extendedData == "" || attrs.extendedData == owed.extendedData

variable {attrs last newer owed : Attributes}

theorem leavesData_cases (h : newer.leavesData owed = true) (hne : owed.extendedData ≠ "") :
    newer.extendedData = "" ∨ newer.extendedData = owed.extendedData := by
  simpa [leavesData, hne] using h

theorem Carries.refl : owed.Carries owed := ⟨id, id, fun _ => rfl⟩

theorem Carries.congr (h : attrs.Carries owed) (hforced : newer.forced = attrs.forced)
    (hmodified : newer.isUserModified = attrs.isUserModified) (hdata : newer.extendedData = attrs.extendedData) :
    newer.Carries owed :=
  ⟨fun ho => hforced.trans (h.forced ho), fun ho => hmodified.trans (h.isUserModified ho),
    fun ho => hdata.trans (h.extendedData ho)⟩

theorem Carries.taken (h : attrs.Carries owed) (exitSave force : Bool) :
    (attrs.taken exitSave force).Carries owed := by
  refine ⟨fun ho => ?_, h.isUserModified, h.extendedData⟩
  simp [Attributes.taken, h.forced ho]

/-- What the newer attributes carry is carried by both. -/
theorem Carries.merge_newer (h : newer.Carries owed) : (attrs.merge newer).Carries owed := by
  refine ⟨fun ho => ?_, fun ho => ?_, fun ho => ?_⟩
  · simp [Attributes.merge, h.forced ho]
  · simp [Attributes.merge, h.isUserModified ho]
  · have hdata := h.extendedData ho
    simp [Attributes.merge, hdata, ho]

theorem Carries.merge (h : attrs.Carries owed) (hleaves : newer.leavesData owed = true) :
    (attrs.merge newer).Carries owed := by
  refine ⟨fun ho => ?_, fun ho => ?_, fun ho => ?_⟩
  · simp [Attributes.merge, h.forced ho]
  · simp [Attributes.merge, h.isUserModified ho]
  · have hdata := h.extendedData ho
    rcases leavesData_cases hleaves ho with hnewer | hnewer
    · simp [Attributes.merge, hnewer, hdata]
    · simp [Attributes.merge, hnewer, ho]

/-- The last attributes are merged with newer current ones. -/
theorem Carries.merge_merge (h : (attrs.merge last).Carries owed) (hleaves : newer.leavesData owed = true) :
    ((attrs.merge newer).merge last).Carries owed := by
  refine ⟨fun ho => ?_, fun ho => ?_, fun ho => ?_⟩
  · have hforced := h.forced ho
    simp only [Attributes.merge] at hforced ⊢
    split_ifs at hforced ⊢ <;> simp_all
  · have hmodified := h.isUserModified ho
    simp only [Attributes.merge] at hmodified ⊢
    split_ifs at hmodified ⊢ <;> simp_all
  · have hdata := h.extendedData ho
    by_cases hlast : last.extendedData = ""
    · have hdata : attrs.extendedData = owed.extendedData := by simpa [Attributes.merge, hlast] using hdata
      rcases leavesData_cases hleaves ho with hnewer | hnewer
      · simp [Attributes.merge, hlast, hnewer, hdata]
      · simp [Attributes.merge, hlast, hnewer, ho]
    · have hdata : last.extendedData = owed.extendedData := by simpa [Attributes.merge, hlast] using hdata
      simp [Attributes.merge, hdata, ho]

theorem Carries.of_merge_clear (h : (attrs.merge last).Carries owed) (hclear : last.isClear = true) :
    attrs.Carries owed := by
  simp only [isClear, Bool.and_eq_true, Bool.not_eq_true', beq_iff_eq] at hclear
  obtain ⟨⟨hforced, hmodified⟩, hdata⟩ := hclear
  refine ⟨fun ho => ?_, fun ho => ?_, fun ho => ?_⟩
  · simpa [Attributes.merge, hforced] using h.forced ho
  · simpa [Attributes.merge, hmodified] using h.isUserModified ho
  · simpa [Attributes.merge, hdata] using h.extendedData ho

theorem leavesData_reset : leavesData reset owed = true := by
  simp [leavesData, reset]

end Attributes

namespace Storing

open DocumentBroker (SaveCommand SaveResponse)

variable {c c' : Storing} {save : SaveCommand} {attached owed : Attributes} {n : Nat}

/-! ### The save is in flight -/

/-- No save is requested, no upload attempted, and no answer comes. -/
def Guard.waiting : Guard :=
  { Guard.any with
    save := fun _ => False
    upload := fun _ _ => False
    response := fun _ _ _ => False
    drop := fun _ => False
    upload_notSent := fun _ _ h => h
    upload_answered := fun _ h => h }

/-- The only save in flight is the one that was given the next attributes. -/
def Waits (save : SaveCommand) (attached : Attributes) (c : Storing) : Prop :=
  c.saves = [save] ∧ c.nextStorageAttrs = attached

theorem Waits.move (h : c.Waits save attached) (hmove : Move .waiting c c') : c'.Waits save attached := by
  cases hmove with
  | requestSave _ _ _ hsave => exact hsave.elim
  | clientSave _ _ _ _ hsave => exact hsave.elim
  | clientSaveNotSent _ _ _ _ hsave => exact hsave.elim
  | dropSave _ hdrop => exact hdrop.elim
  | takeSave _ _ _ _ hresponse => exact hresponse.elim
  | startUpload _ _ hupload => exact hupload.elim
  | refuseUpload _ _ _ _ hupload => exact hupload.elim
  | _ => exact h

/-! ### The attributes are owed -/

/-- Attempts are numbered. -/
def Numbered (c : Storing) : Prop := ∀ upload ∈ c.sessions, upload.attempt < c.attempts

theorem Numbered.move {G : Guard} (h : c.Numbered) (hmove : Move G c c') : c'.Numbered := by
  cases hmove with
  | startUpload exitSave force _ hstarted =>
    intro upload hmem
    rcases List.mem_append.1 hmem with hmem | hmem
    · exact Nat.lt_succ_of_lt (h upload hmem)
    · obtain rfl := List.mem_singleton.1 hmem
      exact Nat.lt_succ_of_le hstarted.attempt.le
  | refuseUpload => exact fun upload hmem => Nat.lt_succ_of_lt (h upload hmem)
  | finish statusCode => exact fun upload hmem => h upload (List.mem_of_mem_erase hmem)
  | failConnection =>
    intro upload hmem
    obtain ⟨u, hu, rfl⟩ := List.mem_map.1 hmem
    split <;> exact h u hu
  | _ => exact h

/-- An upload is attempted when the last attributes are clear; the answer to another save leaves the extended data;
and a success finds what is owed in the current attributes. -/
def Guard.keeping (owed : Attributes) : Guard :=
  { Guard.any with
    upload := fun c _ => c.lastStorageAttrs.isClear = true
    response := fun c _ _ => c.nextStorageAttrs.leavesData owed = true
    result := fun c request success => success = true → (!request.isSaveAs && !request.isRename) = true →
      c.currentStorageAttrs.Carries owed
    upload_notSent := fun _ _ h => h
    upload_answered := fun _ h => h }

/-- What is owed since the attempt `n` is in the current or in the last attributes, and every later upload carries it.
While an older upload may still succeed, it is in the current ones. -/
structure Keeps (owed : Attributes) (n : Nat) (c : Storing) : Prop where
  numbered : c.Numbered
  since : n ≤ c.attempts
  held : (c.currentStorageAttrs.merge c.lastStorageAttrs).Carries owed
  uploads : ∀ upload ∈ c.sessions, n ≤ upload.attempt → upload.attribs.Carries owed
  older : ∀ request, c.uploadRequest = some request → ∀ upload ∈ c.sessions, upload.attempt = request.attempt →
    upload.attempt < n → c.currentStorageAttrs.Carries owed

theorem Keeps.startUpload (h : c.Keeps owed n) (hclear : c.lastStorageAttrs.isClear = true) {request : UploadRequest}
    {upload : HttpUpload} {exitSave force : Bool} (hstarted : Started c request upload exitSave force) :
    (c.startUpload request upload exitSave force).Keeps owed n := by
  have hcurrent := (h.held.of_merge_clear hclear).taken exitSave force
  refine ⟨?_, Nat.le_succ_of_le h.since, hcurrent.merge_newer, fun u hu hn => ?_, fun r hr u hu hattempt hlt => ?_⟩
  · exact h.numbered.move (G := .any) (.startUpload exitSave force True.intro hstarted)
  · rcases List.mem_append.1 hu with hu | hu
    · exact h.uploads u hu hn
    · obtain rfl := List.mem_singleton.1 hu
      rw [hstarted.attribs]
      exact hcurrent
  · -- the current request is the new one, which is not older
    obtain rfl := Option.some.inj hr
    have hsince := h.since
    have hrequest := hstarted.requestAttempt
    rcases List.mem_append.1 hu with hu | hu
    · have := h.numbered u hu
      omega
    · omega

theorem Keeps.refuseUpload (h : c.Keeps owed n) (hclear : c.lastStorageAttrs.isClear = true) {request : UploadRequest}
    (hattempt : request.attempt = c.attempts) (file : Option LocalFile) (exitSave force : Bool) :
    (c.refuseUpload request file exitSave force).Keeps owed n := by
  have hcurrent := (h.held.of_merge_clear hclear).taken exitSave force
  refine ⟨fun u hu => Nat.lt_succ_of_lt (h.numbered u hu), Nat.le_succ_of_le h.since, hcurrent.merge_newer, h.uploads,
    fun r hr u hu heq hlt => ?_⟩
  obtain rfl := Option.some.inj hr
  have hlt := h.numbered u hu
  have heq : u.attempt = request.attempt := heq
  omega

theorem Keeps.takeSave (h : c.Keeps owed n) (index : Nat) (requestId : String) {response : SaveResponse}
    (hleaves : c.nextStorageAttrs.leavesData owed = true) :
    (((c.dropSave index).noteSaved requestId).takeSave response).Keeps owed n := by
  have hleaves : (c.nextStorageAttrs.answered response).leavesData owed = true := by
    unfold Attributes.answered
    split <;> exact hleaves
  exact ⟨h.numbered, h.since, h.held.merge_merge hleaves, h.uploads,
    fun r hr u hu hattempt hlt => (h.older r hr u hu hattempt hlt).merge hleaves⟩

theorem Keeps.failConnection (h : c.Keeps owed n) (upload : HttpUpload) : (c.failConnection upload).Keeps owed n := by
  have hsame (u : HttpUpload) (hu : u ∈ (c.failConnection upload).sessions) :
      ∃ v ∈ c.sessions, v.attempt = u.attempt ∧ v.attribs = u.attribs := by
    obtain ⟨v, hv, rfl⟩ := List.mem_map.1 hu
    refine ⟨v, hv, ?_⟩
    split <;> exact ⟨rfl, rfl⟩
  refine ⟨fun u hu => ?_, h.since, h.held, fun u hu hn => ?_, fun r hr u hu hattempt hlt => ?_⟩
  · obtain ⟨v, hv, hattempt, -⟩ := hsame u hu
    exact hattempt ▸ h.numbered v hv
  · obtain ⟨v, hv, hattempt, hattribs⟩ := hsame u hu
    exact hattribs ▸ h.uploads v hv (hattempt ▸ hn)
  · obtain ⟨v, hv, heq, -⟩ := hsame u hu
    exact h.older r hr v hv (heq.trans hattempt) (heq ▸ hlt)

theorem Keeps.move (h : c.Keeps owed n) (hmove : Move (.keeping owed) c c') : c'.Keeps owed n := by
  cases hmove with
  | takeSave index save response _ hleaves => exact h.takeSave index save.requestId hleaves
  | answerCurrent =>
    exact ⟨h.numbered, h.since, h.held.congr rfl rfl rfl, h.uploads,
      fun r hr u hu hattempt hlt => (h.older r hr u hu hattempt hlt).congr rfl rfl rfl⟩
  | startUpload exitSave force hclear hstarted => exact h.startUpload hclear hstarted
  | refuseUpload request file exitSave force hclear hattempt =>
    exact h.refuseUpload hclear hattempt file exitSave force
  | forget =>
    refine ⟨h.numbered, h.since, h.held, h.uploads, fun r hr => h.older r ?_⟩
    exact (Option.filter_eq_some_iff.1 hr).1
  | finish statusCode =>
    exact ⟨fun u hu => h.numbered u (List.mem_of_mem_erase hu), h.since, h.held,
      fun u hu => h.uploads u (List.mem_of_mem_erase hu), fun r hr u hu => h.older r hr u (List.mem_of_mem_erase hu)⟩
  | failConnection => exact h.failConnection _
  | @failUpload request hrequest =>
    refine ⟨h.numbered, h.since, h.held, h.uploads, fun r hr u hu hattempt => ?_⟩
    obtain rfl := Option.some.inj hr
    exact h.older request hrequest u hu hattempt
  | @uploaded request results hrequest hplain hresult =>
    have hcurrent := hresult rfl hplain
    exact ⟨h.numbered, h.since, hcurrent.merge Attributes.leavesData_reset, h.uploads, fun _ _ _ _ _ _ => hcurrent⟩
  | @otherUploaded request results hrequest =>
    refine ⟨h.numbered, h.since, h.held.congr rfl rfl rfl, h.uploads, fun r hr u hu hattempt => ?_⟩
    obtain rfl := Option.some.inj hr
    exact h.older request hrequest u hu hattempt
  | @uploadFailed request results hrequest =>
    have hmerged : (c.currentStorageAttrs.merge { c.lastStorageAttrs with requestId := "" }).Carries owed :=
      h.held.congr rfl rfl rfl
    exact ⟨h.numbered, h.since, hmerged.merge Attributes.leavesData_reset, h.uploads, fun _ _ _ _ _ _ => hmerged⟩
  | _ => exact ⟨h.numbered, h.since, h.held, h.uploads, h.older⟩

end Storing

namespace DocumentBroker

/-- An event asks for a save. -/
def requestsSave (b : DocumentBroker) : Event → Bool
  | .onDisconnect sid => b.docState.activity ≠ .Save && (b.sessions.find sid).any b.savesOnRemove
  | .finish => !b.saveManager.isSaving
  | e => b.asksForSave e

/-- An event attempts an upload, unless the session may not edit; that of a rename after an upload is left out. -/
def attemptsUpload (b : DocumentBroker) : Event → Bool
  | .loaded _ isFirst templateSize => isFirst && templateSize.isSome
  | .savetostorage _ force => force || b.mayUpload
  | .saveas _ _ _ _ _ => true
  | .saveResponse _ _ => b.docState.activity = .Rename || b.mayUpload
  | .poll => b.docState.activity = .None && (b.mayUnload || b.mayRetry) && (b.mayUpload || !b.isLoaded)
  | _ => false

/-- After an upload the document is renamed in the storage. -/
def renamesInStorage (b : DocumentBroker) : Event → Bool
  | .uploadFinished _ response => response.statusCode = 200 && b.docState.activity = .Rename
  | _ => false

/-- The kit answers the save. -/
def answersSave (b : DocumentBroker) (save : SaveCommand) : Event → Bool
  | .saveResponse index _ => b.childProcess.saves[index]? = some save
  | _ => false

/-- An upload of the document succeeds that was attempted after `n` others. -/
def uploadSucceeds (b : DocumentBroker) (n : Nat) : Event → Bool
  | .uploadFinished attempt response =>
    response.statusCode = 200 && (b.findUpload attempt).any fun upload => n ≤ upload.attempt && upload.isPutFile
  | _ => false

/-- The answer to a save, and that of the storage, leave what is owed. -/
def leavesOwed (b : DocumentBroker) (owed : Attributes) : Event → Bool
  | .saveResponse _ _ => b.nextStorageAttrs.leavesData owed && b.lastStorageAttrs.leavesData owed
  | .uploadFinished attempt response => response.statusCode ≠ 200 || (b.findUpload attempt).all fun upload =>
      b.uploadRequest.all fun request => request.isSaveAs || request.isRename ||
        (upload.attempt = request.attempt && upload.isPutFile)
  | _ => true

end DocumentBroker

namespace Lifetime

open DocumentBroker (Event SaveCommand AutoSaved)
open Storing (Guard Waits Keeps)

variable {s s' : Lifetime} {e : Event} {save : SaveCommand} {attached owed : Attributes} {n : Nat}

/-- The condition on the request of a save: no other save is in flight. -/
def requestsAlone (s : Lifetime) (_ : Event) : Bool := s.broker.childProcess.saves.isEmpty

/-- The condition on a step while the save is in flight: no other save is requested, and no upload attempted. -/
def waits (s : Lifetime) (e : Event) : Bool :=
  !(clocked s.broker).requestsSave e && !(clocked s.broker).attemptsUpload e && !(clocked s.broker).renamesInStorage e

/-- The condition on a step after that: an upload is attempted only when the last attributes have nothing to carry, no
other extended data takes the place of that which is owed, and OK comes for the current upload request. -/
def keeps (owed : Attributes) (s : Lifetime) (e : Event) : Bool :=
  (!(clocked s.broker).attemptsUpload e || s.broker.lastStorageAttrs.isClear) && s.broker.leavesOwed owed e

variable (requests waits : Lifetime → Event → Bool) (keeps : Attributes → Lifetime → Event → Bool)

/-- A save is in flight that was given the attributes `attached`. -/
inductive Requested (save : SaveCommand) (attached : Attributes) : Lifetime → Prop
  | request {s s' : Lifetime} {e : Event} : Run.Reachable Initial step Run.Any s → requests s e = true →
      step s e = some s' → s'.broker.childProcess.saves = s.broker.childProcess.saves ++ [save] →
      s'.broker.nextStorageAttrs = attached → Requested save attached s'
  | wait {s s' : Lifetime} {e : Event} : Requested save attached s → s.broker.answersSave save e = false →
      waits s e = true → step s e = some s' → Requested save attached s'

/-- The attributes `owed` are those of a save that was answered, or of an upload that was forced, when `n` uploads had
been attempted, and no upload attempted since then has succeeded. -/
inductive Owed : Attributes → Nat → Lifetime → Prop
  | answered {s s' : Lifetime} {save : SaveCommand} {attached : Attributes} {index : Nat}
      {response : DocumentBroker.SaveResponse} : Requested requests waits save attached s →
      s.broker.childProcess.saves[index]? = some save → (s.broker.sessions.find save.session).isSome = true →
      keeps (attached.answered response) s (.saveResponse index response) = true →
      step s (.saveResponse index response) = some s' → Owed (attached.answered response) s.broker.storage.attempts s'
  | forced {s s' : Lifetime} {sid : Nat} : Run.Reachable Initial step Run.Any s →
      step s (.savetostorage sid true) = some s' → s.broker.storage.attempts < s'.broker.storage.attempts →
      Owed { forced := true } s.broker.storage.attempts s'
  | next {owed : Attributes} {n : Nat} {s s' : Lifetime} {e : Event} : Owed owed n s →
      s.broker.uploadSucceeds n e = false → keeps owed s e = true → step s e = some s' → Owed owed n s'

/-- Every upload of the document that was attempted after `n` others, and may be the next to succeed, carries what is
owed. -/
def Carried (owed : Attributes) (n : Nat) (s : Lifetime) : Prop :=
  ∀ attempt upload, s.broker.findUpload attempt = some upload → n ≤ upload.attempt → upload.isPutFile = true →
    upload.attribs.Carries owed

/-! ### The run -/

section

open DocumentBroker

/-- Nothing that a guard of the waiting forbids is done. -/
theorem allows_waiting (hwaits : Lifetime.waits s e = true)
    (hanswer : ∀ index response, e ≠ .saveResponse index response) : (clocked s.broker).Allows .waiting e := by
  simp only [Lifetime.waits, Bool.and_eq_true, Bool.not_eq_true'] at hwaits
  obtain ⟨⟨hrequests, hattempts⟩, hrenames⟩ := hwaits
  generalize clocked s.broker = b at *
  have hno {p : Prop} {x : Bool} (hx : x = false) (h : x = true) : p := by
    rw [hx] at h
    cases h
  cases e with
  | addSession => exact fun _ _ _ => True.intro
  | loaded sid isFirst templateSize =>
    rintro hfirst size rfl
    exact hno hattempts (by simp [attemptsUpload, hfirst])
  | onDisconnect sid =>
    exact fun session hsession hsaves hact => hno hrequests (by simp [requestsSave, hact, hsession, hsaves])
  | save sid =>
    exact ⟨fun session hsession hwritable hact =>
      hno hrequests (by simp [requestsSave, asksForSave, hact, hsession, hwritable]), .inr (.inl True.intro)⟩
  | savetostorage sid force => exact fun hmay => hno hattempts (by simpa [attemptsUpload] using hmay)
  | saveas => exact hno hattempts rfl
  | renamefile sid newFilename =>
    exact fun hname hact => hno hrequests (by simp [requestsSave, asksForSave, hname, hact])
  | switchMode sid mode =>
    exact fun hmode hviews hact => hno hrequests (by simp [requestsSave, asksForSave, hmode, hviews, hact])
  | adminAutoSave => exact fun hsaves => hno hrequests hsaves
  | kitSaved => exact True.intro
  | saveResponse index response => exact absurd rfl (hanswer index response)
  | uploadFinished attempt response =>
    intro upload _ modifiedTime request _
    exact ⟨True.intro, .inr (.inr True.intro), fun hok hact _ _ =>
      hno hrenames (by simp [renamesInStorage, show response.statusCode = 200 by simpa using hok,
        show b.docState.activity = .Rename from hact])⟩
  | checkFileInfoFinished => exact fun _ _ _ => True.intro
  | poll =>
    refine ⟨fun hact => ⟨fun hsaves => ?_, fun hwhen hmay => ?_, fun _ => .inr (.inl True.intro)⟩,
      fun _ => True.intro⟩
    · exact hno hrequests (by simp [requestsSave, asksForSave, hact, hsaves])
    · refine hno hattempts ?_
      have hmay : (b.mayUpload || !b.isLoaded) = true := by simpa using hmay
      have hwhen : (b.mayUnload || b.mayRetry) = true := by simpa using hwhen
      simp only [attemptsUpload, hact, hwhen, hmay, decide_true, Bool.and_self]
  | finish =>
    intro c hc hidle
    have hsaving : b.saveManager.isSaving = true := by simpa [requestsSave] using hrequests
    rcases hc.cases_head with rfl | ⟨d, ⟨hfree, -⟩, -⟩
    · exact hno hidle hsaving
    · exact hno hfree hsaving
  | _ => exact True.intro

theorem Requested.spec (h : Requested requestsAlone Lifetime.waits save attached s) :
    Run.Reachable Initial step Run.Any s ∧ s.broker.storing.Waits save attached := by
  induction h with
  | request hr halone hs hsaves hnext =>
    refine ⟨hr.next True.intro hs, ?_, hnext⟩
    rw [List.isEmpty_iff.1 halone] at hsaves
    exact hsaves
  | @wait s s' e _ hanswer hwaits hs ih =>
    obtain ⟨hr, hsave⟩ := ih
    refine ⟨hr.next True.intro hs, ?_⟩
    by_cases hresponse : ∃ index response, e = .saveResponse index response
    · -- there is no other save that could be answered
      obtain ⟨index, response, rfl⟩ := hresponse
      obtain ⟨b, hb, -⟩ := step_cases hs
      have hsaves : s.broker.childProcess.saves = [save] := hsave.1
      rw [answersSave, hsaves] at hanswer
      obtain ⟨-, hb⟩ := Option.ite_none_right_eq_some.1 hb
      cases index with
      | zero => simp at hanswer
      | succ index => simp [saveResponse, clocked, hsaves] at hb
    · have hmoves := step_moves (allows_waiting hwaits fun index response h => hresponse ⟨index, response, h⟩) hs
      generalize s'.broker.storing = c at hmoves ⊢
      induction hmoves with
      | refl => exact hsave
      | tail _ hstep ih => exact ih.move hstep

theorem numbered (h : Run.Reachable Initial step Run.Any s) : s.broker.storing.Numbered :=
  storing_invariant .any Storing.Numbered (fun _ _ hu => by cases hu) (fun _ _ hc hmove => hc.move hmove)
    (fun _ e _ _ _ => DocumentBroker.allows_any e) h

theorem isClear_of_attemptsUpload (hkeeps : Lifetime.keeps owed s e = true)
    (hattempts : (clocked s.broker).attemptsUpload e = true) : s.broker.lastStorageAttrs.isClear = true := by
  simpa [Lifetime.keeps, hattempts] using (Bool.and_eq_true_iff.1 hkeeps).1

theorem responseAllowed_keeping {index : Nat} {response : SaveResponse}
    (hkeeps : Lifetime.keeps owed s (.saveResponse index response) = true) :
    ResponseAllowed (.keeping owed) (clocked s.broker) index response := by
  have hclear := isClear_of_attemptsUpload hkeeps
  have hleaves := (Bool.and_eq_true_iff.1 hkeeps).2
  simp only [leavesOwed, Bool.and_eq_true] at hleaves
  exact fun _ _ _ _ => ⟨hleaves.1, .inr (.inr True.intro), fun hact => hclear (by simp [attemptsUpload, hact]),
    fun hmay => hclear (by simp [attemptsUpload, hmay])⟩

theorem allows_keeping (h : s.broker.storing.Keeps owed n) (hkeeps : Lifetime.keeps owed s e = true)
    (hsuccess : s.broker.uploadSucceeds n e = false) : (clocked s.broker).Allows (.keeping owed) e := by
  have hclear := isClear_of_attemptsUpload hkeeps
  have hleaves := (Bool.and_eq_true_iff.1 hkeeps).2
  cases e with
  | addSession => exact fun _ _ _ => True.intro
  | loaded sid isFirst templateSize =>
    rintro hfirst size rfl
    exact ⟨True.intro, True.intro, hclear (by simp [attemptsUpload, hfirst])⟩
  | onDisconnect => exact fun _ _ _ _ => True.intro
  | save => exact ⟨fun _ _ _ _ => True.intro, .inr (.inl True.intro)⟩
  | savetostorage sid force => exact fun hmay => hclear (by simpa [attemptsUpload] using hmay)
  | saveas => exact hclear rfl
  | renamefile => exact fun _ _ => True.intro
  | switchMode => exact fun _ _ _ => True.intro
  | adminAutoSave => exact fun _ => True.intro
  | kitSaved => exact True.intro
  | saveResponse index response => exact ⟨responseAllowed_keeping hkeeps, fun _ => True.intro⟩
  | uploadFinished attempt response =>
    intro upload hfind modifiedTime request hrequest
    refine ⟨fun hok hplain => ?_, .inr (.inr True.intro), fun _ _ _ _ => rfl⟩
    have hstatus : response.statusCode = 200 := by simpa using hok
    have hfind : s.broker.findUpload attempt = some upload := hfind
    have hrequest : s.broker.uploadRequest = some request := hrequest
    simp only [Bool.and_eq_true, Bool.not_eq_true'] at hplain
    have hcurrent : upload.attempt = request.attempt ∧ upload.isPutFile = true := by
      simpa [leavesOwed, hstatus, hfind, hrequest, hplain.1, hplain.2] using hleaves
    refine h.older request hrequest upload (DocumentBroker.mem_of_findUpload hfind) hcurrent.1 ?_
    simpa [uploadSucceeds, hstatus, hfind, hcurrent.2] using hsuccess
  | checkFileInfoFinished => exact fun _ _ _ => True.intro
  | poll =>
    refine ⟨fun hact => ⟨fun _ => True.intro, fun hwhen hmay => hclear ?_, fun _ => .inr (.inl True.intro)⟩,
      fun _ => True.intro⟩
    have hmay : ((clocked s.broker).mayUpload || !(clocked s.broker).isLoaded) = true := by simpa using hmay
    have hwhen : ((clocked s.broker).mayUnload || (clocked s.broker).mayRetry) = true := by simpa using hwhen
    simp only [attemptsUpload, hact, hwhen, hmay, decide_true, Bool.and_self]
  | finish => exact fun _ _ _ => True.intro
  | _ => exact True.intro

theorem keeps_moves {c c' : Storing} (h : c.Keeps owed n) (hmoves : Storing.Moves (.keeping owed) c c') :
    c'.Keeps owed n := by
  induction hmoves with
  | refl => exact h
  | tail _ hstep ih => exact ih.move hstep

/-- The answer to the save makes its attributes current. -/
theorem keeps_of_answered {index : Nat} {response : SaveResponse} (hr : Run.Reachable Initial step Run.Any s)
    (hwaits : s.broker.storing.Waits save attached) (hsave : s.broker.childProcess.saves[index]? = some save)
    (hsession : (s.broker.sessions.find save.session).isSome = true)
    (hkeeps : Lifetime.keeps (attached.answered response) s (.saveResponse index response) = true)
    (hs : step s (.saveResponse index response) = some s') :
    s'.broker.storing.Keeps (attached.answered response) s.broker.storage.attempts := by
  obtain ⟨session, hsession⟩ := Option.isSome_iff_exists.1 hsession
  obtain ⟨b, hb, hs'⟩ := step_cases hs
  have hs' : s'.broker.storing = b.storing := by
    rcases hs' with hs' | hs'
    · rw [hs']
    · rw [hs', storing_quarantineLastVersion]
  obtain ⟨-, hb⟩ := Option.ite_none_right_eq_some.1 hb
  have hmoves := saveResponse_taken (responseAllowed_keeping hkeeps) hsave hsession hb
  rw [hs']
  have hleaves := (Bool.and_eq_true_iff.1 hkeeps).2
  simp only [leavesOwed, Bool.and_eq_true] at hleaves
  have hnumbered := numbered hr
  have hcurrent : (s.broker.currentStorageAttrs.merge (s.broker.nextStorageAttrs.answered response)).Carries
      (attached.answered response) := by
    rw [show s.broker.nextStorageAttrs = attached from hwaits.2]
    exact Attributes.Carries.refl.merge_newer
  have htaken : ((((clocked s.broker).storing.dropSave index).noteSaved save.requestId).takeSave response).Keeps
      (attached.answered response) s.broker.storage.attempts :=
    ⟨hnumbered, Nat.le_refl _, hcurrent.merge hleaves.2,
      fun upload hupload hn => absurd (hnumbered upload hupload) (not_lt.2 hn), fun _ _ _ _ _ _ => hcurrent⟩
  exact keeps_moves htaken hmoves

theorem keeps_of_forced {sid : Nat} (hr : Run.Reachable Initial step Run.Any s)
    (hs : step s (.savetostorage sid true) = some s')
    (hattempts : s.broker.storage.attempts < s'.broker.storage.attempts) :
    s'.broker.storing.Keeps { forced := true } s.broker.storage.attempts := by
  obtain ⟨b, hb, hs'⟩ := step_cases hs
  have hs' : s'.broker.storing = b.storing := by
    rcases hs' with hs' | hs'
    · rw [hs']
    · rw [hs', storing_quarantineLastVersion]
  obtain ⟨session, -, rfl⟩ := Option.map_eq_some_iff.1 hb
  rw [show s'.broker.storage.attempts = s'.broker.storing.attempts from rfl, hs'] at hattempts
  rw [hs']
  have hnumbered := numbered hr
  have hforced (exitSave : Bool) : (s.broker.currentStorageAttrs.taken exitSave true).Carries { forced := true } :=
    ⟨fun _ => rfl, fun h => absurd h Bool.false_ne_true, fun h => absurd rfl h⟩
  rcases (clocked s.broker).uploadToStorageInternal_cases session "" "" false false true with
    h | ⟨request, hrequest, -, ⟨file, h⟩ | ⟨upload, hstarted, h⟩⟩
  · rw [show ((clocked s.broker).uploadToStorage session true).storing = _ from h] at hattempts
    exact absurd hattempts (Nat.lt_irrefl _)
  · rw [show ((clocked s.broker).uploadToStorage session true).storing = _ from h]
    refine ⟨fun u hu => Nat.lt_succ_of_lt (hnumbered u hu), Nat.le_succ _, (hforced _).merge_newer, fun u hu hn => ?_,
      fun r hr u hu heq hlt => ?_⟩
    · exact absurd (hnumbered u hu) (not_lt.2 hn)
    · obtain rfl := Option.some.inj hr
      have heq : u.attempt = s.broker.storage.attempts := heq.trans hrequest
      omega
  · rw [show ((clocked s.broker).uploadToStorage session true).storing = _ from h]
    have hnew : (clocked s.broker).storing.attempts = s.broker.storage.attempts := rfl
    have hattempt := hstarted.attempt
    refine ⟨?_, Nat.le_succ _, (hforced _).merge_newer, fun u hu hn => ?_, fun r hr u hu heq hlt => ?_⟩
    · have hnumbered : (clocked s.broker).storing.Numbered := hnumbered
      exact hnumbered.move (G := .any) (.startUpload _ true True.intro hstarted)
    · rcases List.mem_append.1 hu with hu | hu
      · exact absurd (hnumbered u hu) (not_lt.2 hn)
      · obtain rfl := List.mem_singleton.1 hu
        rw [hstarted.attribs]
        exact hforced _
    · obtain rfl := Option.some.inj hr
      have heq : u.attempt = s.broker.storage.attempts := heq.trans hrequest
      omega

theorem keeps_of_owed (h : Owed requestsAlone Lifetime.waits Lifetime.keeps owed n s) :
    s.broker.storing.Keeps owed n := by
  induction h with
  | answered hrequested hsave hsession hkeeps hs =>
    obtain ⟨hr, hwaits⟩ := hrequested.spec
    exact keeps_of_answered hr hwaits hsave hsession hkeeps hs
  | forced hr hs hattempts => exact keeps_of_forced hr hs hattempts
  | next _ hsuccess hkeeps hs ih => exact keeps_moves ih (step_moves (allows_keeping ih hkeeps hsuccess) hs)

/-- Under the conditions on the steps, what is owed is carried by the first upload of the document that succeeds, of
those that were attempted after the answer to the save, or from the upload on that was forced. -/
theorem carried_of_owed (h : Owed requestsAlone Lifetime.waits Lifetime.keeps owed n s) : s.Carried owed n := by
  intro attempt upload hfind hn _
  exact (keeps_of_owed h).uploads upload (DocumentBroker.mem_of_findUpload hfind) hn

end

/-! ### Runs -/

theorem Requested.of_run {es : List Event} (h : Requested requests waits save attached s)
    (hrun : Run.run (Run.guarded step fun s e => !s.broker.answersSave save e && waits s e) s es = some s') :
    Requested requests waits save attached s' := by
  induction es generalizing s with
  | nil =>
    obtain rfl : s = s' := Option.some.inj hrun
    exact h
  | cons e es ih =>
    obtain ⟨t, ht, hrun⟩ := Option.bind_eq_some_iff.1 hrun
    obtain ⟨hok, hs⟩ := Option.ite_none_right_eq_some.1 ht
    simp only [Bool.and_eq_true, Bool.not_eq_true'] at hok
    exact ih (.wait h hok.1 hok.2 hs) hrun

theorem Owed.of_run {es : List Event} (h : Owed requests waits keeps owed n s)
    (hrun : Run.run (Run.guarded step fun s e => !s.broker.uploadSucceeds n e && keeps owed s e) s es = some s') :
    Owed requests waits keeps owed n s' := by
  induction es generalizing s with
  | nil =>
    obtain rfl : s = s' := Option.some.inj hrun
    exact h
  | cons e es ih =>
    obtain ⟨t, ht, hrun⟩ := Option.bind_eq_some_iff.1 hrun
    obtain ⟨hok, hs⟩ := Option.ite_none_right_eq_some.1 ht
    simp only [Bool.and_eq_true, Bool.not_eq_true'] at hok
    exact ih (.next h hok.1 hok.2 hs) hrun

/-- A run with a save, its answer and what follows. -/
def owedRun (before : List Event) (e : Event) (waiting : List Event) (response : DocumentBroker.SaveResponse)
    (after : List Event) : Option (Attributes × Nat × Lifetime) := do
  let s₁ ← Run.run step (initial download) before
  let s₂ ← Run.guarded step requests s₁ e
  let save ← s₂.broker.childProcess.saves.head?
  let s₃ ← Run.run (Run.guarded step fun s e => !s.broker.answersSave save e && waits s e) s₂ waiting
  let owed := s₂.broker.nextStorageAttrs.answered response
  let n := s₃.broker.storage.attempts
  let s₄ ← Run.guarded step (keeps owed) s₃ (.saveResponse 0 response)
  let s₅ ← Run.run (Run.guarded step fun s e => !s.broker.uploadSucceeds n e && keeps owed s e) s₄ after
  if s₁.broker.childProcess.saves = [] ∧ s₂.broker.childProcess.saves = [save] ∧
      s₃.broker.childProcess.saves = [save] ∧ (s₃.broker.sessions.find save.session).isSome = true then
    some (owed, n, s₅)
  else none

theorem owed_of_owedRun {before waiting after : List Event} {response : DocumentBroker.SaveResponse}
    (h : owedRun requests waits keeps before e waiting response after = some (owed, n, s)) :
    Owed requests waits keeps owed n s := by
  simp only [owedRun, Option.bind_eq_bind, Option.bind_eq_some_iff] at h
  obtain ⟨s₁, h₁, s₂, h₂, save, -, s₃, h₃, s₄, h₄, s₅, h₅, h⟩ := h
  obtain ⟨⟨hfree, hsaves, hsave, hsession⟩, h⟩ := Option.ite_none_right_eq_some.1 h
  simp only [Option.some.injEq, Prod.mk.injEq] at h
  obtain ⟨rfl, rfl, rfl⟩ := h
  obtain ⟨hrequests, hs₂⟩ := Option.ite_none_right_eq_some.1 h₂
  obtain ⟨hkeeps, hs₄⟩ := Option.ite_none_right_eq_some.1 h₄
  have hrequested : Requested requests waits save s₂.broker.nextStorageAttrs s₂ :=
    .request (Run.Reachable.of_run (.start ⟨download, rfl⟩) h₁) hrequests hs₂ (by simp [hfree, hsaves]) rfl
  have hanswered := hrequested.of_run requests waits h₃
  exact (Owed.answered hanswered (by simp [hsave]) hsession hkeeps hs₄).of_run requests waits keeps h₅

/-- The document is loaded and edited. -/
def edit : List Event := [firstJoin, .loaded 1 true none, .setModified true]

/-- An upload gets no useful answer, and the timestamp is given up. -/
def failUpload : List Event :=
    [.uploadFinished 0 ⟨500, "", "", none⟩, .poll, .checkFileInfoFinished .Fail, .elapse 10000000000]

/-- The extended data of a newer save takes the place of that of the save. -/
theorem not_carried : ¬ ∀ owed n s, Owed (fun _ _ => true) (fun _ _ => true) (fun _ _ _ => true) owed n s →
    s.Carried owed n := by
  have hrun : ((owedRun (fun _ _ => true) (fun _ _ => true) (fun _ _ _ => true) edit (.save 1 false false "A" "")
      [.kitSaved 120] ⟨true, "", none⟩
      (failUpload ++ [.save 1 false false "B" "", .kitSaved 130, .saveResponse 0 ⟨true, "", none⟩])).any
        fun p => p.1.extendedData == "A" && (p.2.2.broker.findUpload 1).any fun upload =>
          p.2.1 ≤ upload.attempt && upload.isPutFile && upload.attribs.extendedData == "B") = true := by
    decide +kernel
  obtain ⟨⟨owed, n, s⟩, hrun, hp⟩ := Option.any_eq_true _ _ |>.1 hrun
  simp only [Bool.and_eq_true, beq_iff_eq, Option.any_eq_true, decide_eq_true_eq] at hp
  obtain ⟨howed, upload, hupload, ⟨hn, hput⟩, hdata⟩ := hp
  intro h
  have hcarried := (h owed n s (owed_of_owedRun _ _ _ hrun) 1 upload hupload hn hput).extendedData (by simp [howed])
  rw [hdata, howed] at hcarried
  exact absurd hcarried (by decide)

/-- The upload fails, and the next one carries the extended data. -/
theorem carried_of_owed_retry :
    ∃ owed n s, Owed requestsAlone Lifetime.waits Lifetime.keeps owed n s ∧ owed.extendedData = "A" ∧
      ((s.broker.findUpload 1).map fun upload => upload.attribs.extendedData) = some "A" ∧ s.Carried owed n := by
  have hrun : ((owedRun requestsAlone Lifetime.waits Lifetime.keeps edit (.save 1 false false "A" "") [.kitSaved 120]
      ⟨true, "", none⟩ (failUpload ++ [.poll])).any fun p => p.1.extendedData == "A" &&
        ((p.2.2.broker.findUpload 1).map fun upload => upload.attribs.extendedData) == some "A") = true := by
    decide +kernel
  obtain ⟨⟨owed, n, s⟩, hrun, hp⟩ := Option.any_eq_true _ _ |>.1 hrun
  simp only [Bool.and_eq_true, beq_iff_eq] at hp
  have howed := owed_of_owedRun _ _ _ hrun
  exact ⟨owed, n, s, howed, hp.1, hp.2, carried_of_owed howed⟩

end Lifetime

end CollaboraOnline
