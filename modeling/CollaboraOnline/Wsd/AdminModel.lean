import Mathlib
import CollaboraOnline.Lib.Run
import CollaboraOnline.Lib.Table

/-!
# The views of the admin console

`AdminModel` keeps the documents with their views, and a separate count of the views of a document that are not
expired.  Every call of `expireView` takes one from the count, also for a view that is expired already.  The count is
right as long as no expired view is expired again (`views_accounted`).
-/

namespace CollaboraOnline

namespace Admin

/-! ### Documents -/

/-- `_end` is 0 until the view expires. -/
structure View where
  sessionId : String
  endTime : Nat := 0
deriving DecidableEq

/-- `time` is the current time. -/
def View.isExpired (v : View) (time : Nat) : Bool := v.endTime ≠ 0 && v.endTime ≤ time

structure AdminDocument where
  docKey : String
  views : Table View.sessionId
  activeViews : Nat
  endTime : Nat
deriving DecidableEq

namespace AdminDocument

def isExpired (d : AdminDocument) (time : Nat) : Bool := d.endTime ≠ 0 && d.endTime ≤ time

def addView (d : AdminDocument) (sessionId : String) : AdminDocument :=
  if (d.views.find sessionId).isSome then d
  else { d with views := d.views.put { sessionId := sessionId }, activeViews := (d.activeViews + 1) % 2 ^ 32 }

/-- A view of the session expires. -/
def expire (time : Nat) (sessionId : String) (v : View) : View :=
  if v.sessionId = sessionId then { v with endTime := time } else v

theorem sessionId_expire (time : Nat) (sessionId : String) (v : View) :
    (expire time sessionId v).sessionId = v.sessionId := by
  unfold expire
  split <;> rfl

def expireView (d : AdminDocument) (time : Nat) (sessionId : String) : AdminDocument :=
  if (d.views.find sessionId).isSome then
    let activeViews := (d.activeViews + (2 ^ 32 - 1)) % 2 ^ 32
    { d with
      views := d.views.map (expire time sessionId) (sessionId_expire time sessionId)
      activeViews := activeViews
      endTime := if activeViews = 0 then time else d.endTime }
  else d

/-- How many views have not expired. -/
def unexpired (d : AdminDocument) (time : Nat) : Nat := d.views.entries.countP fun v => !v.isExpired time

end AdminDocument

/-! ### The model -/

/-- The numbers of views that are added to the statistics for an expired document. -/
structure ViewStats where
  views : Nat
  activeViews : Nat
  expiredViews : Nat
deriving DecidableEq

/-- `DocumentAggregateStats::Update`; the difference is one of `size_t`. -/
def ViewStats.of (d : AdminDocument) : ViewStats :=
  ⟨d.views.entries.length % 2 ^ 64, d.activeViews, (d.views.entries.length + (2 ^ 64 - d.activeViews)) % 2 ^ 64⟩

/-- The model at a time. -/
structure AdminModel where
  time : Nat := 0
  documents : Table AdminDocument.docKey := Table.empty
  expiredDocStats : List ViewStats := []
deriving DecidableEq

namespace AdminModel

def addDocument (m : AdminModel) (docKey sessionId : String) : AdminModel :=
  match m.documents.find docKey with
  | some d => { m with documents := m.documents.put (d.addView sessionId) }
  | none => { m with documents := m.documents.put ((⟨docKey, Table.empty, 0, 0⟩ : AdminDocument).addView sessionId) }

def doRemove (m : AdminModel) (d : AdminDocument) : AdminModel :=
  { m with documents := m.documents.erase d.docKey, expiredDocStats := m.expiredDocStats ++ [.of d] }

/-- `removeDocument(docKey, sessionId)`. -/
def removeView (m : AdminModel) (docKey sessionId : String) : AdminModel :=
  match m.documents.find docKey with
  | some d =>
    if d.isExpired m.time then m
    else
      let d := d.expireView m.time sessionId
      if d.activeViews = 0 then m.doRemove d else { m with documents := m.documents.put d }
  | none => m

/-- `removeDocument(docKey)`. -/
def removeDocument (m : AdminModel) (docKey : String) : AdminModel :=
  match m.documents.find docKey with
  | some d => m.doRemove (d.views.entries.foldl (fun d v => d.expireView m.time v.sessionId) d)
  | none => m

def getTotalActiveViews (m : AdminModel) : Nat :=
  m.documents.entries.foldl (fun n d => if d.isExpired m.time then n else (n + d.activeViews) % 2 ^ 32) 0

end AdminModel

inductive Call
  | addDocument (docKey sessionId : String)
  | removeView (docKey sessionId : String)
  | removeDocument (docKey : String)
deriving DecidableEq

/-- A call at a time; the clock does not go back. -/
structure Event where
  time : Nat
  call : Call
deriving DecidableEq

def AdminModel.apply (m : AdminModel) : Call → AdminModel
  | .addDocument docKey sessionId => m.addDocument docKey sessionId
  | .removeView docKey sessionId => m.removeView docKey sessionId
  | .removeDocument docKey => m.removeDocument docKey

def step (m : AdminModel) (e : Event) : Option AdminModel :=
  if e.time = 0 ∨ e.time < m.time then none else some ({ m with time := e.time }.apply e.call)

def init (m : AdminModel) : Prop := m = {}

/-! ### The accounting -/

/-- The counts are right. -/
structure Accounted (m : AdminModel) : Prop where
  active : ∀ d ∈ m.documents.entries, d.activeViews = d.unexpired m.time ∧ 0 < d.activeViews
  total : m.getTotalActiveViews = (m.documents.entries.map AdminDocument.activeViews).sum
  stats : ∀ stats ∈ m.expiredDocStats, stats.activeViews + stats.expiredViews = stats.views

/-- The call removes the document as a whole, or the last view of it that has not expired. -/
def Removes (e : Event) (d : AdminDocument) : Prop :=
  match e.call with
  | .addDocument _ _ => False
  | .removeView docKey sessionId =>
    d.docKey = docKey ∧ d.unexpired e.time = 1 ∧ ∃ v ∈ d.views.entries, v.sessionId = sessionId ∧
    v.isExpired e.time = false
  | .removeDocument docKey => d.docKey = docKey

/-- A document of the list leaves it exactly with such a call. -/
def LeavesWhenRemoved (m : AdminModel) (e : Event) (m' : AdminModel) : Prop :=
  ∀ d ∈ m.documents.entries, m'.documents.find d.docKey = none ↔ Removes e d

/-- No expired view is expired again, and the views can be counted. -/
def Once (m : AdminModel) (e : Event) : Prop :=
  match e.call with
  | .addDocument _ _ => (m.documents.entries.map AdminDocument.activeViews).sum + 1 < 2 ^ 32
  | .removeView docKey sessionId =>
    ∀ d ∈ m.documents.entries, d.docKey = docKey → ∀ v ∈ d.views.entries, v.sessionId = sessionId →
      v.isExpired e.time = false
  | .removeDocument docKey =>
    ∀ d ∈ m.documents.entries, d.docKey = docKey → ∀ v ∈ d.views.entries, v.isExpired e.time = false

instance (m : AdminModel) : (e : Event) → Decidable (Once m e)
  | ⟨_, .addDocument _ _⟩ => inferInstanceAs (Decidable (_ < _))
  | ⟨time, .removeView docKey sessionId⟩ =>
    inferInstanceAs (Decidable (∀ d ∈ m.documents.entries, d.docKey = docKey → ∀ v ∈ d.views.entries,
      v.sessionId = sessionId → v.isExpired time = false))
  | ⟨time, .removeDocument docKey⟩ =>
    inferInstanceAs (Decidable (∀ d ∈ m.documents.entries, d.docKey = docKey → ∀ v ∈ d.views.entries,
      v.isExpired time = false))

/-! ### Documents that are counted -/

namespace AdminDocument

/-- The views that have not expired, of a time at which all expired ones lie in the past. -/
def openViews (d : AdminDocument) : Nat := d.views.entries.countP fun v => v.endTime = 0

structure Counted (time : Nat) (d : AdminDocument) : Prop where
  active : d.activeViews = d.openViews
  past : ∀ v ∈ d.views.entries, v.endTime ≤ time

variable {d : AdminDocument} {time : Nat} {v : View} {sessionId : String}

theorem isExpired_of_past (h : v.endTime ≤ time) : v.isExpired time = decide (v.endTime ≠ 0) := by
  unfold View.isExpired
  simp [h]

theorem unexpired_eq (h : ∀ v ∈ d.views.entries, v.endTime ≤ time) : d.unexpired time = d.openViews := by
  unfold unexpired openViews
  apply List.countP_congr
  intro v hv
  rw [isExpired_of_past (h v hv)]
  simp

theorem Counted.mono {time' : Nat} (h : d.Counted time) (hle : time ≤ time') : d.Counted time' :=
  ⟨h.active, fun v hv => (h.past v hv).trans hle⟩

variable (sessionId) in
theorem Counted.addView (h : d.Counted time) (hfew : d.activeViews + 1 < 2 ^ 32) :
    (d.addView sessionId).Counted time ∧ d.activeViews ≤ (d.addView sessionId).activeViews ∧
      (d.addView sessionId).activeViews ≤ d.activeViews + 1 ∧ (d.addView sessionId).endTime = d.endTime := by
  unfold AdminDocument.addView
  split
  · exact ⟨h, le_rfl, Nat.le_succ _, rfl⟩
  · rename_i hnone
    have herase : d.views.erase sessionId = d.views := Table.erase_of_find_none (by simpa using hnone)
    refine ⟨⟨?_, ?_⟩, ?_⟩
    · change (d.activeViews + 1) % 2 ^ 32 =
        ({ sessionId := sessionId } :: (d.views.erase sessionId).entries : List View).countP fun v => v.endTime = 0
      rw [herase, List.countP_cons_of_pos (by simp), Nat.mod_eq_of_lt hfew, h.active]
      rfl
    · intro v hv
      rcases Table.mem_put.1 hv with rfl | ⟨hv, -⟩
      · exact Nat.zero_le _
      · exact h.past v hv
    · dsimp only
      rw [Nat.mod_eq_of_lt hfew]
      exact ⟨Nat.le_succ _, le_rfl, rfl⟩

/-- An open view that expires is taken from the count, and only this view changes. -/
theorem Counted.expireView (h : d.Counted time) (hfew : d.activeViews < 2 ^ 32) (htime : time ≠ 0)
    (hv : v ∈ d.views.entries) (hopen : v.endTime = 0) :
    (d.expireView time v.sessionId).Counted time ∧ (d.expireView time v.sessionId).activeViews + 1 = d.activeViews ∧
      (d.expireView time v.sessionId).views.entries = d.views.entries.map (expire time v.sessionId) := by
  have hperm := Table.perm_erase hv
  have hfound : (d.views.find v.sessionId).isSome = true := by rw [Table.find_of_mem hv]; rfl
  have hrest : ((d.views.erase v.sessionId).entries.map (expire time v.sessionId)) =
      (d.views.erase v.sessionId).entries := by
    refine (List.map_congr_left fun w hw => ?_).trans (List.map_id _)
    unfold expire
    rw [if_neg (Table.mem_erase.1 hw).2]
    rfl
  have hcount : d.openViews = (d.views.erase v.sessionId).entries.countP (fun v => v.endTime = 0) + 1 := by
    unfold openViews
    rw [hperm.countP_eq, List.countP_cons_of_pos (by simpa using hopen)]
  have hcount' : (d.views.entries.map (expire time v.sessionId)).countP (fun v => v.endTime = 0) =
      (d.views.erase v.sessionId).entries.countP fun v => v.endTime = 0 := by
    rw [(hperm.map _).countP_eq, List.map_cons, hrest, List.countP_cons_of_neg]
    simpa [expire] using htime
  have hactive := h.active
  have hdec : (d.activeViews + (2 ^ 32 - 1)) % 2 ^ 32 + 1 = d.activeViews := by omega
  unfold AdminDocument.expireView
  rw [if_pos hfound]
  refine ⟨⟨?_, ?_⟩, hdec, rfl⟩
  · unfold openViews
    dsimp only [Table.map]
    rw [hcount']
    omega
  · intro w hw
    obtain ⟨w', hw', rfl⟩ := List.mem_map.1 hw
    unfold expire
    split
    · exact le_rfl
    · exact h.past w' hw'

/-- All open views expire. -/
theorem Counted.expireViews (vs : List View) (h : d.Counted time) (hfew : d.activeViews < 2 ^ 32) (htime : time ≠ 0)
    (hvs : ∀ v ∈ vs, v ∈ d.views.entries ∧ v.endTime = 0) (hnodup : (vs.map View.sessionId).Nodup) :
    (vs.foldl (fun d v => d.expireView time v.sessionId) d).activeViews + vs.length = d.activeViews ∧
      (vs.foldl (fun d v => d.expireView time v.sessionId) d).views.entries.length = d.views.entries.length ∧
      (vs.foldl (fun d v => d.expireView time v.sessionId) d).docKey = d.docKey := by
  induction vs generalizing d with
  | nil => exact ⟨rfl, rfl, rfl⟩
  | cons v vs ih =>
    obtain ⟨hv, hopen⟩ := hvs v (List.mem_cons_self ..)
    obtain ⟨hcounted, hdec, hviews⟩ := h.expireView hfew htime hv hopen
    rw [List.map_cons, List.nodup_cons] at hnodup
    have hrest : ∀ w ∈ vs, w ∈ (d.expireView time v.sessionId).views.entries ∧ w.endTime = 0 := by
      intro w hw
      obtain ⟨hmem, hopen'⟩ := hvs w (List.mem_cons_of_mem _ hw)
      refine ⟨?_, hopen'⟩
      rw [hviews]
      refine List.mem_map.2 ⟨w, hmem, ?_⟩
      have hne : w.sessionId ≠ v.sessionId := fun heq => hnodup.1 (heq ▸ List.mem_map_of_mem hw)
      unfold expire
      rw [if_neg hne]
    have hkey : (d.expireView time v.sessionId).docKey = d.docKey := by
      unfold AdminDocument.expireView
      split <;> rfl
    obtain ⟨hactive, hlen, hdoc⟩ := ih hcounted (by omega) hrest hnodup.2
    rw [List.foldl_cons]
    refine ⟨?_, ?_, hdoc.trans hkey⟩
    · rw [List.length_cons]
      omega
    · rw [hlen, hviews, List.length_map]

end AdminDocument

/-! ### The model -/

namespace AdminModel

/-- What holds of the model as long as no expired view is expired again. -/
structure Inv (m : AdminModel) : Prop where
  docs : ∀ d ∈ m.documents.entries, d.Counted m.time ∧ 0 < d.activeViews ∧ d.endTime = 0
  few : (m.documents.entries.map AdminDocument.activeViews).sum < 2 ^ 32
  stats : ∀ stats ∈ m.expiredDocStats, stats.activeViews + stats.expiredViews = stats.views

variable {m : AdminModel} {d d' : AdminDocument} {docKey sessionId : String}

variable (d') in
theorem sum_put (h : d ∈ m.documents.entries) (hkey : d'.docKey = d.docKey) :
    ((m.documents.put d').entries.map AdminDocument.activeViews).sum + d.activeViews =
      (m.documents.entries.map AdminDocument.activeViews).sum + d'.activeViews := by
  rw [((Table.perm_erase h).map _).sum_eq, Table.entries_put, hkey]
  simp only [List.map_cons, List.sum_cons]
  omega

theorem le_sum (h : d ∈ m.documents.entries) :
    d.activeViews ≤ (m.documents.entries.map AdminDocument.activeViews).sum :=
  List.le_sum_of_mem (List.mem_map_of_mem h)

/-- The total of documents that are not expired is their sum. -/
theorem Inv.getTotalActiveViews (h : m.Inv) :
    m.getTotalActiveViews = (m.documents.entries.map AdminDocument.activeViews).sum := by
  have hfold : ∀ (docs : List AdminDocument) (n : Nat), (∀ d ∈ docs, d.endTime = 0) →
      n + (docs.map AdminDocument.activeViews).sum < 2 ^ 32 →
      docs.foldl (fun n d => if d.isExpired m.time then n else (n + d.activeViews) % 2 ^ 32) n =
        n + (docs.map AdminDocument.activeViews).sum := by
    intro docs
    induction docs with
    | nil => intro n _ _; rfl
    | cons d docs ih =>
      intro n hopen hlt
      have hd : d.isExpired m.time = false := by
        unfold AdminDocument.isExpired
        simp [hopen d (List.mem_cons_self ..)]
      rw [List.map_cons, List.sum_cons] at hlt ⊢
      rw [List.foldl_cons, hd, if_neg Bool.false_ne_true, Nat.mod_eq_of_lt (by omega),
        ih _ (fun d hd => hopen d (List.mem_cons_of_mem _ hd)) (by omega)]
      omega
  have hfold' := hfold m.documents.entries 0 (fun d hd => (h.docs d hd).2.2) (by simpa using h.few)
  simpa [AdminModel.getTotalActiveViews] using hfold'

theorem Inv.accounted (h : m.Inv) : Accounted m where
  active d hd := by
    obtain ⟨hcounted, hpos, -⟩ := h.docs d hd
    exact ⟨by rw [AdminDocument.unexpired_eq hcounted.past, hcounted.active], hpos⟩
  total := h.getTotalActiveViews
  stats := h.stats

theorem Inv.mono {time : Nat} (h : m.Inv) (hle : m.time ≤ time) : ({ m with time := time } : AdminModel).Inv :=
  ⟨fun d hd => ⟨(h.docs d hd).1.mono hle, (h.docs d hd).2⟩, h.few, h.stats⟩

/-- A document is replaced by one that is counted. -/
theorem Inv.put (h : m.Inv) (hcounted : d'.Counted m.time) (hpos : 0 < d'.activeViews) (hopen : d'.endTime = 0)
    (hfew : ((m.documents.put d').entries.map AdminDocument.activeViews).sum < 2 ^ 32) :
    ({ m with documents := m.documents.put d' } : AdminModel).Inv := by
  refine ⟨fun e he => ?_, hfew, h.stats⟩
  rcases Table.mem_put.1 he with rfl | ⟨he, -⟩
  · exact ⟨hcounted, hpos, hopen⟩
  · exact h.docs e he

/-- A document without open views leaves. -/
theorem Inv.doRemove (h : m.Inv) (hactive : d.activeViews = 0) : (m.doRemove d).Inv := by
  refine ⟨fun e he => h.docs e (Table.mem_erase.1 he).1, ?_, ?_⟩
  · have hsub : (m.documents.erase d.docKey).entries.Sublist m.documents.entries := List.filter_sublist
    exact lt_of_le_of_lt ((hsub.map AdminDocument.activeViews).sum_le_sum (by simp)) h.few
  · intro stats hstats
    rcases List.mem_append.1 hstats with hstats | hstats
    · exact h.stats stats hstats
    · obtain rfl := List.mem_singleton.1 hstats
      unfold ViewStats.of
      dsimp only
      rw [hactive]
      omega

theorem docKey_addView : (d.addView sessionId).docKey = d.docKey := by
  unfold AdminDocument.addView
  split <;> rfl

theorem Inv.addDocument (h : m.Inv) (hfew : (m.documents.entries.map AdminDocument.activeViews).sum + 1 < 2 ^ 32) :
    (m.addDocument docKey sessionId).Inv := by
  unfold AdminModel.addDocument
  split
  · rename_i d hd
    have hmem := Table.mem_of_find hd
    obtain ⟨hcounted, hpos, hopen⟩ := h.docs d hmem
    have hle := le_sum hmem
    obtain ⟨hcounted', hge, hle', hend⟩ := hcounted.addView sessionId (by omega)
    have hsum := sum_put (d.addView sessionId) hmem docKey_addView
    exact h.put hcounted' (by omega) (hend.trans hopen) (by omega)
  · rename_i hnone
    have hempty : (⟨docKey, Table.empty, 0, 0⟩ : AdminDocument).Counted m.time := ⟨rfl, by simp [Table.empty]⟩
    obtain ⟨hcounted, -, hle, hend⟩ := hempty.addView sessionId (by simp)
    have hone : ((⟨docKey, Table.empty, 0, 0⟩ : AdminDocument).addView sessionId).activeViews = 1 := rfl
    refine h.put hcounted (by rw [hone]; exact Nat.one_pos) hend ?_
    rw [Table.entries_put, docKey_addView, Table.erase_of_find_none hnone, List.map_cons, List.sum_cons, hone]
    omega

/-- The only open view of the document expires, or another one of several. -/
theorem Inv.removeView (h : m.Inv) (htime : m.time ≠ 0)
    (honce : ∀ d ∈ m.documents.entries, d.docKey = docKey → ∀ v ∈ d.views.entries, v.sessionId = sessionId →
      v.isExpired m.time = false) :
    (m.removeView docKey sessionId).Inv ∧ ∀ d ∈ m.documents.entries,
      (m.removeView docKey sessionId).documents.find d.docKey = none ↔
        Removes ⟨m.time, .removeView docKey sessionId⟩ d := by
  unfold AdminModel.removeView
  split
  · rename_i d hd
    have hmem := Table.mem_of_find hd
    have hkey : d.docKey = docKey := Table.key_of_find hd
    obtain ⟨hcounted, hpos, hopen⟩ := h.docs d hmem
    have hlt := lt_of_le_of_lt (le_sum hmem) h.few
    have hunexpired : d.unexpired m.time = d.activeViews := by
      rw [AdminDocument.unexpired_eq hcounted.past, hcounted.active]
    have hlisted : ¬ d.isExpired m.time = true := by
      unfold AdminDocument.isExpired
      simp [hopen]
    have hother : ∀ e ∈ m.documents.entries, e.docKey ≠ docKey → ¬ Removes ⟨m.time, .removeView docKey sessionId⟩ e :=
      fun e _ hne hremoves => hne hremoves.1
    have hsame : ∀ e ∈ m.documents.entries, e.docKey = docKey → e = d := by
      intro e he heq
      have hfind := Table.find_of_mem he
      rw [heq, hd] at hfind
      exact (Option.some.inj hfind).symm
    rw [if_neg hlisted]
    by_cases hview : ∃ v ∈ d.views.entries, v.sessionId = sessionId
    · obtain ⟨v, hv, rfl⟩ := hview
      have hexpired := honce d hmem hkey v hv rfl
      have hvopen : v.endTime = 0 := by
        rw [AdminDocument.isExpired_of_past (hcounted.past v hv)] at hexpired
        simpa using hexpired
      obtain ⟨hcounted', hdec, -⟩ := hcounted.expireView hlt htime hv hvopen
      have hkey' : (d.expireView m.time v.sessionId).docKey = d.docKey := by
        unfold AdminDocument.expireView
        split <;> rfl
      have hremoves : Removes ⟨m.time, .removeView docKey v.sessionId⟩ d ↔ d.activeViews = 1 := by
        unfold Removes
        dsimp only
        rw [hunexpired]
        exact ⟨fun hr => hr.2.1, fun hone => ⟨hkey, hone, v, hv, rfl, hexpired⟩⟩
      dsimp only
      split
      · rename_i hzero
        refine ⟨h.doRemove hzero, fun e he => ?_⟩
        by_cases heq : e.docKey = docKey
        · obtain rfl := hsame e he heq
          rw [hremoves]
          refine iff_of_true ?_ (by omega)
          have herase := Table.find_erase_self (t := m.documents) (k := (e.expireView m.time v.sessionId).docKey)
          rw [hkey'] at herase
          simpa [AdminModel.doRemove, hkey'] using herase
        · refine iff_of_false ?_ (hother e he heq)
          have hne : e.docKey ≠ (d.expireView m.time v.sessionId).docKey := by rw [hkey', hkey]; exact heq
          rw [AdminModel.doRemove, Table.find_erase_of_ne hne, Table.find_of_mem he]
          exact Option.some_ne_none e
      · rename_i hnonzero
        have hsum := sum_put (d.expireView m.time v.sessionId) hmem hkey'
        have hfew := h.few
        have hend : (d.expireView m.time v.sessionId).endTime = 0 := by
          have hfound : (d.views.find v.sessionId).isSome = true := by rw [Table.find_of_mem hv]; rfl
          unfold AdminDocument.expireView at hnonzero ⊢
          rw [if_pos hfound] at hnonzero ⊢
          dsimp only at hnonzero ⊢
          rw [if_neg hnonzero, hopen]
        refine ⟨h.put hcounted' (Nat.pos_of_ne_zero hnonzero) hend (by omega), fun e he => ?_⟩
        refine iff_of_false ?_ ?_
        · rw [Table.find_put]
          split
          · exact Option.some_ne_none _
          · rw [Table.find_of_mem he]
            exact Option.some_ne_none e
        · intro hr
          by_cases heq : e.docKey = docKey
          · obtain rfl := hsame e he heq
            have hone := hremoves.1 hr
            omega
          · exact hother e he heq hr
    · have hnone : ¬ (d.views.find sessionId).isSome = true := by
        intro hsome
        obtain ⟨v, hv⟩ := Option.isSome_iff_exists.1 hsome
        exact hview ⟨v, Table.mem_of_find hv, Table.key_of_find hv⟩
      have hexpire : d.expireView m.time sessionId = d := by
        unfold AdminDocument.expireView
        rw [if_neg hnone]
      dsimp only
      rw [hexpire, if_neg (Nat.ne_of_gt hpos)]
      have hsum := sum_put d hmem rfl
      have hfew := h.few
      refine ⟨h.put hcounted hpos hopen (by omega), fun e he => ?_⟩
      refine iff_of_false ?_ ?_
      · rw [Table.find_put]
        split
        · exact Option.some_ne_none _
        · rw [Table.find_of_mem he]
          exact Option.some_ne_none e
      · rintro ⟨heq, -, v, hv, hid, -⟩
        obtain rfl := hsame e he heq
        exact hview ⟨v, hv, hid⟩
  · rename_i hnone
    refine ⟨h, fun e he => ?_⟩
    refine iff_of_false (by rw [Table.find_of_mem he]; exact Option.some_ne_none e) ?_
    rintro ⟨rfl, -⟩
    rw [Table.find_of_mem he] at hnone
    cases hnone

/-- A document without expired views is removed. -/
theorem Inv.removeDocument (h : m.Inv) (htime : m.time ≠ 0)
    (honce : ∀ d ∈ m.documents.entries, d.docKey = docKey → ∀ v ∈ d.views.entries, v.isExpired m.time = false) :
    (m.removeDocument docKey).Inv ∧ ∀ d ∈ m.documents.entries,
      (m.removeDocument docKey).documents.find d.docKey = none ↔ Removes ⟨m.time, .removeDocument docKey⟩ d := by
  unfold AdminModel.removeDocument
  split
  · rename_i d hd
    have hmem := Table.mem_of_find hd
    have hkey : d.docKey = docKey := Table.key_of_find hd
    obtain ⟨hcounted, hpos, hopen⟩ := h.docs d hmem
    have hlt := lt_of_le_of_lt (le_sum hmem) h.few
    have hvs : ∀ v ∈ d.views.entries, v ∈ d.views.entries ∧ v.endTime = 0 := by
      intro v hv
      have hexpired := honce d hmem hkey v hv
      rw [AdminDocument.isExpired_of_past (hcounted.past v hv)] at hexpired
      exact ⟨hv, by simpa using hexpired⟩
    obtain ⟨hactive, hlen, hkey'⟩ := hcounted.expireViews d.views.entries hlt htime hvs d.views.nodup
    have hall : d.activeViews = d.views.entries.length := by
      rw [hcounted.active]
      exact List.countP_eq_length.2 fun v hv => by simpa using (hvs v hv).2
    refine ⟨h.doRemove (by omega), fun e he => ?_⟩
    unfold AdminModel.doRemove Removes
    dsimp only
    rw [hkey', hkey]
    by_cases heq : e.docKey = docKey
    · rw [heq]
      exact iff_of_true Table.find_erase_self rfl
    · rw [Table.find_erase_of_ne heq, Table.find_of_mem he]
      exact iff_of_false (Option.some_ne_none e) heq
  · rename_i hnone
    refine ⟨h, fun e he => ?_⟩
    refine iff_of_false (by rw [Table.find_of_mem he]; exact Option.some_ne_none e) ?_
    rintro (rfl : e.docKey = docKey)
    rw [Table.find_of_mem he] at hnone
    cases hnone

end AdminModel

/-- What one step keeps, and which documents leave with it. -/
theorem inv_step {m m' : AdminModel} {e : Event} (h : m.Inv) (honce : Once m e) (hstep : step m e = some m') :
    m'.Inv ∧ LeavesWhenRemoved m e m' := by
  obtain ⟨time, call⟩ := e
  unfold step at hstep
  split at hstep
  · cases hstep
  · rename_i htime
    simp only [not_or, Nat.not_lt] at htime
    obtain rfl := Option.some.inj hstep
    have hinv := h.mono htime.2
    cases call with
    | addDocument docKey sessionId =>
      refine ⟨hinv.addDocument honce, fun d hd => iff_of_false ?_ id⟩
      unfold AdminModel.apply AdminModel.addDocument
      dsimp only
      split <;>
      · rw [Table.find_put]
        split
        · exact Option.some_ne_none _
        · rw [Table.find_of_mem hd]
          exact Option.some_ne_none d
    | removeView docKey sessionId => exact hinv.removeView htime.1 honce
    | removeDocument docKey => exact hinv.removeDocument htime.1 honce

/-- In every run in which no expired view is expired again, the counts are right in every state, and a document leaves
the list exactly when its last view is removed or it is removed as a whole. -/
theorem views_accounted (m : AdminModel) (h : Run.Reachable init step Once m) :
    Accounted m ∧ ∀ e m', Once m e → step m e = some m' → LeavesWhenRemoved m e m' := by
  have hinv : m.Inv := by
    refine Run.Reachable.invariant AdminModel.Inv ?_ (fun s e s' _ hs hok hstep => (inv_step hs hok hstep).1) h
    rintro _ rfl
    exact ⟨by simp [Table.empty], by simp [Table.empty], by simp⟩
  exact ⟨hinv.accounted, fun e m' honce hstep => (inv_step hinv honce hstep).2⟩

/-- Two documents of two views each: one view is removed, the other document as a whole, which is opened again. -/
def shared : List Event :=
  [⟨1, .addDocument "doc" "a"⟩, ⟨2, .addDocument "doc" "b"⟩, ⟨2, .addDocument "sheet" "c"⟩,
  ⟨3, .addDocument "sheet" "d"⟩,
    ⟨4, .removeView "doc" "a"⟩, ⟨5, .removeDocument "sheet"⟩, ⟨6, .addDocument "sheet" "e"⟩]

/-- The last view of the document leaves with it. -/
theorem views_accounted_opened : ∃ m m', Run.run step {} shared = some m ∧ m.getTotalActiveViews = 2 ∧ Accounted m ∧
    step m ⟨7, .removeView "doc" "b"⟩ = some m' ∧ LeavesWhenRemoved m ⟨7, .removeView "doc" "b"⟩ m' ∧
      m'.documents.entries.map AdminDocument.docKey = ["sheet"] ∧ m'.expiredDocStats = [⟨2, 0, 2⟩, ⟨2, 0, 2⟩] := by
  obtain ⟨m, m', hrun, hguarded, htotal, honce, hstep, hkeys, hstats⟩ : ∃ m m', Run.run step {} shared = some m ∧
      Run.run (Run.guarded step fun m e => decide (Once m e)) {} shared = some m ∧ m.getTotalActiveViews = 2 ∧
        decide (Once m ⟨7, .removeView "doc" "b"⟩) = true ∧ step m ⟨7, .removeView "doc" "b"⟩ = some m' ∧
          m'.documents.entries.map AdminDocument.docKey = ["sheet"] ∧ m'.expiredDocStats = [⟨2, 0, 2⟩, ⟨2, 0, 2⟩] :=
    ⟨_, _, rfl, by decide, by decide, by decide, rfl, by decide, by decide⟩
  have hinit : init {} := rfl
  have hreach : Run.Reachable init step Once m :=
    (Run.Reachable.of_run (.start hinit) hguarded).of_guarded fun _ _ => of_decide_eq_true
  obtain ⟨haccounted, hleaves⟩ := views_accounted m hreach
  exact ⟨m, m', hrun, htotal, haccounted, hstep, hleaves _ m' (of_decide_eq_true honce) hstep, hkeys, hstats⟩

/-- The session that is added. -/
def Event.session (e : Event) : Option String :=
  match e.call with
  | .addDocument _ sessionId => some sessionId
  | _ => none

/-- One of two views is removed, and then the document. -/
def abandoned : List Event :=
  [⟨1, .addDocument "doc" "a"⟩, ⟨2, .addDocument "doc" "b"⟩, ⟨3, .removeView "doc" "a"⟩, ⟨4, .removeDocument "doc"⟩]

theorem not_views_accounted :
    ¬ ∀ es m, (es.filterMap Event.session).Nodup → Run.run step {} es = some m → Accounted m := by
  intro h
  have hstats : (Run.run step {} abandoned).map AdminModel.expiredDocStats =
      some [⟨2, 4294967295, 18446744069414584323⟩] := by decide
  cases hrun : Run.run step {} abandoned with
  | none => simp [hrun] at hstats
  | some m =>
    rw [hrun] at hstats
    have hbad := (h abandoned m (by decide) hrun).stats ⟨2, 4294967295, 18446744069414584323⟩
      (by rw [Option.some.inj hstats]; exact List.mem_singleton.2 rfl)
    exact absurd hbad (by decide)

end Admin

end CollaboraOnline
