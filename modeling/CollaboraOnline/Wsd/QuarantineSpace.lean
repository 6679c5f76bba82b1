import CollaboraOnline.Wsd.Quarantine

/-!
# Space in the quarantine directory

`makeQuarantineSpace` removes the old versions of every document, and then, while the files are too large, the oldest
entry of a document with the most versions.  The size is kept in a running sum, from which the size of the entry is
subtracted that follows the removed one, and only the first two documents are put in order again.  The order in which
the entries are to be removed depends on the containers alone (`removalOrder`); space is made as it should exactly
where the shifted sizes along it tell the same as the sizes, and the removals that are needed come from the first two
documents (`makeQuarantineSpace_spacious`).
-/

namespace CollaboraOnline

namespace Quarantine

/-- Subtraction of `size_t`. -/
def subtract (a b : Nat) : Nat := (a + (2 ^ 64 - b % 2 ^ 64)) % 2 ^ 64

def quarantineSize (docs : List Document) : Nat :=
  (docs.flatMap Document.entries).foldl (fun size entry => (size + entry.size) % 2 ^ 64) 0

/-- The timestamp of the oldest entry. -/
def Document.front (d : Document) : Nat := (d.entries.head?.map Entry.secondsSinceEpoch).getD 0

/-- The order of the documents that lose entries: the one with the most entries, then the one with the older entry. -/
def sortsBefore (lhs rhs : Document) : Bool :=
  if lhs.entries.length ≠ rhs.entries.length then rhs.entries.length < lhs.entries.length else lhs.front < rhs.front

/-- An entry that is removed for space, in front of the newer ones of its document, and the other documents. -/
structure Removal where
  docKey : String
  entry : Entry
  newer : List Entry
  others : List Document

def Removal.document (r : Removal) : Document := ⟨r.docKey, r.entry :: r.newer⟩

/-- The documents that have entries, before the removal. -/
def Removal.documents (r : Removal) : List Document := r.document :: r.others

/-- What `entry.size()` is after the entry was erased: the size of the next one, which has moved to its place, or what
is read of the destroyed entry. -/
def sizeAfterErase (destroyed : Entry → Nat) (entry : Entry) : List Entry → Nat
  | [] => destroyed entry
  | next :: _ => next.size

/-- A document without entries is dropped; else the top two are put in order. -/
def reorder (first : Document) (others : List Document) : List Document :=
  if first.entries = [] then others
  else
    match others with
    | [] => [first]
    | second :: more => if sortsBefore second first then second :: first :: more else first :: second :: more

/-- The loop over the documents, of at most `n` rounds: the removals and the documents that it leaves. -/
def shrink (maxSizeBytes : Nat) (destroyed : Entry → Nat) : Nat → List Document → Nat → List Removal × List Document
  | 0, docs, _ => ([], docs)
  | _ + 1, [], _ => ([], [])
  | _ + 1, ⟨docKey, []⟩ :: others, _ => ([], ⟨docKey, []⟩ :: others)
  | n + 1, ⟨docKey, entry :: newer⟩ :: others, currentSize =>
    let currentSize := subtract currentSize (sizeAfterErase destroyed entry newer)
    if currentSize ≤ maxSizeBytes then ([⟨docKey, entry, newer, others⟩], ⟨docKey, newer⟩ :: others)
    else
      let r := shrink maxSizeBytes destroyed n (reorder ⟨docKey, newer⟩ others) currentSize
      (⟨docKey, entry, newer, others⟩ :: r.1, if newer = [] then ⟨docKey, []⟩ :: r.2 else r.2)

def entryCount (docs : List Document) : Nat := (docs.flatMap Document.entries).length

/-- The old versions of every document are removed. -/
def deleteOldVersions (s : State) (oldestTimestamp : Nat) : State :=
  (s.quarantineMap.map Document.docKey).foldl (fun s docKey => deleteOldQuarantineVersions s docKey oldestTimestamp) s

/-- `sort` is `std::sort` with `sortsBefore`.  The second component are the removals for space. -/
def makeQuarantineSpace (sort : List Document → List Document) (destroyed : Entry → Nat) (now : Nat) (s : State)
    (headroomBytes : Nat) : State × List Removal :=
  if !s.isEnabled then (s, [])
  else
    let s := deleteOldVersions s (subtract now s.maxAgeSecs)
    let currentSize := (quarantineSize s.quarantineMap + headroomBytes) % 2 ^ 64
    if currentSize ≤ s.maxSizeBytes then (s, [])
    else
      let docs := sort (s.quarantineMap.filter fun d => d.entries ≠ [])
      let r := shrink s.maxSizeBytes destroyed (entryCount docs) docs currentSize
      ({ s with
          quarantineMap := (s.quarantineMap.filter fun d => d.entries = []) ++ r.2
          removedFiles := s.removedFiles ++ r.1.map fun removal => removal.entry.fullPath }, r.1)

/-! ### What it is for -/

/-- The size of the files of the documents. -/
def totalSize (docs : List Document) : Nat := ((docs.flatMap Document.entries).map Entry.size).sum

/-- The entry, in front of the newer ones of its document, is within the version and age limits. -/
def Within (maxVersions oldestTimestamp : Nat) (entry : Entry) (newer : List Entry) : Prop :=
  newer.length < maxVersions ∧ oldestTimestamp ≤ entry.secondsSinceEpoch

/-- The files and the headroom are not too large, or there are no files. -/
def Fits (maxSizeBytes headroomBytes : Nat) (docs : List Document) : Prop :=
  totalSize docs + headroomBytes ≤ maxSizeBytes ∨ ∀ d ∈ docs, d.entries = []

/-- The oldest entry of a document with the most versions, and of these of the one with the oldest entry. -/
structure Removal.IsVictim (r : Removal) : Prop where
  oldest : ∀ e ∈ r.newer, r.entry.secondsSinceEpoch ≤ e.secondsSinceEpoch
  most : ∀ d ∈ r.others, d.entries.length ≤ r.document.entries.length
  equals : ∀ d ∈ r.others, d.entries.length = r.document.entries.length →
    ∀ e ∈ d.entries, r.entry.secondsSinceEpoch ≤ e.secondsSinceEpoch

/-- The removals make space: what is left fits, what is within the limits is removed only while the files are too
large, and every removed entry is the right one. -/
structure Spacious (oldestTimestamp headroomBytes : Nat) (s s' : State) (removals : List Removal) : Prop where
  fits : Fits s.maxSizeBytes headroomBytes s'.quarantineMap
  culled : ∀ docKey older entry newer, s.container docKey = older ++ entry :: newer →
    Within s.maxVersions oldestTimestamp entry newer →
    ∃ older', (deleteOldVersions s oldestTimestamp).container docKey = older' ++ entry :: newer
  needed : ∀ r ∈ removals, Within s.maxVersions oldestTimestamp r.entry r.newer →
    s.maxSizeBytes < totalSize r.documents + headroomBytes
  victims : ∀ r ∈ removals, r.IsVictim

/-! ### When it does so -/

/-- The first document that no other one comes before is brought to the front. -/
def lead : List Document → List Document
  | [] => []
  | d :: docs =>
    match lead docs with
    | [] => [d]
    | e :: rest => if sortsBefore e d then e :: d :: rest else d :: docs

/-- The entries of the documents in the order in which they are to be removed, `n` of them at most: each is the oldest
one of the leading document.  Among equals the document goes on that has lost the last entry. -/
def removalOrder : Nat → List Document → List Removal
  | 0, _ => []
  | n + 1, docs =>
    match lead docs with
    | ⟨docKey, entry :: newer⟩ :: others =>
      ⟨docKey, entry, newer, others⟩ :: removalOrder n (if newer = [] then others else ⟨docKey, newer⟩ :: others)
    | _ => []

/-- The entry is of one of these documents, or they have no entries left. -/
def Removal.IsOf (r : Removal) (docKeys : List String) : Prop :=
    r.docKey ∈ docKeys ∨ ∀ d ∈ r.others, d.docKey ∉ docKeys

/-- A size without those of the entries behind the removed ones, in 64 bits. -/
def shiftedSize (destroyed : Entry → Nat) (size : Nat) (removed : List Removal) : Int :=
  (size - (removed.map fun r => (sizeAfterErase destroyed r.entry r.newer : Int)).sum) % 2 ^ 64

/-- The documents that have entries before the first of the removals. -/
def leftBefore : List Removal → List Document
  | [] => []
  | r :: _ => r.documents

/-- Up to the first shifted size that is not above the limit: it is not below it before the files fit, nor above it
behind that, unless the next entry is beyond the other limits; and the entries are of the first documents. -/
def InStep (s : State) (oldestTimestamp headroomBytes : Nat) (destroyed : Entry → Nat) (docKeys : List String)
    (order : List Removal) (size : Nat) : Prop :=
  ∀ removed left, order = removed ++ left →
    (∀ earlier later, removed = earlier ++ later → later ≠ [] → s.maxSizeBytes < shiftedSize destroyed size earlier) →
    (shiftedSize destroyed size removed ≤ s.maxSizeBytes → Fits s.maxSizeBytes headroomBytes (leftBefore left)) ∧
      (s.maxSizeBytes < shiftedSize destroyed size removed → ∀ r ∈ left.head?, r.IsOf docKeys ∧
        (Within s.maxVersions oldestTimestamp r.entry r.newer →
          s.maxSizeBytes < totalSize r.documents + headroomBytes))

/-- The documents that have entries when the old versions are removed, as they are sorted. -/
def sortedDocuments (sort : List Document → List Document) (now : Nat) (s : State) : List Document :=
  sort ((deleteOldVersions s (subtract now s.maxAgeSecs)).quarantineMap.filter fun d => d.entries ≠ [])

/-! ### The rounds of the loop -/

/-- The running size is above the limit exactly when entries have to be removed; it may be above it while the next
entry to be removed is beyond the other limits. -/
structure Tells (s : State) (oldestTimestamp headroomBytes : Nat) (docs : List Document) (currentSize : Nat) :
    Prop where
  below : currentSize ≤ s.maxSizeBytes → Fits s.maxSizeBytes headroomBytes docs
  above : s.maxSizeBytes < currentSize → ∀ docKey entry newer others, docs = ⟨docKey, entry :: newer⟩ :: others →
    Within s.maxVersions oldestTimestamp entry newer → s.maxSizeBytes < totalSize docs + headroomBytes

/-- No other document comes before the first one. -/
def Ranked (first : Document) (others : List Document) : Prop := ∀ d ∈ others, sortsBefore d first = false

/-- In every round of the loop the running size tells what to do, and the first document comes first. -/
def Accurate (s : State) (oldestTimestamp headroomBytes : Nat) (destroyed : Entry → Nat) :
    Nat → List Document → Nat → Prop
  | n + 1, ⟨docKey, entry :: newer⟩ :: others, currentSize =>
    Tells s oldestTimestamp headroomBytes (⟨docKey, entry :: newer⟩ :: others) currentSize ∧
      (s.maxSizeBytes < currentSize → Ranked ⟨docKey, entry :: newer⟩ others ∧
        Accurate s oldestTimestamp headroomBytes destroyed n (reorder ⟨docKey, newer⟩ others)
          (subtract currentSize (sizeAfterErase destroyed entry newer)))
  | _, docs, currentSize => Tells s oldestTimestamp headroomBytes docs currentSize

/-! ### The deletion of old versions -/

section Delete

variable {s : State} {docKey docKey' : String} {oldestTimestamp : Nat}

variable (oldestTimestamp) in
theorem scanAge_before (i acc : Nat) (container : List Entry) {m : Nat}
    (hm : i + m < scanAge oldestTimestamp i acc container)
    (hacc : acc ≤ i) : ∀ e ∈ container[m]?, e.secondsSinceEpoch < oldestTimestamp := by
  induction container generalizing i acc m with
  | nil => simp
  | cons e container ih =>
    by_cases he : oldestTimestamp ≤ e.secondsSinceEpoch
    · rw [scanAge, if_pos he] at hm
      omega
    · rw [scanAge, if_neg he] at hm
      cases m with
      | zero =>
        intro e' he'
        obtain rfl : e = e' := by simpa using he'
        exact Nat.lt_of_not_le he
      | succ m =>
        intro e' he'
        rw [List.getElem?_cons_succ] at he'
        exact ih (i + 1) i (by omega) (Nat.le_succ _) e' he'

/-- Only entries beyond the limits are deleted. -/
theorem not_within_of_lt_excessAge {maxVersions : Nat} {older newer : List Entry} {entry : Entry}
    (h : older.length < excessAge maxVersions oldestTimestamp (older ++ entry :: newer)) :
    ¬ Within maxVersions oldestTimestamp entry newer := by
  rintro ⟨hfew, hrecent⟩
  unfold excessAge at h
  dsimp only at h
  generalize hi :
    (if maxVersions < (older ++ entry :: newer).length then (older ++ entry :: newer).length - maxVersions
    else 0) = i at h
  have hle : i ≤ older.length := by
    rw [← hi]
    simp only [List.length_append, List.length_cons]
    split <;> omega
  have hold := scanAge_before oldestTimestamp i 0 ((older ++ entry :: newer).drop i)
    (m := older.length - i) (by omega) (Nat.zero_le _) entry
    (by rw [List.getElem?_drop, Nat.add_sub_cancel' hle]; simp)
  omega

private theorem find_map_ne (docs : List Document) (entries : List Entry) (h : docKey' ≠ docKey) :
    ((docs.map fun d => if d.docKey = docKey then { d with entries := entries } else d).find?
      fun d => d.docKey = docKey').map Document.entries =
      (docs.find? fun d => d.docKey = docKey').map Document.entries := by
  induction docs with
  | nil => rfl
  | cons d docs ih =>
    by_cases hd : d.docKey = docKey
    · have hne : d.docKey ≠ docKey' := fun hkey => h (hkey ▸ hd)
      simpa [hd, hne, Ne.symm h] using ih
    · by_cases hd' : d.docKey = docKey'
      · simp [hd', h]
      · simpa [hd, hd'] using ih

theorem container_setContainer_of_ne (entries : List Entry) (h : docKey' ≠ docKey) :
    (s.setContainer docKey entries).container docKey' = s.container docKey' := by
  unfold State.setContainer State.container
  split
  · exact congrArg (·.getD []) (find_map_ne _ _ h)
  · simp [List.find?_append, Ne.symm h]

@[simp] theorem maxVersions_deleteOldQuarantineVersions :
    (deleteOldQuarantineVersions s docKey oldestTimestamp).maxVersions = s.maxVersions := by
  unfold deleteOldQuarantineVersions State.setContainer
  split
  · rfl
  · dsimp only
    split <;> rfl

@[simp] theorem maxSizeBytes_deleteOldQuarantineVersions :
    (deleteOldQuarantineVersions s docKey oldestTimestamp).maxSizeBytes = s.maxSizeBytes := by
  unfold deleteOldQuarantineVersions State.setContainer
  split
  · rfl
  · dsimp only
    split <;> rfl

variable (docKey) in
/-- An entry within the limits is kept, with the newer ones. -/
theorem deleteOldQuarantineVersions_keeps {older newer : List Entry} {entry : Entry}
    (h : s.container docKey' = older ++ entry :: newer) (hwithin : Within s.maxVersions oldestTimestamp entry newer) :
    ∃ older', (deleteOldQuarantineVersions s docKey oldestTimestamp).container docKey' =
      older' ++ entry :: newer := by
  by_cases hkey : docKey' = docKey
  · subst hkey
    obtain ⟨n, hn, hkept, -⟩ := deleteOldQuarantineVersions_eq s docKey' oldestTimestamp
    have hle : n ≤ older.length := by
      rcases hn with rfl | rfl
      · exact Nat.zero_le _
      · by_contra hlt
        rw [h] at hlt
        exact not_within_of_lt_excessAge (Nat.lt_of_not_le hlt) hwithin
    exact ⟨older.drop n, by rw [hkept, h, List.drop_append_of_le_length hle]⟩
  · refine ⟨older, ?_⟩
    rw [← h]
    unfold deleteOldQuarantineVersions
    split
    · rfl
    · exact container_setContainer_of_ne _ hkey

private theorem foldl_keeps (docKeys : List String) {older newer : List Entry} {entry : Entry}
    (h : s.container docKey' = older ++ entry :: newer) (hwithin : Within s.maxVersions oldestTimestamp entry newer) :
    ∃ older',
      (docKeys.foldl (fun s docKey => deleteOldQuarantineVersions s docKey oldestTimestamp) s).container docKey' =
        older' ++ entry :: newer := by
  induction docKeys generalizing s older with
  | nil => exact ⟨older, h⟩
  | cons docKey docKeys ih =>
    obtain ⟨older', h'⟩ := deleteOldQuarantineVersions_keeps docKey h hwithin
    exact ih h' (by simpa using hwithin)

private theorem foldl_limits (docKeys : List String) :
    (docKeys.foldl (fun s docKey => deleteOldQuarantineVersions s docKey oldestTimestamp) s).maxSizeBytes =
      s.maxSizeBytes := by
  induction docKeys generalizing s with
  | nil => rfl
  | cons docKey docKeys ih => simpa using ih (s := deleteOldQuarantineVersions s docKey oldestTimestamp)

theorem sorted_container (h : ∀ d ∈ s.quarantineMap, d.Sorted) :
    (s.container docKey).Pairwise fun a b => a.secondsSinceEpoch ≤ b.secondsSinceEpoch := by
  unfold State.container
  cases hfind : s.quarantineMap.find? fun d => d.docKey = docKey with
  | none => exact List.Pairwise.nil
  | some d => exact h d (List.mem_of_find?_eq_some hfind)

theorem deleteOldQuarantineVersions_sorted (h : ∀ d ∈ s.quarantineMap, d.Sorted) :
    ∀ d ∈ (deleteOldQuarantineVersions s docKey oldestTimestamp).quarantineMap, d.Sorted := by
  unfold deleteOldQuarantineVersions State.setContainer
  split
  · exact h
  · intro d hd
    dsimp only at hd
    split at hd
    · obtain ⟨d', hd', rfl⟩ := List.mem_map.1 hd
      split
      · exact (sorted_container h).sublist (List.drop_sublist ..)
      · exact h d' hd'
    · rcases List.mem_append.1 hd with hd | hd
      · exact h d hd
      · rw [List.mem_singleton] at hd
        subst hd
        exact (sorted_container h).sublist (List.drop_sublist ..)

variable (oldestTimestamp) in
theorem deleteOldQuarantineVersions_keys (h : docKey ∈ s.quarantineMap.map Document.docKey) :
    (deleteOldQuarantineVersions s docKey oldestTimestamp).quarantineMap.map Document.docKey =
      s.quarantineMap.map Document.docKey := by
  unfold deleteOldQuarantineVersions State.setContainer
  split
  · rfl
  · have hany : (s.quarantineMap.any fun d => d.docKey = docKey) = true := by
      obtain ⟨d, hd, hkey⟩ := List.mem_map.1 h
      exact List.any_eq_true.2 ⟨d, hd, by simpa using hkey⟩
    dsimp only
    rw [if_pos hany, List.map_map]
    refine List.map_congr_left fun d _ => ?_
    dsimp only [Function.comp]
    split <;> rfl

variable (s oldestTimestamp) in
/-- The map has the same documents. -/
theorem deleteOldVersions_keys :
    (deleteOldVersions s oldestTimestamp).quarantineMap.map Document.docKey =
      s.quarantineMap.map Document.docKey := by
  have hkeys : ∀ (docKeys : List String) (s : State),
    (∀ docKey ∈ docKeys, docKey ∈ s.quarantineMap.map Document.docKey) →
      (docKeys.foldl (fun s docKey => deleteOldQuarantineVersions s docKey oldestTimestamp) s).quarantineMap.map
        Document.docKey = s.quarantineMap.map Document.docKey := by
    intro docKeys
    induction docKeys with
    | nil => exact fun s _ => rfl
    | cons docKey docKeys ih =>
      intro s h
      have hfirst := deleteOldQuarantineVersions_keys oldestTimestamp (h docKey List.mem_cons_self)
      rw [List.foldl_cons, ih _ fun k hk => hfirst ▸ h k (List.mem_cons_of_mem _ hk), hfirst]
  exact hkeys _ s fun _ => id

variable (oldestTimestamp) in
theorem deleteOldVersions_sorted (h : ∀ d ∈ s.quarantineMap, d.Sorted) :
    ∀ d ∈ (deleteOldVersions s oldestTimestamp).quarantineMap, d.Sorted := by
  unfold deleteOldVersions
  generalize s.quarantineMap.map Document.docKey = docKeys
  induction docKeys generalizing s with
  | nil => exact h
  | cons docKey docKeys ih => exact ih (deleteOldQuarantineVersions_sorted h)

end Delete

/-! ### The loop -/

section Loop

variable {s : State} {oldestTimestamp headroomBytes n currentSize maxSizeBytes : Nat} {destroyed : Entry → Nat}
  {docKey : String} {entry : Entry} {newer : List Entry} {first : Document} {others docs docs' : List Document}

theorem reorder_perm (h : first.entries ≠ []) : (reorder first others).Perm (first :: others) := by
  unfold reorder
  rw [if_neg h]
  cases others with
  | nil => exact List.Perm.refl _
  | cons second more =>
    dsimp only
    split
    · exact List.Perm.swap _ _ _
    · exact List.Perm.refl _

theorem totalSize_perm (h : docs.Perm docs') : totalSize docs = totalSize docs' :=
  ((h.flatMap_right Document.entries).map Entry.size).sum_eq

theorem totalSize_filter : totalSize (docs.filter fun d => d.entries ≠ []) = totalSize docs := by
  unfold totalSize
  induction docs with
  | nil => rfl
  | cons d docs ih =>
    by_cases h : d.entries = []
    · rw [List.filter_cons_of_neg (by simpa using h), ih, List.flatMap_cons, h, List.nil_append]
    · rw [List.filter_cons_of_pos (by simpa using h)]
      simp only [List.flatMap_cons, List.map_append, List.sum_append, ih]

theorem Fits.perm (h : docs.Perm docs') :
    Fits maxSizeBytes headroomBytes docs ↔ Fits maxSizeBytes headroomBytes docs' := by
  unfold Fits
  rw [totalSize_perm h]
  simp only [h.mem_iff]

theorem fits_cons_nil : Fits maxSizeBytes headroomBytes (⟨docKey, []⟩ :: docs) ↔
    Fits maxSizeBytes headroomBytes docs := by
  simp [Fits, totalSize]

/-- Documents without entries do not count. -/
theorem fits_filter :
    Fits maxSizeBytes headroomBytes (docs.filter fun d => d.entries ≠ []) ↔ Fits maxSizeBytes headroomBytes docs := by
  have hempty : (∀ d ∈ docs.filter fun d => d.entries ≠ [], d.entries = []) ↔ ∀ d ∈ docs, d.entries = [] := by
    simp only [List.mem_filter, decide_eq_true_eq]
    exact ⟨fun h d hd => by_contra fun hne => hne (h d ⟨hd, hne⟩), fun h d hd => h d hd.1⟩
  unfold Fits
  rw [totalSize_filter, hempty]

theorem fits_append_empty (empty : List Document) (h : ∀ d ∈ empty, d.entries = []) :
    Fits maxSizeBytes headroomBytes (empty ++ docs) ↔ Fits maxSizeBytes headroomBytes docs := by
  induction empty with
  | nil => rfl
  | cons d empty ih =>
    obtain ⟨docKey, entries⟩ := d
    obtain rfl : entries = [] := h ⟨docKey, entries⟩ (List.mem_cons_self ..)
    rw [List.cons_append, fits_cons_nil]
    exact ih fun d hd => h d (List.mem_cons_of_mem _ hd)

theorem fits_reorder :
    Fits maxSizeBytes headroomBytes (reorder ⟨docKey, newer⟩ others) ↔
      Fits maxSizeBytes headroomBytes (⟨docKey, newer⟩ :: others) := by
  by_cases h : newer = []
  · subst h
    rw [fits_cons_nil]
    rfl
  · exact Fits.perm (reorder_perm h)

theorem entryCount_reorder :
    entryCount (reorder ⟨docKey, newer⟩ others) = entryCount (⟨docKey, newer⟩ :: others) := by
  by_cases h : newer = []
  · subst h
    rfl
  · exact (List.Perm.flatMap_right _ (reorder_perm h)).length_eq

/-- What holds of the shortened document and of the other ones holds of the documents in order. -/
theorem forall_reorder {p : Document → Prop} (hothers : ∀ d ∈ others, p d) (hfirst : first.entries ≠ [] → p first) :
    ∀ d ∈ reorder first others, p d := by
  intro d hd
  by_cases h : first.entries = []
  · unfold reorder at hd
    rw [if_pos h] at hd
    exact hothers d hd
  · rcases List.mem_cons.1 ((reorder_perm h).mem_iff.1 hd) with rfl | hd
    · exact hfirst h
    · exact hothers d hd

/-- For sorted containers the order of the documents says which entry is to be removed. -/
theorem isVictim_iff (hfirst : (⟨docKey, entry :: newer⟩ : Document).Sorted) (hsorted : ∀ d ∈ others, d.Sorted)
    (hne : ∀ d ∈ others, d.entries ≠ []) :
    (⟨docKey, entry, newer, others⟩ : Removal).IsVictim ↔ Ranked ⟨docKey, entry :: newer⟩ others := by
  have hfront : ∀ d ∈ others, ((∀ e ∈ d.entries, entry.secondsSinceEpoch ≤ e.secondsSinceEpoch) ↔
      entry.secondsSinceEpoch ≤ d.front) := by
    intro d hd
    have hd' := hsorted d hd
    unfold Document.Sorted at hd'
    cases hentries : d.entries with
    | nil => exact absurd hentries (hne d hd)
    | cons e entries =>
      rw [hentries, List.pairwise_cons] at hd'
      simp only [Document.front, hentries, List.head?_cons, Option.map_some, Option.getD_some, List.mem_cons,
        forall_eq_or_imp, and_iff_left_iff_imp]
      exact fun hle e' he' => hle.trans (hd'.1 e' he')
  constructor
  · intro h d hd
    have hmost := h.most d hd
    simp only [Removal.document, List.length_cons] at hmost
    unfold sortsBefore
    split
    · simp only [List.length_cons, decide_eq_false_iff_not]
      omega
    · rename_i heq
      have hlen : d.entries.length = (entry :: newer).length := not_not.1 heq
      have hle := (hfront d hd).1 (h.equals d hd hlen)
      rw [decide_eq_false_iff_not]
      exact Nat.not_lt.2 hle
  · intro h
    have hbefore : ∀ d ∈ others, d.entries.length ≤ newer.length + 1 ∧
        (d.entries.length = newer.length + 1 → entry.secondsSinceEpoch ≤ d.front) := by
      intro d hd
      have hd' := h d hd
      unfold sortsBefore at hd'
      split at hd'
      · simp only [List.length_cons, decide_eq_false_iff_not] at hd'
        rename_i hne
        simp only [List.length_cons] at hne
        exact ⟨by omega, fun heq => absurd heq hne⟩
      · rename_i heq
        have hlen : d.entries.length = (entry :: newer).length := not_not.1 heq
        rw [decide_eq_false_iff_not] at hd'
        exact ⟨hlen.le, fun _ => Nat.not_lt.1 hd'⟩
    refine ⟨(List.pairwise_cons.1 hfirst).1, fun d hd => (hbefore d hd).1, fun d hd hlen => ?_⟩
    exact (hfront d hd).2 ((hbefore d hd).2 hlen)

/-- Where no round is left, the running size has to be right. -/
theorem accurate_of_le (h : currentSize ≤ s.maxSizeBytes) :
    Accurate s oldestTimestamp headroomBytes destroyed n docs currentSize ↔
      Fits s.maxSizeBytes headroomBytes docs := by
  have htells : ∀ docs, Tells s oldestTimestamp headroomBytes docs currentSize ↔
      Fits s.maxSizeBytes headroomBytes docs :=
    fun docs => ⟨fun htells => htells.below h, fun hfits => ⟨fun _ => hfits, fun hlt => absurd h (Nat.not_le.2 hlt)⟩⟩
  unfold Accurate
  split
  · rw [htells]
    exact and_iff_left fun hlt => absurd h (Nat.not_le.2 hlt)
  · exact htells _

/-- Where an entry is removed, the running size has to be right unless the entry is beyond the other limits. -/
theorem tells_iff (hcurrent : s.maxSizeBytes < currentSize) :
    Tells s oldestTimestamp headroomBytes (⟨docKey, entry :: newer⟩ :: others) currentSize ↔
      (Within s.maxVersions oldestTimestamp entry newer →
        s.maxSizeBytes < totalSize (⟨docKey, entry :: newer⟩ :: others) + headroomBytes) := by
  constructor
  · exact fun h => h.above hcurrent docKey entry newer others rfl
  · intro h
    refine ⟨fun hle => absurd hle (Nat.not_le.2 hcurrent), ?_⟩
    rintro _ docKey' entry' newer' others' heq hwithin
    simp only [List.cons.injEq, Document.mk.injEq] at heq
    obtain ⟨⟨-, rfl, rfl⟩, -⟩ := heq
    exact h hwithin

variable (oldestTimestamp headroomBytes destroyed) in
/-- The rounds of the loop make space exactly when they are accurate. -/
theorem shrink_iff (hsorted : ∀ d ∈ docs, d.Sorted) (hne : ∀ d ∈ docs, d.entries ≠ []) (hn : entryCount docs ≤ n)
    (hcurrent : s.maxSizeBytes < currentSize) :
    (Fits s.maxSizeBytes headroomBytes (shrink s.maxSizeBytes destroyed n docs currentSize).2 ∧
        ∀ r ∈ (shrink s.maxSizeBytes destroyed n docs currentSize).1,
          (Within s.maxVersions oldestTimestamp r.entry r.newer →
            s.maxSizeBytes < totalSize r.documents + headroomBytes) ∧ r.IsVictim) ↔
      Accurate s oldestTimestamp headroomBytes destroyed n docs currentSize := by
  induction n generalizing docs currentSize with
  | zero =>
    have hnil : docs = [] := by
      cases docs with
      | nil => rfl
      | cons d docs =>
        have hpos := List.length_pos_iff.2 (hne d (List.mem_cons_self ..))
        simp only [entryCount, List.flatMap_cons, List.length_append] at hn
        omega
    subst hnil
    simp only [shrink, Accurate]
    exact ⟨fun _ => ⟨fun h => absurd h (Nat.not_le.2 hcurrent), by simp⟩, fun _ => ⟨Or.inr (by simp), by simp⟩⟩
  | succ n ih =>
    match docs with
    | [] =>
      simp only [shrink, Accurate]
      exact ⟨fun _ => ⟨fun h => absurd h (Nat.not_le.2 hcurrent), by simp⟩, fun _ => ⟨Or.inr (by simp), by simp⟩⟩
    | ⟨docKey, []⟩ :: others => exact absurd rfl (hne ⟨docKey, []⟩ (List.mem_cons_self ..))
    | ⟨docKey, entry :: newer⟩ :: others =>
      have hfirst := hsorted _ (List.mem_cons_self ..)
      have hothers : ∀ d ∈ others, d.Sorted := fun d hd => hsorted d (List.mem_cons_of_mem _ hd)
      have hne' : ∀ d ∈ others, d.entries ≠ [] := fun d hd => hne d (List.mem_cons_of_mem _ hd)
      have hvictim := isVictim_iff hfirst hothers hne'
      simp only [shrink, Accurate, tells_iff hcurrent, hcurrent, forall_const, ← hvictim]
      split
      · -- the loop ends with this removal
        rename_i hle
        have hlast : Accurate s oldestTimestamp headroomBytes destroyed n (reorder ⟨docKey, newer⟩ others)
              (subtract currentSize (sizeAfterErase destroyed entry newer)) ↔
            Fits s.maxSizeBytes headroomBytes (⟨docKey, newer⟩ :: others) := by
          rw [← fits_reorder]
          exact accurate_of_le hle
        rw [hlast]
        simp only [List.mem_singleton, forall_eq, Removal.documents, Removal.document]
        tauto
      · rename_i hlt
        have hnext := @ih (subtract currentSize (sizeAfterErase destroyed entry newer))
          (reorder ⟨docKey, newer⟩ others)
          (forall_reorder hothers fun _ => (List.pairwise_cons.1 hfirst).2) (forall_reorder hne' id)
          (by
            rw [entryCount_reorder]
            simp only [entryCount, List.flatMap_cons, List.length_append, List.length_cons] at hn ⊢
            omega)
          (Nat.lt_of_not_le hlt)
        rw [← hnext]
        have hfits : Fits s.maxSizeBytes headroomBytes
            (if newer = [] then ⟨docKey, []⟩ :: (shrink s.maxSizeBytes destroyed n (reorder ⟨docKey, newer⟩ others)
              (subtract currentSize (sizeAfterErase destroyed entry newer))).2
            else (shrink s.maxSizeBytes destroyed n (reorder ⟨docKey, newer⟩ others)
              (subtract currentSize (sizeAfterErase destroyed entry newer))).2) ↔
            Fits s.maxSizeBytes headroomBytes (shrink s.maxSizeBytes destroyed n (reorder ⟨docKey, newer⟩ others)
              (subtract currentSize (sizeAfterErase destroyed entry newer))).2 := by
          split
          · exact fits_cons_nil
          · exact Iff.rfl
        rw [hfits]
        simp only [List.mem_cons, forall_eq_or_imp, Removal.documents, Removal.document]
        tauto

end Loop

/-! ### The order of the removals -/

section Order

variable {s : State} {oldestTimestamp headroomBytes n size currentSize : Nat} {destroyed : Entry → Nat}
  {d e f : Document}
  {r : Removal} {docKey : String} {docKeys : List String} {entry : Entry} {newer : List Entry} {first : Document}
  {docs others rest : List Document} {order : List Removal}

theorem sortsBefore_iff : sortsBefore d e = true ↔ e.entries.length < d.entries.length ∨
    d.entries.length = e.entries.length ∧ d.front < e.front := by
  unfold sortsBefore
  split
  · rename_i hne
    rw [decide_eq_true_iff]
    exact ⟨Or.inl, fun h => h.resolve_right fun heq => hne heq.1⟩
  · rename_i heq
    rw [decide_eq_true_iff]
    exact ⟨fun h => .inr ⟨not_not.1 heq, h⟩, fun h => (h.resolve_left (by omega)).2⟩

theorem not_sortsBefore_iff : sortsBefore d e = false ↔ ¬ (e.entries.length < d.entries.length ∨
    d.entries.length = e.entries.length ∧ d.front < e.front) := by
  rw [← sortsBefore_iff, Bool.not_eq_true]

theorem not_sortsBefore_trans (h : sortsBefore e d = false) (h' : sortsBefore f e = false) :
    sortsBefore f d = false := by
  rw [not_sortsBefore_iff] at h h' ⊢
  omega

theorem not_sortsBefore_of_sortsBefore (h : sortsBefore d e = true) : sortsBefore e d = false := by
  rw [sortsBefore_iff] at h
  rw [not_sortsBefore_iff]
  omega

theorem lead_perm (docs : List Document) : (lead docs).Perm docs := by
  induction docs with
  | nil => exact List.Perm.refl _
  | cons d docs ih =>
    unfold lead
    split
    · rename_i hnil
      rw [hnil, List.nil_perm] at ih
      rw [ih]
    · rename_i e rest hlead
      rw [hlead] at ih
      split
      · exact (List.Perm.swap d e rest).trans (ih.cons d)
      · exact List.Perm.refl _

/-- No document comes before the leading one. -/
theorem lead_ranked (h : lead docs = d :: others) : Ranked d others := by
  induction docs generalizing d others with
  | nil => cases h
  | cons first docs ih =>
    unfold lead at h
    split at h
    · cases h
      exact fun _ hmem => absurd hmem List.not_mem_nil
    · rename_i e rest hlead
      have hranked := ih hlead
      split at h
      · rename_i hbefore
        cases h
        intro d' hd'
        rcases List.mem_cons.1 hd' with rfl | hd'
        · exact not_sortsBefore_of_sortsBefore hbefore
        · exact hranked d' hd'
      · rename_i hbefore
        cases h
        intro d' hd'
        have hmem : d' ∈ e :: rest := by
          rw [← hlead]
          exact (lead_perm docs).mem_iff.2 hd'
        have he : sortsBefore e first = false := by simpa using hbefore
        rcases List.mem_cons.1 hmem with heq | hmem
        · rw [heq]
          exact he
        · exact not_sortsBefore_trans he (hranked d' hmem)

theorem lead_eq_self (h : Ranked d docs) : lead (d :: docs) = d :: docs := by
  unfold lead
  split
  · rename_i hnil
    have hperm := lead_perm docs
    rw [hnil, List.nil_perm] at hperm
    rw [hperm]
  · rename_i e rest hlead
    have hmem : e ∈ docs := (lead_perm docs).mem_iff.1 (hlead ▸ List.mem_cons_self)
    rw [if_neg (by simp [h e hmem])]

/-- Where the top two are enough, the leading document is the first of them. -/
theorem lead_reorder (hne : first.entries ≠ []) (hreorder : reorder first others = d :: rest) (h : Ranked d rest) :
    lead (first :: others) = d :: rest := by
  unfold reorder at hreorder
  rw [if_neg hne] at hreorder
  cases others with
  | nil =>
    cases hreorder
    rfl
  | cons second more =>
    dsimp only at hreorder
    split at hreorder
    · rename_i hbefore
      cases hreorder
      unfold lead
      rw [lead_eq_self fun d hd => h d (List.mem_cons_of_mem _ hd)]
      dsimp only
      rw [if_pos hbefore]
    · cases hreorder
      exact lead_eq_self h

/-- Every removal of the order is the right one. -/
theorem removalOrder_victims (hsorted : ∀ d ∈ docs, d.Sorted) (hne : ∀ d ∈ docs, d.entries ≠ []) :
    ∀ r ∈ removalOrder n docs, r.IsVictim := by
  induction n generalizing docs with
  | zero => exact fun _ hr => absurd hr List.not_mem_nil
  | succ n ih =>
    intro r hr
    unfold removalOrder at hr
    split at hr
    · rename_i docKey entry newer others hlead
      have hmem : ∀ d ∈ (⟨docKey, entry :: newer⟩ : Document) :: others, d ∈ docs := fun d hd =>
        (lead_perm docs).mem_iff.1 (hlead ▸ hd)
      have hfirst := hsorted _ (hmem _ List.mem_cons_self)
      have hothers : ∀ d ∈ others, d.Sorted ∧ d.entries ≠ [] := fun d hd =>
        ⟨hsorted d (hmem d (List.mem_cons_of_mem _ hd)), hne d (hmem d (List.mem_cons_of_mem _ hd))⟩
      rcases List.mem_cons.1 hr with rfl | hr
      · exact (isVictim_iff hfirst (fun d hd => (hothers d hd).1) fun d hd => (hothers d hd).2).2 (lead_ranked hlead)
      · split at hr
        · exact ih (fun d hd => (hothers d hd).1) (fun d hd => (hothers d hd).2) r hr
        · rename_i hnewer
          refine ih ?_ ?_ r hr
          · intro d hd
            rcases List.mem_cons.1 hd with rfl | hd
            · exact (List.pairwise_cons.1 hfirst).2
            · exact (hothers d hd).1
          · intro d hd
            rcases List.mem_cons.1 hd with rfl | hd
            · exact hnewer
            · exact (hothers d hd).2
    · cases hr

/-! ### The first two documents -/

/-- Documents that the loop has not yet come to. -/
def Waiting (docKeys : List String) (docs : List Document) : Prop :=
  docs.Pairwise (fun a b => sortsBefore b a = false) ∧ ∀ d ∈ docs, d.docKey ∉ docKeys

/-- The list of the loop while it removes the right entries: the first two documents, of which the second does not
come before the first one, and the waiting ones.  When the first two have become one, every document has a single
entry. -/
inductive Ordered (docKeys : List String) : List Document → Prop
  | two {first second : Document} {rest : List Document} : first.docKey ∈ docKeys → second.docKey ∈ docKeys →
      sortsBefore second first = false → Waiting docKeys rest → Ordered docKeys (first :: second :: rest)
  | one {first : Document} {rest : List Document} : first.docKey ∈ docKeys → Waiting docKeys rest →
      (rest = [] ∨ ∀ d ∈ first :: rest, d.entries.length = 1) → Ordered docKeys (first :: rest)
  | none {rest : List Document} : Waiting docKeys rest → (∀ d ∈ rest, d.entries.length = 1) → Ordered docKeys rest

theorem ordered_of_sorted (hsorted : docs.Pairwise fun a b => sortsBefore b a = false)
    (hkeys : (docs.map Document.docKey).Nodup) : Ordered ((docs.take 2).map Document.docKey) docs := by
  match docs with
  | [] => exact .none ⟨List.Pairwise.nil, by simp⟩ (by simp)
  | [d] => exact .one (by simp) ⟨List.Pairwise.nil, by simp⟩ (.inl rfl)
  | first :: second :: rest =>
    rw [List.pairwise_cons, List.pairwise_cons] at hsorted
    simp only [List.map_cons, List.nodup_cons, List.mem_cons, not_or] at hkeys
    refine .two (by simp) (by simp) (hsorted.1 second List.mem_cons_self) ⟨hsorted.2.2, fun d hd => ?_⟩
    have hmem : d.docKey ∈ rest.map Document.docKey := List.mem_map_of_mem hd
    simp only [List.take_succ_cons, List.take_zero, List.map_cons, List.map_nil, List.mem_cons, List.not_mem_nil,
      or_false]
    rintro (heq | heq)
    · exact hkeys.1.2 (heq ▸ hmem)
    · exact hkeys.2.1 (heq ▸ hmem)

/-- A right removal leaves such a list. -/
theorem Ordered.reorder (h : Ordered docKeys (⟨docKey, entry :: newer⟩ :: others))
    (hne : ∀ d ∈ others, d.entries ≠ [])
    (hranked : Ranked ⟨docKey, entry :: newer⟩ others) : Ordered docKeys (reorder ⟨docKey, newer⟩ others) := by
  have hsingle : newer = [] → ∀ d ∈ others, d.entries.length = 1 := by
    rintro rfl d hd
    have hpos := List.length_pos_iff.2 (hne d hd)
    have hle := hranked d hd
    rw [not_sortsBefore_iff] at hle
    simp only [List.length_cons, List.length_nil] at hle
    omega
  cases h with
  | @two _ second rest hfirst hsecond hbefore hwaiting =>
    unfold Quarantine.reorder
    split
    · rename_i hempty
      exact .one hsecond hwaiting (.inr (hsingle hempty))
    · dsimp only
      split
      · rename_i hswap
        exact .two hsecond hfirst (not_sortsBefore_of_sortsBefore hswap) hwaiting
      · rename_i hswap
        exact .two hfirst hsecond (by simpa using hswap) hwaiting
  | one hfirst hwaiting hrest =>
    unfold Quarantine.reorder
    split
    · rename_i hempty
      exact .none hwaiting (hsingle hempty)
    · rename_i hnewer
      rcases hrest with rfl | hall
      · exact .one hfirst hwaiting (.inl rfl)
      · have hone := hall _ List.mem_cons_self
        simp only [List.length_cons, Nat.add_eq_right, List.length_eq_zero_iff] at hone
        exact absurd hone hnewer
  | none hwaiting hall =>
    have hone := hall _ List.mem_cons_self
    simp only [List.length_cons, Nat.add_eq_right, List.length_eq_zero_iff] at hone
    unfold Quarantine.reorder
    rw [if_pos hone]
    exact .none ⟨(List.pairwise_cons.1 hwaiting.1).2, fun d hd => hwaiting.2 d (List.mem_cons_of_mem _ hd)⟩
      fun d hd => hall d (List.mem_cons_of_mem _ hd)

/-- The loop removes the right entry next exactly when the leading document is one of the first two, or these are
gone. -/
theorem Ordered.ranked_iff (h : Ordered docKeys (d :: others)) (hperm : (f :: rest).Perm (d :: others))
    (hf : Ranked f rest) (hlead : Ranked d others → f = d ∧ rest = others) :
    Ranked d others ↔ f.docKey ∈ docKeys ∨ ∀ e ∈ rest, e.docKey ∉ docKeys := by
  constructor
  · intro hranked
    obtain ⟨rfl, rfl⟩ := hlead hranked
    cases h with
    | two hfirst _ _ _ => exact .inl hfirst
    | one hfirst _ _ => exact .inl hfirst
    | none hwaiting _ => exact .inr fun e he => hwaiting.2 e (List.mem_cons_of_mem _ he)
  · intro hof
    by_contra hranked
    obtain ⟨z, hz, hbefore⟩ : ∃ z ∈ others, sortsBefore z d = true := by
      simpa [Ranked] using hranked
    -- nothing that does not come before the first document leads
    have hnot : ∀ t, sortsBefore t d = false → f ≠ t := by
      rintro t ht rfl
      have hzf : sortsBefore z f = true := by
        by_contra hno
        rw [not_sortsBefore_trans ht (by simpa using hno)] at hbefore
        cases hbefore
      rcases List.mem_cons.1 (hperm.mem_iff.2 (List.mem_cons_of_mem _ hz)) with rfl | hzrest
      · rw [not_sortsBefore_of_sortsBefore hzf] at hzf
        cases hzf
      · rw [hf z hzrest] at hzf
        cases hzf
    have hself : sortsBefore d d = false := not_sortsBefore_iff.2 (by omega)
    have hkey : d.docKey ∈ docKeys → f.docKey ∉ docKeys → False := by
      intro hd hfkey
      have hmem : d ∈ rest := by
        rcases List.mem_cons.1 (hperm.mem_iff.2 List.mem_cons_self) with rfl | hmem
        · exact absurd hd hfkey
        · exact hmem
      exact (hof.resolve_left hfkey) d hmem hd
    have hfmem := hperm.mem_iff.1 (List.mem_cons_self (a := f) (l := rest))
    cases h with
    | two hfirst hsecond hnext hwaiting =>
      refine hkey hfirst ?_
      rcases List.mem_cons.1 hfmem with heq | hfmem
      · exact absurd heq (hnot _ hself)
      · rcases List.mem_cons.1 hfmem with heq | hfmem
        · exact absurd heq (hnot _ hnext)
        · exact hwaiting.2 f hfmem
    | one hfirst hwaiting hrest =>
      refine hkey hfirst ?_
      rcases List.mem_cons.1 hfmem with heq | hfmem
      · exact absurd heq (hnot _ hself)
      · exact hwaiting.2 f hfmem
    | none hwaiting hall =>
      rw [(List.pairwise_cons.1 hwaiting.1).1 z hz] at hbefore
      cases hbefore

/-! ### The shifted sizes -/

theorem shiftedSize_nil (h : size < 2 ^ 64) : shiftedSize destroyed size [] = size := by
  simp only [shiftedSize, List.map_nil, List.sum_nil]
  omega

theorem shiftedSize_cons (removed : List Removal) : shiftedSize destroyed size (r :: removed) =
    shiftedSize destroyed (subtract size (sizeAfterErase destroyed r.entry r.newer)) removed := by
  unfold shiftedSize subtract
  rw [List.map_cons, List.sum_cons]
  generalize sizeAfterErase destroyed r.entry r.newer = behind
  generalize (removed.map fun r => (sizeAfterErase destroyed r.entry r.newer : Int)).sum = sum
  omega

theorem shiftedSize_mod (removed : List Removal) :
    shiftedSize destroyed (size % 2 ^ 64) removed = shiftedSize destroyed size removed := by
  unfold shiftedSize
  generalize (removed.map fun r => (sizeAfterErase destroyed r.entry r.newer : Int)).sum = sum
  omega

variable (s oldestTimestamp headroomBytes destroyed docKeys) in
/-- What the condition asks of the first removal and of the others. -/
theorem inStep_cons (hsize : size < 2 ^ 64) :
    InStep s oldestTimestamp headroomBytes destroyed docKeys (r :: order) size ↔
    (size ≤ s.maxSizeBytes → Fits s.maxSizeBytes headroomBytes r.documents) ∧
    (s.maxSizeBytes < size → (r.IsOf docKeys ∧
      (Within s.maxVersions oldestTimestamp r.entry r.newer →
        s.maxSizeBytes < totalSize r.documents + headroomBytes)) ∧
        InStep s oldestTimestamp headroomBytes destroyed docKeys order
          (subtract size (sizeAfterErase destroyed r.entry r.newer))) := by
  constructor
  · intro h
    have hfirst := h [] (r :: order) rfl (by simp)
    rw [shiftedSize_nil hsize] at hfirst
    refine ⟨fun hle => hfirst.1 (by exact_mod_cast hle), fun hlt => ⟨hfirst.2 (by exact_mod_cast hlt) r rfl, ?_⟩⟩
    intro removed left heq hearlier
    have hnext := h (r :: removed) left (by rw [heq]; rfl)
    rw [shiftedSize_cons] at hnext
    refine hnext fun earlier later hsplit hlater => ?_
    cases earlier with
    | nil =>
      rw [shiftedSize_nil hsize]
      exact_mod_cast hlt
    | cons r' earlier =>
      obtain ⟨rfl, htail⟩ := List.cons.inj hsplit
      rw [shiftedSize_cons]
      exact hearlier earlier later htail hlater
  · rintro ⟨hbelow, habove⟩ removed left heq hearlier
    cases removed with
    | nil =>
      obtain rfl : left = r :: order := heq.symm
      rw [shiftedSize_nil hsize]
      refine ⟨fun hle => hbelow (by exact_mod_cast hle), fun hlt r' hr' => ?_⟩
      obtain rfl : r = r' := by simpa using hr'
      exact (habove (by exact_mod_cast hlt)).1
    | cons r' removed =>
      obtain ⟨rfl, htail⟩ := List.cons.inj heq
      have hlt := hearlier [] (r :: removed) rfl (List.cons_ne_nil _ _)
      rw [shiftedSize_nil hsize] at hlt
      rw [shiftedSize_cons]
      refine (habove (by exact_mod_cast hlt)).2 removed left htail fun earlier later hsplit hlater => ?_
      rw [← shiftedSize_cons]
      exact hearlier (r :: earlier) later (by rw [hsplit]; rfl) hlater

theorem inStep_nil : InStep s oldestTimestamp headroomBytes destroyed docKeys [] size := by
  intro removed left heq _
  obtain ⟨rfl, rfl⟩ := List.append_eq_nil_iff.1 heq.symm
  exact ⟨fun _ => .inr (by simp [leftBefore]), fun _ r hr => by cases hr⟩

theorem subtract_lt (a b : Nat) : subtract a b < 2 ^ 64 := Nat.mod_lt _ (by decide)

variable (s oldestTimestamp headroomBytes destroyed) in
/-- The rounds of the loop are accurate exactly when they are in step with the order of the removals. -/
theorem accurate_iff_inStep {spec : List Document} (hord : Ordered docKeys docs) (hne : ∀ d ∈ docs, d.entries ≠ [])
    (hn : entryCount docs ≤ n) (hcurrent : currentSize < 2 ^ 64) (hperm : spec.Perm docs)
    (hlead : ∀ d others, docs = d :: others → Ranked d others → lead spec = d :: others) :
    Accurate s oldestTimestamp headroomBytes destroyed n docs currentSize ↔
      InStep s oldestTimestamp headroomBytes destroyed docKeys (removalOrder n spec) currentSize := by
  induction n generalizing docs spec currentSize with
  | zero =>
    have hnil : docs = [] := by
      cases docs with
      | nil => rfl
      | cons d docs =>
        have hpos := List.length_pos_iff.2 (hne d List.mem_cons_self)
        simp only [entryCount, List.flatMap_cons, List.length_append] at hn
        omega
    subst hnil
    exact iff_of_true ⟨fun _ => .inr (by simp), by simp⟩ inStep_nil
  | succ n ih =>
    match docs with
    | [] =>
      obtain rfl := List.perm_nil.1 hperm
      exact iff_of_true ⟨fun _ => .inr (by simp), by simp⟩ inStep_nil
    | ⟨docKey, []⟩ :: others => exact absurd rfl (hne ⟨docKey, []⟩ List.mem_cons_self)
    | ⟨docKey, entry :: newer⟩ :: others =>
      have hlperm := (lead_perm spec).trans hperm
      have hothers : ∀ d ∈ others, d.entries ≠ [] := fun d hd => hne d (List.mem_cons_of_mem _ hd)
      obtain ⟨docKey', entry', newer', rest, hspec⟩ : ∃ docKey' entry' newer' rest,
          lead spec = ⟨docKey', entry' :: newer'⟩ :: rest := by
        cases hspec : lead spec with
        | nil => rw [hspec, List.nil_perm] at hlperm; cases hlperm
        | cons f rest =>
          obtain ⟨docKey', entries⟩ := f
          cases entries with
          | nil => exact absurd rfl (hne _ (hlperm.mem_iff.1 (hspec ▸ List.mem_cons_self)))
          | cons entry' newer' => exact ⟨docKey', entry', newer', rest, rfl⟩
      rw [hspec] at hlperm
      have horder : removalOrder (n + 1) spec = ⟨docKey', entry', newer', rest⟩ ::
          removalOrder n (if newer' = [] then rest else ⟨docKey', newer'⟩ :: rest) := by
        rw [removalOrder, hspec]
      have hranked := hord.ranked_iff hlperm (lead_ranked hspec) fun h => by
        have heq := hlead _ _ rfl h
        rw [hspec] at heq
        exact List.cons.inj heq
      rw [horder, inStep_cons _ _ _ _ _ hcurrent]
      by_cases hle : currentSize ≤ s.maxSizeBytes
      · rw [accurate_of_le hle, ← Fits.perm hlperm]
        exact ⟨fun h => ⟨fun _ => h, fun hlt => absurd hle (Nat.not_le.2 hlt)⟩, fun h => h.1 hle⟩
      · have hlt := Nat.lt_of_not_le hle
        simp only [Accurate, tells_iff hlt, hlt, forall_const, hle, false_implies, true_and]
        by_cases hfirst : Ranked ⟨docKey, entry :: newer⟩ others
        · have heq := hlead _ _ rfl hfirst
          rw [hspec] at heq
          simp only [List.cons.injEq, Document.mk.injEq] at heq
          obtain ⟨⟨rfl, rfl, rfl⟩, rfl⟩ := heq
          have hnext := @ih (subtract currentSize (sizeAfterErase destroyed entry' newer'))
            (reorder ⟨docKey', newer'⟩ rest) (if newer' = [] then rest else ⟨docKey', newer'⟩ :: rest)
            (hord.reorder hothers hfirst) (forall_reorder hothers id)
            (by
              rw [entryCount_reorder]
              simp only [entryCount, List.flatMap_cons, List.length_append, List.length_cons] at hn ⊢
              omega)
            (subtract_lt _ _)
            (by
              split
              · rename_i hempty
                simp [reorder, hempty]
              · rename_i hnewer
                exact (reorder_perm hnewer).symm)
            (by
              intro d others' hd hdranked
              split
              · rename_i hempty
                have hothers' : reorder ⟨docKey', newer'⟩ rest = rest := if_pos hempty
                rw [hothers'] at hd
                rw [hd]
                exact lead_eq_self hdranked
              · rename_i hnewer
                exact lead_reorder hnewer hd hdranked)
          rw [hnext]
          have hof := hranked.1 hfirst
          simp only [hfirst, true_and, Removal.documents, Removal.document, Removal.IsOf] at hof ⊢
          tauto
        · have hof : ¬ (Removal.mk docKey' entry' newer' rest).IsOf docKeys := fun h => hfirst (hranked.2 h)
          simp [hfirst, hof]

end Order

/-- Space is made as it should be exactly when the rounds of the loop are accurate. -/
theorem spacious_iff_accurate (sort : List Document → List Document) (destroyed : Entry → Nat) (now : Nat) (s : State)
    (headroomBytes : Nat) (hsort : ∀ docs, (sort docs).Perm docs) (henabled : s.isEnabled = true)
    (hsorted : ∀ d ∈ s.quarantineMap, d.Sorted) :
    Spacious (subtract now s.maxAgeSecs) headroomBytes s (makeQuarantineSpace sort destroyed now s headroomBytes).1
        (makeQuarantineSpace sort destroyed now s headroomBytes).2 ↔
      Accurate s (subtract now s.maxAgeSecs) headroomBytes destroyed (entryCount (sortedDocuments sort now s))
        (sortedDocuments sort now s)
        ((quarantineSize (deleteOldVersions s (subtract now s.maxAgeSecs)).quarantineMap + headroomBytes) %
          2 ^ 64) := by
  have hculled := deleteOldVersions_sorted (subtract now s.maxAgeSecs) hsorted
  have hkeeps : ∀ docKey older entry newer, s.container docKey = older ++ entry :: newer →
      Within s.maxVersions (subtract now s.maxAgeSecs) entry newer →
      ∃ older', (deleteOldVersions s (subtract now s.maxAgeSecs)).container docKey = older' ++ entry :: newer :=
    fun docKey older entry newer h hwithin => foldl_keeps _ h hwithin
  have hmax : (deleteOldVersions s (subtract now s.maxAgeSecs)).maxSizeBytes = s.maxSizeBytes := foldl_limits _
  unfold makeQuarantineSpace sortedDocuments
  rw [henabled, Bool.not_true, if_neg Bool.false_ne_true]
  dsimp only
  generalize hs : deleteOldVersions s (subtract now s.maxAgeSecs) = s' at *
  generalize hcurrent : (quarantineSize s'.quarantineMap + headroomBytes) % 2 ^ 64 = currentSize
  rw [hmax]
  set docs := sort (s'.quarantineMap.filter fun d => d.entries ≠ []) with hdocs
  have hperm : docs.Perm (s'.quarantineMap.filter fun d => d.entries ≠ []) := hsort _
  have hmem : ∀ d ∈ docs, d ∈ s'.quarantineMap ∧ d.entries ≠ [] := by
    intro d hd
    simpa using hperm.mem_iff.1 hd
  split
  · rename_i hle
    rw [accurate_of_le hle, Fits.perm hperm, fits_filter]
    refine ⟨fun h => h.fits, fun h => ⟨h, ?_, by simp, by simp⟩⟩
    rw [hs]
    exact hkeeps
  · rename_i hlt
    have hiff := shrink_iff (s := s) (subtract now s.maxAgeSecs) headroomBytes destroyed
      (fun d hd => hculled d (hmem d hd).1) (fun d hd => (hmem d hd).2) le_rfl (Nat.lt_of_not_le hlt)
    rw [← hiff, ← fits_append_empty (s'.quarantineMap.filter fun d => d.entries = []) (by simp)]
    constructor
    · exact fun h => ⟨h.fits, fun r hr => ⟨h.needed r hr, h.victims r hr⟩⟩
    · rintro ⟨hfits, hrounds⟩
      refine ⟨hfits, ?_, fun r hr => (hrounds r hr).1, fun r hr => (hrounds r hr).2⟩
      rw [hs]
      exact hkeeps

theorem quarantineSize_eq (docs : List Document) : quarantineSize docs = totalSize docs % 2 ^ 64 := by
  have hfold : ∀ (entries : List Entry) (size : Nat),
    entries.foldl (fun size entry => (size + entry.size) % 2 ^ 64) size % 2 ^ 64 =
      (size + (entries.map Entry.size).sum) % 2 ^ 64 := by
    intro entries
    induction entries with
    | nil => exact fun size => rfl
    | cons entry entries ih =>
      intro size
      rw [List.foldl_cons, ih, List.map_cons, List.sum_cons]
      omega
  have hlt : quarantineSize docs < 2 ^ 64 := by
    unfold quarantineSize
    induction docs.flatMap Document.entries using List.reverseRecOn with
    | nil => decide
    | append_singleton entries entry _ =>
      rw [List.foldl_append]
      exact Nat.mod_lt _ (by decide)
  have heq := hfold (docs.flatMap Document.entries) 0
  rw [Nat.zero_add] at heq
  exact (Nat.mod_eq_of_lt hlt).symm.trans heq

/-- `std::sort`, as an insertion sort. -/
def insertionSort (docs : List Document) : List Document := docs.insertionSort fun a b => sortsBefore b a = false

theorem insertionSort_sorted (docs : List Document) :
    (insertionSort docs).Perm docs ∧ (insertionSort docs).Pairwise fun a b => sortsBefore b a = false := by
  have htotal : Std.Total fun a b : Document => sortsBefore b a = false := ⟨fun a b => by
    simp only [not_sortsBefore_iff]
    omega⟩
  have htrans : IsTrans Document fun a b => sortsBefore b a = false := ⟨fun a b c => not_sortsBefore_trans⟩
  exact ⟨List.perm_insertionSort _ docs, List.pairwise_insertionSort _ docs⟩

/-- Two documents with versions of the same size, and one with a single version. -/
def even : State where
  quarantinePath := "/quarantine"
  maxSizeBytes := 70
  maxAgeSecs := 100
  maxVersions := 5
  quarantineMap :=
    [⟨"note", [⟨"9_note", 909, 15⟩]⟩, ⟨"doc", [⟨"1_doc", 901, 20⟩, ⟨"2_doc", 902, 20⟩, ⟨"3_doc", 903, 20⟩]⟩,
    ⟨"sheet", [⟨"4_sheet", 904, 30⟩, ⟨"5_sheet", 905, 30⟩]⟩]

/-- The second version is larger than the first one. -/
def uneven : State :=
  { even with
    maxSizeBytes := 50, quarantineMap := [⟨"doc", [⟨"1_doc", 901, 10⟩, ⟨"2_doc", 902, 100⟩, ⟨"3_doc", 903, 1⟩]⟩] }

end Quarantine

end CollaboraOnline
