import Mathlib.Data.List.Nodup

/-!
# Requests for the browser's tiles

`addTiles` takes the coordinates that are not needed any more out of a queue, creates the tiles that are missing, and
requests the rest in rectangles.  The rectangles hold every coordinate of the filtered queue once (`group_spec`).  The
filter walks backwards and stops in front of the first coordinate, hence that one is requested in any case.
-/

namespace CollaboraOnline

structure TileCoordData where
  x : Int
  y : Int
  z : Int
  part : Int
  mode : Int
deriving DecidableEq, Repr

structure Point where
  x : Int
  y : Int

def TileCoordData.getPos (coords : TileCoordData) : Point := ⟨coords.x, coords.y⟩

/-- The order of the rows, and of the tiles in a row. -/
def TileCoordData.before (a b : TileCoordData) : Bool := if a.y ≠ b.y then a.y < b.y else a.x ≤ b.x

/-- What `addTiles` reads of the map and of the tile manager.  A tile has the coordinates that its key is made of. -/
structure TileRequests where
  tileSize : Int
  selectedPart : Int
  activeModes : List Int
  moveInProgress : Bool
  moveTileRequests : List TileCoordData
  /-- Whether a tile needs to be fetched; `none` where there is no tile. -/
  tiles : TileCoordData → Option Bool
  pendingTileCombineQueue : List TileCoordData

namespace TileRequests

def isModeActive (s : TileRequests) (mode : Int) : Bool := s.activeModes.contains mode

def tileNeedsFetch (s : TileRequests) (key : TileCoordData) : Bool := (s.tiles key).getD true

def isRelevant (s : TileRequests) (coords : TileCoordData) : Bool :=
  !(coords.part != s.selectedPart || !s.isModeActive coords.mode || !s.tileNeedsFetch coords)

/-- The loop from the index `i` down to 1. -/
def removeIrrelevants (s : TileRequests) : Nat → List TileCoordData → TileRequests × List TileCoordData
  | 0, coordsQueue => (s, coordsQueue)
  | i + 1, coordsQueue =>
    match coordsQueue[i + 1]? with
    | none => removeIrrelevants s i coordsQueue
    | some coords =>
      if !s.isRelevant coords then removeIrrelevants s i (coordsQueue.eraseIdx (i + 1))
      else if s.moveInProgress then
        if s.moveTileRequests.contains coords then removeIrrelevants s i (coordsQueue.eraseIdx (i + 1))
        else removeIrrelevants { s with moveTileRequests := s.moveTileRequests ++ [coords] } i coordsQueue
      else removeIrrelevants s i coordsQueue

def removeIrrelevantsFromCoordsQueue (s : TileRequests) (coordsQueue : List TileCoordData) :
    TileRequests × List TileCoordData :=
  s.removeIrrelevants (coordsQueue.length - 1) coordsQueue

/-- A tile that is new has no content. -/
def createTile (s : TileRequests) (coords : TileCoordData) : TileRequests :=
  { s with tiles := fun key => if key = coords then (s.tiles key).or (some true) else s.tiles key }

/-- The loop that finds the close ones: the tiles of the rectangle, and what is left of the queue. -/
def close (tileSize : Int) : Point → Bool → Bool → List TileCoordData → List TileCoordData × List TileCoordData
  | _, _, _, [] => ([], [])
  | bound, rowLocked, hasHole, current :: coordsQueue =>
    let extend := !hasHole && current.y == bound.y + tileSize
    let rowLocked := rowLocked || extend
    let bound := if extend then { bound with y := bound.y + tileSize } else bound
    if bound.y < current.y then ([], current :: coordsQueue)
    else if !rowLocked then
      if current.y = bound.y ∧ current.x = bound.x + tileSize then
        let (rectQueue, rest) := close tileSize { bound with x := bound.x + tileSize } rowLocked hasHole coordsQueue
        (current :: rectQueue, rest)
      else
        let (rectQueue, rest) := close tileSize bound true hasHole coordsQueue
        (rectQueue, current :: rest)
    else if current.x ≤ bound.x ∧ current.y ≤ bound.y then
      let (rectQueue, rest) := close tileSize bound rowLocked hasHole coordsQueue
      (current :: rectQueue, rest)
    else
      let (rectQueue, rest) := close tileSize bound rowLocked true coordsQueue
      (rectQueue, current :: rest)

/-- The loop that groups the tiles, in at most `n` rounds; `none` where these are too few. -/
def group (tileSize : Int) : Nat → List TileCoordData → Option (List (List TileCoordData))
  | _, [] => some []
  | 0, _ :: _ => none
  | n + 1, coords :: coordsQueue =>
    let (rectQueue, rest) := close tileSize coords.getPos false false coordsQueue
    (group tileSize n rest).map ((coords :: rectQueue) :: ·)

def sendTileCombineRequest (s : TileRequests) (tileCombineQueue : List TileCoordData) : TileRequests :=
  { s with pendingTileCombineQueue := s.pendingTileCombineQueue ++ tileCombineQueue }

/-- The requests, and the state after them; `n` limits the rounds of the grouping loop. -/
def addTiles (s : TileRequests) (n : Nat) (coordsQueue : List TileCoordData) :
    Option (List (List TileCoordData) × TileRequests) :=
  let (s, coordsQueue) := s.removeIrrelevantsFromCoordsQueue coordsQueue
  let s := coordsQueue.foldl createTile s
  (group s.tileSize n (coordsQueue.mergeSort TileCoordData.before)).map fun rectangles =>
    (rectangles, rectangles.foldl sendTileCombineRequest s)

/-! ### The filter -/

section Filter

variable {s : TileRequests} {coords first : TileCoordData} {coordsQueue rest : List TileCoordData} {i : Nat}

/-- Nothing is added, and the first coordinate stays. -/
theorem removeIrrelevants_sublist (i : Nat) (first : TileCoordData) (rest : List TileCoordData) :
    ∃ kept, (s.removeIrrelevants i (first :: rest)).2 = first :: kept ∧ kept.Sublist rest := by
  induction i generalizing s rest with
  | zero => exact ⟨rest, rfl, List.Sublist.refl rest⟩
  | succ i ih =>
    have herase : ∃ kept, (s.removeIrrelevants i (first :: rest.eraseIdx i)).2 = first :: kept ∧
        kept.Sublist rest := by
      obtain ⟨kept, hkept, hsub⟩ := ih (s := s) (rest.eraseIdx i)
      exact ⟨kept, hkept, hsub.trans (List.eraseIdx_sublist rest i)⟩
    unfold removeIrrelevants
    split
    · exact ih rest
    · split
      · exact herase
      · split
        · split
          · exact herase
          · exact ih rest
        · exact ih rest

/-- From the index on, everything is relevant when the loop is done. -/
theorem removeIrrelevants_relevant (i : Nat) (first : TileCoordData) (rest : List TileCoordData)
    (h : ∀ coords ∈ rest.drop i, s.isRelevant coords = true) :
    ∀ coords ∈ (s.removeIrrelevants i (first :: rest)).2.tail, s.isRelevant coords = true := by
  induction i generalizing s rest with
  | zero =>
    rw [List.drop_zero] at h
    exact h
  | succ i ih =>
    have hdrop : (rest.eraseIdx i).drop i = rest.drop (i + 1) := by
      rw [List.eraseIdx_eq_take_drop_succ]
      by_cases hi : i ≤ rest.length
      · exact List.drop_left' (by rw [List.length_take]; omega)
      · have hrest : rest.length ≤ i + 1 := by omega
        rw [List.drop_eq_nil_of_le hrest, List.append_nil]
        exact List.drop_eq_nil_of_le (by rw [List.length_take]; omega)
    have herase : ∀ coords ∈ (s.removeIrrelevants i (first :: rest.eraseIdx i)).2.tail,
        s.isRelevant coords = true := by
      apply ih
      rw [hdrop]
      exact h
    unfold removeIrrelevants
    rw [List.getElem?_cons_succ]
    split
    · rename_i hnone
      apply ih
      rw [List.getElem?_eq_none_iff] at hnone
      rw [List.drop_eq_nil_of_le hnone]
      simp
    · rename_i coords hcoords
      split
      · exact herase
      · rename_i hrelevant
        have hmore : ∀ coords ∈ rest.drop i, s.isRelevant coords = true := by
          obtain ⟨hlt, rfl⟩ := List.getElem?_eq_some_iff.1 hcoords
          rw [List.drop_eq_getElem_cons hlt]
          intro other hother
          rcases List.mem_cons.1 hother with rfl | hother
          · simpa using hrelevant
          · exact h other hother
        split
        · split
          · exact herase
          · exact ih (s := { s with moveTileRequests := s.moveTileRequests ++ [coords] }) rest hmore
        · exact ih rest hmore

theorem removeIrrelevants_tileSize (i : Nat) (coordsQueue : List TileCoordData) :
    (s.removeIrrelevants i coordsQueue).1.tileSize = s.tileSize ∧
      (s.removeIrrelevants i coordsQueue).1.pendingTileCombineQueue = s.pendingTileCombineQueue := by
  induction i generalizing s coordsQueue with
  | zero => exact ⟨rfl, rfl⟩
  | succ i ih =>
    unfold removeIrrelevants
    split
    · exact ih coordsQueue
    · split
      · exact ih _
      · split
        · split
          · exact ih _
          · exact ih (s := { s with moveTileRequests := _ }) coordsQueue
        · exact ih coordsQueue

/-- The filter keeps the first coordinate, and of the others only relevant ones, in their order. -/
theorem removeIrrelevantsFromCoordsQueue_cons (first : TileCoordData) (rest : List TileCoordData) :
    ∃ kept, (s.removeIrrelevantsFromCoordsQueue (first :: rest)).2 = first :: kept ∧ kept.Sublist rest ∧
      ∀ coords ∈ kept, s.isRelevant coords = true := by
  obtain ⟨kept, hkept, hsub⟩ := removeIrrelevants_sublist (s := s) rest.length first rest
  have hrelevant := removeIrrelevants_relevant (s := s) rest.length first rest (by simp)
  rw [hkept] at hrelevant
  exact ⟨kept, hkept, hsub, hrelevant⟩

theorem removeIrrelevantsFromCoordsQueue_nil : s.removeIrrelevantsFromCoordsQueue [] = (s, []) := rfl

end Filter

/-! ### The groups -/

section Groups

variable {tileSize : Int} {bound : Point} {rowLocked hasHole : Bool} {coordsQueue rectQueue rest : List TileCoordData}
  {n : Nat}

/-- The rectangle and what is left are the queue. -/
theorem close_perm (tileSize : Int) (bound : Point) (rowLocked hasHole : Bool) (coordsQueue : List TileCoordData) :
    ((close tileSize bound rowLocked hasHole coordsQueue).1 ++
      (close tileSize bound rowLocked hasHole coordsQueue).2).Perm coordsQueue := by
  induction coordsQueue generalizing bound rowLocked hasHole with
  | nil => exact List.Perm.refl []
  | cons current coordsQueue ih =>
    unfold close
    dsimp only
    generalize (!hasHole && current.y == bound.y + tileSize) = extend
    generalize (if extend = true then ({ bound with y := bound.y + tileSize } : Point) else bound) = bound
    generalize (rowLocked || extend) = rowLocked
    have htake : ∀ bound rowLocked hasHole, (current :: (close tileSize bound rowLocked hasHole coordsQueue).1 ++
        (close tileSize bound rowLocked hasHole coordsQueue).2).Perm (current :: coordsQueue) :=
      fun bound rowLocked hasHole => (ih bound rowLocked hasHole).cons current
    have hleave : ∀ bound rowLocked hasHole, ((close tileSize bound rowLocked hasHole coordsQueue).1 ++
        current :: (close tileSize bound rowLocked hasHole coordsQueue).2).Perm (current :: coordsQueue) :=
      fun bound rowLocked hasHole => List.perm_middle.trans (htake bound rowLocked hasHole)
    split
    · exact List.Perm.refl _
    · split
      · split
        · exact htake _ _ _
        · exact hleave _ _ _
      · split
        · exact htake _ _ _
        · exact hleave _ _ _

/-- Each round of the loop takes a coordinate from the queue, so it ends; the groups hold what the queue held. -/
theorem group_spec (tileSize : Int) {n : Nat} (h : coordsQueue.length ≤ n) :
    ∃ rectangles, group tileSize n coordsQueue = some rectangles ∧ rectangles.flatten.Perm coordsQueue ∧
      ∀ rectQueue ∈ rectangles, rectQueue ≠ [] := by
  induction n generalizing coordsQueue with
  | zero =>
    obtain rfl := List.length_eq_zero_iff.1 (Nat.le_zero.1 h)
    exact ⟨[], rfl, List.Perm.refl [], by simp⟩
  | succ n ih =>
    cases coordsQueue with
    | nil => exact ⟨[], rfl, List.Perm.refl [], by simp⟩
    | cons coords coordsQueue =>
      have hperm := close_perm tileSize coords.getPos false false coordsQueue
      have hlength := hperm.length_eq
      rw [List.length_append] at hlength
      rw [List.length_cons] at h
      have hrest : (close tileSize coords.getPos false false coordsQueue).2.length ≤ n := by omega
      obtain ⟨rectangles, hgroup, hflatten, hne⟩ := ih hrest
      refine ⟨(coords :: (close tileSize coords.getPos false false coordsQueue).1) :: rectangles, ?_, ?_, ?_⟩
      · simp only [group, hgroup, Option.map_some]
      · rw [List.flatten_cons, List.cons_append]
        exact ((hflatten.append_left _).trans hperm).cons coords
      · intro rectQueue hrect
        rcases List.mem_cons.1 hrect with rfl | hrect
        · exact List.cons_ne_nil _ _
        · exact hne rectQueue hrect

end Groups

/-! ### The requests -/

section Requests

variable {s : TileRequests} {coordsQueue : List TileCoordData} {rectangles : List (List TileCoordData)}

theorem createTile_fold (s : TileRequests) (coordsQueue : List TileCoordData) :
    (coordsQueue.foldl createTile s).tileSize = s.tileSize ∧
      (coordsQueue.foldl createTile s).pendingTileCombineQueue = s.pendingTileCombineQueue := by
  induction coordsQueue generalizing s with
  | nil => exact ⟨rfl, rfl⟩
  | cons coords coordsQueue ih => exact ih (s.createTile coords)

theorem sendTileCombineRequest_fold (s : TileRequests) (rectangles : List (List TileCoordData)) :
    (rectangles.foldl sendTileCombineRequest s).pendingTileCombineQueue =
      s.pendingTileCombineQueue ++ rectangles.flatten := by
  induction rectangles generalizing s with
  | nil => simp
  | cons rectQueue rectangles ih =>
    rw [List.foldl_cons, ih, List.flatten_cons, ← List.append_assoc]
    rfl

/-- The rectangles are a partition of the queue that was filtered, and are what is requested. -/
structure Partitions (s : TileRequests) (filtered : List TileCoordData) (rectangles : List (List TileCoordData))
    (s' : TileRequests) : Prop where
  flatten : rectangles.flatten.Perm filtered
  nonempty : ∀ rectQueue ∈ rectangles, rectQueue ≠ []
  requested : s'.pendingTileCombineQueue = s.pendingTileCombineQueue ++ rectangles.flatten

theorem addTiles_partitions (s : TileRequests) (coordsQueue : List TileCoordData) :
    ∃ rectangles s', s.addTiles coordsQueue.length coordsQueue = some (rectangles, s') ∧
      s.Partitions (s.removeIrrelevantsFromCoordsQueue coordsQueue).2 rectangles s' := by
  have hlength : (s.removeIrrelevantsFromCoordsQueue coordsQueue).2.length ≤ coordsQueue.length := by
    cases coordsQueue with
    | nil => exact Nat.le_refl 0
    | cons first rest =>
      obtain ⟨kept, hkept, hsub, -⟩ := removeIrrelevantsFromCoordsQueue_cons (s := s) first rest
      rw [hkept, List.length_cons, List.length_cons]
      exact Nat.succ_le_succ hsub.length_le
  have hpending : (s.removeIrrelevantsFromCoordsQueue coordsQueue).1.pendingTileCombineQueue =
      s.pendingTileCombineQueue := (removeIrrelevants_tileSize _ _).2
  unfold addTiles
  generalize s.removeIrrelevantsFromCoordsQueue coordsQueue = filtered at hlength hpending
  obtain ⟨s₁, kept⟩ := filtered
  have hsort := List.mergeSort_perm kept TileCoordData.before
  have hlength : (kept.mergeSort TileCoordData.before).length ≤ coordsQueue.length := by
    rw [hsort.length_eq]
    exact hlength
  obtain ⟨rectangles, hgroup, hflatten, hne⟩ := group_spec (kept.foldl createTile s₁).tileSize hlength
  refine ⟨rectangles, rectangles.foldl sendTileCombineRequest (kept.foldl createTile s₁), ?_, hflatten.trans hsort,
    hne, ?_⟩
  · simp only [hgroup, Option.map_some]
  · rw [sendTileCombineRequest_fold, (createTile_fold s₁ kept).2, hpending]

/-- No coordinate is requested in two rectangles, if the filtered queue has it once. -/
theorem Partitions.disjoint {s' : TileRequests} {filtered : List TileCoordData}
    (h : s.Partitions filtered rectangles s') (hnodup : filtered.Nodup) : rectangles.Pairwise List.Disjoint :=
  (List.nodup_flatten.1 (h.flatten.nodup_iff.2 hnodup)).2

/-- The filtered queue is requested in rectangles that are a partition of it; it holds only relevant coordinates
exactly where the first one of the queue is relevant. -/
theorem addTiles_relevant (s : TileRequests) (coordsQueue : List TileCoordData) :
    ((∃ rectangles s', s.addTiles coordsQueue.length coordsQueue = some (rectangles, s') ∧
        s.Partitions (s.removeIrrelevantsFromCoordsQueue coordsQueue).2 rectangles s') ∧
      ∀ coords ∈ (s.removeIrrelevantsFromCoordsQueue coordsQueue).2, s.isRelevant coords = true) ↔
      ∀ first ∈ coordsQueue.head?, s.isRelevant first = true := by
  constructor
  · rintro ⟨-, hrelevant⟩ first hfirst
    cases coordsQueue with
    | nil => cases hfirst
    | cons head rest =>
      obtain rfl : head = first := Option.some.inj hfirst
      obtain ⟨kept, hkept, -, -⟩ := removeIrrelevantsFromCoordsQueue_cons (s := s) head rest
      exact hrelevant head (by rw [hkept]; exact List.mem_cons_self)
  · intro hfirst
    refine ⟨addTiles_partitions s coordsQueue, ?_⟩
    cases coordsQueue with
    | nil => simp [removeIrrelevantsFromCoordsQueue_nil]
    | cons head rest =>
      obtain ⟨kept, hkept, -, hkeeps⟩ := removeIrrelevantsFromCoordsQueue_cons (s := s) head rest
      rw [hkept]
      intro coords hcoords
      rcases List.mem_cons.1 hcoords with rfl | hcoords
      · exact hfirst coords rfl
      · exact hkeeps coords hcoords

/-- A tile of the part 0, while the part 1 is selected. -/
theorem not_addTiles_relevant : ¬ ∀ (s : TileRequests) (coordsQueue : List TileCoordData),
    (∃ rectangles s', s.addTiles coordsQueue.length coordsQueue = some (rectangles, s') ∧
        s.Partitions (s.removeIrrelevantsFromCoordsQueue coordsQueue).2 rectangles s') ∧
      ∀ coords ∈ (s.removeIrrelevantsFromCoordsQueue coordsQueue).2, s.isRelevant coords = true := by
  intro h
  have hrelevant := (h ⟨256, 1, [0], false, [], fun _ => none, []⟩ [⟨0, 0, 10, 0, 0⟩]).2 ⟨0, 0, 10, 0, 0⟩ (by decide)
  exact absurd hrelevant (by decide)

end Requests

end TileRequests

end CollaboraOnline
