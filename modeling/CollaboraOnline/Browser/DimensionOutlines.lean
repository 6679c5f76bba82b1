import Mathlib.Data.List.Nodup
import CollaboraOnline.Lib.BinarySearch

/-!
# Outline groups

The groups of rows or columns of each level are sorted and do not overlap.  `forEachGroupInRange` looks for the first
group that does not end before the range, by a binary search whose directions take a gap as the match of the group
behind it, and calls back for it and for those after it that start in the range: for each group that has an element of
the range, once (`forEachGroupInRange_calls`).
-/

namespace CollaboraOnline

open BinarySearch

/-- A group of elements; `last` is the `end` of the source, which is one of them. -/
structure OutlineEntry where
  start : Int
  last : Int
  hidden : Int
deriving DecidableEq, Repr

namespace DimensionOutlines

/-- What the callback is given. -/
structure GroupCall where
  levelIdx : Nat
  groupIdx : Nat
  groupStart : Int
  groupEnd : Int
  groupHidden : Int
deriving DecidableEq, Repr

def directionProvider (elementIdx : Int) (prevGroup : Option OutlineEntry) (curGroup : OutlineEntry) : Direction :=
  let direction : Direction :=
    if elementIdx < curGroup.start then .before else if curGroup.last < elementIdx then .after else .here
  if direction ≠ .before then direction
  -- the first group, or one behind a gap that has the element
  else if prevGroup.all fun prev => prev.last < elementIdx then .here
  else .before

/-- What the direction provider is given at an index. -/
def directionAt (groups : List OutlineEntry) (elementIdx : Int) (i : Nat) : Direction :=
  match groups[i]? with
  | none => .before
  | some cur => directionProvider elementIdx (if 0 < i then groups[i - 1]? else none) cur

/-- The loop over the groups from `groupIdx` on. -/
def callGroups (levelIdx : Nat) (stop : Int) : Nat → List OutlineEntry → List GroupCall
  | _, [] => []
  | groupIdx, group :: groups =>
    if stop < group.start then callGroups levelIdx stop (groupIdx + 1) groups
    else ⟨levelIdx, groupIdx, group.start, group.last, group.hidden⟩ :: callGroups levelIdx stop (groupIdx + 1) groups

/-- One round of the loop over the levels. -/
def callLevel (start stop : Int) (levelIdx : Nat) (groupsInLevel : List OutlineEntry) : List GroupCall :=
  match search (directionAt groupsInLevel start) groupsInLevel.length false with
  | none => []
  | some startGroupIdx =>
    match groupsInLevel[startGroupIdx]? with
    | none => []
    | some startGroup =>
      if stop < startGroup.start then []
      else callGroups levelIdx stop startGroupIdx (groupsInLevel.drop startGroupIdx)

/-- The calls of the callback, from the last level to the first one. -/
def forEachGroupInRange (outlines : List (List OutlineEntry)) (start stop : Int) : List GroupCall :=
  if outlines.isEmpty || stop < start then []
  else (List.range outlines.length).reverse.flatMap fun levelIdx =>
    callLevel start stop levelIdx (outlines.getD levelIdx [])

/-! ### Groups in order -/

/-- The element is in the group. -/
def Has (group : OutlineEntry) (i : Int) : Prop := group.start ≤ i ∧ i ≤ group.last

/-- Groups have elements, are sorted by their start, and no two have an element in common. -/
structure Ordered (groups : List OutlineEntry) : Prop where
  start_le : ∀ group ∈ groups, group.start ≤ group.last
  sorted : groups.Pairwise fun group next => group.start ≤ next.start
  disjoint : groups.Pairwise fun group next => ∀ i, ¬ (Has group i ∧ Has next i)

variable {groups : List OutlineEntry} {group next : OutlineEntry} {start stop elementIdx : Int}
  {i j levelIdx groupIdx : Nat}

theorem Ordered.last_lt (h : Ordered groups) (hij : i < j) (hi : groups[i]? = some group)
    (hj : groups[j]? = some next) : group.last < next.start := by
  obtain ⟨hi', rfl⟩ := List.getElem?_eq_some_iff.1 hi
  obtain ⟨hj', rfl⟩ := List.getElem?_eq_some_iff.1 hj
  have hsorted := List.pairwise_iff_getElem.1 h.sorted i j hi' hj' hij
  have hdisjoint := List.pairwise_iff_getElem.1 h.disjoint i j hi' hj' hij (groups[j]).start
  have hlast := h.start_le _ (List.getElem_mem hj')
  unfold Has at hdisjoint
  omega

theorem Ordered.last_le (h : Ordered groups) (hij : i ≤ j) (hi : groups[i]? = some group)
    (hj : groups[j]? = some next) : group.last ≤ next.last := by
  rcases Nat.eq_or_lt_of_le hij with rfl | hij
  · rw [hi] at hj
    rw [Option.some.inj hj]
  · have hlt := h.last_lt hij hi hj
    have hle := h.start_le next (List.mem_of_getElem? hj)
    omega

/-- The search goes on after the groups that end before the element. -/
theorem Ordered.direction_after (h : Ordered groups) (hi : groups[i]? = some group) :
    directionAt groups elementIdx i = .after ↔ group.last < elementIdx := by
  have hle := h.start_le group (List.mem_of_getElem? hi)
  unfold directionAt directionProvider
  rw [hi]
  dsimp only
  by_cases hstart : elementIdx < group.start
  · rw [if_pos hstart, if_neg (by decide)]
    refine ⟨fun heq => ?_, fun hlt => by omega⟩
    generalize (Option.all _ _) = b at heq
    cases b <;> cases heq
  · rw [if_neg hstart]
    by_cases hlast : group.last < elementIdx
    · rw [if_pos hlast]
      exact ⟨fun _ => hlast, fun _ => rfl⟩
    · rw [if_neg hlast]
      exact ⟨fun heq => (by cases heq), fun hlt => absurd hlt hlast⟩

/-- It goes back where the group before does not end before the element. -/
theorem Ordered.direction_before (h : Ordered groups) (hi : groups[i]? = some group) :
    directionAt groups elementIdx i = .before ↔
      ∃ j prev, i = j + 1 ∧ groups[j]? = some prev ∧ elementIdx ≤ prev.last := by
  have hprev : ((if 0 < i then groups[i - 1]? else none).all fun prev => prev.last < elementIdx) = false ↔
      ∃ j prev, i = j + 1 ∧ groups[j]? = some prev ∧ elementIdx ≤ prev.last := by
    cases i with
    | zero => simp
    | succ j => cases hprev : groups[j]? <;> simp [hprev]
  unfold directionAt directionProvider
  rw [hi]
  dsimp only
  by_cases hstart : elementIdx < group.start
  · rw [if_pos hstart, if_neg (by decide), ← hprev]
    cases (if 0 < i then groups[i - 1]? else none).all fun prev => prev.last < elementIdx with
    | false => exact ⟨fun _ => rfl, fun _ => rfl⟩
    | true => exact ⟨fun heq => (by cases heq), fun heq => (by cases heq)⟩
  · rw [if_neg hstart]
    constructor
    · intro heq
      split at heq <;> cases heq
    · rintro ⟨j, prev, rfl, hj, hle⟩
      have hlt := h.last_lt (Nat.lt_succ_self j) hj hi
      omega

theorem Ordered.sorted_directions (h : Ordered groups) (elementIdx : Int) :
    Sorted (directionAt groups elementIdx) groups.length := by
  have hget (k : Nat) (hk : k < groups.length) : groups[k]? = some groups[k] := List.getElem?_eq_getElem hk
  constructor
  · intro i j hij hj hafter
    rw [h.direction_after (hget j hj)] at hafter
    rw [h.direction_after (hget i (by omega))]
    exact (h.last_le hij.le (hget i (by omega)) (hget j hj)).trans_lt hafter
  · intro i j hij hj hbefore
    rw [h.direction_before (hget i (by omega))] at hbefore
    obtain ⟨k, prev, rfl, hk, hle⟩ := hbefore
    rw [h.direction_before (hget j hj)]
    refine ⟨j - 1, groups[j - 1], by omega, hget (j - 1) (by omega), hle.trans ?_⟩
    exact h.last_le (by omega) hk (hget (j - 1) (by omega))

/-- The search finds the first group that does not end before the element. -/
theorem Ordered.search_spec (h : Ordered groups) (elementIdx : Int) :
    (∃ i group, search (directionAt groups elementIdx) groups.length false = some i ∧ groups[i]? = some group ∧
        elementIdx ≤ group.last ∧ ∀ j < i, ∀ prev, groups[j]? = some prev → prev.last < elementIdx) ∨
      (search (directionAt groups elementIdx) groups.length false = none ∧
      ∀ group ∈ groups, group.last < elementIdx) := by
  rcases BinarySearch.search_spec (h.sorted_directions elementIdx) false with ⟨i, hi, hlt, hhere, -⟩ | ⟨hnone, hall⟩
  · have hget : groups[i]? = some groups[i] := List.getElem?_eq_getElem hlt
    refine .inl ⟨i, groups[i], hi, hget, ?_, fun j hj prev hprev => ?_⟩
    · by_contra hnot
      rw [(h.direction_after hget).2 (by omega)] at hhere
      cases hhere
    · by_contra hnot
      have hmid : groups[i - 1]? = some groups[i - 1] := List.getElem?_eq_getElem (by omega)
      have hle := h.last_le (show j ≤ i - 1 by omega) hprev hmid
      rw [(h.direction_before hget).2 ⟨i - 1, _, by omega, hmid, by omega⟩] at hhere
      cases hhere
  · -- The first group that does not end before the element would match.
    have hafter : ∀ (j : Nat) (group : OutlineEntry), groups[j]? = some group → group.last < elementIdx := by
      intro j
      induction j with
      | zero =>
        intro group hgroup
        by_contra hnot
        refine hall 0 (List.getElem?_eq_some_iff.1 hgroup).1 ?_
        cases hdir : directionAt groups elementIdx 0 with
        | here => rfl
        | after => exact absurd ((h.direction_after hgroup).1 hdir) hnot
        | before =>
          obtain ⟨k, -, hk, -⟩ := (h.direction_before hgroup).1 hdir
          exact absurd hk (by omega)
      | succ j ih =>
        intro group hgroup
        by_contra hnot
        refine hall (j + 1) (List.getElem?_eq_some_iff.1 hgroup).1 ?_
        cases hdir : directionAt groups elementIdx (j + 1) with
        | here => rfl
        | after => exact absurd ((h.direction_after hgroup).1 hdir) hnot
        | before =>
          obtain ⟨k, prev, hk, hprev, hle⟩ := (h.direction_before hgroup).1 hdir
          obtain rfl : j = k := by omega
          exact absurd (ih prev hprev) (by omega)
    refine .inr ⟨hnone, fun group hgroup => ?_⟩
    obtain ⟨j, hj, rfl⟩ := List.getElem_of_mem hgroup
    exact hafter j _ (List.getElem?_eq_getElem hj)

/-! ### The calls -/

/-- The call for a group. -/
def callOf (levelIdx groupIdx : Nat) (group : OutlineEntry) : GroupCall :=
  ⟨levelIdx, groupIdx, group.start, group.last, group.hidden⟩

theorem mem_callGroups {call : GroupCall} : call ∈ callGroups levelIdx stop groupIdx groups ↔
    ∃ k group, groups[k]? = some group ∧ group.start ≤ stop ∧ call = callOf levelIdx (groupIdx + k) group := by
  induction groups generalizing groupIdx with
  | nil => simp [callGroups]
  | cons first groups ih =>
    have hrest : (∃ k group, (first :: groups)[k]? = some group ∧ group.start ≤ stop ∧
          call = callOf levelIdx (groupIdx + k) group) ↔
        (first.start ≤ stop ∧ call = callOf levelIdx groupIdx first) ∨
          ∃ k group, groups[k]? = some group ∧ group.start ≤ stop ∧
          call = callOf levelIdx (groupIdx + 1 + k) group := by
      constructor
      · rintro ⟨k, group, hk, hle, hcall⟩
        cases k with
        | zero =>
          obtain rfl : first = group := Option.some.inj hk
          exact .inl ⟨hle, hcall⟩
        | succ k => exact .inr ⟨k, group, hk, hle, by rw [hcall, Nat.add_assoc, Nat.add_comm 1]⟩
      · rintro (⟨hle, hcall⟩ | ⟨k, group, hk, hle, hcall⟩)
        · exact ⟨0, first, rfl, hle, hcall⟩
        · exact ⟨k + 1, group, hk, hle, by rw [hcall, Nat.add_assoc, Nat.add_comm 1]⟩
    rw [hrest, callGroups]
    split
    · rename_i hlt
      rw [ih, or_iff_right fun hfirst => absurd hfirst.1 (by omega)]
    · rename_i hle
      rw [List.mem_cons, ih]
      exact or_congr_left (iff_and_self.2 fun _ => by omega)

/-- The groups are called in their order. -/
theorem sorted_callGroups (levelIdx : Nat) (stop : Int) (groupIdx : Nat) (groups : List OutlineEntry) :
    (callGroups levelIdx stop groupIdx groups).Pairwise fun call later => call.groupIdx < later.groupIdx := by
  induction groups generalizing groupIdx with
  | nil => exact List.Pairwise.nil
  | cons first groups ih =>
    rw [callGroups]
    split
    · exact ih (groupIdx + 1)
    · refine List.pairwise_cons.2 ⟨fun call hcall => ?_, ih (groupIdx + 1)⟩
      obtain ⟨k, group, -, -, rfl⟩ := mem_callGroups.1 hcall
      simp only [callOf]
      omega

/-- The group has an element of the range. -/
def Intersects (start stop : Int) (group : OutlineEntry) : Prop := ∃ i, Has group i ∧ start ≤ i ∧ i ≤ stop

theorem intersects_iff (hgroup : group.start ≤ group.last) (hrange : start ≤ stop) :
    Intersects start stop group ↔ start ≤ group.last ∧ group.start ≤ stop := by
  unfold Intersects Has
  constructor
  · rintro ⟨i, hi, hle⟩
    omega
  · rintro ⟨hlast, hstart⟩
    exact ⟨max start group.start, by omega, by omega⟩

/-- A level calls for its groups that have an element of the range. -/
theorem Ordered.mem_callLevel (h : Ordered groups) (hrange : start ≤ stop) {call : GroupCall} :
    call ∈ callLevel start stop levelIdx groups ↔
      ∃ k group, groups[k]? = some group ∧ Intersects start stop group ∧ call = callOf levelIdx k group := by
  have hintersects (k : Nat) (group : OutlineEntry) (hk : groups[k]? = some group) :
      Intersects start stop group ↔ start ≤ group.last ∧ group.start ≤ stop :=
    intersects_iff (h.start_le group (List.mem_of_getElem? hk)) hrange
  unfold callLevel
  rcases h.search_spec start with ⟨i, first, hi, hfirst, hlast, hbefore⟩ | ⟨hnone, hall⟩
  · rw [hi]
    dsimp only
    rw [hfirst]
    dsimp only
    by_cases hstop : stop < first.start
    · rw [if_pos hstop]
      refine ⟨fun hmem => absurd hmem List.not_mem_nil, ?_⟩
      rintro ⟨k, group, hk, hin, -⟩
      obtain ⟨hkl, hks⟩ := (hintersects k group hk).1 hin
      rcases Nat.lt_trichotomy k i with hlt | rfl | hlt
      · exact absurd (hbefore k hlt group hk) (by omega)
      · rw [hfirst] at hk
        rw [← Option.some.inj hk] at hks
        omega
      · have hlater := h.last_lt hlt hfirst hk
        have := h.start_le first (List.mem_of_getElem? hfirst)
        omega
    · rw [if_neg hstop, mem_callGroups]
      constructor
      · rintro ⟨k, group, hk, hle, rfl⟩
        rw [List.getElem?_drop] at hk
        have hmono := h.last_le (Nat.le_add_right i k) hfirst hk
        exact ⟨i + k, group, hk, (hintersects _ _ hk).2 ⟨by omega, hle⟩, rfl⟩
      · rintro ⟨k, group, hk, hin, rfl⟩
        obtain ⟨hkl, hks⟩ := (hintersects k group hk).1 hin
        have hik : i ≤ k := by
          by_contra hlt
          exact absurd (hbefore k (by omega) group hk) (by omega)
        exact ⟨k - i, group, by rw [List.getElem?_drop, Nat.add_sub_cancel' hik, hk],
          hks, by rw [Nat.add_sub_cancel' hik]⟩
  · rw [hnone]
    refine ⟨fun hmem => absurd hmem List.not_mem_nil, ?_⟩
    rintro ⟨k, group, hk, hin, -⟩
    have hlt := hall group (List.mem_of_getElem? hk)
    have hle := ((hintersects k group hk).1 hin).1
    omega

theorem nodup_callLevel (start stop : Int) (levelIdx : Nat) (groups : List OutlineEntry) :
    (callLevel start stop levelIdx groups).Nodup := by
  unfold callLevel
  split
  · exact List.nodup_nil
  · split
    · exact List.nodup_nil
    · split
      · exact List.nodup_nil
      · refine (sorted_callGroups _ _ _ _).imp ?_
        rintro call later hlt rfl
        exact lt_irrefl _ hlt

/-- The callback is called once for each group of each level that has an element of the range, and for no other
one. -/
theorem forEachGroupInRange_calls {outlines : List (List OutlineEntry)} (h : ∀ groups ∈ outlines, Ordered groups)
    (start stop : Int) :
    (forEachGroupInRange outlines start stop).Nodup ∧
      ∀ call, call ∈ forEachGroupInRange outlines start stop ↔
        ∃ groups group, outlines[call.levelIdx]? = some groups ∧ groups[call.groupIdx]? = some group ∧
          Intersects start stop group ∧ call = callOf call.levelIdx call.groupIdx group := by
  unfold forEachGroupInRange
  by_cases hempty : outlines.isEmpty || stop < start
  · rw [if_pos hempty]
    refine ⟨List.nodup_nil, fun call => ⟨fun hmem => absurd hmem List.not_mem_nil, ?_⟩⟩
    rintro ⟨groups, group, hgroups, -, ⟨i, -, hstart, hstop⟩, -⟩
    rw [Bool.or_eq_true, List.isEmpty_iff, decide_eq_true_iff] at hempty
    rcases hempty with rfl | hlt
    · cases hgroups
    · omega
  rw [if_neg hempty]
  have hrange : start ≤ stop := by
    rw [Bool.or_eq_true, decide_eq_true_iff, not_or] at hempty
    omega
  have hlevel (levelIdx : Nat) (hl : levelIdx < outlines.length) (call : GroupCall) :
      call ∈ callLevel start stop levelIdx (outlines.getD levelIdx []) ↔
        ∃ groups k group, outlines[levelIdx]? = some groups ∧ groups[k]? = some group ∧ Intersects start stop group ∧
          call = callOf levelIdx k group := by
    have hget : outlines[levelIdx]? = some outlines[levelIdx] := List.getElem?_eq_getElem hl
    rw [List.getD_eq_getElem?_getD, hget, Option.getD_some, (h _ (List.getElem_mem hl)).mem_callLevel hrange]
    constructor
    · rintro ⟨k, group, hk⟩
      exact ⟨_, k, group, rfl, hk⟩
    · rintro ⟨groups, k, group, hgroups, hk⟩
      obtain rfl := Option.some.inj hgroups
      exact ⟨k, group, hk⟩
  constructor
  · refine List.nodup_flatMap.2 ⟨fun levelIdx _ => nodup_callLevel _ _ _ _, ?_⟩
    have hdistinct : (List.range outlines.length).reverse.Pairwise (· ≠ ·) := List.nodup_reverse.2 List.nodup_range
    refine hdistinct.imp_of_mem fun {a b} ha hb hne call hcall hcall' => hne ?_
    rw [List.mem_reverse, List.mem_range] at ha hb
    obtain ⟨_, _, _, _, _, _, rfl⟩ := (hlevel a ha call).1 hcall
    obtain ⟨_, _, _, _, _, _, hcall'⟩ := (hlevel b hb _).1 hcall'
    exact congrArg GroupCall.levelIdx hcall'
  · intro call
    rw [List.mem_flatMap]
    constructor
    · rintro ⟨levelIdx, hl, hcall⟩
      rw [List.mem_reverse, List.mem_range] at hl
      obtain ⟨groups, k, group, hgroups, hk, hin, rfl⟩ := (hlevel levelIdx hl call).1 hcall
      exact ⟨groups, group, hgroups, hk, hin, rfl⟩
    · rintro ⟨groups, group, hgroups, hk, hin, hcall⟩
      have hl := (List.getElem?_eq_some_iff.1 hgroups).1
      exact ⟨call.levelIdx, by rw [List.mem_reverse, List.mem_range]; exact hl,
        (hlevel _ hl call).2 ⟨groups, call.groupIdx, group, hgroups, hk, hin, hcall⟩⟩

/-- Two levels; the range starts in the gap of the first one. -/
theorem forEachGroupInRange_calls_gap :
    (forEachGroupInRange [[⟨2, 4, 0⟩, ⟨8, 9, 1⟩, ⟨12, 20, 0⟩], [⟨13, 15, 0⟩]] 5 12).Nodup ∧
      ⟨0, 1, 8, 9, 1⟩ ∈ forEachGroupInRange [[⟨2, 4, 0⟩, ⟨8, 9, 1⟩, ⟨12, 20, 0⟩], [⟨13, 15, 0⟩]] 5 12 := by
  have hfirst : Ordered [⟨2, 4, 0⟩, ⟨8, 9, 1⟩, ⟨12, 20, 0⟩] := by
    refine ⟨by decide, by decide, ?_⟩
    simp only [List.pairwise_cons, List.mem_cons, List.not_mem_nil, Has, or_false, forall_eq_or_imp, forall_eq,
      IsEmpty.forall_iff, implies_true, List.Pairwise.nil, and_true]
    refine ⟨⟨fun i => ?_, fun i => ?_⟩, fun i => ?_⟩ <;> omega
  have hsecond : Ordered [⟨13, 15, 0⟩] := ⟨by decide, by decide, List.pairwise_singleton _ _⟩
  have hordered : ∀ groups ∈ [[⟨2, 4, 0⟩, ⟨8, 9, 1⟩, ⟨12, 20, 0⟩], [⟨13, 15, 0⟩]], Ordered groups := by
    simpa using ⟨hfirst, hsecond⟩
  obtain ⟨hnodup, hmem⟩ := forEachGroupInRange_calls hordered 5 12
  exact ⟨hnodup, (hmem _).2 ⟨_, _, rfl, rfl, ⟨8, ⟨by decide, by decide⟩, by decide, by decide⟩, rfl⟩⟩

end DimensionOutlines

end CollaboraOnline
