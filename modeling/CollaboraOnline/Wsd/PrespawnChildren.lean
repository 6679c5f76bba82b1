import Mathlib
import CollaboraOnline.Lib.Table
import CollaboraOnline.Lib.Run

/-!
# Spare kits

The server keeps spare kit processes for each configuration, so that a document finds one when it is loaded.  It asks
the forkit of the configuration for as many as are missing, counts what it has asked for in `OutstandingForks`, and
gives a kit to the one who asks for it.  All this is done under `NewChildrenMutex`, and a step is what is done while
it is held.

The counters agree with each other (`forks_accounted`), a configuration never has much more than the configured number
of spare and requested kits (`spares_bounded`), and each kit is given away at most once, for its configuration
(`children_once`).
-/

namespace CollaboraOnline

/-- A kit process; they are numbered in the order they connect. -/
structure ChildProcess where
  pid : Nat
  configId : String
  isAlive : Bool
deriving DecidableEq

/-- An entry of `OutstandingForks`. -/
structure OutstandingFork where
  configId : String
  number : Int
deriving DecidableEq

structure SpareKits where
  numPreSpawnedChildren : Nat
  newChildren : List ChildProcess := []
  outstandingForks : Table OutstandingFork.configId := Table.empty
  totalOutstandingForks : Int := 0
  /-- The keys of `SubForKitProcs`. -/
  subForKitProcs : List String := []
  /-- The number of kits that have connected. -/
  connected : Nat := 0
  /-- The kits that were given away, with the configuration they were asked for. -/
  given : List (ChildProcess × String) := []
  /-- The kits that were found dead or have disconnected. -/
  removed : List Nat := []
  /-- The requests that `dropSubForKit` forgot. -/
  dropped : Int := 0
  /-- The kits of a configuration that connected when none was outstanding. -/
  unexpected : String → Nat := fun _ => 0
  /-- The number of forkits that were launched. -/
  launched : Nat := 0

namespace SpareKits

/-- `OutstandingForks[configId]` -/
def outstanding (s : SpareKits) (configId : String) : Int :=
  ((s.outstandingForks.find configId).map OutstandingFork.number).getD 0

/-- `TotalOutstandingForks += number; OutstandingForks[configId] += number` -/
def countForks (s : SpareKits) (configId : String) (number : Int) : SpareKits :=
  { s with
    totalOutstandingForks := s.totalOutstandingForks + number
    outstandingForks :=
      s.outstandingForks.put ({ configId, number := s.outstanding configId + number } : OutstandingFork) }

def available (s : SpareKits) (configId : String) : Nat := s.newChildren.countP fun child => child.configId = configId

/-- Whether the message reaches a forkit. -/
def sendMessageToForKit (s : SpareKits) (configId : String) : Bool :=
    configId = "" || s.subForKitProcs.contains configId

def forkChildren (s : SpareKits) (configId : String) (number : Int) : SpareKits :=
  if 0 < number && s.sendMessageToForKit configId then s.countForks configId number else s

def cleanupChildren (s : SpareKits) : Bool × SpareKits :=
  let newChildren := s.newChildren.filter ChildProcess.isAlive
  (newChildren.length != s.newChildren.length,
    { s with
      newChildren
      removed := s.removed ++ (s.newChildren.filter fun child => !child.isAlive).map ChildProcess.pid })

/-- `timedOut`: the last request is longer ago than `ChildSpawnTimeoutMs`. -/
def resetOutstanding (s : SpareKits) (configId : String) (timedOut : Bool) : SpareKits :=
  if s.outstanding configId ≠ 0 && timedOut then s.countForks configId (-s.outstanding configId) else s

/-- The dead kits still count as available. -/
def rebalanceChildren (s : SpareKits) (configId : String) (balance : Int) (timedOut : Bool) : SpareKits :=
  let available := s.available configId
  let (rebalance, s) := s.cleanupChildren
  let s := s.resetOutstanding configId timedOut
  let balance := balance - available - s.outstanding configId
  if 0 < balance && (rebalance || s.outstanding configId = 0) then s.forkChildren configId balance else s

/-- The count does not become negative if there are unexpected kits. -/
def countArrival (s : SpareKits) (configId : String) : SpareKits :=
  if s.outstanding configId - 1 < 0 then
    { s with unexpected := Function.update s.unexpected configId (s.unexpected configId + 1) }
  else s.countForks configId (-1)

def addNewChild (s : SpareKits) (configId : String) : SpareKits :=
  { s.countArrival configId with
    newChildren := s.newChildren ++ [({ pid := s.connected, configId, isAlive := true } : ChildProcess)]
    connected := s.connected + 1 }

def dropSubForKit (s : SpareKits) (configId : String) : SpareKits :=
  if s.subForKitProcs.contains configId then
    { s with
      outstandingForks := s.outstandingForks.erase configId
      subForKitProcs := s.subForKitProcs.erase configId
      dropped := s.dropped + s.outstanding configId }
  else s

/-- The predicate of the wait in `getNewChild_Blocks` moves a kit of the configuration to the end, where it is
popped. -/
def popChild (newChildren : List ChildProcess) (configId : String) : Option (ChildProcess × List ChildProcess) :=
  match newChildren.findIdx? (fun child => child.configId = configId), newChildren.getLast? with
  | some i, some last => newChildren[i]?.map fun child => (child, (newChildren.set i last).dropLast)
  | _, _ => none

/-- `getNewChild_Blocks` up to its wait. -/
def requestChild (s : SpareKits) (configId : String) (timedOut : Bool) : SpareKits :=
  if configId = "" || s.subForKitProcs.contains configId then
    s.rebalanceChildren configId (s.numPreSpawnedChildren + 1) timedOut
  else s

/-- The end of `getNewChild_Blocks` without a kit: a forkit that did not respond is dropped. -/
def giveUp (s : SpareKits) (configId : String) : SpareKits := if configId = "" then s else s.dropSubForKit configId

/-- The wait has ended with a kit; if it is dead, `giveUp` follows. -/
def giveChild (s : SpareKits) (configId : String) : Option SpareKits :=
  (popChild s.newChildren configId).map fun (child, newChildren) =>
    if child.isAlive then { s with newChildren, given := s.given ++ [(child, configId)] }
    else { s with newChildren, removed := s.removed ++ [child.pid] }

/-- The disconnection of a kit without a document. -/
def onDisconnect (s : SpareKits) (pid : Nat) (timedOut : Bool) : SpareKits :=
  match s.newChildren.find? (fun child => child.pid = pid) with
  | some child =>
    { s with newChildren := s.newChildren.erase child, removed := s.removed ++ [pid] }.rebalanceChildren
      child.configId s.numPreSpawnedChildren timedOut
  | none => s.rebalanceChildren "" s.numPreSpawnedChildren timedOut

def createForKit (s : SpareKits) : SpareKits :=
  let s := { s.countForks "" 1 with launched := s.launched + 1 }
  let balance := (s.numPreSpawnedChildren : Int) - s.outstanding ""
  if 0 < balance then s.rebalanceChildren "" balance false else s

/-- A process dies. -/
def kill (s : SpareKits) (pid : Nat) : SpareKits :=
  { s with
    newChildren := s.newChildren.map fun child => if child.pid = pid then { child with isAlive := false } else child }

inductive Event
  | prespawnChildren (timedOut : Bool)
  | createForKit
  | subForKitConnects (configId : String) (timedOut : Bool)
  | dropSubForKit (configId : String)
  | addNewChild (configId : String)
  | requestChild (configId : String) (timedOut : Bool)
  | giveChild (configId : String)
  | giveUp (configId : String)
  | onDisconnect (pid : Nat) (timedOut : Bool)
  | kill (pid : Nat)

def step (s : SpareKits) : Event → Option SpareKits
  | .prespawnChildren timedOut => some (s.rebalanceChildren "" s.numPreSpawnedChildren timedOut)
  | .createForKit => some s.createForKit
  | .subForKitConnects configId timedOut =>
    some ({ s with subForKitProcs := configId :: s.subForKitProcs.erase configId }.rebalanceChildren configId
      s.numPreSpawnedChildren timedOut)
  | .dropSubForKit configId => some (s.dropSubForKit configId)
  | .addNewChild configId => some (s.addNewChild configId)
  | .requestChild configId timedOut => some (s.requestChild configId timedOut)
  | .giveChild configId => s.giveChild configId
  | .giveUp configId => some (s.giveUp configId)
  | .onDisconnect pid timedOut => some (s.onDisconnect pid timedOut)
  | .kill pid => some (s.kill pid)

abbrev Reachable (numPreSpawnedChildren : Nat) : SpareKits → Prop :=
  Run.Reachable (· = { numPreSpawnedChildren }) step Run.Any

theorem Reachable.of_run {numPreSpawnedChildren : Nat} {s : SpareKits} (es : List Event)
    (h : Run.run step { numPreSpawnedChildren } es = some s) : Reachable numPreSpawnedChildren s :=
  Run.Reachable.of_run (.start rfl) h

/-! ### What a step does -/

/-- The parts of which steps are made. -/
inductive Move (s : SpareKits) : SpareKits → Prop
  | cleanup : Move s s.cleanupChildren.2
  | reset (configId : String) (timedOut : Bool) : Move s (s.resetOutstanding configId timedOut)
  | fork (configId : String) (number : Int) (hspare : s.available configId + s.outstanding configId + number ≤
      s.numPreSpawnedChildren + 1) : Move s (s.forkChildren configId number)
  | launch : Move s { s.countForks "" 1 with launched := s.launched + 1 }
  | subForKit (subForKitProcs : List String) : Move s { s with subForKitProcs }
  | drop (configId : String) : Move s (s.dropSubForKit configId)
  | add (configId : String) : Move s (s.addNewChild configId)
  | give {configId : String} {child : ChildProcess} {newChildren : List ChildProcess}
      (hpop : popChild s.newChildren configId = some (child, newChildren)) :
      Move s { s with newChildren, given := s.given ++ [(child, configId)] }
  | discard {child : ChildProcess} {newChildren : List ChildProcess}
    (hpop : s.newChildren.Perm (child :: newChildren)) :
      Move s { s with newChildren, removed := s.removed ++ [child.pid] }
  | kill (pid : Nat) : Move s (s.kill pid)

abbrev Moves : SpareKits → SpareKits → Prop := Relation.ReflTransGen Move

variable {s s' : SpareKits} {configId : String} {numPreSpawnedChildren : Nat}

theorem outstanding_countForks (s : SpareKits) (configId c : String) (number : Int) :
    (s.countForks configId number).outstanding c = s.outstanding c + if c = configId then number else 0 := by
  unfold outstanding countForks
  rw [Table.find_put]
  split
  · rename_i h
    subst h
    rfl
  · rw [Int.add_zero]

theorem popChild_perm {l rest : List ChildProcess} {child : ChildProcess}
    (h : popChild l configId = some (child, rest)) : l.Perm (child :: rest) ∧ child.configId = configId := by
  unfold popChild at h
  split at h
  case h_2 => cases h
  case h_1 i last hi hlast =>
    obtain ⟨hlt, hfound, -⟩ := List.findIdx?_eq_some_iff_getElem.1 hi
    rw [List.getElem?_eq_getElem hlt] at h
    obtain ⟨rfl, rfl⟩ := Prod.mk.inj (Option.some.inj h)
    refine ⟨?_, by simpa using hfound⟩
    obtain ⟨init, rfl⟩ := List.getLast?_eq_some_iff.1 hlast
    by_cases hlast : i = init.length
    · subst hlast
      simp
    · have hlt : i < init.length := by
        rw [List.length_append, List.length_singleton] at hlt
        omega
      rw [List.set_append_left _ _ hlt, List.dropLast_concat, List.getElem_append_left hlt]
      refine List.perm_append_comm.trans ?_
      rw [List.singleton_append]
      refine ((List.getElem_cons_eraseIdx_perm hlt).symm.cons last).trans ?_
      refine (List.Perm.swap _ _ _).trans (List.Perm.cons _ ?_)
      exact (List.set_perm_cons_eraseIdx hlt last).symm

theorem numPreSpawnedChildren_cleanupChildren (s : SpareKits) :
    s.cleanupChildren.2.numPreSpawnedChildren = s.numPreSpawnedChildren := rfl

theorem available_cleanupChildren (s : SpareKits) (c : String) : s.cleanupChildren.2.available c ≤ s.available c :=
  List.Sublist.countP_le List.filter_sublist

theorem available_resetOutstanding (s : SpareKits) (c : String) (timedOut : Bool) :
    (s.resetOutstanding configId timedOut).available c = s.available c := by
  unfold resetOutstanding
  split <;> rfl

theorem numPreSpawnedChildren_resetOutstanding (s : SpareKits) (timedOut : Bool) :
    (s.resetOutstanding configId timedOut).numPreSpawnedChildren = s.numPreSpawnedChildren := by
  unfold resetOutstanding
  split <;> rfl

theorem Moves.rebalanceChildren (s : SpareKits) (configId : String) {balance : Int}
    (hbalance : balance ≤ s.numPreSpawnedChildren + 1) (timedOut : Bool) :
    Moves s (s.rebalanceChildren configId balance timedOut) := by
  have hreset : Moves s (s.cleanupChildren.2.resetOutstanding configId timedOut) :=
    .tail (.single (.cleanup)) (.reset configId timedOut)
  unfold SpareKits.rebalanceChildren
  dsimp only
  split
  · refine .tail hreset (.fork configId _ ?_)
    rw [available_resetOutstanding, numPreSpawnedChildren_resetOutstanding, numPreSpawnedChildren_cleanupChildren]
    have hle := available_cleanupChildren s configId
    omega
  · exact hreset

theorem Moves.giveUp (s : SpareKits) (configId : String) : Moves s (s.giveUp configId) := by
  unfold SpareKits.giveUp
  split
  · exact .refl
  · exact .single (.drop configId)

theorem moves_of_step (hnonneg : 0 ≤ s.outstanding "") {e : Event} (h : s.step e = some s') : Moves s s' := by
  cases e with
  | prespawnChildren timedOut =>
    cases h
    exact Moves.rebalanceChildren s "" (by omega) timedOut
  | createForKit =>
    cases h
    unfold SpareKits.createForKit
    dsimp only
    split
    · refine .head .launch (Moves.rebalanceChildren _ "" ?_ false)
      have hcount : 0 ≤ (s.countForks "" 1).outstanding "" := by
        rw [outstanding_countForks, if_pos rfl]
        omega
      have hbalance : ((s.countForks "" 1).numPreSpawnedChildren : Int) - (s.countForks "" 1).outstanding "" ≤
          (s.countForks "" 1).numPreSpawnedChildren + 1 := by
        omega
      exact hbalance
    · exact .single .launch
  | subForKitConnects configId timedOut =>
    cases h
    exact .head (.subForKit _) (Moves.rebalanceChildren _ configId (by dsimp only; omega) timedOut)
  | dropSubForKit configId =>
    cases h
    exact .single (.drop configId)
  | addNewChild configId =>
    cases h
    exact .single (.add configId)
  | requestChild configId timedOut =>
    cases h
    unfold SpareKits.requestChild
    split
    · exact Moves.rebalanceChildren s configId (by omega) timedOut
    · exact .refl
  | giveChild configId =>
    simp only [step, SpareKits.giveChild, Option.map_eq_some_iff] at h
    obtain ⟨⟨child, newChildren⟩, hpop, rfl⟩ := h
    dsimp only
    split
    · exact .single (.give hpop)
    · exact .single (.discard (popChild_perm hpop).1)
  | giveUp configId =>
    cases h
    exact Moves.giveUp s configId
  | onDisconnect pid timedOut =>
    cases h
    unfold SpareKits.onDisconnect
    split
    case h_1 child hfind =>
      have hpid : child.pid = pid := by simpa using List.find?_some hfind
      subst hpid
      refine .head (.discard (List.perm_cons_erase (List.mem_of_find?_eq_some hfind))) ?_
      exact Moves.rebalanceChildren _ child.configId (by dsimp only; omega) timedOut
    case h_2 => exact Moves.rebalanceChildren s "" (by omega) timedOut
  | kill pid =>
    cases h
    exact .single (.kill pid)

/-! ### The counters -/

/-- What the requests add up to. -/
def requested (s : SpareKits) : Int := (s.outstandingForks.entries.map OutstandingFork.number).sum

structure Accounted (s : SpareKits) : Prop where
  nonneg (configId : String) : 0 ≤ s.outstanding configId
  total : s.totalOutstandingForks = s.requested + s.dropped
  dropped_nonneg : 0 ≤ s.dropped

theorem requested_eq (s : SpareKits) (configId : String) : s.requested = s.outstanding configId +
    ((s.outstandingForks.erase configId).entries.map OutstandingFork.number).sum :=
  Table.sum_erase s.outstandingForks configId OutstandingFork.number

theorem requested_countForks (s : SpareKits) (configId : String) (number : Int) :
    (s.countForks configId number).requested = s.requested + number := by
  rw [requested_eq s configId]
  unfold requested countForks
  dsimp only
  rw [Table.entries_put, List.map_cons, List.sum_cons]
  dsimp only
  omega

theorem Accounted.countForks (hs : Accounted s) {number : Int} (hnonneg : 0 ≤ s.outstanding configId + number) :
    Accounted (s.countForks configId number) where
  nonneg c := by
    rw [outstanding_countForks]
    have hc := hs.nonneg c
    split
    · rename_i heq
      rwa [heq]
    · omega
  total := by
    have htotal := hs.total
    have hrequested := requested_countForks s configId number
    unfold SpareKits.countForks at hrequested ⊢
    dsimp only at hrequested ⊢
    omega
  dropped_nonneg := hs.dropped_nonneg

theorem outstanding_dropSubForKit (s : SpareKits) (configId c : String) :
    (s.dropSubForKit configId).outstanding c = s.outstanding c ∨
      c = configId ∧ (s.dropSubForKit configId).outstanding c = 0 := by
  unfold dropSubForKit
  split
  · by_cases hc : c = configId
    · subst hc
      right
      refine ⟨rfl, ?_⟩
      unfold outstanding
      dsimp only
      rw [Table.find_erase_self]
      rfl
    · left
      unfold outstanding
      dsimp only
      rw [Table.find_erase_of_ne hc]
  · exact .inl rfl

theorem Accounted.dropSubForKit (hs : Accounted s) (configId : String) : Accounted (s.dropSubForKit configId) where
  nonneg c := by
    have hc := hs.nonneg c
    rcases outstanding_dropSubForKit s configId c with heq | ⟨-, heq⟩
    · rwa [heq]
    · exact Int.le_of_eq heq.symm
  total := by
    have htotal := hs.total
    have hrequested := requested_eq s configId
    unfold SpareKits.dropSubForKit
    split
    · unfold requested
      dsimp only
      omega
    · exact htotal
  dropped_nonneg := by
    have hdropped := hs.dropped_nonneg
    have hnonneg := hs.nonneg configId
    unfold SpareKits.dropSubForKit
    split
    · dsimp only
      omega
    · exact hdropped

theorem Move.accounted (hs : Accounted s) (h : Move s s') : Accounted s' := by
  cases h with
  | cleanup => exact ⟨hs.nonneg, hs.total, hs.dropped_nonneg⟩
  | reset configId timedOut =>
    unfold resetOutstanding
    split
    · exact hs.countForks (by omega)
    · exact hs
  | fork configId number =>
    have hnonneg := hs.nonneg configId
    unfold forkChildren
    split
    · rename_i hsend
      rw [Bool.and_eq_true, decide_eq_true_eq] at hsend
      exact hs.countForks (by omega)
    · exact hs
  | launch =>
    have hnonneg := hs.nonneg ""
    have hlaunch : Accounted (s.countForks "" 1) := hs.countForks (by omega)
    exact ⟨hlaunch.nonneg, hlaunch.total, hlaunch.dropped_nonneg⟩
  | subForKit subForKitProcs => exact ⟨hs.nonneg, hs.total, hs.dropped_nonneg⟩
  | drop configId => exact hs.dropSubForKit configId
  | add configId =>
    have hadd : Accounted (s.countArrival configId) := by
      unfold countArrival
      split
      · exact ⟨hs.nonneg, hs.total, hs.dropped_nonneg⟩
      · exact hs.countForks (by omega)
    exact ⟨hadd.nonneg, hadd.total, hadd.dropped_nonneg⟩
  | give _ => exact ⟨hs.nonneg, hs.total, hs.dropped_nonneg⟩
  | discard _ => exact ⟨hs.nonneg, hs.total, hs.dropped_nonneg⟩
  | kill pid => exact ⟨hs.nonneg, hs.total, hs.dropped_nonneg⟩

/-- What holds at the start and is kept by every move holds of every reachable state. -/
theorem Reachable.keeps {inv : SpareKits → Prop} (hinit : inv { numPreSpawnedChildren })
    (hmove : ∀ {s s'}, Accounted s → Move s s' → inv s → inv s') (h : Reachable numPreSpawnedChildren s) :
    Accounted s ∧ inv s := by
  refine Run.Reachable.invariant (fun s => Accounted s ∧ inv s) ?_ ?_ h
  · rintro s rfl
    exact ⟨⟨fun _ => Int.le_refl 0, rfl, Int.le_refl 0⟩, hinit⟩
  · rintro s e s' - ⟨hs, hinv⟩ - hstep
    have hmoves := moves_of_step (hs.nonneg "") hstep
    clear hstep
    induction hmoves with
    | refl => exact ⟨hs, hinv⟩
    | tail _ h ih => exact ⟨h.accounted ih.1, hmove ih.1 h ih.2⟩

/-- No count of requested kits is ever negative, and the total is what is requested of the configurations and what was
requested of the forkits that were dropped. -/
theorem forks_accounted (h : Reachable numPreSpawnedChildren s) : (∀ configId, 0 ≤ s.outstanding configId) ∧
    s.totalOutstandingForks = s.requested + s.dropped ∧ 0 ≤ s.dropped := by
  have hkeeps : Accounted s ∧ True := h.keeps True.intro fun _ _ _ => True.intro
  obtain ⟨hs, -⟩ := hkeeps
  exact ⟨hs.nonneg, hs.total, hs.dropped_nonneg⟩

/-- A forkit is launched, its kit connects, and a document asks for it. -/
theorem reachable_firstRequest :
    Reachable 2 (({ numPreSpawnedChildren := 2 } : SpareKits).createForKit.addNewChild "" |>.requestChild "" false) :=
  .of_run [.createForKit, .addNewChild "", .requestChild "" false] rfl

theorem forks_accounted_firstRequest : ∃ s, Run.run step { numPreSpawnedChildren := 2 }
      [.createForKit, .addNewChild "", .requestChild "" false] = some s ∧ s.totalOutstandingForks = 2 ∧
    (∀ configId, 0 ≤ s.outstanding configId) ∧ s.totalOutstandingForks = s.requested + s.dropped ∧ 0 ≤ s.dropped :=
  ⟨_, rfl, by decide, forks_accounted reachable_firstRequest⟩

/-! ### The number of spare kits -/

/-- The bound on the spare and the requested kits of a configuration; a new forkit spawns a kit without being
asked. -/
def spareLimit (s : SpareKits) (configId : String) : Int :=
  s.numPreSpawnedChildren + 1 + s.unexpected configId + if configId = "" then (s.launched : Int) else 0

def Bounded (s : SpareKits) : Prop :=
  ∀ configId, (s.available configId : Int) + s.outstanding configId ≤ s.spareLimit configId

theorem spareLimit_ge (s : SpareKits) (configId : String) :
    (s.numPreSpawnedChildren : Int) + 1 ≤ s.spareLimit configId := by
  unfold spareLimit
  split <;> omega

theorem Bounded.remove (hb : Bounded s) {newChildren : List ChildProcess} {child : ChildProcess}
    (h : s.newChildren.Perm (child :: newChildren)) (c : String) :
    (newChildren.countP (fun child => child.configId = c) : Int) + s.outstanding c ≤ s.spareLimit c := by
  have hc := hb c
  unfold available at hc
  rw [h.countP_eq, List.countP_cons] at hc
  omega

theorem available_kill (s : SpareKits) (pid : Nat) (c : String) : (s.kill pid).available c = s.available c := by
  unfold available kill
  rw [List.countP_map]
  apply List.countP_congr
  intro child _
  dsimp only [Function.comp]
  split <;> rfl

theorem available_addNewChild (s : SpareKits) (configId c : String) :
    (s.addNewChild configId).available c = s.available c + if c = configId then 1 else 0 := by
  unfold available addNewChild
  dsimp only
  rw [List.countP_append, List.countP_singleton]
  by_cases heq : c = configId
  · rw [if_pos (decide_eq_true heq.symm), if_pos heq]
  · rw [if_neg (by simpa using Ne.symm heq), if_neg heq]

/-- A kit that connects is either one of the requested ones or unexpected. -/
theorem outstanding_countArrival (s : SpareKits) (configId c : String) :
    (s.countArrival configId).outstanding c + (if c = configId then 1 else 0) + s.unexpected c =
      s.outstanding c + (s.countArrival configId).unexpected c := by
  unfold countArrival
  split
  · change s.outstanding c + _ + _ = s.outstanding c + _
    dsimp only
    by_cases heq : c = configId
    · subst heq
      rw [Function.update_self, if_pos rfl]
      omega
    · rw [Function.update_of_ne heq, if_neg heq]
      omega
  · rw [outstanding_countForks]
    unfold countForks
    dsimp only
    split <;> omega

theorem addNewChild_bounded (hb : Bounded s) (configId : String) : Bounded (s.addNewChild configId) := by
  intro c
  have hc := hb c
  have hcount := outstanding_countArrival s configId c
  have hlimit : (s.countArrival configId).spareLimit c + s.unexpected c =
      s.spareLimit c + (s.countArrival configId).unexpected c := by
    unfold spareLimit countArrival
    split
    · dsimp only
      omega
    · unfold countForks
      dsimp only
  rw [available_addNewChild]
  change ((s.available c + if c = configId then 1 else 0 : Nat) : Int) + (s.countArrival configId).outstanding c ≤
    (s.countArrival configId).spareLimit c
  split at hcount
  · rename_i heq
    rw [if_pos heq]
    omega
  · rename_i hne
    rw [if_neg hne]
    omega

theorem Move.bounded (hs : Accounted s) (h : Move s s') (hb : Bounded s) : Bounded s' := by
  cases h with
  | cleanup =>
    intro c
    have hc := hb c
    have hle := available_cleanupChildren s c
    change (s.cleanupChildren.2.available c : Int) + s.outstanding c ≤ s.spareLimit c
    omega
  | reset configId timedOut =>
    intro c
    have hc := hb c
    rw [available_resetOutstanding]
    unfold resetOutstanding
    split
    · rw [outstanding_countForks]
      have hnonneg := hs.nonneg configId
      change (s.available c : Int) + _ ≤ s.spareLimit c
      split <;> omega
    · exact hc
  | fork configId number hspare =>
    unfold forkChildren
    split
    · intro c
      have hc := hb c
      rw [outstanding_countForks]
      change (s.available c : Int) + _ ≤ s.spareLimit c
      split
      · rename_i heq
        subst heq
        have hlimit := spareLimit_ge s c
        omega
      · omega
    · exact hb
  | launch =>
    intro c
    have hc := hb c
    change (s.available c : Int) + (s.countForks "" 1).outstanding c ≤ s.numPreSpawnedChildren + 1 + s.unexpected c +
      if c = "" then ((s.launched + 1 : Nat) : Int) else 0
    rw [outstanding_countForks]
    unfold spareLimit at hc
    by_cases hempty : c = ""
    · rw [if_pos hempty] at hc
      rw [if_pos hempty, if_pos hempty]
      omega
    · rw [if_neg hempty] at hc
      rw [if_neg hempty, if_neg hempty]
      omega
  | subForKit subForKitProcs => exact hb
  | drop configId =>
    intro c
    have hc := hb c
    have hnonneg := hs.nonneg c
    have hlimit : (s.dropSubForKit configId).spareLimit c = s.spareLimit c := by
      unfold dropSubForKit
      split <;> rfl
    have havailable : (s.dropSubForKit configId).available c = s.available c := by
      unfold dropSubForKit
      split <;> rfl
    rcases outstanding_dropSubForKit s configId c with heq | ⟨-, heq⟩ <;> omega
  | add configId => exact addNewChild_bounded hb configId
  | give hpop => exact hb.remove (popChild_perm hpop).1
  | discard hpop => exact hb.remove hpop
  | kill pid =>
    intro c
    rw [available_kill]
    exact hb c

/-- A configuration has at most one spare or requested kit more than the configured number, not counting the kits
nobody had asked for. -/
theorem spares_bounded (h : Reachable numPreSpawnedChildren s) (configId : String) :
    (s.available configId : Int) + s.outstanding configId ≤
      s.numPreSpawnedChildren + 1 + s.unexpected configId + if configId = "" then (s.launched : Int) else 0 := by
  have hinit : Bounded { numPreSpawnedChildren } := by
    intro c
    have hlimit := spareLimit_ge { numPreSpawnedChildren } c
    change (0 : Int) + 0 ≤ _
    dsimp only at hlimit
    omega
  exact (h.keeps hinit Move.bounded).2 configId

theorem spares_bounded_firstRequest : ∃ s, Run.run step { numPreSpawnedChildren := 2 }
      [.createForKit, .addNewChild "", .requestChild "" false] = some s ∧
    (s.available "" : Int) + s.outstanding "" ≤
      s.numPreSpawnedChildren + 1 + s.unexpected "" + s.launched :=
  ⟨_, rfl, spares_bounded reachable_firstRequest ""⟩

/-! ### Where the kits are -/

/-- How often a kit is among the spare ones, the ones given away and the ones that were removed. -/
def holders (s : SpareKits) (pid : Nat) : Nat :=
  (s.newChildren.map ChildProcess.pid).count pid + (s.given.map fun p => p.1.pid).count pid + s.removed.count pid

structure Custody (s : SpareKits) : Prop where
  once (pid : Nat) : s.holders pid = if pid < s.connected then 1 else 0
  asked : ∀ p ∈ s.given, p.1.configId = p.2

theorem Custody.of_eq (hs : Custody s)
    (hnewChildren : s'.newChildren.map ChildProcess.pid = s.newChildren.map ChildProcess.pid)
    (hgiven : s'.given = s.given) (hremoved : s'.removed = s.removed) (hconnected : s'.connected = s.connected) :
    Custody s' where
  once pid := by
    have hpid := hs.once pid
    unfold holders at hpid ⊢
    rwa [hnewChildren, hgiven, hremoved, hconnected]
  asked := by
    rw [hgiven]
    exact hs.asked

theorem count_of_perm {l rest : List ChildProcess} {child : ChildProcess} (h : l.Perm (child :: rest)) (pid : Nat) :
    (l.map ChildProcess.pid).count pid = (rest.map ChildProcess.pid).count pid + [child.pid].count pid := by
  have hperm := h.map ChildProcess.pid
  rw [hperm.count_eq, List.map_cons, List.count_cons, List.count_singleton]

theorem holders_cleanupChildren (s : SpareKits) (pid : Nat) : s.cleanupChildren.2.holders pid = s.holders pid := by
  have hperm := (List.filter_append_perm ChildProcess.isAlive s.newChildren).map ChildProcess.pid
  have hcount := hperm.count_eq pid
  rw [List.map_append, List.count_append] at hcount
  unfold holders cleanupChildren
  dsimp only
  rw [List.count_append]
  omega

theorem Move.custody (h : Move s s') (hs : Custody s) : Custody s' := by
  cases h with
  | cleanup => exact ⟨fun pid => (holders_cleanupChildren s pid).trans (hs.once pid), hs.asked⟩
  | reset configId timedOut =>
    apply hs.of_eq <;> unfold resetOutstanding <;> split <;> rfl
  | fork configId number =>
    apply hs.of_eq <;> unfold forkChildren <;> split <;> rfl
  | launch => exact hs.of_eq rfl rfl rfl rfl
  | subForKit subForKitProcs => exact hs.of_eq rfl rfl rfl rfl
  | drop configId =>
    apply hs.of_eq <;> unfold dropSubForKit <;> split <;> rfl
  | add configId =>
    have hgiven : (s.addNewChild configId).given = s.given := by
      unfold addNewChild countArrival
      split <;> rfl
    have hremoved : (s.addNewChild configId).removed = s.removed := by
      unfold addNewChild countArrival
      split <;> rfl
    constructor
    · intro pid
      have hpid := hs.once pid
      unfold holders at hpid ⊢
      rw [hgiven, hremoved]
      unfold addNewChild
      dsimp only
      rw [List.map_append, List.count_append, List.map_singleton, List.count_singleton]
      dsimp only
      have hnext : (if s.connected == pid then 1 else 0) + (if pid < s.connected then 1 else 0) =
          if pid < s.connected + 1 then 1 else 0 := by
        by_cases heq : s.connected = pid
        · subst heq
          rw [beq_self_eq_true, if_pos rfl, if_neg (Nat.lt_irrefl _), if_pos (Nat.lt_succ_self _)]
        · rw [if_neg (by simpa using heq), Nat.zero_add]
          by_cases hlt : pid < s.connected
          · rw [if_pos hlt, if_pos (by omega)]
          · rw [if_neg hlt, if_neg (by omega)]
      omega
    · rw [hgiven]
      exact hs.asked
  | give hpop =>
    obtain ⟨hperm, hconfig⟩ := popChild_perm hpop
    constructor
    · intro pid
      have hpid := hs.once pid
      unfold holders at hpid ⊢
      rw [count_of_perm hperm] at hpid
      dsimp only
      rw [List.map_append, List.count_append, List.map_singleton]
      dsimp only
      omega
    · intro p hp
      rcases List.mem_append.1 hp with hp | hp
      · exact hs.asked p hp
      · rw [List.mem_singleton.1 hp]
        exact hconfig
  | discard hperm =>
    refine ⟨fun pid => ?_, hs.asked⟩
    have hpid := hs.once pid
    unfold holders at hpid ⊢
    rw [count_of_perm hperm] at hpid
    dsimp only
    rw [List.count_append]
    omega
  | kill pid =>
    refine hs.of_eq ?_ rfl rfl rfl
    unfold SpareKits.kill
    dsimp only
    rw [List.map_map]
    apply List.map_congr_left
    intro child _
    dsimp only [Function.comp]
    split <;> rfl

/-- A kit that has connected is spare, or was given away once, to one who had asked for its configuration, or was
removed. -/
theorem children_once (h : Reachable numPreSpawnedChildren s) :
    (∀ pid, s.holders pid = if pid < s.connected then 1 else 0) ∧ ∀ p ∈ s.given, p.1.configId = p.2 := by
  have hinit : Custody { numPreSpawnedChildren } := ⟨fun _ => rfl, fun _ hp => absurd hp (List.not_mem_nil)⟩
  obtain ⟨-, hs⟩ := h.keeps hinit fun _ => Move.custody
  exact ⟨hs.once, hs.asked⟩

theorem children_once_firstRequest : ∃ s, Run.run step { numPreSpawnedChildren := 2 }
      [.createForKit, .addNewChild "", .requestChild "" false, .giveChild ""] = some s ∧ s.given.length = 1 ∧
    (∀ pid, s.holders pid = if pid < s.connected then 1 else 0) ∧ ∀ p ∈ s.given, p.1.configId = p.2 := by
  obtain ⟨s, hrun, hgiven⟩ : ∃ s, Run.run step { numPreSpawnedChildren := 2 }
      [.createForKit, .addNewChild "", .requestChild "" false, .giveChild ""] = some s ∧ s.given.length = 1 :=
    ⟨_, rfl, by decide⟩
  exact ⟨s, hrun, hgiven, children_once (.of_run _ hrun)⟩

/-! ### Whether a document gets a kit -/

theorem available_cleanupChildren_eq_zero : s.cleanupChildren.2.available configId = 0 ↔
    ∀ child ∈ s.newChildren, child.configId = configId → child.isAlive = false := by
  unfold available cleanupChildren
  dsimp only
  rw [List.countP_eq_zero]
  constructor
  · intro h child hmem hconfig
    cases halive : child.isAlive with
    | false => rfl
    | true => exact absurd (decide_eq_true hconfig) (h child (List.mem_filter.2 ⟨hmem, halive⟩))
  · intro h child hmem hconfig
    obtain ⟨hmem, halive⟩ := List.mem_filter.1 hmem
    rw [h child hmem (of_decide_eq_true hconfig)] at halive
    cases halive

theorem outstanding_resetOutstanding (s : SpareKits) (configId : String) (timedOut : Bool) :
    (s.resetOutstanding configId timedOut).outstanding configId = if timedOut then 0 else s.outstanding configId := by
  unfold resetOutstanding
  split
  · rename_i h
    rw [Bool.and_eq_true] at h
    rw [outstanding_countForks, if_pos rfl, if_pos h.2]
    omega
  · rename_i h
    rw [Bool.and_eq_true, not_and, decide_eq_true_eq] at h
    split
    · rename_i htimedOut
      by_contra hne
      exact h hne htimedOut
    · rfl

/-- When a document asks for a kit of a forkit that is known, one is there or has been asked for, except when all kits
of the configuration are dead and were counted as enough. -/
theorem requestChild_idle_iff (h : Reachable numPreSpawnedChildren s)
    (hknown : configId = "" ∨ configId ∈ s.subForKitProcs)
    (timedOut : Bool) : (s.requestChild configId timedOut).available configId = 0 ∧
      (s.requestChild configId timedOut).outstanding configId = 0 ↔
    (∀ child ∈ s.newChildren, child.configId = configId → child.isAlive = false) ∧
      s.numPreSpawnedChildren < s.available configId ∧ (s.outstanding configId = 0 ∨ timedOut = true) := by
  have hkeeps : Accounted s ∧ True := h.keeps True.intro fun _ _ _ => True.intro
  have hnonneg := hkeeps.1.nonneg configId
  have hreset : (s.cleanupChildren.2.resetOutstanding configId timedOut).outstanding configId =
      if timedOut then 0 else s.outstanding configId :=
    outstanding_resetOutstanding s.cleanupChildren.2 configId timedOut
  have havailable : (s.cleanupChildren.2.resetOutstanding configId timedOut).available configId =
      s.cleanupChildren.2.available configId := available_resetOutstanding s.cleanupChildren.2 configId timedOut
  have hsend : (s.cleanupChildren.2.resetOutstanding configId timedOut).sendMessageToForKit configId = true := by
    have hsub : (s.cleanupChildren.2.resetOutstanding configId timedOut).subForKitProcs = s.subForKitProcs := by
      unfold resetOutstanding
      split <;> rfl
    unfold sendMessageToForKit
    rw [hsub]
    simpa using hknown
  have hspare : (s.cleanupChildren.2.resetOutstanding configId timedOut).outstanding configId = 0 ↔
      s.outstanding configId = 0 ∨ timedOut = true := by
    rw [hreset]
    split <;> simp_all
  unfold requestChild
  rw [if_pos (by simpa using hknown)]
  unfold rebalanceChildren
  dsimp only
  rw [← available_cleanupChildren_eq_zero, ← havailable, ← hspare]
  have hnonneg' : 0 ≤ (s.cleanupChildren.2.resetOutstanding configId timedOut).outstanding configId := by
    rw [hreset]
    split <;> omega
  generalize s.cleanupChildren.2.resetOutstanding configId timedOut = t at *
  split
  · -- More kits are requested.
    rename_i hbalance
    rw [Bool.and_eq_true, decide_eq_true_eq] at hbalance
    unfold forkChildren
    rw [if_pos (by rw [hsend, Bool.and_true]; exact decide_eq_true hbalance.1), outstanding_countForks, if_pos rfl]
    omega
  · rename_i hbalance
    rw [Bool.and_eq_true, decide_eq_true_eq, not_and, Bool.or_eq_true, decide_eq_true_eq] at hbalance
    constructor
    · rintro ⟨hnone, hzero⟩
      refine ⟨hnone, ?_, hzero⟩
      by_contra hle
      exact hbalance (by omega) (.inr hzero)
    · rintro ⟨hnone, -, hzero⟩
      exact ⟨hnone, hzero⟩

/-- The only kit dies, and a document that asks for one waits in vain. -/
theorem requestChild_idle_iff_dead : ∃ s, Run.run step { numPreSpawnedChildren := 0 }
      [.createForKit, .addNewChild "", .kill 0] = some s ∧
    (s.requestChild "" false).available "" = 0 ∧ (s.requestChild "" false).outstanding "" = 0 :=
  have hreach : Reachable 0 (({ numPreSpawnedChildren := 0 } : SpareKits).createForKit.addNewChild "" |>.kill 0) :=
    .of_run [.createForKit, .addNewChild "", .kill 0] rfl
  ⟨_, rfl, (requestChild_idle_iff hreach (.inl rfl) false).2 ⟨by decide, by decide, .inl (by decide)⟩⟩

end SpareKits

end CollaboraOnline
