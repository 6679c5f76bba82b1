import Mathlib.Data.List.Perm.Basic
import CollaboraOnline.Lib.Run

/-!
# The thread pool

`run` executes the tasks of the queue on the calling thread and on the threads of the pool.  A step is what one thread
does while it holds the mutex, from `lock` to `unlock` or to a wait; the tasks run in between.  A wait may end at any
time.
-/

namespace CollaboraOnline

variable {ThreadFn : Type*}

/-- Where a thread of the pool is in `work`. -/
inductive Worker (ThreadFn : Type*)
  | started
  /-- On `_cond`. -/
  | waiting
  | woken
  | running (fn : ThreadFn)
  /-- The task has returned or thrown, and the thread wants the mutex. -/
  | finished
deriving DecidableEq

/-- Where the calling thread is in `run`. -/
inductive Caller (ThreadFn : Type*)
  | idle
  | running (fn : ThreadFn)
  | finished
  /-- On `_complete`. -/
  | waiting
  | woken
  | returned
deriving DecidableEq

structure ThreadPool (ThreadFn : Type*) where
  threads : List (Worker ThreadFn)
  work : List ThreadFn
  working : Nat := 0
  running : Bool := false
  caller : Caller ThreadFn := .idle
  useThreads : Bool := false
  /-- The tasks that have returned. -/
  executed : List ThreadFn := []

namespace Worker

/-- Between the two ends of `runOne`. -/
def isBusy : Worker ThreadFn → Bool
  | running _ | finished => true
  | started | waiting | woken => false

def inHand : Worker ThreadFn → List ThreadFn
  | running fn => [fn]
  | _ => []

/-- `notify_all` on `_cond`. -/
def notify : Worker ThreadFn → Worker ThreadFn
  | waiting => woken
  | w => w

@[simp] theorem isBusy_notify (w : Worker ThreadFn) : w.notify.isBusy = w.isBusy := by cases w <;> rfl

@[simp] theorem inHand_notify (w : Worker ThreadFn) : w.notify.inHand = w.inHand := by cases w <;> rfl

end Worker

namespace Caller

def isBusy : Caller ThreadFn → Bool
  | running _ | finished => true
  | idle | waiting | woken | returned => false

def inHand : Caller ThreadFn → List ThreadFn
  | running fn => [fn]
  | _ => []

/-- `notify_all` on `_complete`. -/
def notify : Caller ThreadFn → Caller ThreadFn
  | waiting => woken
  | c => c

end Caller

namespace ThreadPool

/-- The end of `runOne`. -/
def finishOne (s : ThreadPool ThreadFn) : ThreadPool ThreadFn :=
  let s := { s with working := s.working - 1 }
  if s.work.isEmpty && s.working == 0 then { s with caller := s.caller.notify } else s

/-- `run` from the test of its loop on, up to the next task, the wait or the end. -/
def runLoop (s : ThreadPool ThreadFn) : ThreadPool ThreadFn :=
  match s.work with
  | fn :: work => { s with work, working := s.working + 1, caller := .running fn }
  | [] =>
    if s.useThreads && (s.working > 0 || !s.work.isEmpty) then { s with caller := .waiting }
    else { s with running := false, caller := .returned }

def run (s : ThreadPool ThreadFn) : ThreadPool ThreadFn :=
  let s := { s with running := true, useThreads := s.threads.length > 1 && s.work.length > 1 }
  let s := if s.useThreads then { s with threads := s.threads.map Worker.notify } else s
  s.runLoop

/-- The predicate of the wait on `_complete`. -/
def runWoken (s : ThreadPool ThreadFn) : ThreadPool ThreadFn :=
  if s.working == 0 && s.work.isEmpty then { s with running := false, caller := .returned }
  else { s with caller := .waiting }

/-- The inner loop of `work`, up to the next task or the wait. -/
def workLoop (s : ThreadPool ThreadFn) (i : Nat) : ThreadPool ThreadFn :=
  match s.work with
  | fn :: work =>
    if s.running then { s with work, working := s.working + 1, threads := s.threads.set i (.running fn) }
    else { s with threads := s.threads.set i .waiting }
  | [] => { s with threads := s.threads.set i .waiting }

inductive Event
  | run
  /-- The task of the caller returns, or throws. -/
  | callerReturns
  | callerLocks
  | callerWakes
  | threadReturns (i : Nat)
  | threadLocks (i : Nat)
  | threadWakes (i : Nat)

def step (s : ThreadPool ThreadFn) : Event → Option (ThreadPool ThreadFn)
  | .run =>
    match s.caller with
    | .idle => some s.run
    | _ => none
  | .callerReturns =>
    match s.caller with
    | .running fn => some { s with caller := .finished, executed := s.executed ++ [fn] }
    | _ => none
  | .callerLocks =>
    match s.caller with
    | .finished => some s.finishOne.runLoop
    | .woken => some s.runWoken
    | _ => none
  | .callerWakes =>
    match s.caller with
    | .waiting => some { s with caller := .woken }
    | _ => none
  | .threadReturns i =>
    match s.threads[i]? with
    | some (.running fn) => some { s with threads := s.threads.set i .finished, executed := s.executed ++ [fn] }
    | _ => none
  | .threadLocks i =>
    match s.threads[i]? with
    | some .started => some { s with threads := s.threads.set i .waiting }
    | some .woken => some (s.workLoop i)
    | some .finished => some (s.finishOne.workLoop i)
    | _ => none
  | .threadWakes i =>
    match s.threads[i]? with
    | some .waiting => some { s with threads := s.threads.set i .woken }
    | _ => none

/-- A pool of `n` threads, none in a task, with the tasks that were pushed. -/
def IsInit (n : Nat) (tasks : List ThreadFn) (s : ThreadPool ThreadFn) : Prop :=
  s = { threads := s.threads, work := tasks } ∧ s.threads.length = n ∧ ∀ w ∈ s.threads, w.isBusy = false

abbrev Reachable (n : Nat) (tasks : List ThreadFn) : ThreadPool ThreadFn → Prop :=
  Run.Reachable (IsInit n tasks) step Run.Any

/-- After `run` has returned, every task was executed once, and none is queued or executing. -/
def Quiet (tasks : List ThreadFn) (s : ThreadPool ThreadFn) : Prop :=
  s.caller = .returned → s.executed.Perm tasks ∧ s.work = [] ∧ ∀ fn, .running fn ∉ s.threads

/-! ### One thread among the others -/

variable {s : ThreadPool ThreadFn} {tasks : List ThreadFn} {n i : Nat} {w v : Worker ThreadFn}

theorem countP_isBusy (h : s.threads[i]? = some w) : s.threads.countP Worker.isBusy =
    (s.threads.eraseIdx i).countP Worker.isBusy + if w.isBusy then 1 else 0 := by
  obtain ⟨hi, rfl⟩ := List.getElem?_eq_some_iff.1 h
  rw [← (List.getElem_cons_eraseIdx_perm hi).countP_eq, List.countP_cons]

theorem countP_isBusy_set (h : s.threads[i]? = some w) : (s.threads.set i v).countP Worker.isBusy =
    (s.threads.eraseIdx i).countP Worker.isBusy + if v.isBusy then 1 else 0 := by
  obtain ⟨hi, -⟩ := List.getElem?_eq_some_iff.1 h
  rw [(List.set_perm_cons_eraseIdx hi v).countP_eq, List.countP_cons]

theorem inHand_perm (h : s.threads[i]? = some w) : (s.threads.flatMap Worker.inHand).Perm
    (w.inHand ++ (s.threads.eraseIdx i).flatMap Worker.inHand) := by
  obtain ⟨hi, rfl⟩ := List.getElem?_eq_some_iff.1 h
  have hperm := (List.getElem_cons_eraseIdx_perm hi).symm.flatMap_right Worker.inHand
  rwa [List.flatMap_cons] at hperm

theorem inHand_set_perm (h : s.threads[i]? = some w) : ((s.threads.set i v).flatMap Worker.inHand).Perm
    (v.inHand ++ (s.threads.eraseIdx i).flatMap Worker.inHand) := by
  obtain ⟨hi, -⟩ := List.getElem?_eq_some_iff.1 h
  have hperm := (List.set_perm_cons_eraseIdx hi v).flatMap_right Worker.inHand
  rwa [List.flatMap_cons] at hperm

/-! ### The invariant -/

/-- Each task is in one place, and `_working` counts the threads that are in `runOne`. -/
structure Counted (tasks : List ThreadFn) (s : ThreadPool ThreadFn) : Prop where
  accounted : (s.executed ++ s.caller.inHand ++ s.threads.flatMap Worker.inHand ++ s.work).Perm tasks
  working : s.working = s.threads.countP Worker.isBusy + if s.caller.isBusy then 1 else 0

/-- Without threads in the run, nothing is left for them. -/
structure Inv (tasks : List ThreadFn) (s : ThreadPool ThreadFn) : Prop extends Counted tasks s where
  start : s.caller = .idle → s.running = false ∧ s.work = tasks ∧ s.threads.countP Worker.isBusy = 0
  alone : s.caller ≠ .idle → s.useThreads = false →
    s.threads = [] ∨ s.work = [] ∧ s.threads.countP Worker.isBusy = 0
  returned : s.caller = .returned → s.work = [] ∧ s.threads.countP Worker.isBusy = 0

theorem Inv.quiet (h : Inv tasks s) : Quiet tasks s := by
  intro hreturned
  obtain ⟨hwork, hidle⟩ := h.returned hreturned
  have hnone : ∀ w ∈ s.threads, w.isBusy = false := by
    intro w hw
    simpa using List.countP_eq_zero.1 hidle w hw
  refine ⟨?_, hwork, fun fn hfn => Bool.noConfusion (hnone _ hfn)⟩
  have hhand : s.threads.flatMap Worker.inHand = [] := by
    refine List.flatMap_eq_nil_iff.2 fun w hw => ?_
    cases w with
    | running fn => exact Bool.noConfusion (hnone _ hw)
    | started | waiting | woken | finished => rfl
  have htasks := h.accounted
  rw [hreturned, hhand, hwork] at htasks
  simpa [Caller.inHand] using htasks

/-- A thread waits, wakes up or goes on without a task. -/
theorem Inv.calm (h : Inv tasks s) (hw : s.threads[i]? = some w) (hbusy : w.isBusy = false)
    (hbusy' : v.isBusy = false) : Inv tasks { s with threads := s.threads.set i v } := by
  have hcount : (s.threads.set i v).countP Worker.isBusy = s.threads.countP Worker.isBusy := by
    rw [countP_isBusy hw, countP_isBusy_set hw, hbusy, hbusy']
  have hhand : ∀ {w : Worker ThreadFn}, w.isBusy = false → w.inHand = [] := by
    intro w hw
    cases w <;> first | rfl | exact Bool.noConfusion hw
  constructor
  · constructor
    · refine List.Perm.trans ?_ h.accounted
      refine (List.Perm.append_left _ ?_).append_right _
      have hset := inHand_set_perm (v := v) hw
      rw [hhand hbusy'] at hset
      have hold := inHand_perm hw
      rw [hhand hbusy] at hold
      exact hset.trans hold.symm
    · change s.working = _
      rw [hcount]
      exact h.working
  · intro hidle
    rw [hcount]
    exact h.start hidle
  · intro hidle huse
    obtain hnil | hnil := h.alone hidle huse
    · rw [hnil] at hw
      cases hw
    · rw [hcount]
      exact .inr hnil
  · intro hreturned
    rw [hcount]
    exact h.returned hreturned

/-! ### The caller -/

/-- The caller gets the next task, waits or returns. -/
theorem Counted.runLoop (h : Counted tasks { s with caller := .woken }) (halone : s.useThreads = false →
    s.threads = [] ∨ s.work.length ≤ 1 ∧ s.threads.countP Worker.isBusy = 0) : Inv tasks s.runLoop := by
  have htasks := h.accounted
  have hworking := h.working
  simp only [Caller.inHand, List.append_nil, Caller.isBusy, Bool.false_eq_true, if_false, Nat.add_zero]
    at htasks hworking
  unfold ThreadPool.runLoop
  split
  case h_1 fn work hwork =>
    rw [hwork] at htasks halone
    constructor
    · constructor
      · refine List.Perm.trans ?_ htasks
        simp only [Caller.inHand, List.append_assoc, List.singleton_append]
        exact List.Perm.append_left _ List.perm_middle.symm
      · simp only [hworking, Caller.isBusy, if_true]
    · rintro ⟨⟩
    · intro _ huse
      obtain hnil | ⟨hlength, hidle⟩ := halone huse
      · exact .inl hnil
      · rw [List.length_cons] at hlength
        have hzero : work.length = 0 := by omega
        exact .inr ⟨List.eq_nil_of_length_eq_zero hzero, hidle⟩
    · rintro ⟨⟩
  case h_2 hwork =>
    rw [hwork] at htasks
    split
    case isTrue hwait =>
      obtain ⟨huse, -⟩ := Bool.and_eq_true_iff.1 hwait
      constructor
      · constructor
        · simpa [Caller.inHand, hwork] using htasks
        · simpa [Caller.isBusy] using hworking
      · rintro ⟨⟩
      · intro _ huse'
        rw [huse] at huse'
        cases huse'
      · rintro ⟨⟩
    case isFalse hwait =>
      have hidle : s.threads.countP Worker.isBusy = 0 := by
        by_cases huse : s.useThreads = true
        · have hzero : ¬ 0 < s.working := by simpa [huse, hwork] using hwait
          omega
        · obtain hnil | ⟨-, hidle⟩ := halone (by simpa using huse)
          · rw [hnil]
            rfl
          · exact hidle
      constructor
      · constructor
        · simpa [Caller.inHand, hwork] using htasks
        · simpa [Caller.isBusy] using hworking
      · rintro ⟨⟩
      · exact fun _ _ => .inr ⟨hwork, hidle⟩
      · exact fun _ => ⟨hwork, hidle⟩

theorem Inv.run (h : Inv tasks s) (hidle : s.caller = .idle) (hcond : s.threads.length ≠ 1 ∨ tasks.length ≤ 1) :
    Inv tasks s.run := by
  obtain ⟨hrunning, hwork, hcount⟩ := h.start hidle
  have hnotify : (s.threads.map Worker.notify).countP Worker.isBusy = s.threads.countP Worker.isBusy := by
    rw [List.countP_map]
    exact List.countP_congr fun w _ => by simp
  have hhand : (s.threads.map Worker.notify).flatMap Worker.inHand = s.threads.flatMap Worker.inHand := by
    rw [List.flatMap_map]
    simp only [Worker.inHand_notify]
  have hcounted : Counted tasks { s with caller := .woken } := by
    have haccounted := h.accounted
    have hworking := h.working
    rw [hidle] at haccounted hworking
    exact ⟨haccounted, hworking⟩
  unfold ThreadPool.run
  dsimp only
  split
  case isTrue huse =>
    -- The threads are told.
    refine Counted.runLoop ⟨?_, ?_⟩ ?_
    · dsimp only
      rw [hhand]
      exact hcounted.accounted
    · dsimp only
      rw [hnotify]
      exact hcounted.working
    · intro huse'
      dsimp only at huse'
      rw [huse] at huse'
      cases huse'
  case isFalse huse =>
    refine Counted.runLoop ⟨hcounted.accounted, hcounted.working⟩ fun _ => ?_
    dsimp only at huse ⊢
    simp only [Bool.and_eq_true, decide_eq_true_eq, not_and_or, Nat.not_lt] at huse
    by_cases hnone : s.threads.length = 0
    · exact .inl (List.eq_nil_of_length_eq_zero hnone)
    · refine .inr ⟨?_, hcount⟩
      rw [hwork] at huse ⊢
      omega

/-- After a task, the caller is no longer busy. -/
theorem Inv.callerFinish (h : Inv tasks s) (hcaller : s.caller = .finished) : Inv tasks s.finishOne.runLoop := by
  have haccounted := h.accounted
  have hworking := h.working
  rw [hcaller] at haccounted hworking
  have hnotify : (Caller.finished : Caller ThreadFn).notify = .finished := rfl
  have hfinish : s.finishOne = { s with working := s.working - 1 } := by
    unfold finishOne
    dsimp only
    split
    · rw [hcaller, hnotify, ← hcaller]
    · rfl
  rw [hfinish]
  refine Counted.runLoop ⟨haccounted, ?_⟩ fun huse => ?_
  · simp only [Caller.isBusy, if_true] at hworking
    simp only [Caller.isBusy, Bool.false_eq_true, if_false]
    omega
  · have hidle : s.caller ≠ .idle := by
      rw [hcaller]
      rintro ⟨⟩
    obtain hnil | ⟨hwork, hcount⟩ := h.alone hidle huse
    · exact .inl hnil
    · refine .inr ⟨?_, hcount⟩
      dsimp only
      rw [hwork]
      exact Nat.zero_le 1

theorem Inv.runWoken (h : Inv tasks s) (hcaller : s.caller = .woken) : Inv tasks s.runWoken := by
  have haccounted := h.accounted
  have hworking := h.working
  have hidle : s.caller ≠ .idle := by
    rw [hcaller]
    rintro ⟨⟩
  have halone := h.alone hidle
  rw [hcaller] at haccounted hworking
  unfold ThreadPool.runWoken
  split
  case isTrue hdone =>
    obtain ⟨hzero, hempty⟩ := Bool.and_eq_true_iff.1 hdone
    have hwork : s.work = [] := List.isEmpty_iff.1 hempty
    have hcount : s.threads.countP Worker.isBusy = 0 := by
      have := eq_of_beq hzero
      omega
    exact ⟨⟨haccounted, hworking⟩, by rintro ⟨⟩, fun _ => halone, fun _ => ⟨hwork, hcount⟩⟩
  case isFalse => exact ⟨⟨haccounted, hworking⟩, by rintro ⟨⟩, fun _ => halone, by rintro ⟨⟩⟩

/-! ### The threads -/

/-- A thread gets the next task, or waits. -/
theorem Inv.workLoop (h : Inv tasks s) (hw : s.threads[i]? = some .woken) : Inv tasks (s.workLoop i) := by
  unfold ThreadPool.workLoop
  split
  case h_1 fn work hwork =>
    split
    case isTrue hrunning =>
      have hidle : s.caller ≠ .idle := by
        intro hidle
        rw [(h.start hidle).1] at hrunning
        cases hrunning
      constructor
      · constructor
        · refine List.Perm.trans ?_ h.accounted
          dsimp only
          simp only [hwork, List.append_assoc]
          refine List.Perm.append_left _ (List.Perm.append_left _ ?_)
          have hset := (inHand_set_perm (v := .running fn) hw).append_right work
          have hold := (inHand_perm hw).append_right (fn :: work)
          refine hset.trans (List.Perm.trans ?_ hold.symm)
          exact List.perm_middle.symm
        · have hcount := countP_isBusy hw
          have hcount' := countP_isBusy_set (v := .running fn) hw
          have hworking := h.working
          simp only [Worker.isBusy, Bool.false_eq_true, if_false, if_true] at hcount hcount'
          dsimp only
          omega
      · exact fun hidle' => absurd hidle' hidle
      · intro _ huse
        obtain hnil | ⟨hnil, -⟩ := h.alone hidle huse
        · rw [hnil] at hw
          cases hw
        · rw [hnil] at hwork
          cases hwork
      · intro hreturned
        rw [(h.returned hreturned).1] at hwork
        cases hwork
    case isFalse => exact h.calm hw rfl rfl
  case h_2 => exact h.calm hw rfl rfl

/-- After a task, a thread is no longer busy. -/
theorem Inv.threadFinish (h : Inv tasks s) (hw : s.threads[i]? = some .finished) :
    Inv tasks { s.finishOne with threads := s.threads.set i .woken } := by
  have hcount := countP_isBusy hw
  have hcount' := countP_isBusy_set (v := .woken) hw
  have hworking := h.working
  simp only [Worker.isBusy, Bool.false_eq_true, if_false, if_true] at hcount hcount'
  have hhand : ((s.threads.set i .woken).flatMap Worker.inHand).Perm (s.threads.flatMap Worker.inHand) :=
    (inHand_set_perm hw).trans (inHand_perm hw).symm
  have haccounted :=
    ((List.Perm.append_left (s.executed ++ s.caller.inHand) hhand).append_right s.work).trans h.accounted
  have halone : s.caller ≠ .idle → s.useThreads = false → False := by
    intro hidle huse
    obtain hnil | ⟨-, hzero⟩ := h.alone hidle huse
    · rw [hnil] at hw
      cases hw
    · omega
  have hidle : s.caller ≠ .idle := by
    intro hidle
    have := (h.start hidle).2.2
    omega
  have hreturned : s.caller ≠ .returned := by
    intro hreturned
    have := (h.returned hreturned).2
    omega
  have hnotify : s.caller.notify ≠ .idle ∧ s.caller.notify ≠ .returned ∧ s.caller.notify.inHand = s.caller.inHand ∧
      s.caller.notify.isBusy = s.caller.isBusy := by
    generalize s.caller = caller at hidle hreturned
    cases caller <;> simp_all [Caller.notify, Caller.inHand, Caller.isBusy]
  unfold finishOne
  dsimp only
  split
  · refine ⟨⟨?_, ?_⟩, fun hidle => absurd hidle hnotify.1, fun _ huse => absurd (halone hidle huse) id,
      fun hreturned => absurd hreturned hnotify.2.1⟩
    · dsimp only
      rw [hnotify.2.2.1]
      exact haccounted
    · dsimp only
      rw [hnotify.2.2.2]
      omega
  · refine ⟨⟨haccounted, ?_⟩, fun hidle' => absurd hidle' hidle, fun _ huse => absurd (halone hidle huse) id,
      fun hreturned' => absurd hreturned' hreturned⟩
    dsimp only
    omega

theorem workLoop_set (w : Worker ThreadFn) (i : Nat) (s : ThreadPool ThreadFn) :
    ({ s with threads := s.threads.set i w }).workLoop i = s.workLoop i := by
  unfold ThreadPool.workLoop
  cases s.work with
  | nil => simp
  | cons fn work => cases s.running <;> simp

theorem Inv.threadReturns (h : Inv tasks s) {fn : ThreadFn} (hw : s.threads[i]? = some (.running fn)) :
    Inv tasks { s with threads := s.threads.set i .finished, executed := s.executed ++ [fn] } := by
  have hcount : (s.threads.set i .finished).countP Worker.isBusy = s.threads.countP Worker.isBusy := by
    rw [countP_isBusy hw, countP_isBusy_set hw]
    rfl
  constructor
  · constructor
    · refine List.Perm.trans ?_ h.accounted
      dsimp only
      refine List.Perm.append_right _ ?_
      have hset := (inHand_set_perm (v := .finished) hw).append_left (s.executed ++ [fn] ++ s.caller.inHand)
      have hold := (inHand_perm hw).append_left (s.executed ++ s.caller.inHand)
      refine hset.trans (List.Perm.trans ?_ hold.symm)
      simp only [Worker.inHand, List.append_assoc, List.nil_append, List.singleton_append]
      exact List.Perm.append_left _ List.perm_middle.symm
    · dsimp only
      rw [hcount]
      exact h.working
  · intro hidle
    dsimp only
    rw [hcount]
    exact h.start hidle
  · intro hidle huse
    obtain hnil | hnil := h.alone hidle huse
    · rw [hnil] at hw
      cases hw
    · dsimp only
      rw [hcount]
      exact .inr hnil
  · intro hreturned
    dsimp only
    rw [hcount]
    exact h.returned hreturned

theorem Inv.callerReturns (h : Inv tasks s) {fn : ThreadFn} (hcaller : s.caller = .running fn) :
    Inv tasks { s with caller := .finished, executed := s.executed ++ [fn] } := by
  have haccounted := h.accounted
  have hworking := h.working
  have halone := h.alone
  rw [hcaller] at haccounted hworking halone
  refine ⟨⟨?_, hworking⟩, by rintro ⟨⟩, fun _ => halone (by rintro ⟨⟩), by rintro ⟨⟩⟩
  simpa [Caller.inHand] using haccounted

/-! ### Runs -/

@[simp] theorem length_threads_runLoop : s.runLoop.threads.length = s.threads.length := by
  unfold ThreadPool.runLoop
  split
  · rfl
  · split <;> rfl

@[simp] theorem length_threads_finishOne : s.finishOne.threads.length = s.threads.length := by
  unfold finishOne
  dsimp only
  split <;> rfl

@[simp] theorem length_threads_workLoop : (s.workLoop i).threads.length = s.threads.length := by
  unfold ThreadPool.workLoop
  split
  · split <;> simp
  · simp

theorem step_inv {e : Event} {s' : ThreadPool ThreadFn} (hcond : s.threads.length ≠ 1 ∨ tasks.length ≤ 1)
    (h : Inv tasks s) (hs : step s e = some s') : Inv tasks s' ∧ s'.threads.length = s.threads.length := by
  unfold step at hs
  cases e with
  | run =>
    dsimp only at hs
    split at hs
    case h_1 hcaller =>
      obtain rfl := Option.some.inj hs
      refine ⟨h.run hcaller hcond, ?_⟩
      unfold ThreadPool.run
      dsimp only
      split <;> simp
    case h_2 => cases hs
  | callerReturns =>
    dsimp only at hs
    split at hs
    case h_1 fn hcaller =>
      obtain rfl := Option.some.inj hs
      exact ⟨h.callerReturns hcaller, rfl⟩
    case h_2 => cases hs
  | callerLocks =>
    dsimp only at hs
    split at hs
    case h_1 hcaller =>
      obtain rfl := Option.some.inj hs
      exact ⟨h.callerFinish hcaller, by simp⟩
    case h_2 hcaller =>
      obtain rfl := Option.some.inj hs
      refine ⟨h.runWoken hcaller, ?_⟩
      unfold ThreadPool.runWoken
      split <;> rfl
    case h_3 => cases hs
  | callerWakes =>
    dsimp only at hs
    split at hs
    case h_1 hcaller =>
      obtain rfl := Option.some.inj hs
      have haccounted := h.accounted
      have hworking := h.working
      have halone := h.alone
      rw [hcaller] at haccounted hworking halone
      exact ⟨⟨⟨haccounted, hworking⟩, by rintro ⟨⟩, fun _ => halone (by rintro ⟨⟩), by rintro ⟨⟩⟩, rfl⟩
    case h_2 => cases hs
  | threadReturns i =>
    dsimp only at hs
    split at hs
    case h_1 fn hw =>
      obtain rfl := Option.some.inj hs
      exact ⟨h.threadReturns hw, by simp⟩
    case h_2 => cases hs
  | threadLocks i =>
    dsimp only at hs
    split at hs
    case h_1 hw =>
      obtain rfl := Option.some.inj hs
      exact ⟨h.calm hw rfl rfl, by simp⟩
    case h_2 hw =>
      obtain rfl := Option.some.inj hs
      exact ⟨h.workLoop hw, by simp⟩
    case h_3 hw =>
      obtain rfl := Option.some.inj hs
      -- The end of the task, and then the loop.
      have hfinish := h.threadFinish hw
      have hthreads : s.finishOne.threads = s.threads := by
        unfold finishOne
        dsimp only
        split <;> rfl
      rw [← hthreads] at hw hfinish
      obtain ⟨hi, -⟩ := List.getElem?_eq_some_iff.1 hw
      have hloop := hfinish.workLoop (i := i) (List.getElem?_set_self hi)
      rw [workLoop_set] at hloop
      exact ⟨hloop, by simp⟩
    case h_4 => cases hs
  | threadWakes i =>
    dsimp only at hs
    split at hs
    case h_1 hw =>
      obtain rfl := Option.some.inj hs
      exact ⟨h.calm hw rfl rfl, by simp⟩
    case h_2 => cases hs

theorem inv_of_isInit (h : IsInit n tasks s) : Inv tasks s := by
  obtain ⟨hs, -, hrest⟩ := h
  have hcount : s.threads.countP Worker.isBusy = 0 := by
    refine List.countP_eq_zero.2 fun w hw => ?_
    simp [hrest w hw]
  have hhand : s.threads.flatMap Worker.inHand = [] := by
    refine List.flatMap_eq_nil_iff.2 fun w hw => ?_
    have hbusy := hrest w hw
    cases w with
    | running fn => cases hbusy
    | started | waiting | woken | finished => rfl
  rw [hs]
  refine ⟨⟨?_, ?_⟩, fun _ => ⟨rfl, rfl, hcount⟩, fun hidle => absurd rfl hidle, by rintro ⟨⟩⟩
  · simp [Caller.inHand, hhand]
  · simp [Caller.isBusy, hcount]

theorem reachable_inv (hcond : n ≠ 1 ∨ tasks.length ≤ 1) (h : Reachable n tasks s) : Inv tasks s := by
  have hboth : Inv tasks s ∧ s.threads.length = n := by
    refine Run.Reachable.invariant (fun s => Inv tasks s ∧ s.threads.length = n) ?_ ?_ h
    · exact fun s hs => ⟨inv_of_isInit hs, hs.2.1⟩
    · rintro s e s' - ⟨hinv, hlength⟩ - hs
      rw [← hlength] at hcond ⊢
      exact step_inv hcond hinv hs
  exact hboth.1

/-! ### One thread -/

/-- The caller takes what is left, while the thread is in its task. -/
theorem exists_returned {a b : ThreadFn} (rest executed : List ThreadFn) (working : Nat)
    (h : Reachable 1 tasks { threads := [.running b], work := rest, working, running := true, caller := .running a,
                             executed }) :
    ∃ s, Reachable 1 tasks s ∧ s.caller = .returned ∧ .running b ∈ s.threads := by
  induction rest generalizing a executed working with
  | nil =>
    have hreturns := h.next (e := .callerReturns) trivial rfl
    have hlocks := hreturns.next (e := .callerLocks) trivial rfl
    refine ⟨_, hlocks, ?_, ?_⟩
    all_goals
      unfold finishOne
      dsimp only
      split
    · rfl
    · rfl
    · exact List.mem_cons_self
    · exact List.mem_cons_self
  | cons fn rest ih =>
    have hreturns := h.next (e := .callerReturns) trivial rfl
    exact ih _ _ (hreturns.next (e := .callerLocks) trivial rfl)

theorem not_quiet_one (h : 1 < tasks.length) : ∃ s, Reachable 1 tasks s ∧ ¬ Quiet tasks s := by
  obtain ⟨a, b, rest, rfl⟩ : ∃ a b rest, tasks = a :: b :: rest := by
    match tasks, h with
    | a :: b :: rest, _ => exact ⟨a, b, rest, rfl⟩
  have hinit : Reachable 1 (a :: b :: rest) { threads := [.waiting], work := a :: b :: rest } :=
    .start ⟨rfl, rfl, by simp [Worker.isBusy]⟩
  have hrun := hinit.next (e := .run) trivial rfl
  -- The thread wakes up although nobody told it to.
  have hwakes := hrun.next (e := .threadWakes 0) trivial rfl
  have hlocks := hwakes.next (e := .threadLocks 0) trivial rfl
  obtain ⟨s, hs, hreturned, hrunning⟩ := exists_returned rest [] 2 hlocks
  exact ⟨s, hs, fun hquiet => (hquiet hreturned).2.2 b hrunning⟩

/-- A single thread is not waited for: `run` is quiet when it returns except with one thread and two tasks or more. -/
theorem quiet_iff (n : Nat) (tasks : List ThreadFn) :
    (∀ s, Reachable n tasks s → Quiet tasks s) ↔ n ≠ 1 ∨ tasks.length ≤ 1 := by
  constructor
  · intro h
    by_contra hcond
    obtain ⟨rfl, hlength⟩ : n = 1 ∧ 1 < tasks.length := by omega
    obtain ⟨s, hs, hbad⟩ := not_quiet_one hlength
    exact hbad (h s hs)
  · exact fun hcond s hs => (reachable_inv hcond hs).quiet

/-- Two threads in all, of which one is the caller, and two tasks. -/
theorem not_quiet : ¬ ∀ (n : Nat) (tasks : List Nat) (s : ThreadPool Nat), Reachable n tasks s → Quiet tasks s := by
  intro h
  have hinit : IsInit 1 [0, 1] { threads := [.waiting], work := [0, 1] } := ⟨rfl, rfl, by decide⟩
  have hrun : ∃ s, Reachable 1 [0, 1] s ∧ (s.caller = .returned && s.threads = [.running 1]) = true :=
    Run.Reachable.exists_of_run { threads := [.waiting], work := [0, 1] }
      [.run, .threadWakes 0, .threadLocks 0, .callerReturns, .callerLocks] hinit (by decide)
  obtain ⟨s, hs, hbad⟩ := hrun
  obtain ⟨hreturned, hthreads⟩ : s.caller = .returned ∧ s.threads = [.running 1] := by simpa using hbad
  refine (h 1 [0, 1] s hs hreturned).2.2 1 ?_
  rw [hthreads]
  exact List.mem_cons_self

end ThreadPool

end CollaboraOnline
