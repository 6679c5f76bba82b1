import CollaboraOnline.Kit.Callbacks
import CollaboraOnline.Lib.Conflation
import CollaboraOnline.Lib.Run

/-!
# Callbacks that replace others

A callback that shows a state has a kind: its view, its type, and the command or the view id of its payload.  The
queue is a conflating queue, but for the state of a command: the comparison with a queued payload takes in its value,
so it never finds an obsolete state (`isObsoleteState_eq`).  Invalidations are merged on their own and are left out
here.
-/

namespace CollaboraOnline

open Conflation (Lossless)

namespace Callback

variable (extractViewId : List Char → Option (List Char))

/-- What a callback shows the state of; `none` for those that are all kept. -/
def kind (c : Callback) : Option (Int × CallbackType × List Char) :=
  if c.type = .LOK_CALLBACK_STATE_CHANGED then
    if extractUnoCommand c.payload = [] ∨ extractUnoCommand c.payload = ".uno:ModifiedStatus".toList then none
    else some (c.view, c.type, extractUnoCommand c.payload)
  else if c.type.isStatus then some (c.view, c.type, [])
  else if c.type.isViewCallback then (extractViewId c.payload).map fun viewId => (c.view, c.type, viewId)
  else none

def isInvalidation (c : Callback) : Bool := c.type == .LOK_CALLBACK_INVALIDATE_TILES

end Callback

structure CallbackQueue where
  callbacks : List Callback := []
  /-- What was put and what was taken; the flag of an entry is that it was put. -/
  log : List (Bool × Callback) := []

namespace CallbackQueue

variable (extractViewId : List Char → Option (List Char))

inductive Event
  | putCallback (view : Int) (type : CallbackType) (payload : List Char)
  | getCallback

/-- A call that throws changes nothing. -/
def step (s : CallbackQueue) : Event → Option CallbackQueue
  | .putCallback view type payload =>
    (KitQueue.putCallback extractViewId s.callbacks view type payload).map fun callbacks =>
      { callbacks, log := s.log ++ [(true, ⟨view, type, payload⟩)] }
  | .getCallback =>
    match s.callbacks with
    | [] => none
    | front :: callbacks => some { callbacks, log := s.log ++ [(false, front)] }

def Initial (s : CallbackQueue) : Prop := s = {}

/-- No state of the command is queued for the view. -/
def fresh (s : CallbackQueue) : Event → Bool
  | .putCallback view .LOK_CALLBACK_STATE_CHANGED payload =>
    s.callbacks.all fun it =>
      it.kind extractViewId != Callback.kind extractViewId ⟨view, .LOK_CALLBACK_STATE_CHANGED, payload⟩ ||
        (it.kind extractViewId).isNone
  | _ => true

/-- The callbacks that are not merged by their area. -/
def plain (callbacks : List Callback) : List Callback := callbacks.filter fun c => !c.isInvalidation

def plainLog (log : List (Bool × Callback)) : List (Bool × Callback) := log.filter fun e => !e.2.isInvalidation

end CallbackQueue

open CallbackQueue (plain plainLog)

/-! ### What is erased -/

section Erased

variable {extractViewId : List Char → Option (List Char)} {view : Int} {type : CallbackType}
  {payload viewId : List Char} {callbacks callbacks' : List Callback} {it : Callback}

/-- The command of a payload that is longer is never equal to it. -/
theorem isObsoleteState_eq (unoCommand payload : List Char) : isObsoleteState unoCommand payload = false := by
  unfold isObsoleteState compareEqual
  rw [List.drop_zero, List.take_length]
  by_cases heq : unoCommand = payload
  · subst heq
    simp
  · simp [heq]

theorem isLike_iff : it.isLike view type = true ↔ it.type = type ∧ it.view = view := by simp [Callback.isLike]

theorem kind_isStatus (h : type.isStatus = true) : it.kind extractViewId = some (view, type, []) ↔
    it.isLike view type = true := by
  rw [isLike_iff]
  unfold Callback.kind
  split
  · rename_i htype
    have hne : type ≠ .LOK_CALLBACK_STATE_CHANGED := by rintro rfl; cases h
    have hno : ¬ it.type = type := fun heq => hne (heq ▸ htype)
    split <;> simp [hno]
  · split
    · simp [and_comm]
    · rename_i hstatus
      have hno : ¬ it.type = type := by rintro rfl; exact hstatus h
      split <;> simp [hno]

theorem kind_isViewCallback (h : type.isViewCallback = true) : it.kind extractViewId = some (view, type, viewId) ↔
    it.isLike view type = true ∧ extractViewId it.payload = some viewId := by
  rw [isLike_iff]
  have hstate : type ≠ .LOK_CALLBACK_STATE_CHANGED := by rintro rfl; cases h
  have hstatus : type.isStatus = false := by cases type <;> first | rfl | cases h
  unfold Callback.kind
  split
  · rename_i htype
    have hno : ¬ it.type = type := fun heq => hstate (heq ▸ htype)
    split <;> simp [hno]
  · split
    · rename_i hstatus'
      have hno : ¬ it.type = type := by
        rintro rfl
        rw [hstatus] at hstatus'
        cases hstatus'
      simp [hno]
    · split
      · simp [and_comm, and_assoc]
      · rename_i hview
        have hno : ¬ it.type = type := by rintro rfl; exact hview h
        simp [hno]

theorem eraseViewCallback_eq
    (h : KitQueue.eraseViewCallback extractViewId view type viewId callbacks = some callbacks') :
    callbacks' = callbacks.eraseP fun it => it.isLike view type && extractViewId it.payload == some viewId := by
  induction callbacks generalizing callbacks' with
  | nil => exact (Option.some.inj h).symm
  | cons it callbacks ih =>
    unfold KitQueue.eraseViewCallback at h
    split at h
    · rename_i hlike
      have hlike : it.isLike view type = false := by simpa using hlike
      obtain ⟨rest, hrest, rfl⟩ := Option.map_eq_some_iff.1 h
      rw [List.eraseP_cons_of_neg (by simp [hlike]), ih hrest]
    · rename_i hlike
      obtain ⟨queuedViewId, hqueued, h⟩ := Option.bind_eq_some_iff.1 h
      split at h
      · rename_i heq
        rw [List.eraseP_cons_of_pos (by simpa [heq, hqueued] using hlike)]
        exact (Option.some.inj h).symm
      · rename_i hne
        obtain ⟨rest, hrest, rfl⟩ := Option.map_eq_some_iff.1 h
        rw [List.eraseP_cons_of_neg (by simp [hqueued, Ne.symm hne]), ih hrest]

theorem plain_append (a b : List Callback) : plain (a ++ b) = plain a ++ plain b := List.filter_append ..

/-- The loop of an invalidation only erases invalidations. -/
theorem plain_elide (view : Int) (msg : TileArea) (callbacks : List Callback) :
    plain (msg.elide view callbacks).2.2 = plain callbacks := by
  induction callbacks generalizing msg with
  | nil => rfl
  | cons it callbacks ih =>
    have hkeep : ∀ msg : TileArea, plain (it :: (msg.elide view callbacks).2.2) = plain (it :: callbacks) := by
      intro msg
      have := ih msg
      unfold plain at this ⊢
      rw [List.filter_cons, List.filter_cons, this]
    unfold TileArea.elide
    cases harea : TileArea.queuedArea view msg it with
    | none => exact hkeep msg
    | some queued =>
      have htile : it.isInvalidation = true := by
        unfold TileArea.queuedArea at harea
        split at harea
        · rename_i hlike
          simp [Callback.isInvalidation, (isLike_iff.1 hlike).1]
        · cases harea
      have hdrop : plain (it :: callbacks) = plain callbacks := List.filter_cons_of_neg (by simp [htile])
      dsimp only
      cases TileArea.round msg queued with
      | covered => exact (ih msg).trans hdrop.symm
      | joined msg' => exact (ih msg').trans hdrop.symm
      | kept => exact hkeep msg

/-- Erasing the callback of a kind, of which there is one at most, and appending the new one. -/
theorem plain_push {p : Callback → Bool} {c : Callback} {k : Int × CallbackType × List Char}
    (hc : c.kind extractViewId = some k) (hplain : c.isInvalidation = false)
    (hp : ∀ it, p it = true ↔ it.kind extractViewId = some k)
    (hone : (callbacks.filter fun it => it.kind extractViewId = some k).length ≤ 1) :
    plain (callbacks.eraseP p ++ [c]) = Conflation.push (Callback.kind extractViewId) (plain callbacks) c := by
  have hone : (callbacks.filter p).length ≤ 1 := by
    have hcongr : callbacks.filter p = callbacks.filter fun it => it.kind extractViewId = some k := by
      refine List.filter_congr fun it _ => ?_
      rw [Bool.eq_iff_iff, hp it, decide_eq_true_iff]
    rw [hcongr]
    exact hone
  have hsingle : plain [c] = [c] := List.filter_cons_of_pos (by simp [hplain])
  unfold Conflation.push
  rw [hc, Conflation.eraseP_eq_filter hone, plain_append, hsingle]
  dsimp only
  congr 1
  unfold plain
  rw [List.filter_filter, List.filter_filter]
  refine List.filter_congr fun it _ => ?_
  have hit := hp it
  rw [Bool.and_comm]
  congr 1
  by_cases hk : it.kind extractViewId = some k
  · simp [hk, hit.2 hk]
  · have hno : p it = false := by
      cases hpit : p it with
      | true => exact absurd (hit.1 hpit) hk
      | false => rfl
    simp [hk, hno]

theorem plain_concat_invalidation {c : Callback} (h : c.isInvalidation = true) :
    plain (callbacks ++ [c]) = plain callbacks := by
  have hnil : plain [c] = [] := List.filter_cons_of_neg (by simp [h])
  rw [plain_append, hnil, List.append_nil]

theorem push_of_none {c : Callback} (hc : c.kind extractViewId = none) (hplain : c.isInvalidation = false) :
    plain (callbacks ++ [c]) = Conflation.push (Callback.kind extractViewId) (plain callbacks) c := by
  have hsingle : plain [c] = [c] := List.filter_cons_of_pos (by simp [hplain])
  unfold Conflation.push
  rw [hc, plain_append, hsingle]

/-- Where no queued callback is of the kind, the new one is appended. -/
theorem push_of_fresh {c : Callback} (hplain : c.isInvalidation = false)
    (hfresh : ∀ it ∈ callbacks, it.kind extractViewId ≠ c.kind extractViewId ∨ it.kind extractViewId = none) :
    plain (callbacks ++ [c]) = Conflation.push (Callback.kind extractViewId) (plain callbacks) c := by
  cases hc : c.kind extractViewId with
  | none => exact push_of_none hc hplain
  | some k =>
    have hsingle : plain [c] = [c] := List.filter_cons_of_pos (by simp [hplain])
    have hall : (plain callbacks).filter (fun it => it.kind extractViewId ≠ some k) = plain callbacks := by
      rw [List.filter_eq_self]
      intro it hit
      have hit := hfresh it (List.mem_of_mem_filter hit)
      rw [hc] at hit
      rcases hit with hne | hnone
      · simpa using hne
      · simp [hnone]
    unfold Conflation.push
    rw [hc]
    dsimp only
    rw [hall, plain_append, hsingle]

/-- What a call of `putCallback` does to the callbacks that are not merged by their area. -/
theorem plain_putCallback (h : KitQueue.putCallback extractViewId callbacks view type payload = some callbacks')
    (hone : ∀ k, (callbacks.filter fun it => it.kind extractViewId = some k).length ≤ 1)
    (hfresh : type = .LOK_CALLBACK_STATE_CHANGED → ∀ it ∈ callbacks,
      it.kind extractViewId ≠ Callback.kind extractViewId ⟨view, type, payload⟩ ∨ it.kind extractViewId = none) :
    plain callbacks' = if Callback.isInvalidation ⟨view, type, payload⟩ then plain callbacks
      else Conflation.push (Callback.kind extractViewId) (plain callbacks) ⟨view, type, payload⟩ := by
  unfold KitQueue.putCallback at h
  obtain ⟨⟨elided, rest⟩, helide, rfl⟩ := Option.map_eq_some_iff.1 h
  dsimp only
  unfold KitQueue.elideDuplicateCallback at helide
  by_cases hinvalidation : type = .LOK_CALLBACK_INVALIDATE_TILES
  · subst hinvalidation
    have hconcat : ∀ callbacks payload, plain (callbacks ++ [⟨view, .LOK_CALLBACK_INVALIDATE_TILES, payload⟩]) =
        plain callbacks := fun callbacks payload => plain_concat_invalidation rfl
    have hplain : Callback.isInvalidation ⟨view, .LOK_CALLBACK_INVALIDATE_TILES, payload⟩ = true := rfl
    rw [if_pos hplain]
    by_cases hnil : callbacks = []
    · rw [if_pos hnil] at helide
      cases helide
      exact hconcat _ _
    · rw [if_neg hnil, if_pos rfl] at helide
      dsimp only at helide
      split at helide
      · cases helide
        exact hconcat _ _
      · rename_i msg _
        have hmsg := plain_elide view msg callbacks
        split at helide
        · cases helide
          exact (hconcat _ _).trans hmsg
        · cases helide
          exact (hconcat _ _).trans hmsg
  · have hplain : Callback.isInvalidation ⟨view, type, payload⟩ = false := by
      simpa [Callback.isInvalidation] using hinvalidation
    rw [hplain, if_neg Bool.false_ne_true]
    by_cases hnil : callbacks = []
    · rw [if_pos hnil] at helide
      cases helide
      subst hnil
      exact push_of_fresh hplain (by simp)
    · rw [if_neg hnil, if_neg hinvalidation] at helide
      split at helide
      · rename_i hstate
        subst hstate
        dsimp only at helide
        simp only [isObsoleteState_eq, Bool.and_false, List.eraseP_of_forall_not (fun _ _ => Bool.false_ne_true),
          ite_self, Option.some.injEq, Prod.mk.injEq] at helide
        obtain ⟨rfl, rfl⟩ := helide
        exact push_of_fresh hplain (hfresh rfl)
      · rename_i hstate
        split at helide
        · rename_i hstatus
          cases helide
          have hkind : Callback.kind extractViewId ⟨view, type, payload⟩ = some (view, type, []) :=
            (kind_isStatus hstatus).2 (isLike_iff.2 ⟨rfl, rfl⟩)
          exact plain_push hkind hplain (fun it => (kind_isStatus hstatus).symm) (hone _)
        · rename_i hstatus
          split at helide
          · rename_i hview
            obtain ⟨viewId, hviewId, helide⟩ := Option.bind_eq_some_iff.1 helide
            obtain ⟨rest', hrest, heq⟩ := Option.map_eq_some_iff.1 helide
            cases heq
            obtain rfl := eraseViewCallback_eq hrest
            have hkind : Callback.kind extractViewId ⟨view, type, payload⟩ = some (view, type, viewId) :=
              (kind_isViewCallback hview).2 ⟨isLike_iff.2 ⟨rfl, rfl⟩, hviewId⟩
            refine plain_push hkind hplain (fun it => ?_) (hone _)
            rw [kind_isViewCallback hview, Bool.and_eq_true, beq_iff_eq]
          · rename_i hview
            cases helide
            refine push_of_none ?_ hplain
            simp [Callback.kind, hstate, hstatus, hview]

end Erased

/-! ### Runs -/

namespace CallbackQueue

variable {extractViewId : List Char → Option (List Char)} {s s' : CallbackQueue} {e : Event}

/-- An invalidation has no kind. -/
theorem filter_kind_plain (callbacks : List Callback) (k : Int × CallbackType × List Char) :
    (plain callbacks).filter (fun it => it.kind extractViewId = some k) =
      callbacks.filter fun it => it.kind extractViewId = some k := by
  unfold plain
  rw [List.filter_filter]
  refine List.filter_congr fun it _ => ?_
  cases hit : it.isInvalidation with
  | false => simp
  | true =>
    have htype : it.type = .LOK_CALLBACK_INVALIDATE_TILES := by simpa [Callback.isInvalidation] using hit
    have hnone : it.kind extractViewId = none := by
      unfold Callback.kind
      rw [htype]
      rfl
    simp [hnone]

/-- The queue without the invalidations is a conflating queue. -/
def Conflates (extractViewId : List Char → Option (List Char)) (s : CallbackQueue) : Prop :=
  Lossless (Callback.kind extractViewId) (plain s.callbacks) (plainLog s.log)

theorem Conflates.length_le (h : s.Conflates extractViewId) (k : Int × CallbackType × List Char) :
    (s.callbacks.filter fun it => it.kind extractViewId = some k).length ≤ 1 := by
  rw [← filter_kind_plain]
  exact Lossless.length_filter_le h k

theorem plainLog_concat (log : List (Bool × Callback)) (put : Bool) (c : Callback) :
    plainLog (log ++ [(put, c)]) = plainLog log ++ if c.isInvalidation then [] else [(put, c)] := by
  unfold plainLog
  rw [List.filter_append]
  cases hc : c.isInvalidation with
  | true => rw [List.filter_cons_of_neg (by simp [hc])]; rfl
  | false => rw [List.filter_cons_of_pos (by simp [hc])]; rfl

theorem step_conflates (h : s.Conflates extractViewId) (hfresh : s.fresh extractViewId e = true)
    (hs : s.step extractViewId e = some s') : s'.Conflates extractViewId := by
  cases e with
  | putCallback view type payload =>
    obtain ⟨callbacks, hput, rfl⟩ := Option.map_eq_some_iff.1 hs
    have hplain := plain_putCallback hput h.length_le fun htype it hit => by
      subst htype
      have := List.all_eq_true.1 hfresh it hit
      simpa using this
    unfold Conflates
    dsimp only
    rw [plainLog_concat, hplain]
    split
    · rw [List.append_nil]
      exact h
    · exact Lossless.push h _
  | getCallback =>
    simp only [step] at hs
    split at hs
    · cases hs
    · rename_i front callbacks hcallbacks
      cases hs
      unfold Conflates at h ⊢
      dsimp only
      rw [hcallbacks] at h
      rw [plainLog_concat]
      cases hfront : front.isInvalidation with
      | true =>
        have hcons : plain (front :: callbacks) = plain callbacks := List.filter_cons_of_neg (by simp [hfront])
        rw [hcons] at h
        rw [if_pos rfl, List.append_nil]
        exact h
      | false =>
        have hcons : plain (front :: callbacks) = front :: plain callbacks :=
          List.filter_cons_of_pos (by simp [hfront])
        rw [hcons] at h
        rw [if_neg Bool.false_ne_true]
        exact Lossless.pop h

/-- In every run that puts the state of a command only while no state of it is queued for the view: of each kind the
queue holds one callback at most, and that is the newest one; the callbacks without a kind are all kept in their
order. -/
theorem callbacks_conflated (extractViewId : List Char → Option (List Char))
    (h : Run.Reachable Initial (step extractViewId) (fun s e => s.fresh extractViewId e = true) s) :
    s.Conflates extractViewId ∧
      ∀ k, (s.callbacks.filter fun it => it.kind extractViewId = some k).length ≤ 1 := by
  have hconflates : s.Conflates extractViewId := by
    refine h.invariant (Conflates extractViewId) ?_ fun s e s' _ hinv hfresh hs => step_conflates hinv hfresh hs
    rintro s rfl
    exact Lossless.nil _
  exact ⟨hconflates, hconflates.length_le⟩

/-- A second position of the cursor takes the place of the first one. -/
theorem callbacks_conflated_cursor :
    ∃ s, Run.Reachable Initial (step fun _ => none) (fun s e => s.fresh (fun _ => none) e = true) s ∧
      s.Conflates (fun _ => none) ∧ s.callbacks = [⟨0, .LOK_CALLBACK_CELL_CURSOR, "2".toList⟩] := by
  have hreach : Run.Reachable Initial (step fun _ => none) (fun s e => s.fresh (fun _ => none) e = true)
      ⟨[⟨0, .LOK_CALLBACK_CELL_CURSOR, "2".toList⟩], [(true, ⟨0, .LOK_CALLBACK_CELL_CURSOR, "1".toList⟩),
        (true, ⟨0, .LOK_CALLBACK_CELL_CURSOR, "2".toList⟩)]⟩ :=
    .next (e := .putCallback 0 .LOK_CALLBACK_CELL_CURSOR "2".toList)
      (.next (e := .putCallback 0 .LOK_CALLBACK_CELL_CURSOR "1".toList) (.start rfl) rfl rfl) rfl rfl
  exact ⟨_, hreach, (callbacks_conflated (fun _ => none) hreach).1, rfl⟩

/-- Two states of a command. -/
theorem not_callbacks_conflated : ¬ ∀ extractViewId s, Run.Reachable Initial (step extractViewId) Run.Any s →
    s.Conflates extractViewId ∧ ∀ k, (s.callbacks.filter fun it => it.kind extractViewId = some k).length ≤ 1 := by
  intro h
  have hrun : ((Run.run (step fun _ => none) {} [.putCallback 0 .LOK_CALLBACK_STATE_CHANGED ".uno:Bold=true".toList,
      .putCallback 0 .LOK_CALLBACK_STATE_CHANGED ".uno:Bold=false".toList]).any fun s =>
        (s.callbacks.filter fun it => it.kind (fun _ => none) =
          some (0, .LOK_CALLBACK_STATE_CHANGED, ".uno:Bold".toList)).length == 2) = true := by
    decide +kernel
  have hinit : Initial {} := rfl
  obtain ⟨s, hs, htwo⟩ := Run.Reachable.exists_of_run _ _ hinit hrun
  have hone := (h _ s hs).2 (0, .LOK_CALLBACK_STATE_CHANGED, ".uno:Bold".toList)
  rw [beq_iff_eq] at htwo
  omega

end CallbackQueue

end CollaboraOnline
