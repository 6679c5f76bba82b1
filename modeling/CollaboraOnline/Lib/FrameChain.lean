import Mathlib

/-!
# Chains of frames

A stream of frames with growing versions, of which some start a new chain (keyframes) and the others (deltas) continue
the chain before them.  `chain` is the current chain, `chain (upTo w fs)` what it was at version `w`; who holds the
chain at version `w`, and `w` belongs to the current chain, only misses the frames after `w` (`chain_split`).
-/

/-- A frame of a stream. -/
structure Frame (ν β : Type*) where
  version : ν
  restarts : Bool
  payload : List β

namespace Frame

variable {ν β : Type*} {fs gs : List (Frame ν β)} {f : Frame ν β}

/-- The frames from the last keyframe on. -/
def chain (fs : List (Frame ν β)) : List (Frame ν β) := fs.foldl (fun c f => if f.restarts then [f] else c ++ [f]) []

/-- The payloads in order. -/
def data (fs : List (Frame ν β)) : List β := fs.flatMap payload

@[simp] theorem data_append : data (fs ++ gs) = data fs ++ data gs := List.flatMap_append

@[simp] theorem data_singleton : data [f] = f.payload := by simp [data]

theorem chain_concat : chain (fs ++ [f]) = if f.restarts then [f] else chain fs ++ [f] := by
  simp [chain, List.foldl_append]

theorem chain_suffix : chain fs <:+ fs := by
  induction fs using List.reverseRecOn with
  | nil => simp [chain]
  | append_singleton fs f ih =>
    rw [chain_concat]
    split
    · exact List.suffix_append fs [f]
    · obtain ⟨l, hl⟩ := ih
      exact ⟨l, by rw [← List.append_assoc, hl]⟩

theorem getLast?_chain : (chain fs).getLast? = fs.getLast? := by
  induction fs using List.reverseRecOn with
  | nil => rfl
  | append_singleton fs f _ =>
    rw [chain_concat]
    split <;> simp

section

variable [LinearOrder ν] {w : ν}

/-- The frames up to version `w`. -/
def upTo (w : ν) (fs : List (Frame ν β)) : List (Frame ν β) := fs.filter fun f => f.version ≤ w

/-- The frames after version `w`. -/
def after (w : ν) (fs : List (Frame ν β)) : List (Frame ν β) := fs.filter fun f => w < f.version

/-- Versions grow. -/
def Ordered (fs : List (Frame ν β)) : Prop := fs.Pairwise fun f g => f.version < g.version

theorem after_append : after w (fs ++ gs) = after w fs ++ after w gs := List.filter_append _ _

theorem after_eq_nil (h : ∀ f ∈ fs, f.version ≤ w) : after w fs = [] := by
  simpa [after, List.filter_eq_nil_iff] using h

theorem after_eq_self (h : ∀ f ∈ fs, w < f.version) : after w fs = fs := by
  simpa [after, List.filter_eq_self] using h

theorem upTo_eq_self (h : ∀ f ∈ fs, f.version ≤ w) : upTo w fs = fs := by
  simpa [upTo, List.filter_eq_self] using h

theorem upTo_concat_of_lt (h : w < f.version) : upTo w (fs ++ [f]) = upTo w fs := by
  simp [upTo, List.filter_append, h]

theorem ordered_concat : Ordered (fs ++ [f]) ↔ Ordered fs ∧ ∀ g ∈ fs, g.version < f.version := by
  simp [Ordered, List.pairwise_append]

/-- In an ordered stream the last frame has the largest version. -/
theorem Ordered.le_getLast (h : Ordered fs) (hlast : fs.getLast? = some f) : ∀ g ∈ fs, g.version ≤ f.version := by
  obtain ⟨l, rfl⟩ := List.getLast?_eq_some_iff.1 hlast
  intro g hg
  rcases List.mem_append.1 hg with hg | hg
  · exact le_of_lt ((ordered_concat.1 h).2 g hg)
  · rw [List.mem_singleton.1 hg]

/-- The current chain is the chain at version `w`, continued by what came after `w`, if `w` belongs to it. -/
theorem chain_split (h : Ordered fs) (hhead : (chain fs).head?.all fun g => g.version ≤ w) :
    chain fs = chain (upTo w fs) ++ after w (chain fs) := by
  -- where no frame is after `w` both sides are the whole chain
  have hall {fs : List (Frame ν β)} (hle : ∀ g ∈ fs, g.version ≤ w) :
      chain fs = chain (upTo w fs) ++ after w (chain fs) := by
    rw [upTo_eq_self hle, after_eq_nil fun g hg => hle g (chain_suffix.subset hg), List.append_nil]
  induction fs using List.reverseRecOn with
  | nil => rfl
  | append_singleton fs f ih =>
    obtain ⟨hfs, hlt⟩ := ordered_concat.1 h
    rcases le_or_gt f.version w with hw | hw
    · refine hall fun g hg => ?_
      rcases List.mem_append.1 hg with hg | hg
      · exact (le_of_lt (hlt g hg)).trans hw
      · rwa [List.mem_singleton.1 hg]
    · have hrestarts : f.restarts = false := by
        cases hf : f.restarts with
        | false => rfl
        | true =>
          simp only [chain_concat, hf, if_true, List.head?_cons, Option.all_some, decide_eq_true_eq] at hhead
          exact absurd hhead hw.not_ge
      rw [chain_concat, hrestarts, if_neg Bool.false_ne_true] at hhead ⊢
      have hfs' : (chain fs).head?.all fun g => g.version ≤ w := by
        cases hc : chain fs with
        | nil => rfl
        | cons g c => simpa [hc] using hhead
      have hsplit := ih hfs hfs'
      have hafter : after w [f] = [f] := after_eq_self (by simpa using hw)
      calc chain fs ++ [f] = (chain (upTo w fs) ++ after w (chain fs)) ++ [f] := by rw [← hsplit]
        _ = chain (upTo w (fs ++ [f])) ++ after w (chain fs ++ [f]) := by
          rw [upTo_concat_of_lt hw, after_append, hafter, List.append_assoc]

end

end Frame
