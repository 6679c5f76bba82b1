import Mathlib.Algebra.BigOperators.Intervals
import Mathlib.Data.Rat.Floor
import CollaboraOnline.Lib.Rounding

/-!
# The sizes of rows and columns

Sizes, and whether an element is hidden or filtered, come as lists of spans that are named by their last element.  The
hidden and filtered elements get the size zero (`applyZeroValues`), and every span is told its position in core
pixels, tile twips and print twips.  The arithmetic is that of doubles or the exact one (`Arithmetic`); sums and
products of whole numbers are exact in both, as doubles hold the whole numbers up to 2⁵³.
-/

namespace CollaboraOnline

open Rounding

structure SpanData where
  index : Nat
  value : Int
deriving DecidableEq, Repr

structure SpanList where
  spanlist : List SpanData := []
deriving DecidableEq, Repr

structure BoolSpanList where
  startBit : Bool := false
  spanlist : List Nat := []
deriving DecidableEq, Repr

/-! ### Hidden or filtered -/

namespace BoolSpanList

/-- The loop of `union` from the current spans on. -/
def unionLoop (maxElement : Nat) : List Nat → List Nat → Bool → Bool → Bool → List Nat
  | [], _, _, _, _ => []
  | _, [], _, _, _ => []
  | thisElement :: this, otherElement :: other, thisBit, otherBit, resultBit =>
    if thisElement < otherElement then
      let nextResultBit := !thisBit || otherBit
      if resultBit ≠ nextResultBit ∨ maxElement ≤ thisElement then
        thisElement :: unionLoop maxElement this (otherElement :: other) (!thisBit) otherBit nextResultBit
      else unionLoop maxElement this (otherElement :: other) (!thisBit) otherBit resultBit
    else if otherElement < thisElement then
      let nextResultBit := thisBit || !otherBit
      if resultBit ≠ nextResultBit ∨ maxElement ≤ otherElement then
        otherElement :: unionLoop maxElement (thisElement :: this) other thisBit (!otherBit) nextResultBit
      else unionLoop maxElement (thisElement :: this) other thisBit (!otherBit) resultBit
    else
      let nextResultBit := !thisBit || !otherBit
      if resultBit ≠ nextResultBit ∨ maxElement ≤ otherElement then
        otherElement :: unionLoop maxElement this other (!thisBit) (!otherBit) nextResultBit
      else unionLoop maxElement this other (!thisBit) (!otherBit) resultBit
termination_by this other => this.length + other.length

/-- `none` where the ranges differ. -/
def union (this other : BoolSpanList) : Option BoolSpanList :=
  match this.spanlist.getLast?, other.spanlist.getLast? with
  | some maxElement, some otherMax =>
    if maxElement ≠ otherMax then none
    else
      let resultBit := this.startBit || other.startBit
      some { startBit := resultBit
             spanlist := unionLoop maxElement this.spanlist other.spanlist this.startBit other.startBit resultBit }
  | _, _ => none

end BoolSpanList

/-! ### Sizes -/

namespace SpanList

/-- The loop of `applyZeroValues` from the current spans on. -/
def applyLoop (maxElement : Nat) : List SpanData → List Nat → Bool → Int → List SpanData
  | [], _, _, _ => []
  | _, [], _, _ => []
  | thisSpan :: this, otherElement :: other, zeroBit, resultValue =>
    if thisSpan.index < otherElement then
      let nextResultValue :=
        match this with
        | [] => resultValue
        | next :: _ => if zeroBit then 0 else next.value
      if resultValue ≠ nextResultValue ∨ maxElement ≤ thisSpan.index then
        ⟨thisSpan.index, resultValue⟩ :: applyLoop maxElement this (otherElement :: other) zeroBit nextResultValue
      else applyLoop maxElement this (otherElement :: other) zeroBit resultValue
    else if otherElement < thisSpan.index then
      let nextResultValue := if !zeroBit then 0 else thisSpan.value
      if resultValue ≠ nextResultValue ∨ maxElement ≤ otherElement then
        ⟨otherElement, resultValue⟩ :: applyLoop maxElement (thisSpan :: this) other (!zeroBit) nextResultValue
      else applyLoop maxElement (thisSpan :: this) other (!zeroBit) resultValue
    else
      let nextResultValue :=
        match this with
        | [] => resultValue
        | next :: _ => if !zeroBit then 0 else next.value
      if resultValue ≠ nextResultValue ∨ maxElement ≤ otherElement then
        ⟨otherElement, resultValue⟩ :: applyLoop maxElement this other (!zeroBit) nextResultValue
      else applyLoop maxElement this other (!zeroBit) resultValue
termination_by this other => this.length + other.length

/-- `none` where the ranges differ. -/
def applyZeroValues (this : SpanList) (other : BoolSpanList) : Option SpanList :=
  match this.spanlist, this.spanlist.getLast?, other.spanlist.getLast? with
  | first :: _, some last, some otherMax =>
    if last.index ≠ otherMax then none
    else
      some { spanlist := applyLoop last.index this.spanlist other.spanlist other.startBit
                          (if other.startBit then 0 else first.value) }
  | _, _, _ => none

end SpanList

/-! ### What the lists say -/

/-- Whether the element is in a span that is set. -/
def bitAt : Bool → List Nat → Nat → Bool
  | b, [], _ => b
  | b, e :: es, i => if i ≤ e then b else bitAt (!b) es i

/-- The size of the element. -/
def sizeAt : List SpanData → Nat → Int
  | [], _ => 0
  | s :: ss, i => if i ≤ s.index then s.value else sizeAt ss i

/-- The spans follow each other up to the last element. -/
structure EndsAt (max : Nat) (l : List Nat) : Prop where
  sorted : l.Pairwise (· < ·)
  last : l.getLast? = some max

variable {max last i : Nat} {l rest : List Nat} {spans spanRest : List SpanData}

theorem EndsAt.le (h : EndsAt max l) : ∀ e ∈ l, e ≤ max := by
  intro e he
  obtain ⟨init, rfl⟩ := List.getLast?_eq_some_iff.1 h.last
  rcases List.mem_append.1 he with he | he
  · exact (List.pairwise_append.1 h.sorted).2.2 e he max (by simp) |>.le
  · exact (List.mem_singleton.1 he).le

theorem EndsAt.cons_cases {e : Nat} (h : EndsAt max (e :: l)) :
    (l = [] ∧ e = max) ∨ (e < max ∧ EndsAt max l ∧ ∀ x ∈ l, e < x) := by
  obtain ⟨hlt, hsorted⟩ := List.pairwise_cons.1 h.sorted
  cases l with
  | nil => exact .inl ⟨rfl, Option.some.inj h.last⟩
  | cons e' l =>
    have hrest : EndsAt max (e' :: l) := ⟨hsorted, by rw [← h.last, List.getLast?_cons_cons]⟩
    have hmax : e < e' ∧ e' ≤ max := ⟨hlt e' List.mem_cons_self, hrest.le e' List.mem_cons_self⟩
    exact .inr ⟨by omega, hrest, hlt⟩

theorem EndsAt.cons (h : EndsAt max l) (hlt : ∀ x ∈ l, last < x) : EndsAt max (last :: l) := by
  refine ⟨List.pairwise_cons.2 ⟨hlt, h.sorted⟩, ?_⟩
  cases l with
  | nil => cases h.last
  | cons e l => rw [List.getLast?_cons_cons, h.last]

theorem bitAt_of_le {b : Bool} (h : ∀ x ∈ l.head?, i ≤ x) : bitAt b l i = b := by
  cases l with
  | nil => rfl
  | cons e l => rw [bitAt, if_pos (h e rfl)]

/-- One turn of `union`: the span ends here, or it goes on. -/
theorem bitAt_push {resultBit nextBit : Bool} {F G : Nat → Bool}
    (hrest : (rest = [] ∧ last = max) ∨ (EndsAt max rest ∧ (∀ x ∈ rest, last < x)))
    (hF : ∀ i, last < i → i ≤ max → bitAt nextBit rest i = F i)
    (hsame : resultBit = nextBit → ∀ i ≤ last, bitAt nextBit rest i = nextBit)
    (hbefore : ∀ i ≤ last, G i = resultBit) (hafter : ∀ i, last < i → i ≤ max → G i = F i) :
    EndsAt max (if resultBit ≠ nextBit ∨ max ≤ last then last :: rest else rest) ∧
      (∀ x ∈ (if resultBit ≠ nextBit ∨ max ≤ last then last :: rest else rest), last ≤ x) ∧
      ∀ i ≤ max, bitAt resultBit (if resultBit ≠ nextBit ∨ max ≤ last then last :: rest else rest) i = G i := by
  by_cases hpush : resultBit ≠ nextBit ∨ max ≤ last
  · rw [if_pos hpush]
    refine ⟨?_, ?_, fun i hi => ?_⟩
    · rcases hrest with ⟨rfl, rfl⟩ | ⟨hends, hlt⟩
      · exact ⟨List.pairwise_singleton _ _, rfl⟩
      · exact hends.cons hlt
    · intro x hx
      rcases List.mem_cons.1 hx with rfl | hx
      · exact le_refl _
      · rcases hrest with ⟨rfl, -⟩ | ⟨-, hlt⟩
        · cases hx
        · exact (hlt x hx).le
    · rw [bitAt]
      by_cases hle : i ≤ last
      · rw [if_pos hle, hbefore i hle]
      · have hflip : (!resultBit) = nextBit := by
          rcases hpush with hne | hmax
          · cases resultBit <;> cases nextBit <;> simp_all
          · omega
        rw [if_neg hle, hflip, hF i (by omega) hi, hafter i (by omega) hi]
  · obtain ⟨hsameBit, hlast⟩ := not_or.1 hpush
    have heq : resultBit = nextBit := not_not.1 hsameBit
    rw [if_neg hpush]
    rcases hrest with ⟨-, hmax⟩ | ⟨hends, hlt⟩
    · exact absurd hmax.ge hlast
    · refine ⟨hends, fun x hx => (hlt x hx).le, fun i hi => ?_⟩
      by_cases hle : i ≤ last
      · rw [heq, hsame heq i hle, ← heq, hbefore i hle]
      · rw [heq, hF i (by omega) hi, hafter i (by omega) hi]

theorem sizeAt_of_le {s : SpanData} (h : i ≤ s.index) : sizeAt (s :: spans) i = s.value := by
  rw [sizeAt, if_pos h]

/-- One turn of `applyZeroValues`. -/
theorem sizeAt_push {resultValue nextValue : Int} {F G : Nat → Int}
    (hrest : (spanRest = [] ∧ last = max) ∨ (EndsAt max (spanRest.map (·.index)) ∧ ∀ x ∈ spanRest, last < x.index))
    (hF : ∀ i, last < i → i ≤ max → sizeAt spanRest i = F i)
    (hsame : resultValue = nextValue → last < max → ∀ i ≤ last, sizeAt spanRest i = nextValue)
    (hbefore : ∀ i ≤ last, G i = resultValue) (hafter : ∀ i, last < i → i ≤ max → G i = F i) :
    EndsAt max ((if resultValue ≠ nextValue ∨ max ≤ last then ⟨last, resultValue⟩ :: spanRest else spanRest).map
      (·.index)) ∧
      (∀ x ∈ (if resultValue ≠ nextValue ∨ max ≤ last then ⟨last, resultValue⟩ :: spanRest else spanRest),
      last ≤ x.index) ∧
      ∀ i ≤ max, sizeAt (if resultValue ≠ nextValue ∨ max ≤ last then ⟨last, resultValue⟩ :: spanRest else spanRest)
        i = G i := by
  by_cases hpush : resultValue ≠ nextValue ∨ max ≤ last
  · rw [if_pos hpush]
    refine ⟨?_, ?_, fun i hi => ?_⟩
    · rw [List.map_cons]
      rcases hrest with ⟨rfl, rfl⟩ | ⟨hends, hlt⟩
      · exact ⟨List.pairwise_singleton _ _, rfl⟩
      · refine hends.cons fun x hx => ?_
        obtain ⟨s, hs, rfl⟩ := List.mem_map.1 hx
        exact hlt s hs
    · intro x hx
      rcases List.mem_cons.1 hx with rfl | hx
      · exact le_refl _
      · rcases hrest with ⟨rfl, -⟩ | ⟨-, hlt⟩
        · cases hx
        · exact (hlt x hx).le
    · rw [sizeAt]
      by_cases hle : i ≤ last
      · rw [if_pos hle, hbefore i hle]
      · rw [if_neg hle, hF i (by omega) hi, hafter i (by omega) hi]
  · obtain ⟨hsameValue, hlast⟩ := not_or.1 hpush
    have heq : resultValue = nextValue := not_not.1 hsameValue
    rw [if_neg hpush]
    rcases hrest with ⟨-, hmax⟩ | ⟨hends, hlt⟩
    · exact absurd hmax.ge hlast
    · refine ⟨hends, fun x hx => (hlt x hx).le, fun i hi => ?_⟩
      by_cases hle : i ≤ last
      · rw [hsame heq (by omega) i hle, ← heq, hbefore i hle]
      · rw [hF i (by omega) hi, hafter i (by omega) hi]

/-! ### The loops -/

namespace BoolSpanList

/-- The result is the union of the spans. -/
structure Unites (max : Nat) (this other : List Nat) (thisBit otherBit : Bool) (result : List Nat) : Prop where
  ends : EndsAt max result
  bound : ∀ m, (∀ a ∈ this, m < a) → (∀ b ∈ other, m < b) → ∀ x ∈ result, m < x
  bits : ∀ i ≤ max, bitAt (thisBit || otherBit) result i = (bitAt thisBit this i || bitAt otherBit other i)

/-- A turn: the spans up to the last element are done, and the others remain. -/
theorem Unites.turn {this other this' other' : List Nat} {thisBit otherBit thisBit' otherBit' : Bool}
    (hrest : (unionLoop max this' other' thisBit' otherBit' (thisBit' || otherBit') = [] ∧ last = max) ∨
      (Unites max this' other' thisBit' otherBit'
        (unionLoop max this' other' thisBit' otherBit' (thisBit' || otherBit')) ∧
        (∀ a ∈ this', last < a) ∧ ∀ b ∈ other', last < b))
    (hlast : last ∈ this ∨ last ∈ other)
    (hbefore : ∀ i ≤ last, bitAt thisBit this i = thisBit ∧ bitAt otherBit other i = otherBit)
    (hafter : ∀ i, last < i → bitAt thisBit this i = bitAt thisBit' this' i ∧
    bitAt otherBit other i = bitAt otherBit' other' i) :
    Unites max this other thisBit otherBit
      (if (thisBit || otherBit) ≠ (thisBit' || otherBit') ∨ max ≤ last then
        last :: unionLoop max this' other' thisBit' otherBit' (thisBit' || otherBit')
      else unionLoop max this' other' thisBit' otherBit' (thisBit || otherBit)) := by
  -- The bit of the result is that of the next turn where no span ends.
  have hgoes : (if (thisBit || otherBit) ≠ (thisBit' || otherBit') ∨ max ≤ last then
        last :: unionLoop max this' other' thisBit' otherBit' (thisBit' || otherBit')
      else unionLoop max this' other' thisBit' otherBit' (thisBit || otherBit)) =
      if (thisBit || otherBit) ≠ (thisBit' || otherBit') ∨ max ≤ last then
        last :: unionLoop max this' other' thisBit' otherBit' (thisBit' || otherBit')
      else unionLoop max this' other' thisBit' otherBit' (thisBit' || otherBit') := by
    split
    · rfl
    · rename_i h
      rw [not_not.1 (not_or.1 h).1]
  have hspans : (unionLoop max this' other' thisBit' otherBit' (thisBit' || otherBit') = [] ∧ last = max) ∨
      (EndsAt max (unionLoop max this' other' thisBit' otherBit' (thisBit' || otherBit')) ∧
        ∀ x ∈ unionLoop max this' other' thisBit' otherBit' (thisBit' || otherBit'), last < x) := by
    rcases hrest with h | ⟨h, hthis, hother⟩
    · exact .inl h
    · exact .inr ⟨h.ends, h.bound last hthis hother⟩
  have hbits : ∀ i, last < i → i ≤ max →
      bitAt (thisBit' || otherBit') (unionLoop max this' other' thisBit' otherBit' (thisBit' || otherBit')) i =
        (bitAt thisBit' this' i || bitAt otherBit' other' i) := by
    intro i hlt hi
    rcases hrest with ⟨-, hmax⟩ | ⟨h, -, -⟩
    · omega
    · exact h.bits i hi
  have hfirst : ∀ i ≤ last,
      bitAt (thisBit' || otherBit') (unionLoop max this' other' thisBit' otherBit' (thisBit' || otherBit')) i =
        (thisBit' || otherBit') := by
    intro i hi
    refine bitAt_of_le fun x hx => ?_
    rcases hspans with ⟨hnil, -⟩ | ⟨-, hlt⟩
    · rw [hnil] at hx
      cases hx
    · exact hi.trans (hlt x (List.mem_of_mem_head? hx)).le
  rw [hgoes]
  obtain ⟨hends, hle, hat⟩ := bitAt_push (G := fun i => bitAt thisBit this i || bitAt otherBit other i) hspans hbits
    (fun _ i hi => hfirst i hi)
    (fun i hi => by
      obtain ⟨hthis, hother⟩ := hbefore i hi
      show (bitAt thisBit this i || bitAt otherBit other i) = _
      rw [hthis, hother])
    (fun i hi _ => by
      obtain ⟨hthis, hother⟩ := hafter i hi
      show (bitAt thisBit this i || bitAt otherBit other i) = _
      rw [hthis, hother])
  refine ⟨hends, fun m hthis hother x hx => ?_, hat⟩
  have hm : m < last := hlast.elim (hthis last) (hother last)
  exact hm.trans_le (hle x hx)

theorem unionLoop_unites (n : Nat) :
    ∀ (this other : List Nat) (thisBit otherBit : Bool), this.length + other.length = n →
    EndsAt max this → EndsAt max other →
    Unites max this other thisBit otherBit (unionLoop max this other thisBit otherBit (thisBit || otherBit)) := by
  induction n using Nat.strong_induction_on with
  | _ n ih =>
    intro this other thisBit otherBit hlength hthis hother
    cases this with
    | nil => cases hthis.last
    | cons t this =>
      cases other with
      | nil => cases hother.last
      | cons o other =>
        have ht := hthis.le t List.mem_cons_self
        have ho := hother.le o List.mem_cons_self
        simp only [List.length_cons] at hlength
        rw [unionLoop]
        by_cases hto : t < o
        · rw [if_pos hto]
          obtain ⟨-, rfl⟩ | ⟨hlt, hrest, hafter⟩ := hthis.cons_cases
          · omega
          have hnext := ih _ (by simp only [List.length_cons]; omega) this (o :: other)
            (!thisBit) otherBit rfl hrest hother
          have hotherGt : ∀ b ∈ o :: other, t < b := by
            intro b hb
            rcases List.mem_cons.1 hb with rfl | hb
            · exact hto
            · exact hto.trans ((List.pairwise_cons.1 hother.sorted).1 b hb)
          refine Unites.turn (.inr ⟨hnext, hafter, hotherGt⟩) (.inl List.mem_cons_self)
            (fun i hi => ?_) fun i hi => ?_
          · rw [bitAt, if_pos hi, bitAt, if_pos (by omega)]
            exact ⟨rfl, rfl⟩
          · rw [bitAt, if_neg (by omega)]
            exact ⟨rfl, rfl⟩
        · rw [if_neg hto]
          by_cases hot : o < t
          · rw [if_pos hot]
            obtain ⟨-, rfl⟩ | ⟨hlt, hrest, hafter⟩ := hother.cons_cases
            · omega
            have hnext := ih _ (by simp only [List.length_cons]; omega) (t :: this) other thisBit
              (!otherBit) rfl hthis hrest
            have hthisGt : ∀ a ∈ t :: this, o < a := by
              intro a ha
              rcases List.mem_cons.1 ha with rfl | ha
              · exact hot
              · exact hot.trans ((List.pairwise_cons.1 hthis.sorted).1 a ha)
            refine Unites.turn (.inr ⟨hnext, hthisGt, hafter⟩) (.inr List.mem_cons_self)
              (fun i hi => ?_) fun i hi => ?_
            · rw [bitAt, if_pos (by omega), bitAt, if_pos hi]
              exact ⟨rfl, rfl⟩
            · rw [bitAt.eq_2 otherBit, if_neg (by omega)]
              exact ⟨rfl, rfl⟩
          · obtain rfl : t = o := by omega
            rw [if_neg hot]
            have hbits : ∀ i ≤ t, bitAt thisBit (t :: this) i = thisBit ∧
                bitAt otherBit (t :: other) i = otherBit := by
              intro i hi
              rw [bitAt, if_pos hi, bitAt, if_pos hi]
              exact ⟨rfl, rfl⟩
            have hlater : ∀ i, t < i → bitAt thisBit (t :: this) i = bitAt (!thisBit) this i ∧
                bitAt otherBit (t :: other) i = bitAt (!otherBit) other i := by
              intro i hi
              rw [bitAt, if_neg (by omega), bitAt, if_neg (by omega)]
              exact ⟨rfl, rfl⟩
            refine Unites.turn ?_ (.inr List.mem_cons_self) hbits hlater
            -- Both lists end with the last element, or both go on.
            rcases hthis.cons_cases with ⟨rfl, hmax⟩ | ⟨hlt, hrest, hafter⟩
            · refine .inl ⟨?_, hmax⟩
              rw [unionLoop]
            · rcases hother.cons_cases with ⟨-, hmax⟩ | ⟨-, hrest', hafter'⟩
              · omega
              · exact .inr ⟨ih _ (by omega) this other (!thisBit) (!otherBit) rfl hrest hrest', hafter, hafter'⟩

/-- What `union` says of a well-formed list of each kind. -/
theorem union_spec {this other : BoolSpanList} (hthis : EndsAt max this.spanlist)
    (hother : EndsAt max other.spanlist) : ∃ result, union this other = some result ∧ EndsAt max result.spanlist ∧
      ∀ i ≤ max, bitAt result.startBit result.spanlist i =
        (bitAt this.startBit this.spanlist i || bitAt other.startBit other.spanlist i) := by
  have hunites := unionLoop_unites _ this.spanlist other.spanlist this.startBit other.startBit rfl hthis hother
  unfold union
  rw [hthis.last, hother.last]
  dsimp only
  rw [if_neg (not_not.2 rfl)]
  exact ⟨_, rfl, hunites.ends, hunites.bits⟩

end BoolSpanList

namespace SpanList

/-- The result has the size zero where the bit is set. -/
structure Applies (max : Nat) (this : List SpanData) (other : List Nat) (zeroBit : Bool) (result : List SpanData) :
    Prop where
  ends : EndsAt max (result.map (·.index))
  bound : ∀ m, (∀ s ∈ this, m < s.index) → (∀ b ∈ other, m < b) → ∀ x ∈ result, m < x.index
  sizes : ∀ i ≤ max, sizeAt result i = if bitAt zeroBit other i then 0 else sizeAt this i

/-- A turn: the spans up to the last element are done, and the others remain. -/
theorem Applies.turn {this this' : List SpanData} {other other' : List Nat} {zeroBit zeroBit' : Bool}
    {resultValue nextValue : Int} (hrest : (applyLoop max this' other' zeroBit' nextValue = [] ∧ last = max) ∨
      (Applies max this' other' zeroBit' (applyLoop max this' other' zeroBit' nextValue) ∧
        (∀ s ∈ this', last < s.index) ∧ (∀ b ∈ other', last < b) ∧
        ∀ i ≤ last, (if bitAt zeroBit' other' i then 0 else sizeAt this' i) = nextValue))
    (hlast : (∃ s ∈ this, s.index = last) ∨ last ∈ other) (hmax : last ≤ max)
    (hbefore : ∀ i ≤ last, (if bitAt zeroBit other i then 0 else sizeAt this i) = resultValue)
    (hafter : ∀ i, last < i → sizeAt this i = sizeAt this' i ∧ bitAt zeroBit other i = bitAt zeroBit' other' i) :
    Applies max this other zeroBit
      (if resultValue ≠ nextValue ∨ max ≤ last then
        ⟨last, resultValue⟩ :: applyLoop max this' other' zeroBit' nextValue
      else applyLoop max this' other' zeroBit' resultValue) := by
  have hgoes : (if resultValue ≠ nextValue ∨ max ≤ last then
        ⟨last, resultValue⟩ :: applyLoop max this' other' zeroBit' nextValue
      else applyLoop max this' other' zeroBit' resultValue) =
      if resultValue ≠ nextValue ∨ max ≤ last then
        ⟨last, resultValue⟩ :: applyLoop max this' other' zeroBit' nextValue
      else applyLoop max this' other' zeroBit' nextValue := by
    split
    · rfl
    · rename_i h
      rw [not_not.1 (not_or.1 h).1]
  have hspans : (applyLoop max this' other' zeroBit' nextValue = [] ∧ last = max) ∨
      (EndsAt max ((applyLoop max this' other' zeroBit' nextValue).map (·.index)) ∧
        ∀ x ∈ applyLoop max this' other' zeroBit' nextValue, last < x.index) := by
    rcases hrest with h | ⟨h, hthis, hother, -⟩
    · exact .inl h
    · exact .inr ⟨h.ends, h.bound last hthis hother⟩
  have hsizes : ∀ i, last < i → i ≤ max → sizeAt (applyLoop max this' other' zeroBit' nextValue) i =
      if bitAt zeroBit' other' i then 0 else sizeAt this' i := by
    intro i hlt hi
    rcases hrest with ⟨-, hend⟩ | ⟨h, -⟩
    · omega
    · exact h.sizes i hi
  have hfirst : resultValue = nextValue → last < max → ∀ i ≤ last,
      sizeAt (applyLoop max this' other' zeroBit' nextValue) i = nextValue := by
    intro _ hlt i hi
    rcases hrest with ⟨-, hend⟩ | ⟨h, -, -, hnext⟩
    · omega
    · rw [h.sizes i (by omega), hnext i hi]
  rw [hgoes]
  obtain ⟨hends, hle, hat⟩ :=
    sizeAt_push (G := fun i => if bitAt zeroBit other i then 0 else sizeAt this i) hspans hsizes hfirst
    hbefore (fun i hi _ => by
      obtain ⟨hthis, hother⟩ := hafter i hi
      show (if bitAt zeroBit other i then 0 else sizeAt this i) = _
      rw [hthis, hother])
  refine ⟨hends, fun m hthis hother x hx => ?_, hat⟩
  have hm : m < last := by
    rcases hlast with ⟨s, hs, rfl⟩ | hlast
    · exact hthis s hs
    · exact hother last hlast
  exact hm.trans_le (hle x hx)

/-- The value at the start of the lists. -/
theorem startValue {s : SpanData} {this : List SpanData} {o : Nat} {other : List Nat} {zeroBit : Bool} {i : Nat}
    (hs : i ≤ s.index) (ho : i ≤ o) : (if bitAt zeroBit (o :: other) i then 0 else sizeAt (s :: this) i) =
      if zeroBit then 0 else s.value := by
  rw [bitAt, if_pos ho, sizeAt_of_le hs]

theorem applyLoop_applies (n : Nat) : ∀ (s : SpanData) (this : List SpanData) (other : List Nat) (zeroBit : Bool),
    this.length + other.length = n → EndsAt max ((s :: this).map (·.index)) → EndsAt max other →
    Applies max (s :: this) other zeroBit
      (applyLoop max (s :: this) other zeroBit (if zeroBit then 0 else s.value)) := by
  induction n using Nat.strong_induction_on with
  | _ n ih =>
    intro s this other zeroBit hlength hthis hother
    cases other with
    | nil => cases hother.last
    | cons o other =>
      have hthis : EndsAt max (s.index :: this.map (·.index)) := hthis
      have hs := hthis.le s.index List.mem_cons_self
      have ho := hother.le o List.mem_cons_self
      simp only [List.length_cons] at hlength
      have hnext (hlater : ∀ x ∈ this, s.index < x.index) (x : SpanData) (hx : x ∈ s :: this) :
          s.index ≤ x.index := by
        rcases List.mem_cons.1 hx with rfl | hx
        · exact le_refl _
        · exact (hlater x hx).le
      have hlater : ∀ x ∈ this, s.index < x.index := fun x hx =>
        (List.pairwise_cons.1 hthis.sorted).1 x.index (List.mem_map_of_mem hx)
      rw [applyLoop.eq_def]
      dsimp only
      by_cases hso : s.index < o
      · rw [if_pos hso]
        rcases hthis.cons_cases with ⟨-, hmax⟩ | ⟨hlt, hrest, -⟩
        · omega
        cases this with
        | nil => cases hrest.last
        | cons s' this =>
          have happlies := ih _ (by simp only [List.length_cons] at hlength ⊢; omega) s' this
            (o :: other) zeroBit rfl hrest hother
          have hotherGt : ∀ b ∈ o :: other, s.index < b := by
            intro b hb
            rcases List.mem_cons.1 hb with rfl | hb
            · exact hso
            · exact hso.trans ((List.pairwise_cons.1 hother.sorted).1 b hb)
          have hs' := hlater s' List.mem_cons_self
          refine Applies.turn (.inr ⟨happlies, hlater, hotherGt, fun i hi => startValue (by omega) (by omega)⟩)
            (.inl ⟨s, List.mem_cons_self, rfl⟩) hs (fun i hi => startValue hi (by omega)) fun i hi => ?_
          rw [sizeAt, if_neg (by omega)]
          exact ⟨rfl, rfl⟩
      · rw [if_neg hso]
        by_cases hos : o < s.index
        · rw [if_pos hos]
          rcases hother.cons_cases with ⟨-, hmax⟩ | ⟨hlt, hrest, hafter⟩
          · omega
          have hflip : (if (!zeroBit) = true then (0 : Int) else s.value) = if !zeroBit then 0 else s.value := rfl
          have happlies := ih _ (by omega) s this other (!zeroBit) rfl hthis hrest
          have hthisGt : ∀ x ∈ s :: this, o < x.index := fun x hx => hos.trans_le (hnext hlater x hx)
          have hstart : ∀ i ≤ o, (if bitAt (!zeroBit) other i then 0 else sizeAt (s :: this) i) =
              if !zeroBit then 0 else s.value := by
            intro i hi
            have hhead : ∀ x ∈ other.head?, i ≤ x := fun x hx => hi.trans (hafter x (List.mem_of_mem_head? hx)).le
            rw [bitAt_of_le hhead, sizeAt_of_le (by omega)]
          refine Applies.turn (.inr ⟨happlies, hthisGt, hafter, hstart⟩) (.inr List.mem_cons_self) ho
            (fun i hi => startValue (by omega) hi) fun i hi => ?_
          rw [bitAt, if_neg (by omega)]
          exact ⟨rfl, rfl⟩
        · obtain rfl : s.index = o := by omega
          rw [if_neg hos]
          have hgo : ∀ i, s.index < i → sizeAt (s :: this) i = sizeAt this i ∧
              bitAt zeroBit (s.index :: other) i = bitAt (!zeroBit) other i := by
            intro i hi
            rw [sizeAt, if_neg (by omega), bitAt, if_neg (by omega)]
            exact ⟨rfl, rfl⟩
          refine Applies.turn ?_ (.inr List.mem_cons_self) hs (fun i hi => startValue hi hi) hgo
          rcases hthis.cons_cases with ⟨hnil, hmax⟩ | ⟨hlt, hrest, -⟩
          · obtain rfl := List.map_eq_nil_iff.1 hnil
            refine .inl ⟨?_, hmax⟩
            rw [applyLoop]
          · rcases hother.cons_cases with ⟨-, hmax⟩ | ⟨-, hrest', hafter'⟩
            · omega
            cases this with
            | nil => cases hrest.last
            | cons s' this =>
              have happlies := ih _ (by simp only [List.length_cons] at hlength ⊢; omega) s' this other
                (!zeroBit) rfl hrest hrest'
              have hs' := hlater s' List.mem_cons_self
              refine .inr ⟨happlies, hlater, hafter', fun i hi => ?_⟩
              have hhead : ∀ x ∈ other.head?, i ≤ x := fun x hx => hi.trans (hafter' x (List.mem_of_mem_head? hx)).le
              rw [bitAt_of_le hhead, sizeAt_of_le (by omega)]

theorem applyZeroValues_spec {this : SpanList} {other : BoolSpanList}
    (hthis : EndsAt max (this.spanlist.map (·.index))) (hother : EndsAt max other.spanlist) :
    ∃ result, applyZeroValues this other = some result ∧ EndsAt max (result.spanlist.map (·.index)) ∧
      ∀ i ≤ max, sizeAt result.spanlist i =
        if bitAt other.startBit other.spanlist i then 0 else sizeAt this.spanlist i := by
  obtain ⟨spanlist⟩ := this
  cases spanlist with
  | nil => cases hthis.last
  | cons s spans =>
    have happlies := applyLoop_applies _ s spans other.spanlist other.startBit rfl hthis hother
    have hlast : ∃ last, (s :: spans).getLast? = some last ∧ last.index = max := by
      have h := hthis.last
      dsimp only at h
      rw [List.getLast?_map] at h
      exact Option.map_eq_some_iff.1 h
    obtain ⟨last, hlast, rfl⟩ := hlast
    unfold applyZeroValues
    dsimp only
    rw [hlast, hother.last]
    dsimp only
    rw [if_neg (not_not.2 rfl)]
    exact ⟨_, rfl, happlies.ends, happlies.sizes⟩

end SpanList

/-! ### Positions -/

/-- A span with its custom data; `sizecore` and `poscorepx` are in core pixels, of `twipsPerCorePixel` twips. -/
structure PositionedSpan extends SpanData where
  sizecore : Int
  poscorepx : Int
  postiletwips : Int
  posprinttwips : Int
deriving DecidableEq

/-- The callback of `_updatePositions` for each span; `start` is the first element of the next span. -/
def positionsFrom (A : Arithmetic) (twipsPerCorePixel : ℚ) : Nat → Int → Int → List SpanData → List PositionedSpan
  | _, _, _, [] => []
  | start, posCorePx, posPrintTwips, span :: spans =>
    let spanLength : Int := span.index + 1 - start
    let sizeCorePxOne := ⌊A.fl (span.value / twipsPerCorePixel)⌋
    let posCorePx := posCorePx + sizeCorePxOne * spanLength
    let posTileTwips := ⌊A.fl (posCorePx * twipsPerCorePixel)⌋
    let posPrintTwips := posPrintTwips + span.value * spanLength
    { span with sizecore := sizeCorePxOne, poscorepx := posCorePx, postiletwips := posTileTwips
                posprinttwips := posPrintTwips } ::
      positionsFrom A twipsPerCorePixel (span.index + 1) posCorePx posPrintTwips spans

/-- What `_updateVisible` reads. -/
structure SheetDimension (A : Arithmetic) where
  sizes : SpanList
  hidden : BoolSpanList
  filtered : BoolSpanList
  tileSizeTwips : ℚ
  tileSizePixels : ℚ

variable {A : Arithmetic}

/-- `_twipsPerCorePixel`, of `setTileGeometryData`. -/
def SheetDimension.twipsPerCorePixel (d : SheetDimension A) : ℚ := A.fl (d.tileSizeTwips / d.tileSizePixels)

/-- The spans that `_updateVisible` makes; `none` where one of the lists ends elsewhere. -/
def SheetDimension.updateVisible (d : SheetDimension A) : Option (List PositionedSpan) :=
  (d.hidden.union d.filtered).bind fun invisible =>
    (d.sizes.applyZeroValues invisible).map fun visible => positionsFrom A d.twipsPerCorePixel 0 0 0 visible.spanlist

theorem spans_positionsFrom (A : Arithmetic) (r : ℚ) (start : Nat) (posCorePx posPrintTwips : Int)
    (spans : List SpanData) : (positionsFrom A r start posCorePx posPrintTwips spans).map (·.toSpanData) = spans := by
  induction spans generalizing start posCorePx posPrintTwips with
  | nil => rfl
  | cons s spans ih =>
    rw [positionsFrom, List.map_cons, ih]

/-- The sums over the elements from the start on are added up. -/
theorem positionsFrom_sums (r : ℚ) {start : Nat} {posCorePx posPrintTwips : Int} {spans : List SpanData}
    (hstart : ∀ s ∈ spans, start ≤ s.index) (hsorted : (spans.map (·.index)).Pairwise (· < ·)) :
    ∀ s ∈ positionsFrom A r start posCorePx posPrintTwips spans,
      s.posprinttwips = posPrintTwips + ∑ i ∈ Finset.Ico start (s.index + 1), sizeAt spans i ∧
      s.poscorepx = posCorePx + ∑ i ∈ Finset.Ico start (s.index + 1), ⌊A.fl (sizeAt spans i / r)⌋ ∧
      s.postiletwips = ⌊A.fl (s.poscorepx * r)⌋ ∧ s.sizecore = ⌊A.fl (s.value / r)⌋ := by
  induction spans generalizing start posCorePx posPrintTwips with
  | nil =>
    intro s hs
    cases hs
  | cons span spans ih =>
    have hspan := hstart span List.mem_cons_self
    obtain ⟨hlt, hsorted⟩ := List.pairwise_cons.1 hsorted
    have hlater : ∀ s ∈ spans, span.index + 1 ≤ s.index := fun s hs => hlt s.index (List.mem_map_of_mem hs)
    -- The sum over the span itself.
    have hown (f : Int → Int) : ∑ i ∈ Finset.Ico start (span.index + 1), f (sizeAt (span :: spans) i) =
        f span.value * (span.index + 1 - start : Int) := by
      have hconst : ∑ i ∈ Finset.Ico start (span.index + 1), f (sizeAt (span :: spans) i) =
          ∑ _i ∈ Finset.Ico start (span.index + 1), f span.value := by
        refine Finset.sum_congr rfl fun i hi => ?_
        rw [sizeAt_of_le (by have := (Finset.mem_Ico.1 hi).2; omega)]
      rw [hconst, Finset.sum_const, Nat.card_Ico, nsmul_eq_mul, mul_comm]
      push_cast [Nat.cast_sub (by omega : start ≤ span.index + 1)]
      ring
    have hrest (f : Int → Int) (e : Nat) (he : span.index + 1 ≤ e + 1) :
        ∑ i ∈ Finset.Ico start (e + 1), f (sizeAt (span :: spans) i) =
          f span.value * (span.index + 1 - start : Int) + ∑ i ∈ Finset.Ico (span.index + 1) (e + 1),
            f (sizeAt spans i) := by
      rw [← Finset.sum_Ico_consecutive _ (by omega : start ≤ span.index + 1) he, hown]
      congr 1
      refine Finset.sum_congr rfl fun i hi => ?_
      rw [sizeAt, if_neg (by have := (Finset.mem_Ico.1 hi).1; omega)]
    intro s hs
    rw [positionsFrom] at hs
    rcases List.mem_cons.1 hs with rfl | hs
    · exact ⟨by rw [← hown fun v => v], by rw [← hown fun v => ⌊A.fl (v / r)⌋], rfl, rfl⟩
    · obtain ⟨hprint, hcore, htile, hsize⟩ := ih hlater hsorted s hs
      have hmem : s.toSpanData ∈ spans := by
        have h := List.mem_map_of_mem (f := (·.toSpanData)) hs
        rwa [spans_positionsFrom] at h
      have he := hlater s.toSpanData hmem
      refine ⟨?_, ?_, htile, hsize⟩
      · rw [hprint, hrest (fun v => v) s.index (by omega), add_assoc]
      · rw [hcore, hrest (fun v => ⌊A.fl (v / r)⌋) s.index (by omega), add_assoc]

namespace SheetDimension

/-- The three lists end with the same element. -/
structure WellFormed (d : SheetDimension A) (max : Nat) : Prop where
  sizes : EndsAt max (d.sizes.spanlist.map (·.index))
  hidden : EndsAt max d.hidden.spanlist
  filtered : EndsAt max d.filtered.spanlist

/-- The size of the element, if it is visible. -/
def visibleSize (d : SheetDimension A) (i : Nat) : Int :=
  if bitAt d.hidden.startBit d.hidden.spanlist i || bitAt d.filtered.startBit d.filtered.spanlist i then 0
  else sizeAt d.sizes.spanlist i

/-- What the visible spans are. -/
theorem exists_visible {d : SheetDimension A} {max : Nat} (h : d.WellFormed max) :
    ∃ visible, d.updateVisible = some visible ∧ EndsAt max (visible.map (·.index)) ∧
      (∀ i ≤ max, sizeAt (visible.map (·.toSpanData)) i = d.visibleSize i) ∧
      ∀ s ∈ visible,
        s.posprinttwips = ∑ i ∈ Finset.range (s.index + 1), d.visibleSize i ∧
        s.poscorepx = ∑ i ∈ Finset.range (s.index + 1), ⌊A.fl (d.visibleSize i / d.twipsPerCorePixel)⌋ ∧
        s.postiletwips = ⌊A.fl (s.poscorepx * d.twipsPerCorePixel)⌋ ∧
        s.sizecore = ⌊A.fl (s.value / d.twipsPerCorePixel)⌋ := by
  obtain ⟨invisible, hunion, hinvisible, hbits⟩ := BoolSpanList.union_spec h.hidden h.filtered
  obtain ⟨visible, happly, hends, hsizes⟩ := SpanList.applyZeroValues_spec h.sizes hinvisible
  have hsize : ∀ i ≤ max, sizeAt visible.spanlist i = d.visibleSize i := by
    intro i hi
    unfold visibleSize
    rw [hsizes i hi, hbits i hi]
  have hindexes : (positionsFrom A d.twipsPerCorePixel 0 0 0 visible.spanlist).map (·.index) =
      visible.spanlist.map (·.index) := by
    conv_rhs => rw [← spans_positionsFrom A d.twipsPerCorePixel 0 0 0 visible.spanlist, List.map_map]
    rfl
  refine ⟨positionsFrom A d.twipsPerCorePixel 0 0 0 visible.spanlist, ?_, ?_, ?_, fun s hs => ?_⟩
  · unfold updateVisible
    rw [hunion, Option.bind_some, happly, Option.map_some]
  · rw [hindexes]
    exact hends
  · intro i hi
    rw [spans_positionsFrom, hsize i hi]
  · obtain ⟨hprint, hcore, htile, hone⟩ :=
      positionsFrom_sums d.twipsPerCorePixel (fun _ _ => Nat.zero_le _) hends.sorted s hs
    have hmem : s.index ≤ max := by
      have h := List.mem_map_of_mem (f := (·.toSpanData)) hs
      rw [spans_positionsFrom] at h
      exact hends.le s.index (List.mem_map_of_mem h)
    have hsum (f : Int → Int) : ∑ i ∈ Finset.Ico 0 (s.index + 1), f (sizeAt visible.spanlist i) =
        ∑ i ∈ Finset.range (s.index + 1), f (d.visibleSize i) := by
      rw [Finset.range_eq_Ico]
      refine Finset.sum_congr rfl fun i hi => ?_
      rw [hsize i (by have := (Finset.mem_Ico.1 hi).2; omega)]
    rw [zero_add, hsum fun v => v] at hprint
    rw [zero_add, hsum fun v => ⌊A.fl (v / d.twipsPerCorePixel)⌋] at hcore
    exact ⟨hprint, hcore, htile, hone⟩

/-- The visible spans have the visible sizes, and their positions are the sums over all elements up to their end. -/
theorem updateVisible_spec {d : SheetDimension A} {max : Nat} (h : d.WellFormed max) :
    ∃ visible, d.updateVisible = some visible ∧
      (∀ i ≤ max, sizeAt (visible.map (·.toSpanData)) i = d.visibleSize i) ∧
      ∀ s ∈ visible,
        s.posprinttwips = ∑ i ∈ Finset.range (s.index + 1), d.visibleSize i ∧
        s.poscorepx = ∑ i ∈ Finset.range (s.index + 1), ⌊A.fl (d.visibleSize i / d.twipsPerCorePixel)⌋ ∧
        s.postiletwips =
          ⌊A.fl ((∑ i ∈ Finset.range (s.index + 1), ⌊A.fl (d.visibleSize i / d.twipsPerCorePixel)⌋ : Int) *
          d.twipsPerCorePixel)⌋ := by
  obtain ⟨visible, hvisible, -, hsizes, hspans⟩ := exists_visible h
  refine ⟨visible, hvisible, hsizes, fun s hs => ?_⟩
  obtain ⟨hprint, hcore, htile, -⟩ := hspans s hs
  exact ⟨hprint, hcore, by rw [htile, hcore]⟩

section Examples

/-- Ten elements, of which the fifth and sixth are hidden. -/
def tenColumns (A : Arithmetic) : SheetDimension A where
  sizes := { spanlist := [⟨9, 1280⟩] }
  hidden := { startBit := false, spanlist := [3, 5, 9] }
  filtered := { startBit := false, spanlist := [9] }
  tileSizeTwips := 3840
  tileSizePixels := 256

theorem updateVisible_spec_tenColumns : ∃ visible, (tenColumns .binary64).updateVisible = some visible ∧
    sizeAt (visible.map (·.toSpanData)) 4 = 0 ∧ sizeAt (visible.map (·.toSpanData)) 6 = 1280 := by
  have hwell : (tenColumns .binary64).WellFormed 9 := ⟨⟨by decide, rfl⟩, ⟨by decide, rfl⟩, ⟨by decide, rfl⟩⟩
  obtain ⟨visible, hvisible, hsizes, -⟩ := updateVisible_spec hwell
  exact ⟨visible, hvisible, hsizes 4 (by decide), hsizes 6 (by decide)⟩

/-- One element. -/
def oneColumn : SheetDimension .binary64 where
  sizes := { spanlist := [⟨0, 1280⟩] }
  hidden := { startBit := false, spanlist := [0] }
  filtered := { startBit := false, spanlist := [0] }
  tileSizeTwips := 3840
  tileSizePixels := 256

/-- The positions are not those of the elements before a span: its own elements are counted. -/
theorem not_updateVisible_before : ¬ ∀ (d : SheetDimension .binary64) (max : Nat), d.WellFormed max →
    ∃ visible, d.updateVisible = some visible ∧ ∀ before s after, visible = before ++ s :: after →
      s.posprinttwips = ∑ i ∈ Finset.range ((before.getLast?.map fun b => b.index + 1).getD 0), d.visibleSize i := by
  intro h
  have hwell : oneColumn.WellFormed 0 := ⟨⟨by decide, rfl⟩, ⟨by decide, rfl⟩, ⟨by decide, rfl⟩⟩
  obtain ⟨visible, hvisible, hbefore⟩ := h oneColumn 0 hwell
  have hone : ∃ s, oneColumn.updateVisible = some [s] ∧ s.posprinttwips = 1280 := by
    simp [updateVisible, oneColumn, BoolSpanList.union, BoolSpanList.unionLoop, SpanList.applyZeroValues,
      SpanList.applyLoop, positionsFrom]
  obtain ⟨s, hs, hprint⟩ := hone
  obtain rfl : visible = [s] := Option.some.inj (hvisible.symm.trans hs)
  have hzero := hbefore [] s [] rfl
  rw [hprint] at hzero
  exact absurd hzero (by decide)

end Examples

end SheetDimension

end CollaboraOnline
