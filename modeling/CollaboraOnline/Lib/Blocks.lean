import Mathlib.Data.List.Basic

/-!
# Blocks of pieces

A list of items is read from left to right.  Marks stay where they are, and pieces of one kind that follow each other
are put together to a block by an associative operation; some items say nothing.  Two lists with the same blocks have
the same marks in the same order, and between them the same pieces up to where they were cut.  `blocks_move` is the
rule for an item that is taken out and put together with one at the end.
-/

namespace Blocks

variable {μ κ β : Type*} [DecidableEq κ] {op : β → β → β}

inductive Item (μ κ β : Type*)
  | skip
  | mark (m : μ)
  | piece (k : κ) (b : β)

inductive Block (μ κ β : Type*)
  | mark (m : μ)
  | piece (k : κ) (b : β)

/-- The last block stands first. -/
def push (op : β → β → β) (blocks : List (Block μ κ β)) : Item μ κ β → List (Block μ κ β)
  | .skip => blocks
  | .mark m => .mark m :: blocks
  | .piece k b =>
    match blocks with
    | .piece k' b' :: rest => if k' = k then .piece k (op b' b) :: rest else .piece k b :: blocks
    | _ => .piece k b :: blocks

def blocks (op : β → β → β) (items : List (Item μ κ β)) : List (Block μ κ β) := items.foldl (push op) []

theorem blocks_concat (items : List (Item μ κ β)) (x : Item μ κ β) :
    blocks op (items ++ [x]) = push op (blocks op items) x := by
  unfold blocks
  rw [List.foldl_append]
  rfl

theorem push_piece_self (blocks : List (Block μ κ β)) (k : κ) (a b : β) :
    push op (.piece k a :: blocks) (.piece k b) = .piece k (op a b) :: blocks := if_pos rfl

/-- Two pieces of one kind are one piece. -/
theorem push_push [Std.Associative op] (blocks : List (Block μ κ β)) (k : κ) (a b : β) :
    push op (push op blocks (.piece k a)) (.piece k b) = push op blocks (.piece k (op a b)) := by
  cases blocks with
  | nil => exact push_piece_self [] k a b
  | cons block rest =>
    cases block with
    | mark m => exact push_piece_self (.mark m :: rest) k a b
    | piece k' b' =>
      by_cases hk : k' = k
      · subst hk
        have hassoc : op (op b' a) b = op b' (op a b) := Std.Associative.assoc _ _ _
        rw [push_piece_self, push_piece_self, push_piece_self, hassoc]
      · have hpush : ∀ c, push op (.piece k' b' :: rest) (.piece k c) = .piece k c :: .piece k' b' :: rest :=
          fun c => if_neg hk
        rw [hpush, hpush, push_piece_self]

/-- Items that say nothing, or are pieces of one kind, are one piece, or nothing. -/
theorem foldl_pieces [Std.Associative op] {k : κ} {a : β} {items : List (Item μ κ β)}
    (h : ∀ x ∈ items, x = .skip ∨ ∃ c, x = .piece k c ∧ op a c = op c a) :
    (∀ blocks : List (Block μ κ β), items.foldl (push op) blocks = blocks) ∨
      ∃ c, op a c = op c a ∧ ∀ blocks : List (Block μ κ β),
        items.foldl (push op) blocks = push op blocks (.piece k c) := by
  induction items with
  | nil => exact .inl fun _ => rfl
  | cons x items ih =>
    obtain ⟨hx, hitems⟩ := List.forall_mem_cons.1 h
    rcases hx with rfl | ⟨b, rfl, hb⟩
    · exact ih hitems
    · right
      have hassoc : ∀ x y z : β, op (op x y) z = op x (op y z) := Std.Associative.assoc
      rcases ih hitems with hnone | ⟨c, hc, hsome⟩
      · exact ⟨b, hb, fun blocks => hnone _⟩
      · refine ⟨op b c, ?_, fun blocks => ?_⟩
        · rw [← hassoc, hb, hassoc, hc, hassoc]
        · rw [List.foldl_cons, hsome, push_push]

/-- A piece is put together with the last one, over items that say nothing or commute with it. -/
theorem blocks_move [Std.Associative op] {k : κ} {a b : β} {front behind : List (Item μ κ β)}
    (h : ∀ x ∈ behind, x = .skip ∨ ∃ c, x = .piece k c ∧ op a c = op c a) :
    blocks op (front ++ behind ++ [.piece k (op a b)]) =
      blocks op (front ++ .piece k a :: behind ++ [.piece k b]) := by
  unfold blocks
  simp only [List.foldl_append, List.foldl_cons, List.foldl_nil]
  generalize front.foldl (push op) [] = s
  rcases foldl_pieces h with hnone | ⟨c, hc, hsome⟩
  · rw [hnone, hnone, push_push]
  · have hassoc : ∀ x y z : β, op (op x y) z = op x (op y z) := Std.Associative.assoc
    rw [hsome, hsome, push_push, push_push, push_push, ← hassoc, ← hc, hassoc]

/-- Items that say nothing can be anywhere. -/
theorem blocks_skip {front behind : List (Item μ κ β)} :
    blocks op (front ++ behind ++ [.skip]) = blocks op (front ++ .skip :: behind ++ [.skip]) := by
  unfold blocks
  simp only [List.foldl_append, List.foldl_cons, List.foldl_nil, push]

/-! ### All pieces together -/

def Item.value (e : β) : Item μ κ β → β
  | .piece _ b => b
  | _ => e

def Block.value (e : β) : Block μ κ β → β
  | .piece _ b => b
  | _ => e

/-- The pieces of all blocks. -/
def total (op : β → β → β) (e : β) (blocks : List (Block μ κ β)) : β :=
  blocks.foldr (fun (block : Block μ κ β) acc => op acc (block.value e)) e

theorem total_push {e : β} [Std.Associative op] [Std.LawfulIdentity op e] (blocks : List (Block μ κ β))
    (x : Item μ κ β) : total op e (push op blocks x) = op (total op e blocks) (x.value e) := by
  cases x with
  | skip =>
    have hid : op (total op e blocks) e = total op e blocks := Std.LawfulRightIdentity.right_id _
    exact hid.symm
  | mark m => rfl
  | piece k b =>
    cases blocks with
    | nil => rfl
    | cons block rest =>
      cases block with
      | mark m => rfl
      | piece k' b' =>
        by_cases hk : k' = k
        · subst hk
          have hassoc : ∀ x y z : β, op (op x y) z = op x (op y z) := Std.Associative.assoc
          rw [push_piece_self]
          exact (hassoc _ _ _).symm
        · have hpush : push op (.piece k' b' :: rest) (.piece k b) = .piece k b :: .piece k' b' :: rest := if_neg hk
          rw [hpush]
          rfl

/-- The pieces of the items, in their order. -/
theorem total_blocks {e : β} [Std.Associative op] [Std.LawfulIdentity op e] (items : List (Item μ κ β)) :
    total op e (blocks op items) = items.foldl (fun acc (x : Item μ κ β) => op acc (x.value e)) e := by
  have hfold : ∀ (items : List (Item μ κ β)) (bs : List (Block μ κ β)), total op e (items.foldl (push op) bs) =
      items.foldl (fun acc (x : Item μ κ β) => op acc (x.value e)) (total op e bs) := by
    intro items
    induction items with
    | nil => exact fun _ => rfl
    | cons x items ih =>
      intro bs
      rw [List.foldl_cons, ih, total_push]
      rfl
  exact hfold items []

end Blocks
