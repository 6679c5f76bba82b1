import CollaboraOnline.Wsd.RenderArea

/-!
# The span of combined tiles

Which tiles `popTileQueue` takes: those of the row that it reaches before one of them would make the combination too
wide, and those of the neighbour rows in a window around them.  The window has one column more than a combination may
have.
-/

namespace CollaboraOnline

open SortedVector

namespace TileDesc

/-- What `operator<` compares before the column. -/
def rowAt (tile : TileDesc) (tilePosY : Int) : List Int :=
  [tile.canonicalViewId, tile.id, tile.mode, tile.part, tile.height, tile.width, tile.tileHeight, tile.tileWidth,
  tilePosY]

def row (tile : TileDesc) : List Int := tile.rowAt tile.tilePosY

def gridY (tile : TileDesc) : Int := tile.tilePosY / tile.tileHeight

/-- What is between two tiles of a row is in the row. -/
theorem between_append {k u : List Int} {x y z : Int} (hlength : u.length = k.length) (h : ¬ u ++ [z] < k ++ [x])
    (h' : u ++ [z] < k ++ [y]) : u = k ∧ x ≤ z ∧ z < y := by
  induction k generalizing u with
  | nil =>
    obtain rfl := List.length_eq_zero_iff.1 hlength
    simp only [List.nil_append, List.cons_lt_cons_iff, List.not_lt_nil, and_false, or_false, not_lt] at h h'
    exact ⟨rfl, h, h'⟩
  | cons a k ih =>
    obtain _ | ⟨b, u⟩ := u
    · simp at hlength
    · simp only [List.cons_append, List.cons_lt_cons_iff, not_or, not_and] at h h'
      have hab : b = a := by
        rcases h' with hlt | ⟨heq, -⟩
        · exact absurd hlt h.1
        · exact heq
      subst hab
      have hlt : u ++ [z] < k ++ [y] := by
        rcases h' with hlt | ⟨-, hlt⟩
        · exact absurd hlt (lt_irrefl _)
        · exact hlt
      obtain ⟨rfl, hx, hy⟩ := ih (by simpa using hlength) (h.2 rfl) hlt
      exact ⟨rfl, hx, hy⟩

end TileDesc

namespace KitQueue

variable {msg tile other : TileDesc} {left right tileQueue destTiles : List TileDesc} {tilePosY : Int}

/-- The numbers of a tile of a queue that the loops rely on. -/
structure Plain (tile : TileDesc) : Prop where
  id : -1 ≤ tile.id
  x : 0 ≤ tile.tilePosX ∧ tile.tilePosX ≤ intMax
  y : 0 ≤ tile.tilePosY ∧ tile.tilePosY ≤ intMax
  size : 0 < tile.tileWidth ∧ 0 < tile.tileHeight

theorem allowCombineIfRow_iff (hmsg : msg.id = -1) (htile : Plain tile) :
    allowCombineIfRow msg tilePosY tile = true ↔ tile.row = msg.rowAt tilePosY := by
  have hpreview : msg.isPreview = false := by simp [TileDesc.isPreview, hmsg]
  have hid : tile.isPreview = false ↔ tile.id = -1 := by
    have := htile.id
    simp only [TileDesc.isPreview, decide_eq_false_iff_not]
    omega
  unfold allowCombineIfRow allowCombine TileDesc.row TileDesc.rowAt
  rw [hpreview, Bool.false_or]
  cases hother : tile.isPreview with
  | true =>
    have hne : ¬ tile.id = -1 := by rw [← hid, hother]; simp
    simp [hmsg, hne]
  | false =>
    have heq := hid.1 hother
    simp only [Bool.false_eq_true, if_false, Bool.and_eq_true, beq_iff_eq, TileDesc.sameTileCombineParams_iff,
      heq, hmsg, List.cons.injEq, and_true, true_and]
    constructor
    · rintro ⟨hy, hpart, hmode, hwidth, hheight, htileWidth, htileHeight, hview⟩
      exact ⟨hview, hmode, hpart, hheight, hwidth, htileHeight, htileWidth, hy.symm⟩
    · rintro ⟨hview, hmode, hpart, hheight, hwidth, htileHeight, htileWidth, hy⟩
      exact ⟨hy.symm, hpart, hmode, hwidth, hheight, htileWidth, htileHeight, hview⟩

/-- Tiles of a row are sorted by their columns. -/
theorem gridX_le (hrow : tile.tileWidth = other.tileWidth) (hle : tile.tilePosX ≤ other.tilePosX)
    (hsize : 0 < tile.tileWidth) :
    tile.gridX ≤ other.gridX := by
  unfold TileDesc.gridX
  rw [← hrow]
  exact Int.ediv_le_ediv hsize hle

theorem gridX_le_intMax (hplain : Plain tile) : tile.gridX ≤ intMax :=
  (Int.ediv_le_self _ hplain.x.1).trans hplain.x.2

/-! ### The neighbour rows -/

/-- The loop over a row takes the tiles of its window, where no tile of another row stands in front of one of the
row. -/
theorem mem_combineRow {leftGridX rightGridX : Int}
    (hrow : tileQueue.Pairwise fun a b => allowCombineIfRow msg tilePosY b = true →
      allowCombineIfRow msg tilePosY a = true)
    (hdistinct : Distinct TileDesc.tie (destTiles ++ tileQueue)) :
    tile ∈ (combineRow msg tilePosY leftGridX rightGridX tileQueue destTiles).2 ↔
      tile ∈ destTiles ∨ tile ∈ tileQueue ∧
      allowCombineIfRow msg tilePosY tile = true ∧ leftGridX ≤ tile.gridX ∧ tile.gridX ≤ rightGridX := by
  induction tileQueue generalizing destTiles with
  | nil => simp [combineRow]
  | cons first tileQueue ih =>
    obtain ⟨hfirst, hrest⟩ := List.pairwise_cons.1 hrow
    have hsub : Distinct TileDesc.tie (destTiles ++ tileQueue) :=
      hdistinct.sublist ((List.Sublist.refl destTiles).append (List.sublist_cons_self first tileQueue))
    unfold combineRow
    by_cases hallow : allowCombineIfRow msg tilePosY first = true
    · rw [if_neg (by simp [hallow])]
      by_cases hwindow : leftGridX ≤ first.gridX ∧ first.gridX ≤ rightGridX
      · have hmove : Distinct TileDesc.tie (destTiles ++ ([] ++ first :: tileQueue)) := hdistinct
        obtain ⟨hne, hperm⟩ := move_perm hmove
        rw [if_pos hwindow, ih hrest (hdistinct.perm hperm.symm), mem_sortedInsert_iff hne, List.mem_cons]
        constructor
        · rintro ((rfl | hmem) | ⟨hmem, hin⟩)
          · exact .inr ⟨.inl rfl, hallow, hwindow⟩
          · exact .inl hmem
          · exact .inr ⟨.inr hmem, hin⟩
        · rintro (hmem | ⟨rfl | hmem, hin⟩)
          · exact .inl (.inr hmem)
          · exact .inl (.inl rfl)
          · exact .inr ⟨hmem, hin⟩
      · rw [if_neg hwindow]
        dsimp only
        rw [ih hrest hsub, List.mem_cons]
        constructor
        · rintro (hmem | ⟨hmem, hin⟩)
          · exact .inl hmem
          · exact .inr ⟨.inr hmem, hin⟩
        · rintro (hmem | ⟨rfl | hmem, hin⟩)
          · exact .inl hmem
          · exact absurd hin.2 hwindow
          · exact .inr ⟨hmem, hin⟩
    · rw [if_pos (by simpa using hallow)]
      constructor
      · exact .inl
      · rintro (hmem | ⟨hmem, hin, -⟩)
        · exact hmem
        · rcases List.mem_cons.1 hmem with rfl | hmem
          · exact absurd hin hallow
          · exact absurd (hfirst tile hmem hin) hallow

/-- A pass over a neighbour row takes the tiles of the row in its window. -/
theorem mem_combineVerticalTiles (rightGridX vertDirection : Int) {leftGridX : Int} (hmsg : msg.id = -1)
    (hmsgPlain : Plain msg) (hplain : ∀ t ∈ tileQueue, Plain t) (hsorted : Sorted TileDesc.tie tileQueue)
    (hdistinct : Distinct TileDesc.tie (destTiles ++ tileQueue)) (hleft : 0 ≤ leftGridX ∧ leftGridX ≤ msg.gridX) :
    tile ∈ (combineVerticalTiles msg leftGridX rightGridX vertDirection tileQueue destTiles).2 ↔
      tile ∈ destTiles ∨ tile ∈ tileQueue ∧
        allowCombineIfRow msg (wrapInt (msg.tilePosY + msg.tileHeight * vertDirection)) tile = true ∧
          leftGridX ≤ tile.gridX ∧ tile.gridX ≤ rightGridX := by
  generalize hposY : wrapInt (msg.tilePosY + msg.tileHeight * vertDirection) = posY
  have hposX : wrapInt (leftGridX * msg.tileWidth) = leftGridX * msg.tileWidth := by
    have hmul : leftGridX * msg.tileWidth ≤ msg.gridX * msg.tileWidth :=
      Int.mul_le_mul_of_nonneg_right hleft.2 hmsgPlain.size.1.le
    have hgrid : msg.gridX * msg.tileWidth ≤ msg.tilePosX := Int.ediv_mul_le _ hmsgPlain.size.1.ne'
    have hnonneg : 0 ≤ leftGridX * msg.tileWidth := Int.mul_nonneg hleft.1 hmsgPlain.size.1.le
    have hmax := hmsgPlain.x.2
    rw [wrapInt_of_nonneg hnonneg (by unfold intMax at hmax; omega), if_pos (by omega)]
  let before := fun t : TileDesc => decide (t.tie < msg.tieAt (leftGridX * msg.tileWidth) posY)
  have hmem : ∀ t, t ∈ tileQueue.dropWhile before ↔ t ∈ tileQueue ∧ before t = false := fun t =>
    mem_dropWhile_iff (hsorted.imp fun {a b} hlt hb => decide_eq_true (hlt.trans (of_decide_eq_true hb)))
  have hrow : (tileQueue.dropWhile before).Pairwise
      fun a b => allowCombineIfRow msg posY b = true → allowCombineIfRow msg posY a = true := by
    refine (hsorted.sublist (List.dropWhile_sublist before)).imp_of_mem fun {a b} ha hb hlt hallow => ?_
    obtain ⟨ha, hbefore⟩ := (hmem a).1 ha
    rw [allowCombineIfRow_iff hmsg (hplain b ((hmem b).1 hb).1)] at hallow
    rw [allowCombineIfRow_iff hmsg (hplain a ha)]
    have hlt' : a.row ++ [a.tilePosX] < msg.rowAt posY ++ [b.tilePosX] := by
      rw [← hallow]
      exact hlt
    exact (TileDesc.between_append (by rfl) (of_decide_eq_false hbefore) hlt').1
  have hrest : Distinct TileDesc.tie (destTiles ++ tileQueue.dropWhile before) :=
    hdistinct.sublist ((List.Sublist.refl destTiles).append (List.dropWhile_sublist before))
  unfold combineVerticalTiles
  rw [hposY, hposX]
  change tile ∈ (combineRow msg posY leftGridX rightGridX (tileQueue.dropWhile before) destTiles).2 ↔ _
  rw [mem_combineRow hrow hrest, hmem]
  refine or_congr_right (and_congr_left fun hin => ?_)
  constructor
  · exact And.left
  · intro htile
    refine ⟨htile, decide_eq_false fun hlt => ?_⟩
    -- a tile of the row before the anchor is left of the window
    have heq := (allowCombineIfRow_iff hmsg (hplain tile htile)).1 hin.1
    have hx : tile.tilePosX < leftGridX * msg.tileWidth := by
      have hlt' : tile.row ++ [tile.tilePosX] < msg.rowAt posY ++ [leftGridX * msg.tileWidth] := hlt
      rw [heq] at hlt'
      exact (TileDesc.between_append rfl (lt_irrefl _) hlt').2.2
    have hwidth : tile.tileWidth = msg.tileWidth := by
      simp only [TileDesc.row, TileDesc.rowAt, List.cons.injEq] at heq
      exact heq.2.2.2.2.2.2.2.1
    have hgrid : tile.gridX < leftGridX := by
      unfold TileDesc.gridX
      rw [hwidth]
      exact Int.ediv_lt_of_lt_mul hmsgPlain.size.1 hx
    omega

/-! ### The row of the tile -/

/-- A tile of the queue that can be combined with the tile in its row. -/
def InRow (tileQueue : List TileDesc) (msg tile : TileDesc) : Prop :=
  tile ∈ tileQueue ∧ allowCombineIfRow msg msg.tilePosY tile = true

/-- How late `combineHoriAround` comes to a tile of the row: by its distance, and first to the right. -/
def reach (msg tile : TileDesc) : Int :=
  if tile.tilePosX < msg.tilePosX then 2 * (msg.gridX - tile.gridX) + 1 else 2 * (tile.gridX - msg.gridX)

/-- The tile and those that it does not come to later are within the span. -/
def Taken (tileQueue : List TileDesc) (msg tile : TileDesc) : Prop :=
  InRow tileQueue msg tile ∧ ∀ a b, InRow tileQueue msg a → InRow tileQueue msg b → reach msg a ≤ reach msg tile →
    reach msg b ≤ reach msg tile → b.gridX - a.gridX < maxCombinedGridSpan

/-- What holds in the loop: it took tiles of the row in order, and the columns of these are known. -/
structure RowInv (tileQueue : List TileDesc) (msg : TileDesc) (row : Row) : Prop where
  mem : ∀ t, t ∈ tileQueue ↔ t ∈ row.destTiles ∨ t ∈ row.left ∨ t ∈ row.right
  sorted : Sorted TileDesc.tie (row.left.reverse ++ msg :: row.right)
  distinct : Distinct TileDesc.tie (row.destTiles ++ row.queue)
  taken : ∀ t ∈ row.destTiles, Taken tileQueue msg t
  later : ∀ d ∈ row.destTiles, ∀ t, t ∈ row.left ∨ t ∈ row.right → allowCombineIfRow msg msg.tilePosY t = true →
    reach msg d ≤ reach msg t
  bounds : ∀ d ∈ row.destTiles, row.leftGridX ≤ d.gridX ∧ d.gridX ≤ row.rightGridX
  leftEnd : ∃ d ∈ row.destTiles, d.gridX = row.leftGridX
  rightEnd : ∃ d ∈ row.destTiles, d.gridX = row.rightGridX

variable {row row' : Row}

theorem tileWidth_of_row (h : tile.row = msg.row) : tile.tileWidth = msg.tileWidth := by
  simp only [TileDesc.row, TileDesc.rowAt, List.cons.injEq] at h
  exact h.2.2.2.2.2.2.2.1

theorem tilePosX_lt (hrow : tile.row = other.row) (h : tile.tie < other.tie) : tile.tilePosX < other.tilePosX := by
  have hlt : tile.row ++ [tile.tilePosX] < other.row ++ [other.tilePosX] := h
  rw [hrow] at hlt
  exact (TileDesc.between_append rfl (lt_irrefl _) hlt).2.2

/-- On which side of the tile a tile of its row is. -/
theorem gridX_side (hmsg : msg.id = -1) (hplain : Plain tile)
    (hallow : allowCombineIfRow msg msg.tilePosY tile = true) :
    (tile.tilePosX < msg.tilePosX → tile.gridX ≤ msg.gridX) ∧
    (msg.tilePosX ≤ tile.tilePosX → msg.gridX ≤ tile.gridX) := by
  have hwidth := tileWidth_of_row ((allowCombineIfRow_iff hmsg hplain).1 hallow)
  have hsize := hplain.size.1
  exact ⟨fun hlt => gridX_le hwidth hlt.le hsize, fun hle => gridX_le hwidth.symm hle (by omega)⟩

theorem reach_cases (msg tile : TileDesc) :
    tile.tilePosX < msg.tilePosX ∧ reach msg tile = 2 * (msg.gridX - tile.gridX) + 1 ∨
      msg.tilePosX ≤ tile.tilePosX ∧ reach msg tile = 2 * (tile.gridX - msg.gridX) := by
  unfold reach
  split <;> omega

/-- In front of a tile of the row on the left there are only tiles of the row, nearer ones. -/
theorem left_head {rest : List TileDesc} (hmsg : msg.id = -1)
    (hsorted : Sorted TileDesc.tie ((other :: rest).reverse ++ msg :: right))
    (hplain : ∀ t ∈ other :: rest, Plain t) (htile : tile ∈ other :: rest)
    (hallow : allowCombineIfRow msg msg.tilePosY tile = true) :
    allowCombineIfRow msg msg.tilePosY other = true ∧ tile.tilePosX ≤ other.tilePosX ∧
    other.tilePosX < msg.tilePosX := by
  obtain ⟨hleft, -, hlt⟩ := List.pairwise_append.1 hsorted
  have hrow := (allowCombineIfRow_iff hmsg (hplain tile htile)).1 hallow
  have hother : other.row ++ [other.tilePosX] < msg.rowAt msg.tilePosY ++ [msg.tilePosX] :=
    hlt other (by simp) msg List.mem_cons_self
  have hle : ¬ other.row ++ [other.tilePosX] < msg.rowAt msg.tilePosY ++ [tile.tilePosX] := by
    rw [← hrow]
    rcases List.mem_cons.1 htile with rfl | htile
    · exact lt_irrefl _
    · rw [List.reverse_cons, List.pairwise_append] at hleft
      have hlt' : tile.tie < other.tie := hleft.2.2 tile (List.mem_reverse.2 htile) other (List.mem_singleton_self _)
      exact not_lt_of_gt hlt'
  obtain ⟨heq, hx, hx'⟩ := TileDesc.between_append (by rfl) hle hother
  exact ⟨(allowCombineIfRow_iff hmsg (hplain other List.mem_cons_self)).2 heq, hx, hx'⟩

theorem right_head {rest : List TileDesc} (hmsg : msg.id = -1)
    (hsorted : Sorted TileDesc.tie (left.reverse ++ msg :: other :: rest))
    (hplain : ∀ t ∈ other :: rest, Plain t) (htile : tile ∈ other :: rest)
    (hallow : allowCombineIfRow msg msg.tilePosY tile = true) :
    allowCombineIfRow msg msg.tilePosY other = true ∧ msg.tilePosX < other.tilePosX ∧
    other.tilePosX ≤ tile.tilePosX := by
  obtain ⟨-, hright, -⟩ := List.pairwise_append.1 hsorted
  obtain ⟨hlt, hrest⟩ := List.pairwise_cons.1 hright
  have hother : allowCombineIfRow msg msg.tilePosY other = true ∧ other.tilePosX ≤ tile.tilePosX := by
    rcases List.mem_cons.1 htile with rfl | hmem
    · exact ⟨hallow, le_refl _⟩
    · have hrow := (allowCombineIfRow_iff hmsg (hplain tile htile)).1 hallow
      have hle : ¬ other.row ++ [other.tilePosX] < msg.rowAt msg.tilePosY ++ [msg.tilePosX] :=
        not_lt_of_gt (hlt other List.mem_cons_self)
      have hlt' : other.row ++ [other.tilePosX] < msg.rowAt msg.tilePosY ++ [tile.tilePosX] := by
        rw [← hrow]
        exact (List.pairwise_cons.1 hrest).1 tile hmem
      obtain ⟨heq, -, hx⟩ := TileDesc.between_append (by rfl) hle hlt'
      exact ⟨(allowCombineIfRow_iff hmsg (hplain other List.mem_cons_self)).2 heq, hx.le⟩
  refine ⟨hother.1, ?_, hother.2⟩
  have hrow := (allowCombineIfRow_iff hmsg (hplain other List.mem_cons_self)).1 hother.1
  exact tilePosX_lt hrow.symm (hlt other List.mem_cons_self)

/-- The tile of the row that comes next. -/
structure Next (msg : TileDesc) (row : Row) (tile : TileDesc) : Prop where
  mem : tile ∈ row.left ∨ tile ∈ row.right
  allow : allowCombineIfRow msg msg.tilePosY tile = true
  least : ∀ t, t ∈ row.left ∨ t ∈ row.right → allowCombineIfRow msg msg.tilePosY t = true →
    reach msg tile ≤ reach msg t

namespace RowInv

/-- The columns of the tiles that were taken are on the near side of the next one. -/
theorem gridX_of_next (h : RowInv tileQueue msg row) (hmsg : msg.id = -1) (hplain : ∀ t ∈ tileQueue, Plain t)
    (hnext : Next msg row tile) {d : TileDesc} (hd : d ∈ row.destTiles) :
    (tile.tilePosX < msg.tilePosX → tile.gridX ≤ d.gridX) ∧
    (msg.tilePosX ≤ tile.tilePosX → d.gridX ≤ tile.gridX) := by
  have hlater := h.later d hd tile hnext.mem hnext.allow
  have hside := gridX_side hmsg (hplain tile ((h.mem tile).2 (.inr hnext.mem))) hnext.allow
  have hside' := gridX_side hmsg (hplain d ((h.mem d).2 (.inl hd))) (h.taken d hd).1.2
  have hreach := reach_cases msg tile
  have hreach' := reach_cases msg d
  omega

/-- The next tile is taken, if the columns with it are within the span. -/
theorem taken_next (h : RowInv tileQueue msg row) (hnext : Next msg row tile) {lo hi : Int}
    (hspan : hi - lo < maxCombinedGridSpan) (hlo : lo ≤ row.leftGridX) (hhi : row.rightGridX ≤ hi)
    (htile : lo ≤ tile.gridX ∧ tile.gridX ≤ hi) : Taken tileQueue msg tile := by
  refine ⟨⟨(h.mem tile).2 (.inr hnext.mem), hnext.allow⟩, fun a b ha hb hreachA hreachB => ?_⟩
  have hwithin : ∀ t, InRow tileQueue msg t → reach msg t ≤ reach msg tile → lo ≤ t.gridX ∧ t.gridX ≤ hi := by
    intro t ht hreach
    rcases (h.mem t).1 ht.1 with hd | hrest
    · have := h.bounds t hd
      omega
    · -- a tile that comes at the same time has the same column
      have hleast := hnext.least t hrest ht.2
      have heq : t.gridX = tile.gridX := by
        have hcases := reach_cases msg t
        have hcases' := reach_cases msg tile
        omega
      rw [heq]
      exact htile
  have := hwithin a ha hreachA
  have := hwithin b hb hreachB
  omega

/-- No other tile is taken, if the columns with the next one are not within the span. -/
theorem not_taken (h : RowInv tileQueue msg row) (hnext : Next msg row tile)
    (hspan : maxCombinedGridSpan ≤ row.rightGridX - tile.gridX ∨ maxCombinedGridSpan ≤ tile.gridX - row.leftGridX)
    (ht : other ∈ row.left ∨ other ∈ row.right) : ¬ Taken tileQueue msg other := by
  rintro ⟨⟨-, hallow⟩, hwithin⟩
  have hin : InRow tileQueue msg tile := ⟨(h.mem tile).2 (.inr hnext.mem), hnext.allow⟩
  have hreach := hnext.least other ht hallow
  rcases hspan with hspan | hspan
  · obtain ⟨d, hd, heq⟩ := h.rightEnd
    have := hwithin tile d hin (h.taken d hd).1 hreach ((h.later d hd tile hnext.mem hnext.allow).trans hreach)
    omega
  · obtain ⟨d, hd, heq⟩ := h.leftEnd
    have := hwithin d tile (h.taken d hd).1 hin ((h.later d hd tile hnext.mem hnext.allow).trans hreach) hreach
    omega

/-- The loop takes the next tile. -/
theorem take (h : RowInv tileQueue msg row) (hnext : Next msg row tile)
    (hrest : ∀ t, (t ∈ row.left ∨ t ∈ row.right) ↔ t = tile ∨ t ∈ row'.left ∨ t ∈ row'.right)
    (hdest : ∀ t, t ∈ row'.destTiles ↔ t = tile ∨ t ∈ row.destTiles)
    (hsorted : Sorted TileDesc.tie (row'.left.reverse ++ msg :: row'.right))
    (hdistinct : Distinct TileDesc.tie (row'.destTiles ++ row'.queue))
    (hspan : row'.rightGridX - row'.leftGridX < maxCombinedGridSpan) (hlo : row'.leftGridX ≤ row.leftGridX)
    (hhi : row.rightGridX ≤ row'.rightGridX) (htile : row'.leftGridX ≤ tile.gridX ∧ tile.gridX ≤ row'.rightGridX)
    (hleft : ∃ d ∈ row'.destTiles, d.gridX = row'.leftGridX)
    (hright : ∃ d ∈ row'.destTiles, d.gridX = row'.rightGridX) : RowInv tileQueue msg row' := by
  refine ⟨fun t => ?_, hsorted, hdistinct, fun t ht => ?_, fun d hd t ht hallow => ?_, fun d hd => ?_, hleft, hright⟩
  · rw [h.mem t, hrest t, hdest t]
    tauto
  · rcases (hdest t).1 ht with rfl | ht
    · exact h.taken_next hnext hspan hlo hhi htile
    · exact h.taken t ht
  · have ht := (hrest t).2 (.inr ht)
    rcases (hdest d).1 hd with rfl | hd
    · exact hnext.least t ht hallow
    · exact h.later d hd t ht hallow
  · rcases (hdest d).1 hd with rfl | hd
    · exact htile
    · have := h.bounds d hd
      omega

theorem take_left {rest : List TileDesc} (h : RowInv tileQueue msg row) (hnext : Next msg row tile)
    (hmsg : msg.id = -1)
    (hplain : ∀ t ∈ tileQueue, Plain t) (hleft : row.left = tile :: rest) (hx : tile.tilePosX < msg.tilePosX)
    (hspan : row.rightGridX - tile.gridX < maxCombinedGridSpan) :
    RowInv tileQueue msg
      { row with
        left := rest, leftGridX := tile.gridX, destTiles := sortedInsert TileDesc.tie row.destTiles tile } := by
  have hdistinct := h.distinct
  have hqueue : row.queue = rest.reverse ++ tile :: row.right := by simp [Row.queue, hleft]
  rw [hqueue] at hdistinct
  obtain ⟨hne, hperm⟩ := move_perm hdistinct
  obtain ⟨d, hd, hleftEnd⟩ := h.leftEnd
  obtain ⟨e, he, hrightEnd⟩ := h.rightEnd
  have hgridL := (h.gridX_of_next hmsg hplain hnext hd).1 hx
  have hgridR := (h.gridX_of_next hmsg hplain hnext he).1 hx
  have hsub : (rest.reverse ++ msg :: row.right).Sublist (row.left.reverse ++ msg :: row.right) := by
    rw [hleft, List.reverse_cons]
    exact (List.sublist_append_left _ _).append_right _
  refine h.take hnext (fun t => ?_) (fun t => mem_sortedInsert_iff hne) (h.sorted.sublist hsub)
    (hdistinct.perm hperm.symm) hspan (by dsimp only; omega) (le_refl _) ⟨le_refl _, by dsimp only; omega⟩
    ⟨tile, (mem_sortedInsert_iff hne).2 (.inl rfl), rfl⟩ ⟨e, (mem_sortedInsert_iff hne).2 (.inr he), hrightEnd⟩
  rw [hleft, List.mem_cons]
  tauto

theorem take_right {rest : List TileDesc} (h : RowInv tileQueue msg row) (hnext : Next msg row tile)
    (hmsg : msg.id = -1)
    (hplain : ∀ t ∈ tileQueue, Plain t) (hright : row.right = tile :: rest) (hx : msg.tilePosX < tile.tilePosX)
    (hspan : tile.gridX - row.leftGridX < maxCombinedGridSpan) :
    RowInv tileQueue msg
      { row with
        right := rest, rightGridX := tile.gridX, destTiles := sortedInsert TileDesc.tie row.destTiles tile } := by
  have hdistinct := h.distinct
  have hqueue : row.queue = row.left.reverse ++ tile :: rest := by simp [Row.queue, hright]
  rw [hqueue] at hdistinct
  obtain ⟨hne, hperm⟩ := move_perm hdistinct
  obtain ⟨d, hd, hleftEnd⟩ := h.leftEnd
  obtain ⟨e, he, hrightEnd⟩ := h.rightEnd
  have hgridL := (h.gridX_of_next hmsg hplain hnext hd).2 hx.le
  have hgridR := (h.gridX_of_next hmsg hplain hnext he).2 hx.le
  have hsub : (row.left.reverse ++ msg :: rest).Sublist (row.left.reverse ++ msg :: row.right) := by
    rw [hright]
    exact (List.Sublist.refl _).append (List.Sublist.cons_cons _ (List.sublist_cons_self _ _))
  refine h.take hnext (fun t => ?_) (fun t => mem_sortedInsert_iff hne) (h.sorted.sublist hsub)
    (hdistinct.perm hperm.symm) hspan (le_refl _) (by dsimp only; omega) ⟨by dsimp only; omega, le_refl _⟩
    ⟨d, (mem_sortedInsert_iff hne).2 (.inr hd), hleftEnd⟩ ⟨tile, (mem_sortedInsert_iff hne).2 (.inl rfl), rfl⟩
  rw [hright, List.mem_cons]
  tauto

end RowInv

theorem proposedGridX_eq {rest : List TileDesc} (hmsg : msg.id = -1) (hplain : Plain tile)
    (hallow : allowCombineIfRow msg msg.tilePosY tile = true) (gridX : Int) :
    proposedGridX msg (tile :: rest) gridX = tile.gridX := by
  have hwidth := tileWidth_of_row ((allowCombineIfRow_iff hmsg hplain).1 hallow)
  simp [proposedGridX, canCombine, hallow, TileDesc.gridX, hwidth]

section Sides

variable {rest : List TileDesc} (hmsg : msg.id = -1) (hplain : ∀ t ∈ tileQueue, Plain t)
  (hinv : RowInv tileQueue msg row)
include hmsg hplain hinv

/-- If there is a tile of the row on the left, the first one there is the nearest, and its distance is known. -/
theorem left_nearest (htile : tile ∈ row.left) (hallow : allowCombineIfRow msg msg.tilePosY tile = true) :
    ∃ first rest, row.left = first :: rest ∧ allowCombineIfRow msg msg.tilePosY first = true ∧
      tile.tilePosX < msg.tilePosX ∧ first.tilePosX < msg.tilePosX ∧ tile.gridX ≤ first.gridX ∧
        leftGridDistance msg row = msg.gridX - first.gridX := by
  obtain ⟨left, right, destTiles, leftGridX, rightGridX⟩ := row
  have hall : ∀ t ∈ left, Plain t := fun t ht => hplain t ((hinv.mem t).2 (.inr (.inl ht)))
  obtain _ | ⟨first, rest⟩ := left
  · cases htile
  obtain ⟨hfirst, hle, hlt⟩ := left_head hmsg hinv.sorted hall htile hallow
  have hwidth := tileWidth_of_row ((allowCombineIfRow_iff hmsg (hall tile htile)).1 hallow)
  have hwidth' := tileWidth_of_row ((allowCombineIfRow_iff hmsg (hall first List.mem_cons_self)).1 hfirst)
  refine ⟨first, rest, rfl, hfirst, by omega, hlt,
    gridX_le (hwidth.trans hwidth'.symm) hle (hall tile htile).size.1, ?_⟩
  have hcan : canCombine msg (first :: rest) = true := by simp [canCombine, hfirst]
  unfold leftGridDistance
  dsimp only
  rw [if_pos hcan, proposedGridX_eq hmsg (hall first List.mem_cons_self) hfirst]

theorem right_nearest (htile : tile ∈ row.right) (hallow : allowCombineIfRow msg msg.tilePosY tile = true) :
    ∃ first rest, row.right = first :: rest ∧ allowCombineIfRow msg msg.tilePosY first = true ∧
      msg.tilePosX < tile.tilePosX ∧ msg.tilePosX < first.tilePosX ∧ first.gridX ≤ tile.gridX ∧
        rightGridDistance msg row = first.gridX - msg.gridX := by
  obtain ⟨left, right, destTiles, leftGridX, rightGridX⟩ := row
  have hall : ∀ t ∈ right, Plain t := fun t ht => hplain t ((hinv.mem t).2 (.inr (.inr ht)))
  obtain _ | ⟨first, rest⟩ := right
  · cases htile
  obtain ⟨hfirst, hlt, hle⟩ := right_head hmsg hinv.sorted hall htile hallow
  have hwidth := tileWidth_of_row ((allowCombineIfRow_iff hmsg (hall tile htile)).1 hallow)
  have hwidth' := tileWidth_of_row ((allowCombineIfRow_iff hmsg (hall first List.mem_cons_self)).1 hfirst)
  refine ⟨first, rest, rfl, hfirst, by omega, hlt,
    gridX_le (hwidth'.trans hwidth.symm) hle (hall first List.mem_cons_self).size.1, ?_⟩
  have hcan : canCombine msg (first :: rest) = true := by simp [canCombine, hfirst]
  unfold rightGridDistance
  dsimp only
  rw [if_pos hcan, proposedGridX_eq hmsg (hall first List.mem_cons_self) hfirst]

/-- The first tile on the left comes next, if it is nearer than the one on the right. -/
theorem next_left (hleft : row.left = tile :: rest) (hallow : allowCombineIfRow msg msg.tilePosY tile = true)
    (hlt : leftGridDistance msg row < rightGridDistance msg row) :
      Next msg row tile ∧ tile.tilePosX < msg.tilePosX := by
  have hmem : tile ∈ row.left := by simp [hleft]
  obtain ⟨first, rest', hcons, -, hx, -, -, hdist⟩ := left_nearest hmsg hplain hinv hmem hallow
  obtain ⟨rfl, rfl⟩ := List.cons.inj (hleft.symm.trans hcons)
  refine ⟨⟨.inl hmem, hallow, fun t ht hallow' => ?_⟩, hx⟩
  have hreach := reach_cases msg tile
  have hreach' := reach_cases msg t
  rcases ht with ht | ht
  · obtain ⟨other, others, hcons', -, hx', -, hle, -⟩ := left_nearest hmsg hplain hinv ht hallow'
    obtain ⟨rfl, -⟩ := List.cons.inj (hcons.symm.trans hcons')
    omega
  · obtain ⟨other, -, -, -, hx', -, hle, hdist'⟩ := right_nearest hmsg hplain hinv ht hallow'
    omega

theorem next_right (hright : row.right = tile :: rest) (hallow : allowCombineIfRow msg msg.tilePosY tile = true)
    (hle : rightGridDistance msg row ≤ leftGridDistance msg row) :
      Next msg row tile ∧ msg.tilePosX < tile.tilePosX := by
  have hmem : tile ∈ row.right := by simp [hright]
  obtain ⟨first, rest', hcons, -, hx, -, -, hdist⟩ := right_nearest hmsg hplain hinv hmem hallow
  obtain ⟨rfl, rfl⟩ := List.cons.inj (hright.symm.trans hcons)
  refine ⟨⟨.inr hmem, hallow, fun t ht hallow' => ?_⟩, hx⟩
  have hreach := reach_cases msg tile
  have hreach' := reach_cases msg t
  rcases ht with ht | ht
  · obtain ⟨other, -, -, -, hx', -, hle', hdist'⟩ := left_nearest hmsg hplain hinv ht hallow'
    omega
  · obtain ⟨other, others, hcons', -, hx', -, hle', -⟩ := right_nearest hmsg hplain hinv ht hallow'
    obtain ⟨rfl, -⟩ := List.cons.inj (hcons.symm.trans hcons')
    omega

end Sides

/-- The loop takes the tiles of the row that it comes to within the span. -/
theorem combineHoriAround_taken {n : Nat} (hmsg : msg.id = -1) (hplain : ∀ t ∈ tileQueue, Plain t)
    (hnear : Near msg row.left row.right) (hend : msg.gridX ≤ row.rightGridX) (hinv : RowInv tileQueue msg row)
    (h : combineHoriAround msg n row = some row') :
    RowInv tileQueue msg row' ∧ ∀ t, t ∈ row'.left ∨ t ∈ row'.right → ¬ Taken tileQueue msg t := by
  induction n generalizing row with
  | zero => cases h
  | succ n ih =>
    unfold combineHoriAround at h
    dsimp only at h
    split at h
    · -- there are no more tiles of the row
      rename_i hnone
      simp only [Bool.and_eq_true, Bool.not_eq_true'] at hnone
      cases h
      refine ⟨hinv, fun t ht htaken => ?_⟩
      rcases ht with ht | ht
      · obtain ⟨first, rest, hcons, hallow, -⟩ := left_nearest hmsg hplain hinv ht htaken.1.2
        simp [canCombine, hcons, hallow] at hnone
      · obtain ⟨first, rest, hcons, hallow, -⟩ := right_nearest hmsg hplain hinv ht htaken.1.2
        simp [canCombine, hcons, hallow] at hnone
    · rename_i hsome
      split at h
      · rename_i hlt
        have hleft : canCombine msg row.left = true := by
          by_contra hno
          have hdist : leftGridDistance msg row = intMax := by simp [leftGridDistance, hno]
          have := hnear.rightGridDistance_le
          omega
        obtain ⟨tile, rest, hcons, hallow, hgrid⟩ := canCombine_cases hleft
        have hmem : tile ∈ tileQueue := (hinv.mem tile).2 (.inr (.inl (by simp [hcons])))
        obtain ⟨hnext, hx⟩ := next_left hmsg hplain hinv hcons hallow hlt
        have hcolumn := @proposedGridX_eq _ _ rest hmsg (hplain tile hmem) hallow
        rw [hcons, hcolumn] at h
        split at h
        · rename_i hspan
          cases h
          exact ⟨hinv, fun t ht => hinv.not_taken hnext (.inl hspan) ht⟩
        · rename_i hspan
          rw [hcons] at hnear hgrid
          refine ih ?_ ?_ (hinv.take_left hnext hmsg hplain hcons hx (not_le.1 hspan)) h
          · refine hnear.tail_left hend ?_
            rw [← hgrid 0, hcolumn]
            exact not_le.1 hspan
          · exact hend
      · rename_i hlt
        have hright : canCombine msg row.right = true := by
          by_contra hno
          have hleft : canCombine msg row.left = true := by
            cases hleft : canCombine msg row.left with
            | true => rfl
            | false => simp [hno, hleft] at hsome
          have hdist : rightGridDistance msg row = intMax := by simp [rightGridDistance, hno]
          have := hnear.leftGridDistance_lt hleft
          omega
        obtain ⟨tile, rest, hcons, hallow, hgrid⟩ := canCombine_cases hright
        have hmem : tile ∈ tileQueue := (hinv.mem tile).2 (.inr (.inr (by simp [hcons])))
        obtain ⟨hnext, hx⟩ := next_right hmsg hplain hinv hcons hallow (not_lt.1 hlt)
        have hcolumn := @proposedGridX_eq _ _ rest hmsg (hplain tile hmem) hallow
        rw [hcons, hcolumn] at h
        split at h
        · rename_i hspan
          cases h
          exact ⟨hinv, fun t ht => hinv.not_taken hnext (.inr hspan) ht⟩
        · rename_i hspan
          rw [hcons] at hnear hgrid
          refine ih ?_ ?_ (hinv.take_right hnext hmsg hplain hcons hx (not_le.1 hspan)) h
          · exact hnear.tail_right
          · have hbehind := (hnear.right tile List.mem_cons_self hallow).1
            rwa [← hgrid 0, hcolumn] at hbehind

/-- Nearer than a tile of the row on the left there are only tiles of the row. -/
theorem row_left (hmsg : msg.id = -1) (hsorted : Sorted TileDesc.tie (left.reverse ++ msg :: right))
    (hplain : ∀ t ∈ left, Plain t) : left.Pairwise fun a b =>
      allowCombineIfRow msg msg.tilePosY b = true → allowCombineIfRow msg msg.tilePosY a = true := by
  induction left with
  | nil => exact List.Pairwise.nil
  | cons first left ih =>
    have hsub : (left.reverse ++ msg :: right).Sublist ((first :: left).reverse ++ msg :: right) := by
      rw [List.reverse_cons]
      exact (List.sublist_append_left _ _).append_right _
    refine List.pairwise_cons.2 ⟨fun tile htile hallow => ?_,
      ih (hsorted.sublist hsub) fun t ht => hplain t (List.mem_cons_of_mem first ht)⟩
    exact (left_head hmsg hsorted hplain (List.mem_cons_of_mem first htile) hallow).1

/-- A tile on the left that is as far as a missing one is never taken, and the loop takes all that is on the right. -/
theorem combineHoriAround_beyond {n : Nat} {far : TileDesc}
    (hrow : row.left.Pairwise fun a b =>
      allowCombineIfRow msg msg.tilePosY b = true → allowCombineIfRow msg msg.tilePosY a = true)
    (hcolumn : ∀ t ∈ row.left, allowCombineIfRow msg msg.tilePosY t = true → t.tilePosX / msg.tileWidth = t.gridX)
    (hspan : ∀ t ∈ row.left, allowCombineIfRow msg msg.tilePosY t = true →
      msg.gridX - t.gridX < maxCombinedGridSpan ∨ msg.gridX - t.gridX = intMax)
    (hfar : far ∈ row.left) (hallow : allowCombineIfRow msg msg.tilePosY far = true)
    (hdist : msg.gridX - far.gridX = intMax)
    (hright : ∀ t ∈ row.right, allowCombineIfRow msg msg.tilePosY t = false)
    (hends : row.rightGridX = msg.gridX ∧ msg.gridX - row.leftGridX < maxCombinedGridSpan) :
    combineHoriAround msg n row = none := by
  induction n generalizing row with
  | zero => rfl
  | succ n ih =>
    obtain ⟨_ | ⟨first, left⟩, right, destTiles, leftGridX, rightGridX⟩ := row
    · cases hfar
    obtain ⟨rfl, hlo⟩ := hends
    have hfirst : allowCombineIfRow msg msg.tilePosY first = true := by
      rcases List.mem_cons.1 hfar with rfl | hmem
      · exact hallow
      · exact (List.pairwise_cons.1 hrow).1 far hmem hallow
    have hcanLeft : canCombine msg (first :: left) = true := by simp [canCombine, hfirst]
    have hcanRight : canCombine msg right = false := by
      cases right with
      | nil => rfl
      | cons tile right => simpa [canCombine] using hright tile List.mem_cons_self
    have hproposed (gridX : Int) : proposedGridX msg (first :: left) gridX = first.gridX := by
      rw [← hcolumn first List.mem_cons_self hfirst]
      simp [proposedGridX, hcanLeft]
    have hmissing (gridX : Int) : proposedGridX msg right gridX = gridX := by simp [proposedGridX, hcanRight]
    unfold combineHoriAround leftGridDistance rightGridDistance
    simp only [hcanLeft, hcanRight, hproposed, hmissing]
    rw [if_neg (by simp)]
    simp only [if_true, Bool.false_eq_true, if_false]
    rcases hspan first List.mem_cons_self hfirst with hnear | hfirstDist
    · have hne : far ≠ first := by
        rintro rfl
        have : maxCombinedGridSpan < intMax := by decide
        omega
      have hlt : msg.gridX - first.gridX < intMax := hnear.trans (by decide)
      rw [if_pos hlt, if_neg (not_le.2 hnear)]
      exact ih (List.pairwise_cons.1 hrow).2 (fun t ht => hcolumn t (List.mem_cons_of_mem first ht))
        (fun t ht => hspan t (List.mem_cons_of_mem first ht)) ((List.mem_cons.1 hfar).resolve_left hne) hright
        ⟨rfl, hnear⟩
    · rw [if_neg (by omega), if_neg (not_le.2 hlo)]
      cases right with
      | nil => rfl
      | cons tile right =>
        exact ih hrow hcolumn hspan hfar (fun t ht => hright t (List.mem_cons_of_mem tile ht)) ⟨rfl, hlo⟩

/-! ### The tiles that are collected -/

/-- A tile of the queue that can be combined with the tile from the row above or below. -/
def InNeighbourRow (tileQueue : List TileDesc) (msg tile : TileDesc) : Prop :=
  tile ∈ tileQueue ∧ (allowCombineIfRow msg (wrapInt (msg.tilePosY + msg.tileHeight * -1)) tile = true ∨
    allowCombineIfRow msg (wrapInt (msg.tilePosY + msg.tileHeight * 1)) tile = true)

/-- The window of the neighbour rows starts at the column. -/
def WindowFrom (tileQueue : List TileDesc) (msg : TileDesc) (leftGridX : Int) : Prop :=
  ∃ a b, Taken tileQueue msg a ∧ Taken tileQueue msg b ∧
    (∀ t, Taken tileQueue msg t → a.gridX ≤ t.gridX ∧ t.gridX ≤ b.gridX) ∧ leftGridX = (expand a.gridX b.gridX).1

/-- There is a tile in the first column of the window, and one in the column behind the span. -/
def Overfull (tileQueue : List TileDesc) (msg : TileDesc) : Prop :=
  ∃ leftGridX, WindowFrom tileQueue msg leftGridX ∧
    (∃ t, (Taken tileQueue msg t ∨ InNeighbourRow tileQueue msg t) ∧ t.gridX = leftGridX) ∧
      ∃ t, InNeighbourRow tileQueue msg t ∧ t.gridX = leftGridX + maxCombinedGridSpan

theorem expand_spec {leftGridX rightGridX : Int} (h : 0 ≤ leftGridX ∧ leftGridX ≤ rightGridX)
    (hspan : rightGridX - leftGridX < maxCombinedGridSpan) :
    (0 ≤ (expand leftGridX rightGridX).1 ∧ (expand leftGridX rightGridX).1 ≤ leftGridX) ∧
      rightGridX < (expand leftGridX rightGridX).1 + maxCombinedGridSpan ∧
        (expand leftGridX rightGridX).2 = wrapInt ((expand leftGridX rightGridX).1 + maxCombinedGridSpan) := by
  unfold expand
  rw [if_pos hspan]
  unfold maxCombinedGridSpan at *
  dsimp only
  refine ⟨⟨by omega, by omega⟩, by omega, congrArg wrapInt ?_⟩
  omega

theorem wrapInt_le {n : Int} (h : 0 ≤ n) (hmax : n < 2 ^ 32) : wrapInt n ≤ n := by
  rw [wrapInt_of_nonneg h hmax]
  split <;> omega

/-- The two ends of the window do not depend on the choice of the tiles. -/
theorem WindowFrom.unique {leftGridX leftGridX' : Int} (h : WindowFrom tileQueue msg leftGridX)
    (h' : WindowFrom tileQueue msg leftGridX') : leftGridX = leftGridX' := by
  obtain ⟨a, b, ha, hb, hends, rfl⟩ := h
  obtain ⟨a', b', ha', hb', hends', rfl⟩ := h'
  have hleft : a.gridX = a'.gridX := by
    have := hends a' ha'
    have := hends' a ha
    omega
  have hright : b.gridX = b'.gridX := by
    have := hends b' hb'
    have := hends' b hb
    omega
  rw [hleft, hright]

/-- The tile itself is the first one that the loop takes. -/
theorem rowInv_start (hmsg : msg.id = -1) (hplain : ∀ t ∈ left.reverse ++ msg :: right, Plain t)
    (hsorted : Sorted TileDesc.tie (left.reverse ++ msg :: right)) :
    RowInv (left.reverse ++ msg :: right) msg ⟨left, right, [msg], msg.gridX, msg.gridX⟩ := by
  have hself : allowCombineIfRow msg msg.tilePosY msg = true :=
    (allowCombineIfRow_iff hmsg (hplain msg (by simp))).2 rfl
  have hmem : ∀ t, t ∈ left.reverse ++ msg :: right ↔ t ∈ [msg] ∨ t ∈ left ∨ t ∈ right := by
    intro t
    simp only [List.mem_append, List.mem_reverse, List.mem_cons, List.not_mem_nil, or_false]
    tauto
  have hreach := reach_cases msg msg
  have hnonneg : ∀ t, InRow (left.reverse ++ msg :: right) msg t →
      0 ≤ reach msg t ∧ (reach msg t ≤ 0 → t.gridX = msg.gridX) := by
    intro t ht
    have hside := gridX_side hmsg (hplain t ht.1) ht.2
    have hcases := reach_cases msg t
    omega
  refine ⟨hmem, hsorted, ?_, ?_, ?_, ?_, ⟨msg, by simp, rfl⟩, ⟨msg, by simp, rfl⟩⟩
  · exact hsorted.distinct.perm List.perm_middle
  · intro t ht
    rw [List.mem_singleton.1 ht]
    refine ⟨⟨by simp, hself⟩, fun a b ha hb hreachA hreachB => ?_⟩
    have ha := (hnonneg a ha).2 (by omega)
    have hb := (hnonneg b hb).2 (by omega)
    unfold maxCombinedGridSpan
    omega
  · intro d hd t ht hallow
    rw [List.mem_singleton.1 hd]
    have := (hnonneg t ⟨(hmem t).2 (.inr ht), hallow⟩).1
    omega
  · intro d hd
    rw [List.mem_singleton.1 hd]
    exact ⟨le_refl _, le_refl _⟩

/-- What is collected: the tiles that are taken from the row, and those of the neighbour rows in the window. -/
theorem mem_collectTiles {tiles remaining : List TileDesc} (hmsg : msg.id = -1)
    (hplain : ∀ t ∈ left.reverse ++ msg :: right, Plain t)
    (hsorted : Sorted TileDesc.tie (left.reverse ++ msg :: right))
    (hnear : Near msg left right) (h : collectTiles msg left right = some (tiles, remaining)) :
    ∃ leftGridX, 0 ≤ leftGridX ∧ leftGridX ≤ intMax ∧ WindowFrom (left.reverse ++ msg :: right) msg leftGridX ∧
      (∀ t, Taken (left.reverse ++ msg :: right) msg t →
        leftGridX ≤ t.gridX ∧ t.gridX < leftGridX + maxCombinedGridSpan) ∧
      ∀ t, t ∈ tiles ↔ Taken (left.reverse ++ msg :: right) msg t ∨
      InNeighbourRow (left.reverse ++ msg :: right) msg t ∧
        leftGridX ≤ t.gridX ∧ t.gridX ≤ wrapInt (leftGridX + maxCombinedGridSpan) := by
  have hpreview : msg.isPreview = false := by simp [TileDesc.isPreview, hmsg]
  unfold collectTiles at h
  rw [if_neg (by simp [hpreview])] at h
  obtain ⟨row, hrow, heq⟩ := Option.map_eq_some_iff.1 h
  have hstart := rowInv_start hmsg hplain hsorted
  obtain ⟨hinv, hstop⟩ := combineHoriAround_taken hmsg hplain hnear (le_refl _) hstart hrow
  obtain ⟨row', hrow', hmoved⟩ := combineHoriAround_moved ⟨left, right, [msg], msg.gridX, msg.gridX⟩ hnear
    (le_refl _) (Nat.lt_succ_self _) (List.pairwise_singleton _ _) hstart.distinct
  obtain rfl := Option.some.inj (hrow.symm.trans hrow')
  have htaken : ∀ t, t ∈ row.destTiles ↔ Taken (left.reverse ++ msg :: right) msg t := by
    refine fun t => ⟨hinv.taken t, fun ht => ?_⟩
    rcases (hinv.mem t).1 ht.1.1 with hd | hrest
    · exact hd
    · exact absurd ht (hstop t hrest)
  have hmsgMem : msg ∈ row.destTiles := (htaken msg).2 (hstart.taken msg (by simp))
  obtain ⟨a, ha, hleftEnd⟩ := hinv.leftEnd
  obtain ⟨b, hb, hrightEnd⟩ := hinv.rightEnd
  have hspan : row.rightGridX - row.leftGridX < maxCombinedGridSpan := by
    rw [← hleftEnd, ← hrightEnd]
    rcases le_total (reach msg a) (reach msg b) with hle | hle
    · exact (hinv.taken b hb).2 a b (hinv.taken a ha).1 (hinv.taken b hb).1 hle (le_refl _)
    · exact (hinv.taken a ha).2 a b (hinv.taken a ha).1 (hinv.taken b hb).1 (le_refl _) hle
  have hbounds := hinv.bounds msg hmsgMem
  have hgrid : ∀ t ∈ left.reverse ++ msg :: right, 0 ≤ t.gridX ∧ t.gridX ≤ intMax := by
    intro t ht
    exact ⟨Int.ediv_nonneg (hplain t ht).x.1 (hplain t ht).size.1.le, gridX_le_intMax (hplain t ht)⟩
  have hleft := hgrid a ((htaken a).1 ha).1.1
  obtain ⟨⟨hnonneg, hle⟩, hlt, hright⟩ := expand_spec (by omega) hspan
  have hwindowFrom : WindowFrom (left.reverse ++ msg :: right) msg (expand row.leftGridX row.rightGridX).1 := by
    refine ⟨a, b, (htaken a).1 ha, (htaken b).1 hb, fun t ht => ?_, ?_⟩
    · rw [hleftEnd, hrightEnd]
      exact hinv.bounds t ((htaken t).2 ht)
    · rw [hleftEnd, hrightEnd]
  rcases hwindow : expand row.leftGridX row.rightGridX with ⟨leftGridX, rightGridX⟩
  rw [hwindow] at hnonneg hle hlt hright hwindowFrom
  dsimp only at hnonneg hle hlt hright hwindowFrom
  rcases hup : combineVerticalTiles msg leftGridX rightGridX (-1) row.queue row.destTiles with ⟨above, destAbove⟩
  rcases hdown : combineVerticalTiles msg leftGridX rightGridX 1 above destAbove with ⟨below, destBelow⟩
  simp only [hwindow, hup, hdown] at heq
  cases heq
  have hqueue : row.queue.Sublist (row.left.reverse ++ msg :: row.right) :=
    (List.Sublist.refl _).append (List.sublist_cons_self msg row.right)
  have hqueueMem : ∀ t, t ∈ row.queue ↔ t ∈ row.left ∨ t ∈ row.right := fun t => by simp [Row.queue]
  have hqueuePlain : ∀ t ∈ row.queue, Plain t := fun t ht => hplain t ((hinv.mem t).2 (.inr ((hqueueMem t).1 ht)))
  have hmovedAbove := combineVerticalTiles_moved msg leftGridX rightGridX (-1) hmoved.sorted hinv.distinct
  rw [hup] at hmovedAbove
  refine ⟨leftGridX, hnonneg, by omega, hwindowFrom, fun t ht => ?_, fun t => ?_⟩
  · have := hinv.bounds t ((htaken t).2 ht)
    omega
  · have hfirst := @mem_combineVerticalTiles msg t row.queue row.destTiles rightGridX (-1) leftGridX hmsg
      (hplain msg (by simp)) hqueuePlain (hinv.sorted.sublist hqueue) hinv.distinct ⟨hnonneg, by omega⟩
    have hsecond := @mem_combineVerticalTiles msg t above destAbove rightGridX 1 leftGridX hmsg (hplain msg (by simp))
      (fun t ht => hqueuePlain t (hmovedAbove.sublist.subset ht))
      ((hinv.sorted.sublist hqueue).sublist hmovedAbove.sublist)
      (hmovedAbove.distinct hinv.distinct) ⟨hnonneg, by omega⟩
    rw [hup] at hfirst
    rw [hdown] at hsecond
    have hall := @List.Perm.mem_iff _ t _ _ hmovedAbove.perm
    rw [List.mem_append, List.mem_append] at hall
    rw [hsecond, ← hright, ← htaken t]
    unfold InNeighbourRow
    rw [hinv.mem t, ← hqueueMem t]
    constructor
    · rintro (hin | ⟨hin, hallow, hbetween⟩)
      · rcases hfirst.1 hin with hdest | ⟨hqueued, hallow, hbetween⟩
        · exact .inl hdest
        · exact .inr ⟨⟨.inr hqueued, .inl hallow⟩, hbetween⟩
      · exact .inr ⟨⟨hall.1 (.inr hin), .inr hallow⟩, hbetween⟩
    · rintro (hin | ⟨⟨hin, hallow | hallow⟩, hbetween⟩)
      · exact .inl (hfirst.2 (.inl hin))
      · rcases hin with hdest | hqueued
        · exact .inl (hfirst.2 (.inl hdest))
        · exact .inl (hfirst.2 (.inr ⟨hqueued, hallow, hbetween⟩))
      · rcases hall.2 hin with hdest | hqueued
        · exact .inl hdest
        · exact .inr ⟨hqueued, hallow, hbetween⟩

/-- The columns of what is collected are within the span, unless both ends of the window are taken. -/
theorem collectTiles_columns {tiles remaining : List TileDesc} (hmsg : msg.id = -1)
    (hplain : ∀ t ∈ left.reverse ++ msg :: right, Plain t)
    (hsorted : Sorted TileDesc.tie (left.reverse ++ msg :: right))
    (hnear : Near msg left right) (h : collectTiles msg left right = some (tiles, remaining)) :
    (∀ a ∈ tiles, ∀ b ∈ tiles, b.gridX - a.gridX < maxCombinedGridSpan) ↔
      ¬ Overfull (left.reverse ++ msg :: right) msg := by
  obtain ⟨leftGridX, hnonneg, hmax, hwindow, htaken, htiles⟩ := mem_collectTiles hmsg hplain hsorted hnear h
  have hend : wrapInt (leftGridX + maxCombinedGridSpan) ≤ leftGridX + maxCombinedGridSpan :=
    wrapInt_le (by unfold maxCombinedGridSpan; omega) (by unfold maxCombinedGridSpan intMax at *; omega)
  have hwithin : ∀ t ∈ tiles, leftGridX ≤ t.gridX ∧ t.gridX ≤ leftGridX + maxCombinedGridSpan := by
    intro t ht
    rcases (htiles t).1 ht with ht | ⟨-, hle, hle'⟩
    · have := htaken t ht
      omega
    · omega
  constructor
  · rintro hspan ⟨leftGridX', hwindow', ⟨a, ha, hax⟩, b, hb, hbx⟩
    obtain rfl := hwindow.unique hwindow'
    have hbmax := gridX_le_intMax (hplain b hb.1)
    have hfits : wrapInt (leftGridX + maxCombinedGridSpan) = leftGridX + maxCombinedGridSpan :=
      wrapInt_of_bounds (by unfold intMax maxCombinedGridSpan at *; omega)
    have hpos : 0 < maxCombinedGridSpan := by decide
    have hmemB : b ∈ tiles := (htiles b).2 (.inr ⟨hb, by omega, by omega⟩)
    have hmemA : a ∈ tiles := by
      rcases ha with ha | ha
      · exact (htiles a).2 (.inl ha)
      · exact (htiles a).2 (.inr ⟨ha, by omega, by omega⟩)
    have := hspan a hmemA b hmemB
    omega
  · intro hno a ha b hb
    by_contra hge
    have hinA := hwithin a ha
    have hinB := hwithin b hb
    refine hno ⟨leftGridX, hwindow, ⟨a, ?_, by omega⟩, b, ?_, by omega⟩
    · rcases (htiles a).1 ha with ha | ⟨ha, -⟩
      · exact .inl ha
      · exact .inr ha
    · rcases (htiles b).1 hb with hb | ⟨hb, -⟩
      · have := htaken b hb
        omega
      · exact hb

/-- A row is the next one above or below, or there is none. -/
theorem gridY_near (hmsg : msg.id = -1) (hmsgPlain : Plain msg) (hplain : Plain tile)
    (hallow : allowCombineIfRow msg msg.tilePosY tile = true ∨
      allowCombineIfRow msg (wrapInt (msg.tilePosY + msg.tileHeight * -1)) tile = true ∨
        allowCombineIfRow msg (wrapInt (msg.tilePosY + msg.tileHeight * 1)) tile = true) :
    msg.gridY - 1 ≤ tile.gridY ∧ tile.gridY ≤ msg.gridY + 1 := by
  have hrow : ∀ y, allowCombineIfRow msg y tile = true → tile.tileHeight = msg.tileHeight ∧ tile.tilePosY = y := by
    intro y h
    have heq := (allowCombineIfRow_iff hmsg hplain).1 h
    simp only [TileDesc.row, TileDesc.rowAt, List.cons.injEq] at heq
    exact ⟨heq.2.2.2.2.2.2.1, heq.2.2.2.2.2.2.2.2.1⟩
  have hsize := hmsgPlain.size.2
  have hy := hmsgPlain.y
  have hty := hplain.y
  have hheight : tile.tileHeight = msg.tileHeight := by
    rcases hallow with h | h | h <;> exact (hrow _ h).1
  unfold TileDesc.gridY
  rw [hheight]
  by_cases hbig : intMax < msg.tileHeight
  · rw [Int.ediv_eq_zero_of_lt hy.1 (by omega), Int.ediv_eq_zero_of_lt hty.1 (by omega)]
    omega
  have hposY : tile.tilePosY = msg.tilePosY ∨ tile.tilePosY = msg.tilePosY - msg.tileHeight ∨
      tile.tilePosY = msg.tilePosY + msg.tileHeight := by
    rcases hallow with h | h | h
    · exact .inl (hrow _ h).2
    · rw [(hrow _ h).2, wrapInt_of_bounds (by omega)]
      omega
    · have heq := (hrow _ h).2
      rw [wrapInt_of_nonneg (by omega) (by unfold intMax at *; omega)] at heq
      split at heq
      · omega
      · unfold intMax at *
        omega
  rcases hposY with heq | heq | heq
  · rw [heq]
    omega
  · rw [heq, Int.sub_ediv_of_dvd _ (dvd_refl _), Int.ediv_self hsize.ne']
    omega
  · rw [heq, Int.add_ediv_of_dvd_right (dvd_refl _), Int.ediv_self hsize.ne']
    omega

/-- What is collected is in three rows. -/
theorem collectTiles_rows {tiles remaining : List TileDesc} (hmsg : msg.id = -1)
    (hplain : ∀ t ∈ left.reverse ++ msg :: right, Plain t)
    (hsorted : Sorted TileDesc.tie (left.reverse ++ msg :: right))
    (hnear : Near msg left right) (h : collectTiles msg left right = some (tiles, remaining)) :
    ∀ a ∈ tiles, ∀ b ∈ tiles, b.gridY - a.gridY < maxCombinedGridSpan := by
  obtain ⟨leftGridX, -, -, -, -, htiles⟩ := mem_collectTiles hmsg hplain hsorted hnear h
  have hnearY : ∀ t ∈ tiles, msg.gridY - 1 ≤ t.gridY ∧ t.gridY ≤ msg.gridY + 1 := by
    intro t ht
    rcases (htiles t).1 ht with ht | ⟨ht, -⟩
    · exact gridY_near hmsg (hplain msg (by simp)) (hplain t ht.1.1) (.inl ht.1.2)
    · exact gridY_near hmsg (hplain msg (by simp)) (hplain t ht.1) (.inr ht.2)
  intro a ha b hb
  have := hnearY a ha
  have := hnearY b hb
  unfold maxCombinedGridSpan
  omega

/-! ### The combination -/

/-- What is combined covers no more columns and rows than the span, and so does its pixmap. -/
structure WithinSpan (c : TileCombined) : Prop where
  columns : ∀ a ∈ c.tiles, ∀ b ∈ c.tiles, b.gridX - a.gridX < maxCombinedGridSpan
  rows : ∀ a ∈ c.tiles, ∀ b ∈ c.tiles, b.gridY - a.gridY < maxCombinedGridSpan
  width : RenderTiles.pixmapWidth c ≤ maxCombinedGridSpan * c.width
  height : RenderTiles.pixmapHeight c ≤ maxCombinedGridSpan * c.height

/-- The pixmap of positions in some columns. -/
theorem pixmap_le {positions : List Int} {size pixels first last n : Int}
    (hhull : RenderAxis.Hull positions size first last)
    (hsize : 0 < size) (hpixels : 0 ≤ pixels) (h : ∀ a ∈ positions, ∀ b ∈ positions, b / size - a / size < n) :
    RenderAxis.pixmap size pixels first last ≤ n * pixels := by
  obtain ⟨m, hm, hend⟩ := hhull.right_mem
  have hcolumns := h first hhull.left_mem m hm
  have hlast : last ≤ m + size := by
    rw [← hend]
    unfold RenderAxis.endOf
    split <;> omega
  have hstart := Int.ediv_mul_le first hsize.ne'
  have hstop := Int.lt_ediv_add_one_mul_self m hsize
  have hmul : (m / size - first / size + 2) * size ≤ (n + 1) * size :=
    Int.mul_le_mul_of_nonneg_right (by omega) hsize.le
  have hexpand : (m / size - first / size + 2) * size = (m / size + 1) * size + size - first / size * size := by ring
  have hlt : (last - first) / size < n + 1 := Int.ediv_lt_of_lt_mul hsize (by omega)
  exact Int.mul_le_mul_of_nonneg_right (by omega) hpixels

theorem withinSpan_iff {c : TileCombined} (hc : RenderTiles.Accepted c)
    (hrows : ∀ a ∈ c.tiles, ∀ b ∈ c.tiles, b.gridY - a.gridY < maxCombinedGridSpan) :
    WithinSpan c ↔ ∀ a ∈ c.tiles, ∀ b ∈ c.tiles, b.gridX - a.gridX < maxCombinedGridSpan := by
  refine ⟨WithinSpan.columns, fun hcolumns => ⟨hcolumns, hrows, ?_, ?_⟩⟩
  · obtain ⟨htileWidth, -, hwidth, -⟩ := hc.sizes
    rw [RenderTiles.pixmapWidth_eq hc]
    refine pixmap_le (RenderTiles.hull_x hc.nonempty) htileWidth hwidth.le fun a ha b hb => ?_
    obtain ⟨s, hs, rfl⟩ := List.mem_map.1 ha
    obtain ⟨t, ht, rfl⟩ := List.mem_map.1 hb
    have hsize : ∀ t ∈ c.tiles, t.tileWidth = c.tileWidth :=
      fun t ht => congrArg CombineParams.tileWidth (hc.params t ht)
    have := hcolumns s hs t ht
    rwa [TileDesc.gridX, TileDesc.gridX, hsize s hs, hsize t ht] at this
  · obtain ⟨-, htileHeight, -, hheight⟩ := hc.sizes
    rw [RenderTiles.pixmapHeight_eq hc]
    refine pixmap_le (RenderTiles.hull_y hc.nonempty) htileHeight hheight.le fun a ha b hb => ?_
    obtain ⟨s, hs, rfl⟩ := List.mem_map.1 ha
    obtain ⟨t, ht, rfl⟩ := List.mem_map.1 hb
    have hsize : ∀ t ∈ c.tiles, t.tileHeight = c.tileHeight :=
      fun t ht => congrArg CombineParams.tileHeight (hc.params t ht)
    have := hrows s hs t ht
    rwa [TileDesc.gridY, TileDesc.gridY, hsize s hs, hsize t ht] at this

/-- What does not depend on the sizes of images is the same for the tiles and their combination. -/
theorem forall_dropImgSize {p : TileDesc → TileDesc → Prop} {tiles tiles' : List TileDesc}
    (hp : ∀ a b, p a b ↔ p a.dropImgSize b.dropImgSize)
    (h : tiles.map TileDesc.dropImgSize = tiles'.map TileDesc.dropImgSize) :
    (∀ a ∈ tiles, ∀ b ∈ tiles, p a b) ↔ ∀ a ∈ tiles', ∀ b ∈ tiles', p a b := by
  have hmap : ∀ l : List TileDesc, (∀ a ∈ l, ∀ b ∈ l, p a b) ↔
      ∀ a ∈ l.map TileDesc.dropImgSize, ∀ b ∈ l.map TileDesc.dropImgSize, p a b := by
    intro l
    simp only [List.forall_mem_map, ← hp]
  rw [hmap, h, ← hmap]

/-! ### Runs -/

/-- The tile that is popped next has too wide a window with tiles at both ends. -/
def PopsOverfull (q : KitQueue) (prio : TilePrioritizer) : Prop :=
  ∃ queue msg, q.chosenQueue prio = some queue ∧ prioritizedTile prio.getTilePriority queue.2 = some msg ∧
    Overfull queue.2 msg

variable {q : KitQueue} {prio : TilePrioritizer}

theorem plain_of_ok {viewId : Int} (h : QueueOk viewId tileQueue) (hok : ∀ t ∈ tileQueue, TileOk t) :
    ∀ t ∈ tileQueue, Plain t := by
  intro t ht
  obtain ⟨-, -, -, -, -, hx, hy, htileWidth, htileHeight, -⟩ := TileDesc.isValid_iff.1 (h.valid t ht)
  exact ⟨h.id t ht, ⟨hx, h.fits t ht⟩, ⟨hy, (hok t ht).fits.2⟩, htileWidth, htileHeight⟩

/-- Nothing can be combined with a preview. -/
theorem not_overfull_preview (hpreview : msg.isPreview = true) : ¬ Overfull tileQueue msg := by
  rintro ⟨leftGridX, ⟨a, -, ha, -⟩, -⟩
  have hallow := allowCombine_of_row ha.1.2
  simp [allowCombine, hpreview] at hallow

theorem popFrom_beyond {getTilePriority : TileDesc → Priority} {viewId : Int} (h : QueueOk viewId tileQueue)
    (hplain : ∀ t ∈ tileQueue, Plain t) (hmsg : prioritizedTile getTilePriority tileQueue = some msg)
    (hbeyond : ReadsBeyond tileQueue msg) : popFrom getTilePriority tileQueue = none := by
  cases tileQueue with
  | nil => rfl
  | cons first rest =>
    rcases hfound : findPrioritized getTilePriority 1 0 (getTilePriority first) rest with ⟨prioritized, priority⟩
    rw [prioritizedTile, hfound] at hmsg
    dsimp only at hmsg
    obtain ⟨hlt, hget⟩ := List.getElem?_eq_some_iff.1 hmsg
    have hsplit : ((first :: rest).take prioritized).reverse.reverse ++ msg ::
      (first :: rest).drop (prioritized + 1) =
        first :: rest := by
      rw [List.reverse_reverse, ← hget, ← List.drop_eq_getElem_cons hlt, List.take_append_drop]
    have hnone : collectTiles msg ((first :: rest).take prioritized).reverse
      ((first :: rest).drop (prioritized + 1)) =
        none := by
      generalize ((first :: rest).take prioritized).reverse = left at hsplit
      generalize (first :: rest).drop (prioritized + 1) = right at hsplit
      rw [← hsplit] at h hplain hbeyond
      obtain ⟨⟨far, hfar, hallow, hdist⟩, hspan⟩ := hbeyond
      have hcolumns := h.rowColumns
      have hpreview : msg.isPreview = false := (combineParams_of_allowCombine (allowCombine_of_row hallow)).2.2
      have hid : msg.id = -1 := by
        have := h.id msg (by simp)
        simp only [TileDesc.isPreview, decide_eq_false_iff_not] at hpreview
        omega
      have hmax := gridX_le_intMax (hplain msg (by simp))
      have hnonneg : 0 ≤ far.gridX := Int.ediv_nonneg (hplain far hfar).x.1 (hplain far hfar).size.1.le
      have hpos : 0 < intMax := by decide
      have hfarLeft : far ∈ left := by
        simp only [List.mem_append, List.mem_reverse, List.mem_cons] at hfar
        rcases hfar with hfar | rfl | hfar
        · exact hfar
        · omega
        · have := (hcolumns.behind far hfar hallow).2.1
          omega
      have hleftPlain : ∀ t ∈ left, Plain t := fun t ht => hplain t (List.mem_append_left _ (List.mem_reverse.2 ht))
      -- the tile is in the last column that there is
      have hright : ∀ t ∈ right, allowCombineIfRow msg msg.tilePosY t = false := by
        intro t ht
        by_contra hother
        have hlt := (hcolumns.behind t ht (by simpa using hother)).1
        have hx := (hplain t (List.mem_append_right _ (List.mem_cons_of_mem msg ht))).x.2
        have hle : msg.gridX ≤ msg.tilePosX := Int.ediv_le_self _ (hplain msg (by simp)).x.1
        omega
      unfold collectTiles
      rw [if_neg (by simp [hpreview])]
      rw [@combineHoriAround_beyond _ ⟨left, right, [msg], msg.gridX, msg.gridX⟩ _ _
        (row_left hid h.sorted hleftPlain) (fun t ht => hcolumns.column t (List.mem_append_left _ ht))
        (fun t ht => hspan t (List.mem_append_left _ (List.mem_reverse.2 ht))) hfarLeft hallow hdist hright
        ⟨rfl, by simp [maxCombinedGridSpan]⟩]
      rfl
    unfold popFrom
    simp only [hfound, hmsg, hnone]

/-- Where the loop reads beyond the queue nothing is returned. -/
theorem popTileQueue_beyond (h : q.Ok) (htiles : q.TilesOk) (hbeyond : q.PopsBeyond prio) :
    q.popTileQueue prio = none := by
  obtain ⟨queue, msg, hchosen, hmsg, hbeyond⟩ := hbeyond
  obtain ⟨i, hchoose, hqueue⟩ := Option.bind_eq_some_iff.1 hchosen
  have hmem : queue ∈ q.tileQueues := List.mem_of_getElem? hqueue
  have hnone := popFrom_beyond (h queue hmem) (plain_of_ok (h queue hmem) (htiles queue hmem)) hmsg hbeyond
  simp [popTileQueue, hchoose, hqueue, hnone]

theorem ok_of_reachable (h : Run.Reachable (fun q => q = {}) step InInt q) : q.Ok ∧ q.TilesOk := by
  refine h.invariant (fun q => q.Ok ∧ q.TilesOk) ?_ fun q e q' _ hinv hint hs => ?_
  · rintro q rfl
    constructor
    · intro queue hqueue
      cases hqueue
    · intro queue hqueue
      cases hqueue
  · refine ⟨step_ok hinv.1 ?_ hs, step_tilesOk hinv.2 hint hs⟩
    rintro prio rfl hbeyond
    rw [step, popTileQueue_beyond hinv.1 hinv.2 hbeyond] at hs
    simp at hs

/-- What is popped is within the span, unless both ends of its window are taken, or the loop reads beyond the
queue. -/
theorem popTileQueue_withinSpan (h : Run.Reachable (fun q => q = {}) step InInt q)
    (hne : q.isTileQueueEmpty = false) :
    (∃ combined priority q', q.popTileQueue prio = some (combined, priority, q') ∧ WithinSpan combined) ↔
      ¬ q.PopsBeyond prio ∧ ¬ q.PopsOverfull prio := by
  obtain ⟨hok, htilesOk⟩ := ok_of_reachable h
  by_cases hbeyond : q.PopsBeyond prio
  · rw [popTileQueue_beyond hok htilesOk hbeyond]
    exact iff_of_false (fun ⟨_, _, _, hpop, _⟩ => by cases hpop) fun hends => hends.1 hbeyond
  obtain ⟨i, queue, hchoose, hqueue, hnil, -⟩ := chosenQueue_spec prio hne
  have hmem : queue ∈ q.tileQueues := List.mem_of_getElem? hqueue
  have hchosen : q.chosenQueue prio = some queue := by simp [chosenQueue, hchoose, hqueue]
  obtain ⟨msg, left, right, tiles, combined, priority, remaining, hpop, hcollects⟩ :=
    popFrom_collects prio.getTilePriority (hok queue hmem) hnil fun msg hmsg hreads =>
      hbeyond ⟨queue, msg, hchosen, hmsg, hreads⟩
  have hpopped : q.popTileQueue prio = some (combined, priority, ⟨q.tileQueues.set i (queue.1, remaining)⟩) := by
    simp [popTileQueue, hchoose, hqueue, hpop]
  have haccepted := accepted_of_popped h hpopped
  have hoverfull : q.PopsOverfull prio ↔ Overfull (left.reverse ++ msg :: right) msg := by
    rw [hcollects.split]
    constructor
    · rintro ⟨queue', msg', hqueue', hmsg', hover⟩
      obtain rfl := Option.some.inj (hchosen.symm.trans hqueue')
      obtain rfl := Option.some.inj (hcollects.chosen.symm.trans hmsg')
      exact hover
    · exact fun hover => ⟨queue, msg, hchosen, hcollects.chosen, hover⟩
  have hplain := plain_of_ok (hok queue hmem) (htilesOk queue hmem)
  have hsorted := (hok queue hmem).sorted
  rw [← hcollects.split] at hplain hsorted
  obtain ⟨hrows, hcolumns⟩ : (∀ a ∈ tiles, ∀ b ∈ tiles, b.gridY - a.gridY < maxCombinedGridSpan) ∧
      ((∀ a ∈ tiles, ∀ b ∈ tiles, b.gridX - a.gridX < maxCombinedGridSpan) ↔
        ¬ Overfull (left.reverse ++ msg :: right) msg) := by
    cases hpreview : msg.isPreview with
    | true =>
      have htiles : tiles = [msg] := by
        have hcollect := hcollects.collect
        unfold collectTiles at hcollect
        rw [if_pos hpreview] at hcollect
        cases hcollect
        rfl
      rw [htiles]
      simp [maxCombinedGridSpan, not_overfull_preview hpreview]
    | false =>
      have hid : msg.id = -1 := by
        have := (hplain msg (by simp)).id
        simp only [TileDesc.isPreview, decide_eq_false_iff_not] at hpreview
        omega
      exact ⟨collectTiles_rows hid hplain hsorted hcollects.near hcollects.collect,
        collectTiles_columns hid hplain hsorted hcollects.near hcollects.collect⟩
  have hwithin : WithinSpan combined ↔ ¬ q.PopsOverfull prio := by
    rw [hoverfull, ← hcolumns, withinSpan_iff haccepted
      ((forall_dropImgSize (fun _ _ => Iff.rfl) hcollects.tiles).2 hrows)]
    exact forall_dropImgSize (fun _ _ => Iff.rfl) hcollects.tiles
  rw [and_iff_right hbeyond, ← hwithin]
  constructor
  · rintro ⟨combined', priority', q', hpop', hspan⟩
    rw [hpopped] at hpop'
    cases hpop'
    exact hspan
  · exact fun hspan => ⟨combined, priority, _, hpopped, hspan⟩

/-- A tile of a sheet. -/
def tileAtRow (row column : Int) : TileDesc := { tileAt 0 column with tilePosY := 3840 * row }

/-- The tiles of the second row are the most urgent ones. -/
def urgentRow : TilePrioritizer where
  getTilePriority tile := if tile.tilePosY = 3840 then .VERYHIGH else .NORMAL
  getViewIdsByInactivity := []

/-- Tiles of two rows, and one of another view. -/
def rowsQueue : List Event :=
  [.pushTileQueue (tileAtRow 1 8), .pushTileQueue (tileAtRow 1 10), .pushTileQueue (tileAtRow 2 3),
    .pushTileQueue (tileAtRow 2 15), .pushTileQueue (tileAt 1 0)]

theorem popTileQueue_withinSpan_row : ∃ q, Run.run step {} rowsQueue = some q ∧ ∃ combined priority q',
    q.popTileQueue urgentRow = some (combined, priority, q') ∧
      combined.tiles = [tileAtRow 1 8, tileAtRow 1 10, tileAtRow 2 3, tileAtRow 2 15] ∧ WithinSpan combined ∧
        ¬ q.PopsBeyond urgentRow ∧ ¬ q.PopsOverfull urgentRow := by
  obtain ⟨q, hrun, hempty, combined, priority, q', hpop, htiles⟩ : ∃ q, Run.run step {} rowsQueue = some q ∧
      q.isTileQueueEmpty = false ∧ ∃ combined priority q', q.popTileQueue urgentRow = some (combined, priority, q') ∧
        combined.tiles = [tileAtRow 1 8, tileAtRow 1 10, tileAtRow 2 3, tileAtRow 2 15] :=
    ⟨_, rfl, rfl, _, _, _, rfl, rfl⟩
  have hreach : Run.Reachable (fun q => q = {}) step InInt q :=
    .of_run_of_ok (.start rfl) (by simp [rowsQueue, InInt, Event.tiles, tileAtRow, tileAt, intMax]) hrun
  have hspan : WithinSpan combined := by
    refine (withinSpan_iff (accepted_of_popped hreach hpop) ?_).2 ?_
    · rw [htiles]
      decide
    · rw [htiles]
      decide
  exact ⟨q, hrun, combined, priority, q', hpop, htiles, hspan,
    (popTileQueue_withinSpan hreach hempty).1 ⟨combined, priority, q', hpop, hspan⟩⟩

/-- One tile, and two tiles of the row below it, eight columns to the left and to the right. -/
def spreadQueue : KitQueue :=
  ((({} : KitQueue).pushTileQueue (tileAtRow 1 8)).pushTileQueue (tileAtRow 2 0)).pushTileQueue (tileAtRow 2 16)

/-- They are combined: 17 columns. -/
theorem not_popTileQueue_withinSpan : ¬ ∀ q : KitQueue, Run.Reachable (fun q => q = {}) step InInt q → ∀ prio,
    q.isTileQueueEmpty = false → ∀ combined priority q',
      q.popTileQueue prio = some (combined, priority, q') → WithinSpan combined := by
  intro hall
  have hreach : Run.Reachable (fun q => q = {}) step InInt spreadQueue :=
    .next (e := .pushTileQueue (tileAtRow 2 16))
      (.next (e := .pushTileQueue (tileAtRow 2 0))
        (.next (e := .pushTileQueue (tileAtRow 1 8)) (.start rfl)
          (by simp [InInt, Event.tiles, tileAtRow, tileAt, intMax]) rfl)
        (by simp [InInt, Event.tiles, tileAtRow, tileAt, intMax]) rfl)
      (by simp [InInt, Event.tiles, tileAtRow, tileAt, intMax]) rfl
  obtain ⟨combined, priority, q', hpop, htiles⟩ : ∃ combined priority q',
      spreadQueue.popTileQueue urgentRow = some (combined, priority, q') ∧
        combined.tiles = [tileAtRow 1 8, tileAtRow 2 0, tileAtRow 2 16] := ⟨_, _, _, rfl, rfl⟩
  have hcolumns := (hall _ hreach urgentRow (by rfl) _ _ _ hpop).columns (tileAtRow 2 0)
    (by simp [htiles]) (tileAtRow 2 16) (by simp [htiles])
  revert hcolumns
  decide

end KitQueue

end CollaboraOnline
