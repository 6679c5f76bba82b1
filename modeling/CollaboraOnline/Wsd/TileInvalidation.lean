import CollaboraOnline.Wsd.TileDescText

/-!
# Invalidated tiles

An `invalidatetiles:` message names a rectangle, or everything, in a part and a mode; the cached tiles that intersect
it are marked invalid.  The rectangle and the test compute with `int`.
-/

namespace CollaboraOnline

/-! ### Rectangles -/

namespace Util

structure Rectangle where
  x1 : Int
  y1 : Int
  x2 : Int
  y2 : Int
deriving DecidableEq

namespace Rectangle

/-- The constructor with an extent: what exceeds the largest `int` is dropped. -/
def ofExtent (x y width height : Int) : Rectangle :=
  { x1 := x, y1 := y, x2 := if x + width ≤ intMax then x + width else x,
    y2 := if y + height ≤ intMax then y + height else y }

def getLeft (r : Rectangle) : Int := r.x1

def getTop (r : Rectangle) : Int := r.y1

def getWidth (r : Rectangle) : Int := if -intMax - 1 < r.x2 - r.x1 then r.x2 - r.x1 else -intMax - 1

def getHeight (r : Rectangle) : Int := if -intMax - 1 < r.y2 - r.y1 then r.y2 - r.y1 else -intMax - 1

end Rectangle

end Util

open Util (Rectangle)

/-! ### The message -/

namespace COOLProtocol

/-- The number in front of a text, if there is a digit; not cut off. -/
def longFrom (s : List Char) : Option Int :=
  let (negative, s) := sign (s.dropWhile isspace)
  let digits := s.takeWhile Char.isDigit
  if digits = [] then none else some (if negative then -(decimal digits : Int) else decimal digits)

/-- `Util::i32FromString`: what is no `long` fails, what is no `int` wraps. -/
def stringToInteger (input : List Char) : Option Int :=
  (longFrom input).bind fun value => if -(2 ^ 63 : Int) ≤ value ∧ value < 2 ^ 63 then some (wrapInt value) else none

def getNonNegTokenInteger (token name : List Char) : Option Int := (tokenInteger name token).filter (0 ≤ ·)

end COOLProtocol

/-- What a message says. -/
structure Invalidation where
  part : Int
  mode : Int
  x : Int
  y : Int
  width : Int
  height : Int
deriving DecidableEq

namespace Invalidation

open COOLProtocol

def everything (part mode : Int) : Invalidation := ⟨part, mode, 0, 0, intMax, intMax⟩

def rectangle (m : Invalidation) : Rectangle := .ofExtent m.x m.y m.width m.height

/-- The tokens from the position on. -/
def area (part mode : Int) (x y width height wid : List Char) : Option Invalidation := do
  let x ← getNonNegTokenInteger x "x".toList
  let y ← getNonNegTokenInteger y "y".toList
  let width ← getNonNegTokenInteger width "width".toList
  let height ← getNonNegTokenInteger height "height".toList
  if (StringVector.getUInt32 wid "wid".toList 0).1 then some ⟨part, mode, x, y, width, height⟩ else none

/-- `none` for a message that is not expected. -/
def parseInvalidateMsg (tiles : List Char) : Option Invalidation :=
  match tokenize tiles with
  | [_, empty] => if empty = "EMPTY".toList then some (everything (-1) 0) else none
  | [_, empty, _] => if empty = "EMPTY,".toList then some (everything (-1) 0) else none
  | [_, empty, part, _] => if empty = "EMPTY,".toList then (stringToInteger part).map (everything · 0) else none
  | [_, empty, part, mode, _] =>
    if empty = "EMPTY,".toList then
      (stringToInteger part).bind fun part => (stringToInteger mode).map (everything part)
    else none
  | [_, part, x, y, width, height, wid] => (tokenInteger "part".toList part).bind fun part =>
    area part 0 x y width height wid
  | [_, part, mode, x, y, width, height, wid] =>
    (tokenInteger "part".toList part).bind fun part =>
      (tokenInteger "mode".toList mode).bind fun mode => area part mode x y width height wid
  | _ => none

end Invalidation

/-! ### The test -/

namespace TileCache

def intersectsTile (tileDesc : TileDesc) (part mode x y width height canonicalViewId : Int) : Bool :=
  if part ≠ -1 ∧ tileDesc.part ≠ part then false
  else if mode ≠ tileDesc.mode then false
  else if canonicalViewId ≠ tileDesc.canonicalViewId then false
  else
    let left := max x tileDesc.tilePosX
    let right := min (wrapInt (x + width)) (wrapInt (tileDesc.tilePosX + tileDesc.tileWidth))
    let top := max y tileDesc.tilePosY
    let bottom := min (wrapInt (y + height)) (wrapInt (tileDesc.tilePosY + tileDesc.tileHeight))
    left ≤ right && top ≤ bottom

/-- `invalidateTiles` with a message that is expected. -/
def invalidateTilesMsg (c : TileCache) (m : Invalidation) (canonicalViewId : Int) : TileCache :=
  c.invalidateTiles fun desc => intersectsTile desc m.part m.mode m.rectangle.getLeft m.rectangle.getTop
    m.rectangle.getWidth m.rectangle.getHeight canonicalViewId

end TileCache

/-! ### Sums of two numbers -/

theorem wrapInt_of_nonneg {n : Int} (h : 0 ≤ n) (hmax : n < 2 ^ 32) :
    wrapInt n = if n ≤ intMax then n else n - 2 ^ 32 := by
  unfold wrapInt intMax
  rw [Int.bmod_def]
  norm_num
  split <;> split <;> omega

theorem wrapInt_of_bounds {n : Int} (h : -intMax ≤ n ∧ n ≤ intMax) : wrapInt n = n := by
  unfold wrapInt intMax at *
  rw [Int.bmod_def]
  norm_num
  split <;> omega

theorem wrapInt_bounds (n : Int) : -intMax - 1 ≤ wrapInt n ∧ wrapInt n ≤ intMax := by
  unfold wrapInt intMax
  rw [Int.bmod_def]
  norm_num
  split <;> omega

namespace Invalidation

/-- The numbers of a rectangle: neither is negative, and each is an `int`. -/
structure WellFormed (m : Invalidation) : Prop where
  x : 0 ≤ m.x ∧ m.x ≤ intMax
  y : 0 ≤ m.y ∧ m.y ≤ intMax
  width : 0 ≤ m.width ∧ m.width ≤ intMax
  height : 0 ≤ m.height ∧ m.height ≤ intMax

theorem everything_wellFormed (part mode : Int) : (everything part mode).WellFormed := by
  have hzero : (0 : Int) ≤ 0 ∧ 0 ≤ intMax := by decide
  have hmax : 0 ≤ intMax ∧ intMax ≤ intMax := by decide
  exact ⟨hzero, hzero, hmax, hmax⟩

theorem getNonNegTokenInteger_bounds {token name : List Char} {n : Int}
    (h : COOLProtocol.getNonNegTokenInteger token name = some n) : 0 ≤ n ∧ n ≤ intMax := by
  unfold COOLProtocol.getNonNegTokenInteger COOLProtocol.tokenInteger at h
  obtain ⟨hn, hpos⟩ := Option.filter_eq_some_iff.1 h
  split at hn
  · obtain ⟨value, -, rfl⟩ := Option.map_eq_some_iff.1 hn
    exact ⟨by simpa using hpos, (wrapInt_bounds value).2⟩
  · cases hn

theorem area_wellFormed {part mode : Int} {x y width height wid : List Char} {m : Invalidation}
    (h : area part mode x y width height wid = some m) : m.WellFormed := by
  unfold area at h
  obtain ⟨nx, hx, h⟩ := Option.bind_eq_some_iff.1 h
  obtain ⟨ny, hy, h⟩ := Option.bind_eq_some_iff.1 h
  obtain ⟨nwidth, hwidth, h⟩ := Option.bind_eq_some_iff.1 h
  obtain ⟨nheight, hheight, h⟩ := Option.bind_eq_some_iff.1 h
  split at h
  · obtain rfl := Option.some.inj h
    exact ⟨getNonNegTokenInteger_bounds hx, getNonNegTokenInteger_bounds hy, getNonNegTokenInteger_bounds hwidth,
      getNonNegTokenInteger_bounds hheight⟩
  · cases h

theorem parseInvalidateMsg_wellFormed {tiles : List Char} {m : Invalidation} (h : parseInvalidateMsg tiles = some m) :
    m.WellFormed := by
  unfold parseInvalidateMsg at h
  split at h
  · obtain ⟨-, h⟩ := Option.ite_none_right_eq_some.1 h
    exact Option.some.inj h ▸ everything_wellFormed _ _
  · obtain ⟨-, h⟩ := Option.ite_none_right_eq_some.1 h
    exact Option.some.inj h ▸ everything_wellFormed _ _
  · obtain ⟨-, h⟩ := Option.ite_none_right_eq_some.1 h
    obtain ⟨part, -, rfl⟩ := Option.map_eq_some_iff.1 h
    exact everything_wellFormed _ _
  · obtain ⟨-, h⟩ := Option.ite_none_right_eq_some.1 h
    obtain ⟨part, -, h⟩ := Option.bind_eq_some_iff.1 h
    obtain ⟨mode, -, rfl⟩ := Option.map_eq_some_iff.1 h
    exact everything_wellFormed _ _
  · obtain ⟨part, -, h⟩ := Option.bind_eq_some_iff.1 h
    exact area_wellFormed h
  · obtain ⟨part, -, h⟩ := Option.bind_eq_some_iff.1 h
    obtain ⟨mode, -, h⟩ := Option.bind_eq_some_iff.1 h
    exact area_wellFormed h
  · cases h

/-- The points of the rectangle that the message names. -/
def Contains (m : Invalidation) (px py : Int) : Prop :=
  m.x ≤ px ∧ px < m.x + m.width ∧ m.y ≤ py ∧ py < m.y + m.height

instance (m : Invalidation) (px py : Int) : Decidable (m.Contains px py) := by
  unfold Contains
  infer_instance

/-- The message is about the part, the mode and the view of the tile. -/
def Covers (m : Invalidation) (canonicalViewId : Int) (t : TileDesc) : Prop :=
  (m.part = -1 ∨ m.part = t.part) ∧ m.mode = t.mode ∧ canonicalViewId = t.canonicalViewId

end Invalidation

namespace TileDesc

/-- The points of the tile. -/
def Contains (t : TileDesc) (px py : Int) : Prop :=
  t.tilePosX ≤ px ∧ px < t.tilePosX + t.tileWidth ∧ t.tilePosY ≤ py ∧ py < t.tilePosY + t.tileHeight

instance (t : TileDesc) (px py : Int) : Decidable (t.Contains px py) := by
  unfold Contains
  infer_instance

/-- The ends of the tile are `int`s, and so are those of the rectangle, unless the tile reaches its start. -/
def NoOverflow (t : TileDesc) (m : Invalidation) : Prop :=
  t.tilePosX + t.tileWidth ≤ intMax ∧ t.tilePosY + t.tileHeight ≤ intMax ∧
    (m.x + m.width ≤ intMax ∨ t.tilePosX ≤ m.x) ∧ (m.y + m.height ≤ intMax ∨ t.tilePosY ≤ m.y)

end TileDesc

namespace TileCache

/-- When the code finds that two ranges meet, of those that do. -/
theorem range_iff {x width pos size p : Int} (hx : 0 ≤ x ∧ x ≤ intMax) (hwidth : 0 ≤ width ∧ width ≤ intMax)
    (hpos : 0 ≤ pos ∧ pos ≤ intMax) (hsize : 0 < size ∧ size ≤ intMax) (hp : x ≤ p ∧ p < x + width)
    (hp' : pos ≤ p ∧ p < pos + size) :
    max x pos ≤ min (wrapInt (x + if x + width ≤ intMax then width else 0)) (wrapInt (pos + size)) ↔
      pos + size ≤ intMax ∧ (x + width ≤ intMax ∨ pos ≤ x) := by
  have hsum : x + (if x + width ≤ intMax then width else 0) < 2 ^ 32 ∧
    0 ≤ x + (if x + width ≤ intMax then width else 0) ∧
      x + (if x + width ≤ intMax then width else 0) ≤ intMax := by
    unfold intMax at *
    split <;> omega
  have hend : 0 ≤ pos + size ∧ pos + size < 2 ^ 32 := by
    unfold intMax at *
    omega
  rw [wrapInt_of_nonneg hsum.2.1 hsum.1, if_pos hsum.2.2, wrapInt_of_nonneg hend.1 hend.2]
  unfold intMax at *
  split <;> split <;> omega

theorem intersectsTile_iff {m : Invalidation} {t : TileDesc} {canonicalViewId : Int} (hm : m.WellFormed)
    (ht : t.IsTile) (hcovers : m.Covers canonicalViewId t) (hmeet : ∃ px py, m.Contains px py ∧ t.Contains px py) :
    intersectsTile t m.part m.mode m.rectangle.getLeft m.rectangle.getTop m.rectangle.getWidth m.rectangle.getHeight
      canonicalViewId = true ↔ t.NoOverflow m := by
  obtain ⟨hpart, hmode, hview⟩ := hcovers
  obtain ⟨px, py, ⟨hx, hx', hy, hy'⟩, htx, htx', hty, hty'⟩ := hmeet
  have hadmitted := ht.admitted
  unfold TileDesc.Admitted at hadmitted
  have hints := ht.ints
  simp only [List.forall_mem_cons, List.not_mem_nil, false_imp_iff, implies_true, and_true] at hints
  -- The width and the height of the rectangle are dropped if its ends are no `int`s.
  have hwidth : m.rectangle.getWidth = if m.x + m.width ≤ intMax then m.width else 0 := by
    have hbounds := hm.width
    unfold Invalidation.rectangle Rectangle.ofExtent Rectangle.getWidth
    unfold intMax at *
    dsimp only
    split <;> split <;> omega
  have hheight : m.rectangle.getHeight = if m.y + m.height ≤ intMax then m.height else 0 := by
    have hbounds := hm.height
    unfold Invalidation.rectangle Rectangle.ofExtent Rectangle.getHeight
    unfold intMax at *
    dsimp only
    split <;> split <;> omega
  have hposX : 0 ≤ t.tilePosX ∧ t.tilePosX ≤ intMax := by omega
  have hposY : 0 ≤ t.tilePosY ∧ t.tilePosY ≤ intMax := by omega
  have hrangeX := range_iff hm.x hm.width hposX (by omega) ⟨hx, hx'⟩ ⟨htx, htx'⟩
  have hrangeY := range_iff hm.y hm.height hposY (by omega) ⟨hy, hy'⟩ ⟨hty, hty'⟩
  have hleft : m.rectangle.getLeft = m.x := rfl
  have htop : m.rectangle.getTop = m.y := rfl
  have hpart' : ¬ (m.part ≠ -1 ∧ t.part ≠ m.part) := by
    rintro ⟨hne, hne'⟩
    obtain h | h := hpart
    · exact hne h
    · exact hne' h.symm
  unfold intersectsTile
  rw [if_neg hpart', if_neg (not_not.2 hmode), if_neg (not_not.2 hview), hwidth, hheight, hleft, htop]
  dsimp only
  rw [Bool.and_eq_true, decide_eq_true_eq, decide_eq_true_eq, hrangeX, hrangeY]
  constructor
  · rintro ⟨⟨hendX, hstartX⟩, hendY, hstartY⟩
    exact ⟨hendX, hendY, hstartX, hstartY⟩
  · rintro ⟨hendX, hendY, hstartX, hstartY⟩
    exact ⟨⟨hendX, hstartX⟩, hendY, hstartY⟩

/-- A cached tile that the message is about and that meets its rectangle is marked invalid, unless one of the sums is
no `int`. -/
theorem invalidateTiles_complete (c : TileCache) {tiles : List Char} {m : Invalidation} {canonicalViewId : Int}
    {e : CachedTile}
    (hm : Invalidation.parseInvalidateMsg tiles = some m) (he : e ∈ c.cache.entries) (ht : e.desc.IsTile)
    (hcovers : m.Covers canonicalViewId e.desc) (hmeet : ∃ px py, m.Contains px py ∧ e.desc.Contains px py) :
    (∃ e', (c.invalidateTilesMsg m canonicalViewId).cache.find e.key = some e' ∧ e'.tile.isValid = false) ↔
      e.tile.isValid = false ∨ e.desc.NoOverflow m := by
  have htest := intersectsTile_iff (Invalidation.parseInvalidateMsg_wellFormed hm) ht hcovers hmeet
  have hfind : (c.invalidateTilesMsg m canonicalViewId).cache.find e.key = some (invalidateEntry
      (fun desc => intersectsTile desc m.part m.mode m.rectangle.getLeft m.rectangle.getTop m.rectangle.getWidth
        m.rectangle.getHeight canonicalViewId) e) := by
    unfold invalidateTilesMsg TileCache.invalidateTiles
    rw [Table.find_map, Table.find_of_mem he, Option.map_some]
  rw [hfind, ← htest]
  unfold invalidateEntry
  constructor
  · rintro ⟨e', he', hvalid⟩
    obtain rfl := Option.some.inj he'
    split at hvalid
    · exact .inr ‹_›
    · exact .inl hvalid
  · intro h
    refine ⟨_, rfl, ?_⟩
    split
    · rfl
    · exact h.resolve_right ‹_›

/-- The tile in the second column. -/
def secondTile : TileDesc :=
  { canonicalViewId := 0, part := 0, mode := 0, width := 256, height := 256, tilePosX := 3840, tilePosY := 0
    tileWidth := 3840, tileHeight := 3840, ver := -1, imgSize := 0, id := -1, oldWireId := 0, wireId := 1 }

def secondEntry : CachedTile := ⟨secondTile, TileData.new 1 [90]⟩

def secondCache : TileCache := { TileCache.new false with cache := Table.empty.put secondEntry }

theorem invalidateTiles_secondTile : ∃ e', (secondCache.invalidateTilesMsg ⟨0, 0, 0, 0, intMax, intMax⟩ 0).cache.find
    secondEntry.key = some e' ∧ e'.tile.isValid = false :=
  (invalidateTiles_complete secondCache
    (by decide +kernel : Invalidation.parseInvalidateMsg
      "invalidatetiles: part=0 mode=0 x=0 y=0 width=2147483647 height=2147483647 wid=2".toList = _) List.mem_cons_self
    ⟨by decide, by decide, by decide⟩ ⟨by decide, by decide, by decide⟩ ⟨3840, 0, by decide, by decide⟩).2
    (.inr ⟨by decide, by decide, .inl (by decide), .inl (by decide)⟩)

/-- A rectangle from the first twip of the sheet on with the largest width loses it. -/
theorem not_invalidateTiles_complete :
    ¬ ∀ (c : TileCache) (tiles : List Char) (m : Invalidation) (canonicalViewId : Int)
    (e : CachedTile), Invalidation.parseInvalidateMsg tiles = some m → e ∈ c.cache.entries → e.desc.IsTile →
    m.Covers canonicalViewId e.desc → (∃ px py, m.Contains px py ∧ e.desc.Contains px py) →
    ∃ e', (c.invalidateTilesMsg m canonicalViewId).cache.find e.key = some e' ∧ e'.tile.isValid = false := by
  intro h
  obtain ⟨e', he', hvalid⟩ := h secondCache
    "invalidatetiles: part=0 mode=0 x=1 y=0 width=2147483647 height=2147483647 wid=2".toList
    ⟨0, 0, 1, 0, intMax, intMax⟩ 0 secondEntry (by decide +kernel) List.mem_cons_self
      ⟨by decide, by decide, by decide⟩
    ⟨by decide, by decide, by decide⟩ ⟨3840, 0, by decide, by decide⟩
  have hfind : (secondCache.invalidateTilesMsg ⟨0, 0, 1, 0, intMax, intMax⟩ 0).cache.find secondEntry.key =
      some secondEntry := by decide +kernel
  rw [hfind] at he'
  obtain rfl := Option.some.inj he'
  revert hvalid
  decide

end TileCache

end CollaboraOnline
