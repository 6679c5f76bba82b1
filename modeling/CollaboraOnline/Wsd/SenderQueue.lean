import CollaboraOnline.Lib.Conflation
import CollaboraOnline.Lib.Run
import CollaboraOnline.Wsd.TileDescText

/-!
# The queue of messages to a client

`enqueue` erases a queued message that the new one outdates: a tile, which is looked up by a hash and then compared, a
cursor, a part, the value of a progress bar.  The JSON parser that reads a view id is a parameter, `none` where it
throws.
-/

namespace CollaboraOnline

namespace TileDesc

/-- `operator==`. -/
def equals (t other : TileDesc) : Bool :=
  t.part == other.part && t.width == other.width && t.height == other.height && t.tilePosX == other.tilePosX &&
    t.tilePosY == other.tilePosY && t.tileWidth == other.tileWidth && t.tileHeight == other.tileHeight &&
    t.id == other.id && t.canonicalViewId == other.canonicalViewId && t.mode == other.mode

def equalityHash (t : TileDesc) : BitVec 32 :=
  let a := BitVec.ofInt 32 t.canonicalViewId <<< 17
  let b := BitVec.ofInt 32 t.tilePosX <<< 7
  let a := a ^^^ BitVec.ofInt 32 t.part
  let b := b ^^^ BitVec.ofInt 32 t.tilePosY
  let a := a ^^^ (BitVec.ofInt 32 t.mode <<< 30)
  let b := b ^^^ (BitVec.ofInt 32 t.tileWidth <<< 20)
  let a := a ^^^ (BitVec.ofInt 32 t.width <<< 19)
  a ^^^ b

theorem equals_iff (t other : TileDesc) : t.equals other = true ↔ t.key = other.key ∧ t.id = other.id := by
  obtain ⟨⟨_, _, _, _, _, _, _, _, _⟩, _, _, _, _, _⟩ := t
  obtain ⟨⟨_, _, _, _, _, _, _, _, _⟩, _, _, _, _, _⟩ := other
  simp only [equals, key, Bool.and_eq_true, beq_iff_eq, TileKey.mk.injEq]
  tauto

theorem equalityHash_congr {t other : TileDesc} (h : t.key = other.key) : t.equalityHash = other.equalityHash := by
  obtain ⟨tileKey, _, _, _, _, _⟩ := t
  obtain ⟨otherKey, _, _, _, _, _⟩ := other
  obtain rfl : tileKey = otherKey := h
  rfl

end TileDesc

/-- A message that is sent, with the hash that `enqueue` sets. -/
structure SentMessage where
  data : List Char
  hash : BitVec 32 := 0
deriving DecidableEq

namespace SentMessage

def tokens (m : SentMessage) : List (List Char) := COOLProtocol.tokenize m.data

def firstToken (m : SentMessage) : List Char := m.tokens.headD []

def firstTokenMatches (m : SentMessage) (target : List Char) : Bool := m.tokens.head? == some target

def firstLine (m : SentMessage) : List Char := m.data.takeWhile (· != '\n')

def contains (m : SentMessage) (msg : List Char) : Bool := m.data.tails.any msg.isPrefixOf

def jsonString (m : SentMessage) : List Char :=
  match m.tokens with
  | first :: second :: _ =>
    if second.head? = some '{' ∨ second.head? = some '[' then m.data.drop first.length else []
  | _ => []

def setHash (m : SentMessage) (hash : BitVec 32) : SentMessage := { m with hash := hash }

end SentMessage

structure SenderQueue where
  queue : List SentMessage := []
  terminationFlag : Bool := false
  /-- The messages of the calls of `enqueue` that returned, and those that `dequeue` gave. -/
  log : List (Bool × SentMessage) := []
deriving DecidableEq

namespace SenderQueue

variable (viewIdOf : List Char → Option (List Char))

def setvalueTag : List Char := "\"id\":\"setvalue\"".toList

/-- `find_if` and `erase`; `none` where the predicate throws. -/
def eraseFound (p : SentMessage → Option Bool) : List SentMessage → Option (List SentMessage)
  | [] => some []
  | cur :: queue =>
    match p cur with
    | none => none
    | some true => some queue
    | some false => (eraseFound p queue).map (cur :: ·)

/-- Whether the queued message is the tile. -/
def isTile (newTile : TileDesc) (newTilePosHash : BitVec 32) (cur : SentMessage) : Option Bool :=
  if !cur.firstTokenMatches "tile:".toList then some false
  else if newTilePosHash ≠ cur.hash then some false
  else (TileDesc.parse cur.firstLine).map fun tile => newTile.equals tile

/-- Whether it is the cursor of the view. -/
def isViewCursor (viewId : List Char) (cur : SentMessage) : Option Bool :=
  if cur.firstTokenMatches "invalidateviewcursor:".toList then (viewIdOf cur.jsonString).map fun id => viewId == id
  else some false

/-- The queue without what the item outdates, and the item with its hash; `none` where it throws. -/
def deduplicate (queue : List SentMessage) (item : SentMessage) : Option (List SentMessage × SentMessage) :=
  let command := item.firstToken
  if command = "tile:".toList then
    match TileDesc.parse item.firstLine with
    | none => none
    | some newTile =>
      (eraseFound (isTile newTile newTile.equalityHash) queue).map fun queue =>
      (queue, item.setHash newTile.equalityHash)
  else if command = "invalidatecursor:".toList ∨ command = "setpart:".toList then
    (eraseFound (fun cur => some (cur.firstTokenMatches command)) queue).map fun queue => (queue, item)
  else if command = "progress:".toList then
    if item.contains setvalueTag then
      (eraseFound (fun cur => some (cur.firstTokenMatches command && cur.contains setvalueTag)) queue).map
        fun queue => (queue, item)
    else some (queue, item)
  else if command = "invalidateviewcursor:".toList then
    match viewIdOf item.jsonString with
    | none => none
    | some viewId => (eraseFound (isViewCursor viewIdOf viewId) queue).map fun queue => (queue, item)
  else some (queue, item)

/-- An item that throws leaves the queue as it is. -/
def enqueue (s : SenderQueue) (data : List Char) : SenderQueue :=
  if s.terminationFlag then { s with log := s.log ++ [(true, { data := data })] }
  else
    match deduplicate viewIdOf s.queue { data := data } with
    | none => s
    | some (queue, item) => { s with queue := queue ++ [item], log := s.log ++ [(true, item)] }

def dequeue (s : SenderQueue) : SenderQueue :=
  if s.terminationFlag then s
  else
    match s.queue with
    | [] => s
    | item :: queue => { s with queue := queue, log := s.log ++ [(false, item)] }

inductive Event
  | enqueue (data : List Char)
  | dequeue
  | setTerminationFlag

def step (s : SenderQueue) : Event → Option SenderQueue
  | .enqueue data => some (s.enqueue viewIdOf data)
  | .dequeue => some s.dequeue
  | .setTerminationFlag => some { s with terminationFlag := true }

def IsInit (s : SenderQueue) : Prop := s = {}

/-! ### The kinds of messages -/

/-- What a new message outdates. -/
inductive Kind
  | tile (key : TileKey) (id : Int)
  | invalidatecursor
  | setpart
  | progressValue
  | invalidateviewcursor (viewId : List Char)
deriving DecidableEq

def kindOf (m : SentMessage) : Option Kind :=
  if m.firstToken = "tile:".toList then (TileDesc.parse m.firstLine).map fun tile => .tile tile.key tile.id
  else if m.firstToken = "invalidatecursor:".toList then some .invalidatecursor
  else if m.firstToken = "setpart:".toList then some .setpart
  else if m.firstToken = "progress:".toList then if m.contains setvalueTag then some .progressValue else none
  else if m.firstToken = "invalidateviewcursor:".toList then (viewIdOf m.jsonString).map .invalidateviewcursor
  else none

/-- The queue conflates the messages by their kinds. -/
def Lossless (s : SenderQueue) : Prop := Conflation.Lossless (kindOf viewIdOf) s.queue s.log

/-- A queued tile has its hash, and a queued message was parsed. -/
structure Known (m : SentMessage) : Prop where
  tile : m.firstToken = "tile:".toList → ∃ tile, TileDesc.parse m.firstLine = some tile ∧ m.hash = tile.equalityHash
  viewId : m.firstToken = "invalidateviewcursor:".toList → ∃ viewId, viewIdOf m.jsonString = some viewId

variable {viewIdOf} {m item : SentMessage} {queue : List SentMessage}

theorem firstTokenMatches_eq {target : List Char} (h : target ≠ []) :
    m.firstTokenMatches target = decide (m.firstToken = target) := by
  unfold SentMessage.firstTokenMatches SentMessage.firstToken
  cases m.tokens with
  | nil => simp [h.symm]
  | cons t ts => exact (Bool.beq_eq_decide_eq _ _).trans (by simp)

theorem eraseFound_eq {p : SentMessage → Option Bool} {b : SentMessage → Bool} (h : ∀ m ∈ queue, p m = some (b m))
    (hone : (queue.filter b).length ≤ 1) : eraseFound p queue = some (queue.filter fun m => !b m) := by
  induction queue with
  | nil => rfl
  | cons m queue ih =>
    obtain ⟨hm, hq⟩ := List.forall_mem_cons.1 h
    rw [eraseFound, hm]
    cases hb : b m with
    | true =>
      -- It is the only one.
      rw [List.filter_cons_of_pos hb, List.length_cons] at hone
      have hnil : queue.filter b = [] := List.length_eq_zero_iff.1 (by omega)
      rw [List.filter_cons_of_neg (by simp [hb]), List.filter_eq_self.2]
      intro m hm
      simpa using List.filter_eq_nil_iff.1 hnil m hm
    | false =>
      rw [List.filter_cons_of_neg (by simp [hb])] at hone
      rw [List.filter_cons_of_pos (by simp [hb]), ih hq hone]
      rfl

section Kinds

variable (hm : Known viewIdOf m)
include hm

/-- The search by the hash finds what the comparison finds. -/
theorem isTile_eq (newTile : TileDesc) :
    isTile newTile newTile.equalityHash m =
      some (decide (kindOf viewIdOf m = some (.tile newTile.key newTile.id))) := by
  unfold isTile
  rw [firstTokenMatches_eq (by decide)]
  by_cases htoken : m.firstToken = "tile:".toList
  · obtain ⟨tile, hparse, hhash⟩ := hm.tile htoken
    have hkind : kindOf viewIdOf m = some (.tile tile.key tile.id) := by
      unfold kindOf
      rw [if_pos htoken, hparse]
      rfl
    rw [decide_eq_true htoken, hkind, hhash, hparse]
    simp only [Bool.not_true, Bool.false_eq_true, if_false, Option.map_some]
    by_cases heq : newTile.equals tile = true
    · obtain ⟨hkey, hid⟩ := (TileDesc.equals_iff _ _).1 heq
      rw [if_neg (not_not.2 (TileDesc.equalityHash_congr hkey)), heq, hkey, hid, decide_eq_true rfl]
    · have hne : ¬ (some (Kind.tile tile.key tile.id) = some (.tile newTile.key newTile.id)) := by
        intro h
        obtain ⟨hkey, hid⟩ := Kind.tile.inj (Option.some.inj h)
        exact heq ((TileDesc.equals_iff _ _).2 ⟨hkey.symm, hid.symm⟩)
      rw [decide_eq_false hne, Bool.eq_false_iff.2 heq]
      split <;> rfl
  · have hne : kindOf viewIdOf m ≠ some (.tile newTile.key newTile.id) := by
      unfold kindOf
      rw [if_neg htoken]
      split_ifs <;> simp
    rw [decide_eq_false htoken, decide_eq_false hne]
    rfl

theorem isViewCursor_eq (viewId : List Char) :
    isViewCursor viewIdOf viewId m = some (decide (kindOf viewIdOf m = some (.invalidateviewcursor viewId))) := by
  unfold isViewCursor
  rw [firstTokenMatches_eq (by decide)]
  by_cases htoken : m.firstToken = "invalidateviewcursor:".toList
  · obtain ⟨id, hid⟩ := hm.viewId htoken
    have hkind : kindOf viewIdOf m = some (.invalidateviewcursor id) := by
      unfold kindOf
      rw [htoken, if_neg (by decide), if_neg (by decide), if_neg (by decide), if_neg (by decide), if_pos rfl, hid]
      rfl
    rw [decide_eq_true htoken, hkind, hid, if_pos rfl]
    simp [eq_comm, Bool.beq_eq_decide_eq]
  · have hne : kindOf viewIdOf m ≠ some (.invalidateviewcursor viewId) := by
      unfold kindOf
      rw [if_neg htoken]
      split_ifs <;> simp
    rw [decide_eq_false htoken, decide_eq_false hne]
    rfl

end Kinds

theorem kindOf_invalidatecursor (viewIdOf : List Char → Option (List Char)) (m : SentMessage) :
    decide (m.firstToken = "invalidatecursor:".toList) = decide (kindOf viewIdOf m = some .invalidatecursor) := by
  unfold kindOf
  split_ifs with htile hcursor <;> simp_all

theorem kindOf_setpart (viewIdOf : List Char → Option (List Char)) (m : SentMessage) :
    decide (m.firstToken = "setpart:".toList) = decide (kindOf viewIdOf m = some .setpart) := by
  unfold kindOf
  split_ifs with htile hcursor <;> simp_all

theorem kindOf_progress (viewIdOf : List Char → Option (List Char)) (m : SentMessage) :
    (decide (m.firstToken = "progress:".toList) && m.contains setvalueTag) =
      decide (kindOf viewIdOf m = some .progressValue) := by
  unfold kindOf
  split_ifs with htile hcursor <;> simp_all

/-- The queue that `deduplicate` leaves, with the item at its end, is conflated. -/
theorem deduplicate_spec {queue' : List SentMessage} {item' : SentMessage} (hknown : ∀ m ∈ queue, Known viewIdOf m)
    (hone : ∀ k, (queue.filter fun m => kindOf viewIdOf m = some k).length ≤ 1)
    (h : deduplicate viewIdOf queue item = some (queue', item')) :
    queue' ++ [item'] = Conflation.push (kindOf viewIdOf) queue item' ∧ Known viewIdOf item' := by
  -- A predicate that finds the items of the kind leaves the others.
  have hfound {k : Kind} {p : SentMessage → Option Bool} {item₀ : SentMessage}
      (hp : ∀ m ∈ queue, p m = some (decide (kindOf viewIdOf m = some k))) (hkind : kindOf viewIdOf item₀ = some k)
      (h : (eraseFound p queue).map (fun queue => (queue, item₀)) = some (queue', item')) :
      item' = item₀ ∧ queue' ++ [item'] = Conflation.push (kindOf viewIdOf) queue item' := by
    rw [eraseFound_eq hp (hone k), Option.map_some] at h
    obtain ⟨rfl, rfl⟩ := Prod.mk.inj (Option.some.inj h)
    refine ⟨rfl, ?_⟩
    unfold Conflation.push
    rw [hkind]
    simp
  have hkept (hkind : kindOf viewIdOf item = none) (h : some (queue, item) = some (queue', item')) :
      item' = item ∧ queue' ++ [item'] = Conflation.push (kindOf viewIdOf) queue item' := by
    obtain ⟨rfl, rfl⟩ := Prod.mk.inj (Option.some.inj h)
    refine ⟨rfl, ?_⟩
    unfold Conflation.push
    rw [hkind]
  unfold deduplicate at h
  dsimp only at h
  by_cases htile : item.firstToken = "tile:".toList
  · rw [if_pos htile] at h
    cases hparse : TileDesc.parse item.firstLine with
    | none =>
      rw [hparse] at h
      cases h
    | some newTile =>
      rw [hparse] at h
      have hkind : kindOf viewIdOf (item.setHash newTile.equalityHash) = some (.tile newTile.key newTile.id) := by
        have hline : (item.setHash newTile.equalityHash).firstLine = item.firstLine := rfl
        unfold kindOf
        rw [if_pos (show (item.setHash newTile.equalityHash).firstToken = _ from htile), hline, hparse]
        rfl
      obtain ⟨rfl, hqueue⟩ := hfound (fun m hm => isTile_eq (hknown m hm) newTile) hkind h
      refine ⟨hqueue, fun _ => ⟨newTile, hparse, rfl⟩, fun hview => ?_⟩
      have hboth : item.firstToken = "invalidateviewcursor:".toList := hview
      rw [htile] at hboth
      exact absurd hboth (by decide)
  rw [if_neg htile] at h
  have hother (hview : item.firstToken ≠ "invalidateviewcursor:".toList) : Known viewIdOf item :=
    ⟨fun h => absurd h htile, fun h => absurd h hview⟩
  by_cases hcursor : item.firstToken = "invalidatecursor:".toList
  · rw [if_pos (.inl hcursor)] at h
    have hkind : kindOf viewIdOf item = some .invalidatecursor := by
      simpa [hcursor] using kindOf_invalidatecursor viewIdOf item
    have hp : ∀ m ∈ queue, some (m.firstTokenMatches item.firstToken) =
        some (decide (kindOf viewIdOf m = some .invalidatecursor)) := by
      intro m _
      rw [hcursor, firstTokenMatches_eq (by decide), kindOf_invalidatecursor viewIdOf]
    obtain ⟨rfl, hqueue⟩ := hfound hp hkind h
    exact ⟨hqueue, hother (by rw [hcursor]; decide)⟩
  by_cases hpart : item.firstToken = "setpart:".toList
  · rw [if_pos (.inr hpart)] at h
    have hkind : kindOf viewIdOf item = some .setpart := by
      simpa [hpart] using kindOf_setpart viewIdOf item
    have hp : ∀ m ∈ queue, some (m.firstTokenMatches item.firstToken) =
        some (decide (kindOf viewIdOf m = some .setpart)) := by
      intro m _
      rw [hpart, firstTokenMatches_eq (by decide), kindOf_setpart viewIdOf]
    obtain ⟨rfl, hqueue⟩ := hfound hp hkind h
    exact ⟨hqueue, hother (by rw [hpart]; decide)⟩
  rw [if_neg (not_or.2 ⟨hcursor, hpart⟩)] at h
  by_cases hprogress : item.firstToken = "progress:".toList
  · rw [if_pos hprogress] at h
    have hknown' : Known viewIdOf item := hother (by rw [hprogress]; decide)
    by_cases hvalue : item.contains setvalueTag = true
    · rw [if_pos hvalue] at h
      have hkind : kindOf viewIdOf item = some .progressValue := by
        simpa [hprogress, hvalue] using kindOf_progress viewIdOf item
      have hp : ∀ m ∈ queue, some (m.firstTokenMatches item.firstToken && m.contains setvalueTag) =
          some (decide (kindOf viewIdOf m = some .progressValue)) := by
        intro m _
        rw [hprogress, firstTokenMatches_eq (by decide), kindOf_progress viewIdOf]
      obtain ⟨rfl, hqueue⟩ := hfound hp hkind h
      exact ⟨hqueue, hknown'⟩
    · rw [if_neg hvalue] at h
      have hkind : kindOf viewIdOf item = none := by
        unfold kindOf
        rw [if_neg htile, if_neg hcursor, if_neg hpart, if_pos hprogress, if_neg hvalue]
      obtain ⟨rfl, hqueue⟩ := hkept hkind h
      exact ⟨hqueue, hknown'⟩
  rw [if_neg hprogress] at h
  by_cases hview : item.firstToken = "invalidateviewcursor:".toList
  · rw [if_pos hview] at h
    cases hid : viewIdOf item.jsonString with
    | none =>
      rw [hid] at h
      cases h
    | some viewId =>
      rw [hid] at h
      have hkind : kindOf viewIdOf item = some (.invalidateviewcursor viewId) := by
        unfold kindOf
        rw [if_neg htile, if_neg hcursor, if_neg hpart, if_neg hprogress, if_pos hview, hid]
        rfl
      obtain ⟨rfl, hqueue⟩ := hfound (fun m hm => isViewCursor_eq (hknown m hm) viewId) hkind h
      exact ⟨hqueue, fun h => absurd h htile, fun _ => ⟨viewId, hid⟩⟩
  · rw [if_neg hview] at h
    have hkind : kindOf viewIdOf item = none := by
      unfold kindOf
      rw [if_neg htile, if_neg hcursor, if_neg hpart, if_neg hprogress, if_neg hview]
    obtain ⟨rfl, hqueue⟩ := hkept hkind h
    exact ⟨hqueue, hother hview⟩

/-! ### Runs -/

/-- The invariant. -/
structure Inv (viewIdOf : List Char → Option (List Char)) (s : SenderQueue) : Prop where
  lossless : s.Lossless viewIdOf
  known : ∀ m ∈ s.queue, Known viewIdOf m

/-- The guard: the server does not terminate. -/
def Running (s : SenderQueue) (_ : Event) : Prop := s.terminationFlag = false

instance (s : SenderQueue) (e : Event) : Decidable (s.Running e) :=
    inferInstanceAs (Decidable (s.terminationFlag = false))

variable {s s' : SenderQueue}

theorem Inv.enqueue (h : s.Inv viewIdOf) (hrun : s.terminationFlag = false) (data : List Char) :
    (s.enqueue viewIdOf data).Inv viewIdOf := by
  unfold SenderQueue.enqueue
  rw [if_neg (by simp [hrun])]
  cases hd : deduplicate viewIdOf s.queue { data := data } with
  | none => exact h
  | some result =>
    obtain ⟨queue, item⟩ := result
    obtain ⟨hqueue, hitem⟩ := deduplicate_spec h.known (fun k => h.lossless.length_filter_le k) hd
    constructor
    · show Conflation.Lossless (kindOf viewIdOf) (queue ++ [item]) (s.log ++ [(true, item)])
      rw [hqueue]
      exact h.lossless.push item
    · intro m hm
      have hm : m ∈ queue ++ [item] := hm
      rw [hqueue] at hm
      rcases List.mem_append.1 ((Conflation.push_sublist _ _).subset hm) with hm | hm
      · exact h.known m hm
      · rw [List.mem_singleton.1 hm]
        exact hitem

theorem Inv.dequeue (h : s.Inv viewIdOf) : s.dequeue.Inv viewIdOf := by
  unfold SenderQueue.dequeue
  split
  · exact h
  · cases hq : s.queue with
    | nil => exact h
    | cons item queue =>
      have hlossless : Conflation.Lossless (kindOf viewIdOf) (item :: queue) s.log := hq ▸ h.lossless
      exact ⟨hlossless.pop, fun m hm => h.known m (hq ▸ List.mem_cons_of_mem _ hm)⟩

theorem step_inv {e : Event} (h : s.Inv viewIdOf) (hrun : Running s e) (hs : step viewIdOf s e = some s') :
    s'.Inv viewIdOf := by
  cases e with
  | enqueue data =>
    obtain rfl := Option.some.inj hs
    exact h.enqueue hrun data
  | dequeue =>
    obtain rfl := Option.some.inj hs
    exact h.dequeue
  | setTerminationFlag =>
    obtain rfl := Option.some.inj hs
    exact ⟨h.lossless, h.known⟩

/-- While the server runs, the queue keeps of each kind the newest message since the last one was sent, and sends the
others once and in order; equal tiles have the same hash. -/
theorem reachable_lossless (viewIdOf : List Char → Option (List Char)) {s : SenderQueue}
    (h : Run.Reachable IsInit (step viewIdOf) Running s) :
    s.Lossless viewIdOf ∧ ∀ t other : TileDesc, t.equals other = true → t.equalityHash = other.equalityHash := by
  have hinv : s.Inv viewIdOf := by
    refine h.invariant (Inv viewIdOf) ?_ fun s e s' _ hi hrun hs => step_inv hi hrun hs
    rintro s rfl
    exact ⟨Conflation.Lossless.nil _, fun m hm => absurd hm List.not_mem_nil⟩
  refine ⟨hinv.lossless, fun t other heq => ?_⟩
  exact TileDesc.equalityHash_congr ((TileDesc.equals_iff t other).1 heq).1

/-- Once the flag is set, nothing is queued and nothing sent. -/
theorem queue_of_terminationFlag (h : s.terminationFlag = true) (data : List Char) :
    (s.enqueue viewIdOf data).queue = s.queue ∧ s.dequeue = s := by
  constructor
  · unfold SenderQueue.enqueue
    rw [if_pos h]
  · unfold SenderQueue.dequeue
    rw [if_pos h]

section Examples

def tileMessage (wid : String) : List Char :=
  ("tile: nviewid=1000 part=0 width=256 height=256 tileposx=0 tileposy=0 tilewidth=3840 tileheight=3840 wid=" ++
    wid ++ " ver=-1\n").toList

theorem reachable_lossless_two : ∃ s : SenderQueue, s.Lossless (fun _ => none) ∧ s.log.length = 3 ∧
    s.queue.map (·.data) = ["commandresult: x".toList, tileMessage "2"] := by
  have hinit : IsInit ({} : SenderQueue) := rfl
  have h₀ : Run.Reachable IsInit (step fun _ => none) Running {} := .start hinit
  have h₁ := Run.Reachable.next (e := .enqueue (tileMessage "1")) h₀ (by decide +kernel) rfl
  have h₂ := Run.Reachable.next (e := .enqueue "commandresult: x".toList) h₁ (by decide +kernel) rfl
  have h₃ := Run.Reachable.next (e := .enqueue (tileMessage "2")) h₂ (by decide +kernel) rfl
  exact ⟨_, (reachable_lossless _ h₃).1, by decide +kernel, by decide +kernel⟩

theorem not_reachable_lossless : ¬ ∀ (viewIdOf : List Char → Option (List Char)) (s : SenderQueue),
    Run.Reachable IsInit (step viewIdOf) Run.Any s → s.Lossless viewIdOf := by
  intro hall
  have hinit : IsInit ({} : SenderQueue) := rfl
  have hrun : ∃ s, Run.Reachable IsInit (step fun _ => none) Run.Any s ∧
      decide (s.queue = [] ∧ s.log = [(true, { data := "commandresult: x".toList })]) = true :=
    Run.Reachable.exists_of_run {} [.setTerminationFlag, .enqueue "commandresult: x".toList] hinit (by decide +kernel)
  obtain ⟨s, hs, hlost⟩ := hrun
  obtain ⟨hqueue, hlog⟩ := of_decide_eq_true hlost
  have hothers := (hall _ s hs).others
  rw [hqueue, hlog] at hothers
  exact absurd hothers (by decide +kernel)

end Examples

end SenderQueue

end CollaboraOnline
