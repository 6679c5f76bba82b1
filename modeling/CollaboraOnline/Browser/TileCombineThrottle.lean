import Mathlib.Data.List.TakeWhile
import CollaboraOnline.Lib.Run

/-!
# Throttled tile requests

In the mobile app a `tilecombine` message that follows another one of its part and mode too soon waits for a timer; a
newer one takes its place.  The socket is open, the session active, and no reconnect under way.
-/

namespace CollaboraOnline

namespace TileCombine

/-! ### The text of a request -/

/-- `\w` of a regular expression. -/
def isWordChar (c : Char) : Bool := c.isAlphanum || c == '_'

/-- The first match of `\bname=(\d+)`; `boundary` is that no word goes on in front of the text. -/
def numberOf (name : List Char) : Bool → List Char → Option (List Char)
  | _, [] => none
  | boundary, c :: msg =>
    let digits := ((c :: msg).drop (name.length + 1)).takeWhile Char.isDigit
    if boundary && (name ++ ['=']).isPrefixOf (c :: msg) && !digits.isEmpty then some digits
    else numberOf name (!isWordChar c) msg

structure Key where
  part : List Char
  mode : List Char
deriving DecidableEq

def parseTileCombineCompactionKey (msg : List Char) : Option Key :=
  if "tilecombine ".toList.isPrefixOf msg then
    (numberOf "part".toList true msg).map fun part => ⟨part, (numberOf "mode".toList true msg).getD "0".toList⟩
  else none

/-- The words of a text between the separators. -/
def split (separator : Char) (s : List Char) : List (List Char) :=
  s.splitBy fun a b => a != separator && b != separator

/-- The values of a field, which stand between commas. -/
def field (name msg : List Char) : List (List Char) :=
  ((split ' ' msg).filter (name ++ ['=']).isPrefixOf).flatMap fun token =>
    (split ',' (token.drop (name.length + 1))).filter (· != [','])

/-- The tiles that a request lists. -/
def tiles (msg : List Char) : List (Option Key × List Char × List Char) :=
  ((field "tileposx".toList msg).zip (field "tileposy".toList msg)).map fun pos =>
  (parseTileCombineCompactionKey msg, pos)

end TileCombine

open TileCombine

structure TileCombineThrottle where
  /-- In the order in which the keys came. -/
  pendingTileCombineByKey : List (Key × List Char) := []
  lastTileCombineSentTsByKey : Key → Int := fun _ => 0
  /-- Whether the timer is armed. -/
  tileCombineFlushTimer : Bool := false
  /-- What was handed to the socket, and what was submitted. -/
  handed : List (List Char) := []
  submitted : List (List Char) := []

namespace TileCombineThrottle

def throttleMs : Int := 45

/-- The value of a key that is there is changed in its place. -/
def setPending (pending : List (Key × List Char)) (key : Key) (msg : List Char) : List (Key × List Char) :=
  if pending.any (·.1 == key) then pending.map fun p =>
    if p.1 == key then (key, msg) else p else pending ++ [(key, msg)]

def setSent (sent : Key → Int) (key : Key) (now : Int) : Key → Int := fun k => if k = key then now else sent k

/-- `sendMessage` behind the throttle; `blocked` is that the document is in its fatal state or the UI is blocked. -/
def hand (s : TileCombineThrottle) (msg : List Char) (blocked : Bool) : TileCombineThrottle :=
  if blocked then s else { s with handed := s.handed ++ [msg] }

def throttles (s : TileCombineThrottle) (key : Key) (now : Int) : Bool :=
  now - s.lastTileCombineSentTsByKey key < throttleMs

/-- `sendMessage`, outside a flush. -/
def sendMessage (s : TileCombineThrottle) (msg : List Char) (now : Int) (blocked : Bool) : TileCombineThrottle :=
  let s := { s with submitted := s.submitted ++ [msg] }
  match parseTileCombineCompactionKey msg with
  | none => s.hand msg blocked
  | some key =>
    if s.throttles key now then
      { s with
        pendingTileCombineByKey := setPending s.pendingTileCombineByKey key msg, tileCombineFlushTimer := true }
    else { s with lastTileCombineSentTsByKey := setSent s.lastTileCombineSentTsByKey key now }.hand msg blocked

/-- The loop over what is flushed. -/
def sendAll (s : TileCombineThrottle) (toFlush : List (Key × List Char)) (now : Int) (blocked : Bool) :
    TileCombineThrottle :=
  toFlush.foldl (fun s p =>
    { s with lastTileCombineSentTsByKey := setSent s.lastTileCombineSentTsByKey p.1 now }.hand p.2 blocked) s

def flushPendingTileCombineMessages (s : TileCombineThrottle) (now : Int) (blocked : Bool) : TileCombineThrottle :=
  let s := { s with tileCombineFlushTimer := false }
  let toFlush := s.pendingTileCombineByKey.filter fun p => !s.throttles p.1 now
  let s := { s with pendingTileCombineByKey := s.pendingTileCombineByKey.filter fun p => s.throttles p.1 now }
  let s := s.sendAll toFlush now blocked
  { s with tileCombineFlushTimer := !s.pendingTileCombineByKey.isEmpty }

inductive Event
  | sendMessage (msg : List Char) (now : Int) (blocked : Bool)
  | timer (now : Int) (blocked : Bool)

def step (s : TileCombineThrottle) : Event → Option TileCombineThrottle
  | .sendMessage msg now blocked =>
    if "tilecombine ".toList.isPrefixOf msg then some (s.sendMessage msg now blocked) else none
  | .timer now blocked =>
    if s.tileCombineFlushTimer then some (s.flushPendingTileCombineMessages now blocked) else none

def IsInit (s : TileCombineThrottle) : Prop := s = {}

/-! ### What is kept -/

section Kept

variable {s s' : TileCombineThrottle} {msg : List Char} {now : Int} {blocked : Bool} {key : Key}
  {tile : Option Key × List Char × List Char} {toFlush : List (Key × List Char)}

def Handed (s : TileCombineThrottle) (tile : Option Key × List Char × List Char) : Prop :=
  ∃ msg ∈ s.handed, tile ∈ tiles msg

def Waits (s : TileCombineThrottle) (tile : Option Key × List Char × List Char) : Prop :=
  ∃ p ∈ s.pendingTileCombineByKey, tile ∈ tiles p.2

/-- Every tile that was requested is in a message that was handed on, or in one that waits for the timer. -/
def LosesNone (s : TileCombineThrottle) : Prop :=
  ∀ msg ∈ s.submitted, ∀ tile ∈ tiles msg, (∃ msg' ∈ s.handed, tile ∈ tiles msg') ∨
    (∃ p ∈ s.pendingTileCombineByKey, tile ∈ tiles p.2) ∧ s.tileCombineFlushTimer = true

/-- The tiles of a message that is replaced or dropped are asked for elsewhere. -/
def Ok (s : TileCombineThrottle) : Event → Prop
  | .sendMessage msg now blocked =>
    (∀ key, parseTileCombineCompactionKey msg = some key → s.throttles key now = true →
      ∀ p ∈ s.pendingTileCombineByKey, p.1 = key → ∀ tile ∈ tiles p.2, tile ∈ tiles msg ∨ s.Handed tile) ∧
    ((parseTileCombineCompactionKey msg).any (fun key => s.throttles key now) = false →
      blocked = true → ∀ tile ∈ tiles msg, s.Handed tile)
  | .timer now blocked =>
    blocked = true → ∀ p ∈ s.pendingTileCombineByKey, s.throttles p.1 now = false → ∀ tile ∈ tiles p.2, s.Handed tile

/-- The invariant: besides, a message waits only while the timer is armed. -/
structure Keeps (s : TileCombineThrottle) : Prop where
  asked : ∀ msg ∈ s.submitted, ∀ tile ∈ tiles msg, s.Handed tile ∨ s.Waits tile
  armed : s.pendingTileCombineByKey ≠ [] → s.tileCombineFlushTimer = true

theorem Keeps.losesNone (h : s.Keeps) : s.LosesNone := by
  intro msg hmsg tile htile
  rcases h.asked msg hmsg tile htile with hh | ⟨p, hp, ht⟩
  · exact .inl hh
  · exact .inr ⟨⟨p, hp, ht⟩, h.armed (List.ne_nil_of_mem hp)⟩

theorem mem_setPending (pending : List (Key × List Char)) (key : Key) (msg : List Char) :
    (key, msg) ∈ setPending pending key msg := by
  unfold setPending
  split
  · rename_i h
    obtain ⟨p, hp, hk⟩ := List.any_eq_true.1 h
    exact List.mem_map.2 ⟨p, hp, by rw [if_pos hk]⟩
  · simp

theorem mem_setPending_of_ne {pending : List (Key × List Char)} {p : Key × List Char} (hp : p ∈ pending)
    (hne : p.1 ≠ key) : p ∈ setPending pending key msg := by
  unfold setPending
  split
  · exact List.mem_map.2 ⟨p, hp, by rw [if_neg (by simpa using hne)]⟩
  · exact List.mem_append_left _ hp

theorem Handed.hand (h : s.Handed tile) (msg : List Char) (blocked : Bool) : (s.hand msg blocked).Handed tile := by
  obtain ⟨m, hm, ht⟩ := h
  refine ⟨m, ?_, ht⟩
  unfold TileCombineThrottle.hand
  split
  · exact hm
  · exact List.mem_append_left _ hm

theorem handed_hand (s : TileCombineThrottle) (h : tile ∈ tiles msg) : (s.hand msg false).Handed tile :=
  ⟨msg, by simp [hand], h⟩

@[simp] theorem hand_pending (s : TileCombineThrottle) (msg : List Char) (blocked : Bool) :
    (s.hand msg blocked).pendingTileCombineByKey = s.pendingTileCombineByKey := by
  unfold hand; split <;> rfl

@[simp] theorem hand_submitted (s : TileCombineThrottle) (msg : List Char) (blocked : Bool) :
    (s.hand msg blocked).submitted = s.submitted := by
  unfold hand; split <;> rfl

@[simp] theorem hand_timer (s : TileCombineThrottle) (msg : List Char) (blocked : Bool) :
    (s.hand msg blocked).tileCombineFlushTimer = s.tileCombineFlushTimer := by
  unfold hand; split <;> rfl

/-- A message that does not wait is handed on, or its tiles were asked for before. -/
theorem Keeps.hand (h : s.Keeps) (hb : blocked = true → ∀ tile ∈ tiles msg, s.Handed tile) :
    ({ s with submitted := s.submitted ++ [msg] }.hand msg blocked).Keeps := by
  refine ⟨?_, by simpa using h.armed⟩
  intro m hm tile htile
  rw [hand_submitted] at hm
  rcases List.mem_append.1 hm with hm | hm
  · rcases h.asked m hm tile htile with hh | hw
    · exact .inl (Handed.hand (s := { s with submitted := s.submitted ++ [msg] }) hh msg blocked)
    · right
      obtain ⟨p, hp, ht⟩ := hw
      exact ⟨p, by simpa using hp, ht⟩
  · obtain rfl := List.mem_singleton.1 hm
    left
    cases blocked with
    | false => exact handed_hand _ htile
    | true => exact Handed.hand (s := { s with submitted := s.submitted ++ [m] }) (hb rfl tile htile) m true

theorem sendAll_eq (s : TileCombineThrottle) (toFlush : List (Key × List Char)) (now : Int) (blocked : Bool) :
    (s.sendAll toFlush now blocked).pendingTileCombineByKey = s.pendingTileCombineByKey ∧
    (s.sendAll toFlush now blocked).submitted = s.submitted ∧
    (s.sendAll toFlush now blocked).handed = s.handed ++ if blocked then [] else toFlush.map Prod.snd := by
  induction toFlush generalizing s with
  | nil => simp [sendAll]
  | cons p toFlush ih =>
    obtain ⟨hp, hs, hh⟩ :=
      ih ({ s with lastTileCombineSentTsByKey := setSent s.lastTileCombineSentTsByKey p.1 now }.hand p.2 blocked)
    refine ⟨hp.trans (hand_pending _ _ _), hs.trans (hand_submitted _ _ _), hh.trans ?_⟩
    cases blocked <;> simp [hand]

theorem sendMessage_keeps (h : s.Keeps) (hok : Ok s (.sendMessage msg now blocked)) :
    (s.sendMessage msg now blocked).Keeps := by
  obtain ⟨hrep, hdrop⟩ := hok
  unfold sendMessage
  cases hk : parseTileCombineCompactionKey msg with
  | none =>
    exact h.hand (hdrop (by simp [hk]))
  | some key =>
    dsimp only
    cases ht : s.throttles key now with
    | false =>
      rw [if_neg (by simpa [throttles] using ht)]
      exact (⟨h.asked, h.armed⟩ : Keeps { s with
        lastTileCombineSentTsByKey := setSent s.lastTileCombineSentTsByKey key now }).hand (hdrop (by simp [hk, ht]))
    | true =>
      rw [if_pos (by simpa [throttles] using ht)]
      refine ⟨?_, fun _ => rfl⟩
      intro m hm tile htile
      rcases List.mem_append.1 hm with hm | hm
      · rcases h.asked m hm tile htile with hh | ⟨p, hp, htp⟩
        · exact .inl hh
        · by_cases hpk : p.1 = key
          -- The message that waited is replaced.
          · rcases hrep key hk ht p hp hpk tile htp with hnew | hh
            · exact .inr ⟨_, mem_setPending _ _ _, hnew⟩
            · exact .inl hh
          · exact .inr ⟨p, mem_setPending_of_ne hp hpk, htp⟩
      · obtain rfl := List.mem_singleton.1 hm
        exact .inr ⟨_, mem_setPending _ _ _, htile⟩

theorem flush_eq (s : TileCombineThrottle) (now : Int) (blocked : Bool) :
    (s.flushPendingTileCombineMessages now blocked).pendingTileCombineByKey =
      s.pendingTileCombineByKey.filter (fun p => s.throttles p.1 now) ∧
    (s.flushPendingTileCombineMessages now blocked).submitted = s.submitted ∧
    (s.flushPendingTileCombineMessages now blocked).handed = s.handed ++
      if blocked then [] else (s.pendingTileCombineByKey.filter fun p => !s.throttles p.1 now).map Prod.snd :=
  sendAll_eq { s with
    tileCombineFlushTimer := false,
    pendingTileCombineByKey := s.pendingTileCombineByKey.filter fun p => s.throttles p.1 now } _ now blocked

theorem flush_keeps (h : s.Keeps) (hok : Ok s (.timer now blocked)) :
    (s.flushPendingTileCombineMessages now blocked).Keeps := by
  obtain ⟨hp, hs, hh⟩ := flush_eq s now blocked
  constructor
  · intro m hm tile htile
    rw [hs] at hm
    have hkept : s.Handed tile → (s.flushPendingTileCombineMessages now blocked).Handed tile := by
      rintro ⟨m', hm', ht⟩
      exact ⟨m', hh ▸ List.mem_append_left _ hm', ht⟩
    rcases h.asked m hm tile htile with hd | ⟨p, hpm, htp⟩
    · exact .inl (hkept hd)
    · cases ht : s.throttles p.1 now with
      | true => exact .inr ⟨p, hp ▸ List.mem_filter.2 ⟨hpm, ht⟩, htp⟩
      | false =>
        left
        cases blocked with
        | true => exact hkept (hok rfl p hpm ht tile htp)
        | false =>
          have hsent : p.2 ∈ (s.pendingTileCombineByKey.filter fun p => !s.throttles p.1 now).map Prod.snd :=
            List.mem_map.2 ⟨p, List.mem_filter.2 ⟨hpm, by simp [ht]⟩, rfl⟩
          exact ⟨p.2, hh ▸ List.mem_append_right _ hsent, htp⟩
  · intro hne
    cases hl : (s.flushPendingTileCombineMessages now blocked).pendingTileCombineByKey with
    | nil => exact absurd hl hne
    | cons p pending => exact congrArg (fun l => !l.isEmpty) hl

theorem step_keeps {e : Event} (h : s.Keeps) (hok : Ok s e) (hs : step s e = some s') : s'.Keeps := by
  cases e with
  | sendMessage msg now blocked =>
    simp only [step] at hs
    split at hs
    · obtain rfl := Option.some.inj hs
      exact sendMessage_keeps h hok
    · cases hs
  | timer now blocked =>
    simp only [step] at hs
    split at hs
    · obtain rfl := Option.some.inj hs
      exact flush_keeps h hok
    · cases hs

end Kept

/-- While no tile is left out by a message that takes another's place, none is lost. -/
theorem reachable_losesNone {s : TileCombineThrottle} (h : Run.Reachable IsInit step Ok s) : s.LosesNone := by
  have hkeeps : s.Keeps := by
    refine h.invariant Keeps ?_ fun s e s' _ hk hok hs => step_keeps hk hok hs
    rintro s rfl
    exact ⟨fun m hm => absurd hm List.not_mem_nil, fun hne => absurd rfl hne⟩
  exact hkeeps.losesNone

section Examples

def requestAt (x : String) : List Char :=
  ("tilecombine nviewid=0 part=0 width=256 height=256 tileposx=" ++ x ++
    " tileposy=0 oldwid=0 tilewidth=3840 tileheight=3840").toList

/-- Whether a tile was handed on, and `Ok`, as they are computed. -/
def isHanded (s : TileCombineThrottle) (tile : Option Key × List Char × List Char) : Bool :=
  s.handed.any fun msg => (tiles msg).contains tile

def isOk (s : TileCombineThrottle) : Event → Bool
  | .sendMessage msg now blocked =>
    ((parseTileCombineCompactionKey msg).all fun key => !s.throttles key now || s.pendingTileCombineByKey.all fun p =>
      p.1 != key || (tiles p.2).all fun tile => (tiles msg).contains tile || s.isHanded tile) &&
    ((parseTileCombineCompactionKey msg).any (fun key => s.throttles key now) || !blocked ||
      (tiles msg).all s.isHanded)
  | .timer now blocked =>
    !blocked || s.pendingTileCombineByKey.all fun p => s.throttles p.1 now || (tiles p.2).all s.isHanded

theorem handed_of_isHanded {s : TileCombineThrottle} {tile : Option Key × List Char × List Char}
    (h : s.isHanded tile = true) : s.Handed tile := by
  obtain ⟨msg, hmsg, htile⟩ := List.any_eq_true.1 h
  exact ⟨msg, hmsg, by simpa using htile⟩

theorem ok_of_isOk (s : TileCombineThrottle) (e : Event) (h : isOk s e = true) : Ok s e := by
  cases e with
  | sendMessage msg now blocked =>
    obtain ⟨hrep, hdrop⟩ := Bool.and_eq_true_iff.1 h
    constructor
    · intro key hkey hthrottles p hp hpkey tile htile
      rw [hkey, Option.all_some, hthrottles, Bool.not_true, Bool.false_or, List.all_eq_true] at hrep
      have hp := hrep p hp
      simp only [hpkey, bne_self_eq_false, Bool.false_or, List.all_eq_true, Bool.or_eq_true,
        List.contains_iff_mem] at hp
      exact (hp tile htile).imp_right handed_of_isHanded
    · intro hpass hb tile htile
      rw [hpass, hb, Bool.not_true, Bool.false_or, Bool.false_or] at hdrop
      exact handed_of_isHanded (List.all_eq_true.1 hdrop tile htile)
  | timer now blocked =>
    intro hb p hp hpass tile htile
    rw [isOk, hb, Bool.not_true, Bool.false_or, List.all_eq_true] at h
    have hp := h p hp
    rw [hpass, Bool.false_or, List.all_eq_true] at hp
    exact handed_of_isHanded (hp tile htile)

/-- The second request waits and is replaced by one that lists its tile too, which the timer hands on; the last one
waits. -/
def replacedAndFlushed : List Event :=
  [.sendMessage (requestAt "0") 1000 false, .sendMessage (requestAt "3840") 1010 false,
    .sendMessage (requestAt "3840,7680") 1020 false, .timer 1045 false, .sendMessage (requestAt "11520") 1050 false]

theorem reachable_losesNone_one : ∃ s, Run.Reachable IsInit step Ok s ∧ s.submitted.length = 4 ∧
    s.handed = [requestAt "0", requestAt "3840,7680"] ∧
    s.pendingTileCombineByKey = [(⟨['0'], ['0']⟩, requestAt "11520")] ∧
      s.LosesNone := by
  have hinit : IsInit ({} : TileCombineThrottle) := rfl
  have hrun : ∃ s, Run.Reachable IsInit (Run.guarded step isOk) Run.Any s ∧
      (s.submitted.length == 4 && s.handed == [requestAt "0", requestAt "3840,7680"] &&
        s.pendingTileCombineByKey == [(⟨['0'], ['0']⟩, requestAt "11520")]) = true :=
    Run.Reachable.exists_of_run {} replacedAndFlushed hinit (by decide +kernel)
  obtain ⟨s, hs, hlast⟩ := hrun
  have hreach := hs.of_guarded ok_of_isOk
  simp only [Bool.and_eq_true, beq_iff_eq] at hlast
  exact ⟨s, hreach, hlast.1.1, hlast.1.2, hlast.2, reachable_losesNone hreach⟩

/-- The third request takes the place of the second, whose tile nobody asks for any more. -/
theorem not_reachable_losesNone : ¬ ∀ s, Run.Reachable IsInit step Run.Any s → LosesNone s := by
  intro hall
  let lost : Option Key × List Char × List Char := (some ⟨['0'], ['0']⟩, "3840".toList, ['0'])
  have hinit : IsInit ({} : TileCombineThrottle) := rfl
  have hrun : ∃ s, Run.Reachable IsInit step Run.Any s ∧
      (s.submitted.contains (requestAt "3840") && !(s.handed.any fun m => (tiles m).contains lost) &&
        !(s.pendingTileCombineByKey.any fun p => (tiles p.2).contains lost)) = true :=
    Run.Reachable.exists_of_run {}
      [.sendMessage (requestAt "0") 1000 false, .sendMessage (requestAt "3840") 1010 false,
        .sendMessage (requestAt "7680") 1020 false] hinit (by decide +kernel)
  obtain ⟨s, hs, hlost⟩ := hrun
  simp only [Bool.and_eq_true, Bool.not_eq_true', List.contains_iff_mem] at hlost
  obtain ⟨⟨hsub, hhanded⟩, hpending⟩ := hlost
  have hlisted : lost ∈ tiles (requestAt "3840") := by decide +kernel
  rcases hall s hs _ hsub lost hlisted with ⟨m, hm, ht⟩ | ⟨⟨p, hp, ht⟩, -⟩
  · have hno := List.any_eq_false.1 hhanded m hm
    exact hno (by simpa using ht)
  · have hno := List.any_eq_false.1 hpending p hp
    exact hno (by simpa using ht)

end Examples

end TileCombineThrottle

end CollaboraOnline
