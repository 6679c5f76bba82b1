import CollaboraOnline.Kit.Protocol
import CollaboraOnline.Lib.Blocks
import CollaboraOnline.Lib.Run

/-!
# Text input in the queue of the kit

A `textinput` or `removetextcontext` message is put together with the last queued one of the same session and window,
which moves to the end of the queue with it.  Requests for tiles go to their own queues.
-/

namespace CollaboraOnline

open COOLProtocol Blocks

namespace KitQueue

abbrev Payload := List Char

inductive TextItem
  | textinput
  | removetextcontext
deriving DecidableEq

def TextItem.name : TextItem → List Char
  | .textinput => "textinput".toList
  | .removetextcontext => "removetextcontext".toList

/-- `memcmp` with as much of the name as there is. -/
def startsItem (value : Payload) (offset : Nat) (item : TextItem) : Bool :=
  (value.drop (offset + 1)).take (min (value.length - offset - 1) item.name.length) ==
    item.name.take (min (value.length - offset - 1) item.name.length)

def textItem (value : Payload) (firstToken : List Char) : Option TextItem :=
  if value.length < firstToken.length + 3 then none
  else if startsItem value firstToken.length .textinput then some .textinput
  else if startsItem value firstToken.length .removetextcontext then some .removetextcontext
  else none

/-- `StringVector::equals` of the first tokens. -/
def sameSession (queuedTokens tokens : List (List Char)) : Bool :=
  queuedTokens[0]?.isSome && queuedTokens[0]? == tokens[0]?

/-- The other kind of text. -/
def TextItem.opposite : TextItem → TextItem
  | .textinput => .removetextcontext
  | .removetextcontext => .textinput

/-- Messages before which nothing is combined. -/
def isBarrier (command : Option (List Char)) : Bool :=
  command == some "key".toList || command == some "mouse".toList || command == some "windowkey".toList

def stops (item : TextItem) (tokens : List (List Char)) (queued : Payload) : Bool :=
  let queuedTokens := tokenize queued
  queuedTokens.length == 1 ||
    (sameSession queuedTokens tokens && (isBarrier queuedTokens[1]? || queuedTokens[1]? == some item.opposite.name))

/-- The search from the back of the queue (which is given reversed); what is found is taken out. -/
def findBack {α : Type} (stop : Payload → Bool) (found : Payload → Option α) :
    List Payload → Option (α × List Payload)
  | [] => none
  | m :: ms =>
    if stop m then none
    else
      match found m with
      | some a => some (a, ms)
      | none => (findBack stop found ms).map fun r => (r.1, m :: r.2)

/-- The session and the text of a queued message for `id`. -/
def queuedText (tokens : List (List Char)) (id : List Char) (queued : Payload) : Option (List Char × List Char) :=
  let queuedTokens := tokenize queued
  if sameSession queuedTokens tokens && queuedTokens[1]? == some TextItem.textinput.name &&
      getTokenString queuedTokens "id".toList == some id then
    (getTokenString queuedTokens "text".toList).map fun text => (queuedTokens.getD 0 [], text)
  else none

def textMessage (session id text : List Char) : Payload :=
  session ++ ' ' :: ("textinput".toList ++ ' ' :: ("id=".toList ++ id ++ ' ' :: ("text=".toList ++ text)))

/-- The queue without the message that was found, and the combined message. -/
def combineTextInput (queue : List Payload) (tokens : List (List Char)) : Option (List Payload × Payload) := do
  let id ← getTokenString tokens "id".toList
  let text ← getTokenString tokens "text".toList
  let found ← findBack (stops .textinput tokens) (queuedText tokens id) queue.reverse
  some (found.2.reverse, textMessage found.1.1 id (found.1.2 ++ text))

/-- Here the id is looked for in the whole message. -/
def queuedCounts (tokens : List (List Char)) (id : List Char) (queued : Payload) : Option (List Char × Int × Int) :=
  let queuedTokens := tokenize queued
  if sameSession queuedTokens tokens && queuedTokens[1]? == some TextItem.removetextcontext.name &&
      getTokenStringFromMessage queued "id".toList == some id then do
    let before ← getTokenInteger queuedTokens "before".toList
    let after ← getTokenInteger queuedTokens "after".toList
    some (queuedTokens.getD 0 [], before, after)
  else none

def removeMessage (session id : List Char) (before after : Int) : Payload :=
  session ++ ' ' :: ("removetextcontext".toList ++ ' ' :: ("id=".toList ++ id ++ ' ' ::
    ("before=".toList ++ COOLProtocol.toString before ++ ' ' :: ("after=".toList ++ COOLProtocol.toString after))))

def combineRemoveText (queue : List Payload) (tokens : List (List Char)) : Option (List Payload × Payload) := do
  let id ← getTokenString tokens "id".toList
  let before ← getTokenInteger tokens "before".toList
  let after ← getTokenInteger tokens "after".toList
  let found ← findBack (stops .removetextcontext tokens) (queuedCounts tokens id) queue.reverse
  some (found.2.reverse, removeMessage found.1.1 id (wrapInt (found.1.2.1 + before)) (wrapInt (found.1.2.2 + after)))

def combine (queue : List Payload) (tokens : List (List Char)) : TextItem → Option (List Payload × Payload)
  | .textinput => combineTextInput queue tokens
  | .removetextcontext => combineRemoveText queue tokens

/-- Tiles have their own queues, and callbacks do not come from a client. -/
def isQueued (value : Payload) : Bool :=
  !(getFirstToken value == "tilecombine".toList || getFirstToken value == "tile".toList ||
    getFirstToken value == "callback".toList)

/-- The queue of `put`; `none` where it throws. -/
def put (queue : List Payload) (value : Payload) : Option (List Payload) :=
  if value = [] then none
  else if !isQueued value then some queue
  else
    match textItem value (getFirstToken value) with
    | none => some (queue ++ [value])
    | some item =>
      match combine queue (tokenize value) item with
      | some (queue, newMsg) => some (queue ++ [newMsg])
      | none => some (queue ++ [value])

/-! ### What messages say -/

/-- What a message does to the text. -/
structure Edit where
  text : List Char
  before : Int
  after : Int
deriving DecidableEq

namespace Edit

def nothing : Edit := ⟨[], 0, 0⟩

/-- One edit after another. -/
def then' (a b : Edit) : Edit := ⟨a.text ++ b.text, a.before + b.before, a.after + b.after⟩

instance : Std.Associative then' := ⟨fun a b c => by simp only [then', List.append_assoc, Int.add_assoc]⟩

instance : Std.LawfulIdentity then' nothing where
  left_id a := by simp [then', nothing]
  right_id a := by simp [then', nothing]

theorem then_nothing (a : Edit) : then' a nothing = then' nothing a := by
  simp [then', nothing]

end Edit

def textOf (tokens : List (List Char)) (id : List Char) : Edit :=
  if getTokenString tokens "id".toList = some id then ⟨(getTokenString tokens "text".toList).getD [], 0, 0⟩
  else .nothing

def countsOf (tokens : List (List Char)) (id : List Char) : Edit :=
  if getTokenString tokens "id".toList = some id then
    match getTokenInteger tokens "before".toList, getTokenInteger tokens "after".toList with
    | some before, some after => ⟨[], before, after⟩
    | _, _ => .nothing
  else .nothing

/-- A message as the session and the window see it. -/
def itemOf (session id : List Char) (m : Payload) : Item Payload TextItem Edit :=
  let tokens := tokenize m
  if tokens[0]? ≠ some session then .skip
  else if tokens[1]? = some TextItem.textinput.name then .piece .textinput (textOf tokens id)
  else if tokens[1]? = some TextItem.removetextcontext.name then .piece .removetextcontext (countsOf tokens id)
  else if isBarrier tokens[1]? then .mark m
  else .skip

/-- The marks of a session and the edits between them. -/
def edits (session id : List Char) (queue : List Payload) : List (Block Payload TextItem Edit) :=
  blocks Edit.then' (queue.map (itemOf session id))

/-- The texts for a window, one after the other. -/
def texts (session id : List Char) (queue : List Payload) : List Char :=
  queue.flatMap fun m => ((itemOf session id m).value .nothing).text

def isText (m : Payload) : Bool :=
  (tokenize m)[1]? == some TextItem.textinput.name || (tokenize m)[1]? == some TextItem.removetextcontext.name

/-- The queue says what was submitted. -/
structure Preserves (submitted queue : List Payload) : Prop where
  texts : ∀ session id, texts session id queue = texts session id submitted
  edits : ∀ session id, edits session id queue = edits session id submitted
  others : queue.filter (fun m => !isText m) = submitted.filter fun m => !isText m

/-! ### The condition -/

/-- The counts of a queued message of the session and the window can be added. -/
def CountsFit (tokens : List (List Char)) (id : List Char) (queued : Payload) : Prop :=
  ∀ session before after before' after', queuedCounts tokens id queued = some (session, before', after') →
    getTokenInteger tokens "before".toList = some before → getTokenInteger tokens "after".toList = some after →
      -(2 ^ 31 : Int) ≤ before' + before ∧ before' + before ≤ intMax ∧ -(2 ^ 31 : Int) ≤ after' + after ∧
        after' + after ≤ intMax

/-- What is taken for text input has exactly that name, and is of a child session. -/
def Named (value : Payload) (item : TextItem) : Prop :=
  (tokenize value)[1]? = some item.name ∧ ∃ r, (tokenize value)[0]? = some ("child-".toList ++ r)

/-- A `removetextcontext` message has its id, if any, on the first line. -/
def IdOnLine (m : Payload) : Prop :=
  (tokenize m)[1]? = some TextItem.removetextcontext.name → (getTokenStringFromMessage m "id".toList).isSome = true →
    (getTokenString (tokenize m) "id".toList).isSome = true

structure Proper (queue : List Payload) (value : Payload) : Prop where
  idOnLine : IdOnLine value
  textinput : textItem value (getFirstToken value) = some .textinput →
    (getTokenString (tokenize value) "id".toList).isSome = true →
    (getTokenString (tokenize value) "text".toList).isSome = true →
      Named value .textinput
  removetextcontext : textItem value (getFirstToken value) = some .removetextcontext →
    (getTokenString (tokenize value) "id".toList).isSome = true →
      (getTokenInteger (tokenize value) "before".toList).isSome = true →
        (getTokenInteger (tokenize value) "after".toList).isSome = true → Named value .removetextcontext
  fits : ∀ id, getTokenString (tokenize value) "id".toList = some id →
    ∀ queued ∈ queue, CountsFit (tokenize value) id queued

/-! ### Looking for a message -/

theorem findBack_spec {α : Type} {stop : Payload → Bool} {found : Payload → Option α} {ms : List Payload}
    {r : α × List Payload}
    (h : findBack stop found ms = some r) : ∃ behind m front, ms = behind ++ m :: front ∧ r.2 = behind ++ front ∧
      found m = some r.1 ∧ stop m = false ∧ ∀ x ∈ behind, stop x = false ∧ found x = none := by
  induction ms generalizing r with
  | nil => cases h
  | cons m ms ih =>
    rw [findBack] at h
    split at h
    · cases h
    rename_i hstop
    have hstop : stop m = false := by simpa using hstop
    cases hm : found m with
    | some a =>
      rw [hm] at h
      obtain rfl := Option.some.inj h
      exact ⟨[], m, ms, rfl, rfl, hm, hstop, fun x hx => absurd hx List.not_mem_nil⟩
    | none =>
      rw [hm] at h
      obtain ⟨r', hr', rfl⟩ := Option.map_eq_some_iff.1 h
      obtain ⟨behind, m', front, rfl, hrest, hfound, hstop', hbehind⟩ := ih hr'
      refine ⟨m :: behind, m', front, rfl, congrArg (m :: ·) hrest, hfound, hstop', ?_⟩
      exact List.forall_mem_cons.2 ⟨⟨hstop, hm⟩, hbehind⟩

/-- The same for the queue, which is searched from its back. -/
theorem findBack_queue {α : Type} {stop : Payload → Bool} {found : Payload → Option α} {queue : List Payload}
    {r : α × List Payload} (h : findBack stop found queue.reverse = some r) :
    ∃ front m behind, queue = front ++ m :: behind ∧ r.2.reverse = front ++ behind ∧
      found m = some r.1 ∧ ∀ x ∈ behind, stop x = false ∧ found x = none := by
  obtain ⟨behind, m, front, hms, hrest, hfound, -, hbehind⟩ := findBack_spec h
  refine ⟨front.reverse, m, behind.reverse, ?_, ?_, hfound, fun x hx => hbehind x (List.mem_reverse.1 hx)⟩
  · rw [← List.reverse_reverse queue, hms]
    simp
  · rw [hrest, List.reverse_append]

/-! ### Putting messages together -/

def editOf (item : TextItem) (m : Payload) (id : List Char) : Edit :=
  match item with
  | .textinput => textOf (tokenize m) id
  | .removetextcontext => countsOf (tokenize m) id

theorem itemOf_text {session id : List Char} {m : Payload} {item : TextItem}
    (hsession : (tokenize m)[0]? = some session)
    (hname : (tokenize m)[1]? = some item.name) : itemOf session id m = .piece item (editOf item m id) := by
  unfold itemOf
  dsimp only
  rw [if_neg (not_not.2 hsession), hname]
  cases item with
  | textinput => exact if_pos rfl
  | removetextcontext => exact (if_neg (by decide)).trans (if_pos rfl)

theorem itemOf_other {session session' id : List Char} {m : Payload} (hsession : (tokenize m)[0]? = some session)
    (hne : session' ≠ session) : itemOf session' id m = .skip := by
  unfold itemOf
  dsimp only
  rw [if_pos]
  rw [hsession]
  exact fun h => hne (Option.some.inj h).symm

/-- What does not stop the search says nothing to the session, or is the same kind of text. -/
theorem itemOf_behind {session id : List Char} {x : Payload} {item : TextItem} {tokens : List (List Char)}
    (htokens : tokens[0]? = some session) (hstop : stops item tokens x = false) :
    itemOf session id x = .skip ∨ (itemOf session id x = .piece item (editOf item x id) ∧
      (tokenize x)[0]? = some session ∧ (tokenize x)[1]? = some item.name) := by
  by_cases hsession : (tokenize x)[0]? = some session
  · have hsame : sameSession (tokenize x) tokens = true := by
      unfold sameSession
      rw [hsession, htokens]
      simp
    unfold stops at hstop
    simp only [hsame, Bool.true_and, Bool.or_eq_false_iff] at hstop
    obtain ⟨-, hbarrier, hopposite⟩ := hstop
    by_cases hname : (tokenize x)[1]? = some item.name
    · exact .inr ⟨itemOf_text hsession hname, hsession, hname⟩
    · left
      have hopposite : (tokenize x)[1]? ≠ some item.opposite.name := by simpa using hopposite
      unfold itemOf
      dsimp only
      rw [if_neg (not_not.2 hsession)]
      cases item with
      | textinput =>
        dsimp only [TextItem.opposite] at hopposite
        rw [if_neg hname, if_neg hopposite, if_neg (by simpa using hbarrier)]
      | removetextcontext =>
        dsimp only [TextItem.opposite] at hopposite
        rw [if_neg hopposite, if_neg hname, if_neg (by simpa using hbarrier)]
  · left
    unfold itemOf
    exact if_pos hsession

/-- `new` is `old` and `value` together; the messages behind `old` let it pass. -/
structure Combined (session : List Char) (item : TextItem) (old value new : Payload) (behind : List Payload) :
    Prop where
  sessions : (tokenize old)[0]? = some session ∧ (tokenize value)[0]? = some session ∧
    (tokenize new)[0]? = some session
  names : (tokenize old)[1]? = some item.name ∧ (tokenize value)[1]? = some item.name ∧
    (tokenize new)[1]? = some item.name
  edit : ∀ id, editOf item new id = (editOf item old id).then' (editOf item value id)
  stops : ∀ x ∈ behind, stops item (tokenize value) x = false
  commutes : ∀ x ∈ behind, (tokenize x)[0]? = some session → (tokenize x)[1]? = some item.name → ∀ id,
    (editOf item old id).then' (editOf item x id) = (editOf item x id).then' (editOf item old id)
  idOnLine : IdOnLine new

theorem Combined.edits {session : List Char} {item : TextItem} {old value new : Payload} {front behind : List Payload}
    (h : Combined session item old value new behind) (session' id : List Char) :
    edits session' id (front ++ behind ++ [new]) = edits session' id (front ++ old :: behind ++ [value]) := by
  obtain ⟨hold, hvalue, hnew⟩ := h.sessions
  obtain ⟨hold', hvalue', hnew'⟩ := h.names
  unfold KitQueue.edits
  simp only [List.map_append, List.map_cons, List.map_nil]
  by_cases hsession : session' = session
  · subst hsession
    rw [itemOf_text hold hold', itemOf_text hvalue hvalue', itemOf_text hnew hnew', h.edit]
    refine blocks_move fun y hy => ?_
    obtain ⟨x, hx, rfl⟩ := List.mem_map.1 hy
    rcases itemOf_behind hvalue (h.stops x hx) with hskip | ⟨hpiece, hx₀, hx₁⟩
    · exact .inl hskip
    · exact .inr ⟨_, hpiece, h.commutes x hx hx₀ hx₁ id⟩
  · rw [itemOf_other hold hsession, itemOf_other hvalue hsession, itemOf_other hnew hsession]
    exact blocks_skip

theorem texts_eq (session id : List Char) (queue : List Payload) :
    texts session id queue = (total Edit.then' .nothing (edits session id queue)).text := by
  unfold edits
  rw [total_blocks, List.foldl_map]
  have hfold : ∀ (queue : List Payload) (e : Edit),
    (queue.foldl (fun acc m => acc.then' ((itemOf session id m).value .nothing)) e).text =
      e.text ++ texts session id queue := by
    intro queue
    induction queue with
    | nil => exact fun e => (List.append_nil _).symm
    | cons m queue ih =>
      intro e
      rw [List.foldl_cons, ih]
      simp [texts, Edit.then']
  rw [hfold]
  rfl

/-- The blocks of all sessions and windows are what matters of the text. -/
theorem preserves_of {submitted queue : List Payload}
    (hedits : ∀ session id, edits session id queue = edits session id submitted)
    (hothers : queue.filter (fun m => !isText m) = submitted.filter fun m => !isText m) : Preserves submitted queue :=
  ⟨fun session id => by rw [texts_eq, texts_eq, hedits], hedits, hothers⟩

theorem edits_concat (session id : List Char) (queue : List Payload) (m : Payload) :
    edits session id (queue ++ [m]) = push Edit.then' (edits session id queue) (itemOf session id m) := by
  unfold edits
  rw [List.map_append, List.map_singleton, blocks_concat]

theorem Preserves.append {submitted queue : List Payload} (h : Preserves submitted queue) (m : Payload) :
    Preserves (submitted ++ [m]) (queue ++ [m]) := by
  refine preserves_of (fun session id => ?_) ?_
  · rw [edits_concat, edits_concat, h.edits]
  · rw [List.filter_append, List.filter_append, h.others]

theorem Combined.preserves {session : List Char} {item : TextItem} {old value new : Payload}
    {front behind submitted : List Payload}
    (h : Combined session item old value new behind) (hpreserves : Preserves submitted (front ++ old :: behind)) :
    Preserves (submitted ++ [value]) (front ++ behind ++ [new]) := by
  have happend := hpreserves.append value
  have htext : ∀ m, (tokenize m)[1]? = some item.name → isText m = true := by
    intro m hm
    unfold isText
    rw [hm]
    cases item <;> decide
  refine preserves_of (fun session' id => ?_) ?_
  · rw [h.edits, happend.edits]
  · rw [← happend.others]
    obtain ⟨hold, hvalue, hnew⟩ := h.names
    simp [htext old hold, htext value hvalue, htext new hnew]

/-! ### The combined messages -/

theorem tokenize_eq {c : Char} {p : List Char} (hc : c ≠ '\x00') : tokenize (c :: p) = tokensFrom [] (c :: p) := by
  unfold tokenize
  split
  · rename_i heq
    exact absurd (List.cons.inj heq).1 hc
  · rfl

theorem tokensFrom_word {w : List Char} (hw : ∀ c ∈ w, isSeparator c = false) (hne : w ≠ []) (q : List Char) :
    tokensFrom [] (w ++ ' ' :: q) = w :: tokensFrom [] q := by
  rw [tokensFrom_blank hw, List.nil_append, if_neg hne, List.singleton_append]

theorem tokensFrom_last {w : List Char} (hw : ∀ c ∈ w, isSeparator c = false) (hne : w ≠ []) :
    tokensFrom [] w = [w] := by
  rw [tokensFrom_token hw, List.nil_append, if_neg hne]

/-- No separator stands in a word. -/
def IsWord (w : List Char) : Prop := ∀ c ∈ w, isSeparator c = false

instance (w : List Char) : Decidable (IsWord w) :=
  List.decidableBAll _ w

theorem IsWord.field {key value : List Char} (hkey : IsWord key) (hvalue : IsWord value) : IsWord (key ++ value) :=
  fun c hc => (List.mem_append.1 hc).elim (hkey c) (hvalue c)

theorem tokenize_textMessage {r id text : List Char} (hsession : IsWord ("child-".toList ++ r)) (hid : IsWord id)
    (htext : IsWord text) : tokenize (textMessage ("child-".toList ++ r) id text) =
      ["child-".toList ++ r, "textinput".toList, "id=".toList ++ id, "text=".toList ++ text] := by
  have hcons : textMessage ("child-".toList ++ r) id text =
      'c' :: (textMessage ("child-".toList ++ r) id text).tail := rfl
  have hname : IsWord "textinput".toList := by decide
  have hidKey : IsWord "id=".toList := by decide
  have htextKey : IsWord "text=".toList := by decide
  rw [hcons, tokenize_eq (by decide), ← hcons]
  unfold textMessage
  rw [tokensFrom_word hsession (List.cons_ne_nil _ _), tokensFrom_word hname (List.cons_ne_nil _ _),
    tokensFrom_word (hidKey.field hid) (List.cons_ne_nil _ _),
      tokensFrom_last (htextKey.field htext) (List.cons_ne_nil _ _)]

theorem tokenize_removeMessage {r id : List Char} (hsession : IsWord ("child-".toList ++ r)) (hid : IsWord id)
    (before after : Int) : tokenize (removeMessage ("child-".toList ++ r) id before after) =
      ["child-".toList ++ r, "removetextcontext".toList, "id=".toList ++ id,
        "before=".toList ++ COOLProtocol.toString before, "after=".toList ++ COOLProtocol.toString after] := by
  have hcons : removeMessage ("child-".toList ++ r) id before after =
      'c' :: (removeMessage ("child-".toList ++ r) id before after).tail := rfl
  have hname : IsWord "removetextcontext".toList := by decide
  have hidKey : IsWord "id=".toList := by decide
  have hbeforeKey : IsWord "before=".toList := by decide
  have hafterKey : IsWord "after=".toList := by decide
  have hbefore : IsWord (COOLProtocol.toString before) := toString_noSeparator before
  have hafter : IsWord (COOLProtocol.toString after) := toString_noSeparator after
  rw [hcons, tokenize_eq (by decide), ← hcons]
  unfold removeMessage
  rw [tokensFrom_word hsession (List.cons_ne_nil _ _), tokensFrom_word hname (List.cons_ne_nil _ _),
    tokensFrom_word (hidKey.field hid) (List.cons_ne_nil _ _),
    tokensFrom_word (hbeforeKey.field hbefore) (List.cons_ne_nil _ _),
    tokensFrom_last (hafterKey.field hafter) (List.cons_ne_nil _ _)]

/-- A value that was found is a word. -/
theorem isWord_value {m name value : List Char} (h : getTokenString (tokenize m) name = some value) :
    IsWord value := by
  obtain ⟨t, ht, hvalue⟩ := List.exists_of_findSome?_eq_some h
  unfold tokenString at hvalue
  split at hvalue
  · obtain rfl := Option.some.inj hvalue
    exact fun c hc => (mem_tokenize ht).1 c (List.mem_of_mem_drop hc)
  · cases hvalue

theorem isWord_session {m session : List Char} (h : (tokenize m)[0]? = some session) : IsWord session :=
  (mem_tokenize (List.mem_of_getElem? h)).1

/-! ### Text input -/

theorem sameSession_iff {queuedTokens tokens : List (List Char)} {session : List Char}
    (htokens : tokens[0]? = some session) :
    sameSession queuedTokens tokens = true ↔ queuedTokens[0]? = some session := by
  unfold sameSession
  rw [htokens, Bool.and_eq_true, beq_iff_eq]
  constructor
  · exact fun h => h.2
  · intro h
    exact ⟨by rw [h]; rfl, h⟩

theorem combined_textinput {queue rest : List Payload} {value new : Payload}
    (h : combineTextInput queue (tokenize value) = some (rest, new))
    (hnamed : (getTokenString (tokenize value) "id".toList).isSome = true →
      (getTokenString (tokenize value) "text".toList).isSome = true → Named value .textinput) :
    ∃ front old behind session, queue = front ++ old :: behind ∧ rest = front ++ behind ∧
      Combined session .textinput old value new behind := by
  unfold combineTextInput at h
  simp only [Option.bind_eq_bind, Option.bind_eq_some_iff] at h
  obtain ⟨id, hid, text, htext, found, hfound, hrest⟩ := h
  obtain ⟨rfl, rfl⟩ := Prod.mk.inj (Option.some.inj hrest)
  obtain ⟨hname, r, hsession⟩ := hnamed (by rw [hid]; rfl) (by rw [htext]; rfl)
  obtain ⟨front, old, behind, rfl, hrest, hold, hbehind⟩ := findBack_queue hfound
  refine ⟨front, old, behind, "child-".toList ++ r, rfl, hrest, ?_⟩
  -- the message that was found
  obtain ⟨⟨hsame, hname', hid'⟩, oldText, htext', hfound'⟩ : (sameSession (tokenize old) (tokenize value) = true ∧
      (tokenize old)[1]? = some TextItem.textinput.name ∧ getTokenString (tokenize old) "id".toList = some id) ∧
      ∃ oldText, getTokenString (tokenize old) "text".toList = some oldText ∧
        found.1 = ((tokenize old).getD 0 [], oldText) := by
    unfold queuedText at hold
    dsimp only at hold
    split at hold
    · rename_i hcond
      simp only [Bool.and_eq_true, beq_iff_eq] at hcond
      obtain ⟨oldText, htext', hfound'⟩ := Option.map_eq_some_iff.1 hold
      exact ⟨⟨hcond.1.1, hcond.1.2, hcond.2⟩, oldText, htext', hfound'.symm⟩
    · cases hold
  have hsession' := (sameSession_iff hsession).1 hsame
  have hfirst : found.1 = ("child-".toList ++ r, oldText) := by
    rw [hfound', List.getD_eq_getElem?_getD, hsession']
    rfl
  have htokens := tokenize_textMessage (isWord_session hsession) (isWord_value hid)
    ((isWord_value htext').field (isWord_value htext))
  rw [hfirst]
  dsimp only
  refine ⟨⟨hsession', hsession, by rw [htokens]; rfl⟩, ⟨hname', hname, by rw [htokens]; rfl⟩, fun id' => ?_,
    fun x hx => (hbehind x hx).1, fun x hx hx₀ hx₁ id' => ?_, fun hremove _ => ?_⟩
  · have hnewId : getTokenString (tokenize (textMessage ("child-".toList ++ r) id (oldText ++ text))) "id".toList =
        some id := by
      rw [htokens]
      rfl
    have hnewText :
        getTokenString (tokenize (textMessage ("child-".toList ++ r) id (oldText ++ text))) "text".toList =
          some (oldText ++ text) := by
      rw [htokens]
      rfl
    unfold editOf textOf
    dsimp only
    rw [hnewId, hnewText, hid', htext', hid, htext]
    by_cases hsameId : id = id'
    · simp [hsameId, Edit.then']
    · simp [hsameId, Edit.then', Edit.nothing]
  · have hnone := (hbehind x hx).2
    unfold queuedText at hnone
    dsimp only at hnone
    rw [(sameSession_iff hsession).2 hx₀, hx₁] at hnone
    unfold editOf textOf
    dsimp only
    rw [hid']
    by_cases hsameId : id = id'
    · subst hsameId
      by_cases hxid : getTokenString (tokenize x) "id".toList = some id
      · simp only [hxid, Bool.true_and, beq_self_eq_true, if_true, Option.map_eq_none_iff] at hnone
        rw [if_pos hxid, hnone]
        exact Edit.then_nothing _
      · rw [if_neg hxid]
        exact Edit.then_nothing _
    · rw [if_neg (fun h => hsameId (Option.some.inj h))]
      exact (Edit.then_nothing _).symm
  · rw [htokens]
    rfl

/-! ### Removed text -/

/-- An id among the tokens is found in the message. -/
theorem idFromMessage {m id : List Char} (hname : (tokenize m)[1]? = some TextItem.removetextcontext.name)
    (hid : getTokenString (tokenize m) "id".toList = some id) :
      getTokenStringFromMessage m "id".toList = some id := by
  have hlen := (mem_tokenize (List.mem_of_getElem? hname)).2
  have hsize : TextItem.removetextcontext.name.length = 17 := rfl
  have hkey : "id".toList.length = 2 := rfl
  have htokens : tokenize m = tokensFrom [] m := by
    unfold tokenize
    split
    · rw [show tokenize ('\x00' :: _) = [] from rfl] at hname
      cases hname
    · rfl
  unfold getTokenStringFromMessage
  rw [if_pos (by omega)]
  rw [htokens] at hid
  have hname : IsWord "id".toList := by decide
  exact findToken_of_tokens hname hid

/-- The counts of a combined message. -/
theorem beforeOf_removeMessage (r id : List Char) {before : Int} (hlow : -(2 ^ 31 : Int) ≤ before)
    (hhigh : before ≤ intMax) (after : Int) :
    getTokenInteger ["child-".toList ++ r, "removetextcontext".toList, "id=".toList ++ id,
      "before=".toList ++ COOLProtocol.toString before, "after=".toList ++ COOLProtocol.toString after]
      "before".toList = some before := by
  have hsession : tokenInteger "before".toList ("child-".toList ++ r) = none := rfl
  have hname : tokenInteger "before".toList "removetextcontext".toList = none := rfl
  have hid : tokenInteger "before".toList ("id=".toList ++ id) = none := rfl
  have hbefore : tokenInteger "before".toList ("before=".toList ++ COOLProtocol.toString before) = some before :=
    tokenInteger_toString hlow hhigh
  unfold getTokenInteger
  simp only [List.findSome?_cons, hsession, hname, hid, hbefore]

theorem afterOf_removeMessage (r id : List Char) {after : Int} (hlow : -(2 ^ 31 : Int) ≤ after)
    (hhigh : after ≤ intMax) (before : Int) :
    getTokenInteger ["child-".toList ++ r, "removetextcontext".toList, "id=".toList ++ id,
      "before=".toList ++ COOLProtocol.toString before, "after=".toList ++ COOLProtocol.toString after]
      "after".toList = some after := by
  have hsession : tokenInteger "after".toList ("child-".toList ++ r) = none := rfl
  have hname : tokenInteger "after".toList "removetextcontext".toList = none := rfl
  have hid : tokenInteger "after".toList ("id=".toList ++ id) = none := rfl
  have hbefore : tokenInteger "after".toList ("before=".toList ++ COOLProtocol.toString before) = none := rfl
  have hafter : tokenInteger "after".toList ("after=".toList ++ COOLProtocol.toString after) = some after :=
    tokenInteger_toString hlow hhigh
  unfold getTokenInteger
  simp only [List.findSome?_cons, hsession, hname, hid, hbefore, hafter]

theorem combined_removetextcontext {queue rest : List Payload} {value new : Payload}
    (h : combineRemoveText queue (tokenize value) = some (rest, new)) (hqueue : ∀ m ∈ queue, IdOnLine m)
    (hfits : ∀ id, getTokenString (tokenize value) "id".toList = some id → ∀ queued ∈ queue,
      CountsFit (tokenize value) id queued)
    (hnamed : (getTokenString (tokenize value) "id".toList).isSome = true →
      (getTokenInteger (tokenize value) "before".toList).isSome = true →
        (getTokenInteger (tokenize value) "after".toList).isSome = true → Named value .removetextcontext) :
    ∃ front old behind session, queue = front ++ old :: behind ∧ rest = front ++ behind ∧
      Combined session .removetextcontext old value new behind := by
  unfold combineRemoveText at h
  simp only [Option.bind_eq_bind, Option.bind_eq_some_iff] at h
  obtain ⟨id, hid, before, hbefore, after, hafter, found, hfound, hrest⟩ := h
  obtain ⟨rfl, rfl⟩ := Prod.mk.inj (Option.some.inj hrest)
  obtain ⟨hname, r, hsession⟩ := hnamed (by rw [hid]; rfl) (by rw [hbefore]; rfl) (by rw [hafter]; rfl)
  obtain ⟨front, old, behind, rfl, hrest, hold, hbehind⟩ := findBack_queue hfound
  refine ⟨front, old, behind, "child-".toList ++ r, rfl, hrest, ?_⟩
  have hmem : old ∈ front ++ old :: behind := List.mem_append_right _ List.mem_cons_self
  -- the message that was found
  obtain ⟨⟨hsame, hname', hidMessage⟩, oldBefore, oldAfter, hbefore', hafter', hfound'⟩ :
      (sameSession (tokenize old) (tokenize value) = true ∧
      (tokenize old)[1]? = some TextItem.removetextcontext.name ∧
        getTokenStringFromMessage old "id".toList = some id) ∧
      ∃ oldBefore oldAfter, getTokenInteger (tokenize old) "before".toList = some oldBefore ∧
        getTokenInteger (tokenize old) "after".toList = some oldAfter ∧
        found.1 = ((tokenize old).getD 0 [], oldBefore, oldAfter) := by
    have hold := hold
    unfold queuedCounts at hold
    dsimp only at hold
    split at hold
    · rename_i hcond
      simp only [Bool.and_eq_true, beq_iff_eq] at hcond
      simp only [Option.bind_eq_bind, Option.bind_eq_some_iff] at hold
      obtain ⟨oldBefore, hbefore', oldAfter, hafter', hfound'⟩ := hold
      exact ⟨⟨hcond.1.1, hcond.1.2, hcond.2⟩, oldBefore, oldAfter, hbefore', hafter', (Option.some.inj hfound').symm⟩
    · cases hold
  -- its id is on the first line
  have hid' : getTokenString (tokenize old) "id".toList = some id := by
    obtain ⟨oldId, holdId⟩ := Option.isSome_iff_exists.1 (hqueue old hmem hname' (by rw [hidMessage]; rfl))
    have := idFromMessage hname' holdId
    rw [hidMessage] at this
    rw [holdId, ← this]
  have hsession' := (sameSession_iff hsession).1 hsame
  have hfirst : found.1 = ("child-".toList ++ r, oldBefore, oldAfter) := by
    rw [hfound', List.getD_eq_getElem?_getD, hsession']
    rfl
  obtain ⟨hbeforeLow, hbeforeHigh, hafterLow, hafterHigh⟩ :=
    hfits id hid old hmem _ _ _ _ _ (hfirst ▸ hold) hbefore hafter
  have hwrap : ∀ n : Int, -(2 ^ 31 : Int) ≤ n → n ≤ intMax → wrapInt n = n := by
    intro n hlow hhigh
    unfold intMax at hhigh
    unfold wrapInt
    rw [Int.bmod_eq_of_le] <;> omega
  have htokens := tokenize_removeMessage (isWord_session hsession) (isWord_value hid) (oldBefore + before)
    (oldAfter + after)
  rw [hfirst]
  dsimp only
  rw [hwrap _ hbeforeLow hbeforeHigh, hwrap _ hafterLow hafterHigh]
  refine ⟨⟨hsession', hsession, by rw [htokens]; rfl⟩, ⟨hname', hname, by rw [htokens]; rfl⟩, fun id' => ?_,
    fun x hx => (hbehind x hx).1, fun x hx hx₀ hx₁ id' => ?_, fun _ _ => ?_⟩
  · have hnewId : getTokenString
      (tokenize (removeMessage ("child-".toList ++ r) id (oldBefore + before) (oldAfter + after)))
        "id".toList = some id := by
      rw [htokens]
      rfl
    have hnewBefore := beforeOf_removeMessage r id hbeforeLow hbeforeHigh (oldAfter + after)
    have hnewAfter := afterOf_removeMessage r id hafterLow hafterHigh (oldBefore + before)
    rw [← htokens] at hnewBefore hnewAfter
    unfold editOf countsOf
    dsimp only
    rw [hnewId, hnewBefore, hnewAfter, hid', hbefore', hafter', hid, hbefore, hafter]
    by_cases hsameId : id = id'
    · simp [hsameId, Edit.then']
    · simp [hsameId, Edit.then', Edit.nothing]
  · have hnone := (hbehind x hx).2
    unfold queuedCounts at hnone
    dsimp only at hnone
    rw [(sameSession_iff hsession).2 hx₀, hx₁] at hnone
    unfold editOf countsOf
    dsimp only
    rw [hid']
    by_cases hsameId : id = id'
    · subst hsameId
      by_cases hxid : getTokenString (tokenize x) "id".toList = some id
      · simp only [idFromMessage hx₁ hxid, Bool.true_and, beq_self_eq_true, if_true] at hnone
        rw [if_pos hxid]
        have hnothing : (match getTokenInteger (tokenize x) "before".toList,
          getTokenInteger (tokenize x) "after".toList with
            | some before, some after => (⟨[], before, after⟩ : Edit)
            | _, _ => .nothing) = .nothing := by
          cases hb : getTokenInteger (tokenize x) "before".toList with
          | none => rfl
          | some b =>
            cases ha : getTokenInteger (tokenize x) "after".toList with
            | none => rfl
            | some a =>
              rw [hb, ha] at hnone
              cases hnone
        rw [hnothing]
        exact Edit.then_nothing _
      · rw [if_neg hxid]
        exact Edit.then_nothing _
    · rw [if_neg (fun h => hsameId (Option.some.inj h))]
      exact (Edit.then_nothing _).symm
  · rw [htokens]
    rfl

/-! ### Runs -/

/-- The queue and what was submitted for it. -/
structure TextQueue where
  queue : List Payload := []
  submitted : List Payload := []

def TextQueue.step (s : TextQueue) (value : Payload) : Option TextQueue :=
  (put s.queue value).map fun queue =>
    { queue, submitted := if isQueued value then s.submitted ++ [value] else s.submitted }

def TextQueue.IsInit (s : TextQueue) : Prop := s = {}

structure Inv (s : TextQueue) : Prop where
  preserves : Preserves s.submitted s.queue
  idOnLine : ∀ m ∈ s.queue, IdOnLine m

theorem Inv.append {s : TextQueue} (h : Inv s) {value : Payload} (hid : IdOnLine value) :
    Inv ⟨s.queue ++ [value], s.submitted ++ [value]⟩ := by
  refine ⟨h.preserves.append value, fun m hm => ?_⟩
  rcases List.mem_append.1 hm with hm | hm
  · exact h.idOnLine m hm
  · rwa [List.mem_singleton.1 hm]

/-- A message is put together with a queued one. -/
theorem inv_combine {s : TextQueue} {value new : Payload} {item : TextItem} {rest : List Payload} (h : Inv s)
    (hproper : Proper s.queue value) (hitem : textItem value (getFirstToken value) = some item)
    (hcombine : combine s.queue (tokenize value) item = some (rest, new)) :
    Inv ⟨rest ++ [new], s.submitted ++ [value]⟩ := by
  obtain ⟨front, old, behind, session, hqueue, rfl, hcombined⟩ : ∃ front old behind session,
      s.queue = front ++ old :: behind ∧ rest = front ++ behind ∧ Combined session item old value new behind := by
    cases item with
    | textinput => exact combined_textinput hcombine (hproper.textinput hitem)
    | removetextcontext =>
      exact combined_removetextcontext hcombine h.idOnLine hproper.fits (hproper.removetextcontext hitem)
  have hpreserves := h.preserves
  rw [hqueue] at hpreserves
  refine ⟨hcombined.preserves hpreserves, fun m hm => ?_⟩
  rcases List.mem_append.1 hm with hm | hm
  · refine h.idOnLine m ?_
    rw [hqueue]
    rcases List.mem_append.1 hm with hm | hm
    · exact List.mem_append_left _ hm
    · exact List.mem_append_right _ (List.mem_cons_of_mem _ hm)
  · rw [List.mem_singleton.1 hm]
    exact hcombined.idOnLine

theorem inv_step {s s' : TextQueue} {value : Payload} (h : Inv s) (hproper : Proper s.queue value)
    (hstep : s.step value = some s') : Inv s' := by
  obtain ⟨queue, hput, rfl⟩ := Option.map_eq_some_iff.1 hstep
  unfold put at hput
  by_cases hempty : value = []
  · rw [if_pos hempty] at hput
    cases hput
  rw [if_neg hempty] at hput
  cases hqueued : isQueued value with
  | false =>
    rw [hqueued] at hput
    obtain rfl := Option.some.inj hput
    exact h
  | true =>
    rw [hqueued] at hput
    simp only [Bool.not_true, Bool.false_eq_true, if_false] at hput
    simp only [if_true]
    cases hitem : textItem value (getFirstToken value) with
    | none =>
      rw [hitem] at hput
      obtain rfl := Option.some.inj hput
      exact h.append hproper.idOnLine
    | some item =>
      rw [hitem] at hput
      dsimp only at hput
      cases hcombine : combine s.queue (tokenize value) item with
      | none =>
        rw [hcombine] at hput
        obtain rfl := Option.some.inj hput
        exact h.append hproper.idOnLine
      | some r =>
        rw [hcombine] at hput
        obtain rfl := Option.some.inj hput
        exact inv_combine h hproper hitem hcombine

/-- Whatever is put into the queue in this way, the queue says the same. -/
theorem preserves_of_proper {s : TextQueue}
    (h : Run.Reachable TextQueue.IsInit TextQueue.step (fun s value => Proper s.queue value) s) :
    Preserves s.submitted s.queue := by
  refine (h.invariant Inv (fun s hinit => ?_) fun _ _ _ _ hinv hok hstep => inv_step hinv hok hstep).preserves
  rw [hinit]
  exact ⟨⟨fun _ _ => rfl, fun _ _ => rfl, rfl⟩, fun m hm => absurd hm List.not_mem_nil⟩

/-- The sum of the counts is no `int`. -/
theorem exists_not_preserves : ∃ s : TextQueue, Run.Reachable TextQueue.IsInit TextQueue.step Run.Any s ∧
    ¬ Preserves s.submitted s.queue := by
  have hinit : TextQueue.IsInit {} := rfl
  have hrun : ∃ s : TextQueue, Run.Reachable TextQueue.IsInit TextQueue.step Run.Any s ∧
      decide ((total Edit.then' .nothing (edits "child-1".toList "0".toList s.queue)).before ≠
        (total Edit.then' .nothing (edits "child-1".toList "0".toList s.submitted)).before) = true :=
    Run.Reachable.exists_of_run {} ["child-1 removetextcontext id=0 before=2147483647 after=0".toList,
      "child-1 removetextcontext id=0 before=1 after=0".toList] hinit (by decide +kernel)
  obtain ⟨s, hs, hdiffer⟩ := hrun
  refine ⟨s, hs, fun hpreserves => ?_⟩
  have hdiffer := of_decide_eq_true hdiffer
  rw [hpreserves.edits] at hdiffer
  exact hdiffer rfl

/-- Two characters are removed in one go. -/
theorem preserves_removed : ∃ s : TextQueue, Preserves s.submitted s.queue ∧
    s.queue = ["child-1 removetextcontext id=0 before=2 after=0".toList] := by
  let m : Payload := "child-1 removetextcontext id=0 before=1 after=0".toList
  have hnamed : Named m .removetextcontext := ⟨by decide +kernel, "1".toList, by decide +kernel⟩
  have hid : getTokenString (tokenize m) "id".toList = some "0".toList := by decide +kernel
  have hproper : ∀ queue, (∀ id, getTokenString (tokenize m) "id".toList = some id → ∀ queued ∈ queue,
      CountsFit (tokenize m) id queued) → Proper queue m := by
    intro queue hfits
    refine ⟨fun _ _ => by rw [hid]; rfl, fun hitem => ?_, fun _ _ _ _ => hnamed, hfits⟩
    exact absurd hitem (by decide +kernel)
  have hput : put [m] m = some ["child-1 removetextcontext id=0 before=2 after=0".toList] := by decide +kernel
  have hfirst : put [] m = some [m] := by decide +kernel
  have hqueued : isQueued m = true := by decide +kernel
  have h₁ : Run.Reachable TextQueue.IsInit TextQueue.step (fun s value => Proper s.queue value) ⟨[m], [m]⟩ := by
    refine .next (e := m) (.start rfl) (hproper [] fun _ _ queued hm => absurd hm List.not_mem_nil) ?_
    unfold TextQueue.step
    dsimp only
    rw [hfirst, hqueued]
    rfl
  have h₂ : Run.Reachable TextQueue.IsInit TextQueue.step (fun s value => Proper s.queue value)
      ⟨["child-1 removetextcontext id=0 before=2 after=0".toList], [m, m]⟩ := by
    refine .next (e := m) h₁ (hproper [m] fun id hid' queued hm => ?_) ?_
    · obtain rfl := List.mem_singleton.1 hm
      rw [hid] at hid'
      obtain rfl := Option.some.inj hid'
      intro session before after before' after' hcounts hbefore hafter
      have hcounts' : queuedCounts (tokenize m) "0".toList m = some ("child-1".toList, 1, 0) := by decide +kernel
      have hbefore' : getTokenInteger (tokenize m) "before".toList = some 1 := by decide +kernel
      have hafter' : getTokenInteger (tokenize m) "after".toList = some 0 := by decide +kernel
      rw [hcounts'] at hcounts
      rw [hbefore'] at hbefore
      rw [hafter'] at hafter
      obtain ⟨-, rfl, rfl⟩ : _ ∧ 1 = before' ∧ 0 = after' := by simpa using hcounts
      obtain rfl := Option.some.inj hbefore
      obtain rfl := Option.some.inj hafter
      decide
    · unfold TextQueue.step
      dsimp only
      rw [hput, hqueued]
      rfl
  exact ⟨_, preserves_of_proper h₂, rfl⟩

end KitQueue

end CollaboraOnline
