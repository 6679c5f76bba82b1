import CollaboraOnline.Wsd.TileInvalidation

/-!
# The callbacks of the kit

`putCallback` queues a callback of the document, after `elideDuplicateCallback` has taken out of the queue what it
makes obsolete.  The parser of the JSON payloads that have the id of a view is a parameter; it throws where it gives
`none`.
-/

namespace CollaboraOnline

/-- The callbacks that the queue treats in their own way. -/
inductive CallbackType
  | LOK_CALLBACK_INVALIDATE_TILES
  | LOK_CALLBACK_STATE_CHANGED
  | LOK_CALLBACK_INVALIDATE_VISIBLE_CURSOR
  | LOK_CALLBACK_CURSOR_VISIBLE
  | LOK_CALLBACK_STATUS_INDICATOR_SET_VALUE
  | LOK_CALLBACK_DOCUMENT_SIZE_CHANGED
  | LOK_CALLBACK_CELL_CURSOR
  | LOK_CALLBACK_INVALIDATE_VIEW_CURSOR
  | LOK_CALLBACK_CELL_VIEW_CURSOR
  | LOK_CALLBACK_VIEW_CURSOR_VISIBLE
  | other (type : Int)
deriving DecidableEq, Repr

/-- The types of which a callback takes the place of the queued one. -/
def CallbackType.isStatus : CallbackType → Bool
  | LOK_CALLBACK_INVALIDATE_VISIBLE_CURSOR | LOK_CALLBACK_CURSOR_VISIBLE | LOK_CALLBACK_STATUS_INDICATOR_SET_VALUE
  | LOK_CALLBACK_DOCUMENT_SIZE_CHANGED | LOK_CALLBACK_CELL_CURSOR => true
  | _ => false

/-- The types whose payload names the view that a callback is about. -/
def CallbackType.isViewCallback : CallbackType → Bool
  | LOK_CALLBACK_INVALIDATE_VIEW_CURSOR | LOK_CALLBACK_CELL_VIEW_CURSOR | LOK_CALLBACK_VIEW_CURSOR_VISIBLE => true
  | _ => false

structure Callback where
  view : Int
  type : CallbackType
  payload : List Char
deriving DecidableEq, Repr

/-- Of the same type and view. -/
def Callback.isLike (it : Callback) (view : Int) (type : CallbackType) : Bool := it.type == type && it.view == view

/-! ### Invalidations -/

/-- A rectangle in twips, with its part and mode. -/
structure TileArea where
  x : Int
  y : Int
  w : Int
  h : Int
  part : Int
  mode : Int
deriving DecidableEq, Repr

namespace TileArea

open COOLProtocol

/-- `std::atoi`. -/
def atoi (s : List Char) : Int := ((strtol s).map wrapInt).getD 0

/-- `extractRectangle` on the tokens of a payload. -/
def extractRectangle : List (List Char) → Option TileArea
  | first :: second :: tokens =>
    if first = "EMPTY,".toList then some ⟨0, 0, intMax, intMax, atoi second, (tokens.head?.map atoi).getD 0⟩
    else
      match tokens with
      | w :: h :: part :: tokens =>
        some ⟨atoi first, atoi second, atoi w, atoi h, atoi part, match tokens with | [mode] => atoi mode | _ => 0⟩
      | _ => none
  | _ => none

/-- The end of the area on an axis. -/
def sum (start extent : Int) : Int := wrapInt (start + extent)

def right (r : TileArea) : Int := sum r.x r.w

def bottom (r : TileArea) : Int := sum r.y r.h

/-- `TileDesc::rectanglesIntersect`. -/
def rectanglesIntersect (a b : TileArea) : Bool :=
  max a.x b.x ≤ min a.right b.right && max a.y b.y ≤ min a.bottom b.bottom

/-- The queued area counts as covered. -/
def covers (msg queued : TileArea) : Bool :=
  msg.x ≤ queued.x && queued.right ≤ msg.right && msg.y ≤ queued.y && queued.bottom ≤ msg.bottom

def join (msg queued : TileArea) : TileArea :=
  { msg with
    x := min msg.x queued.x
    y := min msg.y queued.y
    w := wrapInt (max msg.right queued.right - min msg.x queued.x)
    h := wrapInt (max msg.bottom queued.bottom - min msg.y queued.y) }

def reasonableSizeX : Int := 4 * 3840

def reasonableSizeY : Int := 2 * 3840

/-- What a round of the loop does with a queued area of the same view, part and mode. -/
inductive Round
  | covered
  | joined (msg : TileArea)
  | kept
deriving DecidableEq

def round (msg queued : TileArea) : Round :=
  if msg.covers queued then .covered
  else if rectanglesIntersect msg queued then
    if reasonableSizeX < (msg.join queued).w ∨ reasonableSizeY < (msg.join queued).h then .kept
    else .joined (msg.join queued)
  else .kept

/-- The area of a queued callback, if it is compared with the message. -/
def queuedArea (view : Int) (msg : TileArea) (it : Callback) : Option TileArea :=
  if it.isLike view .LOK_CALLBACK_INVALIDATE_TILES then
    (extractRectangle (tokenize it.payload)).filter fun queued => msg.part = queued.part ∧ msg.mode = queued.mode
  else none

/-- The loop over the queue: the area at its end, whether a merge was performed, and what is left. -/
def elide (view : Int) : TileArea → List Callback → TileArea × Bool × List Callback
  | msg, [] => (msg, false, [])
  | msg, it :: callbacks =>
    match queuedArea view msg it with
    | none =>
      let (msg, performedMerge, callbacks) := elide view msg callbacks
      (msg, performedMerge, it :: callbacks)
    | some queued =>
      match round msg queued with
      | .covered => elide view msg callbacks
      | .joined msg =>
        let (msg, _, callbacks) := elide view msg callbacks
        (msg, true, callbacks)
      | .kept =>
        let (msg, performedMerge, callbacks) := elide view msg callbacks
        (msg, performedMerge, it :: callbacks)

/-- The payload of a merged callback: the rest is taken from the message. -/
def newPayload (msg : TileArea) (tokens : List (List Char)) : List Char :=
  COOLProtocol.toString msg.x ++ ", ".toList ++ COOLProtocol.toString msg.y ++ ", ".toList ++
    COOLProtocol.toString msg.w ++ ", ".toList ++ COOLProtocol.toString msg.h ++ ", ".toList ++
    [' '].intercalate (tokens.drop 4)

end TileArea

/-! ### Texts of payloads -/

/-- Extract the .uno: command ID from the potential command. -/
def extractUnoCommand (command : List Char) : List Char :=
  if ".uno:".toList.isPrefixOf command then command.takeWhile (· != '=') else []

/-- `s.compare(pos, len, other) == 0`. -/
def compareEqual (s : List Char) (pos len : Nat) (other : List Char) : Bool := (s.drop pos).take len == other

/-- The test for an obsolete state of the same command. -/
def isObsoleteState (unoCommand payload : List Char) : Bool :=
  !(payload.length < unoCommand.length + 1 || !compareEqual unoCommand 0 unoCommand.length payload ||
    payload[unoCommand.length]? != some '=')

namespace KitQueue

variable (extractViewId : List Char → Option (List Char))

/-- The loop that erases the callback of the same view id; `none` where a payload cannot be parsed. -/
def eraseViewCallback (view : Int) (type : CallbackType) (viewId : List Char) : List Callback → Option (List Callback)
  | [] => some []
  | it :: callbacks =>
    if !it.isLike view type then (eraseViewCallback view type viewId callbacks).map (it :: ·)
    else
      (extractViewId it.payload).bind fun queuedViewId =>
        if viewId = queuedViewId then some callbacks
        else (eraseViewCallback view type viewId callbacks).map (it :: ·)

/-- Whether the callback is elided, and the queue; `none` where a payload cannot be parsed. -/
def elideDuplicateCallback (callbacks : List Callback) (view : Int) (type : CallbackType) (payload : List Char) :
    Option (Bool × List Callback) :=
  if callbacks = [] then some (false, callbacks)
  else if type = .LOK_CALLBACK_INVALIDATE_TILES then
    let tokens := COOLProtocol.tokenize payload
    match TileArea.extractRectangle tokens with
    | none => some (false, callbacks)
    | some msg =>
      let (msg, performedMerge, callbacks) := msg.elide view callbacks
      if performedMerge then some (true, callbacks ++ [⟨view, type, msg.newPayload tokens⟩])
      else some (false, callbacks)
  else if type = .LOK_CALLBACK_STATE_CHANGED then
    let unoCommand := extractUnoCommand payload
    if unoCommand = [] then some (false, callbacks)
    else if unoCommand = ".uno:ModifiedStatus".toList then some (false, callbacks)
    else some (false, callbacks.eraseP fun it => it.isLike view type && isObsoleteState unoCommand it.payload)
  else if type.isStatus then some (false, callbacks.eraseP fun it => it.isLike view type)
  else if type.isViewCallback then
    (extractViewId payload).bind fun viewId =>
      (eraseViewCallback extractViewId view type viewId callbacks).map fun callbacks => (false, callbacks)
  else some (false, callbacks)

def putCallback (callbacks : List Callback) (view : Int) (type : CallbackType) (payload : List Char) :
    Option (List Callback) :=
  (elideDuplicateCallback extractViewId callbacks view type payload).map fun (elided, callbacks) =>
    if elided then callbacks else callbacks ++ [⟨view, type, payload⟩]

end KitQueue

end CollaboraOnline
