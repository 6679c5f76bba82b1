import CollaboraOnline.Lib.Memo
import CollaboraOnline.Common.StringVector

/-!
# Settings of the page

The functions of `wsd/FileServerUtil` that turn parameters of the request for the page into JSON and CSS.  Each of
them remembers its last argument in a static, and exits early where it is called with it again.  What they give does
not depend on the earlier calls but for two early exits: that of `uiDefaultsToJSON` leaves two of its outputs as the
caller has them, and that of `cssVarsToStyle` gives the initial value of its static for an empty argument
(`outputs_fresh_iff`).
-/

namespace CollaboraOnline

namespace FileServer

open Http (text)
open StringVector (tokenize equals)

/-! ### Texts -/

def SEMICOLON : UInt8 := 0x3b
def EQUALS : UInt8 := 0x3d

def startsWith (keyValue : List (List UInt8)) (string : String) : Bool :=
    (text string).isPrefixOf (keyValue.getD 0 [])

/-! ### JSON -/

/-- The values that are set. -/
inductive Value
  | string (s : List UInt8)
  | bool (b : Bool)
  | object (o : List (List UInt8 × List UInt8))
deriving DecidableEq

/-- An object as its members; their order is a matter of the stringifier. -/
abbrev Object := List (List UInt8 × Value)

def setMember {α : Type} (o : List (List UInt8 × α)) (key : List UInt8) (value : α) : List (List UInt8 × α) :=
  if o.any fun member => member.1 = key then o.map fun member => if member.1 = key then (key, value) else member
  else o ++ [(key, value)]

/-! ### Defaults of the user interface -/

/-- The objects that the loop over the defaults fills, and its outputs. -/
structure Defaults where
  json : Object := []
  textDefs : List (List UInt8 × List UInt8) := []
  spreadsheetDefs : List (List UInt8 × List UInt8) := []
  presentationDefs : List (List UInt8 × List UInt8) := []
  drawingDefs : List (List UInt8 × List UInt8) := []
  uiMode : List UInt8 := []
  uiTheme : List UInt8 := text "light"
  savedUIState : List UInt8 := text "true"

def isWidget (key : List UInt8) : Bool :=
  key = text "Ruler" || key = text "Sidebar" || key = text "Statusbar" || key = text "Toolbar"

/-- `currentDef->set`, for a widget. -/
def setWidget (currentDef : List (List UInt8 × List UInt8)) (keyValue : List (List UInt8)) (key : List UInt8) :
    List (List UInt8 × List UInt8) :=
  if isWidget key then
    setMember currentDef (text "Show" ++ key)
      (if equals keyValue 1 "false" || equals keyValue 1 "False" || equals keyValue 1 "0" then text "false"
        else text "true")
  else currentDef

/-- The body of the loop. -/
def setDefault (d : Defaults) (token : List UInt8) : Defaults :=
  let keyValue := tokenize token EQUALS
  if equals keyValue 0 "UIMode" then
    if equals keyValue 1 "compact" || equals keyValue 1 "classic" then
      { d with json := setMember d.json (text "uiMode") (.string (text "classic")), uiMode := text "classic" }
    else if equals keyValue 1 "tabbed" || equals keyValue 1 "notebookbar" then
      { d with json := setMember d.json (text "uiMode") (.string (text "notebookbar")), uiMode := text "notebookbar" }
    else d
  else if equals keyValue 0 "UITheme" then
    { d with
      json := setMember d.json (text "darkTheme")
        (.string (if equals keyValue 1 "dark" then text "true" else text "false"))
      uiTheme := keyValue.getD 1 [] }
  else
    -- there is no `continue` here, but no other branch takes this key
    let d := if equals keyValue 0 "SavedUIState" then
        { d with savedUIState := if equals keyValue 1 "false" then text "false" else text "true" }
      else d
    if equals keyValue 0 "SaveAsMode" then
      if equals keyValue 1 "group" then
        { d with json := setMember d.json (text "saveAsMode") (.string (text "group")) }
      else d
    else if equals keyValue 0 "TouchscreenHint" then
      { d with json := setMember d.json (text "touchscreenHint") (.string (keyValue.getD 1 [])) }
    else if equals keyValue 0 "OnscreenKeyboardHint" then
      { d with json := setMember d.json (text "onscreenKeyboardHint") (.string (keyValue.getD 1 [])) }
    else if startsWith keyValue "Text" then
      { d with textDefs := setWidget d.textDefs keyValue ((keyValue.getD 0 []).drop 4) }
    else if startsWith keyValue "Spreadsheet" then
      { d with spreadsheetDefs := setWidget d.spreadsheetDefs keyValue ((keyValue.getD 0 []).drop 11) }
    else if startsWith keyValue "Presentation" then
      { d with presentationDefs := setWidget d.presentationDefs keyValue ((keyValue.getD 0 []).drop 12) }
    else if startsWith keyValue "Drawing" then
      { d with drawingDefs := setWidget d.drawingDefs keyValue ((keyValue.getD 0 []).drop 7) }
    else d

def setDefs (json : Object) (key : String) (defs : List (List UInt8 × List UInt8)) : Object :=
  if 0 < defs.length then setMember json (text key) (.object defs) else json

/-- What `uiDefaultsToJSON` returns and its output parameters. -/
structure UIOutputs where
  json : List UInt8
  uiMode : List UInt8
  uiTheme : List UInt8
  savedUIState : List UInt8
deriving DecidableEq

/-- `uiDefaultsToJSON` behind its early exit. -/
def computeUIDefaults (stringify : Object → List UInt8) (uiDefaults : List UInt8) : UIOutputs :=
  let d := (tokenize uiDefaults SEMICOLON).foldl setDefault {}
  let json :=
    setDefs (setDefs (setDefs (setDefs d.json "text" d.textDefs) "spreadsheet" d.spreadsheetDefs) "presentation"
    d.presentationDefs) "drawing" d.drawingDefs
  ⟨stringify json, d.uiMode, d.uiTheme, d.savedUIState⟩

/-! ### Overrides of the file information -/

/-- `checkFileInfoToJSON` behind its early exit. -/
def computeCheckFileInfo (stringify : Object → List UInt8) (checkfileInfo : List UInt8) : List UInt8 :=
  stringify ((tokenize checkfileInfo SEMICOLON).foldl (fun json token =>
    let keyValue := tokenize token EQUALS
    if equals keyValue 0 "DownloadAsPostMessage" then
      setMember json (keyValue.getD 0 [])
        (.bool (equals keyValue 1 "true" || equals keyValue 1 "True" || equals keyValue 1 "1"))
    else json) [])

/-! ### CSS -/

/-- The characters are signed. -/
def isValidCss (token : List UInt8) : Bool :=
  token.all fun c => !(c < 0x20 || 0x7f ≤ c || (text "<>\x7b\x7d&|\\\"^\x60\x27$[]").contains c)

def encodingTable : List UInt8 := text "ABCDEFGHIJKLMNOPQRSTUVWXYZabcdefghijklmnopqrstuvwxyz0123456789+/"

def encoding (i : UInt8) : UInt8 := encodingTable.getD i.toNat 0

/-- `Base64::Encode`, for at least two bytes. -/
def base64 : List UInt8 → List UInt8
  | a :: b :: c :: data =>
    encoding (a >>> 2) :: encoding ((a &&& 0x3) <<< 4 ||| b >>> 4) :: encoding ((b &&& 0xf) <<< 2 ||| c >>> 6) ::
      encoding (c &&& 0x3f) :: base64 data
  | [a, b] => [encoding (a >>> 2), encoding ((a &&& 0x3) <<< 4 ||| b >>> 4), encoding ((b &&& 0xf) <<< 2), EQUALS]
  | [a] => [encoding (a >>> 2), encoding ((a &&& 0x3) <<< 4), EQUALS, EQUALS]
  | [] => []

/-- `cssVarsToStyle` behind its early exit. -/
def computeStyle (cssVars : List UInt8) : List UInt8 :=
  base64 (text ":root \x7b" ++ (tokenize cssVars SEMICOLON).flatMap (fun param =>
    match tokenize param EQUALS with
    | [key, value] => if isValidCss param then key ++ text ":" ++ value ++ text ";" else []
    | _ => []) ++ text "\x7d")

/-! ### Calls -/

/-- The statics of the three functions. -/
structure Statics where
  uiDefaults : Memo (List UInt8) (List UInt8 × List UInt8) := ⟨[], text "\x7b\x7d", []⟩
  checkFileInfo : Memo (List UInt8) (List UInt8) := ⟨[], text "\x7b\x7d"⟩
  cssVars : Memo (List UInt8) (List UInt8) := ⟨[], []⟩

/-- What `uiDefaultsToJSON` remembers. -/
def rememberUIDefaults (stringify : Object → List UInt8) (uiDefaults : List UInt8) : List UInt8 × List UInt8 :=
  ((computeUIDefaults stringify uiDefaults).json, (computeUIDefaults stringify uiDefaults).uiMode)

/-- `uiTheme` and `savedUIState` are the caller's. -/
def uiDefaultsToJSON (stringify : Object → List UInt8) (s : Statics) (uiDefaults uiTheme savedUIState : List UInt8) :
    Statics × UIOutputs :=
  let fresh := computeUIDefaults stringify uiDefaults
  let r := Memo.call (rememberUIDefaults stringify) s.uiDefaults uiDefaults
  if uiDefaults = s.uiDefaults.argument then ({ s with uiDefaults := r.1 }, ⟨r.2.1, r.2.2, uiTheme, savedUIState⟩)
  else ({ s with uiDefaults := r.1 }, ⟨r.2.1, r.2.2, fresh.uiTheme, fresh.savedUIState⟩)

def checkFileInfoToJSON (stringify : Object → List UInt8) (s : Statics) (checkfileInfo : List UInt8) :
    Statics × List UInt8 :=
  let r := Memo.call (computeCheckFileInfo stringify) s.checkFileInfo checkfileInfo
  ({ s with checkFileInfo := r.1 }, r.2)

def cssVarsToStyle (s : Statics) (cssVars : List UInt8) : Statics × List UInt8 :=
  let r := Memo.call computeStyle s.cssVars cssVars
  ({ s with cssVars := r.1 }, r.2)

/-- A call with its arguments; the output parameters are as the caller has them. -/
inductive Call
  | uiDefaultsToJSON (uiDefaults uiMode uiTheme savedUIState : List UInt8)
  | checkFileInfoToJSON (checkfileInfo : List UInt8)
  | cssVarsToStyle (cssVars : List UInt8)
deriving DecidableEq

/-- The returned value and the output parameters. -/
inductive Outputs
  | ui (outputs : UIOutputs)
  | text (result : List UInt8)
deriving DecidableEq

def serve (stringify : Object → List UInt8) (s : Statics) : Call → Statics × Outputs
  | .uiDefaultsToJSON uiDefaults _ uiTheme savedUIState =>
    let r := uiDefaultsToJSON stringify s uiDefaults uiTheme savedUIState
    (r.1, .ui r.2)
  | .checkFileInfoToJSON checkfileInfo =>
    let r := checkFileInfoToJSON stringify s checkfileInfo
    (r.1, .text r.2)
  | .cssVarsToStyle cssVars =>
    let r := cssVarsToStyle s cssVars
    (r.1, .text r.2)

/-- The statics after earlier calls. -/
def after (stringify : Object → List UInt8) (earlier : List Call) : Statics :=
  earlier.foldl (fun s call => (serve stringify s call).1) {}

/-- What a computation of the argument gives. -/
def fresh (stringify : Object → List UInt8) : Call → Outputs
  | .uiDefaultsToJSON uiDefaults _ _ _ => .ui (computeUIDefaults stringify uiDefaults)
  | .checkFileInfoToJSON checkfileInfo => .text (computeCheckFileInfo stringify checkfileInfo)
  | .cssVarsToStyle cssVars => .text (computeStyle cssVars)

/-! ### The calls do not depend on earlier ones -/

def Call.uiArgument : Call → Option (List UInt8)
  | .uiDefaultsToJSON uiDefaults _ _ _ => some uiDefaults
  | _ => none

def Call.checkFileInfoArgument : Call → Option (List UInt8)
  | .checkFileInfoToJSON checkfileInfo => some checkfileInfo
  | _ => none

def Call.cssArgument : Call → Option (List UInt8)
  | .cssVarsToStyle cssVars => some cssVars
  | _ => none

/-- The tokens of an argument that set a key, with their values. -/
def settings (uiDefaults : List UInt8) (key : String) : List (List (List UInt8)) :=
  ((tokenize uiDefaults SEMICOLON).map fun token => tokenize token EQUALS).filter fun keyValue =>
    equals keyValue 0 key

/-- The value of the last setting of a key. -/
def lastSetting (uiDefaults : List UInt8) (key : String) (value : List (List UInt8) → List UInt8) (default : String) :
    List UInt8 :=
  ((settings uiDefaults key).getLast?.map value).getD (text default)

def savedState (keyValue : List (List UInt8)) : List UInt8 :=
  if equals keyValue 1 "false" then text "false" else text "true"

/-- The call leaves the early exit, or its caller passes the theme and the state that the argument sets. -/
def Unaffected (earlier : List Call) : Call → Prop
  | .uiDefaultsToJSON uiDefaults _ uiTheme savedUIState =>
    uiDefaults ≠ ((earlier.filterMap Call.uiArgument).getLast?).getD [] ∨
      uiTheme = lastSetting uiDefaults "UITheme" (fun keyValue => keyValue.getD 1 []) "light" ∧
        savedUIState = lastSetting uiDefaults "SavedUIState" savedState "true"
  | .checkFileInfoToJSON _ => True
  | .cssVarsToStyle cssVars => cssVars ≠ [] ∨ ∃ vars ∈ earlier.filterMap Call.cssArgument, vars ≠ []

instance (earlier : List Call) : (call : Call) → Decidable (Unaffected earlier call)
  | .uiDefaultsToJSON .. => inferInstanceAs (Decidable (_ ∨ _ ∧ _))
  | .checkFileInfoToJSON _ => inferInstanceAs (Decidable True)
  | .cssVarsToStyle _ => inferInstanceAs (Decidable (_ ∨ ∃ vars ∈ earlier.filterMap Call.cssArgument, vars ≠ []))

variable {stringify : Object → List UInt8} {s : Statics}

/-- A token sets the theme and the state by its key only. -/
theorem setDefault_settings (d : Defaults) (token : List UInt8) :
    (setDefault d token).uiTheme =
        (if equals (tokenize token EQUALS) 0 "UITheme" then (tokenize token EQUALS).getD 1 [] else d.uiTheme) ∧
      (setDefault d token).savedUIState =
        if equals (tokenize token EQUALS) 0 "SavedUIState" then savedState
          (tokenize token EQUALS) else d.savedUIState := by
  unfold setDefault savedState
  generalize tokenize token EQUALS = keyValue
  have hkeys : ∀ {a b : String}, text a ≠ text b → equals keyValue 0 a = true → equals keyValue 0 b = false := by
    intro a b hne ha
    simp only [equals, decide_eq_true_eq] at ha
    simp [equals, ha, hne]
  dsimp only
  by_cases hmode : equals keyValue 0 "UIMode" = true
  · rw [if_pos hmode, hkeys (b := "UITheme") (by decide) hmode, hkeys (b := "SavedUIState") (by decide) hmode]
    split
    · exact ⟨rfl, rfl⟩
    · split
      · exact ⟨rfl, rfl⟩
      · exact ⟨rfl, rfl⟩
  rw [if_neg hmode]
  by_cases htheme : equals keyValue 0 "UITheme" = true
  · rw [if_pos htheme, if_pos htheme, hkeys (b := "SavedUIState") (by decide) htheme]
    exact ⟨rfl, rfl⟩
  rw [if_neg htheme, if_neg htheme]
  -- the state is set before the other keys are looked at, and these leave both alone
  generalize hd : (if equals keyValue 0 "SavedUIState" then
      { d with savedUIState := if equals keyValue 1 "false" then text "false" else text "true" } else d : Defaults) =
        d'
  have hset : d'.uiTheme = d.uiTheme ∧ d'.savedUIState =
      if equals keyValue 0 "SavedUIState" then (if equals keyValue 1 "false" then text "false" else text "true")
      else d.savedUIState := by
    rw [← hd]
    split
    · exact ⟨rfl, rfl⟩
    · exact ⟨rfl, rfl⟩
  rw [← hset.1, ← hset.2]
  split_ifs <;> exact ⟨rfl, rfl⟩

/-- The outputs that are not remembered are those of the last tokens that set them. -/
theorem computeUIDefaults_settings (uiDefaults : List UInt8) :
    (computeUIDefaults stringify uiDefaults).uiTheme =
        lastSetting uiDefaults "UITheme" (fun keyValue => keyValue.getD 1 []) "light" ∧
      (computeUIDefaults stringify uiDefaults).savedUIState =
        lastSetting uiDefaults "SavedUIState" savedState "true" := by
  unfold computeUIDefaults lastSetting settings
  dsimp only
  induction tokenize uiDefaults SEMICOLON using List.reverseRecOn with
  | nil => exact ⟨rfl, rfl⟩
  | append_singleton tokens token ih =>
    obtain ⟨htheme, hstate⟩ := setDefault_settings (tokens.foldl setDefault {}) token
    rw [List.foldl_append, List.foldl_cons, List.foldl_nil, htheme, hstate, ih.1, ih.2]
    simp only [List.map_append, List.map_cons, List.map_nil, List.filter_append, List.filter_cons, List.filter_nil]
    constructor
    · cases equals (tokenize token EQUALS) 0 "UITheme" with
      | true => simp
      | false => simp
    · cases equals (tokenize token EQUALS) 0 "SavedUIState" with
      | true => simp
      | false => simp

variable (stringify s) in
theorem serve_statics (call : Call) :
    (serve stringify s call).1.uiDefaults =
        Memo.run (rememberUIDefaults stringify) s.uiDefaults call.uiArgument.toList ∧
      (serve stringify s call).1.checkFileInfo =
        Memo.run (computeCheckFileInfo stringify) s.checkFileInfo call.checkFileInfoArgument.toList ∧
      (serve stringify s call).1.cssVars = Memo.run computeStyle s.cssVars call.cssArgument.toList := by
  cases call with
  | uiDefaultsToJSON uiDefaults uiMode uiTheme savedUIState =>
    unfold serve uiDefaultsToJSON
    dsimp only
    split
    · exact ⟨rfl, rfl, rfl⟩
    · exact ⟨rfl, rfl, rfl⟩
  | checkFileInfoToJSON checkfileInfo => exact ⟨rfl, rfl, rfl⟩
  | cssVarsToStyle cssVars => exact ⟨rfl, rfl, rfl⟩

variable (stringify) in
/-- Each static is the memo of its own calls. -/
theorem after_statics (earlier : List Call) :
    (after stringify earlier).uiDefaults =
        Memo.run (rememberUIDefaults stringify) ⟨[], text "\x7b\x7d", []⟩ (earlier.filterMap Call.uiArgument) ∧
      (after stringify earlier).checkFileInfo =
        Memo.run (computeCheckFileInfo stringify) ⟨[], text "\x7b\x7d"⟩
          (earlier.filterMap Call.checkFileInfoArgument) ∧
      (after stringify earlier).cssVars = Memo.run computeStyle ⟨[], []⟩ (earlier.filterMap Call.cssArgument) := by
  induction earlier using List.reverseRecOn with
  | nil => exact ⟨rfl, rfl, rfl⟩
  | append_singleton earlier call ih =>
    have hafter : after stringify (earlier ++ [call]) = (serve stringify (after stringify earlier) call).1 := by
      simp [after]
    obtain ⟨hui, hinfo, hcss⟩ := serve_statics stringify (after stringify earlier) call
    have hsnoc : ∀ {β : Type} (f : List UInt8 → β) (m : Memo (List UInt8) β) (arg : Call → Option (List UInt8)),
        Memo.run f m ((earlier ++ [call]).filterMap arg) =
          Memo.run f (Memo.run f m (earlier.filterMap arg)) (arg call).toList := by
      intro β f m arg
      rw [List.filterMap_append, Memo.run, List.foldl_append]
      cases h : arg call with
      | none => simp [h, Memo.run]
      | some a => simp [h, Memo.run]
    rw [hafter, hui, hinfo, hcss, ih.1, ih.2.1, ih.2.2]
    exact ⟨(hsnoc _ _ _).symm, (hsnoc _ _ _).symm, (hsnoc _ _ _).symm⟩

theorem argument_run_eq {β : Type} (f : List UInt8 → β) (r : β) (as : List (List UInt8)) :
    (Memo.run f ⟨[], r⟩ as).argument = (as.getLast?).getD [] := by
  induction as using List.reverseRecOn with
  | nil => rfl
  | append_singleton as a _ => rw [Memo.argument_run_append, List.getLast?_append, List.getLast?_singleton]; rfl

theorem base64_ne_nil {a b c : UInt8} {data : List UInt8} : base64 (a :: b :: c :: data) ≠ [] := by
  rw [base64]
  exact List.cons_ne_nil _ _

/-- The calls give what a computation gives, but for the two early exits. -/
theorem outputs_fresh_iff (hstringify : stringify [] = text "\x7b\x7d") (earlier : List Call) (call : Call) :
    (serve stringify (after stringify earlier) call).2 = fresh stringify call ↔ Unaffected earlier call := by
  obtain ⟨hui, hinfo, hcss⟩ := after_statics stringify earlier
  cases call with
  | uiDefaultsToJSON uiDefaults uiMode uiTheme savedUIState =>
    have hresult := Memo.call_run_eq (f := rememberUIDefaults stringify) (m := ⟨[], text "\x7b\x7d", []⟩)
      uiDefaults (earlier.filterMap Call.uiArgument) (Prod.ext hstringify.symm rfl)
    simp only [serve, uiDefaultsToJSON, fresh, Unaffected, hui, hresult, argument_run_eq]
    split
    · rename_i heq
      obtain ⟨htheme, hstate⟩ := @computeUIDefaults_settings stringify uiDefaults
      rw [← htheme, ← hstate]
      simp only [rememberUIDefaults, ← heq, ne_eq, not_true_eq_false, false_or, Outputs.ui.injEq]
      generalize computeUIDefaults stringify uiDefaults = outputs
      cases outputs
      simp
    · rename_i hne
      exact iff_of_true rfl (Or.inl hne)
  | checkFileInfoToJSON checkfileInfo =>
    have hresult := Memo.call_run_eq (f := computeCheckFileInfo stringify) (m := ⟨[], text "\x7b\x7d"⟩)
      checkfileInfo (earlier.filterMap Call.checkFileInfoArgument) hstringify.symm
    simp only [serve, checkFileInfoToJSON, fresh, Unaffected, hinfo, hresult]
  | cssVarsToStyle cssVars =>
    have hfirst : ¬ Memo.Consistent computeStyle ⟨[], []⟩ := fun h => base64_ne_nil h.symm
    simp only [serve, cssVarsToStyle, fresh, Unaffected, hcss, Outputs.text.injEq]
    rw [Memo.call_run_eq_iff]
    simp only [hfirst, false_or]

/-- A text of JSON, without characters that are escaped. -/
def quoted (s : List UInt8) : List UInt8 := text "\"" ++ s ++ text "\""

/-- The members in braces, in the order of their keys. -/
def braced (members : List (List UInt8 × List UInt8)) : List UInt8 :=
  text "\x7b" ++ (text ",").intercalate ((members.insertionSort fun a b => a.1 ≤ b.1).map fun member =>
    quoted member.1 ++ text ":" ++ member.2) ++ text "\x7d"

/-- The stringifier, for texts without characters that are escaped. -/
def plain (o : Object) : List UInt8 :=
  braced (o.map fun member => (member.1, match member.2 with
    | .string s => quoted s
    | .bool b => if b then text "true" else text "false"
    | .object o => braced (o.map fun member => (member.1, quoted member.2))))

/-- Calls for several users. -/
def users : List Call :=
  [.uiDefaultsToJSON (text "UIMode=classic;UITheme=light") [] [] [], .cssVarsToStyle (text "--co-primary-text=red"),
    .checkFileInfoToJSON (text "DownloadAsPostMessage=true"),
    .uiDefaultsToJSON (text "UITheme=dark;TextRuler=false;TextSidebar=true") (text "classic") (text "light")
      (text "true")]

/-- The argument of the last call again, by a caller that has its theme, and another argument. -/
theorem outputs_fresh_iff_dark :
    (serve plain (after plain users)
        (.uiDefaultsToJSON (text "UITheme=dark;TextRuler=false;TextSidebar=true") [] (text "dark") (text "true"))).2 =
      .ui ⟨text "\x7b\"darkTheme\":\"true\",\"text\":\x7b\"ShowRuler\":\"false\",\"ShowSidebar\":\"true\"\x7d\x7d",
        [], text "dark", text "true"⟩ ∧
    (serve plain (after plain users)
      (.uiDefaultsToJSON (text "UITheme=dark;UITheme=blue;SavedUIState=false") [] [] [])).2 =
      .ui ⟨text "\x7b\"darkTheme\":\"false\"\x7d", [], text "blue", text "false"⟩ :=
  ⟨((outputs_fresh_iff rfl users _).2 (by decide +kernel)).trans (by decide +kernel),
    ((outputs_fresh_iff rfl users _).2 (by decide +kernel)).trans (by decide +kernel)⟩

/-- The second of two equal calls does not set the theme. -/
theorem not_outputs_fresh :
    (serve plain (after plain [.uiDefaultsToJSON (text "UITheme=dark") [] [] []])
        (.uiDefaultsToJSON (text "UITheme=dark") [] [] [])).2 ≠
      fresh plain (.uiDefaultsToJSON (text "UITheme=dark") [] [] []) := by
  decide +kernel

end FileServer

end CollaboraOnline
