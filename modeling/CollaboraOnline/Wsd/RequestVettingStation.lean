import Mathlib.Data.List.Basic

/-!
# The vetting of a request

A `RequestVettingStation` asks the storage for the CheckFileInfo of a document before it hands the client's WebSocket
over to a `DocumentBroker`.  It can be created when the page is served, before there is a WebSocket, or when the
WebSocket arrives.  The URI library is a parameter: what of it throws returns an `Option`.
-/

namespace CollaboraOnline

inductive StorageType
  | Unsupported
  | Unauthorized
  | Conversion
  | FileSystem
  | Wopi
deriving DecidableEq

/-- `Poco::URI`, the aliases of `HostUtil::getNewUri` and the configured storage. -/
structure Environment (URI : Type) where
  parse : String → Option URI
  toString : URI → String
  isRelative : URI → Bool
  getScheme : URI → String
  normalize : URI → URI
  getPath : URI → String
  getQueryParameters : URI → Option (List (String × String))
  setQueryParameters : URI → List (String × String) → URI
  encode : String → String
  decode : String → Option String
  getNewUri : URI → String
  validate : URI → StorageType

variable {URI : Type}

/-! ### Requests -/

def sanitizeURI (env : Environment URI) (uri : String) : Option URI := do
  let uriPublic ← env.parse (← env.decode uri)
  let uriPublic := if env.isRelative uriPublic || env.getScheme uriPublic == "file" then env.normalize uriPublic
    else uriPublic
  if env.getPath uriPublic = "" then none
  else
    let queryParams ← (← env.getQueryParameters uriPublic).mapM fun (param : String × String) =>
      -- encoded once more in the page than the other parameters
      if param.1 = "access_token" then (env.decode param.2).map (param.1, ·) else some param
    some (env.setQueryParameters uriPublic queryParams)

def getDocKey (env : Environment URI) (uri : URI) : String := env.encode (env.getNewUri uri)

def hasReadonlyPermission (env : Environment URI) (url : String) : Option Bool := do
  let params ← env.getQueryParameters (← env.parse url)
  some (params.any fun (param : String × String) => param.1 == "permission" && param.2 == "readonly")

def getRequestKey (env : Environment URI) (wopiSrc accessToken : String) : Option String := do
  let wopiSrcSanitized ← sanitizeURI env (← env.decode wopiSrc)
  some (getDocKey env wopiSrcSanitized ++ "_" ++ accessToken)

/-- A request as `processURI` reads it. -/
structure RequestDetails where
  documentURI : String
  wopiSrc : String
  /-- Decoded, the first value of every name. -/
  docUriParams : List (String × String)

def RequestDetails.getParamByName (details : RequestDetails) (name : String) : String :=
  (details.docUriParams.lookup name).getD ""

def RequestDetails.requestKey (env : Environment URI) (details : RequestDetails) : Option String :=
  if details.wopiSrc = "" then some ""
  else getRequestKey env details.wopiSrc (details.getParamByName "access_token")

/-- What the request for the page posts. -/
structure ResourceAccessDetails where
  wopiSrc : String
  accessToken : String
  noAuthHeader : String
  permission : String

def ResourceAccessDetails.options (details : ResourceAccessDetails) : List String :=
  ["access_token=" ++ details.accessToken, "access_token_ttl=0"]
    ++ (if details.noAuthHeader = "" then [] else ["no_auth_header=" ++ details.noAuthHeader])
    ++ (if details.permission = "" then [] else ["permission=" ++ details.permission])

def ResourceAccessDetails.requestKey (env : Environment URI) (details : ResourceAccessDetails) : Option String :=
  getRequestKey env details.wopiSrc details.accessToken

/-- The document URI of the `RequestDetails` made from the page's request: the options are encoded into the first
segment of the path and read back from there. -/
def ResourceAccessDetails.documentURI (env : Environment URI) (details : ResourceAccessDetails) : Option String := do
  let decodedWopiSrc ← env.decode details.wopiSrc
  env.decode (env.encode (decodedWopiSrc ++ "?" ++ String.join (details.options.map (· ++ "&"))))

/-- The server at a step. -/
structure Brokers where
  shutdownRequestFlag : Bool := false
  /-- The error of `findOrCreateDocBroker`, if it fails. -/
  error : String → Option String
  /-- The flag as `createClientSession` reads it. -/
  isUnloadingUnrecoverably : String → Bool

/-! ### CheckFileInfo -/

namespace CheckFileInfo

inductive State
  | None
  | Active
  | Timedout
  | Unauthorized
  | Fail
  | Pass
deriving DecidableEq

end CheckFileInfo

/-- What is read of the storage's answer. -/
structure WopiInfo where
  baseFileName : Option String
  /-- The URI of the shared settings, empty when there are none. -/
  sharedSettings : String
deriving DecidableEq

/-- What the `http::Session` of a request to the storage calls: the finished handler, once, and the handler of failed
connections.  A TLS error is reported as a failed connection, and the end of the response after it. -/
inductive Response
  /-- `location` is the header of that name, `body` is `none` where it is no JSON; without a response the code is
  0. -/
  | answer (statusCode : Nat) (location : String) (body : Option WopiInfo)
  | connectFail
deriving DecidableEq

structure CheckFileInfo (URI : Type) where
  url : URI
  state : CheckFileInfo.State
  redirectLimit : Nat
  wopiInfo : Option WopiInfo
  /-- The response of the `http::Session` is not done. -/
  pending : Bool := true
deriving DecidableEq

namespace CheckFileInfo

def HTTP_REDIRECTION_LIMIT : Nat := 21

def completed (c : CheckFileInfo URI) : Bool := c.state != .None && c.state != .Active

/-- `checkFileInfo`: the request is sent. -/
def start (url : URI) (redirectLimit : Nat) : CheckFileInfo URI where
  url := url
  state := .Active
  redirectLimit := redirectLimit
  wopiInfo := none

def isRedirect (statusCode : Nat) : Bool :=
  statusCode == 301 || statusCode == 302 || statusCode == 307 || statusCode == 308

def parseResponseAndValidate (body : Option WopiInfo) : Option WopiInfo :=
  body.filter fun info => info.baseFileName.any fun filename => !filename.toList.contains '/'

/-- The finished handler, and whether it goes on to `_onFinishCallback`. -/
def finishedCallback (env : Environment URI) (b : Brokers) (c : CheckFileInfo URI) (statusCode : Nat)
    (location : String) (body : Option WopiInfo) : CheckFileInfo URI × Bool :=
  -- giving up on in-flight requests
  if b.shutdownRequestFlag then (c, false)
  else if isRedirect statusCode && c.redirectLimit != 0 then
    match sanitizeURI env location with
    -- thrown: the state stays
    | none => (c, false)
    | some url => (start url (c.redirectLimit - 1), false)
  else if statusCode ≠ 200 then
    ({ c with state := if statusCode = 401 ∨ statusCode = 403 ∨ statusCode = 404 then .Unauthorized else .Fail },
    true)
  else
    match parseResponseAndValidate body with
    | some info => ({ c with state := .Pass, wopiInfo := some info }, true)
    | none => ({ c with state := .Fail, wopiInfo := none }, true)

/-- The callbacks of the request, without what the station then does. -/
def handleResponse (env : Environment URI) (b : Brokers) (c : CheckFileInfo URI) : Response → CheckFileInfo URI × Bool
  | .connectFail => ({ c with state := .Fail }, true)
  | .answer statusCode location body =>
    -- a response that is done does not finish again
    if c.pending then { c with pending := false }.finishedCallback env b statusCode location body else (c, false)

end CheckFileInfo

/-! ### The station -/

/-- What the client gets from the station, apart from progress messages. -/
inductive Outcome
  | error (msg : String)
  | handedOver (docKey : String)
deriving DecidableEq

/-- What the function moved to the `DocumentBroker`'s poll carries. -/
structure Transfer (URI : Type) where
  docKey : String
  url : String
  uriPublic : URI
deriving DecidableEq

/-- The arguments of `createNewClientSession`. -/
structure NewClientSession (URI : Type) where
  uriPublic : URI
  docKey : String
  isReadOnly : Bool
deriving DecidableEq

structure RequestVettingStation (URI : Type) where
  documentURI : String
  /-- The WebSocket has arrived. -/
  ws : Bool := false
  checkFileInfo : Option (CheckFileInfo URI) := none
  /-- The installations of presets that have not reported yet. -/
  installing : Nat := 0
  outcomes : List Outcome := []
  transfer : Option (Transfer URI) := none
  /-- The function has run in the `DocumentBroker`'s poll, and the station is gone. -/
  moved : Bool := false
  session : Option (NewClientSession URI) := none
deriving DecidableEq

namespace RequestVettingStation

def sendErrorAndShutdown (s : RequestVettingStation URI) (msg : String) : RequestVettingStation URI :=
  if s.ws then { s with outcomes := s.outcomes ++ [.error msg] } else s

def unauthorized : String := "error: cmd=internal kind=unauthorized"

def sendUnauthorizedErrorAndShutdown (s : RequestVettingStation URI) : RequestVettingStation URI :=
  s.sendErrorAndShutdown unauthorized

def createClientSession (b : Brokers) (s : RequestVettingStation URI) (docKey url : String) (uriPublic : URI) :
    RequestVettingStation URI :=
  if b.isUnloadingUnrecoverably docKey then s.sendErrorAndShutdown "error: cmd=load kind=docunloading"
  else { s with outcomes := s.outcomes ++ [.handedOver docKey], transfer := some ⟨docKey, url, uriPublic⟩ }

def launchInstallPresets (s : RequestVettingStation URI) : RequestVettingStation URI :=
  if (s.checkFileInfo.bind (·.wopiInfo)).all fun info => info.sharedSettings == "" then s
  else { s with installing := s.installing + 1 }

/-- The flag says whether an exception was thrown. -/
def transferToDocBroker (env : Environment URI) (b : Brokers) (s : RequestVettingStation URI) (url : String) :
    RequestVettingStation URI × Bool :=
  match sanitizeURI env url with
  | none => (s, true)
  | some uriPublic =>
    let docKey := getDocKey env uriPublic
    match b.error docKey with
    | some error => (s.sendErrorAndShutdown error, false)
    | none =>
      let s := s.launchInstallPresets
      (if s.ws then s.createClientSession b docKey url uriPublic else s, false)

/-- The continuation of the CheckFileInfo; an exception in it leaves the station as it is. -/
def checkFileInfoFinished (env : Environment URI) (b : Brokers) (s : RequestVettingStation URI)
    (c : CheckFileInfo URI) : RequestVettingStation URI :=
  if c.state = .Pass ∧ c.wopiInfo.isSome then (s.transferToDocBroker env b (env.toString c.url)).1
  else s.sendUnauthorizedErrorAndShutdown

/-- A callback of the `http::Session`. -/
def handleResponse (env : Environment URI) (b : Brokers) (s : RequestVettingStation URI) (r : Response) :
    RequestVettingStation URI :=
  match s.checkFileInfo with
  | none => s
  | some c =>
    let (c, finished) := c.handleResponse env b r
    let s := { s with checkFileInfo := some c }
    if finished then s.checkFileInfoFinished env b c else s

/-- `handleRequest` when the page is served. -/
def handlePage (env : Environment URI) (s : RequestVettingStation URI) : RequestVettingStation URI :=
  match sanitizeURI env s.documentURI with
  | none => s
  | some uriPublic =>
    match hasReadonlyPermission env (env.toString uriPublic), env.validate uriPublic with
    | some _, .Wopi =>
      { s with checkFileInfo := some (CheckFileInfo.start uriPublic CheckFileInfo.HTTP_REDIRECTION_LIMIT) }
    | some _, .Unauthorized => s.sendUnauthorizedErrorAndShutdown
    | _, _ => s

/-- The branch of a WOPI document in `handleRequest`. -/
def handleWopi (env : Environment URI) (b : Brokers) (s : RequestVettingStation URI) (uriPublic : URI) :
    RequestVettingStation URI × Bool :=
  match s.checkFileInfo with
  | none =>
    ({ s with checkFileInfo := some (CheckFileInfo.start uriPublic CheckFileInfo.HTTP_REDIRECTION_LIMIT) }, false)
  | some c =>
    match c.state with
    -- will resume when done
    | .Active => (s, false)
    | .Pass =>
      if c.wopiInfo.isSome then s.transferToDocBroker env b (env.toString c.url)
      else (s.sendUnauthorizedErrorAndShutdown, false)
    | .None | .Timedout =>
      ({ s with checkFileInfo := some (CheckFileInfo.start uriPublic CheckFileInfo.HTTP_REDIRECTION_LIMIT) }, false)
    | .Unauthorized | .Fail => (s.sendUnauthorizedErrorAndShutdown, false)

/-- `handleRequest` when the WebSocket has arrived. -/
def handleRequest (env : Environment URI) (b : Brokers) (s : RequestVettingStation URI) (documentURI : String) :
    RequestVettingStation URI × Bool :=
  let s := { s with documentURI := documentURI, ws := true }
  match sanitizeURI env documentURI with
  | none => (s, true)
  | some uriPublic =>
    match hasReadonlyPermission env (env.toString uriPublic), env.validate uriPublic with
    | none, _ => (s, true)
    | some _, .Unsupported => (s, true)
    | some _, .Unauthorized => (s.sendUnauthorizedErrorAndShutdown, false)
    | some _, .Wopi => s.handleWopi env b uriPublic
    | some _, _ =>
      let docKey := getDocKey env uriPublic
      match b.error docKey with
      | some error => (s.sendErrorAndShutdown error, false)
      | none => (s.createClientSession b docKey documentURI uriPublic, false)

/-- `handleClientWsUpgrade`, once it has its station. -/
def handleWebSocket (env : Environment URI) (b : Brokers) (s : RequestVettingStation URI) (documentURI : String) :
    RequestVettingStation URI :=
  let (s, threw) := s.handleRequest env b documentURI
  if threw then s.sendErrorAndShutdown "error: cmd=internal kind=load" else s

/-- An installation of presets reports; a station that is gone does not hear of it. -/
def presetsInstalled (s : RequestVettingStation URI) (success : Bool) : RequestVettingStation URI :=
  if s.moved then s
  else
    let s := { s with installing := s.installing - 1 }
    if success then s else s.sendErrorAndShutdown "shared config install failed"

/-- The function moved to the `DocumentBroker`'s poll runs. -/
def move (env : Environment URI) (s : RequestVettingStation URI) : RequestVettingStation URI :=
  match s.transfer with
  | none => s
  | some t =>
    { s with
      moved := true
      session := (hasReadonlyPermission env (env.toString t.uriPublic)).map fun isReadOnly =>
        ⟨t.uriPublic, t.docKey, isReadOnly⟩ }

end RequestVettingStation

/-! ### The dispatcher -/

namespace ClientRequestDispatcher

/-- `RequestVettingStations`. -/
abbrev Stations (URI : Type) := List (String × RequestVettingStation URI)

def RvsHighWatermark : Nat := 10 * 1024 - 1

def launchAsyncCheckFileInfo (env : Environment URI) (details : ResourceAccessDetails) (stations : Stations URI) :
    Stations URI :=
  match details.requestKey env, details.documentURI env with
  | some requestKey, some documentURI =>
    if stations.any (·.1 == requestKey) then stations
    else if RvsHighWatermark ≤ stations.length then stations
    else stations ++ [(requestKey, RequestVettingStation.handlePage env { documentURI := documentURI })]
  | _, _ => stations

/-- The station for a WebSocket, and the ones that are left. -/
def takeStation (env : Environment URI) (details : RequestDetails) (stations : Stations URI) :
    RequestVettingStation URI × Stations URI :=
  match (details.requestKey env).filter (· ≠ "") with
  | none => ({ documentURI := details.documentURI }, stations)
  | some requestKey =>
    match stations.lookup requestKey with
    | none => ({ documentURI := details.documentURI }, stations)
    | some s => (s, stations.filter fun (p : String × RequestVettingStation URI) => p.1 ≠ requestKey)

end ClientRequestDispatcher

/-! ### A small URI library -/

/-- A URI without a fragment: what stands before the question mark and what behind it. -/
structure PlainURI where
  base : List Char
  query : List Char
deriving DecidableEq

namespace PlainURI

def reserved : List Char := ",/?:@&=+$#".toList

def hexDigit (c : Char) : Option Nat := "0123456789ABCDEF".toList.idxOf? c

def decodeChars : List Char → Option (List Char)
  | [] => some []
  | '%' :: a :: b :: rest => do
    some (Char.ofNat (16 * (← hexDigit a) + (← hexDigit b)) :: (← decodeChars rest))
  | '%' :: _ => none
  | c :: rest => (c :: ·) <$> decodeChars rest

def encodeChars (s : List Char) : List Char :=
  s.flatMap fun c =>
    if reserved.contains c || c == '%' then
      ['%', Nat.digitChar (c.toNat / 16), (Nat.digitChar (c.toNat % 16)).toUpper]
    else [c]

def queryParameters (u : PlainURI) : Option (List (String × String)) :=
  ((u.query.splitOn '&').filter (· ≠ [])).mapM fun param => do
    let name ← decodeChars (param.takeWhile (· ≠ '='))
    let value ← decodeChars ((param.dropWhile (· ≠ '=')).drop 1)
    some (String.ofList name, String.ofList value)

def text (u : PlainURI) : String := String.ofList (u.base ++ if u.query = [] then [] else '?' :: u.query)

/-- Everything behind the host. -/
def path (u : PlainURI) : String := String.ofList (((u.base.dropWhile (· ≠ '/')).drop 2).dropWhile (· ≠ '/'))

def environment : Environment PlainURI where
  parse s := some ⟨s.toList.takeWhile (· ≠ '?'), (s.toList.dropWhile (· ≠ '?')).drop 1⟩
  toString := text
  isRelative u := u.base.head? == some '/'
  getScheme u := String.ofList (u.base.takeWhile (· ≠ ':'))
  normalize u := u
  getPath := path
  getQueryParameters := queryParameters
  setQueryParameters u params :=
    { u with query := (params.map fun (p : String × String) =>
        encodeChars p.1.toList ++ '=' :: encodeChars p.2.toList).intersperse ['&'] |>.flatten }
  encode s := String.ofList (encodeChars s.toList)
  decode s := (decodeChars s.toList).map String.ofList
  getNewUri := path
  validate u := if u.base.take 8 = "https://".toList then .Wopi else .Unsupported

end PlainURI

end CollaboraOnline
