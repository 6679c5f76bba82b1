import CollaboraOnline.Lib.Arrivals
import CollaboraOnline.Net.HttpHeader

/-!
# Reading HTTP responses

`StatusLine::parse` and `Response::readData`.  The callback of the body takes all that it is given, also where it is
replaced because the body is saved to memory: `body` is what it was given.
-/

namespace CollaboraOnline

namespace Http

open Arrivals

/-! ### The status line -/

inductive FieldParseState
  | Incomplete
  | Invalid
  | Valid
deriving DecidableEq

structure StatusLine where
  httpVersion : List UInt8 := []
  versionMajor : Nat := 1
  versionMinor : Nat := 1
  statusCode : Int := 0
  reasonPhrase : List UInt8 := []
deriving DecidableEq

namespace StatusLine

def VersionLen : Nat := 8
def StatusCodeLen : Nat := 3
def MaxReasonPhraseLen : Nat := 512
def MinStatusLineLen : Nat := 14
def MaxStatusLineLen : Nat := VersionLen + StatusCodeLen + MaxReasonPhraseLen
def MinValidStatusCode : Int := 100
def MaxValidStatusCode : Int := 599

def isInformational (s : StatusLine) : Bool := 100 ≤ s.statusCode && s.statusCode < 200

def isspace (ch : UInt8) : Bool := ch == SP || (0x09 ≤ ch && ch ≤ 0x0d)

/-- Digits are read up to the largest `int`. -/
def atoiDigits : Nat → List UInt8 → Nat
  | ret, [] => ret
  | ret, ch :: p =>
    if !isDigit ch then ret
    else if 2 ^ 31 - 1 ≤ ret * 10 + digit ch then 2 ^ 31 - 1
    else atoiDigits (ret * 10 + digit ch) p

def safe_atoi (p : List UInt8) : Int :=
  match p.dropWhile isspace with
  | [] => 0
  | ch :: p =>
    if ch = 0x2d then -(atoiDigits 0 p : Int)
    else if ch = 0x2b then atoiDigits 0 p
    else atoiDigits 0 (ch :: p)

/-- The state, how many bytes were read, and the line. -/
def parse (s : StatusLine) (p : List UInt8) : FieldParseState × Nat × StatusLine :=
  if p.length < MinStatusLineLen then (.Incomplete, 0, s)
  else
    let versionOff := skipSpaceAndTab p 0
    if MaxStatusLineLen ≤ versionOff then (.Invalid, 0, s)
    else if p.length - versionOff < MinStatusLineLen then (.Incomplete, 0, s)
    else
      let version := p.drop versionOff
      if !validVersion version then (.Invalid, 0, s)
      else
        let s := { s with httpVersion := version.take VersionLen, versionMajor := digit (version.getD 5 0)
                          versionMinor := digit (version.getD 7 0) }
        let codeOff := skipSpaceAndTab p (versionOff + VersionLen)
        if MaxStatusLineLen ≤ codeOff then (.Invalid, 0, s)
        else if p.length - codeOff < MinStatusLineLen - VersionLen then (.Incomplete, 0, s)
        else if !isDigit (p.getD codeOff 0) then (.Invalid, 0, s)
        else
          let s := { s with statusCode := safe_atoi (p.drop codeOff) }
          if s.statusCode < MinValidStatusCode ∨ MaxValidStatusCode < s.statusCode then (.Invalid, 0, s)
          else
            let reasonOff := skipSpaceAndTab p (codeOff + StatusCodeLen)
            if MaxStatusLineLen ≤ reasonOff then (.Invalid, 0, s)
            else
              -- the line break is an LF, so the search for a CR or LF from there stops at once
              let off := reasonOff + findLineBreak (p.drop reasonOff)
              if p.length ≤ off then (.Incomplete, 0, s)
              else
                let s :=
                  if reasonOff + 1 < off then { s with reasonPhrase := (p.drop reasonOff).take (off - reasonOff - 1) }
                  else s
                (.Valid, off + skipCRLF (p.drop off), s)

end StatusLine

/-! ### The response -/

inductive ParserStage
  | StatusLine
  | Header
  | Body
  | Finished
deriving DecidableEq

inductive ResponseState
  | New
  | Incomplete
  | Error
  | Timeout
  | Complete
deriving DecidableEq

structure Response where
  statusLine : StatusLine := {}
  header : Header := {}
  parserStage : ParserStage := .StatusLine
  state : ResponseState := .New
  recvBodySize : Nat := 0
  body : List UInt8 := []
deriving DecidableEq

namespace Response

def complete (r : Response) : Response :=
  match r.state with
  | .Error | .Timeout | .Complete => r
  | .New | .Incomplete => { r with state := .Complete }

/-- The end of `readData`. -/
def done (r : Response) : Response := if r.parserStage = .Finished then r.complete else r

def write (r : Response) (data : List UInt8) : Response :=
  { r with body := r.body ++ data, recvBodySize := r.recvBodySize + data.length }

/-- The body; how many bytes it took, `none` on an error. -/
def readBody (r : Response) (p : List UInt8) : Option Nat × Response :=
  if r.parserStage = .Body ∧ p ≠ [] then
    if r.header.chunked then
      let chunks := readChunks p.length p
      let r := r.write chunks.body
      (chunks.consumed, (if chunks.finished then { r with parserStage := .Finished } else r).done)
    else
      let r := r.write p
      (some p.length, (if r.header.hasContentLength ∧ r.header.getContentLength ≤ r.recvBodySize then
        { r with parserStage := .Finished } else r).done)
  else (some 0, r.done)

/-- The stage behind the header; `none` where the header has an unexpected length. -/
def stageAfterHeader (s : StatusLine) (h : Header) : Option ParserStage :=
  if s.isInformational ∨ s.statusCode = 204 ∨ s.statusCode = 304 then some .Finished
  else if h.hasContentLength then
    if h.getContentLength < 0 ∨ h.getTransferEncoding ≠ [] then none
    else if h.getContentLength = 0 then some .Finished
    else some .Body
  else some .Body

def readHeader (poco : List UInt8 → HeaderRead) (r : Response) (p : List UInt8) : Option Nat × Response :=
  if r.parserStage = .Header ∧ p ≠ [] then
    match r.header.parse poco p with
    | (none, h) => (none, { r with header := h })
    | (some read, h) =>
      if read = 0 then ({ r with header := h } : Response).readBody p
      else
        match stageAfterHeader r.statusLine h with
        | none => (none, { r with header := h, parserStage := .Body })
        | some stage =>
          let (consumed, r) := ({ r with header := h, parserStage := stage } : Response).readBody (p.drop read)
          (consumed.map (read + ·), r)
  else r.readBody p

/-- How many bytes were consumed, `none` for an error.  The status line is left for the reader of the header. -/
def readData (poco : List UInt8 → HeaderRead) (r : Response) (p : List UInt8) : Option Nat × Response :=
  let r := { r with state := .Incomplete }
  if r.parserStage = .StatusLine then
    match r.statusLine.parse p with
    | (.Incomplete, _, s) => (some 0, { r with statusLine := s })
    | (.Invalid, _, s) => (none, { r with statusLine := s })
    | (.Valid, read, s) =>
      if read = 0 then (some 0, { r with statusLine := s })
      else ({ r with statusLine := s, parserStage := .Header } : Response).readHeader poco p
  else r.readHeader poco p

end Response

/-! ### Arrivals -/

/-- A response that arrives in pieces. -/
def Response.arrivals (poco : List UInt8 → HeaderRead) (pieces : List (List UInt8)) : Transfer Response UInt8 :=
  pieces.foldl (Transfer.arrive (readData poco)) ⟨{}, [], 0, false⟩

end Http

end CollaboraOnline
