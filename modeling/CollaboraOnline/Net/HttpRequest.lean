import CollaboraOnline.Lib.Arrivals
import CollaboraOnline.Net.HttpHeader
import Mathlib.Data.Nat.Digits.Defs

/-!
# Writing and reading HTTP requests

`Request::writeData` and `RequestParser::readData`.  The reader of the body is the list of the blocks that it gives,
each at most as large as the buffer; the parser keeps the body in memory.
-/

namespace CollaboraOnline

namespace Http

open Arrivals

/-! ### The request -/

inductive Stage
  | RequestLine
  | Header
  | Body
  | Finished
deriving DecidableEq

def VERB_GET : List UInt8 := text "GET"
def VERB_POST : List UInt8 := text "POST"

structure Request where
  verb : List UInt8
  url : List UInt8
  version : List UInt8
  header : Header
  stage : Stage := .RequestLine
  body : List (List UInt8)

def Header.writeData (h : Header) : List UInt8 :=
  h.headers.flatMap fun pair => pair.1 ++ text ": " ++ pair.2 ++ CRLF

def hexChar (digit : Nat) : UInt8 := UInt8.ofNat (if digit < 10 then 0x30 + digit else 0x61 + (digit - 10))

/-- A positive number in hexadecimal. -/
def toHex (n : Nat) : List UInt8 := (Nat.digits 16 n).reverse.map hexChar

def contains (s sub : List UInt8) : Bool := s.tails.any sub.isPrefixOf

namespace Request

def chunked (r : Request) : Bool :=
  contains ((r.header.get Header.TRANSFER_ENCODING).map Header.toLower) (text "chunked")

def head (r : Request) : List UInt8 :=
  r.verb ++ text " " ++ r.url ++ text " " ++ r.version ++ CRLF ++ r.header.writeData ++ CRLF

def block (chunked : Bool) (data : List UInt8) : List UInt8 :=
  if chunked then toHex data.length ++ CRLF ++ data ++ CRLF else data

def ending (chunked : Bool) : List UInt8 := if chunked then text "0\r\n\r\n" else []

/-- The loop over the blocks: what is written, the blocks that are left, and whether the body ended. -/
def writeBody (chunked : Bool) (capacity : Nat) : Nat → List (List UInt8) → List UInt8 × List (List UInt8) × Bool
  | _, [] => (ending chunked, [], true)
  | wrote, data :: blocks =>
    -- an empty block is the end
    if data = [] then (ending chunked, blocks, true)
    else if wrote + (block chunked data).length < capacity then
      let (out, left, finished) := writeBody chunked capacity (wrote + (block chunked data).length) blocks
      (block chunked data ++ out, left, finished)
    else (block chunked data, blocks, false)

/-- The bytes that one call appends to the buffer, and the request after it. -/
def writeData (r : Request) (capacity : Nat) : List UInt8 × Request :=
  let (out, r) := if r.stage = .RequestLine then (r.head, { r with stage := .Body }) else ([], r)
  if r.stage = .Body then
    let (body, left, finished) := writeBody r.chunked capacity 0 r.body
    (out ++ body, { r with body := left, stage := if finished then .Finished else .Body })
  else (out, r)

/-- Repeated calls. -/
def writeAll (r : Request) : List Nat → List UInt8
  | [] => []
  | capacity :: capacities => (r.writeData capacity).1 ++ writeAll (r.writeData capacity).2 capacities

end Request

/-! ### The parser -/

def findEndOfToken (p : List UInt8) (off : Nat) : Nat :=
  off + ((p.drop off).takeWhile fun ch => !(isWhitespace ch || ch == LF)).length

def VersionLen : Nat := 8
def MinRequestHeaderLen : Nat := 16

structure RequestParser where
  verb : List UInt8 := []
  url : List UInt8 := []
  version : List UInt8 := []
  header : Header := {}
  stage : Stage := .RequestLine
  recvBodySize : Nat := 0
  body : List UInt8 := []

namespace RequestParser

/-- The request line: how many bytes it takes, `some 0` while it is incomplete; `none` is an error. -/
def parseLine (r : RequestParser) (p : List UInt8) : Option Nat × RequestParser :=
  if p.length < MinRequestHeaderLen then (some 0, r)
  else
    let verbOff := skipSpaceAndTab p 0
    let verbEnd := findEndOfToken p verbOff
    if verbEnd = p.length then (some 0, r)
    else
      let r := { r with verb := (p.drop verbOff).take (verbEnd - verbOff) }
      let urlOff := skipSpaceAndTab p verbEnd
      let urlEnd := findEndOfToken p urlOff
      if urlEnd = p.length then (some 0, r)
      else
        let r := { r with url := (p.drop urlOff).take (urlEnd - urlOff) }
        let off := skipSpaceAndTab p urlEnd
        if p.length ≤ off + VersionLen then (some 0, r)
        else if !validVersion (p.drop off) then (none, r)
        else
          let r := { r with version := (p.drop off).take VersionLen }
          let lineEnd := off + VersionLen + findLineBreak (p.drop (off + VersionLen))
          if p.length ≤ lineEnd then (some 0, r)
          else (some (lineEnd + 1), { r with stage := .Header })

def readBody (r : RequestParser) (p : List UInt8) : Option Nat × RequestParser :=
  if r.stage ≠ .Body then (some 0, r)
  else if r.verb = VERB_GET then (some 0, { r with stage := .Finished })
  else if r.verb = VERB_POST then
    if !r.header.hasContentLength && !r.header.chunked then (none, r)
    else if r.header.chunked then
      let chunks := readChunks p.length p
      let r := { r with body := r.body ++ chunks.body, recvBodySize := r.recvBodySize + chunks.body.length }
      (chunks.consumed, if chunks.finished then { r with stage := .Finished } else r)
    else
      let r := { r with body := r.body ++ p, recvBodySize := r.recvBodySize + p.length }
      (some p.length,
        if 0 < p.length ∧ r.header.hasContentLength ∧ r.header.getContentLength ≤ r.recvBodySize then
          { r with stage := .Finished } else r)
  else (none, r)

def readHeader (poco : List UInt8 → HeaderRead) (r : RequestParser) (p : List UInt8) : Option Nat × RequestParser :=
  if r.stage = .Header then
    match r.header.parse poco p with
    | (none, h) => (none, { r with header := h })
    | (some read, h) =>
      if read = 0 then (some 0, { r with header := h })
      else
        let (consumed, r) := ({ r with header := h, stage := .Body } : RequestParser).readBody (p.drop read)
        (consumed.map (read + ·), r)
  else r.readBody p

/-- How many bytes were consumed, `none` for an error. -/
def readData (poco : List UInt8 → HeaderRead) (r : RequestParser) (p : List UInt8) : Option Nat × RequestParser :=
  if r.stage = .RequestLine then
    match r.parseLine p with
    | (none, r) => (none, r)
    | (some read, r) =>
      if r.stage = .RequestLine then (some 0, r)
      else
        let (consumed, r) := r.readHeader poco (p.drop read)
        (consumed.map (read + ·), r)
  else r.readHeader poco p

end RequestParser

/-- A request that arrives in pieces. -/
def RequestParser.arrivals (poco : List UInt8 → HeaderRead) (pieces : List (List UInt8)) :
    Transfer RequestParser UInt8 :=
  pieces.foldl (Transfer.arrive (readData poco)) ⟨{}, [], 0, false⟩

end Http

end CollaboraOnline
