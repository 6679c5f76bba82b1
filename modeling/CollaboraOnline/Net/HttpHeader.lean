import Mathlib.Data.List.TakeWhile
import Mathlib.Tactic

/-!
# HTTP headers and chunks

What the readers of requests and of responses share.  Text is a list of bytes.  The reader of message headers of Poco
is a parameter; an exception that it throws means that the header is incomplete.
-/

namespace CollaboraOnline

namespace Http

def text (s : String) : List UInt8 := s.toList.map fun c => UInt8.ofNat c.toNat

def LF : UInt8 := 0x0a
def CR : UInt8 := 0x0d
def SP : UInt8 := 0x20
def CRLF : List UInt8 := [CR, LF]

def isWhitespace (ch : UInt8) : Bool := ch == 0x20 || ch == 0x09 || ch == CR

def isDigit (ch : UInt8) : Bool := 0x30 ≤ ch && ch ≤ 0x39

def digit (ch : UInt8) : Nat := ch.toNat - 0x30

/-- A version with a blank behind it. -/
def validVersion (version : List UInt8) : Bool :=
  version.take 5 == text "HTTP/" && isDigit (version.getD 5 0) && version.getD 6 0 == 0x2e &&
    isDigit (version.getD 7 0) &&
    isWhitespace (version.getD 8 0)

/-! ### Offsets -/

/-- `off` is at most the length. -/
def skipSpaceAndTab (p : List UInt8) (off : Nat) : Nat := off + ((p.drop off).takeWhile isWhitespace).length

def skipCRLF (p : List UInt8) : Nat := (p.takeWhile fun ch => ch == CR || ch == LF).length

/-- The offset of the first LF, else the length. -/
def findLineBreak (p : List UInt8) : Nat := (p.takeWhile fun ch => ch != LF).length

/-- The offset of the LF of the first blank line, else the length; at most `n` lines are searched. -/
def findBlankLine : Nat → List UInt8 → Nat
  | 0, p => p.length
  | n + 1, p =>
    let off := findLineBreak p
    if p.length ≤ off + 2 then p.length
    else if p.getD (off + 1) 0 = CR ∧ p.getD (off + 2) 0 = LF then off + 2
    else off + 3 + findBlankLine n (p.drop (off + 3))

/-! ### Headers -/

/-- What the header reader of Poco does: it reads fields, it fails, or it throws. -/
inductive HeaderRead
  | fields (fields : List (List UInt8 × List UInt8))
  | failed
  | threw

structure Header where
  headers : List (List UInt8 × List UInt8) := []
  chunked : Bool := false
deriving DecidableEq

namespace Header

def CONTENT_LENGTH : List UInt8 := text "Content-Length"
def TRANSFER_ENCODING : List UInt8 := text "Transfer-Encoding"

def toLower (ch : UInt8) : UInt8 := if 0x41 ≤ ch && ch ≤ 0x5a then ch + 0x20 else ch

def iequal (lhs rhs : List UInt8) : Bool := lhs.map toLower == rhs.map toLower

def trimmed (s : List UInt8) : List UInt8 := ((s.dropWhile (· == SP)).reverse.dropWhile (· == SP)).reverse

def set (h : Header) (key value : List UInt8) : Header :=
  if h.headers.any fun pair => iequal pair.1 key then
    { h with headers := h.headers.replaceF fun pair => if iequal pair.1 key then some (pair.1, value) else none }
  else { h with headers := h.headers ++ [(key, value)] }

def find (h : Header) (key : List UInt8) : Option (List UInt8) :=
  (h.headers.find? fun pair => iequal pair.1 key).map Prod.snd

def get (h : Header) (key : List UInt8) : List UInt8 := (h.find key).getD []

def hasContentLength (h : Header) : Bool := (h.find CONTENT_LENGTH).isSome

def getTransferEncoding (h : Header) : List UInt8 := h.get TRANSFER_ENCODING

/-- The number that `stoll` reads, of a text that begins with a digit. -/
def decimal (s : List UInt8) : Nat := (s.takeWhile isDigit).foldl (fun n ch => n * 10 + digit ch) 0

def getContentLength (h : Header) : Int :=
  match h.get CONTENT_LENGTH with
  | [] => -1
  | ch :: s =>
    if !isDigit ch then -1
    else if decimal (ch :: s) < 2 ^ 63 then decimal (ch :: s) else -1

/-- The fields that were read are set. -/
def read (h : Header) (fields : List (List UInt8 × List UInt8)) : Header :=
  let h := fields.foldl (fun h pair => h.set (trimmed pair.1) (trimmed pair.2)) h
  { h with chunked := h.getTransferEncoding == text "chunked" }

/-- How many bytes the header takes, `some 0` while it is incomplete; `none` is an error. -/
def parse (poco : List UInt8 → HeaderRead) (h : Header) (p : List UInt8) : Option Nat × Header :=
  if p.length < 4 then (some 0, h)
  else
    let endPos := findBlankLine p.length p
    if endPos = p.length then (some 0, h)
    else
      match poco p with
      | .threw => (some 0, h)
      | .failed => (none, h)
      | .fields fields => (some (endPos + 1), h.read fields)

end Header

/-! ### Chunks -/

def hexDigitFromChar (ch : UInt8) : Option Nat :=
  if 0x30 ≤ ch && ch ≤ 0x39 then some (ch.toNat - 0x30)
  else if 0x61 ≤ ch && ch ≤ 0x66 then some (ch.toNat - 0x61 + 10)
  else if 0x41 ≤ ch && ch ≤ 0x46 then some (ch.toNat - 0x41 + 10)
  else none

/-- The length of a chunk, of the digits up to another byte; `none` where it would not fit. -/
def readChunkLen : Nat → List UInt8 → Option Nat
  | chunkLen, [] => some chunkLen
  | chunkLen, ch :: p =>
    match hexDigitFromChar ch with
    | none => some chunkLen
    | some digit => if (2 ^ 63 - 1) / 16 ≤ chunkLen then none else readChunkLen (chunkLen * 16 + digit) p

/-- `consumed` is `none` on an error; `finished` means that the last chunk was read. -/
structure ChunkRead where
  consumed : Option Nat
  body : List UInt8
  finished : Bool
deriving DecidableEq

/-- The loop over the chunks that have arrived, at most `n` of them. -/
def readChunks : Nat → List UInt8 → ChunkRead
  | 0, _ => ⟨some 0, [], false⟩
  | n + 1, p =>
    if p = [] then ⟨some 0, [], false⟩
    else if findLineBreak p = p.length then ⟨some 0, [], false⟩
    else
      let off := findLineBreak p + 1
      match readChunkLen 0 p with
      | none => ⟨none, [], false⟩
      | some chunkLen =>
        if chunkLen = 0 then ⟨some p.length, [], true⟩
        else if p.length - off < chunkLen + 2 then ⟨some 0, [], false⟩
        else
          let rest := p.drop (off + chunkLen)
          let r := readChunks n (rest.drop (skipCRLF rest))
          ⟨r.consumed.map (off + chunkLen + skipCRLF rest + ·), (p.drop off).take chunkLen ++ r.body, r.finished⟩

end Http

end CollaboraOnline
