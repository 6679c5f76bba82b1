import CollaboraOnline.Net.HttpHeader

/-!
# Tokens

`StringVector::tokenize` (`common/StringVector`): the parts between the delimiters that are not empty, up to a line
break.
-/

namespace CollaboraOnline

namespace StringVector

def tokenize (s : List UInt8) (delimiter : UInt8) : List (List UInt8) :=
  if s.head? = some 0 then [] else ((s.takeWhile (· ≠ 0x0a)).splitOn delimiter).filter (· ≠ [])

/-- `equals(index, string)`. -/
def equals (tokens : List (List UInt8)) (index : Nat) (string : String) : Bool :=
    tokens[index]? = some (Http.text string)

end StringVector

end CollaboraOnline
