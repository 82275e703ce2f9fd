import ScriptAudit.Decimal.Numeral

namespace ScriptAudit.Json

/-- What a document is lacking where it breaks off or goes wrong. -/
inductive Problem where
  | value
  | propertyName
  | colon
  | comma
  | extraData
  | unterminated
  | controlCharacter
  | escape
  | codeEscape
  | byteOrderMark
  | longInteger (digits : Nat)
  | deepList
  | deepRecord
  deriving DecidableEq, Repr

def Problem.text : Problem → String
  | value => "Expecting value"
  | propertyName => "Expecting property name enclosed in double quotes"
  | colon => "Expecting ':' delimiter"
  | comma => "Expecting ',' delimiter"
  | extraData => "Extra data"
  | unterminated => "Unterminated string starting at"
  | controlCharacter => "Invalid control character at"
  | escape => "Invalid \\escape"
  | codeEscape => "Invalid \\uXXXX escape"
  | byteOrderMark => "Unexpected UTF-8 BOM (decode using utf-8-sig)"
  | longInteger digits => Decimal.tooLong digits
  | deepList => "maximum recursion depth exceeded while decoding a JSON array from a unicode string"
  | deepRecord => "maximum recursion depth exceeded while decoding a JSON object from a unicode string"

/-- Whether a problem breaks the reading off without a verdict on the document. -/
def Problem.breaksOff : Problem → Bool
  | deepList | deepRecord => true
  | _ => false

/-- Whether a problem is told with its place. -/
def Problem.hasPlace : Problem → Bool
  | longInteger _ => false
  | problem => !problem.breaksOff

structure Fault where
  problem : Problem
  position : Nat
  deriving DecidableEq, Repr

/-- The problem with its place in the document. -/
def Fault.message (source : List Char) (fault : Fault) : String :=
  if fault.problem.hasPlace then
    let (line, column) := Text.lineAndColumn source fault.position
    s!"{fault.problem.text}: line {line} column {column} (char {fault.position})"
  else fault.problem.text

end ScriptAudit.Json
