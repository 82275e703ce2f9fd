import ScriptAudit.Text.Quoted
import ScriptAudit.Value

namespace ScriptAudit.Json

def codeUnit (n : Nat) : List Char := ['\\', 'u'] ++ Text.hex 4 n

/-- How a character stands in a string: ASCII only, beyond the basic plane as a pair of units. -/
def escapeChar (c : Char) : List Char :=
  if c == '"' then ['\\', '"']
  else if c == '\\' then ['\\', '\\']
  else if c == '\n' then ['\\', 'n']
  else if c == '\r' then ['\\', 'r']
  else if c == '\t' then ['\\', 't']
  else if c == '\x0c' then ['\\', 'f']
  else if c == '\x08' then ['\\', 'b']
  else if 32 ≤ c.toNat && c.toNat < 127 then [c]
  else if c.toNat < 0x10000 then codeUnit c.toNat
  else codeUnit (0xD800 + (c.toNat - 0x10000) / 0x400) ++ codeUnit (0xDC00 + (c.toNat - 0x10000) % 0x400)

def quoted (s : String) : List Char := '"' :: s.toList.flatMap escapeChar ++ ['"']

def realText (x : Float) : String :=
  if x.isNaN then "NaN"
  else if x == 1.0 / 0.0 then "Infinity"
  else if x == -(1.0 / 0.0) then "-Infinity"
  else Decimal.numberText x

def newLine (depth : Nat) : List Char := '\n' :: List.replicate (2 * depth) ' '

mutual

/-- A value at a depth of indentation; each member of a list or record has a line of its own. -/
def layout (depth : Nat) : Value → List Char
  | .null => "null".toList
  | .bool b => if b then "true".toList else "false".toList
  | .int n => (toString n).toList
  | .real x => (realText x).toList
  | .text s => quoted s
  | .list [] => ['[', ']']
  | .list (v :: rest) =>
    '[' :: newLine (depth + 1) ++ layout (depth + 1) v ++ layoutItems (depth + 1) rest ++ newLine depth ++ [']']
  | .record [] => ['\x7b', '\x7d']
  | .record ((name, v) :: rest) =>
    '\x7b' :: newLine (depth + 1) ++ quoted name ++ [':', ' '] ++ layout (depth + 1) v ++
      layoutFields (depth + 1) rest ++ newLine depth ++ ['\x7d']

def layoutItems (depth : Nat) : List Value → List Char
  | [] => []
  | v :: rest => ',' :: newLine depth ++ layout depth v ++ layoutItems depth rest

def layoutFields (depth : Nat) : List (String × Value) → List Char
  | [] => []
  | (name, v) :: rest =>
    ',' :: newLine depth ++ quoted name ++ [':', ' '] ++ layout depth v ++ layoutFields depth rest

end

/-- The text of a value with two blanks of indentation. -/
def render (v : Value) : String := String.ofList (layout 0 v)

end ScriptAudit.Json
