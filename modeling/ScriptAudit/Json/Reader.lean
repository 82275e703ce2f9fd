import ScriptAudit.Json.Problem
import ScriptAudit.Value

namespace ScriptAudit.Json

/-- The part of a document that is still to be read, and its offset. -/
structure Cursor where
  pos : Nat
  rest : List Char
  deriving DecidableEq, Repr

abbrev Reading := Except Fault

def fail {α : Type} (problem : Problem) (position : Nat) : Reading α := .error ⟨problem, position⟩

namespace Cursor

def drop (n : Nat) (c : Cursor) : Cursor := ⟨c.pos + n, c.rest.drop n⟩

def isBlank (c : Char) : Bool := c == ' ' || c == '\t' || c == '\n' || c == '\r'

def skipBlank (c : Cursor) : Cursor := c.drop (c.rest.takeWhile isBlank).length

end Cursor

/-- Four hexadecimal digits. -/
def unit? : List Char → Option Nat
  | [a, b, c, d] => do
    let a ← Text.hexDigit? a
    let b ← Text.hexDigit? b
    let c ← Text.hexDigit? c
    let d ← Text.hexDigit? d
    return ((a * 16 + b) * 16 + c) * 16 + d
  | _ => none

def isHighUnit (n : Nat) : Bool := 0xD800 ≤ n && n ≤ 0xDBFF

def isLowUnit (n : Nat) : Bool := 0xDC00 ≤ n && n ≤ 0xDFFF

/-- A code point by number; a unit that stands for none alone becomes the replacement character. -/
def charOf (n : Nat) : Char := if n.isValidChar then Char.ofNat n else '\ufffd'

/-- The character of an escape whose `u` is at `c`, and how many characters it takes from there. A pair of units
is one character. -/
def codeEscape (c : Cursor) : Reading (Char × Nat) :=
  let digits := (c.rest.drop 1).take 4
  let after := c.rest.drop 5
  match after, unit? digits with
  | [], _ => fail .codeEscape c.pos
  | _, none => fail .codeEscape c.pos
  | '\\' :: 'u' :: more, some high =>
    if isHighUnit high && 4 < more.length then
      match unit? (more.take 4) with
      | none => fail .codeEscape (c.pos + 6)
      | some low =>
        if isLowUnit low then .ok (charOf (0x10000 + (high - 0xD800) * 0x400 + (low - 0xDC00)), 11)
        else .ok (charOf high, 5)
    else .ok (charOf high, 5)
  | _, some code => .ok (charOf code, 5)

def simpleEscape? : Char → Option Char
  | '"' => some '"'
  | '\\' => some '\\'
  | '/' => some '/'
  | 'b' => some '\x08'
  | 'f' => some '\x0c'
  | 'n' => some '\n'
  | 'r' => some '\r'
  | 't' => some '\t'
  | _ => none

/-- The rest of a string that was opened at `start`. -/
def string (start : Nat) : Nat → List Char → Cursor → Reading (String × Cursor)
  | 0, _, _ => fail .unterminated start
  | n + 1, seen, c =>
    match c.rest with
    | [] => fail .unterminated start
    | '"' :: _ => .ok (String.ofList seen.reverse, c.drop 1)
    | '\\' :: [] => fail .unterminated start
    | '\\' :: 'u' :: _ => do
      let (char, length) ← codeEscape (c.drop 1)
      string start n (char :: seen) (c.drop (1 + length))
    | '\\' :: e :: _ =>
      match simpleEscape? e with
      | some char => string start n (char :: seen) (c.drop 2)
      | none => fail .escape c.pos
    | char :: _ =>
      if char.toNat < 32 then fail .controlCharacter c.pos
      else string start n (char :: seen) (c.drop 1)

/-- The digits of a number in its three parts. -/
structure Numeral where
  negative : Bool
  whole : List Char
  fraction : List Char
  exponent : Option (Bool × List Char)
  deriving DecidableEq, Repr

/-- A fraction has a digit after its point. -/
def fractionPart : List Char → List Char × List Char
  | '.' :: d :: rest =>
    if d.isDigit then (d :: rest.takeWhile Char.isDigit, rest.dropWhile Char.isDigit) else ([], '.' :: d :: rest)
  | cs => ([], cs)

/-- An exponent has a digit after its sign. -/
def exponentPart : List Char → Option (Bool × List Char) × List Char
  | e :: rest =>
    if e == 'e' || e == 'E' then
      let (negative, digits) := match rest with
        | '-' :: ds => (true, ds)
        | '+' :: ds => (false, ds)
        | ds => (false, ds)
      if (digits.takeWhile Char.isDigit).isEmpty then (none, e :: rest)
      else (some (negative, digits.takeWhile Char.isDigit), digits.dropWhile Char.isDigit)
    else (none, e :: rest)
  | [] => (none, [])

/-- A number and what follows it. A number does not start with a zero that another digit follows. -/
def numeral? (cs : List Char) : Option (Numeral × List Char) :=
  let (negative, cs) := match cs with
    | '-' :: rest => (true, rest)
    | _ => (false, cs)
  let whole := match cs with
    | '0' :: _ => ['0']
    | _ => cs.takeWhile Char.isDigit
  if whole.isEmpty then none
  else
    let (fraction, after) := fractionPart (cs.drop whole.length)
    let (exponent, after) := exponentPart after
    some (⟨negative, whole, fraction, exponent⟩, after)

def natOf (digits : List Char) : Nat := Text.valueIn 10 digits

def Numeral.isWhole (n : Numeral) : Bool := n.fraction.isEmpty && n.exponent.isNone

/-- A number without fraction and exponent is an integer. -/
def Numeral.value (n : Numeral) : Reading Value :=
  if n.isWhole then
    if Decimal.longestNumeral < n.whole.length then fail (.longInteger n.whole.length) 0
    else .ok (.int (if n.negative then -Int.ofNat (natOf n.whole) else Int.ofNat (natOf n.whole)))
  else
    let power : Int := match n.exponent with
      | some (true, digits) => -Int.ofNat (natOf digits)
      | some (false, digits) => Int.ofNat (natOf digits)
      | none => 0
    .ok (.real (Decimal.nearestFloat n.negative (natOf (n.whole ++ n.fraction)) (power - n.fraction.length)))

/-- Words that stand for values. -/
def words : List (String × Value) :=
  [("null", .null), ("true", .bool true), ("false", .bool false), ("NaN", .real (0.0 / 0.0)),
   ("Infinity", .real (1.0 / 0.0)), ("-Infinity", .real (-(1.0 / 0.0)))]

def word? (c : Cursor) : Option (Value × Cursor) :=
  (words.find? fun w => w.1.toList.isPrefixOf c.rest).map fun w => (w.2, c.drop w.1.length)

/-- A word or a number. -/
def scalar (c : Cursor) : Reading (Value × Cursor) :=
  match word? c with
  | some result => .ok result
  | none =>
    match numeral? c.rest with
    | some (n, after) => do return (← n.value, c.drop (c.rest.length - after.length))
    | none => fail .value c.pos

/-- Sets a field: a name that is there already keeps its place and takes the new value. -/
def setField (name : String) (v : Value) : List (String × Value) → List (String × Value)
  | [] => [(name, v)]
  | (other, w) :: rest => if other == name then (name, v) :: rest else (other, w) :: setField name v rest

/-- How deep lists and records can lie in each other. Beyond that a reading breaks off, a little earlier or later
with what else is under way. -/
def nestingLimit : Nat := 990

mutual

/-- A value that starts at the cursor, `depth` lists and records deep. Each call takes one of `n` steps. -/
def value (depth : Nat) : Nat → Cursor → Reading (Value × Cursor)
  | 0, c => fail .value c.pos
  | n + 1, c =>
    match c.rest with
    | '"' :: rest => do
      let (s, c) ← string c.pos (rest.length + 1) [] (c.drop 1)
      return (.text s, c)
    | '\x7b' :: _ =>
      if nestingLimit ≤ depth then fail .deepRecord c.pos
      else
        let c := (c.drop 1).skipBlank
        match c.rest with
        | '\x7d' :: _ => .ok (.record [], c.drop 1)
        | _ => fields (depth + 1) n [] c
    | '[' :: _ =>
      if nestingLimit ≤ depth then fail .deepList c.pos
      else
        let c := (c.drop 1).skipBlank
        match c.rest with
        | ']' :: _ => .ok (.list [], c.drop 1)
        | _ => items (depth + 1) n [] c
    | _ => scalar c

/-- The members of a list from the next one on. -/
def items (depth : Nat) : Nat → List Value → Cursor → Reading (Value × Cursor)
  | 0, _, c => fail .value c.pos
  | n + 1, seen, c => do
    let (v, c) ← value depth n c
    let c := c.skipBlank
    match c.rest with
    | ']' :: _ => return (.list (v :: seen).reverse, c.drop 1)
    | ',' :: _ => items depth n (v :: seen) (c.drop 1).skipBlank
    | _ => fail .comma c.pos

/-- The fields of a record from the next one on. -/
def fields (depth : Nat) : Nat → List (String × Value) → Cursor → Reading (Value × Cursor)
  | 0, _, c => fail .value c.pos
  | n + 1, seen, c =>
    match c.rest with
    | '"' :: rest => do
      let (name, c) ← string c.pos (rest.length + 1) [] (c.drop 1)
      let c := c.skipBlank
      match c.rest with
      | ':' :: _ =>
        let (v, c) ← value depth n (c.drop 1).skipBlank
        let seen := setField name v seen
        let c := c.skipBlank
        match c.rest with
        | '\x7d' :: _ => return (.record seen, c.drop 1)
        | ',' :: _ => fields depth n seen (c.drop 1).skipBlank
        | _ => fail .comma c.pos
      | _ => fail .colon c.pos
    | _ => fail .propertyName c.pos

end

/-- The value of a whole document. -/
def read (source : List Char) : Reading Value :=
  match source with
  | '\ufeff' :: _ => fail .byteOrderMark 0
  | _ => do
    let (v, c) ← value 0 (2 * source.length + 2) (Cursor.skipBlank ⟨0, source⟩)
    let c := c.skipBlank
    if c.rest.isEmpty then return v else fail .extraData c.pos

end ScriptAudit.Json
