import ScriptAudit.Pattern.Expr
import ScriptAudit.Pattern.Token

namespace ScriptAudit.Pattern

open ScriptAudit.Text (valueIn)

def isHexDigit (c : Char) : Bool := (Text.hexDigit? c).isSome

def isOctalDigit (c : Char) : Bool := '0' ≤ c && c ≤ '7'

def escapeText (c : Char) (digits : List Char) : String := String.ofList ('\\' :: c :: digits)

/-- The characters that letters stand for after a backslash. -/
def controlCode? : Char → Option Nat
  | 'a' => some 7
  | 'b' => some 8
  | 'f' => some 12
  | 'n' => some 10
  | 'r' => some 13
  | 't' => some 9
  | 'v' => some 11
  | '\\' => some 92
  | _ => none

def classOf? : Char → Option (CharClass × Bool)
  | 'd' => some (.digit, false)
  | 'D' => some (.digit, true)
  | 's' => some (.blank, false)
  | 'S' => some (.blank, true)
  | 'w' => some (.word, false)
  | 'W' => some (.word, true)
  | _ => none

/-- A code point written with exactly `count` hexadecimal digits after the letter `c`. -/
def hexEscape (start count : Nat) (c : Char) (r : Reader) : Reading (Nat × Reader) := do
  let (digits, r) ← r.collect isHexDigit count
  if digits.length ≠ count then complain (.shortEscape (escapeText c digits)) start
  else
    let code := valueIn 16 digits
    if 0x7FFFFFFF < code then .error .codeTooLarge
    else if 0x10FFFF < code then complain (.unknownEscape (escapeText c digits)) start
    else return (code, r)

/-- A character by name. No names are known. -/
def namedEscape (start : Nat) (r : Reader) : Reading (Nat × Reader) := do
  let (found, r) ← r.eat '\x7b'
  if !found then complain .missingBrace r.pos
  else
    let (name, _) ← r.upTo '\x7d' "character name"
    complain (.unknownCharacter (String.ofList name)) start

def octalCode (start : Nat) (digits : List Char) (r : Reader) : Reading (Nat × Reader) :=
  let code := valueIn 8 digits
  if 0o377 < code then complain (.largeOctal (String.ofList ('\\' :: digits))) start
  else .ok (code, r)

/-- Escapes for one code point that mean the same inside and outside of a set; `none` if `c` starts none. -/
def codeEscape? (start : Nat) (c : Char) (r : Reader) : Option (Reading (Nat × Reader)) :=
  match c with
  | 'x' => some (hexEscape start 2 c r)
  | 'u' => some (hexEscape start 4 c r)
  | 'U' => some (hexEscape start 8 c r)
  | 'N' => some (namedEscape start r)
  | _ => none

/-- Other characters stand for themselves, ASCII letters and digits excepted. -/
def selfEscape (start : Nat) (c : Char) (r : Reader) : Reading (Nat × Reader) :=
  if c.isAlphanum then complain (.unknownEscape (escapeText c [])) start
  else .ok (c.toNat, r)

/-- The member of a set that an escape at `start` stands for. -/
def setEscape (ascii : Bool) (start : Nat) (c : Char) (r : Reader) : Reading (SetItem × Reader) :=
  let code (result : Reading (Nat × Reader)) : Reading (SetItem × Reader) :=
    result.map fun (n, r) => (.code n, r)
  match controlCode? c, classOf? c with
  | some n, _ => .ok (.code n, r)
  | none, some (kind, negated) => .ok (.cls kind ascii negated, r)
  | none, none =>
    match codeEscape? start c r with
    | some result => code result
    | none =>
      if isOctalDigit c then do
        let (digits, r) ← r.collect isOctalDigit 2
        code (octalCode start (c :: digits) r)
      else code (selfEscape start c r)

/-- What an escape outside of a set stands for. -/
inductive Escape where
  | code (code : Nat)
  | cls (kind : CharClass) (negated : Bool)
  | textStart
  | textEnd
  | wordEdge (present : Bool)
  | group (index : Nat)
  deriving DecidableEq, Repr

def placeOf? : Char → Option Escape
  | 'A' => some .textStart
  | 'Z' => some .textEnd
  | 'b' => some (.wordEdge true)
  | 'B' => some (.wordEdge false)
  | _ => none

/-- A digit other than zero starts the number of a group, or three octal digits. -/
def numberEscape (start : Nat) (c : Char) (r : Reader) : Reading (Escape × Reader) := do
  let (second, r) ← r.collect Char.isDigit 1
  let (third, r) ← match second with
    | [d] => if isOctalDigit c && isOctalDigit d then r.collect isOctalDigit 1 else .ok ([], r)
    | _ => .ok ([], r)
  let digits := c :: second ++ third
  if digits.length = 3 then
    let (n, r) ← octalCode start digits r
    return (.code n, r)
  else return (.group (valueIn 10 digits), r)

def exprEscape (start : Nat) (c : Char) (r : Reader) : Reading (Escape × Reader) :=
  let code (result : Reading (Nat × Reader)) : Reading (Escape × Reader) :=
    result.map fun (n, r) => (.code n, r)
  match placeOf? c, classOf? c, controlCode? c with
  | some place, _, _ => .ok (place, r)
  | none, some (kind, negated), _ => .ok (.cls kind negated, r)
  | none, none, some n => .ok (.code n, r)
  | none, none, none =>
    match codeEscape? start c r with
    | some result => code result
    | none =>
      if c == '0' then do
        let (digits, r) ← r.collect isOctalDigit 2
        return (.code (valueIn 8 digits), r)
      else if c.isDigit then numberEscape start c r
      else code (selfEscape start c r)

end ScriptAudit.Pattern
