import ScriptAudit.Text.Basic

namespace ScriptAudit.Decimal

open ScriptAudit.Text

/-- White space that may surround a written number. -/
def isMargin (c : Char) : Bool :=
  if c.toNat < 128 then isAsciiBlank c else isBlank c

/-- Digits of any script as values, with single underscores allowed between two of them. -/
def digitRun (cs : List Char) : Option (List Nat × List Char) :=
  match cs with
  | c :: rest => (digitValue? c).map fun d => more [d] rest
  | [] => none
where
  more (seen : List Nat) : List Char → List Nat × List Char
    | '_' :: c :: rest =>
      match digitValue? c with
      | some d => more (d :: seen) rest
      | none => (seen.reverse, '_' :: c :: rest)
    | c :: rest =>
      match digitValue? c with
      | some d => more (d :: seen) rest
      | none => (seen.reverse, c :: rest)
    | [] => (seen.reverse, [])

def ofDigits (digits : List Nat) : Nat := digits.foldl (fun n d => 10 * n + d) 0

def sign : List Char → Bool × List Char
  | '-' :: rest => (true, rest)
  | '+' :: rest => (false, rest)
  | cs => (false, cs)

/-- Whole numbers longer than this are refused. -/
def longestNumeral : Nat := 4300

/-- The refusal of a whole number with so many digits. -/
def tooLong (digits : Nat) : String :=
  s!"Exceeds the limit ({longestNumeral} digits) for integer string conversion: value has {digits} digits; " ++
    "use sys.set_int_max_str_digits() to increase the limit"

/-- A whole number: margins, a sign, digits. -/
def integer? (s : String) : Option Int :=
  let (negative, cs) := sign (between isMargin s.toList)
  match digitRun cs with
  | some (digits, []) =>
    if longestNumeral < digits.length then none
    else some (if negative then -Int.ofNat (ofDigits digits) else Int.ofNat (ofDigits digits))
  | _ => none

/-- The double nearest to `mantissa * 10 ^ exponent`. -/
def nearestFloat (negative : Bool) (mantissa : Nat) (exponent : Int) : Float :=
  let size := Int.ofNat (Nat.toDigits 10 mantissa).length + exponent
  let magnitude : Float :=
    if mantissa = 0 || size < -400 then 0.0
    else if 400 < size then 1.0 / 0.0
    else Float.ofScientific mantissa (decide (exponent < 0)) exponent.natAbs
  if negative then -magnitude else magnitude

def lowerWord (cs : List Char) : String := String.ofList (cs.map Char.toLower)

/-- The exponent part of a written number and what follows it. -/
def exponentPart : List Char → Option (Int × List Char)
  | c :: rest =>
    if c == 'e' || c == 'E' then
      let (negative, cs) := sign rest
      (digitRun cs).map fun (digits, after) =>
        (if negative then -Int.ofNat (ofDigits digits) else Int.ofNat (ofDigits digits), after)
    else some (0, c :: rest)
  | [] => some (0, [])

/-- A number with an optional fraction and exponent, an infinity, or no number. -/
def real? (s : String) : Option Float :=
  let (negative, cs) := sign (between isMargin s.toList)
  let word := lowerWord cs
  if word == "inf" || word == "infinity" then some (if negative then -(1.0 / 0.0) else 1.0 / 0.0)
  else if word == "nan" then some (0.0 / 0.0)
  else
    let (whole, rest) := (digitRun cs).getD ([], cs)
    let (fraction, rest) := match rest with
      | '.' :: after => (digitRun after).getD ([], after)
      | _ => ([], rest)
    if whole.isEmpty && fraction.isEmpty then none
    else match exponentPart rest with
      | some (e, []) => some (nearestFloat negative (ofDigits (whole ++ fraction)) (e - fraction.length))
      | _ => none

end ScriptAudit.Decimal
