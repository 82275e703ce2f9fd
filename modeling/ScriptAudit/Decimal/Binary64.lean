namespace ScriptAudit.Decimal

/-- The number `mantissa * 2 ^ exponent` with its sign. -/
structure Dyadic where
  negative : Bool
  mantissa : Nat
  exponent : Int

inductive Binary64 where
  | nan
  | infinity (negative : Bool)
  | finite (value : Dyadic)

/-- The exact value of a double. -/
def Binary64.ofFloat (x : Float) : Binary64 :=
  let bits := x.toBits.toNat
  let negative := decide (Nat.pow 2 63 ≤ bits)
  let biased := bits / Nat.pow 2 52 % 2048
  let fraction := bits % Nat.pow 2 52
  if biased = 2047 then
    if fraction = 0 then .infinity negative else .nan
  else if biased = 0 then .finite ⟨negative, fraction, -1074⟩
  else .finite ⟨negative, fraction + Nat.pow 2 52, Int.ofNat biased - 1075⟩

/-- The quotient rounded to the nearest integer, a half to the even one. -/
def roundDiv (num den : Nat) : Nat :=
  let q := num / den
  let twice := 2 * (num % den)
  if twice < den then q
  else if den < twice then q + 1
  else q + q % 2

def Dyadic.scaled (d : Dyadic) (factor : Nat) : Nat :=
  if d.exponent < 0 then roundDiv (d.mantissa * factor) (Nat.pow 2 d.exponent.natAbs)
  else d.mantissa * factor * Nat.pow 2 d.exponent.natAbs

/-- Two decimal places of the exact value. -/
def Dyadic.hundredths (d : Dyadic) : String :=
  let n := d.scaled 100
  let cents := n % 100
  (if d.negative then "-" else "") ++ toString (n / 100) ++ "." ++
    (if cents < 10 then "0" else "") ++ toString cents

/-- A number with two decimal places; a sign stays even when all digits are zero. -/
def hundredths (x : Float) : String :=
  match Binary64.ofFloat x with
  | .nan => "nan"
  | .infinity negative => if negative then "-inf" else "inf"
  | .finite d => d.hundredths

/-- The numbers that round to a double, over a common denominator: the double itself is `value / den`, and the
ends belong to it when `closed`. -/
structure Rounding where
  low : Nat
  value : Nat
  high : Nat
  den : Nat
  closed : Bool

def Dyadic.rounding (d : Dyadic) : Rounding :=
  let quarter := d.exponent - 2
  let up := if quarter < 0 then 1 else Nat.pow 2 quarter.natAbs
  let den := if quarter < 0 then Nat.pow 2 quarter.natAbs else 1
  -- below a power of two the neighbours are twice as dense
  let below := if d.mantissa = Nat.pow 2 52 && d.exponent != -1074 then 1 else 2
  ⟨(4 * d.mantissa - below) * up, 4 * d.mantissa * up, (4 * d.mantissa + 2) * up, den, d.mantissa % 2 = 0⟩

/-- The place of the first digit: the value is below `10 ^ place` and not below a tenth of it. -/
def Rounding.place (r : Rounding) : Int :=
  if r.den ≤ r.value then Int.ofNat (Nat.toDigits 10 (r.value / r.den)).length
  else match (List.range 400).find? fun j => r.den ≤ r.value * Nat.pow 10 j with
    | some j => 1 - Int.ofNat j
    | none => 0

/-- `digits * 10 ^ exponent`. -/
structure Scientific where
  digits : Nat
  exponent : Int

/-- The nearest number with `count` digits, if it rounds to the double. -/
def Rounding.nearest? (r : Rounding) (count : Nat) : Option Scientific :=
  let exponent := r.place - count
  let unit := r.den * (if exponent < 0 then 1 else Nat.pow 10 exponent.natAbs)
  let scale := if exponent < 0 then Nat.pow 10 exponent.natAbs else 1
  let value := r.value * scale
  let inside (q : Nat) : Bool :=
    if r.closed then r.low * scale ≤ q * unit && q * unit ≤ r.high * scale
    else r.low * scale < q * unit && q * unit < r.high * scale
  let q := value / unit
  let fromLower := value - q * unit
  let toUpper := (q + 1) * unit - value
  if inside q && (!inside (q + 1) || fromLower < toUpper || (fromLower == toUpper && q % 2 == 0)) then
    some ⟨q, exponent⟩
  else if inside (q + 1) then some ⟨q + 1, exponent⟩
  else none

/-- The fewest digits that read back as the double. -/
def Dyadic.shortest (d : Dyadic) : Scientific :=
  let r := d.rounding
  ((List.range 17).findSome? fun n => r.nearest? (n + 1)).getD ⟨0, 0⟩

/-- Positional text while the point stays within these places of the digits, and an exponent elsewhere. -/
structure PlaceLimits where
  above : Int
  upTo : Int

def numberPlaces : PlaceLimits := ⟨-4, 16⟩

def exponentText (e : Int) : String :=
  let n := toString e.natAbs
  (if e < 0 then "e-" else "e+") ++ (if e.natAbs < 10 then "0" else "") ++ n

def Scientific.text (limits : PlaceLimits) (x : Scientific) : String :=
  let all := Nat.toDigits 10 x.digits
  let digits := (all.reverse.dropWhile (· == '0')).reverse
  let point := Int.ofNat all.length + x.exponent
  if limits.above < point && point ≤ limits.upTo then
    if point ≤ 0 then "0." ++ String.ofList (List.replicate point.natAbs '0' ++ digits)
    else if digits.length ≤ point.natAbs then
      String.ofList (digits ++ List.replicate (point.natAbs - digits.length) '0') ++ ".0"
    else String.ofList (digits.take point.natAbs) ++ "." ++ String.ofList (digits.drop point.natAbs)
  else
    String.ofList (digits.take 1) ++
      (if digits.length ≤ 1 then "" else "." ++ String.ofList (digits.drop 1)) ++ exponentText (point - 1)

/-- The text of a number: the fewest digits that read back. -/
def numberText (x : Float) : String :=
  match Binary64.ofFloat x with
  | .nan => "nan"
  | .infinity negative => if negative then "-inf" else "inf"
  | .finite d =>
    (if d.negative then "-" else "") ++
      (if d.mantissa = 0 then "0.0" else d.shortest.text numberPlaces)

end ScriptAudit.Decimal
