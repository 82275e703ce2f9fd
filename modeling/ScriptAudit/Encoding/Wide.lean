import ScriptAudit.Encoding.Utf8

namespace ScriptAudit.Wide

/-- Numbers of two bytes, the low byte first unless `big`; `none` if a byte is left over. -/
def units16? (big : Bool) : Bytes → Option (List Nat)
  | [] => some []
  | a :: b :: rest =>
    let n := if big then a.toNat * 256 + b.toNat else b.toNat * 256 + a.toNat
    (units16? big rest).map (n :: ·)
  | _ => none

def chars16? : List Nat → Option (List Char)
  | [] => some []
  | high :: rest =>
    if high < 0xD800 || 0xE000 ≤ high then (chars16? rest).map (Char.ofNat high :: ·)
    else match rest with
      | low :: rest =>
        if high < 0xDC00 && 0xDC00 ≤ low && low < 0xE000 then
          (chars16? rest).map (Char.ofNat (0x10000 + (high - 0xD800) * 0x400 + (low - 0xDC00)) :: ·)
        else none
      | [] => none

def decode16? (big : Bool) (data : Bytes) : Option (List Char) := (units16? big data).bind chars16?

/-- A mark at the start tells the order of bytes; without one the low byte comes first. -/
def decodeMarked16? (data : Bytes) : Option (List Char) :=
  match data with
  | 0xFF :: 0xFE :: rest => decode16? false rest
  | 0xFE :: 0xFF :: rest => decode16? true rest
  | _ => decode16? false data

def decode32? (big : Bool) : Bytes → Option (List Char)
  | [] => some []
  | a :: b :: c :: d :: rest =>
    let of (w x y z : UInt8) : Nat := ((w.toNat * 256 + x.toNat) * 256 + y.toNat) * 256 + z.toNat
    let n := if big then of a b c d else of d c b a
    if n.isValidChar then (decode32? big rest).map (Char.ofNat n :: ·) else none
  | _ => none

def decodeMarked32? (data : Bytes) : Option (List Char) :=
  match data with
  | 0xFF :: 0xFE :: 0 :: 0 :: rest => decode32? false rest
  | 0 :: 0 :: 0xFE :: 0xFF :: rest => decode32? true rest
  | _ => decode32? false data

end ScriptAudit.Wide
