import ScriptAudit.Text.Quoted

namespace ScriptAudit

abbrev Bytes := List UInt8

namespace Utf8

inductive Flaw where
  | invalidStart
  | invalidContinuation
  | unexpectedEnd
  deriving DecidableEq, Repr

def Flaw.text : Flaw → String
  | invalidStart => "invalid start byte"
  | invalidContinuation => "invalid continuation byte"
  | unexpectedEnd => "unexpected end of data"

/-- Bytes that stand for no text, from `start` up to `stop`. -/
structure Fault where
  flaw : Flaw
  start : Nat
  stop : Nat
  deriving DecidableEq, Repr

/-- What is said of a fault; a single byte is shown. -/
def Fault.message (data : Bytes) (f : Fault) : String :=
  let what :=
    if f.stop = f.start + 1 then
      s!"byte 0x{String.ofList (Text.hex 2 (data.getD f.start 0).toNat)} in position {f.start}"
    else s!"bytes in position {f.start}-{f.stop - 1}"
  s!"'utf-8' codec can't decode {what}: {f.flaw.text}"

def isContinuation (b : UInt8) : Bool := 0x80 ≤ b && b ≤ 0xBF

/-- The second bytes that may follow a first byte: none that would write a small number long, a surrogate, or a
number beyond the last code point. -/
def isSecond (a b : UInt8) : Bool :=
  isContinuation b &&
    (if a = 0xE0 then 0xA0 ≤ b
     else if a = 0xED then b ≤ 0x9F
     else if a = 0xF0 then 0x90 ≤ b
     else if a = 0xF4 then b ≤ 0x8F
     else true)

def payload (b : UInt8) : Nat := b.toNat % 64

/-- Decodes from an offset on, with the characters so far from the last to the first. -/
def decodeFrom (pos : Nat) (seen : List Char) : Bytes → Except Fault (List Char)
  | [] => .ok seen.reverse
  | a :: rest =>
    if a < 0x80 then decodeFrom (pos + 1) (Char.ofNat a.toNat :: seen) rest
    else if a < 0xC2 then .error ⟨.invalidStart, pos, pos + 1⟩
    else if a < 0xE0 then
      match rest with
      | [] => .error ⟨.unexpectedEnd, pos, pos + 1⟩
      | b :: rest =>
        if isSecond a b then decodeFrom (pos + 2) (Char.ofNat (a.toNat % 32 * 64 + payload b) :: seen) rest
        else .error ⟨.invalidContinuation, pos, pos + 1⟩
    else if a < 0xF0 then
      match rest with
      | [] => .error ⟨.unexpectedEnd, pos, pos + 1⟩
      | b :: rest =>
        if !isSecond a b then .error ⟨.invalidContinuation, pos, pos + 1⟩
        else match rest with
          | [] => .error ⟨.unexpectedEnd, pos, pos + 2⟩
          | c :: rest =>
            if isContinuation c then
              decodeFrom (pos + 3) (Char.ofNat ((a.toNat % 16 * 64 + payload b) * 64 + payload c) :: seen) rest
            else .error ⟨.invalidContinuation, pos, pos + 2⟩
    else if a < 0xF5 then
      match rest with
      | [] => .error ⟨.unexpectedEnd, pos, pos + 1⟩
      | b :: rest =>
        if !isSecond a b then .error ⟨.invalidContinuation, pos, pos + 1⟩
        else match rest with
          | [] => .error ⟨.unexpectedEnd, pos, pos + 2⟩
          | c :: rest =>
            if !isContinuation c then .error ⟨.invalidContinuation, pos, pos + 2⟩
            else match rest with
              | [] => .error ⟨.unexpectedEnd, pos, pos + 3⟩
              | d :: rest =>
                if isContinuation d then
                  decodeFrom (pos + 4)
                    (Char.ofNat (((a.toNat % 8 * 64 + payload b) * 64 + payload c) * 64 + payload d) :: seen) rest
                else .error ⟨.invalidContinuation, pos, pos + 3⟩
    else .error ⟨.invalidStart, pos, pos + 1⟩

/-- The text of bytes, or the first fault in them. -/
def decode (data : Bytes) : Except Fault (List Char) := decodeFrom 0 [] data

def trail (n : Nat) : UInt8 := UInt8.ofNat (0x80 + n % 64)

def encodeChar (c : Char) : Bytes :=
  let n := c.toNat
  if n < 0x80 then [UInt8.ofNat n]
  else if n < 0x800 then [UInt8.ofNat (0xC0 + n / 64), trail n]
  else if n < 0x10000 then [UInt8.ofNat (0xE0 + n / 4096), trail (n / 64), trail n]
  else [UInt8.ofNat (0xF0 + n / 262144), trail (n / 4096), trail (n / 64), trail n]

def encode (text : List Char) : Bytes := text.flatMap encodeChar

/-- The mark that may stand before a text. -/
def mark : Bytes := [0xEF, 0xBB, 0xBF]

def withoutMark (data : Bytes) : Bytes := if mark.isPrefixOf data then data.drop 3 else data

end Utf8

end ScriptAudit
