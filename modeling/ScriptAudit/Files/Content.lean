import ScriptAudit.Encoding.Guess
import ScriptAudit.Encoding.Utf8
import ScriptAudit.Files.Disk

namespace ScriptAudit

namespace Bytes

/-- The share of bytes of one kind above which data count as binary. -/
structure Thresholds where
  control : Float
  high : Float

def Thresholds.standard : Thresholds := ⟨0.30, 0.60⟩

/-- The first bytes of compiled scripts. -/
def compiledMark : Bytes := [0x1B, 0x4C, 0x75, 0x61]

def isControl (b : UInt8) : Bool := (b < 32 || b = 0x7F) && !(b = 9 || b = 10 || b = 13)

def isHigh (b : UInt8) : Bool := 0x80 ≤ b

def share (data : Bytes) (kind : UInt8 → Bool) : Float :=
  Float.ofNat (data.countP kind) / Float.ofNat data.length

/-- Whether data look like something else than text. -/
def isBinary (limits : Thresholds) (data : Bytes) : Bool :=
  !data.isEmpty &&
    (data.contains 0 || compiledMark.isPrefixOf data || limits.control < share data isControl ||
      limits.high < share data isHigh)

end Bytes

def Disk.Refused.failure (r : Disk.Refused) : Failure := ⟨r.error.kind, r.message⟩

/-- The refusal of a read length below -1, which stands for all there is. -/
def negativeLength : Failure := ⟨"ValueError", "read length must be non-negative or -1"⟩

namespace Bytes

/-- The first `count` bytes and the rest. -/
def split (count : Int) (data : Bytes) : Except Failure (Bytes × Bytes) :=
  if count < -1 then .error negativeLength
  else if count = -1 then .ok (data, [])
  else .ok (data.take count.toNat, data.drop count.toNat)

/-- How much is looked at before all is read. -/
def headLength : Int := 4096

/-- The bytes that are read of a file, at most `limit` of them; none if they look binary. -/
def readable (limit : Int) (data : Bytes) : Except Failure (Option Bytes) := do
  let (head, rest) ← data.split (min headLength limit)
  if head.isBinary .standard then return none
  else
    let (more, _) ← rest.split (limit - head.length)
    return if (head ++ more).isBinary .standard then none else some (head ++ more)

/-- The text of a file's bytes, if they can be read and decoded. -/
def content (guess : Bytes → Guess) (limit : Int) (data : Bytes) : Except Failure (Option (List Char)) := do
  match ← data.readable limit with
  | none => return none
  | some data => data.text guess

end Bytes

/-- What is read of a file when no limit is given. -/
def readLimit : Int := 20000000

/-- The text of a file; none if it cannot be read. -/
def Disk.text (d : Disk) (guess : Bytes → Guess) (limit : Int) (p : Path) :
    Except Failure (Option (List Char)) :=
  match d.read p with
  | .ok data => data.content guess limit
  | .error _ => .ok none

end ScriptAudit
