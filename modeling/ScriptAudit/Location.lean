namespace ScriptAudit

/-- A place in a text; the first line and the first column are 1. -/
structure Location where
  line : Int
  column : Int
  deriving DecidableEq, Repr

/-- Offsets of the newlines. -/
def newlineOffsets (text : List Char) : List Nat :=
  text.zipIdx.filterMap fun (c, i) => if c = '\n' then some i else none

/-- The length of a text and where its lines end. -/
structure LineIndex where
  length : Nat
  newlines : Array Nat
  deriving DecidableEq, Repr

/-- The first index between `low` and `high` whose entry is not below `x`, in an ascending array. -/
def firstNotBelow (entries : Array Nat) (x low high : Nat) : Nat :=
  if low < high then
    let middle := (low + high) / 2
    if entries.getD middle 0 < x then firstNotBelow entries x (middle + 1) high
    else firstNotBelow entries x low middle
  else low
termination_by high - low

/-- An offset that is not within the text. -/
structure OffsetError where
  offset : Int
  length : Nat
  deriving DecidableEq, Repr

def OffsetError.message (e : OffsetError) : String :=
  s!"offset {e.offset} outside text of length {e.length}"

namespace LineIndex

def ofText (text : List Char) : LineIndex := ⟨text.length, (newlineOffsets text).toArray⟩

def lineCount (index : LineIndex) : Nat := index.newlines.size + 1

/-- A newline belongs to the line that it ends. -/
def locate (index : LineIndex) (offset : Nat) : Location :=
  let line := firstNotBelow index.newlines offset 0 index.newlines.size
  let start := if line = 0 then 0 else index.newlines.getD (line - 1) 0 + 1
  ⟨line + 1, (offset : Int) - start + 1⟩

/-- The location of an offset, from the first character to the end of the text. -/
def resolve (index : LineIndex) (offset : Int) : Except OffsetError Location :=
  if offset < 0 ∨ (index.length : Int) < offset then .error ⟨offset, index.length⟩
  else .ok (index.locate offset.toNat)

end LineIndex

end ScriptAudit
