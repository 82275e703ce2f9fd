import ScriptAudit.Text.Basic

namespace ScriptAudit

/-- A path by its names from the root, or from the working directory if there is no root. -/
structure Path where
  root : String
  parts : List String
  deriving DecidableEq, Repr

namespace Path

/-- One slash is the root, two are another, and more count as one. -/
def rootOf (s : List Char) : String :=
  match s with
  | '/' :: '/' :: '/' :: _ => "/"
  | '/' :: '/' :: _ => "//"
  | '/' :: _ => "/"
  | _ => ""

/-- Reads a path; empty names and single dots drop out. -/
def ofText (s : String) : Path :=
  ⟨rootOf s.toList, (Text.pieces '/' s).filter fun part => part ≠ "" && part ≠ "."⟩

def toText (p : Path) : String :=
  if p.root.isEmpty && p.parts.isEmpty then "." else p.root ++ "/".intercalate p.parts

def child (p : Path) (name : String) : Path := { p with parts := p.parts ++ [name] }

def descendant (p : Path) (names : List String) : Path := { p with parts := p.parts ++ names }

def parent (p : Path) : Path := { p with parts := p.parts.dropLast }

/-- What remains of a path below another one. -/
def relativeTo? (p base : Path) : Option Path :=
  if p.root = base.root && base.parts.isPrefixOf p.parts then some ⟨"", p.parts.drop base.parts.length⟩ else none

/-- The path from a base, or the whole path if it is not below it. -/
def display (base p : Path) : String := ((p.relativeTo? base).getD p).toText

end Path

end ScriptAudit
