import ScriptAudit.Location
import ScriptAudit.Rule.Basic

namespace ScriptAudit

/-- A match of a rule at its place. -/
structure Finding where
  category : String
  rule : Rule
  location : Location
  matchedText : String
  file : Option String
  deriving DecidableEq

namespace Finding

def severity (f : Finding) : Severity := f.rule.severity

/-- What tells two findings apart. Severity and column do not. -/
structure Identity where
  category : String
  title : String
  line : Int
  matchedText : String
  deriving DecidableEq, Repr

def identity (f : Finding) : Identity := ⟨f.category, f.rule.title, f.location.line, f.matchedText⟩

/-- The first finding of each identity. -/
def firsts : List Finding → List Finding
  | [] => []
  | f :: rest => f :: (firsts rest).filter fun g => g.identity ≠ f.identity

/-- What findings are ranked by: severity from high to low, then line, category and column. -/
structure Rank where
  severity : Severity
  line : Int
  category : String
  column : Int
  deriving DecidableEq, Repr

/-- Whether a rank comes before another or is equal to it. -/
def Rank.le (a b : Rank) : Bool :=
  if a.severity ≠ b.severity then decide (b.severity.rank < a.severity.rank)
  else if a.line ≠ b.line then decide (a.line < b.line)
  else if a.category ≠ b.category then decide (a.category < b.category)
  else decide (a.column ≤ b.column)

def rank (f : Finding) : Rank := ⟨f.severity, f.location.line, f.category, f.location.column⟩

/-- The findings by rank; those of equal rank keep their order. -/
def ranked (findings : List Finding) : List Finding := findings.mergeSort fun f g => f.rank.le g.rank

/-- How many findings there are of each severity, the highest first. -/
def summary (findings : List Finding) : List (String × Int) :=
  Severity.all.reverse.map fun s => (s.name, (findings.countP (·.severity = s) : Int))

/-- How many findings there are in each category that has one, by name. -/
def byCategory (findings : List Finding) : List (String × Int) :=
  let names := (findings.map (·.category)).eraseDups.mergeSort fun a b => !decide (b < a)
  names.map fun name => (name, (findings.countP (·.category = name) : Int))

end Finding

end ScriptAudit
