import ScriptAudit.Text.Basic
import ScriptAudit.Text.Case
import ScriptAudit.Value

namespace ScriptAudit

inductive Severity where
  | low
  | medium
  | high
  | critical
  deriving DecidableEq, Repr

namespace Severity

def all : List Severity := [.low, .medium, .high, .critical]

def name : Severity → String
  | .low => "low"
  | .medium => "medium"
  | .high => "high"
  | .critical => "critical"

/-- The name in capitals. -/
def banner : Severity → String
  | .low => "LOW"
  | .medium => "MEDIUM"
  | .high => "HIGH"
  | .critical => "CRITICAL"

def rank : Severity → Nat
  | .low => 0
  | .medium => 1
  | .high => 2
  | .critical => 3

def ofName? (s : String) : Option Severity := all.find? (·.name == s)

/-- A value that names no severity. -/
structure Unknown where
  value : Value

def Unknown.message (e : Unknown) : String :=
  s!"invalid severity {e.value.literal}; expected one of low, medium, high, critical"

/-- A severity by its exact name. -/
def ofValue : Value → Except Unknown Severity
  | .text s => match ofName? s with
    | some severity => .ok severity
    | none => .error ⟨.text s⟩
  | v => .error ⟨v⟩

/-- A severity by its name in any letter case, with white space around it. -/
def ofLooseValue : Value → Except Unknown Severity
  | .text s => match ofName? (Text.lower (Text.trim s)) with
    | some severity => .ok severity
    | none => .error ⟨.text s⟩
  | v => .error ⟨v⟩

end Severity

end ScriptAudit
