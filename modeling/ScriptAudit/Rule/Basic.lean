import ScriptAudit.Pattern.Basic
import ScriptAudit.Severity

namespace ScriptAudit

/-- Why a rule was given up: the kind of failure and what it says. -/
structure Failure where
  kind : String
  message : String
  deriving DecidableEq, Repr

def Failure.reason (f : Failure) : String := s!"{f.kind}: {f.message}"

/-- Whether a failure is the user's request to stop. -/
def Failure.interrupts (f : Failure) : Bool := f.kind == "KeyboardInterrupt"

/-- Whether a failure ends all work, and not only the part of it that failed. -/
def Failure.stops (f : Failure) : Bool := f.interrupts || f.kind == "SystemExit" || f.kind == "GeneratorExit"

/-- A search that gives up after so many matches. A search can only fail for itself. -/
structure Interruption where
  after : Nat
  failure : Failure
  ordinary : failure.stops = false
  deriving DecidableEq, Repr

/-- What a rule searches with. -/
structure Detector where
  pattern : Pattern
  interruption : Option Interruption := none
  deriving DecidableEq

namespace Detector

/-- The matches that are found, and the failure that ends the search if it does not reach the end. -/
def search (d : Detector) (text : Pattern.Subject) : List Pattern.Span × Option Failure :=
  let spans := d.pattern.program.spans text
  match d.interruption with
  | none => (spans, none)
  | some i => (spans.take i.after, some i.failure)

end Detector

/-- What to look for and what to say about it. -/
structure Rule where
  detector : Detector
  title : String
  description : String
  severity : Severity
  suggestion : String
  deriving DecidableEq

/-- The rule as data, with its pattern as text. -/
def Rule.toValue (r : Rule) : Value :=
  .record [("pattern", .text r.detector.pattern.toText), ("title", .text r.title),
    ("description", .text r.description), ("severity", .text r.severity.name),
    ("suggestion", .text r.suggestion)]

end ScriptAudit
