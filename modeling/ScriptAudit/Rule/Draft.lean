import ScriptAudit.Rule.Basic

namespace ScriptAudit

/-- The pattern of a draft: a value to be read, or one that is ready. -/
inductive PatternField where
  | value (value : Value)
  | ready (detector : Detector)

/-- A rule before it is checked. A field that is not given is `null`. -/
structure Draft where
  pattern : PatternField
  flags : Value := .null
  title : Value
  description : Value
  severity : Value
  suggestion : Value

/-- What stands in a list of rules. -/
inductive Definition where
  | draft (draft : Draft)
  | other (kind : String)

def Draft.ofValue (v : Value) : Draft where
  pattern := .value (v.field "pattern")
  flags := v.field "flags"
  title := v.field "title"
  description := v.field "description"
  severity := v.field "severity"
  suggestion := v.field "suggestion"

def Definition.ofValue (v : Value) : Definition :=
  match v with
  | .record _ => .draft (.ofValue v)
  | _ => .other v.kind

/-- A rule as a draft of itself. -/
def Rule.toDraft (r : Rule) : Draft where
  pattern := .ready r.detector
  title := .text r.title
  description := .text r.description
  severity := .text r.severity.name
  suggestion := .text r.suggestion

/-- A text with something else than white space in it. -/
def nonBlank? : Value → Option String
  | .text s => if Text.isAllBlank s then none else some s
  | _ => none

end ScriptAudit
