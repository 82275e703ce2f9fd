import ScriptAudit.Catalog.Error
import ScriptAudit.Rule.Draft

namespace ScriptAudit

namespace Draft

/-- The title that messages about a draft give. -/
def label (d : Draft) : Option String := nonBlank? d.title

def fail {α : Type} (d : Draft) (category : String) (problem : CatalogProblem) : Except CatalogFailure α :=
  .error (.invalid ⟨some category, d.label, problem⟩)

def textField (d : Draft) (category name : String) (v : Value) : Except CatalogFailure String :=
  match nonBlank? v with
  | some s => .ok s
  | none => d.fail category (.emptyField name)

def detector (d : Draft) (category : String) : Except CatalogFailure Detector :=
  match d.pattern with
  | .ready detector => .ok detector
  | .value v =>
    match Pattern.ofValue v d.flags with
    | .ok pattern => .ok ⟨pattern, none⟩
    | .error (.problem problem) => d.fail category (.pattern problem)
    | .error (.breakdown breakdown) => .error (.broken breakdown)

/-- The rule of a draft: the texts are looked at first, then the severity, then the pattern. -/
def check (d : Draft) (category : String) : Except CatalogFailure Rule := do
  let title ← d.textField category "title" d.title
  let description ← d.textField category "description" d.description
  let suggestion ← d.textField category "suggestion" d.suggestion
  match Severity.ofValue d.severity with
  | .error unknown => d.fail category (.severity unknown)
  | .ok severity =>
    let detector ← d.detector category
    return ⟨detector, title, description, severity, suggestion⟩

end Draft

/-- The rule of a definition in a category. -/
def Definition.check (category : String) : Definition → Except CatalogFailure Rule
  | .draft d => d.check category
  | .other kind => .error (.invalid ⟨some category, none, .notARecord kind⟩)

end ScriptAudit
