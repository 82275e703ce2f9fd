import ScriptAudit.Json.Problem
import ScriptAudit.Pattern.Basic
import ScriptAudit.Severity

namespace ScriptAudit

/-- What keeps a rule, a category or a rules file out of a catalog. -/
inductive CatalogProblem where
  | notARecord (kind : String)
  | emptyField (name : String)
  | severity (unknown : Severity.Unknown)
  | pattern (problem : Pattern.Problem)
  | categoryName (value : Value)
  | notAList
  | unreadableFile (path reason : String)
  | malformedFile (path reason : String)
  | fileWithoutRecord (path : String)

def CatalogProblem.message : CatalogProblem → String
  | notARecord kind => s!"rule must be a mapping, got {kind}"
  | emptyField name => s!"missing or empty {Text.quoted name}"
  | severity unknown => unknown.message
  | pattern problem => problem.message
  | categoryName value => s!"category name must be a non-empty string, got {value.literal}"
  | notAList => "rules must be a list"
  | unreadableFile path reason => s!"cannot read rules file {path}: {reason}"
  | malformedFile path reason => s!"rules file {path} is not valid JSON: {reason}"
  | fileWithoutRecord path => s!"rules file {path} must contain an object of category -> rule list"

/-- A problem with the category and the title of the rule that it is about. -/
structure CatalogError where
  category : Option String := none
  title : Option String := none
  problem : CatalogProblem

/-- The problem after the place it is about. -/
def CatalogError.message (e : CatalogError) : String :=
  match e.category, e.title with
  | some category, some title => s!"{category}/{title}: {e.problem.message}"
  | some category, none => s!"{category}: {e.problem.message}"
  | none, _ => e.problem.message

/-- Why there is no catalog: an error of the rules, or a pattern or a rules file whose reading breaks off. -/
inductive CatalogFailure where
  | invalid (error : CatalogError)
  | broken (breakdown : Pattern.Breakdown)
  | nested (problem : Json.Problem)

def CatalogFailure.message : CatalogFailure → String
  | invalid e => e.message
  | broken b => b.message
  | nested problem => problem.text

end ScriptAudit
