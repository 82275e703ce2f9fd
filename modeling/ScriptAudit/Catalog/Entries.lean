import ScriptAudit.Catalog.Basic
import ScriptAudit.Rule.Check

namespace ScriptAudit

/-- The rules given for a category. -/
inductive Definitions where
  | list (definitions : List Definition)
  | other

/-- A category before it is checked. -/
structure CatalogEntry where
  name : Value
  definitions : Definitions

def Definitions.ofValue : Value → Definitions
  | .list items => .list (items.map .ofValue)
  | _ => .other

/-- The entries of a record of lists. -/
def CatalogEntry.ofFields (fields : List (String × Value)) : List CatalogEntry :=
  fields.map fun (name, v) => ⟨.text name, .ofValue v⟩

def CatalogEntry.check (e : CatalogEntry) : Except CatalogFailure Category :=
  match nonBlank? e.name with
  | none => .error (.invalid ⟨none, none, .categoryName e.name⟩)
  | some name =>
    match e.definitions with
    | .other => .error (.invalid ⟨some name, none, .notAList⟩)
    | .list definitions => do return ⟨name, ← definitions.mapM (·.check name)⟩

/-- The catalog of entries with different names, or the first thing that is wrong with them. -/
def Catalog.ofEntries (entries : List CatalogEntry) : Except CatalogFailure Catalog := do
  return ⟨← entries.mapM (·.check)⟩

/-- The entry of a category's own rules. -/
def Category.toEntry (c : Category) : CatalogEntry :=
  ⟨.text c.name, .list (c.rules.map fun r => .draft r.toDraft)⟩

end ScriptAudit
