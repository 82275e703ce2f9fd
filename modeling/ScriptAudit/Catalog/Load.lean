import ScriptAudit.Catalog.Pack
import ScriptAudit.Files.Disk
import ScriptAudit.Json.Reader
import ScriptAudit.Text.Basic

namespace ScriptAudit

/-- The record of lists in a rules file. -/
def Disk.rules (d : Disk) (p : Path) : Except CatalogFailure (List (String × Value)) :=
  let fail (problem : CatalogProblem) : Except CatalogFailure (List (String × Value)) :=
    .error (.invalid ⟨none, none, problem⟩)
  match d.read p with
  | .error e => fail (.unreadableFile p.toText (e.message p))
  | .ok data =>
    match Utf8.decode data with
    | .error fault => fail (.malformedFile p.toText (fault.message data))
    | .ok text =>
      let source := Text.unifyLines text
      match Json.read source with
      | .error fault =>
        if fault.problem.breaksOff then .error (.nested fault.problem)
        else fail (.malformedFile p.toText (fault.message source))
      | .ok (.record fields) => .ok fields
      | .ok _ => fail (.fileWithoutRecord p.toText)

/-- What rules to use. -/
structure CatalogChoice where
  selector : Option String := none
  file : Option Path := none
  builtin : Bool := true
  deriving Repr

namespace CatalogChoice

/-- The rules of the file, of the selected categories. -/
def custom (choice : CatalogChoice) (d : Disk) (p : Path) : Except CatalogFailure Catalog := do
  let catalog ← Catalog.ofEntries (CatalogEntry.ofFields (← d.rules p))
  let key := Pack.selectorKey choice.selector
  return if Pack.selectsAll key then catalog else catalog.select (Text.pieces ',' key)

/-- The built-in rules, then those of a file. -/
def load (choice : CatalogChoice) (d : Disk) : Except CatalogFailure Catalog := do
  let catalog ← if choice.builtin then Catalog.builtin choice.selector else .ok Catalog.empty
  match choice.file with
  | none => return catalog
  | some p => return catalog.merged (← choice.custom d p)

end CatalogChoice

end ScriptAudit
