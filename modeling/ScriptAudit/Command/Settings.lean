import ScriptAudit.Audit.Survey
import ScriptAudit.Catalog.Load
import ScriptAudit.Command.Words
import ScriptAudit.Decimal.Numeral

namespace ScriptAudit.Command

/-- The settings that the audits of a file and of a tree share. -/
structure AuditSettings where
  path : Path := .ofText "."
  rules : CatalogChoice := { selector := some "all" }
  out : Option Path := none
  failOn : Option Severity := some .critical
  maxMatches : Option Int := none
  ruleTimeout : Option Float := none
  maxShown : Int := 20
  maxFileSize : Int := Session.standardFileSize
  verbose : Bool := false

structure TreeSettings where
  audit : AuditSettings := {}
  workers : Int := Survey.standardWorkers
  includes : String := ",".intercalate Survey.standardIncludes
  excludes : String := ",".intercalate Survey.standardExcludes
  noProgress : Bool := false

structure ListSettings where
  rules : CatalogChoice := { selector := some "all" }
  json : Bool := false

/-- What the program is asked to do. -/
inductive Task where
  | tree (settings : TreeSettings)
  | file (settings : AuditSettings)
  | list (settings : ListSettings)

/-- A value that has to be a whole number. -/
def integer {σ : Type} (set : Int → σ → σ) (word : String) (s : σ) : Except String σ :=
  match Decimal.integer? word with
  | some n => .ok (set n s)
  | none => .error s!"invalid int value: {Text.quoted word}"

def real {σ : Type} (set : Float → σ → σ) (word : String) (s : σ) : Except String σ :=
  match Decimal.real? word with
  | some x => .ok (set x s)
  | none => .error s!"invalid float value: {Text.quoted word}"

def anyText {σ : Type} (set : String → σ → σ) (word : String) (s : σ) : Except String σ := .ok (set word s)

def invalidChoice (word : String) (choices : List String) : String :=
  let listed := ", ".intercalate (choices.map Text.quoted)
  s!"invalid choice: {Text.quoted word} (choose from {listed})"

/-- Names of thresholds; the last stands for none. -/
def thresholds : List String := Severity.all.map (·.name) ++ ["none"]

def threshold {σ : Type} (set : Option Severity → σ → σ) (word : String) (s : σ) : Except String σ :=
  if thresholds.contains word then .ok (set (Severity.ofName? word) s) else .error (invalidChoice word thresholds)

def helpSwitch (σ : Type) : Switch σ := ⟨["-h", "--help"], .help⟩

def rulesSwitches {σ : Type} (update : (CatalogChoice → CatalogChoice) → σ → σ) : List (Switch σ) :=
  [⟨["--category"], .value (anyText fun s => update ({ · with selector := some s }))⟩,
   ⟨["--rules"], .value (anyText fun s => update ({ · with file := some (.ofText s) }))⟩,
   ⟨["--no-builtin"], .flag (update ({ · with builtin := false }))⟩]

def auditSwitches {σ : Type} (update : (AuditSettings → AuditSettings) → σ → σ) : List (Switch σ) :=
  rulesSwitches (fun f => update fun a => { a with rules := f a.rules }) ++
  [⟨["--out"], .value (anyText fun s => update ({ · with out := some (.ofText s) }))⟩,
   ⟨["--fail-on"], .value (threshold fun t => update ({ · with failOn := t }))⟩,
   ⟨["--max-matches"], .value (integer fun n => update ({ · with maxMatches := some n }))⟩,
   ⟨["--rule-timeout"], .value (real fun x => update ({ · with ruleTimeout := some x }))⟩,
   ⟨["--max-shown"], .value (integer fun n => update ({ · with maxShown := n }))⟩,
   ⟨["--max-file-size"], .value (integer fun n => update ({ · with maxFileSize := n }))⟩,
   ⟨["--verbose"], .flag (update ({ · with verbose := true }))⟩]

/-- The name of the program in its messages. -/
def program : String := "scriptscan"

def treeGrammar : Grammar TreeSettings where
  program := program ++ " dir"
  switches := helpSwitch _ :: auditSwitches (fun f t => { t with audit := f t.audit }) ++
    [⟨["--workers"], .value (integer fun n t => { t with workers := n })⟩,
     ⟨["--include"], .value (anyText fun s t => { t with includes := s })⟩,
     ⟨["--exclude"], .value (anyText fun s t => { t with excludes := s })⟩,
     ⟨["--no-progress"], .flag fun t => { t with noProgress := true }⟩]
  operand := some (.word "path" fun s t => { t with audit := { t.audit with path := .ofText s } })

def fileGrammar : Grammar AuditSettings where
  program := program ++ " file"
  switches := helpSwitch _ :: auditSwitches fun f a => f a
  operand := some (.word "path" fun s a => { a with path := .ofText s })

def listGrammar : Grammar ListSettings where
  program := program ++ " rules"
  switches := helpSwitch _ :: rulesSwitches (fun f l => { l with rules := f l.rules }) ++
    [⟨["--json"], .flag fun l => { l with json := true }⟩]
  operand := none

def modes : List String := ["dir", "file", "rules"]

/-- The task that a mode and its words stand for. -/
def modeTask (words : List String) : Except Halt (Option Task × List String) :=
  let mode := words.headD ""
  let rest := words.drop 1
  if mode = "dir" then (treeGrammar.read {} rest).map fun (s, extras) => (some (.tree s), extras)
  else if mode = "file" then (fileGrammar.read {} rest).map fun (s, extras) => (some (.file s), extras)
  else if mode = "rules" then (listGrammar.read {} rest).map fun (s, extras) => (some (.list s), extras)
  else
    let reason := invalidChoice mode modes
    .error (.usage program s!"argument mode: {reason}")

def grammar : Grammar (Option Task) where
  program := program
  switches := [helpSwitch _]
  operand := some (.rest "mode" fun words _ => modeTask words)

/-- The task that the words of a command line stand for. -/
def read (words : List String) : Except Halt Task := do
  match ← grammar.read none words with
  | (some task, []) => return task
  | (none, []) => throw (.help grammar.hint)
  | (_, extras) =>
    let listed := " ".intercalate extras
    throw (.usage program s!"unrecognized arguments: {listed}")

end ScriptAudit.Command
