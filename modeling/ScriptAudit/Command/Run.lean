import ScriptAudit.Command.Settings
import ScriptAudit.Report.Artifacts
import ScriptAudit.Report.Console

namespace ScriptAudit.Command

/-- Something told beside the output. -/
inductive Notice where
  | record (record : Log.Record)
  | line (text : String)
  deriving DecidableEq, Repr

/-- How a run ends. -/
inductive Ending where
  | exit (code : Nat)
  | usage (message : String)
  | broken (breakdown : Pattern.Breakdown)
  | refused (refusal : Disk.Refused)
  | failed (failure : Failure)
  deriving DecidableEq, Repr

/-- All that a run leaves behind. -/
structure Outcome where
  disk : Disk
  output : String := ""
  notices : List Notice := []
  progress : List ScriptAudit.Progress := []
  ending : Ending

/-- A run that ends with a line before it has begun. -/
def complain (d : Disk) (text : String) : Outcome := { disk := d, notices := [.line text], ending := .exit 2 }

/-- Loads the rules and goes on with them, if there are any. -/
def withRules (choice : CatalogChoice) (d : Disk) (next : Catalog → Outcome) : Outcome :=
  match choice.load d with
  | .error (.invalid e) => complain d s!"Invalid rule catalog: {e.message}"
  | .error (.broken b) => { disk := d, ending := .broken b }
  | .error (.nested problem) => { disk := d, ending := .failed ⟨"RecursionError", problem.text⟩ }
  | .ok catalog => if catalog.ruleCount = 0 then complain d "No rules selected. Exiting." else next catalog

/-- Writes files into a directory, one after the other. -/
def writeAll (dir : Path) : List (String × String) → Disk → Disk × Option Disk.Refused
  | [], d => (d, none)
  | (name, content) :: rest, d =>
    match d.write (dir.child name) (Utf8.encode content.toList) with
    | .ok d => writeAll dir rest d
    | .error e => (d, some e)

/-- Writes the files of a report, with the directory that holds them. -/
def save (r : Report) (dir : Path) (d : Disk) : Disk × Option Disk.Refused :=
  match d.makeDirs dir.root dir.parts.reverse with
  | (d, some e) => (d, some e)
  | (d, none) => writeAll dir r.artifacts d

/-- Shows a report and saves it if asked to. -/
def finish (s : AuditSettings) (d : Disk) (r : Report) (log : List Log.Record)
    (progress : List ScriptAudit.Progress) : Outcome :=
  let base : Outcome :=
    { disk := d
      output := r.console (some s.maxShown) ++ "\n"
      notices := (Log.above (Log.configured s.verbose) log).map .record
      progress
      ending := .exit (r.exitCode s.failOn) }
  match s.out with
  | none => base
  | some dir =>
    match save r dir d with
    | (d, none) => { base with disk := d }
    | (d, some e) => { base with disk := d, ending := .refused e }

def session (s : AuditSettings) (guess : Bytes → Guess) (catalog : Catalog) : Session :=
  { catalog
    budget := ⟨s.ruleTimeout, s.maxMatches⟩
    guess
    maxFileSize := s.maxFileSize
    verbose := s.verbose }

/-- A clock that stands still. -/
def still : Clock := .ofReadings []

/-- The survey that a tree is audited with. -/
def TreeSettings.survey (t : TreeSettings) (guess : Bytes → Guess) (catalog : Catalog) : Survey :=
  .of (session t.audit guess catalog) t.audit.path (Text.listed t.includes) (Text.listed t.excludes) (!t.noProgress)
    Survey.standardDescription

/-- Goes on if a path is what it has to be. -/
@[macro_inline]
def withTarget (d : Disk) (target : Except Disk.Refused Bool) (complaint : String) (next : Outcome) : Outcome :=
  match target with
  | .error e => { disk := d, ending := .refused e }
  | .ok false => complain d complaint
  | .ok true => next

def runTree (t : TreeSettings) (guess : Bytes → Guess) (d : Disk) : Outcome :=
  let s := t.audit
  withTarget d (d.isDir s.path) s!"Not a directory: {s.path.toText}" <| withRules s.rules d fun catalog =>
    let result := (t.survey guess catalog).run d ⟨still, still⟩
    match result.outcome with
    | .ok report => finish s d report result.log result.progress.toList
    | .error failure =>
      { disk := d, notices := result.log.map .record, progress := result.progress.toList, ending := .failed failure }

def runFile (s : AuditSettings) (guess : Bytes → Guess) (d : Disk) : Outcome :=
  withTarget d (d.isFile s.path) s!"Not a file: {s.path.toText}" <| withRules s.rules d fun catalog =>
    match (session s guess catalog).auditSingle d s.path still with
    | (.ok report, log) => finish s d report log []
    | (.error failure, log) => { disk := d, notices := log.map .record, ending := .failed failure }

def ruleLine (r : Rule) : String := s!"  [{r.severity.name}] {r.title}  {r.detector.pattern.toText}"

def listing (c : Catalog) : String :=
  String.join (c.categories.map fun category =>
    category.name ++ "\n" ++ String.join (category.rules.map fun r => ruleLine r ++ "\n"))

def runList (s : ListSettings) (d : Disk) : Outcome :=
  withRules s.rules d fun catalog =>
    { disk := d
      output := if s.json then Json.render catalog.toValue ++ "\n" else listing catalog
      ending := .exit 0 }

/-- Carries out a command line on a disk. -/
def run (words : List String) (guess : Bytes → Guess) (d : Disk) : Outcome :=
  match read words with
  | .error (.help text) => { disk := d, output := text ++ "\n", ending := .exit 0 }
  | .error (.usage program message) => { disk := d, ending := .usage (Halt.usage program message).message }
  | .ok (.tree settings) => runTree settings guess d
  | .ok (.file settings) => runFile settings guess d
  | .ok (.list settings) => runList settings d

end ScriptAudit.Command
