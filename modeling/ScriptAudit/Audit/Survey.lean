import ScriptAudit.Audit.Session
import ScriptAudit.Files.Glob

namespace ScriptAudit

/-- The audit of a tree of files. There is a pattern for names to look at. -/
structure Survey where
  session : Session
  root : Path
  includes : List String
  includes_ne_nil : includes ≠ []
  excludes : List String
  showProgress : Bool
  description : String

/-- What a progress bar has shown. -/
structure Progress where
  total : Nat
  description : String
  unit : String
  updates : Nat
  labels : List String
  closed : Bool
  deriving DecidableEq, Repr

namespace Survey

def standardIncludes : List String := ["*.lua"]

def standardExcludes : List String := [".git", ".venv", "node_modules", "venv", "__pycache__", "stream"]

def standardWorkers : Int := 8

def standardDescription : String := "Scanning files"

/-- The patterns for names to look at: the standard ones if none are given. -/
def patterns (includes : List String) : List String := if includes.isEmpty then standardIncludes else includes

theorem patterns_ne_nil (includes : List String) : patterns includes ≠ [] := by
  unfold patterns
  split
  · decide
  next h => simpa using h

/-- A survey as it is asked for. -/
def of (session : Session) (root : Path) (includes excludes : List String) (showProgress : Bool)
    (description : String) : Survey :=
  ⟨session, root, patterns includes, patterns_ne_nil includes, excludes, showProgress, description⟩

/-- Work is shared among at least one worker. -/
def workerCount (workers : Int) : Int := max 1 workers

def logger : String := Log.child Log.base "directoryscanner"

/-- Whether the names of an entry are ones to look at. -/
def admits (s : Survey) (names : Place) : Bool :=
  !names.dropLast.any s.excludes.contains &&
    s.includes.any fun g => (Glob.ofText g).accepts (names.getLastD "").toList

/-- Whether an entry that is no directory is a file to audit, and what is to be said if it is not. -/
def judge (s : Survey) (d : Disk) (names : Place) : Option Path × List Log.Record :=
  let p := s.root.descendant names
  if !s.admits names then (none, [])
  else match d.size p with
    | .ok size =>
      if size ≤ s.session.maxFileSize then (some p, [])
      else (none, s.session.remark .info logger
        s!"Skipping {p.toText}: larger than {s.session.maxFileSize} bytes")
    | .error e => (none, s.session.remark .warning logger s!"Unable to stat {p.toText}: {e.message p}")

/-- Whether an entry is a file to audit. Whether it is a directory is asked first, which may be refused. -/
def examine (s : Survey) (d : Disk) (names : Place) : Except Disk.Refused (Option Path × List Log.Record) := do
  if ← d.isDir (s.root.descendant names) then return (none, []) else return s.judge d names

/-- The files that a search comes to, what it says of entries that it leaves out, and what it stops at if it does
not reach the end. -/
structure Selection where
  files : List Path
  log : List Log.Record
  refused : Option Disk.Refused

/-- Goes through entries one after the other, up to one that cannot be examined. -/
def select (s : Survey) (d : Disk) : List Place → Selection
  | [] => ⟨[], [], none⟩
  | names :: rest =>
    match s.examine d names with
    | .error e => ⟨[], [], some e⟩
    | .ok (file, log) =>
      let others := s.select d rest
      ⟨file.toList ++ others.files, log ++ others.log, others.refused⟩

/-- The entries below the root, in order of their names. -/
def entries (s : Survey) (d : Disk) : Except Disk.Refused (List Place) :=
  (d.walk s.root).map (·.mergeSort fun a b => !decide (b < a))

/-- Looks for files to audit below the root. -/
def selection (s : Survey) (d : Disk) : Selection :=
  match s.entries d with
  | .ok entries => s.select d entries
  | .error e => ⟨[], [], some e⟩

/-- The files to audit, in order, as far as they are found. -/
def files (s : Survey) (d : Disk) : List Path := (s.selection d).files

/-- What the search for files stops at. -/
def refused? (s : Survey) (d : Disk) : Option Disk.Refused := (s.selection d).refused

/-- What is said of entries that are left out. -/
def selectionLog (s : Survey) (d : Disk) : List Log.Record := (s.selection d).log

/-- The end of a name that is too long to show. -/
def label (name : String) : String :=
  if 60 < name.length then "..." ++ String.ofList (name.toList.drop (name.length - 57)) else name

/-- Seconds after which a file counts as slow. -/
def slow : Float := 2.0

/-- The two clocks of a survey: one for rules, one for files. -/
structure Clocks where
  rules : Clock
  files : Clock

/-- A file that has been worked on. -/
structure Task where
  path : Path
  outcome : FileOutcome
  log : List Log.Record

def slowLog (s : Survey) (name : String) (seconds : Float) : List Log.Record :=
  if seconds < slow then []
  else [⟨.debug, logger,
    s!"Slow scan for {name} took {Decimal.hundredths seconds}s (rules={s.session.catalog.ruleCount})"⟩]

/-- What is said of a file whose audit failed. -/
def failureLog (s : Survey) (p : Path) : FileOutcome → List Log.Record
  | .failed failure =>
    if failure.stops then []
    else if s.session.verbose then [⟨.error, logger, s!"Error scanning {p.toText}"⟩]
    else [⟨.warning, logger, s!"Error scanning {p.toText}: {failure.message}"⟩]
  | _ => []

def work (s : Survey) (d : Disk) (p : Path) (clocks : Clocks) : Task × Clocks :=
  let name := Path.display s.root p
  let opening := s.session.remark .info logger s!"Processing {name}"
  let (started, files) := clocks.files.read
  let (outcome, log, rules) := s.session.auditFile d logger p name clocks.rules
  let (ended, files) := files.read
  (⟨p, outcome, opening ++ log ++ s.slowLog name (ended - started) ++ s.failureLog p outcome⟩, ⟨rules, files⟩)

/-- Works on files one after the other, up to one that stops the survey. -/
def workAll (s : Survey) (d : Disk) : List Path → Clocks → List Task × Option Failure
  | [], _ => ([], none)
  | p :: rest, clocks =>
    let (task, clocks) := s.work d p clocks
    match task.outcome with
    | .failed failure =>
      if failure.stops then ([task], some failure)
      else
        let (tasks, stop) := s.workAll d rest clocks
        (task :: tasks, stop)
    | _ =>
      let (tasks, stop) := s.workAll d rest clocks
      (task :: tasks, stop)

/-- The reports of completed tasks as one, in the order of the files and not of their completion. -/
def collect (files : List Path) (completed : List (Path × FileOutcome)) : Report :=
  Report.join (files.filterMap fun p => (completed.lookup p).bind (·.report?))

/-- What a survey comes to. -/
structure Result where
  outcome : Except Failure Report
  log : List Log.Record
  progress : Option Progress

/-- Audits files, with what was said before that. -/
def runFiles (s : Survey) (d : Disk) (clocks : Clocks) (files : List Path) (before : List Log.Record) : Result :=
  let opening := before ++ s.session.remark .info logger s!"Discovered {files.length} file(s) to scan"
  if files.isEmpty then ⟨.ok (Report.join []), opening, none⟩
  else
    let (tasks, stop) := s.workAll d files clocks
    let log := opening ++ tasks.flatMap (·.log)
    let progress := if s.showProgress then
        some ⟨files.length, s.description, "file", tasks.length,
          tasks.map fun t => label (Path.display s.root t.path), true⟩
      else none
    match stop with
    | some failure =>
      let closing := if failure.interrupts then
          s.session.remark .info logger "Scan interrupted by user; shutting down workers"
        else []
      ⟨.error failure, log ++ closing, progress⟩
    | none => ⟨.ok (collect files (tasks.map fun t => (t.path, t.outcome))), log, progress⟩

/-- Nothing is audited unless the search for files reaches the end. -/
def run (s : Survey) (d : Disk) (clocks : Clocks) : Result :=
  match s.refused? d with
  | some refused => ⟨.error refused.failure, s.selectionLog d, none⟩
  | none => s.runFiles d clocks (s.files d) (s.selectionLog d)

end Survey

end ScriptAudit
