import ScriptAudit.Report.Basic

namespace ScriptAudit.Log

inductive Level where
  | debug
  | info
  | warning
  | error
  | critical
  deriving DecidableEq, Repr

namespace Level

def all : List Level := [.debug, .info, .warning, .error, .critical]

def name : Level → String
  | .debug => "DEBUG"
  | .info => "INFO"
  | .warning => "WARNING"
  | .error => "ERROR"
  | .critical => "CRITICAL"

def rank : Level → Nat
  | .debug => 10
  | .info => 20
  | .warning => 30
  | .error => 40
  | .critical => 50

def ofName? (s : String) : Option Level := all.find? (·.name == s)

end Level

/-- One message and who logs it. -/
structure Record where
  level : Level
  logger : String
  message : String
  deriving DecidableEq, Repr

/-- A record as a line, without the time that stands before it. -/
def Record.tail (r : Record) : String := s!"[{r.level.name}] {r.logger} - {r.message}"

/-- The level that is set for much or for little talk. -/
def configured (verbose : Bool) : Level := if verbose then .info else .warning

/-- The records at or above a level. -/
def above (level : Level) (records : List Record) : List Record :=
  records.filter fun r => level.rank ≤ r.level.rank

/-- The name of the program's logger. -/
def base : String := "scriptscan"

def child (logger name : String) : String := s!"{logger}.{name}"

def engine : String := child base "engine"

/-- What is logged of a rule that is given up. -/
def skippedRule (logger : String) (s : SkippedRule) : Record :=
  let place := match s.file with
    | some file => if file.isEmpty then "" else s!" on {file}"
    | none => ""
  ⟨.warning, logger, s!"Skipping rule {s.category}/{s.title}{place}: {s.reason}"⟩

end ScriptAudit.Log
