import ScriptAudit.Audit.Basic
import ScriptAudit.Files.Content
import ScriptAudit.Log

namespace ScriptAudit

/-- What audits of files work with. -/
structure Session where
  catalog : Catalog
  budget : Budget
  guess : Bytes → Guess
  maxFileSize : Int
  verbose : Bool

/-- What becomes of a file. -/
inductive FileOutcome where
  | audited (report : Report)
  | unreadable
  | failed (failure : Failure)

def FileOutcome.report? : FileOutcome → Option Report
  | .audited report => some report
  | _ => none

namespace Session

def standardFileSize : Int := 5000000

/-- The level from which on something is logged. -/
def level (s : Session) (base : Log.Level) : Log.Level := if s.verbose then .info else base

/-- Something that is logged only if much is to be told. -/
def remark (s : Session) (level : Log.Level) (logger message : String) : List Log.Record :=
  if s.verbose then [⟨level, logger, message⟩] else []

/-- Reads and audits a file under a name. -/
def auditFile (s : Session) (d : Disk) (logger : String) (p : Path) (name : String) (clock : Clock) :
    FileOutcome × List Log.Record × Clock :=
  match d.text s.guess readLimit p with
  | .error failure => (.failed failure, [], clock)
  | .ok none => (.unreadable, [⟨.warning, logger, s!"Skipping {name}: unreadable, binary or undecodable"⟩], clock)
  | .ok (some text) =>
    match s.catalog.audit text (some name) s.budget clock with
    | .error failure => (.failed failure, [], clock)
    | .ok (report, clock) =>
      (.audited report, report.skipped.map (Log.skippedRule (Log.child logger "engine")), clock)

def singleLogger : String := Log.child Log.base "singlefilescanner"

/-- Audits one file, unless it is too large. -/
def auditSingle (s : Session) (d : Disk) (p : Path) (clock : Clock) : Except Failure Report × List Log.Record :=
  let name := p.toText
  let opening := s.remark .info singleLogger s!"Processing {name}"
  let refuse (message : String) : Except Failure Report × List Log.Record :=
    (.ok (Report.join []), opening ++ [⟨.warning, singleLogger, message⟩])
  match d.size p with
  | .error e => refuse s!"Unable to stat {name}: {e.message p}"
  | .ok size =>
    if s.maxFileSize < size then
      refuse s!"Skipping {name}: {size} bytes exceeds the {s.maxFileSize} byte limit"
    else
      let (outcome, log, _) := s.auditFile d singleLogger p name clock
      match outcome with
      | .audited report => (.ok report, opening ++ log)
      | .unreadable => (.ok (Report.join []), opening ++ log)
      | .failed failure => (.error failure, opening ++ log)

end Session

end ScriptAudit
