import ScriptAudit.Audit.Enumeration
import ScriptAudit.Catalog.Basic
import ScriptAudit.Report.Basic

namespace ScriptAudit

def OffsetError.failure (e : OffsetError) : Failure := ⟨"ValueError", e.message⟩

/-- A text to be audited, ready for searching and for locating. -/
structure Document where
  chars : Pattern.Subject
  lines : LineIndex
  file : Option String

namespace Document

def ofList (text : List Char) (file : Option String) : Document := ⟨text.toArray, .ofText text, file⟩

def slice (d : Document) (span : Pattern.Span) : String :=
  String.ofList (d.chars.extract span.start span.stop).toList

/-- The finding of a match, which has to begin within the text. -/
def finding (d : Document) (category : String) (rule : Rule) (span : Pattern.Span) : Except Failure Finding :=
  match d.lines.resolve span.start with
  | .ok location => .ok ⟨category, rule, location, d.slice span, d.file⟩
  | .error e => .error e.failure

/-- The findings of a rule, or why it is given up. A match is placed when it is handed out, before the search goes
on. -/
def findings (d : Document) (category : String) (rule : Rule) (e : Enumeration) : Except Failure (List Finding) :=
  match e.spans.mapM (d.finding category rule), e.failure with
  | .error failure, _ => .error failure
  | .ok _, some failure => .error failure
  | .ok findings, none => .ok findings

end Document

/-- What an audit has gathered after some rules. -/
structure Gathering where
  findings : List Finding
  skipped : List SkippedRule
  clock : Clock

namespace Gathering

/-- Runs one rule. A rule that is given up adds none of its findings; only a failure that stops all work goes further
than the rule. -/
def add (d : Document) (budget : Budget) (g : Gathering) (entry : String × Rule) : Except Failure Gathering :=
  let (category, rule) := entry
  let e := rule.enumerate budget none d.chars g.clock
  match d.findings category rule e with
  | .ok findings => .ok { g with findings := g.findings ++ findings, clock := e.clock }
  | .error failure =>
    if failure.stops then .error failure
    else .ok { g with skipped := g.skipped ++ [⟨category, rule.title, failure.reason, d.file⟩], clock := e.clock }

def report (g : Gathering) (file : Option String) : Report :=
  let findings := Finding.ranked (Finding.firsts g.findings)
  { findings
    summary := Finding.summary findings
    byCategory := Finding.byCategory findings
    rulesSkipped := g.skipped.length
    skipped := g.skipped
    file }

end Gathering

/-- Runs the rules of a catalog in order over a text. An empty text has no findings, and no rule is run on it. -/
def Catalog.gather (c : Catalog) (d : Document) (budget : Budget) (clock : Clock) : Except Failure Gathering :=
  if d.chars.isEmpty then .ok ⟨[], [], clock⟩
  else c.entries.foldlM (Gathering.add d budget) ⟨[], [], clock⟩

/-- The report of a text, and the clock after it. -/
def Catalog.audit (c : Catalog) (text : List Char) (file : Option String) (budget : Budget) (clock : Clock) :
    Except Failure (Report × Clock) := do
  let g ← c.gather (.ofList text file) budget clock
  return (g.report file, g.clock)

end ScriptAudit
