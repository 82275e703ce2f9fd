import ScriptAudit.Report.Finding

namespace ScriptAudit

/-- A rule that was given up on a text. -/
structure SkippedRule where
  category : String
  title : String
  reason : String
  file : Option String
  deriving DecidableEq, Repr

/-- Counts under names, in the order in which they are printed. -/
abbrev Counts := List (String × Int)

def Counts.get (counts : Counts) (name : String) : Int := (counts.lookup name).getD 0

/-- The outcome of one or more audits. -/
structure Report where
  findings : List Finding := []
  summary : Counts := Finding.summary []
  byCategory : Counts := []
  rulesSkipped : Int := 0
  skipped : List SkippedRule := []
  file : Option String := none
  filesScanned : Int := 1
  deriving DecidableEq

instance : Inhabited Report := ⟨{}⟩

namespace Report

def total (r : Report) : Nat := r.findings.length

/-- The highest severity that the summary counts. -/
def highest (r : Report) : Option Severity :=
  Severity.all.reverse.find? fun s => r.summary.get s.name ≠ 0

/-- Reports as one: findings are ranked anew, and those of different reports are never taken for one. -/
def join (reports : List Report) : Report :=
  let findings := Finding.ranked (reports.flatMap (·.findings))
  { findings
    summary := Finding.summary findings
    byCategory := Finding.byCategory findings
    rulesSkipped := (reports.map (·.rulesSkipped)).foldr (· + ·) 0
    skipped := reports.flatMap (·.skipped)
    file := none
    filesScanned := (reports.map (·.filesScanned)).foldr (· + ·) 0 }

/-- 1 if a finding reaches the threshold, else 0. -/
def exitCode (r : Report) (threshold : Option Severity) : Nat :=
  match threshold with
  | none => 0
  | some s => if r.findings.any fun f => s.rank ≤ f.severity.rank then 1 else 0

end Report

end ScriptAudit
