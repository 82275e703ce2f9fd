import ScriptAudit.Report.Basic

namespace ScriptAudit.Report

def fillRight (width : Nat) (s : String) : String := s ++ "".pushn ' ' (width - s.length)

def fillLeft (width : Nat) (s : String) : String := "".pushn ' ' (width - s.length) ++ s

/-- The first `limit` members; a negative limit leaves out that many at the end. -/
def shown {α : Type} (items : List α) : Option Int → List α
  | none => items
  | some (.ofNat n) => items.take n
  | some (.negSucc n) => items.take (items.length - (n + 1))

/-- Line and column, after the file if there is one. -/
def place (f : Finding) : String :=
  let spot := s!"{f.location.line}:{f.location.column}"
  match f.file with
  | some file => if file.isEmpty then spot else s!"{file}:{spot}"
  | none => spot

def tableHead : String := fillRight 10 "Severity" ++ " | " ++ fillLeft 5 "Count"

def rule (c : Char) (width : Nat) : String := "".pushn c width

def entryLines (f : Finding) : List String :=
  [s!"[{f.severity.banner}] {place f} {f.rule.title} ({f.category})",
   s!"  {f.rule.description}: `{Text.trim f.matchedText}`"]

/-- The count of findings that are not shown, if there are any beside some that are. -/
def hiddenLine (total visible : Nat) : List String :=
  if visible < total then [s!"... {total - visible} more finding(s), see report.md"] else []

/-- The lines of the console text. -/
def consoleLines (r : Report) (limit : Option Int) : List String :=
  let visible := shown r.findings limit
  let skips := if r.rulesSkipped = 0 then [] else [s!"Skipped   : {r.rulesSkipped} rule evaluation(s)"]
  let entries :=
    if visible.isEmpty then []
    else "" :: visible.flatMap entryLines ++ hiddenLine r.total visible.length
  ["Scan Summary", rule '=' 40, tableHead, rule '-' tableHead.length] ++
    r.summary.map (fun (name, count) => fillRight 10 name ++ " | " ++ fillLeft 5 (toString count)) ++
    [rule '-' tableHead.length, s!"Files     : {r.filesScanned}", s!"Findings  : {r.total}"] ++ skips ++ entries

def console (r : Report) (limit : Option Int) : String := "\n".intercalate (consoleLines r limit)

end ScriptAudit.Report
