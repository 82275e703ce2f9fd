import ScriptAudit.Json.Printer
import ScriptAudit.Report.Basic

namespace ScriptAudit

def Value.ofOption : Option String → Value
  | some s => .text s
  | none => .null

def Finding.toValue (f : Finding) : Value :=
  .record [("file_location", .ofOption f.file), ("line_num", .int f.location.line),
    ("column", .int f.location.column), ("category", .text f.category), ("title", .text f.rule.title),
    ("description", .text f.rule.description), ("severity", .text f.severity.name),
    ("suggestion", .text f.rule.suggestion), ("matched_text", .text f.matchedText)]

def SkippedRule.toValue (s : SkippedRule) : Value :=
  .record [("category", .text s.category), ("title", .text s.title), ("reason", .text s.reason),
    ("file_location", .ofOption s.file)]

def Counts.toValue (counts : Counts) : Value := .record (counts.map fun (name, count) => (name, .int count))

/-- The report as data. -/
def Report.toValue (r : Report) : Value :=
  .record [("file_location", .ofOption r.file), ("files_scanned", .int r.filesScanned),
    ("total_count", .int r.total), ("summary", r.summary.toValue), ("by_category", r.byCategory.toValue),
    ("rules_skipped", .int r.rulesSkipped), ("skipped", .list (r.skipped.map (·.toValue))),
    ("findings", .list (r.findings.map (·.toValue)))]

namespace Report

def findingLines (f : Finding) : List String :=
  let file := match f.file with
    | some file => if file.isEmpty then [] else [s!"  **file**: {file}  "]
    | none => []
  [s!"- **severity**: {f.severity.name}  "] ++ file ++
    [s!"  **line**: {f.location.line}  ",
     s!"  **column**: {f.location.column}  ",
     s!"  **category**: {f.category}  ",
     s!"  **title**: {f.rule.title}  ",
     s!"  **description**: {f.rule.description}  ",
     s!"  **match**: `{Text.trim f.matchedText}`  ",
     s!"  **suggestion**: {f.rule.suggestion}  ",
     ""]

def skippedLine (s : SkippedRule) : String :=
  let place := match s.file with
    | some file => if file.isEmpty then "" else s!" ({file})"
    | none => ""
  s!"- {s.category}/{s.title}{place}: {s.reason}"

/-- All findings and the rules that were given up. -/
def findingsMarkdown (r : Report) : String :=
  let skips := if r.skipped.isEmpty then [] else ["## Skipped rules", ""] ++ r.skipped.map skippedLine ++ [""]
  "\n".intercalate (["# Findings", ""] ++ r.findings.flatMap findingLines ++ skips)

def countLines (counts : Counts) : List String := counts.map fun (name, count) => s!"- {name}: {count}"

/-- The counts of a report. -/
def summaryMarkdown (r : Report) : String :=
  "\n".intercalate (["# Scan Summary", "",
    s!"- files scanned: {r.filesScanned}",
    s!"- findings: {r.total}",
    s!"- rules skipped: {r.rulesSkipped}", "",
    "## By severity"] ++ countLines r.summary ++ ["", "## By category"] ++ countLines r.byCategory ++ [""])

/-- The files that hold a report, by name. -/
def artifacts (r : Report) : List (String × String) :=
  [("report.json", Json.render r.toValue), ("report.md", r.findingsMarkdown), ("summary.md", r.summaryMarkdown)]

end Report

end ScriptAudit
