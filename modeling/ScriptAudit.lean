import ScriptAudit.Audit.Basic
import ScriptAudit.Audit.Budget
import ScriptAudit.Audit.Enumeration
import ScriptAudit.Audit.Session
import ScriptAudit.Audit.Survey
import ScriptAudit.Catalog.Basic
import ScriptAudit.Catalog.Entries
import ScriptAudit.Catalog.Error
import ScriptAudit.Catalog.Load
import ScriptAudit.Catalog.Pack
import ScriptAudit.Command.Run
import ScriptAudit.Command.Settings
import ScriptAudit.Command.Words
import ScriptAudit.Decimal.Binary64
import ScriptAudit.Decimal.Numeral
import ScriptAudit.Encoding.Basic
import ScriptAudit.Encoding.CodePage
import ScriptAudit.Encoding.Guess
import ScriptAudit.Encoding.Utf8
import ScriptAudit.Encoding.Wide
import ScriptAudit.Files.Content
import ScriptAudit.Files.Disk
import ScriptAudit.Files.Glob
import ScriptAudit.Files.Path
import ScriptAudit.Json.Printer
import ScriptAudit.Json.Problem
import ScriptAudit.Json.Reader
import ScriptAudit.Location
import ScriptAudit.Log
import ScriptAudit.Main
import ScriptAudit.Pattern.Basic
import ScriptAudit.Pattern.CharSet
import ScriptAudit.Pattern.Complaint
import ScriptAudit.Pattern.Escape
import ScriptAudit.Pattern.Expr
import ScriptAudit.Pattern.FlagSet
import ScriptAudit.Pattern.Grammar
import ScriptAudit.Pattern.InlineFlags
import ScriptAudit.Pattern.Match
import ScriptAudit.Pattern.Modes
import ScriptAudit.Pattern.OpenGroup
import ScriptAudit.Pattern.Token
import ScriptAudit.Proofs.Agreement
import ScriptAudit.Proofs.Alternations
import ScriptAudit.Proofs.Breakdowns
import ScriptAudit.Proofs.BudgetChecks
import ScriptAudit.Proofs.Builtin
import ScriptAudit.Proofs.CalmSources
import ScriptAudit.Proofs.Catalogs
import ScriptAudit.Proofs.CategoryOrder
import ScriptAudit.Proofs.Checks
import ScriptAudit.Proofs.Codes
import ScriptAudit.Proofs.CommandWords
import ScriptAudit.Proofs.Completion
import ScriptAudit.Proofs.Concatenation
import ScriptAudit.Proofs.Consistency
import ScriptAudit.Proofs.Decoding
import ScriptAudit.Proofs.Disclosure
import ScriptAudit.Proofs.Discovery
import ScriptAudit.Proofs.DynamicCalls
import ScriptAudit.Proofs.EndlessLoops
import ScriptAudit.Proofs.Enumeration
import ScriptAudit.Proofs.ExitPolicy
import ScriptAudit.Proofs.ExitStatus
import ScriptAudit.Proofs.Export
import ScriptAudit.Proofs.FileChoice
import ScriptAudit.Proofs.FirstFaults
import ScriptAudit.Proofs.Flags
import ScriptAudit.Proofs.Folding
import ScriptAudit.Proofs.Identifiers
import ScriptAudit.Proofs.Isolation
import ScriptAudit.Proofs.Joining
import ScriptAudit.Proofs.JsonDocuments
import ScriptAudit.Proofs.JsonStrings
import ScriptAudit.Proofs.Languages
import ScriptAudit.Proofs.Lines
import ScriptAudit.Proofs.Lists
import ScriptAudit.Proofs.LiteralForm
import ScriptAudit.Proofs.Lowering
import ScriptAudit.Proofs.MatchLimits
import ScriptAudit.Proofs.Matching
import ScriptAudit.Proofs.Merging
import ScriptAudit.Proofs.Narrowing
import ScriptAudit.Proofs.Places
import ScriptAudit.Proofs.Ranking
import ScriptAudit.Proofs.RoundTrip
import ScriptAudit.Proofs.SearchLoop
import ScriptAudit.Proofs.Selection
import ScriptAudit.Proofs.SelfSelection
import ScriptAudit.Proofs.Sessions
import ScriptAudit.Proofs.Sharding
import ScriptAudit.Proofs.SlashLiterals
import ScriptAudit.Proofs.Soundness
import ScriptAudit.Proofs.Spans
import ScriptAudit.Proofs.Trees
import ScriptAudit.Proofs.Utf8
import ScriptAudit.Proofs.Verdicts
import ScriptAudit.Proofs.WholeFiles
import ScriptAudit.Report.Artifacts
import ScriptAudit.Report.Basic
import ScriptAudit.Report.Console
import ScriptAudit.Report.Finding
import ScriptAudit.Rule.Basic
import ScriptAudit.Rule.Check
import ScriptAudit.Rule.Draft
import ScriptAudit.Severity
import ScriptAudit.Text.Basic
import ScriptAudit.Text.Case
import ScriptAudit.Text.Identifier
import ScriptAudit.Text.Letter
import ScriptAudit.Text.Quoted
import ScriptAudit.Text.Word
import ScriptAudit.Value
