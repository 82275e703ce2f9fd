import ScriptAudit.Pattern.FlagSet
import ScriptAudit.Pattern.Grammar

namespace ScriptAudit

namespace Pattern

/-- An expression written between slashes, with flags after it. -/
structure SlashLiteral where
  body : List Char
  flags : List Char
  deriving DecidableEq, Repr

namespace SlashLiteral

/-- Reads a text from its end: perhaps a newline, letters, a slash, the body. -/
def ofReversed? (reversed : List Char) : Option SlashLiteral :=
  let reversed := match reversed with
    | '\n' :: rest => rest
    | _ => reversed
  match reversed.dropWhile Char.isAlpha with
  | '/' :: c :: body => some ⟨(c :: body).reverse, (reversed.takeWhile Char.isAlpha).reverse⟩
  | _ => none

def ofList? : List Char → Option SlashLiteral
  | '/' :: rest => ofReversed? rest.reverse
  | _ => none

end SlashLiteral

end Pattern

/-- A regular expression with its modes. The expression is the one that the source stands for. -/
structure Pattern where
  source : String
  modes : Pattern.Modes
  program : Pattern.Program
  compiled : Pattern.compile source modes = .ok program

namespace Pattern

/-- What is wrong with a text that is to be a pattern. -/
inductive Problem where
  | empty
  | unsupportedFlags (flags : String)
  | malformed (text source : String) (fault : Fault)
  deriving DecidableEq, Repr

def Problem.message : Problem → String
  | empty => "pattern must be a non-empty string"
  | unsupportedFlags flags => s!"unsupported pattern flag(s): {flags}"
  | malformed text source fault => s!"invalid pattern {Text.quoted text}: {fault.message source}"

/-- What breaks the reading of a pattern off without a verdict on its text. -/
inductive Breakdown where
  | misuse (misuse : FlagsMisuse)
  | countTooLarge
  | longCount (digits : Nat)
  | codeTooLarge
  | asciiAndUnicode
  | tooDeep
  deriving DecidableEq, Repr

/-- The kind of failure that a breakdown is told as. -/
def Breakdown.kind : Breakdown → String
  | misuse _ => "TypeError"
  | countTooLarge | codeTooLarge => "OverflowError"
  | longCount _ | asciiAndUnicode => "ValueError"
  | tooDeep => "RecursionError"

def Breakdown.message : Breakdown → String
  | misuse m => m.message
  | countTooLarge => "the repetition number is too large"
  | longCount digits => Decimal.tooLong digits
  | codeTooLarge => "Python int too large to convert to C int"
  | asciiAndUnicode => "ASCII and UNICODE flags are incompatible"
  | tooDeep => "maximum recursion depth exceeded"

inductive Refusal where
  | problem (problem : Problem)
  | breakdown (breakdown : Breakdown)
  deriving DecidableEq, Repr

def Refusal.ofRejection (text source : String) : Rejection → Refusal
  | .fault fault => .problem (.malformed text source fault)
  | .countTooLarge => .breakdown .countTooLarge
  | .longCount digits => .breakdown (.longCount digits)
  | .codeTooLarge => .breakdown .codeTooLarge
  | .asciiAndUnicode => .breakdown .asciiAndUnicode
  | .tooDeep => .breakdown .tooDeep

/-- Source and modes determine a pattern. -/
theorem eq_of_source {p q : Pattern} (source : p.source = q.source) (modes : p.modes = q.modes) : p = q := by
  obtain ⟨s, m, e, h⟩ := p
  obtain ⟨s', m', e', h'⟩ := q
  cases source
  cases modes
  cases h.symm.trans h'
  rfl

instance : DecidableEq Pattern := fun p q =>
  if h : p.source = q.source ∧ p.modes = q.modes then isTrue (eq_of_source h.1 h.2)
  else isFalse fun e => h (e ▸ ⟨rfl, rfl⟩)

def ofSource (source : String) (modes : Modes) : Except Rejection Pattern :=
  match h : compile source modes with
  | .ok program => .ok ⟨source, modes, program, h⟩
  | .error e => .error e

def Modes.ofFlags (flags : List String) : Modes :=
  ⟨flags.contains "i", flags.contains "m", flags.contains "s"⟩

/-- A pattern from a plain expression or one between slashes, with further flags. -/
def ofText (text : String) (flags : Value) : Except Refusal Pattern :=
  if text.isEmpty then .error (.problem .empty)
  else
    let literal := SlashLiteral.ofList? text.toList
    let source := (literal.map fun l => String.ofList l.body).getD text
    match flagItems flags (literal.map (·.flags)) with
    | .error misuse => .error (.breakdown (.misuse misuse))
    | .ok items =>
      match checkFlags items with
      | .error misuse => .error (.breakdown (.misuse misuse))
      | .ok (.unknown flags) => .error (.problem (.unsupportedFlags flags))
      | .ok (.known flags) => (ofSource source (.ofFlags flags)).mapError (.ofRejection text source)

/-- A pattern from a value, which has to be a text. -/
def ofValue (v flags : Value) : Except Refusal Pattern :=
  match v with
  | .text s => ofText s flags
  | _ => .error (.problem .empty)

/-- The pattern between slashes, with the letters of its modes. -/
def toText (p : Pattern) : String := s!"/{p.source}/{p.modes.letters}"

end Pattern

end ScriptAudit
