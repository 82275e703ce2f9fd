import ScriptAudit.Pattern.Expr

namespace ScriptAudit.Pattern

/-- The modes that a pattern as a whole can have. -/
structure Modes where
  ignoreCase : Bool := false
  multiline : Bool := false
  dotAll : Bool := false
  deriving DecidableEq, Repr

/-- The letters of the modes that are on. -/
def Modes.letters (m : Modes) : String :=
  (if m.ignoreCase then "i" else "") ++ (if m.multiline then "m" else "") ++ (if m.dotAll then "s" else "")

/-- The modes in force at one place of an expression. -/
structure LocalModes where
  ignoreCase : Bool
  multiline : Bool
  dotAll : Bool
  verbose : Bool
  ascii : Bool
  deriving DecidableEq, Repr

def Modes.toLocal (m : Modes) : LocalModes := ⟨m.ignoreCase, m.multiline, m.dotAll, false, false⟩

def LocalModes.folding (m : LocalModes) : Folding :=
  if m.ignoreCase then if m.ascii then .ascii else .unicode else .exact

/-- A letter that switches a mode inside an expression. -/
inductive Flag where
  | ignoreCase
  | locale
  | multiline
  | dotAll
  | verbose
  | ascii
  | template
  | unicode
  deriving DecidableEq, Repr

def Flag.ofChar? : Char → Option Flag
  | 'i' => some .ignoreCase
  | 'L' => some .locale
  | 'm' => some .multiline
  | 's' => some .dotAll
  | 'x' => some .verbose
  | 'a' => some .ascii
  | 't' => some .template
  | 'u' => some .unicode
  | _ => none

/-- The flags that choose what letters and digits are. -/
def Flag.isAlphabet : Flag → Bool
  | .ascii | .locale | .unicode => true
  | _ => false

def LocalModes.switch (value : Bool) (m : LocalModes) : Flag → LocalModes
  | .ignoreCase => { m with ignoreCase := value }
  | .multiline => { m with multiline := value }
  | .dotAll => { m with dotAll := value }
  | .verbose => { m with verbose := value }
  | .ascii => { m with ascii := value }
  | .unicode => { m with ascii := !value }
  | .locale | .template => m

def LocalModes.update (m : LocalModes) (on off : List Flag) : LocalModes :=
  off.foldl (switch false) (on.foldl (switch true) m)

end ScriptAudit.Pattern
