import ScriptAudit.Text.Basic
import ScriptAudit.Text.Quoted

namespace ScriptAudit.Pattern

/-- What is wrong with an expression. -/
inductive Complaint where
  | unclosedGroup
  | unbalancedParenthesis
  | unclosedSet
  | unclosedComment
  | nothingToRepeat
  | repeatedTwice
  | leastAboveMost
  | reversedRange (low high : String)
  | endsInBackslash
  | unknownEscape (escape : String)
  | shortEscape (escape : String)
  | largeOctal (escape : String)
  | missingBrace
  | missingName (what : String)
  | unclosedName (terminator : String)
  | unknownCharacter (name : String)
  | badName (name : String)
  | unknownName (name : String)
  | takenName (name : String) (index earlier : Nat)
  | unknownGroup (index : Nat)
  | openGroup
  | groupOfLookBehind
  | groupZero
  | unknownExtension (text : String)
  | endsInGroupHead
  | thirdBranch
  | lateFlags
  | unfinishedFlags
  | missingFlag
  | missingColon
  | unknownFlag
  | localeFlag
  | mixedFlags
  | flagOnAndOff
  | fixedFlag
  | globalFlagOn
  | globalFlagOff
  | lookBehindWidth
  | lookBehindTooFar
  | repetitionInTemplate (operator : String)
  deriving DecidableEq, Repr

def Complaint.text : Complaint → String
  | unclosedGroup => "missing ), unterminated subpattern"
  | unbalancedParenthesis => "unbalanced parenthesis"
  | unclosedSet => "unterminated character set"
  | unclosedComment => "missing ), unterminated comment"
  | nothingToRepeat => "nothing to repeat"
  | repeatedTwice => "multiple repeat"
  | leastAboveMost => "min repeat greater than max repeat"
  | reversedRange low high => s!"bad character range {low}-{high}"
  | endsInBackslash => "bad escape (end of pattern)"
  | unknownEscape escape => s!"bad escape {escape}"
  | shortEscape escape => s!"incomplete escape {escape}"
  | largeOctal escape => s!"octal escape value {escape} outside of range 0-0o377"
  | missingBrace => "missing \x7b"
  | missingName what => s!"missing {what}"
  | unclosedName terminator => s!"missing {terminator}, unterminated name"
  | unknownCharacter name => s!"undefined character name {Text.quoted name}"
  | badName name => s!"bad character in group name {Text.quoted name}"
  | unknownName name => s!"unknown group name {Text.quoted name}"
  | takenName name index earlier =>
    s!"redefinition of group name {Text.quoted name} as group {index}; was group {earlier}"
  | unknownGroup index => s!"invalid group reference {index}"
  | openGroup => "cannot refer to an open group"
  | groupOfLookBehind => "cannot refer to group defined in the same lookbehind subpattern"
  | groupZero => "bad group number"
  | unknownExtension text => s!"unknown extension {text}"
  | endsInGroupHead => "unexpected end of pattern"
  | thirdBranch => "conditional backref with more than two branches"
  | lateFlags => "global flags not at the start of the expression"
  | unfinishedFlags => "missing -, : or )"
  | missingFlag => "missing flag"
  | missingColon => "missing :"
  | unknownFlag => "unknown flag"
  | localeFlag => "bad inline flags: cannot use 'L' flag with a str pattern"
  | mixedFlags => "bad inline flags: flags 'a', 'u' and 'L' are incompatible"
  | flagOnAndOff => "bad inline flags: flag turned on and off"
  | fixedFlag => "bad inline flags: cannot turn off flags 'a', 'u' and 'L'"
  | globalFlagOn => "bad inline flags: cannot turn on global flag"
  | globalFlagOff => "bad inline flags: cannot turn off global flag"
  | lookBehindWidth => "look-behind requires fixed-width pattern"
  | lookBehindTooFar => "looks too much behind"
  | repetitionInTemplate operator => s!"internal: unsupported template operator {operator}"

/-- A complaint and the offset it is about, if it is about one place. -/
structure Fault where
  complaint : Complaint
  position : Option Nat
  deriving DecidableEq, Repr

/-- The complaint with its place; line and column are given for expressions of several lines. -/
def Fault.message (source : String) (fault : Fault) : String :=
  match fault.position with
  | none => fault.complaint.text
  | some position =>
    let place := s!"{fault.complaint.text} at position {position}"
    if source.toList.contains '\n' then
      let (line, column) := Text.lineAndColumn source.toList position
      s!"{place} (line {line}, column {column})"
    else place

/-- Why an expression cannot be used. -/
inductive Rejection where
  | fault (fault : Fault)
  | countTooLarge
  | longCount (digits : Nat)
  | codeTooLarge
  | asciiAndUnicode
  | tooDeep
  deriving DecidableEq, Repr

end ScriptAudit.Pattern
