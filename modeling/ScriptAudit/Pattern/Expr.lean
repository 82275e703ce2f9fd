import ScriptAudit.Text.Basic
import ScriptAudit.Text.Case
import ScriptAudit.Text.Word

namespace ScriptAudit.Pattern

/-- How letters are compared. -/
inductive Folding where
  | exact
  | ascii
  | unicode
  deriving DecidableEq, Repr

def Folding.lower : Folding → Nat → Nat
  | .exact, code => code
  | .ascii, code => Text.lowerAscii code
  | .unicode, code => Text.lowerCode code

/-- The code points that count as the same letter. -/
def Folding.variants : Folding → Nat → List Nat
  | .exact, code => [code]
  | .ascii, code => Text.asciiVariants code
  | .unicode, code => Text.variants code

inductive CharClass where
  | digit
  | blank
  | word
  deriving DecidableEq, Repr

def CharClass.contains (ascii : Bool) : CharClass → Char → Bool
  | .digit, c => if ascii then c.isDigit else Text.isDigit c
  | .blank, c => if ascii then Text.isAsciiBlank c else Text.isBlank c
  | .word, c => if ascii then Text.isAsciiWord c else Text.isWord c

/-- A member of a bracketed set. Code points are numbers, since an escape may name one that no text holds. -/
inductive SetItem where
  | code (code : Nat)
  | range (low high : Nat)
  | cls (kind : CharClass) (ascii negated : Bool)
  deriving DecidableEq, Repr

/-- Letters are tried in all their forms, classes on the lower-case form. -/
def SetItem.accepts (folding : Folding) (c : Char) : SetItem → Bool
  | .code n => (folding.variants c.toNat).contains n
  | .range low high => (folding.variants c.toNat).any fun v => low ≤ v && v ≤ high
  | .cls kind ascii negated => kind.contains ascii (Char.ofNat (folding.lower c.toNat)) != negated

/-- What one character has to be. -/
inductive CharTest where
  | any (newline : Bool)
  | code (folding : Folding) (code : Nat)
  | set (folding : Folding) (negated : Bool) (items : List SetItem)
  deriving DecidableEq, Repr

def CharTest.accepts : CharTest → Char → Bool
  | .any newline, c => newline || c != '\n'
  | .code folding n, c => (SetItem.code n).accepts folding c
  | .set folding negated items, c => items.any (·.accepts folding c) != negated

/-- A place in the text that takes up no character. -/
inductive Anchor where
  | textStart
  | lineStart
  | textEnd
  | lineEnd
  | lastLineEnd
  | wordEdge (ascii : Bool)
  | noWordEdge (ascii : Bool)
  deriving DecidableEq, Repr

inductive Greed where
  | greedy
  | lazy
  | possessive
  deriving DecidableEq, Repr

/-- Expressions, in the order of preference in which they match. -/
inductive Expr where
  | empty
  | char (test : CharTest)
  | anchor (place : Anchor)
  | seq (first second : Expr)
  | either (first second : Expr)
  /-- A stretch of characters that pass one test. -/
  | run (greed : Greed) (least : Nat) (most : Option Nat) (test : CharTest)
  | repeated (greed : Greed) (least : Nat) (most : Option Nat) (body : Expr)
  | group (index : Nat) (body : Expr)
  | atomic (body : Expr)
  /-- What follows, or with a width what stands that far behind. -/
  | look (behind : Option Nat) (positive : Bool) (body : Expr)
  /-- The text of a group once more. -/
  | again (folding : Folding) (group : Nat)
  | branch (group : Nat) (matched unmatched : Expr)
  deriving DecidableEq, Repr

namespace Expr

def ofList : List Expr → Expr
  | [] => .empty
  | [e] => e
  | e :: rest => .seq e (ofList rest)

def alternatives : List Expr → Expr
  | [] => .empty
  | [e] => e
  | e :: rest => .either e (alternatives rest)

/-- The calls that the layout of an expression takes, one inside the other. All alternatives of a choice are laid out
from one call. -/
def height : Expr → Nat
  | empty | char _ | anchor _ | again _ _ => 0
  | run _ _ _ _ => 1
  | seq first second => max first.height second.height
  | either first (either second third) => max (first.height + 1) (either second third).height
  | either first second => max first.height second.height + 1
  | repeated _ _ _ body | group _ body | atomic body | look _ _ body => body.height + 1
  | branch _ matched unmatched => max matched.height unmatched.height + 1

def repeating (greed : Greed) (least : Nat) (most : Option Nat) : Expr → Expr
  | .char test => .run greed least most test
  | body => .repeated greed least most body

end Expr

end ScriptAudit.Pattern
