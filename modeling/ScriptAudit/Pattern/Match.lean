import ScriptAudit.Pattern.Expr

namespace ScriptAudit.Pattern

/-- Where a group was last opened and closed. -/
structure Mark where
  opened : Option Nat
  closed : Option Nat
  deriving DecidableEq, Repr

structure State where
  pos : Nat
  marks : List Mark
  deriving DecidableEq, Repr

namespace State

def start (groups pos : Nat) : State := ⟨pos, List.replicate groups ⟨none, none⟩⟩

def advance (s : State) (n : Nat) : State := { s with pos := s.pos + n }

def openGroup (s : State) (index : Nat) : State :=
  { s with marks := s.marks.modify index fun m => { m with opened := some s.pos } }

def closeGroup (s : State) (index : Nat) : State :=
  { s with marks := s.marks.modify index fun m => { m with closed := some s.pos } }

/-- The span of a group that has been opened and then closed. -/
def group? (s : State) (index : Nat) : Option (Nat × Nat) :=
  match s.marks[index]? with
  | some ⟨some opened, some closed⟩ => if opened ≤ closed then some (opened, closed) else none
  | _ => none

end State

/-- The text that is searched. -/
abbrev Subject := Array Char

def isWordAt (text : Subject) (ascii : Bool) (pos : Nat) : Bool :=
  match text[pos]? with
  | some c => CharClass.word.contains ascii c
  | none => false

/-- Whether exactly one neighbour of a place is a word character. -/
def isWordEdge (text : Subject) (ascii : Bool) (pos : Nat) : Bool :=
  (pos != 0 && isWordAt text ascii (pos - 1)) != isWordAt text ascii pos

def Anchor.holds (text : Subject) (pos : Nat) : Anchor → Bool
  | .textStart => pos == 0
  | .lineStart => pos == 0 || text[pos - 1]? == some '\n'
  | .textEnd => pos == text.size
  | .lineEnd => pos == text.size || text[pos]? == some '\n'
  | .lastLineEnd => pos == text.size || (pos + 1 == text.size && text[pos]? == some '\n')
  | .wordEdge ascii => isWordEdge text ascii pos
  | .noWordEdge ascii => text.size != 0 && !isWordEdge text ascii pos

/-- `count`, and one for each character from `pos` on that passes the test, up to `limit` of them. -/
def runLength (text : Subject) (test : CharTest) (pos count : Nat) : Nat → Nat
  | 0 => count
  | limit + 1 =>
    match text[pos]? with
    | some c => if test.accepts c then runLength text test (pos + 1) (count + 1) limit else count
    | none => count

/-- Whether the text at `pos` repeats the text at `source`, up to the folding. -/
def repeatsAt (text : Subject) (folding : Folding) (source pos : Nat) : Nat → Bool
  | 0 => true
  | length + 1 =>
    match text[source]?, text[pos]? with
    | some a, some b =>
      folding.lower a.toNat == folding.lower b.toNat &&
        repeatsAt text folding (source + 1) (pos + 1) length
    | _, _ => false

/-- What comes after an expression: the end of the whole match from a state, if there is one. -/
abbrev Continuation := State → Option State

/-- Tries `base + extra`, …, `base + 1`, `base` in this order. -/
def descend (attempt : Nat → Option State) (base : Nat) : Nat → Option State
  | 0 => attempt base
  | extra + 1 =>
    match attempt (base + (extra + 1)) with
    | some s => some s
    | none => descend attempt base extra

/-- Tries `base`, `base + 1`, …, `base + extra` in this order. -/
def ascend (attempt : Nat → Option State) (base : Nat) : Nat → Option State
  | 0 => attempt base
  | extra + 1 =>
    match attempt base with
    | some s => some s
    | none => ascend attempt (base + 1) extra

def times (step : State → Continuation → Option State) : Nat → State → Continuation → Option State
  | 0, s, k => k s
  | n + 1, s, k => step s fun t => times step n t k

/-- At most `n` further rounds, preferring more of them. A round that ended where it began is the last. -/
def moreRounds (step : State → Continuation → Option State) :
    Nat → Option Nat → State → Continuation → Option State
  | 0, _, s, k => k s
  | n + 1, last, s, k =>
    if last = some s.pos then k s
    else match step s fun t => moreRounds step n (some s.pos) t k with
      | some t => some t
      | none => k s

/-- At most `n` further rounds, preferring fewer of them. -/
def fewerRounds (step : State → Continuation → Option State) :
    Nat → Option Nat → State → Continuation → Option State
  | 0, _, s, k => k s
  | n + 1, last, s, k =>
    match k s with
    | some t => some t
    | none =>
      if last = some s.pos then none
      else step s fun t => fewerRounds step n (some s.pos) t k

/-- As many further rounds as succeed, at most `n`, without going back. -/
def allRounds (step : State → Option State) : Nat → State → State
  | 0, s => s
  | n + 1, s =>
    match step s with
    | some t => if t.pos = s.pos then t else allRounds step n t
    | none => s

def exactRounds (step : State → Option State) : Nat → State → Option State
  | 0, s => some s
  | n + 1, s =>
    match step s with
    | some t => exactRounds step n t
    | none => none

/-- Rounds beyond the least number: a text of `remaining` characters leaves room for one empty round more. -/
def extraRounds (least : Nat) (most : Option Nat) (remaining : Nat) : Nat :=
  match most with
  | some most => min (most - least) (remaining + 1)
  | none => remaining + 1

/-- The most preferred way to match an expression from a state such that the continuation succeeds. -/
def Expr.matching? (text : Subject) : Expr → State → Continuation → Option State
  | .empty, s, k => k s
  | .char test, s, k =>
    match text[s.pos]? with
    | some c => if test.accepts c then k (s.advance 1) else none
    | none => none
  | .anchor place, s, k => if place.holds text s.pos then k s else none
  | .seq first second, s, k => first.matching? text s fun t => second.matching? text t k
  | .either first second, s, k =>
    match first.matching? text s k with
    | some t => some t
    | none => second.matching? text s k
  | .run greed least most test, s, k =>
    let room := text.size - s.pos
    let count := runLength text test s.pos 0 (match most with | some most => min most room | none => room)
    if count < least then none
    else match greed with
      | .greedy => descend (fun n => k (s.advance n)) least (count - least)
      | .lazy => ascend (fun n => k (s.advance n)) least (count - least)
      | .possessive => k (s.advance count)
  | .repeated greed least most body, s, k =>
    match greed with
    | .greedy => times (fun s k => body.matching? text s k) least s fun t =>
        moreRounds (fun s k => body.matching? text s k) (extraRounds least most (text.size - t.pos)) none t k
    | .lazy => times (fun s k => body.matching? text s k) least s fun t =>
        fewerRounds (fun s k => body.matching? text s k) (extraRounds least most (text.size - t.pos)) none t k
    | .possessive =>
      match exactRounds (fun s => body.matching? text s some) least s with
      | some t => k (allRounds (fun s => body.matching? text s some) (extraRounds least most (text.size - t.pos)) t)
      | none => none
  | .group index body, s, k => body.matching? text (s.openGroup index) fun t => k (t.closeGroup index)
  | .atomic body, s, k =>
    match body.matching? text s some with
    | some t => k t
    | none => none
  | .look behind positive body, s, k =>
    let width := behind.getD 0
    let found := if width ≤ s.pos then body.matching? text { s with pos := s.pos - width } some else none
    if positive then
      match found with
      | some t => k { s with marks := t.marks }
      | none => none
    else if found.isSome then none else k s
  | .again folding index, s, k =>
    match s.group? index with
    | some (opened, closed) =>
      if repeatsAt text folding opened s.pos (closed - opened) then k (s.advance (closed - opened)) else none
    | none => none
  | .branch index matched unmatched, s, k =>
    if (s.group? index).isSome then matched.matching? text s k else unmatched.matching? text s k

/-- An expression and the number of its groups; group `n` is mark `n`, and mark 0 is unused. -/
structure Program where
  expr : Expr
  groups : Nat
  deriving DecidableEq, Repr

/-- The end of the preferred match at an offset. -/
def Program.endAt? (p : Program) (text : Subject) (pos : Nat) : Option Nat :=
  (p.expr.matching? text (State.start (p.groups + 1) pos) some).map (·.pos)

structure Span where
  start : Nat
  stop : Nat
  deriving DecidableEq, Repr

/-- The match at the first of the offsets `pos`, `pos + 1`, …, `pos + n - 1` that has one. -/
def Program.firstFrom? (p : Program) (text : Subject) : Nat → Nat → Option Span
  | 0, _ => none
  | n + 1, pos =>
    match p.endAt? text pos with
    | some stop => some ⟨pos, stop⟩
    | none => p.firstFrom? text n (pos + 1)

def Program.search? (p : Program) (text : Subject) (pos : Nat) : Option Span :=
  p.firstFrom? text (text.size + 1 - pos) pos

/-- The matches from `pos` on, found in at most `n` searches: the next search starts where a match ends, or one
further if the match is empty, and empty matches are left out. -/
def Program.spansFrom (p : Program) (text : Subject) : Nat → Nat → List Span
  | 0, _ => []
  | n + 1, pos =>
    match p.search? text pos with
    | some span =>
      if span.start = span.stop then p.spansFrom text n (span.stop + 1)
      else span :: p.spansFrom text n span.stop
    | none => []

/-- All non-empty matches, left to right and without overlap. -/
def Program.spans (p : Program) (text : Subject) : List Span := p.spansFrom text (text.size + 1) 0

end ScriptAudit.Pattern
