import ScriptAudit.Decimal.Numeral
import ScriptAudit.Pattern.CharSet
import ScriptAudit.Pattern.InlineFlags
import ScriptAudit.Pattern.Match
import ScriptAudit.Pattern.OpenGroup
import ScriptAudit.Text.Identifier

namespace ScriptAudit.Pattern

/-- How far the reading of an expression has come. -/
structure Progress where
  reader : Reader
  inner : OpenGroup
  outer : List OpenGroup := []
  /-- The widths of the groups so far, none for a group that is open; entry 0 stands for no group. -/
  widths : List (Option Width) := [none]
  names : List (String × Nat) := []
  /-- Groups that conditions ask for, and where. -/
  asked : List (Nat × Nat) := []
  /-- Flags of the whole expression. -/
  flags : List Flag := []
  /-- Faults that count only if the expression is well formed otherwise, with the offset of the part they are
  about. -/
  faults : List (Nat × Complaint) := []
  deriving Repr

/-- The calls that can be under way at once. Beyond that a reading breaks off, a little earlier or later with what
else is under way. -/
def callLimit : Nat := 980

namespace Progress

def start (modes : Modes) (r : Reader) : Progress := { reader := r, inner := ⟨.whole, 0, modes.toLocal, [], []⟩ }

def groups (p : Progress) : Nat := p.widths.length

def modes (p : Progress) : LocalModes := p.inner.modes

def moveTo (p : Progress) (r : Reader) : Progress := { p with reader := r }

def add (p : Progress) (piece : Piece) : Progress := { p with inner := p.inner.add piece }

def addChar (p : Progress) (start : Nat) (test : CharTest) : Progress :=
  p.add ⟨.char test, .one, .item, start⟩

def addCode (p : Progress) (start code : Nat) : Progress := p.addChar start (.code p.modes.folding code)

def addPlace (p : Progress) (start : Nat) (place : Anchor) : Progress :=
  p.add ⟨.anchor place, .zero, .place, start⟩

def enter (p : Progress) (purpose : Purpose) (start : Nat) (modes : LocalModes) : Progress :=
  { p with inner := ⟨purpose, start, modes, [], []⟩, outer := p.inner :: p.outer }

/-- The calls that are under way. -/
def depth (p : Progress) : Nat := (p.inner :: p.outer).foldr (fun g calls => calls + g.purpose.calls) 0

/-- The width of a group that is closed. -/
def closedWidth? (p : Progress) (group : Nat) : Option Width := (p.widths[group]?).join

/-- The number of groups before the outermost look-behind that is open. -/
def lookBehindGroups? (p : Progress) : Option Nat :=
  (p.inner :: p.outer).reverse.findSome? fun g =>
    match g.purpose with
    | .behind _ groups => some groups
    | _ => none

/-- Inside a look-behind, only groups from before it can be referred to. -/
def checkLookBehind (p : Progress) (group pos : Nat) : Reading Unit :=
  match p.lookBehindGroups? with
  | none => .ok ()
  | some groups =>
    if (p.closedWidth? group).isNone then complain .openGroup pos
    else if groups ≤ group then complain .groupOfLookBehind pos
    else .ok ()

/-- A reference to a group that has been opened. -/
def addReference (p : Progress) (start group openPos : Nat) (r : Reader) : Reading Progress :=
  match p.closedWidth? group with
  | none => complain .openGroup openPos
  | some width => do
    p.checkLookBehind group r.pos
    return (p.moveTo r).add ⟨.again p.modes.folding group, width, .item, start⟩

def addEscape (p : Progress) (start : Nat) (c : Char) (r : Reader) : Reading Progress := do
  let (escape, r) ← exprEscape start c r
  let q := p.moveTo r
  match escape with
  | .code code => return q.addCode start code
  | .cls kind negated => return q.addChar start (.set p.modes.folding false [.cls kind p.modes.ascii negated])
  | .textStart => return q.addPlace start .textStart
  | .textEnd => return q.addPlace start .textEnd
  | .wordEdge true => return q.addPlace start (.wordEdge p.modes.ascii)
  | .wordEdge false => return q.addPlace start (.noWordEdge p.modes.ascii)
  | .group index =>
    if index < p.groups then p.addReference start index start r
    else complain (.unknownGroup index) (start + 1)

end Progress

/-- Counts of a repetition are below this. -/
def countLimit : Nat := 4294967295

def count (digits : List Char) : Reading (Option Nat) :=
  if digits.isEmpty then .ok none
  else if Decimal.longestNumeral < digits.length then .error (.longCount digits.length)
  else
    let n := Text.valueIn 10 digits
    if countLimit ≤ n then .error .countTooLarge else .ok (some n)

/-- The counts after an opening brace, or `none` if it does not start a repetition. -/
def braceCounts (r : Reader) : Reading (Option ((Nat × Option Nat) × Reader)) := do
  if r.next? = some (.plain '\x7d') then return none
  else
    let (low, s) ← r.collect Char.isDigit r.rest.length
    let (comma, s) ← s.eat ','
    let (high, s) ← if comma then s.collect Char.isDigit s.rest.length else .ok (low, s)
    let (closed, s) ← s.eat '\x7d'
    if !closed then return none
    else
      let least := (← count low).getD 0
      let most ← count high
      if most.any (· < least) then complain .leastAboveMost r.pos
      else return some ((least, most), s)

/-- The counts that a repetition sign stands for. -/
def repeatCounts (c : Char) (r : Reader) : Reading (Option ((Nat × Option Nat) × Reader)) :=
  match c with
  | '?' => .ok (some ((0, some 1), r))
  | '*' => .ok (some ((0, none), r))
  | '+' => .ok (some ((1, none), r))
  | _ => braceCounts r

def greedAfter (r : Reader) : Reading (Greed × Reader) := do
  let (lazy, r) ← r.eat '?'
  if lazy then return (.lazy, r)
  else
    let (possessive, r) ← r.eat '+'
    return (if possessive then .possessive else .greedy, r)

def Greed.operator : Greed → String
  | .greedy => "MAX_REPEAT"
  | .lazy => "MIN_REPEAT"
  | .possessive => "POSSESSIVE_REPEAT"

namespace Progress

/-- Repeats the last piece. -/
def repeatLast (p : Progress) (start least : Nat) (most : Option Nat) (r : Reader) : Reading Progress :=
  match p.inner.pieces with
  | [] => complain .nothingToRepeat start
  | piece :: before =>
    match piece.role with
    | .place => complain .nothingToRepeat start
    | .repetition => complain .repeatedTwice start
    | .item => do
      let (greed, r) ← greedAfter r
      let piece' : Piece :=
        ⟨.repeating greed least most piece.expr, piece.width.repeated least most, .repetition, piece.start⟩
      return { p with
        reader := r
        inner := { p.inner with pieces := piece' :: before }
        faults := if p.flags.contains .template then
            (piece.start, .repetitionInTemplate greed.operator) :: p.faults
          else p.faults }

/-- A repetition sign; a brace that starts no counts stands for itself. -/
def addRepeat (p : Progress) (start : Nat) (c : Char) (r : Reader) : Reading Progress := do
  match ← repeatCounts c r with
  | none => return (p.moveTo r).addCode start c.toNat
  | some ((least, most), r) => p.repeatLast start least most r

/-- Opens the next group, which may have a name. -/
def enterCapture (p : Progress) (start : Nat) (name : Option (String × Nat)) (r : Reader) : Reading Progress :=
  let index := p.groups
  let q := { p with reader := r, widths := p.widths ++ [none] }
  match name with
  | none => .ok (q.enter (.capture index) start p.modes)
  | some (name, pos) =>
    match p.names.lookup name with
    | some earlier => complain (.takenName name index earlier) pos
    | none => .ok ({ q with names := (name, index) :: p.names }.enter (.capture index) start p.modes)

def checkName (name : List Char) (pos : Nat) : Reading String :=
  if Text.isIdentifier name then .ok (String.ofList name) else complain (.badName (String.ofList name)) pos

/-- The group of a name, which stands at `pos`. -/
def named (p : Progress) (name : String) (pos : Nat) : Reading Nat :=
  match p.names.lookup name with
  | some index => .ok index
  | none => complain (.unknownName name) pos

/-- A group with a name, or a reference by name. -/
def addNamed (p : Progress) (start : Nat) (r : Reader) : Reading Progress :=
  match r.next? with
  | none => complain .endsInGroupHead r.pos
  | some t => do
    let s ← r.skip
    if t = .plain '<' then
      let (name, after) ← s.upTo '>' "group name"
      let name ← checkName name s.pos
      p.enterCapture start (some (name, s.pos)) after
    else if t = .plain '=' then
      let (name, after) ← s.upTo ')' "group name"
      let name ← checkName name s.pos
      let index ← p.named name s.pos
      p.addReference start index s.pos after
    else complain (.unknownExtension ("?P" ++ t.text)) (r.pos - 2)

/-- Numbers of groups are below this. -/
def groupLimit : Nat := 2147483647

/-- The group that a condition asks for, by name or by number. -/
def condition (p : Progress) (name : List Char) (pos : Nat) : Reading (Nat × Progress) :=
  if Text.isIdentifier name then do
    let index ← p.named (String.ofList name) pos
    return (index, p)
  else match Decimal.integer? (String.ofList name) with
    | some (.ofNat index) =>
      if index = 0 then complain .groupZero pos
      else if groupLimit ≤ index then complain (.unknownGroup index) pos
      else if (p.asked.lookup index).isSome then .ok (index, p)
      else .ok (index, { p with asked := p.asked ++ [(index, pos)] })
    | _ => complain (.badName (String.ofList name)) pos

def enterBranch (p : Progress) (start : Nat) (r : Reader) : Reading Progress := do
  let (name, after) ← r.upTo ')' "group name"
  let (group, q) ← p.condition name r.pos
  q.checkLookBehind group after.pos
  return (q.moveTo after).enter (.branch group) start p.modes

def enterLookBehind (p : Progress) (start : Nat) (r : Reader) : Reading Progress :=
  match r.next? with
  | none => complain .endsInGroupHead r.pos
  | some t => do
    let s ← r.skip
    if t = .plain '=' then return (p.moveTo s).enter (.behind true p.groups) start p.modes
    else if t = .plain '!' then return (p.moveTo s).enter (.behind false p.groups) start p.modes
    else complain (.unknownExtension ("?<" ++ t.text)) (r.pos - 2)

/-- Flags for a group, or at the very start for the whole expression. -/
def addFlags (p : Progress) (start : Nat) (first : Token) (r : Reader) : Reading Progress := do
  match ← flagChange first r with
  | (.whole on, r) =>
    if p.inner.isStart then
      return { p with
        reader := r
        flags := p.flags ++ on
        inner := { p.inner with modes := p.modes.update on [] } }
    else complain .lateFlags start
  | (.scoped on off, r) => return (p.moveTo r).enter .plain start (p.modes.update on off)

/-- What a parenthesis at `start` opens, by the characters after it. -/
def addGroup (p : Progress) (start : Nat) (r : Reader) : Reading Progress := do
  let (extended, r) ← r.eat '?'
  if !extended then p.enterCapture start none r
  else match r.next? with
    | none => complain .endsInGroupHead r.pos
    | some t =>
      let s ← r.skip
      match t with
      | .plain 'P' => p.addNamed start s
      | .plain ':' => return (p.moveTo s).enter .plain start p.modes
      | .plain '#' =>
        let (closed, s) ← s.pass ')'
        if closed then return p.moveTo s else complain .unclosedComment start
      | .plain '=' => return (p.moveTo s).enter (.ahead true) start p.modes
      | .plain '!' => return (p.moveTo s).enter (.ahead false) start p.modes
      | .plain '<' => p.enterLookBehind start s
      | .plain '(' => p.enterBranch start s
      | .plain '>' => return (p.moveTo s).enter .atomic start p.modes
      | _ =>
        if (flagOf? t).isSome || t == .plain '-' then p.addFlags start t s
        else complain (.unknownExtension ("?" ++ t.text)) (r.pos - 1)

/-- Both kinds of alphabet were asked for. -/
def hasMixedAlphabet (p : Progress) : Bool := p.flags.contains .ascii && p.flags.contains .unicode

/-- What is wrong with the width of a look-behind. -/
def widthFault? (w : Width) : Option Complaint :=
  if countLimit < w.least then some .lookBehindTooFar
  else if w.least ≠ w.most then some .lookBehindWidth
  else none

/-- The piece that a complete group is in the group around it. -/
def closedPiece (g : OpenGroup) : Piece :=
  let content := g.content
  match g.purpose with
  | .whole | .plain => ⟨content.expr, content.width, .item, g.start⟩
  | .capture index => ⟨.group index content.expr, content.width, .item, g.start⟩
  | .atomic => ⟨.atomic content.expr, content.width, .item, g.start⟩
  | .ahead positive => ⟨.look none positive content.expr, .zero, .item, g.start⟩
  | .behind positive _ => ⟨.look (some content.width.least) positive content.expr, .zero, .item, g.start⟩
  | .branch group => ⟨(g.branches group).expr, (g.branches group).width, .item, g.start⟩

/-- A closing parenthesis. -/
def close (p : Progress) : Reading Progress :=
  match p.outer with
  | [] => if p.hasMixedAlphabet then .error .asciiAndUnicode else complain .unbalancedParenthesis p.reader.pos
  | around :: outer => do
    let r ← p.reader.skip
    let width := p.inner.content.width
    let q := { p with reader := r, inner := around.add (closedPiece p.inner), outer }
    match p.inner.purpose with
    | .capture index => return { q with widths := q.widths.set index (some width) }
    | .behind _ _ => return { q with faults := (widthFault? width).toList.map (p.inner.start, ·) ++ q.faults }
    | _ => return q

/-- A bar between alternatives, of which a condition has two. -/
def bar (p : Progress) : Reading Progress :=
  match p.inner.purpose, p.inner.finished with
  | .branch _, _ :: _ => complain .thirdBranch p.reader.pos
  | _, _ => p.reader.skip.map fun r => { p with reader := r, inner := p.inner.next }

def isLayout (c : Char) : Bool := [' ', '\t', '\n', '\r', '\x0b', '\x0c'].contains c

/-- Reads one token and what belongs to it. -/
def step (p : Progress) (t : Token) : Reading Progress := do
  let start := p.reader.pos
  match t with
  | .plain '|' => p.bar
  | .plain ')' => p.close
  | .backslash => complain .endsInBackslash start
  | .escaped c => p.addEscape start c (← p.reader.skip)
  | .plain c =>
    let r ← p.reader.skip
    if p.modes.verbose && isLayout c then return p.moveTo r
    else if p.modes.verbose && c == '#' then
      let (_, r) ← r.pass '\n'
      return p.moveTo r
    else match c with
      | '[' =>
        let (test, r) ← charSet p.modes start r
        return (p.moveTo r).addChar start test
      | '.' => return (p.moveTo r).addChar start (.any p.modes.dotAll)
      | '^' => return (p.moveTo r).addPlace start (if p.modes.multiline then .lineStart else .textStart)
      | '$' => return (p.moveTo r).addPlace start (if p.modes.multiline then .lineEnd else .lastLineEnd)
      | '?' | '*' | '+' | '\x7b' => p.addRepeat start c r
      | '(' => p.addGroup start r
      | _ => return (p.moveTo r).addCode start c.toNat

/-- Reads to the end; each step takes at least one of the `n` tokens left. -/
def steps : Nat → Progress → Reading Progress
  | 0, p => .ok p
  | n + 1, p =>
    match p.reader.next? with
    | none => .ok p
    | some t => do
      let p ← p.step t
      if callLimit < p.depth then .error .tooDeep else p.steps n

/-- The fault about the outermost and first part that has one. -/
def firstFault? (p : Progress) : Option Complaint :=
  let first := p.faults.foldr (fun f best => match best with
    | some b => if f.1 ≤ b.1 then some f else some b
    | none => some f) none
  first.map (·.2)

def finish (p : Progress) : Reading Program :=
  if !p.outer.isEmpty then complain .unclosedGroup p.inner.start
  else if p.hasMixedAlphabet then .error .asciiAndUnicode
  else match p.asked.find? (p.groups ≤ ·.1) with
    | some (group, pos) => complain (.unknownGroup group) pos
    | none =>
      match p.firstFault? with
      | some complaint => .error (.fault ⟨complaint, none⟩)
      | none =>
        if callLimit < p.inner.content.expr.height then .error .tooDeep
        else .ok ⟨p.inner.content.expr, p.groups - 1⟩

end Progress

/-- The expression that a source stands for under the given modes. -/
def compile (source : String) (modes : Modes) : Reading Program := do
  let r ← Reader.ofSource source.toList
  let p ← (Progress.start modes r).steps r.rest.length
  p.finish

end ScriptAudit.Pattern
