import ScriptAudit.Pattern.Expr
import ScriptAudit.Pattern.Modes

namespace ScriptAudit.Pattern

/-- How many characters an expression can take up, at least and at most. -/
structure Width where
  least : Nat
  most : Nat
  deriving DecidableEq, Repr

namespace Width

/-- Widths are not told apart from here on. -/
def limit : Nat := Nat.pow 2 64

def capped (least most : Nat) : Width := ⟨min least limit, min most limit⟩

def zero : Width := ⟨0, 0⟩

def one : Width := ⟨1, 1⟩

def add (a b : Width) : Width := capped (a.least + b.least) (a.most + b.most)

def either (a b : Width) : Width := ⟨min a.least b.least, max a.most b.most⟩

def orNothing (w : Width) : Width := ⟨0, w.most⟩

def repeated (w : Width) (least : Nat) (most : Option Nat) : Width :=
  match most with
  | some most => capped (w.least * least) (w.most * most)
  | none => capped (w.least * least) (if w.most = 0 then 0 else limit)

end Width

/-- What a repetition sign may do with a piece. -/
inductive Role where
  | item
  | place
  | repetition
  deriving DecidableEq, Repr

/-- A part of a sequence, with the offset where it starts. -/
structure Piece where
  expr : Expr
  width : Width
  role : Role
  start : Nat
  deriving Repr

/-- What a pair of parentheses is for. -/
inductive Purpose where
  | whole
  | plain
  | capture (index : Nat)
  | atomic
  | ahead (positive : Bool)
  /-- Looks back; `groups` of the expression come before it. -/
  | behind (positive : Bool) (groups : Nat)
  | branch (group : Nat)
  deriving DecidableEq, Repr

/-- The calls that a group takes while it is open: one for the choice and one for the alternative in it. A condition
takes its alternatives without a choice. -/
def Purpose.calls : Purpose → Nat
  | branch _ => 1
  | _ => 2

/-- A sequence that is complete. -/
structure Alternative where
  expr : Expr
  width : Width
  deriving Repr

/-- A group whose end has not been read. Alternatives and pieces are listed from the last to the first. -/
structure OpenGroup where
  purpose : Purpose
  start : Nat
  modes : LocalModes
  finished : List Alternative := []
  pieces : List Piece := []
  deriving Repr

namespace OpenGroup

def add (g : OpenGroup) (p : Piece) : OpenGroup := { g with pieces := p :: g.pieces }

def current (g : OpenGroup) : Alternative :=
  ⟨.ofList (g.pieces.reverse.map (·.expr)), g.pieces.foldr (fun p w => w.add p.width) .zero⟩

/-- Starts the next alternative. -/
def next (g : OpenGroup) : OpenGroup := { g with finished := g.current :: g.finished, pieces := [] }

/-- The whole content as one expression. -/
def content (g : OpenGroup) : Alternative :=
  let last := g.current
  ⟨.alternatives (g.finished.reverse.map (·.expr) ++ [last.expr]),
    g.finished.foldl (fun w a => w.either a.width) last.width⟩

/-- The two branches of a condition; the second is empty if it is not written. -/
def branches (g : OpenGroup) (group : Nat) : Alternative :=
  match g.finished with
  | first :: _ => ⟨.branch group first.expr g.current.expr, first.width.either g.current.width⟩
  | [] => ⟨.branch group g.current.expr .empty, g.current.width.orNothing⟩

def isStart (g : OpenGroup) : Bool :=
  g.purpose == .whole && g.finished.isEmpty && g.pieces.isEmpty

end OpenGroup

end ScriptAudit.Pattern
