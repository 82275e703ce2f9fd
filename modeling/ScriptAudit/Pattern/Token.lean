import ScriptAudit.Pattern.Complaint

namespace ScriptAudit.Pattern

/-- A character of an expression, alone or after a backslash. -/
inductive Token where
  | plain (c : Char)
  | escaped (c : Char)
  /-- A backslash that ends the expression. -/
  | backslash
  deriving DecidableEq, Repr

namespace Token

def chars : Token → List Char
  | .plain c => [c]
  | .escaped c => ['\\', c]
  | .backslash => ['\\']

def text (t : Token) : String := String.ofList t.chars

def length (t : Token) : Nat := t.chars.length

end Token

def tokens : List Char → List Token
  | [] => []
  | '\\' :: c :: rest => .escaped c :: tokens rest
  | '\\' :: [] => [.backslash]
  | c :: rest => .plain c :: tokens rest

/-- Tokens still to read, and the offset of the first of them. -/
structure Reader where
  pos : Nat
  rest : List Token
  deriving DecidableEq, Repr

abbrev Reading := Except Rejection

def complain {α : Type} (complaint : Complaint) (position : Nat) : Reading α :=
  .error (.fault ⟨complaint, some position⟩)

namespace Reader

/-- Reading never comes to stand before a lone backslash. -/
def settle (r : Reader) : Reading Reader :=
  match r.rest with
  | .backslash :: _ => complain .endsInBackslash r.pos
  | _ => .ok r

def ofSource (source : List Char) : Reading Reader := settle ⟨0, tokens source⟩

def next? (r : Reader) : Option Token := r.rest.head?

def skip (r : Reader) : Reading Reader :=
  match r.rest with
  | [] => .ok r
  | t :: rest => settle ⟨r.pos + t.length, rest⟩

/-- Passes over the character `c` if it is next. -/
def eat (c : Char) (r : Reader) : Reading (Bool × Reader) :=
  if r.next? = some (.plain c) then r.skip.map fun s => (true, s) else .ok (false, r)

/-- The longest run of at most `n` characters of a kind. -/
def collect (member : Char → Bool) : Nat → Reader → Reading (List Char × Reader)
  | 0, r => .ok ([], r)
  | n + 1, r =>
    match r.rest with
    | .plain c :: _ =>
      if member c then do
        let (cs, s) ← collect member n (← r.skip)
        return (c :: cs, s)
      else .ok ([], r)
    | _ => .ok ([], r)

/-- All characters up to the terminator, of which there has to be one at least. -/
def upToFrom (terminator : Char) (what : String) (name : List Char) (pos : Nat) :
    List Token → Reading (List Char × Reader)
  | [] =>
    if name.isEmpty then complain (.missingName what) pos
    else complain (.unclosedName (String.singleton terminator)) (pos - name.length)
  | t :: rest => do
    let r ← settle ⟨pos + t.length, rest⟩
    if t = .plain terminator then
      if name.isEmpty then complain (.missingName what) pos else return (name, r)
    else upToFrom terminator what (name ++ t.chars) r.pos rest

def upTo (terminator : Char) (what : String) (r : Reader) : Reading (List Char × Reader) :=
  upToFrom terminator what [] r.pos r.rest

/-- Passes over everything up to a character, and over that character; says whether there was one. -/
def passFrom (c : Char) (pos : Nat) : List Token → Reading (Bool × Reader)
  | [] => .ok (false, ⟨pos, []⟩)
  | t :: rest => do
    let r ← settle ⟨pos + t.length, rest⟩
    if t = .plain c then return (true, r) else passFrom c r.pos rest

def pass (c : Char) (r : Reader) : Reading (Bool × Reader) := passFrom c r.pos r.rest

end Reader

end ScriptAudit.Pattern
