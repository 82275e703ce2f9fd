import ScriptAudit.Text.Basic
import ScriptAudit.Text.Quoted

namespace ScriptAudit.Command

/-- Why the words of a command are not carried out. -/
inductive Halt where
  | usage (program message : String)
  | help (text : String)
  deriving DecidableEq, Repr

def Halt.message : Halt → String
  | .usage program message => s!"{program}: error: {message}"
  | .help text => text

/-- What a switch does to the settings. -/
inductive Effect (σ : Type) where
  | flag (apply : σ → σ)
  /-- Takes a value; a value that is refused gives the reason. -/
  | value (apply : String → σ → Except String σ)
  | help

structure Switch (σ : Type) where
  names : List String
  effect : Effect σ

/-- What a command takes beside switches. -/
inductive Operand (σ : Type) where
  | word (name : String) (apply : String → σ → σ)
  /-- A word and all words after it, of which some may be left over. -/
  | rest (name : String) (apply : List String → σ → Except Halt (σ × List String))

def Operand.name {σ : Type} : Operand σ → String
  | .word name _ | .rest name _ => name

structure Grammar (σ : Type) where
  program : String
  switches : List (Switch σ)
  operand : Option (Operand σ)

/-- What a word is taken for. A value that stands in the word of a switch comes with whether an equals sign was
before it. -/
inductive Kind (σ : Type) where
  | operand
  | marker
  | unknown
  | switch (switch : Switch σ) (written : String) (value : Option (Bool × String))

/-- How a switch is shown to those who ask for help. -/
def Switch.hint {σ : Type} (s : Switch σ) : String :=
  let names := ", ".intercalate s.names
  match s.effect with
  | .value _ => s!"[{names} VALUE]"
  | _ => s!"[{names}]"

/-- One line on what a command takes. -/
def Grammar.hint {σ : Type} (g : Grammar σ) : String :=
  " ".intercalate (["usage:", g.program] ++ g.switches.map (·.hint) ++ g.operand.toList.map (·.name))

/-- The word that ends the switches. -/
def marker : String := "--"

/-- The part of a word before the first equals sign, and the part after it. -/
def splitEquals (cs : List Char) : List Char × Option (List Char) :=
  match cs.dropWhile (· != '=') with
  | _ :: value => (cs.takeWhile (· != '='), some value)
  | [] => (cs, none)

def allDigits (cs : List Char) : Bool := !cs.isEmpty && cs.all Text.isDigit

/-- A minus sign before digits, perhaps with a point among them that a digit follows. -/
def isNegativeNumber (cs : List Char) : Bool :=
  match cs with
  | '-' :: rest =>
    let rest := if rest.getLast? = some '\n' then rest.dropLast else rest
    allDigits rest ||
      (match rest.dropWhile Text.isDigit with
       | '.' :: fraction => allDigits fraction
       | _ => false)
  | _ => false

namespace Grammar

variable {σ : Type}

/-- All names of switches, in order. -/
def names (g : Grammar σ) : List (String × Switch σ) := g.switches.flatMap fun s => s.names.map (·, s)

def find? (g : Grammar σ) (name : List Char) : Option (Switch σ) := g.names.lookup (String.ofList name)

/-- The switches that a word may be short for. -/
def candidates (g : Grammar σ) (word : List Char) : List (Switch σ × String × Option (Bool × String)) :=
  match word with
  | '-' :: '-' :: _ =>
    let (start, value) := splitEquals word
    g.names.filterMap fun (name, s) =>
      if start.isPrefixOf name.toList then some (s, name, value.map fun v => (true, String.ofList v)) else none
  | a :: b :: more =>
    g.names.filterMap fun (name, s) =>
      if name.toList = [a, b] then some (s, name, some (false, String.ofList more))
      else if word.isPrefixOf name.toList then some (s, name, none)
      else none
  | _ => []

def ambiguous (g : Grammar σ) (word : List Char) (names : List String) : Halt :=
  let listed := ", ".intercalate names
  .usage g.program s!"ambiguous option: {String.ofList word} could match {listed}"

/-- What a word stands for that is not a whole name. -/
def shortened (g : Grammar σ) (word : List Char) : Except Halt (Kind σ) :=
  match g.candidates word with
  | [(s, name, value)] => .ok (.switch s name value)
  | [] => .ok (if isNegativeNumber word || word.contains ' ' then .operand else .unknown)
  | several => .error (g.ambiguous word (several.map (·.2.1)))

/-- What a word stands for, as long as switches are looked for. -/
def classify (g : Grammar σ) (word : List Char) : Except Halt (Kind σ) :=
  if word.head? ≠ some '-' then .ok .operand
  else match g.find? word with
    | some s => .ok (.switch s (String.ofList word) none)
    | none =>
      if word.length = 1 then .ok .operand
      else match splitEquals word with
        | (name, some value) =>
          match g.find? name with
          | some s => .ok (.switch s (String.ofList name) (some (true, String.ofList value)))
          | none => g.shortened word
        | _ => g.shortened word

/-- After the marker all words are operands. -/
def classifyAll (g : Grammar σ) : List String → Except Halt (List (String × Kind σ))
  | [] => .ok []
  | word :: rest =>
    if word = marker then .ok ((word, .marker) :: rest.map fun w => (w, .operand))
    else do
      let kind ← g.classify word.toList
      return (word, kind) :: (← g.classifyAll rest)

end Grammar

/-- How far the words have been read. -/
structure Progress (σ : Type) where
  settings : σ
  operand : Option (Operand σ)
  extras : List String := []

namespace Grammar

variable {σ : Type}

def refuse (g : Grammar σ) (s : Switch σ) (message : String) : Halt :=
  let name := "/".intercalate s.names
  .usage g.program s!"argument {name}: {message}"

def isMarker (w : String × Kind σ) : Bool :=
  match w.2 with
  | .marker => true
  | _ => false

def isOperand (w : String × Kind σ) : Bool :=
  match w.2 with
  | .operand => true
  | _ => false

def isPlain (w : String × Kind σ) : Bool := isMarker w || isOperand w

/-- Gives the operand its words, if they are next. -/
def takeOperand (p : Progress σ) (words : List (String × Kind σ)) :
    Except Halt (Option (Progress σ × List (String × Kind σ))) :=
  match p.operand, words.dropWhile isMarker with
  | some (.word _ apply), w :: rest =>
    if isOperand w then
      .ok (some ({ p with settings := apply w.1 p.settings, operand := none }, rest.dropWhile isMarker))
    else .ok none
  | some (.rest _ apply), w :: _ =>
    if isOperand w then do
      let (settings, left) ← apply (words.map (·.1)) p.settings
      return some ({ settings, operand := none, extras := p.extras ++ left }, [])
    else .ok none
  | _, _ => .ok none

/-- Lets a switch act on a value. -/
def give (g : Grammar σ) (p : Progress σ) (s : Switch σ) (value : String) : Except Halt (Progress σ) :=
  match s.effect with
  | .value apply =>
    match apply value p.settings with
    | .ok settings => .ok { p with settings }
    | .error reason => .error (g.refuse s reason)
  | _ => .error (g.refuse s s!"ignored explicit argument {Text.quoted value}")

/-- Carries out a switch whose word has just been read. -/
def takeSwitch (g : Grammar σ) (p : Progress σ) (s : Switch σ) (written : String) (value : Option (Bool × String))
    (rest : List (String × Kind σ)) : Except Halt (Progress σ × List (String × Kind σ)) :=
  match value with
  | some (equals, v) =>
    match s.effect with
    | .help =>
      if (written.toList.getD 1 '-') = '-' || v.isEmpty || equals || v.toList.head? = some '-' then
        .error (g.refuse s s!"ignored explicit argument {Text.quoted v}")
      else .error (.help g.hint)
    | _ => do return (← g.give p s v, rest)
  | none =>
    match s.effect with
    | .help => .error (.help g.hint)
    | .flag apply => .ok ({ p with settings := apply p.settings }, rest)
    | .value _ =>
      match rest with
      | w :: rest => if isOperand w then do return (← g.give p s w.1, rest) else .error (g.refuse s "expected one argument")
      | [] => .error (g.refuse s "expected one argument")

/-- Reads the words that are left; each step takes at least one of them. -/
def readFrom (g : Grammar σ) : Nat → Progress σ → List (String × Kind σ) → Except Halt (Progress σ)
  | 0, p, _ => .ok p
  | _ + 1, p, [] => .ok p
  | n + 1, p, (word, kind) :: rest =>
    match kind with
    | .unknown => g.readFrom n { p with extras := p.extras ++ [word] } rest
    | .switch s written value => do
      let (p, rest) ← g.takeSwitch p s written value rest
      g.readFrom n p rest
    | _ => do
      match ← takeOperand p ((word, kind) :: rest) with
      | some (p, rest) => g.readFrom n p rest
      | none =>
        let extras := ((word, kind) :: rest).takeWhile isPlain
        g.readFrom n { p with extras := p.extras ++ extras.map (·.1) } (rest.dropWhile isPlain)

/-- The settings that words make of given ones, and the words that mean nothing. -/
def read (g : Grammar σ) (settings : σ) (words : List String) : Except Halt (σ × List String) := do
  let kinds ← g.classifyAll words
  let p ← g.readFrom kinds.length ⟨settings, g.operand, []⟩ kinds
  match p.operand with
  | some operand => throw (.usage g.program s!"the following arguments are required: {operand.name}")
  | none => return (p.settings, p.extras)

end Grammar

end ScriptAudit.Command
