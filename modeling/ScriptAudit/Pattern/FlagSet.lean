import ScriptAudit.Value

namespace ScriptAudit.Pattern

/-- Why flags cannot be looked at. The constructors name the kinds of values that are in the way. -/
inductive FlagsMisuse where
  | notIterable (kind : String)
  | notExtendable (kind : String)
  | unhashable (kind : String)
  | notText (kind : String)
  | unordered (left right : String)
  deriving DecidableEq, Repr

def FlagsMisuse.message : FlagsMisuse → String
  | notIterable kind => s!"'{kind}' object is not iterable"
  | notExtendable kind => s!"unsupported operand type(s) for +=: '{kind}' and 'str'"
  | unhashable kind => s!"unhashable type: '{kind}'"
  | notText kind => s!"sequence item 0: expected str instance, {kind} found"
  | unordered left right => s!"'<' not supported between instances of '{left}' and '{right}'"

/-- One flag as it was given. -/
inductive FlagItem where
  | text (value : String)
  | number (value : Float) (kind : String)
  | null
  deriving Repr

namespace FlagItem

def kind : FlagItem → String
  | .text _ => "str"
  | .number _ kind => kind
  | .null => "NoneType"

def same : FlagItem → FlagItem → Bool
  | .text a, .text b => a == b
  | .number a _, .number b _ => a == b
  | .null, .null => true
  | _, _ => false

def ofValue : Value → Except FlagsMisuse FlagItem
  | .null => .ok .null
  | .bool b => .ok (.number (if b then 1.0 else 0.0) "bool")
  | .int n => .ok (.number (Float.ofInt n) "int")
  | .real x => .ok (.number x "float")
  | .text s => .ok (.text s)
  | .list items => .error (.unhashable (Value.list items).kind)
  | .record fields => .error (.unhashable (Value.record fields).kind)

end FlagItem

/-- The characters of a text, each a flag. -/
def letterItems (cs : List Char) : List FlagItem := cs.map fun c => .text (String.singleton c)

/-- The flags of a value, followed by those of a slash literal. A value that is not given counts as no flags. -/
def flagItems (flags : Value) (literal : Option (List Char)) : Except FlagsMisuse (List FlagItem) :=
  if flags.isVoid then .ok (letterItems (literal.getD []))
  else match flags, literal with
    | .text s, _ => .ok (letterItems (s.toList ++ literal.getD []))
    | .list items, _ => do return (← items.mapM FlagItem.ofValue) ++ letterItems (literal.getD [])
    | .record fields, none => .ok (fields.map fun f => .text f.1)
    | v, none => .error (.notIterable v.kind)
    | v, some _ => .error (.notExtendable v.kind)

/-- Flags that a pattern may have. The last two are always on. -/
def knownFlags : List String := ["i", "m", "s", "g", "u"]

def FlagItem.isKnown : FlagItem → Bool
  | .text s => knownFlags.contains s
  | _ => false

/-- The first of each group of equal flags. -/
def distinctItems : List FlagItem → List FlagItem
  | [] => []
  | x :: rest => x :: (distinctItems rest).filter (!x.same ·)

/-- The joined text of unknown flags in order; it takes texts only, and before that flags that have an order. -/
def joinUnknown (items : List FlagItem) : Except FlagsMisuse String :=
  match items.findSome? fun | .text _ => none | x => some x with
  | none =>
    let texts := items.filterMap fun | .text s => some s | _ => none
    .ok ("".intercalate (texts.mergeSort fun a b => !decide (b < a)))
  | some x =>
    let first := items.head?.getD x
    match items.find? fun y => y.kind == "str" || y.kind == "NoneType" with
    | some y =>
      if items.length = 1 then .error (.notText y.kind)
      else
        let second := (items.drop 1).head?.getD y
        .error (.unordered second.kind first.kind)
    | none =>
      let least := items.foldl (fun best y => match best, y with
        | .number a _, .number b _ => if b < a then y else best
        | _, _ => best) x
      .error (.notText least.kind)

/-- The texts among the flags, if all flags are known. -/
inductive FlagCheck where
  | known (flags : List String)
  | unknown (flags : String)
  deriving DecidableEq, Repr

def checkFlags (items : List FlagItem) : Except FlagsMisuse FlagCheck :=
  match (distinctItems items).filter (!·.isKnown) with
  | [] => .ok (.known (items.filterMap fun | .text s => some s | _ => none))
  | unknown => (joinUnknown unknown).map .unknown

end ScriptAudit.Pattern
