import ScriptAudit.Pattern.Modes
import ScriptAudit.Pattern.Token
import ScriptAudit.Text.Letter

namespace ScriptAudit.Pattern

/-- Flags that hold for the whole expression, or for a group. -/
inductive FlagChange where
  | whole (on : List Flag)
  | scoped (on off : List Flag)
  deriving DecidableEq, Repr

def flagOf? : Token → Option Flag
  | .plain c => Flag.ofChar? c
  | _ => none

/-- What is said of a token that is no flag: a letter is an unknown one, anything else means that something else
is missing. -/
def noFlag {α : Type} (t : Token) (missing : Complaint) (pos : Nat) : Reading α :=
  match t with
  | .plain c => complain (if Text.isLetter c then .unknownFlag else missing) pos
  | _ => complain missing pos

/-- Whether a flag can join those that are on already. -/
def admitFlag (on : List Flag) (flag : Flag) (pos : Nat) : Reading Unit :=
  if flag = .locale then complain .localeFlag pos
  else if flag.isAlphabet && on.any fun other => other.isAlphabet && other != flag then
    complain .mixedFlags pos
  else .ok ()

/-- Flags to turn on, after the first of them, and the token that ends them. -/
def flagsOn (on : List Flag) (flag : Flag) (pos : Nat) :
    List Token → Reading (List Flag × Char × Reader)
  | [] => do
    admitFlag on flag pos
    complain .unfinishedFlags pos
  | t :: rest => do
    admitFlag on flag pos
    let r ← Reader.settle ⟨pos + t.length, rest⟩
    if t = .plain ')' then return (on ++ [flag], ')', r)
    else if t = .plain '-' then return (on ++ [flag], '-', r)
    else if t = .plain ':' then return (on ++ [flag], ':', r)
    else match flagOf? t with
      | some next => flagsOn (on ++ [flag]) next r.pos rest
      | none => noFlag t .unfinishedFlags pos

/-- Flags to turn off, after the first of them, up to the colon. -/
def flagsOff (off : List Flag) (flag : Flag) (pos : Nat) : List Token → Reading (List Flag × Reader)
  | [] => if flag.isAlphabet then complain .fixedFlag pos else complain .missingColon pos
  | t :: rest =>
    if flag.isAlphabet then complain .fixedFlag pos
    else do
      let r ← Reader.settle ⟨pos + t.length, rest⟩
      if t = .plain ':' then return (off ++ [flag], r)
      else match flagOf? t with
        | some next => flagsOff (off ++ [flag]) next r.pos rest
        | none => noFlag t .missingColon pos

/-- The flags after a minus sign. -/
def flagsAfterMinus (r : Reader) : Reading (List Flag × Reader) :=
  match r.next? with
  | none => complain .missingFlag r.pos
  | some t => do
    let s ← r.skip
    match flagOf? t with
    | some flag => flagsOff [] flag s.pos s.rest
    | none => noFlag t .missingFlag r.pos

/-- The change of flags that starts with the token `first`, which is a flag or a minus sign. -/
def flagChange (first : Token) (r : Reader) : Reading (FlagChange × Reader) := do
  let (on, mark, r) ← match flagOf? first with
    | some flag => flagsOn [] flag r.pos r.rest
    | none => .ok ([], '-', r)
  if mark = ')' then return (.whole on, r)
  else if on.contains .template then complain .globalFlagOn (r.pos - 1)
  else
    let (off, r) ← if mark = '-' then flagsAfterMinus r else .ok ([], r)
    if off.contains .template then complain .globalFlagOff (r.pos - 1)
    else if on.any off.contains then complain .flagOnAndOff (r.pos - 1)
    else return (.scoped on off, r)

end ScriptAudit.Pattern
