import ScriptAudit.Pattern.Escape
import ScriptAudit.Pattern.Modes

namespace ScriptAudit.Pattern

/-- One end of a range: what stands there and how it is written. -/
def setMember (modes : LocalModes) (start : Nat) (t : Token) (r : Reader) : Reading (SetItem × Reader) :=
  match t with
  | .escaped c => setEscape modes.ascii start c r
  | .plain c => .ok (.code c.toNat, r)
  | .backslash => complain .endsInBackslash start

/-- A range between two members, which have to be single characters in order. -/
def setRange (low high : SetItem) (lowToken highToken : Token) (r : Reader) : Reading SetItem :=
  let fault := complain (.reversedRange lowToken.text highToken.text)
    (r.pos - (lowToken.length + 1 + highToken.length))
  match low, high with
  | .code a, .code b => if b < a then fault else .ok (.range a b)
  | _, _ => fault

/-- The members of a set that was opened at `start`, up to the closing bracket; a bracket that comes first is a
member. The fuel is the number of tokens left. -/
def setMembers (modes : LocalModes) (start : Nat) :
    Nat → List SetItem → Reader → Reading (List SetItem × Reader)
  | 0, _, _ => complain .unclosedSet start
  | n + 1, seen, r => do
    match r.next? with
    | none => complain .unclosedSet start
    | some t =>
      let here := r.pos
      let r ← r.skip
      if t = .plain ']' && !seen.isEmpty then return (seen.reverse, r)
      else
        let (item, r) ← setMember modes here t r
        let (dash, r) ← r.eat '-'
        if !dash then setMembers modes start n (item :: seen) r
        else match r.next? with
          | none => complain .unclosedSet start
          | some u =>
            let there := r.pos
            let r ← r.skip
            if u = .plain ']' then return ((.code 45 :: item :: seen).reverse, r)
            else
              let (high, r) ← setMember modes there u r
              let range ← setRange item high t u r
              setMembers modes start n (range :: seen) r

/-- The rest of a set after its opening bracket at `start`. -/
def charSet (modes : LocalModes) (start : Nat) (r : Reader) : Reading (CharTest × Reader) := do
  let (negated, r) ← r.eat '^'
  let (items, r) ← setMembers modes start r.rest.length [] r
  match items.eraseDups, negated with
  | [.code c], false => return (.code modes.folding c, r)
  | _, _ => return (.set modes.folding negated items, r)

end ScriptAudit.Pattern
