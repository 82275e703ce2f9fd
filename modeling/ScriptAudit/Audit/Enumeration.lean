import ScriptAudit.Audit.Budget

namespace ScriptAudit

/-- The matches of a rule in a text, as far as they were looked for. -/
structure Enumeration where
  spans : List Pattern.Span
  failure : Option Failure
  clock : Clock

namespace Enumeration

/-- Hands out the matches that are left, after `count` of them. The budget is checked before each match is handed
out and at the end; at most `wanted` are asked for. -/
def handOut (rule : Rule) (budget : Budget) (started : Float) (ending : Option Failure) :
    (spans : List Pattern.Span) → (wanted : Option Nat) → (count : Nat) → Clock → Enumeration
  | _, some 0, _, clock => ⟨[], none, clock⟩
  | [], _, count, clock =>
    match ending with
    | some failure => ⟨[], some failure, clock⟩
    | none =>
      let (overrun, clock) := budget.check count started clock
      ⟨[], overrun.map (·.failure rule.title), clock⟩
  | span :: rest, wanted, count, clock =>
    match budget.check (count + 1) started clock with
    | (some overrun, clock) => ⟨[], some (overrun.failure rule.title), clock⟩
    | (none, clock) =>
      let later := handOut rule budget started ending rest (wanted.map (· - 1)) (count + 1) clock
      { later with spans := span :: later.spans }

end Enumeration

/-- Looks for the matches of a rule, or the first `wanted` of them, under a budget. -/
def Rule.enumerate (rule : Rule) (budget : Budget) (wanted : Option Nat) (text : Pattern.Subject) (clock : Clock) :
    Enumeration :=
  if wanted = some 0 then ⟨[], none, clock⟩
  else
    let (started, clock) := clock.read
    let (spans, ending) := rule.detector.search text
    Enumeration.handOut rule budget started ending spans wanted 0 clock

end ScriptAudit
