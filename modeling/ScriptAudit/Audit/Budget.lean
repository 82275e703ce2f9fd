import ScriptAudit.Decimal.Binary64
import ScriptAudit.Rule.Basic

namespace ScriptAudit

/-- A clock by what it shows at each reading, and how often it has been read. -/
structure Clock where
  reading : Nat → Float
  reads : Nat := 0

namespace Clock

/-- Shows the readings one after the other and then the last of them for good; without readings it stands at
zero. -/
def ofReadings (readings : List Float) : Clock := ⟨fun n => readings.getD n (readings.getLastD 0.0), 0⟩

def read (c : Clock) : Float × Clock := (c.reading c.reads, { c with reads := c.reads + 1 })

end Clock

/-- Limits for one rule on one text. -/
structure Budget where
  maxSeconds : Option Float
  maxMatches : Option Int

/-- The limit that a rule went over. -/
inductive Overrun where
  | tooManyMatches (limit : Int)
  | tooLong (elapsed limit : Float)

def Overrun.message (title : String) : Overrun → String
  | tooManyMatches limit => s!"rule {Text.quoted title} produced more than {limit} matches"
  | tooLong elapsed limit =>
    s!"rule {Text.quoted title} ran for {Decimal.hundredths elapsed}s (limit {Decimal.hundredths limit}s)"

def Overrun.failure (title : String) (o : Overrun) : Failure := ⟨"RuleBudgetExceeded", o.message title⟩

namespace Budget

def none : Budget := ⟨.none, .none⟩

/-- Whether so many matches are too many. -/
def forbids (b : Budget) (count : Nat) : Option Overrun :=
  match b.maxMatches with
  | some limit => if limit < count then some (.tooManyMatches limit) else .none
  | .none => .none

/-- Looks at the number of matches, and at the clock if there is a limit of time and the number is allowed. -/
def check (b : Budget) (count : Nat) (started : Float) (clock : Clock) : Option Overrun × Clock :=
  match b.forbids count, b.maxSeconds with
  | some overrun, _ => (some overrun, clock)
  | .none, .none => (.none, clock)
  | .none, some limit =>
    let (now, clock) := clock.read
    if limit < now - started then (some (.tooLong (now - started) limit), clock) else (.none, clock)

end Budget

end ScriptAudit
