import Mathlib.Data.List.Basic
import ScriptAudit.Audit.Enumeration
import ScriptAudit.Proofs.Matching

namespace ScriptAudit

theorem Overrun.failure_ordinary (title : String) (o : Overrun) : (o.failure title).stops = false := by
  simp [Overrun.failure, Failure.stops, Failure.interrupts]

/-- Without a limit of time the clock is neither looked at nor changed. -/
theorem Budget.check_timeless {b : Budget} (hb : b.maxSeconds = .none) (count : Nat) (started : Float)
    (clock : Clock) : b.check count started clock = (b.forbids count, clock) := by
  unfold check
  rw [hb]
  cases b.forbids count <;> rfl

namespace Detector

variable (d : Detector) (text : Pattern.Subject)

theorem search_prefix : (d.search text).1 <+: d.pattern.program.spans text := by
  unfold search
  cases d.interruption with
  | none => exact List.prefix_refl _
  | some i => exact List.take_prefix _ _

theorem search_complete (h : (d.search text).2 = none) : (d.search text).1 = d.pattern.program.spans text := by
  unfold search at h ⊢
  cases hi : d.interruption with
  | none => rfl
  | some i => simp [hi] at h

theorem search_ordinary {failure : Failure} (h : (d.search text).2 = some failure) : failure.stops = false := by
  unfold search at h
  cases hi : d.interruption with
  | none => simp [hi] at h
  | some i =>
    simp only [hi, Option.some.injEq] at h
    exact h ▸ i.ordinary

end Detector

namespace Enumeration

variable {rule : Rule} {budget : Budget} {started : Float} {ending : Option Failure}
  {spans : List Pattern.Span} {count : Nat} {clock : Clock}

theorem handOut_stop {span : Pattern.Span} {overrun : Overrun} {after : Clock}
    (h : budget.check (count + 1) started clock = (some overrun, after)) :
    handOut rule budget started ending (span :: spans) none count clock =
      ⟨[], some (overrun.failure rule.title), after⟩ := by
  simp only [handOut, h]

theorem handOut_next {span : Pattern.Span} {after : Clock}
    (h : budget.check (count + 1) started clock = (none, after)) :
    handOut rule budget started ending (span :: spans) none count clock =
      { handOut rule budget started ending spans none (count + 1) after with
        spans := span :: (handOut rule budget started ending spans none (count + 1) after).spans } := by
  simp only [handOut, h, Option.map_none]

theorem handOut_prefix : (handOut rule budget started ending spans none count clock).spans <+: spans := by
  induction spans generalizing count clock with
  | nil => cases ending <;> exact List.prefix_refl _
  | cons span rest ih =>
    rcases h : budget.check (count + 1) started clock with ⟨_ | overrun, after⟩
    · rw [handOut_next h]
      exact List.cons_prefix_cons.mpr ⟨rfl, ih⟩
    · rw [handOut_stop h]
      exact List.nil_prefix

/-- An enumeration without a failure has handed out everything. -/
theorem handOut_complete (hnone : (handOut rule budget started ending spans none count clock).failure = none) :
    ending = none ∧ (handOut rule budget started ending spans none count clock).spans = spans := by
  induction spans generalizing count clock with
  | nil =>
    cases ending with
    | none => exact ⟨rfl, rfl⟩
    | some failure => exact absurd hnone (by simp [handOut])
  | cons span rest ih =>
    rcases h : budget.check (count + 1) started clock with ⟨_ | overrun, after⟩
    · rw [handOut_next h] at hnone ⊢
      obtain ⟨hending, hspans⟩ := ih hnone
      exact ⟨hending, congrArg (List.cons span) hspans⟩
    · rw [handOut_stop h] at hnone
      exact absurd hnone (by simp)

theorem handOut_ordinary (hending : ∀ failure, ending = some failure → failure.stops = false) {failure : Failure}
    (hsome : (handOut rule budget started ending spans none count clock).failure = some failure) :
    failure.stops = false := by
  induction spans generalizing count clock with
  | nil =>
    cases ending with
    | none =>
      obtain ⟨overrun, _, rfl⟩ := Option.map_eq_some_iff.mp hsome
      exact overrun.failure_ordinary rule.title
    | some first => exact hending failure hsome
  | cons span rest ih =>
    rcases h : budget.check (count + 1) started clock with ⟨_ | overrun, after⟩
    · rw [handOut_next h] at hsome
      exact ih hsome
    · rw [handOut_stop h, Option.some.injEq] at hsome
      exact hsome ▸ overrun.failure_ordinary rule.title

theorem handOut_unlimited : (handOut rule .none started none spans none count clock).failure = none := by
  induction spans generalizing count clock with
  | nil => rfl
  | cons span rest ih =>
    have hcheck : Budget.none.check (count + 1) started clock = (none, clock) := rfl
    rw [handOut_next hcheck]
    exact ih

/-- Without a limit of time the outcome is the same at every clock. -/
theorem handOut_timeless (hb : budget.maxSeconds = none) (started' : Float) (clock' : Clock) :
    (handOut rule budget started ending spans none count clock).failure =
        (handOut rule budget started' ending spans none count clock').failure ∧
      (handOut rule budget started ending spans none count clock).spans =
        (handOut rule budget started' ending spans none count clock').spans := by
  induction spans generalizing count with
  | nil =>
    cases ending with
    | none => simp [handOut, Budget.check_timeless hb]
    | some failure => exact ⟨rfl, rfl⟩
  | cons span rest ih =>
    have hcheck := Budget.check_timeless hb (count + 1)
    cases hf : budget.forbids (count + 1) with
    | none =>
      rw [hf] at hcheck
      rw [handOut_next (hcheck started clock), handOut_next (hcheck started' clock')]
      exact ⟨ih.1, congrArg (List.cons span) ih.2⟩
    | some overrun =>
      rw [hf] at hcheck
      rw [handOut_stop (hcheck started clock), handOut_stop (hcheck started' clock')]
      exact ⟨rfl, rfl⟩

end Enumeration

namespace Rule

variable (rule : Rule) (budget : Budget) (text : Pattern.Subject) (clock : Clock)

/-- All the matches of the pattern, whether or not the search for them can be finished. -/
abbrev spans : List Pattern.Span := rule.detector.pattern.program.spans text

theorem enumerate_prefix : (rule.enumerate budget none text clock).spans <+: rule.spans text :=
  Enumeration.handOut_prefix.trans (rule.detector.search_prefix text)

/-- A rule that is not given up has a search that comes to its end. -/
theorem search_of_enumerate (h : (rule.enumerate budget none text clock).failure = none) :
    (rule.detector.search text).1 = rule.spans text :=
  rule.detector.search_complete text (Enumeration.handOut_complete h).1

/-- A rule that is not given up finds all matches. -/
theorem enumerate_complete (h : (rule.enumerate budget none text clock).failure = none) :
    (rule.enumerate budget none text clock).spans = rule.spans text :=
  (Enumeration.handOut_complete h).2.trans (rule.search_of_enumerate budget text clock h)

theorem enumerate_ordinary {failure : Failure} (h : (rule.enumerate budget none text clock).failure = some failure) :
    failure.stops = false :=
  Enumeration.handOut_ordinary (fun _ hending => rule.detector.search_ordinary text hending) h

/-- Without limits, only an interruption makes a search fail. -/
theorem enumerate_unlimited (h : rule.detector.interruption = none) :
    (rule.enumerate .none none text clock).failure = none := by
  have hsearch : rule.detector.search text = (rule.spans text, none) := by rw [Detector.search, h]
  simp only [enumerate, reduceCtorEq, if_false, hsearch]
  exact Enumeration.handOut_unlimited

theorem enumerate_timeless (hb : budget.maxSeconds = none) (clock' : Clock) :
    (rule.enumerate budget none text clock).failure = (rule.enumerate budget none text clock').failure ∧
      (rule.enumerate budget none text clock).spans = (rule.enumerate budget none text clock').spans :=
  Enumeration.handOut_timeless hb _ _

end Rule

end ScriptAudit
