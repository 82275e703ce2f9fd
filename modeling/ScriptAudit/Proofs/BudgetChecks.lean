import ScriptAudit.Proofs.Isolation

namespace ScriptAudit

namespace Clock

/-- What the clock shows at its next reading, at the one after that, and so on. -/
def ahead (c : Clock) (i : Nat) : Float := c.reading (c.reads + i)

def after (c : Clock) (n : Nat) : Clock := { c with reads := c.reads + n }

end Clock

/-- A check of the budget that was made: for how many matches, and what it found to be over a limit. -/
@[ext] structure Check where
  count : Nat
  overrun : Option Overrun

namespace Budget

variable (b : Budget)

def TooMany (count : Nat) : Prop := ∃ limit ∈ b.maxMatches, limit < (count : Int)

def TooLong (elapsed : Float) : Prop := ∃ limit ∈ b.maxSeconds, limit < elapsed

instance (count : Nat) : Decidable (b.TooMany count) := inferInstanceAs (Decidable (∃ _ ∈ _, _))

/-- What a check comes to. That there are too many matches is said first. -/
def verdict (count : Nat) (elapsed : Float) : Option Overrun :=
  ((b.maxMatches.filter (· < (count : Int))).map .tooManyMatches).or
    ((b.maxSeconds.filter (· < elapsed)).map (.tooLong elapsed))

variable (clock : Clock) (total : Nat)

/-- The checks of a search with `total` matches are numbered from one on: one for each match, and one at the end. The
clock is read once before the first of them, and check `i` goes by reading `i`. Nothing is assumed of the readings or of
their differences. -/
def checkAt (i : Nat) : Check := ⟨min i total, b.verdict (min i total) (clock.ahead i - clock.ahead 0)⟩

def Fails (i : Nat) : Prop := b.TooMany (min i total) ∨ b.TooLong (clock.ahead i - clock.ahead 0)

def firstChecks (n : Nat) : List Check := (List.range' 1 n).map (b.checkAt clock total)

/-- How often the clock has been read before the check of a number, if the checks before it have passed. -/
def readsBefore (i : Nat) : Nat := if b.maxSeconds.isSome then i else 1

variable {b clock total}

theorem verdict_isSome_iff {count : Nat} {elapsed : Float} :
    (b.verdict count elapsed).isSome ↔ b.TooMany count ∨ b.TooLong elapsed := by
  simp only [verdict, TooMany, TooLong, Option.isSome_or, Option.isSome_map, Option.isSome_filter, Bool.or_eq_true,
    Option.any_eq_true, Option.mem_def, decide_eq_true_eq]

theorem forbids_eq (count : Nat) :
    b.forbids count = (b.maxMatches.filter (· < (count : Int))).map .tooManyMatches := by
  unfold forbids
  cases b.maxMatches with
  | none => rfl
  | some limit =>
    by_cases hlimit : limit < count
    · simp [Option.filter_some, hlimit]
    · simp [Option.filter_some, hlimit]

/-- A step of the checks: the check of a number comes out as numbered, and it reads the clock only if there is a limit of
time and the matches are not too many. -/
theorem check_numbered (i : Nat) :
    b.check (min i total) (clock.ahead 0) (clock.after (b.readsBefore i)) =
      ((b.checkAt clock total i).overrun,
        clock.after (if b.TooMany (min i total) then b.readsBefore i else b.readsBefore (i + 1))) := by
  have hmany : (b.forbids (min i total)).isSome ↔ b.TooMany (min i total) := by
    simp only [forbids_eq, TooMany, Option.isSome_map, Option.isSome_filter, Option.any_eq_true, Option.mem_def,
      decide_eq_true_eq]
  rw [checkAt, verdict, ← forbids_eq, check]
  cases hforbids : b.forbids (min i total) with
  | some overrun =>
    rw [hforbids] at hmany
    rw [if_pos (hmany.mp rfl), Option.some_or]
  | none =>
    rw [hforbids] at hmany
    rw [if_neg fun h => Bool.false_ne_true (hmany.mpr h), Option.none_or, readsBefore, readsBefore]
    cases b.maxSeconds with
    | none => rfl
    | some limit =>
      have hread : (clock.after i).read = (clock.ahead i, clock.after (i + 1)) := rfl
      simp only [Option.isSome_some, if_true, hread]
      by_cases hlong : limit < clock.ahead i - clock.ahead 0
      · simp [Option.filter_some, hlong]
      · simp [Option.filter_some, hlong]

theorem overrun_isSome_iff {i : Nat} : (b.checkAt clock total i).overrun.isSome ↔ b.Fails clock total i :=
  verdict_isSome_iff

theorem checkAt_of_passing {i : Nat} (h : ¬b.Fails clock total i) :
    b.checkAt clock total i = ⟨min i total, .none⟩ := by
  have hnone : (b.checkAt clock total i).overrun = .none := by
    rw [← Option.not_isSome_iff_eq_none, overrun_isSome_iff]
    exact h
  exact congrArg (Check.mk _) hnone

theorem check_of_passing {i : Nat} (h : ¬b.Fails clock total i) :
    b.check (min i total) (clock.ahead 0) (clock.after (b.readsBefore i)) =
      (.none, clock.after (b.readsBefore (i + 1))) := by
  rw [check_numbered, checkAt_of_passing h, if_neg fun hmany => h (.inl hmany)]

/-- Of the checks up to the first that fails, each reads the clock if there is a limit of time, unless it is of too many
matches. -/
theorem reads_of_passing {n : Nat} (hpass : ∀ i, 1 ≤ i → i ≤ n → ¬b.Fails clock total i) :
    (if b.TooMany (min (n + 1) total) then b.readsBefore (n + 1) else b.readsBefore (n + 2)) =
      1 + if b.maxSeconds.isSome then
        (b.firstChecks clock total (n + 1)).countP fun check => ¬b.TooMany check.count else 0 := by
  have hall : ∀ check ∈ b.firstChecks clock total n, ¬b.TooMany check.count := by
    intro check hcheck
    obtain ⟨i, hi, rfl⟩ := List.mem_map.mp hcheck
    rw [List.mem_range'_1] at hi
    exact fun hmany => hpass i hi.1 (by omega) (.inl hmany)
  have hbefore : (b.firstChecks clock total n).countP (fun check => ¬b.TooMany check.count) = n := by
    rw [List.countP_eq_length.mpr (by simpa using hall), firstChecks, List.length_map, List.length_range']
  have hsplit : b.firstChecks clock total (n + 1) = b.firstChecks clock total n ++ [b.checkAt clock total (n + 1)] := by
    rw [firstChecks, List.range'_1_concat, List.map_append, Nat.add_comm 1 n]
    rfl
  have hcount : (b.checkAt clock total (n + 1)).count = min (n + 1) total := rfl
  rw [hsplit, List.countP_append, hbefore, List.countP_singleton, hcount, readsBefore, readsBefore]
  cases b.maxSeconds with
  | none => simp
  | some limit =>
    by_cases hmany : b.TooMany (min (n + 1) total)
    · simp [hmany, Nat.add_comm]
    · simp [hmany]
      omega

/-- Of the first `n` checks, those before the first that fails. -/
theorem exists_passing (b : Budget) (clock : Clock) (total n : Nat) :
    ∃ m ≤ n, (∀ i, 1 ≤ i → i ≤ m → ¬b.Fails clock total i) ∧ (m < n → b.Fails clock total (m + 1)) := by
  induction n with
  | zero => exact ⟨0, Nat.le_refl 0, fun i hlow hhigh => by omega, fun h => by omega⟩
  | succ n ih =>
    obtain ⟨m, hm, hpass, hfail⟩ := ih
    by_cases hlast : m = n ∧ ¬b.Fails clock total (n + 1)
    · obtain ⟨rfl, hnext⟩ := hlast
      refine ⟨m + 1, Nat.le_refl _, fun i hlow hhigh => ?_, fun h => by omega⟩
      rcases Nat.lt_or_eq_of_le hhigh with hlt | rfl
      · exact hpass i hlow (by omega)
      · exact hnext
    · refine ⟨m, by omega, hpass, fun _ => ?_⟩
      rcases Nat.lt_or_eq_of_le hm with hlt | rfl
      · exact hfail hlt
      · exact Classical.not_not.mp fun hnext => hlast ⟨rfl, hnext⟩

end Budget

namespace Enumeration

/-- How a search that comes to its end hands out its matches, after `count` of them and at most `wanted` more, with the
checks that are made on the way. -/
inductive HandsOut (rule : Rule) (budget : Budget) (started : Float) :
    List Pattern.Span → Option Nat → Nat → Clock → List Check → Enumeration → Prop
  | satisfied {spans : List Pattern.Span} {count : Nat} {clock : Clock} :
      HandsOut rule budget started spans (some 0) count clock [] ⟨[], none, clock⟩
  | ended {wanted : Option Nat} {count : Nat} {clock after : Clock} {overrun : Option Overrun}
      (more : wanted ≠ some 0) (check : budget.check count started clock = (overrun, after)) :
      HandsOut rule budget started [] wanted count clock [⟨count, overrun⟩]
        ⟨[], overrun.map (·.failure rule.title), after⟩
  | refused {span : Pattern.Span} {rest : List Pattern.Span} {wanted : Option Nat} {count : Nat}
      {clock after : Clock} {overrun : Overrun} (more : wanted ≠ some 0)
      (check : budget.check (count + 1) started clock = (some overrun, after)) :
      HandsOut rule budget started (span :: rest) wanted count clock [⟨count + 1, some overrun⟩]
        ⟨[], some (overrun.failure rule.title), after⟩
  | granted {span : Pattern.Span} {rest : List Pattern.Span} {wanted : Option Nat} {count : Nat}
      {clock after : Clock} {checks : List Check} {later : Enumeration} (more : wanted ≠ some 0)
      (check : budget.check (count + 1) started clock = (none, after))
      (next : HandsOut rule budget started rest (wanted.map (· - 1)) (count + 1) after checks later) :
      HandsOut rule budget started (span :: rest) wanted count clock (⟨count + 1, none⟩ :: checks)
        { later with spans := span :: later.spans }

variable {rule : Rule} {budget : Budget}

namespace HandsOut

variable {started : Float} {spans : List Pattern.Span} {wanted : Option Nat} {count : Nat} {clock : Clock}
  {checks checks' : List Check} {e e' : Enumeration}

theorem eq_handOut (h : HandsOut rule budget started spans wanted count clock checks e) :
    e = handOut rule budget started none spans wanted count clock := by
  induction h with
  | satisfied => rw [handOut]
  | ended more check =>
    rw [handOut, check]
    exact more
  | refused more check =>
    rw [handOut, check]
    exact more
  | granted more check next ih =>
    rw [handOut, check, ih]
    exact more

theorem checks_unique (h : HandsOut rule budget started spans wanted count clock checks e)
    (h' : HandsOut rule budget started spans wanted count clock checks' e') : checks = checks' := by
  induction h generalizing checks' e' with
  | satisfied =>
    cases h' with
    | satisfied => rfl
    | ended more | refused more | granted more => exact absurd rfl more
  | ended more check =>
    cases h' with
    | satisfied => exact absurd rfl more
    | ended _ check' => rw [(Prod.mk.inj (check.symm.trans check')).1]
  | refused more check =>
    cases h' with
    | satisfied => exact absurd rfl more
    | refused _ check' => rw [(Prod.mk.inj (check.symm.trans check')).1]
    | granted _ check' => simp [check] at check'
  | granted more check next ih =>
    cases h' with
    | satisfied => exact absurd rfl more
    | refused _ check' => simp [check] at check'
    | granted _ check' next' =>
      rw [check] at check'
      cases check'
      rw [ih next']

end HandsOut

section Numbered

variable {clock : Clock} {total : Nat} {spans : List Pattern.Span} {wanted : Option Nat} {count : Nat}

/-- As long as checks pass, each of them gives out one match and leads to the next. -/
theorem HandsOut.of_passing {n : Nat} {checks : List Check} {e : Enumeration} (htotal : count + spans.length = total)
    (hn : n ≤ spans.length) (hpass : ∀ i, count < i → i ≤ count + n → ¬budget.Fails clock total i)
    (h : HandsOut rule budget (clock.ahead 0) (spans.drop n) wanted (count + n)
      (clock.after (budget.readsBefore (count + n + 1))) checks e) :
    HandsOut rule budget (clock.ahead 0) spans (wanted.map (· + n)) count
      (clock.after (budget.readsBefore (count + 1)))
      ((List.range' (count + 1) n).map (budget.checkAt clock total) ++ checks)
      { e with spans := spans.take n ++ e.spans } := by
  induction n generalizing spans count with
  | zero => simpa using h
  | succ n ih =>
    obtain ⟨span, rest, rfl⟩ := List.exists_cons_of_length_pos (Nat.zero_lt_of_lt hn)
    rw [List.length_cons] at htotal hn
    have hfirst : ¬budget.Fails clock total (count + 1) := hpass (count + 1) (by omega) (by omega)
    have hmin : min (count + 1) total = count + 1 := by omega
    have hcheck := Budget.check_of_passing hfirst
    have hnote := Budget.checkAt_of_passing hfirst
    rw [hmin] at hcheck hnote
    have hrest : HandsOut rule budget (clock.ahead 0) (rest.drop n) wanted (count + 1 + n)
        (clock.after (budget.readsBefore (count + 1 + n + 1))) checks e := by
      rw [show count + 1 + n = count + (n + 1) by omega]
      exact h
    have hlater := ih (by omega) (by omega) (fun i hlow hhigh => hpass i (by omega) (by omega)) hrest
    have hmore : wanted.map (· + (n + 1)) ≠ some 0 := by cases wanted <;> simp
    have hwanted : (wanted.map (· + (n + 1))).map (· - 1) = wanted.map (· + n) := by cases wanted <;> simp
    rw [← hwanted] at hlater
    rw [List.range'_succ, List.map_cons, hnote]
    exact .granted hmore hcheck hlater

/-- If the matches asked for are handed out, the checks that follow are not made. -/
theorem handsOut_satisfied (rule : Rule) {k : Nat} (hk : k ≤ spans.length)
    (hpass : ∀ i, 1 ≤ i → i ≤ k → ¬budget.Fails clock spans.length i) :
    HandsOut rule budget (clock.ahead 0) spans (some k) 0 (clock.after 1) (budget.firstChecks clock spans.length k)
      ⟨spans.take k, none, clock.after (budget.readsBefore (k + 1))⟩ := by
  have hstop : HandsOut rule budget (clock.ahead 0) (spans.drop k) (some 0) (0 + k)
      (clock.after (budget.readsBefore (0 + k + 1))) [] ⟨[], none, clock.after (budget.readsBefore (k + 1))⟩ := by
    rw [Nat.zero_add]
    exact .satisfied
  have hrun := HandsOut.of_passing (Nat.zero_add _) hk (fun i hlow hhigh => hpass i hlow (by omega)) hstop
  simpa [Budget.readsBefore, Budget.firstChecks] using hrun

/-- The check that ends the search, either because it fails or because no match is left. -/
theorem handsOut_last (rule : Rule) {n : Nat} (hn : n ≤ spans.length)
    (hfail : n < spans.length → budget.Fails clock spans.length (n + 1)) (hmore : wanted ≠ some 0) :
    HandsOut rule budget (clock.ahead 0) (spans.drop n) wanted n (clock.after (budget.readsBefore (n + 1)))
      [budget.checkAt clock spans.length (n + 1)]
      ⟨[], (budget.checkAt clock spans.length (n + 1)).overrun.map (·.failure rule.title),
        clock.after (if budget.TooMany (min (n + 1) spans.length) then budget.readsBefore (n + 1)
          else budget.readsBefore (n + 2))⟩ := by
  have hcheck : budget.check (min (n + 1) spans.length) (clock.ahead 0)
      (clock.after (budget.readsBefore (n + 1))) = _ := Budget.check_numbered (n + 1)
  rcases Nat.lt_or_eq_of_le hn with hlt | heq
  · obtain ⟨overrun, hoverrun⟩ := Option.isSome_iff_exists.mp (Budget.overrun_isSome_iff.mpr (hfail hlt))
    have hmin : min (n + 1) spans.length = n + 1 := by omega
    have hnote : budget.checkAt clock spans.length (n + 1) = ⟨n + 1, some overrun⟩ := Check.ext hmin hoverrun
    rw [List.drop_eq_getElem_cons hlt]
    rw [hmin, hoverrun] at hcheck
    rw [hnote, hmin]
    exact .refused hmore hcheck
  · have hmin : min (n + 1) spans.length = n := by omega
    have hnote : budget.checkAt clock spans.length (n + 1) =
        ⟨n, (budget.checkAt clock spans.length (n + 1)).overrun⟩ := Check.ext hmin rfl
    rw [List.drop_of_length_le heq.ge]
    rw [hmin] at hcheck ⊢
    nth_rw 1 [hnote]
    exact .ended hmore hcheck

/-- If more matches are asked for than pass their checks, the check after those is the last one. -/
theorem handsOut_checked (rule : Rule) {n : Nat} (hn : n ≤ spans.length)
    (hpass : ∀ i, 1 ≤ i → i ≤ n → ¬budget.Fails clock spans.length i)
    (hfail : n < spans.length → budget.Fails clock spans.length (n + 1)) (wanted : Option Nat)
    (hwanted : ∀ k ∈ wanted, n < k) :
    HandsOut rule budget (clock.ahead 0) spans wanted 0 (clock.after 1)
      (budget.firstChecks clock spans.length (n + 1))
      ⟨spans.take n, (budget.checkAt clock spans.length (n + 1)).overrun.map (·.failure rule.title),
        clock.after (if budget.TooMany (min (n + 1) spans.length) then budget.readsBefore (n + 1)
          else budget.readsBefore (n + 2))⟩ := by
  obtain ⟨left, hmore, hleft⟩ : ∃ left : Option Nat, left ≠ some 0 ∧ left.map (· + n) = wanted := by
    cases wanted with
    | none => exact ⟨none, by simp, rfl⟩
    | some k =>
      have hk : n < k := hwanted k rfl
      exact ⟨some (k - n), by simp; omega, by simp; omega⟩
  have hlast := handsOut_last rule hn hfail hmore
  have hrun := HandsOut.of_passing (Nat.zero_add _) hn (fun i hlow hhigh => hpass i hlow (by omega))
    (by rw [Nat.zero_add n]; exact hlast)
  rw [hleft] at hrun
  simpa [Budget.readsBefore, Budget.firstChecks, List.range'_1_concat, Nat.add_comm 1 n] using hrun

end Numbered

end Enumeration

namespace Rule

/-- How matches of a rule whose search comes to its end are asked for, with the checks that are made. Before the first
of them the clock is read; if none is asked for, nothing is done. -/
inductive Consumes (rule : Rule) (budget : Budget) (text : Pattern.Subject) (clock : Clock) :
    Option Nat → List Check → Enumeration → Prop
  | unasked : Consumes rule budget text clock (some 0) [] ⟨[], none, clock⟩
  | asked {wanted : Option Nat} {spans : List Pattern.Span} {checks : List Check} {e : Enumeration}
      (more : wanted ≠ some 0) (search : rule.detector.search text = (spans, none))
      (handsOut : Enumeration.HandsOut rule budget clock.read.1 spans wanted 0 clock.read.2 checks e) :
      Consumes rule budget text clock wanted checks e

/-- What becomes of the matches of a search under a budget, if `handed` of them pass their checks before one fails or the
search ends. -/
structure Governed (rule : Rule) (budget : Budget) (text : Pattern.Subject) (clock : Clock)
    (spans : List Pattern.Span) (handed : Nat) : Prop where
  /-- The first check of a match that fails is the one after `handed` matches. -/
  passed : ∀ i, 1 ≤ i → i ≤ handed → ¬budget.Fails clock spans.length i
  stopped : handed < spans.length → budget.Fails clock spans.length (handed + 1)
  handedOut : (rule.enumerate budget none text clock).spans = spans.take handed
  /-- There is a failure exactly if a check fails, be it the last one. -/
  failure : (rule.enumerate budget none text clock).failure.isSome ↔
    ∃ i, 1 ≤ i ∧ i ≤ spans.length + 1 ∧ budget.Fails clock spans.length i
  kind : ∀ f ∈ (rule.enumerate budget none text clock).failure, f.kind = "RuleBudgetExceeded"
  /-- The checks of the matches handed out are made, and one more. -/
  checks : ∀ made e, rule.Consumes budget text clock none made e ↔
    made = budget.firstChecks clock spans.length (handed + 1) ∧ e = rule.enumerate budget none text clock
  /-- Each of them reads the clock, if there is a limit of time, unless there are too many matches. -/
  readings : (rule.enumerate budget none text clock).clock =
    clock.after (1 + if budget.maxSeconds.isSome then
      (budget.firstChecks clock spans.length (handed + 1)).countP fun check => ¬budget.TooMany check.count else 0)
  /-- If only some of these matches are asked for, no other checks are made than theirs. -/
  early : ∀ k ≤ handed,
    (∀ made e, rule.Consumes budget text clock (some k) made e ↔
      made = budget.firstChecks clock spans.length k ∧ e = rule.enumerate budget (some k) text clock) ∧
    rule.enumerate budget (some k) text clock =
      ⟨spans.take k, none, clock.after (if k = 0 then 0 else 1 + if budget.maxSeconds.isSome then k else 0)⟩
  /-- If more matches are asked for, it is as if all were. -/
  late : ∀ k, handed < k → rule.enumerate budget (some k) text clock = rule.enumerate budget none text clock

section Search

variable {rule : Rule} {budget : Budget} {text : Pattern.Subject} {clock : Clock} {spans : List Pattern.Span}
  (hsearch : rule.detector.search text = (spans, none))

include hsearch

theorem enumerate_of_handsOut {wanted : Option Nat} {checks : List Check} {e : Enumeration} (hmore : wanted ≠ some 0)
    (h : Enumeration.HandsOut rule budget (clock.ahead 0) spans wanted 0 (clock.after 1) checks e) :
    rule.enumerate budget wanted text clock = e := by
  rw [h.eq_handOut, enumerate, if_neg hmore, hsearch]
  rfl

theorem consumes_iff {wanted : Option Nat} {checks : List Check} {e : Enumeration} (hmore : wanted ≠ some 0)
    (h : Enumeration.HandsOut rule budget (clock.ahead 0) spans wanted 0 (clock.after 1) checks e)
    (made : List Check) (result : Enumeration) :
    rule.Consumes budget text clock wanted made result ↔
      made = checks ∧ result = rule.enumerate budget wanted text clock := by
  constructor
  · intro hconsumes
    cases hconsumes with
    | unasked => exact absurd rfl hmore
    | asked _ search handsOut =>
      cases hsearch.symm.trans search
      exact ⟨handsOut.checks_unique h, (enumerate_of_handsOut hsearch hmore handsOut).symm⟩
  · rintro ⟨rfl, rfl⟩
    rw [enumerate_of_handsOut hsearch hmore h]
    exact .asked hmore hsearch h

section Passing

variable {n : Nat} (hn : n ≤ spans.length) (hpass : ∀ i, 1 ≤ i → i ≤ n → ¬budget.Fails clock spans.length i)
  (hfail : n < spans.length → budget.Fails clock spans.length (n + 1))

include hn hpass hfail

theorem enumerate_of_passing (wanted : Option Nat) (hwanted : ∀ k ∈ wanted, n < k) :
    rule.enumerate budget wanted text clock =
      ⟨spans.take n, (budget.checkAt clock spans.length (n + 1)).overrun.map (·.failure rule.title),
        clock.after (if budget.TooMany (min (n + 1) spans.length) then budget.readsBefore (n + 1)
          else budget.readsBefore (n + 2))⟩ := by
  have hmore : wanted ≠ some 0 := fun h => Nat.not_lt_zero n (hwanted 0 h)
  exact enumerate_of_handsOut hsearch hmore (Enumeration.handsOut_checked rule hn hpass hfail wanted hwanted)

/-- There is a failure exactly if a check fails, though it may be one that is not made any more. -/
theorem failure_of_passing : (rule.enumerate budget none text clock).failure.isSome ↔
    ∃ i, 1 ≤ i ∧ i ≤ spans.length + 1 ∧ budget.Fails clock spans.length i := by
  have hlast : (rule.enumerate budget none text clock).failure.isSome ↔ budget.Fails clock spans.length (n + 1) := by
    rw [enumerate_of_passing hsearch hn hpass hfail none (by simp), Option.isSome_map, Budget.overrun_isSome_iff]
  rw [hlast]
  constructor
  · intro h
    exact ⟨n + 1, by omega, by omega, h⟩
  · rintro ⟨i, hlow, hhigh, h⟩
    have hafter : n < i := Nat.lt_of_not_le fun hle => hpass i hlow hle h
    rcases Nat.lt_or_eq_of_le hn with hlt | rfl
    · exact hfail hlt
    · rwa [show spans.length + 1 = i by omega]

end Passing

/-- The checks of the matches that are asked for are made, and no other. -/
theorem early_of_passing {k : Nat} (hk : k ≤ spans.length)
    (hpass : ∀ i, 1 ≤ i → i ≤ k → ¬budget.Fails clock spans.length i) :
    (∀ made e, rule.Consumes budget text clock (some k) made e ↔
      made = budget.firstChecks clock spans.length k ∧ e = rule.enumerate budget (some k) text clock) ∧
    rule.enumerate budget (some k) text clock =
      ⟨spans.take k, none, clock.after (if k = 0 then 0 else 1 + if budget.maxSeconds.isSome then k else 0)⟩ := by
  rcases Nat.eq_zero_or_pos k with rfl | hpos
  · have hnothing : rule.enumerate budget (some 0) text clock = ⟨[], none, clock⟩ := by rw [enumerate, if_pos rfl]
    refine ⟨fun made e => ⟨fun hconsumes => ?_, ?_⟩, hnothing⟩
    · cases hconsumes with
      | unasked => exact ⟨rfl, hnothing.symm⟩
      | asked more => exact absurd rfl more
    · rintro ⟨rfl, rfl⟩
      rw [hnothing]
      exact .unasked
  · have hmore : some k ≠ some 0 := fun h => hpos.ne' (Option.some.inj h)
    have hsatisfied := Enumeration.handsOut_satisfied rule hk hpass
    have hreads : budget.readsBefore (k + 1) = 1 + if budget.maxSeconds.isSome then k else 0 := by
      rw [Budget.readsBefore]
      split_ifs
      · exact Nat.add_comm k 1
      · rfl
    refine ⟨consumes_iff hsearch hmore hsatisfied, ?_⟩
    rw [enumerate_of_handsOut hsearch hmore hsatisfied, if_neg hpos.ne', hreads]

end Search

/-- A budget is enforced by checks, one for each match and one at the end. The matches before the first check that fails
are handed out, there is a failure exactly if there is such a check, and as many checks are made and the clock is read
as often as this takes. -/
theorem enumerate_governed {rule : Rule} (budget : Budget) {text : Pattern.Subject} (clock : Clock)
    {spans : List Pattern.Span} (hsearch : rule.detector.search text = (spans, none)) :
    ∃ handed ≤ spans.length, rule.Governed budget text clock spans handed := by
  obtain ⟨n, hn, hpass, hfail⟩ := budget.exists_passing clock spans.length spans.length
  have hwhole := enumerate_of_passing hsearch hn hpass hfail none (by simp)
  have hchecks := Enumeration.handsOut_checked rule hn hpass hfail none (by simp)
  refine ⟨n, hn, hpass, hfail, ?_, failure_of_passing hsearch hn hpass hfail, ?_, ?_, ?_, ?_, ?_⟩
  · rw [hwhole]
  · intro f hf
    rw [hwhole] at hf
    obtain ⟨overrun, _, rfl⟩ := Option.map_eq_some_iff.mp hf
    rfl
  · exact consumes_iff hsearch (by simp) hchecks
  · rw [hwhole, Budget.reads_of_passing hpass]
  · intro k hk
    exact early_of_passing hsearch (hk.trans hn) fun i hlow hhigh => hpass i hlow (hhigh.trans hk)
  · intro k hk
    rw [hwhole, enumerate_of_passing hsearch hn hpass hfail (some k) (by simpa using hk)]

def letter : Rule :=
  ⟨⟨⟨"b", {}, ⟨.char (.code .exact 98), 0⟩, by decide⟩, none⟩, "letter", "A letter.", .low, "None."⟩

/-- Whatever the clock shows, no more than one match passes its check. -/
theorem enumerate_governed_of_two_letters :
    letter.detector.search #['b', 'b'] = ([⟨0, 1⟩, ⟨1, 2⟩], none) ∧
    ∃ handed ≤ 1, letter.Governed ⟨some 5.0, some 1⟩ #['b', 'b'] (.ofReadings [0.0, 1.0, 9.0]) [⟨0, 1⟩, ⟨1, 2⟩]
      handed := by
  have hsearch : letter.detector.search #['b', 'b'] = ([⟨0, 1⟩, ⟨1, 2⟩], none) := rfl
  obtain ⟨handed, _, h⟩ := enumerate_governed ⟨some 5.0, some 1⟩ (.ofReadings [0.0, 1.0, 9.0]) hsearch
  have hone : handed ≤ 1 := by
    by_contra hmore
    exact h.passed 2 (by decide) (by omega) (.inl ⟨1, rfl, by decide⟩)
  exact ⟨hsearch, handed, hone, h⟩

end Rule

end ScriptAudit
