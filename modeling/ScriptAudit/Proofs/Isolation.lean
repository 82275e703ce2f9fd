import ScriptAudit.Proofs.Discovery

namespace ScriptAudit

/-- The failure that ends the search for the matches of a rule, if one does. -/
def Rule.failure? (rule : Rule) (budget : Budget) (text : List Char) (clock : Clock) : Option Failure :=
  (rule.enumerate budget none text.toArray clock).failure

section Timeless

variable {budget : Budget} (hb : budget.maxSeconds = none) (text : List Char) (file : Option String)

include hb

theorem Run.findings_timeless (clock clock' : Clock) (entry : String × Rule) :
    (start budget text clock entry).findings text file = (start budget text clock' entry).findings text file := by
  have h := (entry.2.enumerate_timeless budget text.toArray clock hb clock').1
  simp only [findings, start, h]

theorem Run.skipped?_timeless (clock clock' : Clock) (entry : String × Rule) :
    (start budget text clock entry).skipped? file = (start budget text clock' entry).skipped? file := by
  have h := (entry.2.enumerate_timeless budget text.toArray clock hb clock').1
  simp only [skipped?, start, h]

omit hb in
/-- What does not depend on the clock can be read off each rule alone. -/
theorem runs_map {β : Type} {g : Run → β}
    (hg : ∀ clock clock' entry, g (Run.start budget text clock entry) = g (Run.start budget text clock' entry))
    (entries : List (String × Rule)) (clock start : Clock) :
    (runs budget text entries clock).map g = entries.map fun entry => g (Run.start budget text start entry) := by
  induction entries generalizing clock with
  | nil => rfl
  | cons entry rest ih => rw [runs, List.map_cons, List.map_cons, ih, hg clock start]

theorem Catalog.discoveries_timeless (c : Catalog) (clock start : Clock) :
    c.discoveries text file budget clock =
      c.entries.flatMap fun entry => (Run.start budget text start entry).findings text file := by
  rw [discoveries, List.flatMap_def, runs, runs_map text (Run.findings_timeless hb text file) c.entries clock start,
    List.flatMap_def]

theorem Catalog.skipped_timeless (c : Catalog) (clock start : Clock) :
    (c.runs budget text clock).filterMap (·.skipped? file) =
      c.entries.filterMap fun entry => (Run.start budget text start entry).skipped? file := by
  have h := congrArg (List.filterMap id)
    (runs_map text (Run.skipped?_timeless hb text file) c.entries clock start)
  simpa only [List.filterMap_map, Function.id_comp, runs] using h

end Timeless

theorem Run.category_of_mem_findings {budget : Budget} {text : List Char} {file : Option String} {clock : Clock}
    {entry : String × Rule} {f : Finding} (h : f ∈ (start budget text clock entry).findings text file) :
    f.category = entry.1 := by
  obtain ⟨_, span, _, rfl⟩ := mem_findings.mp h
  rfl

/-- The findings of a category are those of its rules. -/
theorem flatMap_filter_category {entries : List (String × Rule)} {found : String × Rule → List Finding}
    (h : ∀ entry, ∀ f ∈ found entry, f.category = entry.1) (name : String) :
    (entries.flatMap found).filter (·.category = name) = (entries.filter (·.1 = name)).flatMap found :=
  flatMap_filter_key h name

namespace Catalog

/-- Added rules never displace a finding. Of theirs, those are reported that the catalog alone does not know, as if the
added rules were alone. -/
theorem audit_merged_keeps_findings {c : Catalog} (hc : c.Reachable) (d : Catalog) (text : List Char)
    (file : Option String) {budget : Budget} (hb : budget.maxSeconds = none) (clock₁ clock₂ clock₃ : Clock) :
    ∃ own added both after₁ after₂ after₃,
      c.audit text file budget clock₁ = .ok (own, after₁) ∧
      d.audit text file budget clock₂ = .ok (added, after₂) ∧
      (c.merged d).audit text file budget clock₃ = .ok (both, after₃) ∧
      own.findings.Sublist both.findings ∧
      both.findings.filter (fun f => f.identity ∈ own.findings.map Finding.identity) = own.findings ∧
      both.findings.filter (fun f => f.identity ∉ own.findings.map Finding.identity) =
        added.findings.filter (fun f => f.identity ∉ own.findings.map Finding.identity) ∧
      own.skipped.Sublist both.skipped := by
  obtain ⟨after₁, hown⟩ := c.audit_eq text file budget clock₁
  obtain ⟨after₂, hadded⟩ := d.audit_eq text file budget clock₂
  obtain ⟨after₃, hboth⟩ := (c.merged d).audit_eq text file budget clock₃
  refine ⟨_, _, _, after₁, after₂, after₃, hown, hadded, hboth, ?_⟩
  -- Rules of `d` may run before rules of `c`, but never in front of those of their own category.
  have hcategory (name : String) :
      ((c.merged d).discoveries text file budget clock₃).filter (·.category = name) =
        (c.discoveries text file budget clock₁).filter (·.category = name) ++
          (d.discoveries text file budget clock₂).filter (·.category = name) := by
    simp only [discoveries_timeless hb text file _ _ clock₁]
    rw [flatMap_filter_category fun _ _ => Run.category_of_mem_findings,
      flatMap_filter_category fun _ _ => Run.category_of_mem_findings,
      flatMap_filter_category fun _ _ => Run.category_of_mem_findings,
      entries_merged_filter hc.names_nodup, List.flatMap_append]
  obtain ⟨hkept, hnew⟩ := Finding.ranked_firsts_of_category_append hcategory
  simp only [Gathering.report, Finding.mem_identities_ranked_firsts]
  refine ⟨hkept ▸ List.filter_sublist, hkept, hnew, ?_⟩
  split_ifs
  · exact List.Sublist.refl _
  · rw [skipped_timeless hb text file c clock₁ clock₁, skipped_timeless hb text file (c.merged d) clock₃ clock₁]
    exact (entries_sublist_merged c d).filterMap _

/-- A catalog of rules that look for the letter `a` and differ in how grave they are and in how they fail. -/
def lettersOf (kinds : List (Severity × Option Interruption)) : Catalog :=
  ⟨[⟨"letters", kinds.map fun (severity, interruption) =>
    ⟨⟨⟨"a", {}, ⟨.char (.code .exact 97), 0⟩, by decide⟩, interruption⟩, "letter", "A letter.", severity, "None."⟩⟩]⟩

/-- A graver rule with the same title does not displace the finding of the rule that was there first. -/
theorem audit_merged_keeps_findings_of_graver_rule :
    (lettersOf [(.low, none)]).Reachable ∧ Budget.none.maxSeconds = none ∧
    ∃ own added both after₁ after₂ after₃,
      (lettersOf [(.low, none)]).audit ['a'] none .none (.ofReadings []) = .ok (own, after₁) ∧
      (lettersOf [(.high, none)]).audit ['a'] none .none (.ofReadings []) = .ok (added, after₂) ∧
      ((lettersOf [(.low, none)]).merged (lettersOf [(.high, none)])).audit ['a'] none .none (.ofReadings []) =
        .ok (both, after₃) ∧
      own.findings.Sublist both.findings ∧
      both.findings.filter (fun f => f.identity ∈ own.findings.map Finding.identity) = own.findings ∧
      both.findings.filter (fun f => f.identity ∉ own.findings.map Finding.identity) =
        added.findings.filter (fun f => f.identity ∉ own.findings.map Finding.identity) ∧
      own.skipped.Sublist both.skipped := by
  have hc : (lettersOf [(.low, none)]).Reachable :=
    @Reachable.ofEntries ((lettersOf [(.low, none)]).categories.map Category.toEntry) _ (List.nodup_singleton _) rfl
  exact ⟨hc, rfl, audit_merged_keeps_findings hc _ _ _ rfl _ _ _⟩

/-- The catalog without the rules that fail a test; the categories stay. -/
def keep (c : Catalog) (test : Rule → Bool) : Catalog :=
  ⟨c.categories.map fun category => ⟨category.name, category.rules.filter test⟩⟩

theorem entries_keep (c : Catalog) (test : Rule → Bool) :
    (c.keep test).entries = c.entries.filter fun entry => test entry.2 := by
  obtain ⟨categories⟩ := c
  induction categories with
  | nil => rfl
  | cons category rest ih =>
    rw [entries_cons, List.filter_append, ← ih, List.filter_map]
    rfl

/-- Rules that fail add nothing, so that leaving them out changes nothing. -/
theorem discoveries_keep {budget : Budget} (hb : budget.maxSeconds = none) (text : List Char) (file : Option String)
    (c : Catalog) (clock clock' start : Clock) :
    (c.keep fun rule => (rule.failure? budget text start).isNone).discoveries text file budget clock' =
      c.discoveries text file budget clock := by
  rw [discoveries_timeless hb text file _ clock' start, discoveries_timeless hb text file _ clock start, entries_keep]
  induction c.entries with
  | nil => rfl
  | cons entry rest ih =>
    rw [List.flatMap_cons, ← ih]
    cases hfails : entry.2.failure? budget text start with
    | none => rw [List.filter_cons_of_pos (by simp [hfails]), List.flatMap_cons]
    | some failure =>
      have hnothing : (Run.start budget text start entry).findings text file = [] := by
        rw [Run.findings, Run.start, show (entry.2.enumerate budget none text.toArray start).failure = some failure
          from hfails]
      rw [List.filter_cons_of_neg (by simp [hfails]), hnothing, List.nil_append]

/-- A rule that fails is isolated: the audit goes on and notes exactly such rules in their order, a lookup of a place
never makes a rule fail, and everything else is as if there were no such rules. -/
theorem audit_isolates_failing_rules (c : Catalog) {text : List Char} (ht : text ≠ []) (file : Option String)
    {budget : Budget} (hb : budget.maxSeconds = none) (clock start : Clock) :
    ∃ report after, c.audit text file budget clock = .ok (report, after) ∧
      (∀ entry ∈ c.entries, ∀ span ∈ (entry.2.enumerate budget none text.toArray start).spans,
        ∃ place, (LineIndex.ofText text).resolve span.start = .ok place) ∧
      report.skipped = c.entries.filterMap (fun (name, rule) =>
        (rule.failure? budget text start).map fun failure => ⟨name, rule.title, failure.reason, file⟩) ∧
      report.rulesSkipped = (c.entries.filter fun entry => (entry.2.failure? budget text start).isSome).length ∧
      ∃ rest after', (c.keep fun rule => (rule.failure? budget text start).isNone).audit text file budget clock =
          .ok (rest, after') ∧
        report.findings = rest.findings ∧ report.summary = rest.summary ∧ report.byCategory = rest.byCategory := by
  obtain ⟨after, haudit⟩ := c.audit_eq text file budget clock
  obtain ⟨after', hrest⟩ :=
    (c.keep fun rule => (rule.failure? budget text start).isNone).audit_eq text file budget clock
  rw [discoveries_keep hb text file c clock clock start] at hrest
  rw [if_neg ht, skipped_timeless hb text file c clock start] at haudit
  refine ⟨_, after, haudit, ?_, rfl, ?_, _, after', hrest, rfl, rfl, rfl⟩
  · intro entry _ span hspan
    exact ⟨_, LineIndex.resolve_ofText (Rule.enumerate_start_le hspan)⟩
  · simp only [Gathering.report, List.length_filterMap_eq_countP, ← List.countP_eq_length_filter, Run.skipped?,
      Option.isSome_map]
    rfl

/-- The graver rule fails after its only match, which the other rule finds as well. -/
def failingLetters : Catalog := lettersOf [(.high, some ⟨1, ⟨"RuntimeError", "boom"⟩, by decide⟩), (.low, none)]

/-- What a rule has found before it fails does not hide what a later rule with the same title finds. -/
theorem audit_isolates_failing_rules_of_one_title :
    ['a'] ≠ [] ∧ Budget.none.maxSeconds = none ∧
    ∃ report after, failingLetters.audit ['a'] none .none (.ofReadings []) = .ok (report, after) ∧
      (∀ entry ∈ failingLetters.entries,
        ∀ span ∈ (entry.2.enumerate .none none ['a'].toArray (.ofReadings [])).spans,
          ∃ place, (LineIndex.ofText ['a']).resolve span.start = .ok place) ∧
      report.skipped = failingLetters.entries.filterMap (fun (name, rule) =>
        (rule.failure? .none ['a'] (.ofReadings [])).map fun failure => ⟨name, rule.title, failure.reason, none⟩) ∧
      report.rulesSkipped =
        (failingLetters.entries.filter fun entry => (entry.2.failure? .none ['a'] (.ofReadings [])).isSome).length ∧
      ∃ rest after', (failingLetters.keep fun rule => (rule.failure? .none ['a'] (.ofReadings [])).isNone).audit
          ['a'] none .none (.ofReadings []) = .ok (rest, after') ∧
        report.findings = rest.findings ∧ report.summary = rest.summary ∧ report.byCategory = rest.byCategory :=
  ⟨by decide, rfl, audit_isolates_failing_rules _ (by decide) none rfl _ _⟩

end Catalog

end ScriptAudit
