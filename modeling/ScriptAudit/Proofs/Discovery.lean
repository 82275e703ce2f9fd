import ScriptAudit.Audit.Basic
import ScriptAudit.Proofs.Catalogs
import ScriptAudit.Proofs.Enumeration
import ScriptAudit.Proofs.Lines
import ScriptAudit.Proofs.Ranking

namespace ScriptAudit

/-- A rule as an audit comes to it, and what the search for its matches came to. -/
structure Run where
  category : String
  rule : Rule
  enumeration : Enumeration

def Finding.ofSpan (text : List Char) (file : Option String) (category : String) (rule : Rule)
    (span : Pattern.Span) : Finding :=
  ⟨category, rule, .ofOffset text span.start,
    String.ofList ((text.drop span.start).take (span.stop - span.start)), file⟩

theorem Finding.ofSpan_length {text : List Char} {span : Pattern.Span} (h : span.stop ≤ text.length)
    (file : Option String) (category : String) (rule : Rule) :
    (ofSpan text file category rule span).matchedText.length = span.stop - span.start := by
  rw [ofSpan, String.length_ofList, List.length_take, List.length_drop]
  omega

namespace Run

def start (budget : Budget) (text : List Char) (clock : Clock) (entry : String × Rule) : Run :=
  ⟨entry.1, entry.2, entry.2.enumerate budget none text.toArray clock⟩

/-- All matches of a rule whose search was finished, and nothing of a rule that was given up. -/
def findings (text : List Char) (file : Option String) (run : Run) : List Finding :=
  match run.enumeration.failure with
  | none => (run.rule.spans text.toArray).map (.ofSpan text file run.category run.rule)
  | some _ => []

def skipped? (file : Option String) (run : Run) : Option SkippedRule :=
  run.enumeration.failure.map fun failure => ⟨run.category, run.rule.title, failure.reason, file⟩

theorem mem_findings {text : List Char} {file : Option String} {run : Run} {f : Finding} :
    f ∈ run.findings text file ↔ run.enumeration.failure = none ∧
      ∃ span ∈ run.rule.spans text.toArray, Finding.ofSpan text file run.category run.rule span = f := by
  unfold findings
  cases run.enumeration.failure <;> simp

end Run

/-- Rules run one after the other, each at the clock that the one before it has left. -/
def runs (budget : Budget) (text : List Char) : List (String × Rule) → Clock → List Run
  | [], _ => []
  | entry :: rest, clock =>
    let run := Run.start budget text clock entry
    run :: runs budget text rest run.enumeration.clock

theorem runs_entries (budget : Budget) (text : List Char) (entries : List (String × Rule)) (clock : Clock) :
    (runs budget text entries clock).map (fun run => (run.category, run.rule)) = entries := by
  induction entries generalizing clock with
  | nil => rfl
  | cons entry rest ih => rw [runs, List.map_cons, ih, Run.start]

theorem enumeration_of_mem_runs {budget : Budget} {text : List Char} {entries : List (String × Rule)} {clock : Clock}
    {run : Run} (h : run ∈ runs budget text entries clock) :
    ∃ at_, run.enumeration = run.rule.enumerate budget none text.toArray at_ := by
  induction entries generalizing clock with
  | nil => exact absurd h List.not_mem_nil
  | cons entry rest ih =>
    rcases List.mem_cons.mp h with rfl | h
    · exact ⟨clock, rfl⟩
    · exact ih h

namespace Catalog

def runs (c : Catalog) (budget : Budget) (text : List Char) (clock : Clock) : List Run :=
  ScriptAudit.runs budget text c.entries clock

/-- Everything that rules which are not given up find, in the order in which it is found. -/
def discoveries (c : Catalog) (text : List Char) (file : Option String) (budget : Budget) (clock : Clock) :
    List Finding :=
  (c.runs budget text clock).flatMap (·.findings text file)

end Catalog

theorem Document.slice_ofList (text : List Char) (file : Option String) (span : Pattern.Span) :
    (Document.ofList text file).slice span =
      String.ofList ((text.drop span.start).take (span.stop - span.start)) := by
  simp [Document.slice, Document.ofList, List.extract_eq_take_drop]

theorem Document.finding_ofList {text : List Char} (file : Option String) (category : String) (rule : Rule)
    {span : Pattern.Span} (h : span.start ≤ text.length) :
    (Document.ofList text file).finding category rule span = .ok (.ofSpan text file category rule span) := by
  unfold Document.finding
  rw [show (Document.ofList text file).lines = LineIndex.ofText text from rfl, LineIndex.resolve_ofText h,
    Document.slice_ofList]
  rfl

/-- The matches that an enumeration hands out begin within the text. -/
theorem Rule.enumerate_start_le {rule : Rule} {budget : Budget} {text : List Char} {clock : Clock}
    {span : Pattern.Span} (h : span ∈ (rule.enumerate budget none text.toArray clock).spans) :
    span.start ≤ text.length := by
  have hmem := (rule.enumerate_prefix budget text.toArray clock).subset h
  have hb := rule.detector.pattern.program.spans_bounds text.toArray hmem
  simp only [List.size_toArray] at hb
  omega

/-- Only the enumeration itself can make a rule fail, and never the lookup of a place. -/
theorem Document.findings_ofList {text : List Char} (file : Option String) (category : String) (rule : Rule)
    {e : Enumeration} (h : ∀ span ∈ e.spans, span.start ≤ text.length) :
    (Document.ofList text file).findings category rule e =
      match e.failure with
      | none => .ok (e.spans.map (.ofSpan text file category rule))
      | some failure => .error failure := by
  have hplaced : e.spans.mapM ((Document.ofList text file).finding category rule) =
      .ok (e.spans.map (.ofSpan text file category rule)) :=
    mapM_eq_ok fun span hspan => Document.finding_ofList file category rule (h span hspan)
  rw [Document.findings, hplaced]
  cases e.failure <;> rfl

namespace Gathering

/-- A step of an audit: the rule adds all its findings or is noted as skipped, and the audit goes on. -/
theorem add_eq (text : List Char) (file : Option String) (budget : Budget) (g : Gathering)
    (entry : String × Rule) {run : Run} (hrun : Run.start budget text g.clock entry = run) :
    add (.ofList text file) budget g entry =
      .ok ⟨g.findings ++ run.findings text file, g.skipped ++ (run.skipped? file).toList, run.enumeration.clock⟩ := by
  subst hrun
  obtain ⟨category, rule⟩ := entry
  simp only [add, Run.start, Run.findings, Run.skipped?]
  rw [show (Document.ofList text file).chars = text.toArray from rfl,
    Document.findings_ofList file category rule fun span => Rule.enumerate_start_le]
  cases hfail : (rule.enumerate budget none text.toArray g.clock).failure with
  | none =>
    rw [rule.enumerate_complete budget text.toArray g.clock hfail]
    simp
  | some failure =>
    have hgoes : failure.stops = false := rule.enumerate_ordinary budget _ _ hfail
    simp [hgoes, Document.ofList]

/-- The whole audit: the findings and the skipped rules of all runs, in order. -/
theorem foldlM_add (text : List Char) (file : Option String) (budget : Budget) (entries : List (String × Rule))
    (g : Gathering) :
    ∃ after, entries.foldlM (add (.ofList text file) budget) g =
      .ok ⟨g.findings ++ (runs budget text entries g.clock).flatMap (·.findings text file),
        g.skipped ++ (runs budget text entries g.clock).filterMap (·.skipped? file), after⟩ := by
  induction entries generalizing g with
  | nil =>
    refine ⟨g.clock, ?_⟩
    simp only [runs, List.foldlM_nil, List.flatMap_nil, List.filterMap_nil, List.append_nil]
    rfl
  | cons entry rest ih =>
    set run := Run.start budget text g.clock entry with hrun
    obtain ⟨after, hrest⟩ := ih ⟨g.findings ++ run.findings text file, g.skipped ++ (run.skipped? file).toList,
      run.enumeration.clock⟩
    refine ⟨after, ?_⟩
    rw [List.foldlM_cons, add_eq text file budget g entry hrun.symm]
    change rest.foldlM (add (.ofList text file) budget) _ = _
    rw [hrest, runs, ← hrun]
    cases hskip : run.skipped? file <;> simp [hskip]

end Gathering

namespace Catalog

variable (c : Catalog) (text : List Char) (file : Option String) (budget : Budget) (clock : Clock)

/-- What an audit reports, told by its runs. -/
theorem audit_eq : ∃ after, c.audit text file budget clock =
    .ok (Gathering.report ⟨c.discoveries text file budget clock,
      if text = [] then [] else (c.runs budget text clock).filterMap (·.skipped? file), after⟩ file, after) := by
  by_cases ht : text = []
  -- No rule is run on an empty text, and none would find anything in it.
  · have hnothing : c.discoveries text file budget clock = [] := by
      rw [discoveries, List.flatMap_eq_nil_iff]
      intro run _
      rw [List.eq_nil_iff_forall_not_mem]
      intro f hf
      obtain ⟨_, span, hspan, _⟩ := Run.mem_findings.mp hf
      rw [ht, Rule.spans, Pattern.Program.spans_empty] at hspan
      exact absurd hspan List.not_mem_nil
    refine ⟨clock, ?_⟩
    rw [hnothing, if_pos ht, audit, gather, if_pos (by simp [Document.ofList, ht])]
    rfl
  · obtain ⟨after, hfold⟩ := Gathering.foldlM_add text file budget c.entries ⟨[], [], clock⟩
    refine ⟨after, ?_⟩
    rw [if_neg ht, audit, gather, if_neg (by simp [Document.ofList, ht]), hfold]
    rfl

theorem entry_of_mem_runs {run : Run} (h : run ∈ c.runs budget text clock) : (run.category, run.rule) ∈ c.entries := by
  rw [← runs_entries budget text c.entries clock]
  exact List.mem_map_of_mem h

theorem mem_discoveries {f : Finding} : f ∈ c.discoveries text file budget clock ↔
    ∃ run ∈ c.runs budget text clock, run.enumeration.failure = none ∧
      ∃ span ∈ run.rule.spans text.toArray, Finding.ofSpan text file run.category run.rule span = f := by
  simp only [discoveries, List.mem_flatMap, Run.mem_findings]

/-- The report has every identity that a finished rule finds, it has it once, and it has it from the first match in
the order of the categories, of the rules in them and of the offsets. -/
theorem audit_reports_first_of_each_identity :
    ∃ report after, c.audit text file budget clock = .ok (report, after) ∧
      (c.runs budget text clock).map (fun run => (run.category, run.rule)) = c.entries ∧
      (∀ run ∈ c.runs budget text clock,
        (run.rule.spans text.toArray).Pairwise fun earlier later => earlier.start < later.start) ∧
      (∀ i, i ∈ report.findings.map Finding.identity ↔
        ∃ run ∈ c.runs budget text clock, run.enumeration.failure = none ∧
          ∃ span ∈ run.rule.spans text.toArray,
            (Finding.ofSpan text file run.category run.rule span).identity = i) ∧
      (report.findings.map Finding.identity).Nodup ∧
      ∀ f ∈ report.findings, (c.discoveries text file budget clock).find? (·.identity = f.identity) = some f := by
  obtain ⟨after, haudit⟩ := c.audit_eq text file budget clock
  refine ⟨_, after, haudit, runs_entries budget text c.entries clock, ?_, ?_, ?_, ?_⟩
  · intro run _
    exact run.rule.detector.pattern.program.spans_increasing text.toArray
  · intro i
    rw [Gathering.report, Finding.mem_identities_ranked_firsts, List.mem_map]
    simp only [mem_discoveries]
    constructor
    · rintro ⟨f, ⟨run, hrun, hdone, span, hspan, rfl⟩, rfl⟩
      exact ⟨run, hrun, hdone, span, hspan, rfl⟩
    · rintro ⟨run, hrun, hdone, span, hspan, rfl⟩
      exact ⟨_, ⟨run, hrun, hdone, span, hspan, rfl⟩, rfl⟩
  · have hranked := (Finding.ranked_perm (Finding.firsts (c.discoveries text file budget clock))).map Finding.identity
    exact hranked.nodup_iff.mpr (Finding.nodup_identities_firsts _)
  · intro f hf
    exact Finding.find?_of_mem_firsts (Finding.mem_ranked.mp hf)

/-- Every finding stands where it says, and says what stands there. -/
theorem audit_findings_point_at_their_text :
    ∃ report after, c.audit text file budget clock = .ok (report, after) ∧
      ∀ f ∈ report.findings,
        f.location.Within text ∧
        (text.drop (f.location.offsetIn text)).take f.matchedText.length = f.matchedText.toList ∧
        f.matchedText ≠ "" ∧
        ⟨f.location.offsetIn text, f.location.offsetIn text + f.matchedText.length⟩ ∈
          (f.rule.detector.search text.toArray).1 ∧
        (∃ category ∈ c.categories, category.name = f.category ∧ f.rule ∈ category.rules) ∧
        f.file = file := by
  obtain ⟨after, haudit⟩ := c.audit_eq text file budget clock
  refine ⟨_, after, haudit, ?_⟩
  intro f hf
  have hfound := (Finding.firsts_sublist _).subset (Finding.mem_ranked.mp hf)
  obtain ⟨run, hrun, hdone, span, hspan, rfl⟩ := (mem_discoveries c text file budget clock).mp hfound
  have hb := run.rule.detector.pattern.program.spans_bounds text.toArray hspan
  rw [List.size_toArray] at hb
  have hstart : span.start ≤ text.length := by omega
  have hoffset : (Location.ofOffset text span.start).offsetIn text = span.start := Location.offsetIn_ofOffset hstart
  have hlength := Finding.ofSpan_length hb.2 file run.category run.rule
  have hspan' : span ∈ (run.rule.detector.search text.toArray).1 := by
    obtain ⟨start, hstart⟩ := enumeration_of_mem_runs hrun
    rwa [run.rule.search_of_enumerate budget text.toArray start (hstart ▸ hdone)]
  have hentry : (run.category, run.rule) ∈ c.entries := by
    rw [← runs_entries budget text c.entries clock]
    exact List.mem_map_of_mem hrun
  refine ⟨Location.ofOffset_within hstart, ?_, ?_, ?_, mem_entries.mp hentry, rfl⟩
  · rw [hlength]
    simp only [Finding.ofSpan, hoffset, String.toList_ofList]
  · intro hempty
    rw [hempty, String.length_empty] at hlength
    omega
  · rw [hlength]
    simp only [Finding.ofSpan, hoffset]
    rwa [Nat.add_sub_cancel' hb.1.le]

end Catalog

end ScriptAudit
