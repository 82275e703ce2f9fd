import ScriptAudit.Proofs.Consistency

namespace ScriptAudit

/-- Searching the severities from the top finds the one that has a property when no higher one has it. -/
theorem Severity.find?_of_highest {p : Severity → Bool} {s : Severity} (hs : p s = true)
    (hhigher : ∀ t : Severity, s.rank < t.rank → p t = false) : Severity.all.reverse.find? p = some s := by
  have hcritical := hhigher .critical
  have hhigh := hhigher .high
  have hmedium := hhigher .medium
  cases s <;> simp_all [Severity.all, Severity.rank]

theorem Finding.summary_get (findings : List Finding) (s : Severity) :
    Counts.get (summary findings) s.name = (findings.countP (·.severity = s) : Int) := by
  cases s <;> rfl

namespace Report

variable {r : Report} {s t : Severity}

theorem exitCode_eq_one_iff : r.exitCode (some s) = 1 ↔ ∃ f ∈ r.findings, s.rank ≤ f.severity.rank := by
  simp [exitCode]

theorem exitCode_le_one (r : Report) (s : Severity) : r.exitCode (some s) ≤ 1 := by
  rw [exitCode]
  split <;> omega

/-- A report reaches a threshold if it reaches a higher one. -/
theorem exitCode_antitone (r : Report) (h : s.rank ≤ t.rank) : r.exitCode (some t) ≤ r.exitCode (some s) := by
  by_cases ht : r.exitCode (some t) = 1
  · obtain ⟨f, hf, hrank⟩ := exitCode_eq_one_iff.mp ht
    have hs : r.exitCode (some s) = 1 := exitCode_eq_one_iff.mpr ⟨f, hf, h.trans hrank⟩
    omega
  · have hle := r.exitCode_le_one t
    omega

/-- What ranking and counting leave in a report: the gravest finding comes first, and the counts are those of the
findings. -/
structure Tallied (r : Report) : Prop where
  ordered : r.findings.Pairwise Finding.InOrder
  summary_eq : r.summary = Finding.summary r.findings

theorem Tallied.rank_le {f : Finding} {rest : List Finding} (h : r.Tallied) (hr : r.findings = f :: rest) :
    ∀ g ∈ r.findings, g.severity.rank ≤ f.severity.rank := by
  have hordered := h.ordered
  rw [hr, List.pairwise_cons] at hordered
  rw [hr]
  intro g hg
  rcases List.mem_cons.mp hg with rfl | hg
  · exact le_refl _
  · rcases hordered.1 g hg with hlt | ⟨heq, _⟩
    · exact hlt.le
    · exact heq.ge

theorem Tallied.get_ne_zero_iff (h : r.Tallied) : r.summary.get s.name ≠ 0 ↔ ∃ f ∈ r.findings, f.severity = s := by
  rw [h.summary_eq, Finding.summary_get]
  simp

/-- The summary counts no severity above that of the first finding. -/
theorem Tallied.highest_eq (h : r.Tallied) : r.highest = r.findings.head?.map (·.severity) := by
  unfold highest
  cases hr : r.findings with
  | nil =>
    have hnone : ∀ s ∈ Severity.all.reverse, ¬r.summary.get s.name ≠ 0 := by
      intro s _
      rw [h.get_ne_zero_iff, hr]
      simp
    simpa using hnone
  | cons f rest =>
    have hf : f ∈ r.findings := hr ▸ List.mem_cons_self
    refine Severity.find?_of_highest ?_ ?_
    · exact decide_eq_true (h.get_ne_zero_iff.mpr ⟨f, hf, rfl⟩)
    · intro t ht
      refine decide_eq_false ?_
      rw [h.get_ne_zero_iff]
      rintro ⟨g, hg, rfl⟩
      exact absurd (h.rank_le hr g hg) (not_le.mpr ht)

/-- It is enough to compare the highest severity with the threshold. -/
theorem Tallied.exitCode_iff (h : r.Tallied) :
    r.exitCode (some s) = 1 ↔ ∃ top, r.highest = some top ∧ s.rank ≤ top.rank := by
  rw [exitCode_eq_one_iff, h.highest_eq]
  cases hr : r.findings with
  | nil => simp
  | cons f rest =>
    have hle := h.rank_le hr
    rw [hr] at hle
    constructor
    · rintro ⟨g, hg, hrank⟩
      exact ⟨f.severity, rfl, hrank.trans (hle g hg)⟩
    · rintro ⟨top, htop, hrank⟩
      cases Option.some.inj htop
      exact ⟨f, List.mem_cons_self, hrank⟩

theorem Audited.tallied (h : r.Audited) : r.Tallied := ⟨h.consistent.ordered, h.consistent.summary_eq⟩

theorem audited_report (c : Catalog) (text : List Char) (file : Option String) {budget : Budget}
    (hb : budget.maxSeconds = none) : (c.report text file budget).Audited := by
  obtain ⟨after, haudit⟩ := c.audit_timeless text file hb (.ofReadings [])
  exact ⟨c, text, file, budget, _, after, haudit⟩

theorem join_tallied (rs : List Report) : (join rs).Tallied :=
  ⟨(Finding.ranked_sorted _).imp Finding.inOrder_of_rank_le, rfl⟩

theorem exitCode_join_eq_one_iff {rs : List Report} :
    (join rs).exitCode (some s) = 1 ↔ ∃ r ∈ rs, r.exitCode (some s) = 1 := by
  simp only [exitCode_eq_one_iff, join, Finding.mem_ranked, List.mem_flatMap]
  constructor
  · rintro ⟨f, ⟨r, hr, hf⟩, hrank⟩
    exact ⟨r, hr, f, hf, hrank⟩
  · rintro ⟨r, hr, f, hf, hrank⟩
    exact ⟨f, ⟨r, hr, hf⟩, hrank⟩

/-- Joining adds no finding and loses none, so that the gravest report decides. -/
theorem exitCode_join (rs : List Report) (s : Severity) :
    (join rs).exitCode (some s) = (rs.map (·.exitCode (some s))).foldr max 0 := by
  induction rs with
  | nil => simp [exitCode]
  | cons r rest ih =>
    rw [List.map_cons, List.foldr_cons, ← ih]
    have hiff : (join (r :: rest)).exitCode (some s) = 1 ↔
        r.exitCode (some s) = 1 ∨ (join rest).exitCode (some s) = 1 := by
      rw [exitCode_join_eq_one_iff, exitCode_join_eq_one_iff, List.exists_mem_cons_iff]
    have hall := (join (r :: rest)).exitCode_le_one s
    have hfirst := r.exitCode_le_one s
    have hrest := (join rest).exitCode_le_one s
    omega

end Report

namespace Grouping

theorem joined_tallied (g : Grouping) (h : ∀ r ∈ g.reports, r.Audited) : g.joined.Tallied := by
  cases g with
  | report r => exact (h r (List.mem_singleton_self r)).tallied
  | group members => exact Report.join_tallied _

/-- The first finding, the summary and the exit code never disagree on how grave a report is, and a group of reports is
as grave as the gravest of them. -/
theorem exitCode_joined (gs : List Grouping) (h : ∀ g ∈ gs, ∀ r ∈ g.reports, r.Audited) :
    (∀ g ∈ gs, g.joined.highest = g.joined.findings.head?.map (·.severity) ∧
      (∀ s, g.joined.exitCode (some s) ≤ 1 ∧
        (g.joined.exitCode (some s) = 1 ↔ ∃ top, g.joined.highest = some top ∧ s.rank ≤ top.rank)) ∧
      ∀ s t : Severity, s.rank ≤ t.rank → g.joined.exitCode (some t) ≤ g.joined.exitCode (some s)) ∧
    ∀ s, (Report.join (gs.map joined)).exitCode (some s) = (gs.map (·.joined.exitCode (some s))).foldr max 0 := by
  constructor
  · intro g hg
    have htallied := g.joined_tallied (h g hg)
    exact ⟨htallied.highest_eq, fun s => ⟨g.joined.exitCode_le_one s, htallied.exitCode_iff⟩,
      fun s t hst => g.joined.exitCode_antitone hst⟩
  · intro s
    rw [Report.exitCode_join, List.map_map]
    rfl

/-- A group of which the gravest finding is of low severity, then a report with a critical one. -/
def gravestLast : List Grouping :=
  [nestedLetters, report ((Catalog.lettersOf [(.critical, none)]).report ['a'] none .none)]

theorem exitCode_joined_of_gravest_last :
    (∀ g ∈ gravestLast, ∀ r ∈ g.reports, r.Audited) ∧
    (∀ g ∈ gravestLast, g.joined.highest = g.joined.findings.head?.map (·.severity)) ∧
    (Report.join (gravestLast.map joined)).exitCode (some .critical) = 1 := by
  have h : ∀ g ∈ gravestLast, ∀ r ∈ g.reports, r.Audited := by
    have hletters (c : Catalog) (text : List Char) (file : Option String) : (c.report text file .none).Audited :=
      Report.audited_report c text file rfl
    simp [gravestLast, nestedLetters, reports, reportsOfEach, hletters]
  obtain ⟨heach, hjoin⟩ := exitCode_joined gravestLast h
  refine ⟨h, fun g hg => (heach g hg).1, ?_⟩
  have hcritical : ((Catalog.lettersOf [(.critical, none)]).report ['a'] none .none).exitCode (some .critical) = 1 := by
    rw [Report.exitCode_eq_one_iff]
    simp only [Catalog.report, Gathering.report, Finding.mem_ranked]
    decide
  have hnested := nestedLetters.joined.exitCode_le_one .critical
  rw [hjoin]
  simp only [gravestLast, List.map_cons, List.map_nil, List.foldr_cons, List.foldr_nil, joined, hcritical]
  omega

end Grouping

end ScriptAudit
