import ScriptAudit.Proofs.Joining
import ScriptAudit.Proofs.Sessions

namespace ScriptAudit

/-- All that is counted, under whatever names. -/
def Counts.sum (counts : Counts) : Int := (counts.map (·.2)).foldr (· + ·) 0

namespace Finding

/-- The order of a report: severity from high to low, then line, category and column from low to high. -/
def InOrder (f g : Finding) : Prop :=
  g.severity.rank < f.severity.rank ∨ f.severity.rank = g.severity.rank ∧
    (f.location.line < g.location.line ∨ f.location.line = g.location.line ∧
      (f.category < g.category ∨ f.category = g.category ∧ f.location.column ≤ g.location.column))

theorem inOrder_of_rank_le {f g : Finding} (h : f.rank.le g.rank = true) : f.InOrder g := by
  rcases Rank.le_iff.mp h with hs | ⟨hs, hrest⟩
  · exact .inl hs
  · exact .inr ⟨congrArg Severity.rank hs, hrest⟩

theorem summary_sum (findings : List Finding) : Counts.sum (summary findings) = findings.length := by
  have hall : ∀ f ∈ findings, f.severity ∈ Severity.all.reverse := by
    intro f _
    cases f.severity <;> decide
  have hdifferent : Severity.all.reverse.Nodup := by decide
  have h := sum_countP_keys severity hdifferent findings hall
  rwa [Counts.sum, summary, List.map_map]

/-- The names of the categories with a finding, in order. -/
def categoryNames (findings : List Finding) : List String :=
  (findings.map (·.category)).eraseDups.mergeSort fun a b => !decide (b < a)

theorem mem_categoryNames {findings : List Finding} {name : String} :
    name ∈ categoryNames findings ↔ ∃ f ∈ findings, f.category = name := by
  rw [categoryNames, (List.mergeSort_perm _ _).mem_iff, List.mem_eraseDups, List.mem_map]

theorem categoryNames_nodup (findings : List Finding) : (categoryNames findings).Nodup :=
  (List.mergeSort_perm _ _).nodup_iff.mpr (nodup_eraseDups _)

theorem categoryNames_increasing (findings : List Finding) : (categoryNames findings).Pairwise (· < ·) := by
  have htrans (a b c : String) (hab : (!decide (b < a)) = true) (hbc : (!decide (c < b)) = true) :
      (!decide (c < a)) = true := by
    simp only [Bool.not_eq_true', decide_eq_false_iff_not] at hab hbc ⊢
    exact String.not_lt.mpr (String.le_trans (String.not_lt.mp hab) (String.not_lt.mp hbc))
  have htotal (a b : String) : (!decide (b < a) || !decide (a < b)) = true := by
    by_cases hab : a < b
    · simp [String.lt_asymm hab]
    · simp [hab]
  have hsorted := List.pairwise_mergeSort htrans htotal (findings.map (·.category)).eraseDups
  -- Sorted and without repetition is strictly increasing.
  refine (hsorted.and (categoryNames_nodup findings)).imp ?_
  rintro a b ⟨hle, hne⟩
  simp only [Bool.not_eq_true', decide_eq_false_iff_not] at hle
  by_contra hlt
  exact hne (String.le_antisymm (String.not_lt.mp hle) (String.not_lt.mp hlt))

theorem byCategory_eq (findings : List Finding) :
    byCategory findings =
      (categoryNames findings).map fun name => (name, (findings.countP (·.category = name) : Int)) := rfl

theorem byCategory_names (findings : List Finding) : (byCategory findings).map (·.1) = categoryNames findings := by
  rw [byCategory_eq, List.map_map]
  exact List.map_id _

theorem byCategory_sum (findings : List Finding) : Counts.sum (byCategory findings) = findings.length := by
  have hall : ∀ f ∈ findings, f.category ∈ categoryNames findings := fun f hf => mem_categoryNames.mpr ⟨f, hf, rfl⟩
  have h := sum_countP_keys category (categoryNames_nodup findings) findings hall
  rwa [Counts.sum, byCategory_eq, List.map_map]

end Finding

namespace Report

/-- All fields of a report of so many audits say the same. -/
structure Consistent (r : Report) (audits : Nat) : Prop where
  ordered : r.findings.Pairwise Finding.InOrder
  summary_eq : r.summary = [Severity.critical, .high, .medium, .low].map fun s =>
    (s.name, (r.findings.countP (·.severity = s) : Int))
  categories_increasing : (r.byCategory.map (·.1)).Pairwise (· < ·)
  mem_categories : ∀ name, name ∈ r.byCategory.map (·.1) ↔ ∃ f ∈ r.findings, f.category = name
  category_count : ∀ name count, (name, count) ∈ r.byCategory →
    0 < count ∧ count = (r.findings.countP (·.category = name) : Int)
  summary_total : r.summary.sum = r.total
  category_total : r.byCategory.sum = r.total
  skipped_count : r.rulesSkipped = r.skipped.length
  audits_count : r.filesScanned = audits

/-- What is left to show of a report whose counts are taken from its findings. -/
theorem Consistent.of_ranked {r : Report} {findings : List Finding} {audits : Nat}
    (hfindings : r.findings = Finding.ranked findings) (hsummary : r.summary = Finding.summary r.findings)
    (hcategory : r.byCategory = Finding.byCategory r.findings) (hskipped : r.rulesSkipped = r.skipped.length)
    (haudits : r.filesScanned = audits) : r.Consistent audits := by
  constructor
  · rw [hfindings]
    exact (Finding.ranked_sorted findings).imp Finding.inOrder_of_rank_le
  · rw [hsummary]
    rfl
  · rw [hcategory, Finding.byCategory_names]
    exact Finding.categoryNames_increasing _
  · intro name
    rw [hcategory, Finding.byCategory_names, Finding.mem_categoryNames]
  · intro name count hmem
    rw [hcategory, Finding.byCategory_eq] at hmem
    obtain ⟨other, hother, heq⟩ := List.mem_map.mp hmem
    obtain ⟨rfl, rfl⟩ := Prod.mk.inj heq
    obtain ⟨f, hf, hname⟩ := Finding.mem_categoryNames.mp hother
    have hpos : 0 < r.findings.countP (·.category = other) := List.countP_pos_iff.mpr ⟨f, hf, by simpa using hname⟩
    exact ⟨by omega, rfl⟩
  · rw [hsummary]
    exact Finding.summary_sum _
  · rw [hcategory]
    exact Finding.byCategory_sum _
  · exact hskipped
  · exact haudits

/-- The report of an audit of some text. -/
def Audited (r : Report) : Prop :=
  ∃ (c : Catalog) (text : List Char) (file : Option String) (budget : Budget) (clock after : Clock),
    c.audit text file budget clock = .ok (r, after)

theorem Audited.consistent {r : Report} (h : r.Audited) : r.Consistent 1 := by
  obtain ⟨c, text, file, budget, clock, after, haudit⟩ := h
  obtain ⟨_, heq⟩ := c.audit_eq text file budget clock
  rw [haudit] at heq
  obtain ⟨rfl, _⟩ := Prod.mk.inj (Except.ok.inj heq)
  exact .of_ranked rfl rfl rfl rfl rfl

theorem join_consistent {rs : List Report} (h : ∀ r ∈ rs, r.Consistent 1) : (join rs).Consistent rs.length := by
  have hsums : (rs.map (·.rulesSkipped)).foldr (· + ·) 0 = ((rs.flatMap (·.skipped)).length : Int) ∧
      (rs.map (·.filesScanned)).foldr (· + ·) 0 = (rs.length : Int) := by
    induction rs with
    | nil => exact ⟨rfl, rfl⟩
    | cons r rest ih =>
      obtain ⟨hr, hrest⟩ := List.forall_mem_cons.mp h
      obtain ⟨hskipped, haudits⟩ := ih hrest
      simp only [List.map_cons, List.foldr_cons, List.flatMap_cons, List.length_append, List.length_cons, hskipped,
        haudits, hr.skipped_count, hr.audits_count]
      omega
  exact .of_ranked rfl rfl rfl hsums.1 hsums.2

end Report

namespace Grouping

/-- However reports of audits are joined, the counts of the result fit its findings, its skipped rules and the number
of audits. -/
theorem joined_consistent (g : Grouping) (h : ∀ r ∈ g.reports, r.Audited) : g.joined.Consistent g.reports.length := by
  cases g with
  | report r => exact (h r (List.mem_singleton_self r)).consistent
  | group members =>
    have hflat : (group members).joined = Report.join (group members).reports := by
      simpa [joined, reports] using join_joinedEach [] [] members
    rw [hflat]
    exact Report.join_consistent fun r hr => (h r hr).consistent

/-- Reports of a text with a rule that is skipped and of an empty one, with an empty group among them. -/
def nestedLetters : Grouping :=
  group [group [report (Catalog.failingLetters.report ['a'] none .none), group []],
    report (Catalog.failingLetters.report [] (some "empty") .none)]

theorem joined_consistent_of_nested_groups :
    (∀ r ∈ nestedLetters.reports, r.Audited) ∧ nestedLetters.joined.Consistent 2 := by
  have h : ∀ r ∈ nestedLetters.reports, r.Audited := by
    intro r hr
    rcases List.mem_cons.mp hr with rfl | hr
    · exact ⟨_, _, _, _, .ofReadings [], Catalog.failingLetters.audit_timeless _ _ rfl _⟩
    · rw [List.mem_singleton.mp hr]
      exact ⟨_, _, _, _, .ofReadings [], Catalog.failingLetters.audit_timeless _ _ rfl _⟩
  exact ⟨h, joined_consistent nestedLetters h⟩

end Grouping

end ScriptAudit
