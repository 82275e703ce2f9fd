import ScriptAudit.Proofs.Isolation

namespace ScriptAudit

namespace Finding

/-- A report depends only on what is found in each category, and on the order in which it is found there. -/
theorem ranked_firsts_congr_category {l m : List Finding}
    (h : ∀ name, l.filter (·.category = name) = m.filter (·.category = name)) :
    ranked (firsts l) = ranked (firsts m) := by
  apply ranked_congr_category
  intro name
  rw [firsts_filter_category, firsts_filter_category, h]

end Finding

namespace Catalog

/-- Where names are different, the entries of a category do not depend on the order of the categories. -/
theorem entries_filter_of_perm {categories others : List Category} (hperm : categories.Perm others)
    (hnames : (categories.map (·.name)).Nodup) (name : String) :
    (entries ⟨categories⟩).filter (·.1 = name) = (entries ⟨others⟩).filter (·.1 = name) := by
  induction hperm with
  | nil => rfl
  | cons category _ ih =>
    rw [List.map_cons, List.nodup_cons] at hnames
    rw [entries_cons, entries_cons, List.filter_append, List.filter_append, ih hnames.2]
  | swap first second rest =>
    have hne : first.name ≠ second.name := by
      rw [List.map_cons, List.map_cons, List.nodup_cons] at hnames
      exact fun h => hnames.1 (h ▸ List.mem_cons_self)
    -- At most one of the two has the name, so that their order does not show.
    have hnone (category : Category) (h : category.name ≠ name) :
        (category.rules.map (category.name, ·)).filter (·.1 = name) = [] := by simp [h]
    simp only [entries_cons, List.filter_append]
    by_cases hfirst : first.name = name
    · rw [hnone second (hfirst ▸ hne.symm), List.nil_append, List.nil_append]
    · rw [hnone first hfirst, List.nil_append, List.nil_append]
  | trans hfirst _ ih₁ ih₂ =>
    rw [ih₁ hnames, ih₂ ((hfirst.map _).nodup_iff.mp hnames)]

theorem entries_perm {categories others : List Category} (hperm : categories.Perm others) :
    (entries ⟨categories⟩).Perm (entries ⟨others⟩) := hperm.flatMap_right _

/-- The order of the categories shows only in the order in which skipped rules are noted. -/
theorem audit_of_perm_categories {c d : Catalog} (hc : c.Reachable) (hperm : c.categories.Perm d.categories)
    (text : List Char) (file : Option String) {budget : Budget} (hb : budget.maxSeconds = none)
    (clock₁ clock₂ : Clock) :
    ∃ first second after₁ after₂,
      c.audit text file budget clock₁ = .ok (first, after₁) ∧
      d.audit text file budget clock₂ = .ok (second, after₂) ∧
      first.findings = second.findings ∧ first.summary = second.summary ∧
      first.byCategory = second.byCategory ∧ first.rulesSkipped = second.rulesSkipped ∧
      first.skipped.Perm second.skipped := by
  obtain ⟨after₁, hfirst⟩ := c.audit_eq text file budget clock₁
  obtain ⟨after₂, hsecond⟩ := d.audit_eq text file budget clock₂
  refine ⟨_, _, after₁, after₂, hfirst, hsecond, ?_⟩
  have hcategory (name : String) : (c.discoveries text file budget clock₁).filter (·.category = name) =
      (d.discoveries text file budget clock₂).filter (·.category = name) := by
    simp only [discoveries_timeless hb text file _ _ clock₁]
    rw [flatMap_filter_category fun _ _ => Run.category_of_mem_findings,
      flatMap_filter_category fun _ _ => Run.category_of_mem_findings,
      entries_filter_of_perm hperm hc.names_nodup]
  have hskipped : (if text = [] then [] else (c.runs budget text clock₁).filterMap (·.skipped? file)).Perm
      (if text = [] then [] else (d.runs budget text clock₂).filterMap (·.skipped? file)) := by
    split_ifs
    · exact List.Perm.refl _
    · rw [skipped_timeless hb text file c clock₁ clock₁, skipped_timeless hb text file d clock₂ clock₁]
      exact (entries_perm hperm).filterMap _
  simp only [Gathering.report, Finding.ranked_firsts_congr_category hcategory, hskipped.length_eq, true_and]
  exact hskipped

/-- A rule that fails and one that does not, under each of some names. -/
def failingLettersUnder (names : List String) : Catalog :=
  ⟨names.map fun name => ⟨name, failingLetters.categories.flatMap (·.rules)⟩⟩

/-- Both categories have a finding at the same place and a rule that is skipped. -/
theorem audit_of_two_categories_exchanged :
    (failingLettersUnder ["letters", "signs"]).Reachable ∧
    (failingLettersUnder ["letters", "signs"]).categories.Perm
      (failingLettersUnder ["signs", "letters"]).categories ∧
    Budget.none.maxSeconds = none ∧
    ∃ first second after₁ after₂,
      (failingLettersUnder ["letters", "signs"]).audit ['a'] none .none (.ofReadings []) = .ok (first, after₁) ∧
      (failingLettersUnder ["signs", "letters"]).audit ['a'] none .none (.ofReadings []) = .ok (second, after₂) ∧
      first.findings = second.findings ∧ first.summary = second.summary ∧
      first.byCategory = second.byCategory ∧ first.rulesSkipped = second.rulesSkipped ∧
      first.skipped.Perm second.skipped := by
  have hc : (failingLettersUnder ["letters", "signs"]).Reachable :=
    @Reachable.ofEntries ((failingLettersUnder ["letters", "signs"]).categories.map Category.toEntry) _
      (by simp [failingLettersUnder, Category.toEntry]) rfl
  have hperm : (failingLettersUnder ["letters", "signs"]).categories.Perm
      (failingLettersUnder ["signs", "letters"]).categories := List.Perm.swap _ _ []
  exact ⟨hc, hperm, rfl, audit_of_perm_categories hc hperm _ _ rfl _ _⟩

end Catalog

end ScriptAudit
