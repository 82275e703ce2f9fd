import ScriptAudit.Proofs.CategoryOrder
import ScriptAudit.Proofs.Joining

namespace ScriptAudit

namespace Finding

theorem firsts_append_of_disjoint {earlier later : List Finding}
    (h : ∀ f ∈ earlier, ∀ g ∈ later, f.category ≠ g.category) :
    firsts (earlier ++ later) = firsts earlier ++ firsts later := by
  have hnew : ∀ g ∈ firsts later, g.identity ∉ earlier.map identity := by
    intro g hg hmem
    obtain ⟨f, hf, hid⟩ := List.mem_map.mp hmem
    exact h f hf g ((firsts_sublist later).subset hg) (congrArg Identity.category hid)
  rw [firsts_append, List.filter_eq_self.mpr fun g hg => by simpa using hnew g hg]

theorem ranked_ranked_append_ranked (a b : List Finding) : ranked (ranked a ++ ranked b) = ranked (a ++ b) := by
  have hfirst := ranked_append_ranked [] a (ranked b)
  have hsecond := ranked_append_ranked a b []
  simp only [List.nil_append, List.append_nil] at hfirst hsecond
  exact hfirst.trans hsecond

end Finding

namespace Catalog

theorem extend_of_not_mem {categories : List Category} {added : Category}
    (h : added.name ∉ categories.map (·.name)) : extend categories added = categories ++ [added] := by
  induction categories with
  | nil => rfl
  | cons category rest ih =>
    rw [List.map_cons, List.mem_cons, not_or] at h
    rw [extend, if_neg (Ne.symm h.1), ih h.2, List.cons_append]

theorem merged_of_disjoint {c d : Catalog} (hd : d.names.Nodup) (h : c.names.Disjoint d.names) :
    c.merged d = ⟨c.categories ++ d.categories⟩ := by
  obtain ⟨categories⟩ := d
  rw [merged]
  induction categories generalizing c with
  | nil => simp
  | cons category rest ih =>
    have hnew : category.name ∉ c.categories.map (·.name) := fun hmem => h hmem List.mem_cons_self
    have hrest : (rest.map (·.name)).Nodup := (List.nodup_cons.mp hd).2
    -- The names that are left are neither in the catalog nor the one that was added to it.
    have happart : (names ⟨c.categories ++ [category]⟩).Disjoint (rest.map (·.name)) := by
      intro name hname hmem
      rw [names, List.map_append, List.mem_append] at hname
      rcases hname with hname | hname
      · exact h hname (List.mem_cons_of_mem _ hmem)
      · rw [List.map_singleton, List.mem_singleton] at hname
        rw [hname] at hmem
        exact (List.nodup_cons.mp hd).1 hmem
    have hstep := ih (c := ⟨c.categories ++ [category]⟩) hrest happart
    rw [List.foldl_cons, extend_of_not_mem hnew, hstep, List.append_assoc, List.singleton_append]

theorem empty_merged {c : Catalog} (h : c.names.Nodup) : empty.merged c = c :=
  merged_of_disjoint (c := empty) h (List.disjoint_nil_left _)

theorem entries_append (before after : List Category) :
    entries ⟨before ++ after⟩ = entries ⟨before⟩ ++ entries ⟨after⟩ := List.flatMap_append

theorem category_of_mem_discoveries {c : Catalog} {text : List Char} {file : Option String} {budget : Budget}
    {clock : Clock} {f : Finding} (h : f ∈ c.discoveries text file budget clock) : f.category ∈ c.names := by
  obtain ⟨run, hrun, _, span, _, rfl⟩ := (mem_discoveries c text file budget clock).mp h
  obtain ⟨category, hcategory, hname, _⟩ := mem_entries.mp (entry_of_mem_runs c text budget clock hrun)
  exact hname ▸ List.mem_map_of_mem hcategory

section Disjoint

variable {c d : Catalog} (hd : d.Reachable) (h : c.names.Disjoint d.names) (text : List Char) (file : Option String)
  {budget : Budget} (hb : budget.maxSeconds = none) (clock₁ clock₂ clock₃ : Clock)

include hd h hb

theorem discoveries_merged_of_disjoint :
    (c.merged d).discoveries text file budget clock₃ =
      c.discoveries text file budget clock₁ ++ d.discoveries text file budget clock₂ := by
  simp only [discoveries_timeless hb text file _ _ clock₁]
  rw [merged_of_disjoint hd.names_nodup h, entries_append, List.flatMap_append]

theorem skipped_merged_of_disjoint :
    ((c.merged d).runs budget text clock₃).filterMap (·.skipped? file) =
      (c.runs budget text clock₁).filterMap (·.skipped? file) ++
        (d.runs budget text clock₂).filterMap (·.skipped? file) := by
  rw [skipped_timeless hb text file (c.merged d) clock₃ clock₁, skipped_timeless hb text file c clock₁ clock₁,
    skipped_timeless hb text file d clock₂ clock₁, merged_of_disjoint hd.names_nodup h, entries_append,
    List.filterMap_append]

end Disjoint

/-- Catalogs without a common category can be run one by one: their joined reports are the report of both. -/
theorem audit_merged_eq_join {c d : Catalog} (hd : d.Reachable) (h : c.names.Disjoint d.names) (text : List Char)
    (file : Option String) {budget : Budget} (hb : budget.maxSeconds = none) (clock₁ clock₂ clock₃ : Clock) :
    ∃ first second both after₁ after₂ after₃,
      c.audit text file budget clock₁ = .ok (first, after₁) ∧
      d.audit text file budget clock₂ = .ok (second, after₂) ∧
      (c.merged d).audit text file budget clock₃ = .ok (both, after₃) ∧
      both.findings = (Report.join [first, second]).findings ∧
      both.summary = (Report.join [first, second]).summary ∧
      both.byCategory = (Report.join [first, second]).byCategory ∧
      both.rulesSkipped = (Report.join [first, second]).rulesSkipped ∧
      both.skipped = (Report.join [first, second]).skipped := by
  obtain ⟨after₁, hfirst⟩ := c.audit_eq text file budget clock₁
  obtain ⟨after₂, hsecond⟩ := d.audit_eq text file budget clock₂
  obtain ⟨after₃, hboth⟩ := (c.merged d).audit_eq text file budget clock₃
  refine ⟨_, _, _, after₁, after₂, after₃, hfirst, hsecond, hboth, ?_⟩
  have happart : ∀ f ∈ c.discoveries text file budget clock₁, ∀ g ∈ d.discoveries text file budget clock₂,
      f.category ≠ g.category := by
    intro f hf g hg hcategory
    exact h (category_of_mem_discoveries hf) (hcategory ▸ category_of_mem_discoveries hg)
  have hfindings : Finding.ranked (Finding.firsts ((c.merged d).discoveries text file budget clock₃)) =
      Finding.ranked (Finding.ranked (Finding.firsts (c.discoveries text file budget clock₁)) ++
        Finding.ranked (Finding.firsts (d.discoveries text file budget clock₂))) := by
    rw [discoveries_merged_of_disjoint hd h text file hb clock₁ clock₂ clock₃,
      Finding.firsts_append_of_disjoint happart, Finding.ranked_ranked_append_ranked]
  have hskipped := skipped_merged_of_disjoint hd h text file hb clock₁ clock₂ clock₃
  simp only [Gathering.report, Report.join, hfindings, List.flatMap_cons, List.flatMap_nil, List.append_nil,
    List.map_cons, List.map_nil, List.foldr_cons, List.foldr_nil, true_and]
  split_ifs
  · exact ⟨rfl, rfl⟩
  · rw [hskipped, List.length_append]
    exact ⟨by push_cast; omega, rfl⟩

/-- Each of the catalogs has a rule that is skipped and one that finds the letter. -/
theorem audit_merged_eq_join_of_two_shards :
    (failingLettersUnder ["signs"]).Reachable ∧
    (failingLettersUnder ["letters"]).names.Disjoint (failingLettersUnder ["signs"]).names ∧
    Budget.none.maxSeconds = none ∧
    ∃ first second both after₁ after₂ after₃,
      (failingLettersUnder ["letters"]).audit ['a'] none .none (.ofReadings []) = .ok (first, after₁) ∧
      (failingLettersUnder ["signs"]).audit ['a'] none .none (.ofReadings []) = .ok (second, after₂) ∧
      ((failingLettersUnder ["letters"]).merged (failingLettersUnder ["signs"])).audit ['a'] none .none
        (.ofReadings []) = .ok (both, after₃) ∧
      both.findings = (Report.join [first, second]).findings ∧
      both.summary = (Report.join [first, second]).summary ∧
      both.byCategory = (Report.join [first, second]).byCategory ∧
      both.rulesSkipped = (Report.join [first, second]).rulesSkipped ∧
      both.skipped = (Report.join [first, second]).skipped := by
  have hd : (failingLettersUnder ["signs"]).Reachable :=
    @Reachable.ofEntries ((failingLettersUnder ["signs"]).categories.map Category.toEntry) _
      (List.nodup_singleton _) rfl
  have h : (failingLettersUnder ["letters"]).names.Disjoint (failingLettersUnder ["signs"]).names := by
    simp [failingLettersUnder, names]
  exact ⟨hd, h, rfl, audit_merged_eq_join hd h _ _ rfl _ _ _⟩

end Catalog

end ScriptAudit
