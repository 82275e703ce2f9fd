import ScriptAudit.Proofs.Catalogs

namespace ScriptAudit

theorem nonBlank?_of_nonBlank? {v : Value} {s : String} (h : nonBlank? v = some s) :
    nonBlank? (.text s) = some s := by
  rw [← text_of_nonBlank? h]
  exact h

theorem Severity.ofValue_name (s : Severity) : Severity.ofValue (.text s.name) = .ok s := by
  cases s <;> rfl

namespace Draft

variable {d : Draft} {category : String} {rule : Rule}

theorem textField_eq_ok_iff {name : String} {v : Value} {s : String} :
    d.textField category name v = .ok s ↔ nonBlank? v = some s := by
  unfold textField
  cases nonBlank? v with
  | none => simp [fail]
  | some t => simp

/-- All that a rule which passes has been checked for. -/
theorem check_eq_ok_iff :
    d.check category = .ok rule ↔
      nonBlank? d.title = some rule.title ∧ nonBlank? d.description = some rule.description ∧
      nonBlank? d.suggestion = some rule.suggestion ∧ Severity.ofValue d.severity = .ok rule.severity ∧
      d.detector category = .ok rule.detector := by
  simp only [check, bind_eq_ok_iff, textField_eq_ok_iff]
  constructor
  · rintro ⟨title, htitle, description, hdescription, suggestion, hsuggestion, h⟩
    cases hseverity : Severity.ofValue d.severity with
    | error unknown =>
      rw [hseverity] at h
      exact absurd h (by simp [fail])
    | ok severity =>
      rw [hseverity] at h
      obtain ⟨detector, hdetector, h⟩ := bind_eq_ok_iff.mp h
      cases Except.ok.inj h
      exact ⟨htitle, hdescription, hsuggestion, rfl, hdetector⟩
  · rintro ⟨htitle, hdescription, hsuggestion, hseverity, hdetector⟩
    refine ⟨_, htitle, _, hdescription, _, hsuggestion, ?_⟩
    rw [hseverity]
    exact bind_eq_ok_iff.mpr ⟨_, hdetector, rfl⟩

end Draft

/-- A rule whose texts would pass a check. -/
structure Rule.Valid (r : Rule) : Prop where
  title : nonBlank? (.text r.title) = some r.title
  description : nonBlank? (.text r.description) = some r.description
  suggestion : nonBlank? (.text r.suggestion) = some r.suggestion

theorem Draft.valid_of_check {d : Draft} {category : String} {rule : Rule} (h : d.check category = .ok rule) :
    rule.Valid := by
  obtain ⟨htitle, hdescription, hsuggestion, _⟩ := check_eq_ok_iff.mp h
  exact ⟨nonBlank?_of_nonBlank? htitle, nonBlank?_of_nonBlank? hdescription, nonBlank?_of_nonBlank? hsuggestion⟩

theorem Definition.draft_of_check {definition : Definition} {category : String} {rule : Rule}
    (h : definition.check category = .ok rule) : ∃ d, definition = .draft d ∧ d.check category = .ok rule := by
  cases definition with
  | draft d => exact ⟨d, rfl, h⟩
  | other kind => exact absurd h (by simp [check])

theorem CatalogEntry.check_eq_ok_iff {e : CatalogEntry} {category : Category} :
    e.check = .ok category ↔ nonBlank? e.name = some category.name ∧ ∃ definitions, e.definitions = .list definitions ∧
      List.Forall₂ (fun definition rule => definition.check category.name = .ok rule) definitions category.rules := by
  unfold check
  cases hname : nonBlank? e.name with
  | none => simp
  | some name =>
    cases hdefinitions : e.definitions with
    | other => simp
    | list definitions =>
      simp only [bind_eq_ok_iff, mapM_eq_ok_iff, Option.some.injEq, Definitions.list.injEq, exists_eq_left']
      constructor
      · rintro ⟨rules, hrules, h⟩
        cases Except.ok.inj h
        exact ⟨rfl, hrules⟩
      · rintro ⟨rfl, hrules⟩
        exact ⟨_, hrules, rfl⟩

namespace Catalog

theorem ofEntries_eq_ok_iff {entries : List CatalogEntry} {c : Catalog} :
    ofEntries entries = .ok c ↔ List.Forall₂ (fun e category => e.check = .ok category) entries c.categories := by
  rw [ofEntries, bind_eq_ok_iff]
  simp only [mapM_eq_ok_iff]
  constructor
  · rintro ⟨categories, hall, h⟩
    cases Except.ok.inj h
    exact hall
  · intro hall
    exact ⟨_, hall, rfl⟩

theorem mem_names_merged {c d : Catalog} {name : String} (h : name ∈ (c.merged d).names) :
    name ∈ c.names ∨ name ∈ d.names := by
  obtain ⟨categories⟩ := d
  rw [merged] at h
  induction categories generalizing c with
  | nil => exact .inl h
  | cons category rest ih =>
    rcases ih (c := ⟨extend c.categories category⟩) h with hmem | hmem
    · rw [names, names_extend] at hmem
      split_ifs at hmem
      · exact .inl hmem
      · rcases List.mem_append.mp hmem with hmem | hmem
        · exact .inl hmem
        · exact .inr (List.mem_singleton.mp hmem ▸ List.mem_cons_self)
    · exact .inr (List.mem_cons_of_mem _ hmem)

theorem mem_entries_merged {c d : Catalog} (hc : c.names.Nodup) {entry : String × Rule}
    (h : entry ∈ (c.merged d).entries) : entry ∈ c.entries ∨ entry ∈ d.entries := by
  have hown : entry ∈ (c.merged d).entries.filter (·.1 = entry.1) := List.mem_filter.mpr ⟨h, by simp⟩
  rw [entries_merged_filter hc, List.mem_append, List.mem_filter, List.mem_filter] at hown
  exact hown.imp And.left And.left

theorem mem_entries_select {c : Catalog} {wanted : List String} {entry : String × Rule}
    (h : entry ∈ (c.select wanted).entries) : entry ∈ c.entries := by
  obtain ⟨category, hcategory, hname, hrule⟩ := mem_entries.mp h
  exact mem_entries.mpr ⟨category, (List.mem_filter.mp hcategory).1, hname, hrule⟩

section OfEntries

variable {entries : List CatalogEntry} {c : Catalog} (built : ofEntries entries = .ok c)

include built

theorem nonBlank_of_ofEntries {name : String} (h : name ∈ c.names) : nonBlank? (.text name) = some name := by
  obtain ⟨category, hcategory, rfl⟩ := List.mem_map.mp h
  obtain ⟨e, _, hchecked⟩ := exists_of_forall₂_of_mem (ofEntries_eq_ok_iff.mp built) hcategory
  exact nonBlank?_of_nonBlank? (CatalogEntry.check_eq_ok_iff.mp hchecked).1

/-- The draft that a rule comes from is in one of the entries. -/
theorem draft_of_ofEntries {entry : String × Rule} (h : entry ∈ c.entries) :
    ∃ e ∈ entries, ∃ definitions d, e.definitions = .list definitions ∧ .draft d ∈ definitions ∧
      d.check entry.1 = .ok entry.2 := by
  obtain ⟨category, hcategory, hname, hrule⟩ := mem_entries.mp h
  obtain ⟨e, he, hchecked⟩ := exists_of_forall₂_of_mem (ofEntries_eq_ok_iff.mp built) hcategory
  obtain ⟨_, definitions, hdefinitions, hrules⟩ := CatalogEntry.check_eq_ok_iff.mp hchecked
  obtain ⟨definition, hmem, hdefinition⟩ := exists_of_forall₂_of_mem hrules hrule
  obtain ⟨d, rfl, hd⟩ := Definition.draft_of_check hdefinition
  exact ⟨e, he, definitions, d, hdefinitions, hmem, hname ▸ hd⟩

theorem checked_of_ofEntries {entry : String × Rule} (h : entry ∈ c.entries) :
    ∃ d : Draft, d.check entry.1 = .ok entry.2 := by
  obtain ⟨_, _, _, d, _, _, hd⟩ := draft_of_ofEntries built h
  exact ⟨d, hd⟩

end OfEntries

theorem Reachable.nonBlank {c : Catalog} (h : c.Reachable) {name : String} (hname : name ∈ c.names) :
    nonBlank? (.text name) = some name := by
  induction h with
  | ofEntries _ built => exact nonBlank_of_ofEntries built hname
  | builtin built => exact nonBlank_of_ofEntries built hname
  | merged _ _ ih₁ ih₂ => exact (mem_names_merged hname).elim ih₁ ih₂
  | select _ wanted ih => exact ih ((List.filter_sublist.map _).subset hname)

/-- Whatever way a rule has come into a catalog, it has been checked in the category it is in. -/
theorem Reachable.checked {c : Catalog} (h : c.Reachable) {entry : String × Rule} (hentry : entry ∈ c.entries) :
    ∃ d : Draft, d.check entry.1 = .ok entry.2 := by
  induction h with
  | ofEntries _ built => exact checked_of_ofEntries built hentry
  | builtin built => exact checked_of_ofEntries built hentry
  | merged first _ ih₁ ih₂ => exact (mem_entries_merged first.names_nodup hentry).elim ih₁ ih₂
  | select _ wanted ih => exact ih (mem_entries_select hentry)

theorem Reachable.valid {c : Catalog} (h : c.Reachable) {entry : String × Rule} (hentry : entry ∈ c.entries) :
    entry.2.Valid := by
  obtain ⟨d, hd⟩ := h.checked hentry
  exact d.valid_of_check hd

end Catalog

end ScriptAudit
