import ScriptAudit.Proofs.RoundTrip

namespace ScriptAudit

theorem nonBlank?_text_iff {s : String} : nonBlank? (.text s) = some s ↔ Text.isAllBlank s = false := by
  simp [nonBlank?]

/-- What every rule of a catalog can be relied on for. -/
structure Rule.Sound (r : Rule) : Prop where
  title : Text.isAllBlank r.title = false
  description : Text.isAllBlank r.description = false
  suggestion : Text.isAllBlank r.suggestion = false
  severity : r.severity ∈ [Severity.low, .medium, .high, .critical]
  pattern : Pattern.compile r.detector.pattern.source r.detector.pattern.modes = .ok r.detector.pattern.program

namespace Rule

variable {r : Rule}

theorem sound_iff_valid : r.Sound ↔ r.Valid := by
  constructor
  · intro h
    exact ⟨nonBlank?_text_iff.mpr h.title, nonBlank?_text_iff.mpr h.description, nonBlank?_text_iff.mpr h.suggestion⟩
  · intro h
    have hseverity : r.severity ∈ [Severity.low, .medium, .high, .critical] := by cases r.severity <;> decide
    exact ⟨nonBlank?_text_iff.mp h.title, nonBlank?_text_iff.mp h.description, nonBlank?_text_iff.mp h.suggestion,
      hseverity, r.detector.pattern.compiled⟩

/-- A sound rule passes as a draft of itself, and comes out as it was. -/
theorem Sound.check_toDraft (h : r.Sound) (category : String) :
    (Definition.draft r.toDraft).check category = .ok r := by
  have hvalid := sound_iff_valid.mp h
  exact Draft.check_eq_ok_iff.mpr
    ⟨hvalid.title, hvalid.description, hvalid.suggestion, r.severity.ofValue_name, rfl⟩

end Rule

namespace Catalog

/-- What can be relied on in a catalog: no two categories of one name, no name that is blank, and sound rules. -/
structure Sound (c : Catalog) : Prop where
  different : c.names.Nodup
  named : ∀ name ∈ c.names, Text.isAllBlank name = false
  rules : ∀ entry ∈ c.entries, entry.2.Sound

variable {c : Catalog}

theorem Reachable.sound (h : c.Reachable) : c.Sound where
  different := h.names_nodup
  named _ hname := nonBlank?_text_iff.mp (h.nonBlank hname)
  rules _ hentry := Rule.sound_iff_valid.mpr (h.valid hentry)

/-- A sound catalog passes as the entries of its own categories, and comes out as it was. -/
theorem Sound.ofEntries_toEntry (h : c.Sound) : ofEntries (c.categories.map Category.toEntry) = .ok c := by
  rw [ofEntries_eq_ok_iff, List.forall₂_map_left_iff, List.forall₂_same]
  intro category hcategory
  have hname := h.named category.name (List.mem_map_of_mem hcategory)
  refine CatalogEntry.check_eq_ok_iff.mpr ⟨nonBlank?_text_iff.mpr hname, _, rfl, ?_⟩
  rw [List.forall₂_map_left_iff, List.forall₂_same]
  intro rule hrule
  have hsound := h.rules (category.name, rule) (mem_entries.mpr ⟨category, hcategory, rfl, hrule⟩)
  exact hsound.check_toDraft category.name

theorem nodup_names_toEntry (h : c.names.Nodup) : ((c.categories.map Category.toEntry).map (·.name)).Nodup := by
  have hnames : (c.categories.map Category.toEntry).map (·.name) = c.names.map .text := by
    simp [names, Category.toEntry]
  rw [hnames]
  exact h.map fun _ _ heq => by simpa using heq

/-- However a catalog was built it is sound, and checking it once more changes nothing. No more can be relied on: every
sound catalog can be built. -/
theorem reachable_iff_sound (c : Catalog) :
    (c.Reachable ↔ c.Sound) ∧
    (c.Reachable → ((c.categories.map Category.toEntry).map (·.name)).Nodup ∧
      ofEntries (c.categories.map Category.toEntry) = .ok c) := by
  constructor
  · constructor
    · exact Reachable.sound
    · intro h
      exact .ofEntries (nodup_names_toEntry h.different) h.ofEntries_toEntry
  · intro h
    exact ⟨nodup_names_toEntry h.names_nodup, h.sound.ofEntries_toEntry⟩

/-- A pattern that no text stands for, and a selection with a blank name and a name in capitals. -/
def selectedPatterns : Catalog :=
  ((patternsOf [unsourced]).merged (patternsOf [slashed])).select [" PATTERNS", ""]

theorem reachable_iff_sound_of_selected_patterns :
    selectedPatterns.Reachable ∧ selectedPatterns.Sound ∧ selectedPatterns.ruleCount = 2 ∧
    ofEntries (selectedPatterns.categories.map Category.toEntry) = .ok selectedPatterns := by
  have hfirst : (patternsOf [unsourced]).Reachable :=
    @Reachable.ofEntries ((patternsOf [unsourced]).categories.map Category.toEntry) _ (List.nodup_singleton _) rfl
  have hsecond : (patternsOf [slashed]).Reachable :=
    @Reachable.ofEntries ((patternsOf [slashed]).categories.map Category.toEntry) _ (List.nodup_singleton _) rfl
  have h : selectedPatterns.Reachable := (hfirst.merged hsecond).select _
  obtain ⟨hiff, hback⟩ := reachable_iff_sound selectedPatterns
  exact ⟨h, hiff.mp h, by decide, (hback h).2⟩

end Catalog

end ScriptAudit
