import ScriptAudit.Catalog.Pack
import ScriptAudit.Proofs.Lists

namespace ScriptAudit

theorem text_of_nonBlank? {v : Value} {s : String} (h : nonBlank? v = some s) : v = .text s := by
  cases v with
  | text t =>
    simp only [nonBlank?] at h
    split at h
    · exact absurd h (by simp)
    · rw [Option.some.inj h]
  | _ => exact absurd h (by simp [nonBlank?])

/-- A category has the name of its entry. -/
theorem CatalogEntry.name_of_check {e : CatalogEntry} {category : Category} (h : e.check = .ok category) :
    e.name = .text category.name := by
  unfold check at h
  split at h
  next => exact absurd h (by simp)
  next name hname =>
    rw [text_of_nonBlank? hname]
    split at h
    next => exact absurd h (by simp)
    next definitions _ =>
      obtain ⟨rules, _, h⟩ := bind_eq_ok_iff.mp h
      rw [← Except.ok.inj h]

theorem Pack.select_sublist (packs : List Pack) (selector : Option String) :
    (select packs selector).Sublist packs := by
  dsimp only [select]
  split
  · exact List.Sublist.refl _
  · exact List.filter_sublist

namespace Catalog

theorem mem_entries {c : Catalog} {name : String} {rule : Rule} :
    (name, rule) ∈ c.entries ↔ ∃ category ∈ c.categories, category.name = name ∧ rule ∈ category.rules := by
  simp only [entries, List.mem_flatMap, List.mem_map, Prod.mk.injEq]
  constructor
  · rintro ⟨category, hcategory, _, hrule, hname, rfl⟩
    exact ⟨category, hcategory, hname, hrule⟩
  · rintro ⟨category, hcategory, hname, hrule⟩
    exact ⟨category, hcategory, rule, hrule, hname, rfl⟩

/-- What can be built: from entries under different names, from the built-in packs, and from catalogs by merging and
by selecting. -/
inductive Reachable : Catalog → Prop
  | ofEntries {entries : List CatalogEntry} {c : Catalog} (different : (entries.map (·.name)).Nodup)
      (built : Catalog.ofEntries entries = .ok c) : Reachable c
  | builtin {selector : Option String} {c : Catalog} (built : Catalog.builtin selector = .ok c) : Reachable c
  | merged {c d : Catalog} (first : Reachable c) (second : Reachable d) : Reachable (c.merged d)
  | select {c : Catalog} (whole : Reachable c) (wanted : List String) : Reachable (c.select wanted)

theorem names_ofEntries {entries : List CatalogEntry} {c : Catalog} (built : ofEntries entries = .ok c) :
    entries.map (·.name) = c.names.map .text := by
  obtain ⟨categories, hall, hc⟩ := bind_eq_ok_iff.mp built
  rw [← Except.ok.inj hc, names, List.map_map]
  have hchecked := mapM_eq_ok_iff.mp hall
  clear built hall hc
  induction hchecked with
  | nil => rfl
  | cons hhead _ ih => rw [List.map_cons, List.map_cons, CatalogEntry.name_of_check hhead, ih, Function.comp_apply]

theorem names_extend (categories : List Category) (added : Category) :
    (extend categories added).map (·.name) =
      if added.name ∈ categories.map (·.name) then categories.map (·.name)
      else categories.map (·.name) ++ [added.name] := by
  induction categories with
  | nil => simp [extend]
  | cons category rest ih =>
    rw [extend]
    by_cases hname : category.name = added.name
    · simp [hname]
    · rw [if_neg hname, List.map_cons, ih]
      by_cases hmem : added.name ∈ rest.map (·.name) <;> simp [hmem, Ne.symm hname]

/-- Extending keeps names apart. -/
theorem nodup_extend {categories : List Category} (h : (categories.map (·.name)).Nodup) (added : Category) :
    ((extend categories added).map (·.name)).Nodup := by
  rw [names_extend]
  split_ifs with hmem
  · exact h
  · exact List.Nodup.append h (List.nodup_singleton _) (by simpa using hmem)

theorem nodup_merged {c d : Catalog} (h : c.names.Nodup) : (c.merged d).names.Nodup := by
  obtain ⟨categories⟩ := d
  rw [merged]
  induction categories generalizing c with
  | nil => exact h
  | cons category rest ih => exact ih (c := ⟨extend c.categories category⟩) (nodup_extend h category)

theorem nodup_select {c : Catalog} (h : c.names.Nodup) (wanted : List String) : (c.select wanted).names.Nodup :=
  h.sublist (List.filter_sublist.map _)

theorem nodup_ofEntries {entries : List CatalogEntry} {c : Catalog} (different : (entries.map (·.name)).Nodup)
    (built : ofEntries entries = .ok c) : c.names.Nodup := by
  rw [names_ofEntries built] at different
  exact different.of_map _

theorem nodup_builtin {selector : Option String} {c : Catalog} (built : builtin selector = .ok c) :
    c.names.Nodup := by
  have hall : (Pack.builtin.map (·.name)).Nodup := by decide
  have hsome : ((Pack.select Pack.builtin selector).map (·.name)).Nodup :=
    hall.sublist ((Pack.select_sublist Pack.builtin selector).map _)
  refine nodup_ofEntries ?_ built
  have hnames : ((Pack.select Pack.builtin selector).map Pack.toEntry).map (·.name) =
      ((Pack.select Pack.builtin selector).map (·.name)).map .text := by
    simp [Pack.toEntry]
  rw [hnames]
  exact hsome.map fun _ _ h => by simpa using h

/-- No two categories of a catalog have one name. -/
theorem Reachable.names_nodup {c : Catalog} (h : c.Reachable) : c.names.Nodup := by
  induction h with
  | ofEntries different built => exact nodup_ofEntries different built
  | builtin built => exact nodup_builtin built
  | merged _ _ ih _ => exact nodup_merged ih
  | select _ wanted ih => exact nodup_select ih wanted

theorem entries_nil : entries ⟨[]⟩ = [] := rfl

theorem entries_cons (category : Category) (rest : List Category) :
    entries ⟨category :: rest⟩ = category.rules.map (category.name, ·) ++ entries ⟨rest⟩ := rfl

/-- The entries under a name that is not there. -/
theorem entries_filter_of_not_mem {c : Catalog} {name : String} (h : name ∉ c.names) :
    c.entries.filter (·.1 = name) = [] := by
  rw [List.filter_eq_nil_iff]
  rintro ⟨n, rule⟩ hentry
  obtain ⟨category, hcategory, rfl, _⟩ := mem_entries.mp hentry
  have hne : category.name ≠ name := fun hn => h (hn ▸ List.mem_map_of_mem hcategory)
  simpa using hne

/-- Under every name the added rules come last. -/
theorem entries_extend_filter {categories : List Category} (h : (categories.map (·.name)).Nodup) (added : Category)
    (name : String) :
    (entries ⟨extend categories added⟩).filter (·.1 = name) =
      (entries ⟨categories⟩).filter (·.1 = name) ++ (entries ⟨[added]⟩).filter (·.1 = name) := by
  induction categories with
  | nil => rw [extend, entries_nil, List.filter_nil, List.nil_append]
  | cons category rest ih =>
    rw [List.map_cons, List.nodup_cons] at h
    rw [extend]
    by_cases hname : category.name = added.name
    · rw [if_pos hname, entries_cons, entries_cons, entries_cons, entries_nil, List.append_nil, ← hname]
      simp only [List.map_append, List.filter_append, List.append_assoc, List.append_cancel_left_eq]
      -- The categories that follow have other names, so nothing under this name comes after the added rules.
      by_cases hn : category.name = name
      · rw [entries_filter_of_not_mem (c := ⟨rest⟩) (hn ▸ h.1), List.append_nil, List.nil_append]
      · have hnone : (added.rules.map (category.name, ·)).filter (·.1 = name) = [] := by simp [hn]
        rw [hnone, List.nil_append, List.append_nil]
    · rw [if_neg hname, entries_cons, entries_cons, List.filter_append, List.filter_append, ih h.2,
        List.append_assoc]

/-- Under every name the rules of the second catalog follow those of the first. -/
theorem entries_merged_filter {c : Catalog} (h : c.names.Nodup) (d : Catalog) (name : String) :
    (c.merged d).entries.filter (·.1 = name) = c.entries.filter (·.1 = name) ++ d.entries.filter (·.1 = name) := by
  obtain ⟨categories⟩ := d
  rw [merged]
  induction categories generalizing c with
  | nil => rw [List.foldl_nil, entries_nil, List.filter_nil, List.append_nil]
  | cons category rest ih =>
    have hstep := ih (c := ⟨extend c.categories category⟩) (nodup_extend h category)
    rw [List.foldl_cons, hstep, entries_extend_filter h, entries_cons category rest, List.filter_append,
      List.append_assoc, entries_cons, entries_nil, List.append_nil]

theorem entries_sublist_extend (categories : List Category) (added : Category) :
    (entries ⟨categories⟩).Sublist (entries ⟨extend categories added⟩) := by
  induction categories with
  | nil => exact List.nil_sublist _
  | cons category rest ih =>
    rw [extend]
    split_ifs
    · rw [entries_cons, entries_cons, List.map_append, List.append_assoc]
      exact (List.Sublist.refl _).append (List.sublist_append_right _ _)
    · exact (List.Sublist.refl _).append ih

theorem entries_sublist_merged (c d : Catalog) : c.entries.Sublist (c.merged d).entries := by
  obtain ⟨categories⟩ := d
  rw [merged]
  induction categories generalizing c with
  | nil => exact List.Sublist.refl _
  | cons category rest ih =>
    have hstep := ih ⟨extend c.categories category⟩
    exact (entries_sublist_extend c.categories category).trans hstep

end Catalog

end ScriptAudit
