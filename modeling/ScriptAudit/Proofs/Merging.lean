import ScriptAudit.Proofs.Sharding

namespace ScriptAudit

namespace Catalog

theorem nodup_names_cons {category : Category} {rest : List Category} :
    (names ⟨category :: rest⟩).Nodup ↔ category.name ∉ names ⟨rest⟩ ∧ (names ⟨rest⟩).Nodup := List.nodup_cons

/-- The rules under a name. -/
def rulesOf (c : Catalog) (name : String) : List Rule :=
  match c.categories.find? (·.name = name) with
  | some category => category.rules
  | none => []

theorem rulesOf_cons (category : Category) (rest : List Category) (name : String) :
    rulesOf ⟨category :: rest⟩ name = if category.name = name then category.rules else rulesOf ⟨rest⟩ name := by
  by_cases hname : category.name = name
  · simp [rulesOf, hname]
  · simp [rulesOf, hname]

theorem rulesOf_of_not_mem {c : Catalog} {name : String} (h : name ∉ c.names) : c.rulesOf name = [] := by
  have hnone : c.categories.find? (·.name = name) = none := by
    rw [List.find?_eq_none]
    intro category hcategory hname
    exact h (of_decide_eq_true hname ▸ List.mem_map_of_mem hcategory)
  rw [rulesOf, hnone]

/-- A catalog whose names are different is told by its names and the rules under each. -/
theorem categories_eq_map_rulesOf {c : Catalog} (h : c.names.Nodup) :
    c.categories = c.names.map fun name => ⟨name, c.rulesOf name⟩ := by
  obtain ⟨categories⟩ := c
  induction categories with
  | nil => rfl
  | cons category rest ih =>
    obtain ⟨hnew, hrest⟩ := nodup_names_cons.mp h
    have hlater (name : String) (hname : name ∈ names ⟨rest⟩) :
        rulesOf ⟨category :: rest⟩ name = rulesOf ⟨rest⟩ name := by
      have hne : category.name ≠ name := fun heq => hnew (heq ▸ hname)
      rw [rulesOf_cons, if_neg hne]
    have hhead : rulesOf ⟨category :: rest⟩ category.name = category.rules := by
      rw [rulesOf_cons, if_pos rfl]
    have hrules : (names ⟨rest⟩).map (fun name => (⟨name, rulesOf ⟨category :: rest⟩ name⟩ : Category)) = rest := by
      rw [List.map_congr_left fun name hname => by rw [hlater name hname]]
      exact (ih hrest).symm
    change category :: rest = ⟨category.name, rulesOf ⟨category :: rest⟩ category.name⟩ ::
      (names ⟨rest⟩).map fun name => ⟨name, rulesOf ⟨category :: rest⟩ name⟩
    rw [hhead, hrules]

theorem eq_of_rulesOf {c d : Catalog} (hc : c.names.Nodup) (hnames : c.names = d.names)
    (hrules : ∀ name, c.rulesOf name = d.rulesOf name) : c = d := by
  have hd : d.names.Nodup := hnames ▸ hc
  have hcategories : c.categories = d.categories := by
    rw [categories_eq_map_rulesOf hc, categories_eq_map_rulesOf hd, hnames]
    exact List.map_congr_left fun name _ => by rw [hrules]
  exact congrArg mk hcategories

theorem rulesOf_extend (categories : List Category) (added : Category) (name : String) :
    rulesOf ⟨extend categories added⟩ name =
      rulesOf ⟨categories⟩ name ++ if added.name = name then added.rules else [] := by
  induction categories with
  | nil => rw [extend, rulesOf_cons]; rfl
  | cons category rest ih =>
    rw [extend, rulesOf_cons]
    by_cases hsame : category.name = added.name
    · rw [if_pos hsame, rulesOf_cons, hsame]
      split_ifs
      · rfl
      · rw [List.append_nil]
    · rw [if_neg hsame, rulesOf_cons, ih]
      by_cases hname : category.name = name
      · rw [if_pos hname, if_pos hname, if_neg fun hadded => hsame (hname.trans hadded.symm), List.append_nil]
      · rw [if_neg hname, if_neg hname]

theorem rulesOf_merged (c : Catalog) {d : Catalog} (hd : d.names.Nodup) (name : String) :
    (c.merged d).rulesOf name = c.rulesOf name ++ d.rulesOf name := by
  obtain ⟨categories⟩ := d
  rw [merged]
  induction categories generalizing c with
  | nil => exact (List.append_nil _).symm
  | cons category rest ih =>
    obtain ⟨hnew, hrest⟩ := nodup_names_cons.mp hd
    rw [List.foldl_cons, ih ⟨extend c.categories category⟩ hrest, rulesOf_extend, List.append_assoc, rulesOf_cons]
    by_cases hname : category.name = name
    -- The categories that follow have other names, so that no rules are added under this name again.
    · have hnone : rulesOf ⟨rest⟩ name = [] := rulesOf_of_not_mem (hname ▸ hnew)
      rw [if_pos hname, if_pos hname, hnone, List.append_nil]
    · rw [if_neg hname, if_neg hname, List.nil_append]

theorem names_merged (c : Catalog) {d : Catalog} (hd : d.names.Nodup) :
    (c.merged d).names = c.names ++ d.names.filter (· ∉ c.names) := by
  obtain ⟨categories⟩ := d
  rw [merged]
  induction categories generalizing c with
  | nil => exact (List.append_nil _).symm
  | cons category rest ih =>
    obtain ⟨hnew, hrest⟩ := nodup_names_cons.mp hd
    have hextended : names ⟨extend c.categories category⟩ =
        if category.name ∈ c.names then c.names else c.names ++ [category.name] := names_extend _ _
    have hhead : names ⟨category :: rest⟩ = category.name :: names ⟨rest⟩ := rfl
    rw [List.foldl_cons, ih ⟨extend c.categories category⟩ hrest, hextended, hhead]
    by_cases hmem : category.name ∈ c.names
    · rw [if_pos hmem, List.filter_cons_of_neg (by simpa using hmem)]
    · have hlater : (names ⟨rest⟩).filter (· ∉ c.names ++ [category.name]) = (names ⟨rest⟩).filter (· ∉ c.names) := by
        refine List.filter_congr fun name hname => ?_
        have hne : name ≠ category.name := fun heq => hnew (heq ▸ hname)
        simp [hne]
      rw [if_neg hmem, hlater, List.filter_cons_of_pos (by simpa using hmem), List.append_assoc,
        List.singleton_append]

theorem ruleCount_cons (category : Category) (rest : List Category) :
    ruleCount ⟨category :: rest⟩ = category.rules.length + ruleCount ⟨rest⟩ := by
  rw [ruleCount, entries_cons, List.length_append, List.length_map, ruleCount]

theorem ruleCount_extend (categories : List Category) (added : Category) :
    ruleCount ⟨extend categories added⟩ = ruleCount ⟨categories⟩ + added.rules.length := by
  induction categories with
  | nil => rw [extend, ruleCount_cons, Nat.add_comm]
  | cons category rest ih =>
    rw [extend]
    split_ifs
    · rw [ruleCount_cons, ruleCount_cons, List.length_append]
      omega
    · rw [ruleCount_cons, ruleCount_cons, ih]
      omega

theorem ruleCount_merged (c d : Catalog) : (c.merged d).ruleCount = c.ruleCount + d.ruleCount := by
  obtain ⟨categories⟩ := d
  rw [merged]
  induction categories generalizing c with
  | nil => rfl
  | cons category rest ih =>
    rw [List.foldl_cons, ih ⟨extend c.categories category⟩, ruleCount_extend, ruleCount_cons, Nat.add_assoc]

/-- Whichever of three catalogs are merged first, the names come in the order of the catalogs, each where it comes
first. -/
theorem names_merged_assoc (a : Catalog) {b c : Catalog} (hb : b.names.Nodup) (hc : c.names.Nodup) :
    ((a.merged b).merged c).names = (a.merged (b.merged c)).names := by
  have hboth : (b.merged c).names.Nodup := nodup_merged hb
  rw [names_merged _ hc, names_merged _ hb, names_merged _ hboth, names_merged _ hc, List.filter_append,
    List.append_assoc, List.filter_filter]
  congr 2
  refine List.filter_congr fun name _ => ?_
  by_cases ha : name ∈ a.names
  · simp [ha]
  · simp [ha]

theorem merged_assoc {a b c : Catalog} (ha : a.names.Nodup) (hb : b.names.Nodup) (hc : c.names.Nodup) :
    (a.merged b).merged c = a.merged (b.merged c) := by
  refine eq_of_rulesOf (nodup_merged (nodup_merged ha)) (names_merged_assoc a hb hc) fun name => ?_
  have hboth : (b.merged c).names.Nodup := nodup_merged hb
  rw [rulesOf_merged _ hc, rulesOf_merged _ hb, rulesOf_merged _ hboth, rulesOf_merged _ hc, List.append_assoc]

/-- Merging puts catalogs one behind the other, as lists are. It does not matter how they are grouped, a catalog
without categories changes nothing, names and the rules under each of them keep their order, and no rule is lost. -/
theorem merged_monoid {a b c : Catalog} (ha : a.Reachable) (hb : b.Reachable) (hc : c.Reachable) :
    (a.merged b).merged c = a.merged (b.merged c) ∧
    empty.merged a = a ∧ a.merged empty = a ∧
    (a.merged b).names = a.names ++ b.names.filter (· ∉ a.names) ∧
    (∀ name, (a.merged b).rulesOf name = a.rulesOf name ++ b.rulesOf name) ∧
    (a.merged b).ruleCount = a.ruleCount + b.ruleCount := by
  refine ⟨merged_assoc ha.names_nodup hb.names_nodup hc.names_nodup, empty_merged ha.names_nodup, rfl,
    names_merged a hb.names_nodup, ?_, ruleCount_merged a b⟩
  intro name
  exact rulesOf_merged a hb.names_nodup name

/-- Each two of the catalogs have a category in common. -/
theorem merged_monoid_of_overlaps :
    let a := failingLettersUnder ["letters", "signs"]
    let b := failingLettersUnder ["signs", "marks"]
    let c := failingLettersUnder ["marks", "digits", "letters"]
    a.Reachable ∧ b.Reachable ∧ c.Reachable ∧ (a.merged (b.merged c)).names = ["letters", "signs", "marks", "digits"] ∧
    (a.merged b).merged c = a.merged (b.merged c) ∧
    empty.merged a = a ∧ a.merged empty = a ∧
    (a.merged b).names = a.names ++ b.names.filter (· ∉ a.names) ∧
    (∀ name, (a.merged b).rulesOf name = a.rulesOf name ++ b.rulesOf name) ∧
    (a.merged b).ruleCount = a.ruleCount + b.ruleCount := by
  have hreachable (names : List String) (hdifferent : names.Nodup)
      (hbuilt : ofEntries ((failingLettersUnder names).categories.map Category.toEntry) =
        .ok (failingLettersUnder names)) : (failingLettersUnder names).Reachable := by
    refine .ofEntries ?_ hbuilt
    have hnames : ((failingLettersUnder names).categories.map Category.toEntry).map (·.name) = names.map .text := by
      simp [failingLettersUnder, Category.toEntry]
    rw [hnames]
    exact hdifferent.map fun _ _ h => by simpa using h
  have ha : (failingLettersUnder ["letters", "signs"]).Reachable := hreachable _ (by decide) rfl
  have hb : (failingLettersUnder ["signs", "marks"]).Reachable := hreachable _ (by decide) rfl
  have hc : (failingLettersUnder ["marks", "digits", "letters"]).Reachable := hreachable _ (by decide) rfl
  exact ⟨ha, hb, hc, rfl, merged_monoid ha hb hc⟩

end Catalog

end ScriptAudit
