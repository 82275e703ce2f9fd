import Mathlib.Data.List.DropRight
import ScriptAudit.Proofs.Folding
import ScriptAudit.Proofs.Isolation
import ScriptAudit.Proofs.Narrowing

namespace ScriptAudit

namespace Text

/-- Neither the first character nor the last is white space. -/
def Flush (cs : List Char) : Prop :=
  cs.head?.map isBlank ≠ some true ∧ cs.getLast?.map isBlank ≠ some true

theorem head?_dropWhile_blank (cs : List Char) : (cs.dropWhile isBlank).head?.map isBlank ≠ some true := by
  have hhead := List.head?_dropWhile_not isBlank cs
  cases hfirst : (cs.dropWhile isBlank).head? with
  | none => simp
  | some c =>
    rw [hfirst] at hhead
    simpa using hhead

theorem dropWhile_of_head? {cs : List Char} (h : cs.head?.map isBlank ≠ some true) : cs.dropWhile isBlank = cs := by
  cases cs with
  | nil => rfl
  | cons c rest => exact List.dropWhile_cons_of_neg (by simpa using h)

theorem flush_between (cs : List Char) : Flush (between isBlank cs) := by
  constructor
  · -- What is left after the right margin is cut off begins as it did before.
    have hpre : between isBlank cs <+: cs.dropWhile isBlank := List.rdropWhile_prefix isBlank _
    cases hcut : between isBlank cs with
    | nil => simp
    | cons c rest =>
      rw [hcut] at hpre
      obtain ⟨margin, hmargin⟩ := hpre
      have hhead := head?_dropWhile_blank cs
      rwa [← hmargin] at hhead
  · rw [between, List.getLast?_reverse]
    exact head?_dropWhile_blank _

theorem between_eq_self_iff {cs : List Char} : between isBlank cs = cs ↔ Flush cs := by
  constructor
  · intro h
    rw [← h]
    exact flush_between cs
  · intro h
    have hlast : cs.reverse.head?.map isBlank ≠ some true := by
      rw [List.head?_reverse]
      exact h.2
    rw [between, dropWhile_of_head? h.1, dropWhile_of_head? hlast, List.reverse_reverse]

theorem trim_eq_self_iff {s : String} : trim s = s ↔ Flush s.toList := by
  rw [← between_eq_self_iff, trim]
  constructor
  · intro h
    rw [← h, String.toList_ofList]
    exact between_eq_self_iff.mpr (flush_between _)
  · intro h
    rw [h, String.ofList_toList]

theorem trim_trim (s : String) : trim (trim s) = trim s := by
  rw [trim_eq_self_iff, trim, String.toList_ofList]
  exact flush_between _

theorem lowerBetween_ne_nil (before : List Char) (c : Char) (after : List Char) :
    lowerBetween before c after ≠ [] := by
  unfold lowerBetween
  split_ifs <;> simp

theorem isBlank_of_mem_lowerBetween {before after : List Char} {c d : Char} (h : d ∈ lowerBetween before c after) :
    isBlank d = isBlank c := by
  unfold lowerBetween at h
  split at h
  next hsigma =>
    rw [beq_iff_eq.mp hsigma, List.mem_singleton.mp h]
    split_ifs <;> rfl
  next =>
    split at h
    next hdotted =>
      rw [beq_iff_eq.mp hdotted]
      rcases List.mem_cons.mp h with rfl | h
      · rfl
      · rw [List.mem_singleton.mp h]
        rfl
    next =>
      rw [List.mem_singleton.mp h]
      exact isBlank_lowerCode c

theorem lowerFrom_ne_nil (before : List Char) (c : Char) (after : List Char) : lowerFrom before (c :: after) ≠ [] :=
  List.append_ne_nil_of_left_ne_nil (lowerBetween_ne_nil before c after) _

theorem head?_lowerFrom (before cs : List Char) :
    (lowerFrom before cs).head?.map isBlank = cs.head?.map isBlank := by
  cases cs with
  | nil => rfl
  | cons c after =>
    obtain ⟨d, rest, hd⟩ := List.exists_cons_of_ne_nil (lowerBetween_ne_nil before c after)
    have hblank : isBlank d = isBlank c := isBlank_of_mem_lowerBetween (hd ▸ List.mem_cons_self)
    rw [lowerFrom, hd, List.cons_append, List.head?_cons, List.head?_cons, Option.map_some, Option.map_some, hblank]

theorem getLast?_lowerFrom (before cs : List Char) :
    (lowerFrom before cs).getLast?.map isBlank = cs.getLast?.map isBlank := by
  induction cs generalizing before with
  | nil => rfl
  | cons c after ih =>
    cases after with
    | nil =>
      have hlast := List.getLast?_eq_some_getLast (lowerBetween_ne_nil before c [])
      have hblank := isBlank_of_mem_lowerBetween (List.getLast_mem (lowerBetween_ne_nil before c []))
      rw [lowerFrom, lowerFrom, List.append_nil, hlast, Option.map_some, hblank, List.getLast?_singleton,
        Option.map_some]
    | cons d rest =>
      rw [lowerFrom, List.getLast?_append_of_ne_nil _ (lowerFrom_ne_nil _ d rest), ih, List.getLast?_cons_cons]

/-- Lowering neither makes a margin nor takes one away. -/
theorem trim_lower_iff {s : String} : trim (lower s) = lower s ↔ trim s = s := by
  rw [trim_eq_self_iff, trim_eq_self_iff, lower, String.toList_ofList, Flush, head?_lowerFrom, getLast?_lowerFrom,
    Flush]

end Text

namespace Catalog

theorem mem_select_iff {c : Catalog} {wanted : List String} {category : Category} :
    category ∈ (c.select wanted).categories ↔ category ∈ c.categories ∧
      ∃ name ∈ wanted, Text.isAllBlank name = false ∧ Text.lower (Text.trim name) = Text.lower category.name := by
  simp only [select_eq, wantedKeys, List.mem_filter, List.contains_iff_mem, List.mem_map, Bool.not_eq_true',
    and_assoc]

/-- Names that are looked for have no margins, so that a category whose name has one is not found. -/
theorem trim_of_mem_select {c : Catalog} {wanted : List String} {category : Category}
    (h : category ∈ (c.select wanted).categories) : Text.trim category.name = category.name := by
  obtain ⟨_, name, _, _, hname⟩ := mem_select_iff.mp h
  have hkey : Text.trim (Text.lower (Text.trim name)) = Text.lower (Text.trim name) :=
    Text.trim_lower_iff.mpr (Text.trim_trim name)
  rw [hname] at hkey
  exact Text.trim_lower_iff.mp hkey

theorem mem_select_own_iff {c : Catalog} (hc : c.Reachable) {wanted : List String} {category : Category}
    (hcategory : category ∈ c.categories) (hwanted : category.name ∈ wanted) :
    category ∈ (c.select wanted).categories ↔ Text.trim category.name = category.name := by
  constructor
  · exact trim_of_mem_select
  · intro htrim
    have hnamed := hc.nonBlank (List.mem_map_of_mem hcategory)
    have hblank : Text.isAllBlank category.name = false := by simpa [nonBlank?] using hnamed
    exact mem_select_iff.mpr ⟨hcategory, category.name, hwanted, hblank, by rw [htrim]⟩

theorem select_eq_self_iff {c : Catalog} {wanted : List String} :
    c.select wanted = c ↔ ∀ category ∈ c.categories, category ∈ (c.select wanted).categories := by
  constructor
  · intro h category hcategory
    rwa [h]
  · intro h
    have hall : c.categories.filter (fun category => (wantedKeys wanted).contains (Text.lower category.name)) =
        c.categories := List.filter_eq_self.mpr fun category hcategory => (List.mem_filter.mp (h category hcategory)).2
    rw [select_eq, hall]

/-- By its own name a category is selected exactly if the name has no margin. A category whose name has one is not
selected by any name, and a catalog with such a category is not what its names select from it. -/
theorem select_own_names_iff {c : Catalog} (hc : c.Reachable) :
    (∀ ns : List String, ns.Sublist c.names → ∀ category ∈ c.categories, category.name ∈ ns →
      (category ∈ (c.select ns).categories ↔ Text.trim category.name = category.name)) ∧
    (∀ wanted : List String, ∀ category ∈ (c.select wanted).categories,
      Text.trim category.name = category.name) ∧
    (c.select c.names = c ↔ ∀ name ∈ c.names, Text.trim name = name) := by
  refine ⟨fun ns _ category => mem_select_own_iff hc, fun wanted category => trim_of_mem_select, ?_⟩
  rw [select_eq_self_iff, names, List.forall_mem_map]
  constructor
  · intro h category hcategory
    exact trim_of_mem_select (h category hcategory)
  · intro h category hcategory
    exact (mem_select_own_iff hc hcategory (List.mem_map_of_mem hcategory)).mpr (h category hcategory)

/-- A name with a margin beside one in capitals. -/
def marginedLetters : Catalog :=
  ⟨[" letters", "SIGNS"].map fun name => ⟨name, (lettersOf [(.low, none)]).categories.flatMap (·.rules)⟩⟩

theorem marginedLetters_reachable : marginedLetters.Reachable :=
  @Reachable.ofEntries (marginedLetters.categories.map Category.toEntry) _
    (by simp [marginedLetters, Category.toEntry]) rfl

theorem select_own_names_iff_of_margin :
    marginedLetters.Reachable ∧
    (∀ ns : List String, ns.Sublist [" letters", "SIGNS"] → ∀ category ∈ marginedLetters.categories,
      category.name ∈ ns →
        (category ∈ (marginedLetters.select ns).categories ↔ Text.trim category.name = category.name)) ∧
    (∀ wanted : List String, ∀ category ∈ (marginedLetters.select wanted).categories,
      Text.trim category.name = category.name) ∧
    (marginedLetters.select [" letters", "SIGNS"] = marginedLetters ↔
      ∀ name ∈ [" letters", "SIGNS"], Text.trim name = name) :=
  ⟨marginedLetters_reachable, select_own_names_iff marginedLetters_reachable⟩

/-- A category that its own name does not select. -/
theorem select_misses_own_name :
    marginedLetters.Reachable ∧ [" letters"].Sublist marginedLetters.names ∧
    (marginedLetters.select [" letters"]).categories = [] ∧
    (marginedLetters.select marginedLetters.names).names = ["SIGNS"] ∧
    marginedLetters.select marginedLetters.names ≠ marginedLetters := by
  refine ⟨marginedLetters_reachable, by decide, by decide, by decide, by decide⟩

end Catalog

end ScriptAudit
