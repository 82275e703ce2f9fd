import Mathlib.Data.List.Forall2
import ScriptAudit.Catalog.Load
import ScriptAudit.Proofs.Builtin
import ScriptAudit.Proofs.Lowering

namespace ScriptAudit

namespace Catalog

/-- The names that a selection looks for. -/
def wantedKeys (wanted : List String) : List String :=
  (wanted.filter fun n => !Text.isAllBlank n).map fun n => Text.lower (Text.trim n)

theorem select_eq (c : Catalog) (wanted : List String) :
    c.select wanted =
      ⟨c.categories.filter fun category => (wantedKeys wanted).contains (Text.lower category.name)⟩ := rfl

section Keep

variable (keep : String → Bool)

/-- Rules added under a name that is not kept leave no trace in what is kept. -/
theorem extend_filter (categories : List Category) (added : Category) :
    (extend categories added).filter (keep ·.name) =
      if keep added.name then extend (categories.filter (keep ·.name)) added else categories.filter (keep ·.name) := by
  induction categories with
  | nil => cases hadded : keep added.name <;> simp [extend, hadded]
  | cons category rest ih =>
    rw [extend]
    by_cases hname : category.name = added.name
    · cases hadded : keep added.name <;> simp [extend, hname, hadded]
    · rw [if_neg hname, List.filter_cons, List.filter_cons, ih]
      cases hcategory : keep category.name <;> cases hadded : keep added.name <;> simp [extend, hname]

theorem foldl_extend_filter (categories added : List Category) :
    (added.foldl extend categories).filter (keep ·.name) =
      (added.filter (keep ·.name)).foldl extend (categories.filter (keep ·.name)) := by
  induction added generalizing categories with
  | nil => rfl
  | cons category rest ih =>
    rw [List.foldl_cons, ih, extend_filter, List.filter_cons]
    cases keep category.name <;> rfl

end Keep

/-- It makes no difference whether categories are selected before or after merging. -/
theorem select_merged (c d : Catalog) (wanted : List String) :
    (c.merged d).select wanted = (c.select wanted).merged (d.select wanted) :=
  congrArg Catalog.mk
    (foldl_extend_filter (fun name => (wantedKeys wanted).contains (Text.lower name)) c.categories d.categories)

end Catalog

namespace Pack

/-- The pieces of a selector in lower case ask for the same packs whether they are lowered once more or not. -/
theorem contains_listed {key name : String} (hkey : ∀ c ∈ key.toList, Text.Settled c.toNat) (hname : name ≠ "") :
    (Text.listed key).contains name = (Catalog.wantedKeys (Text.pieces ',' key)).contains name := by
  have hpiece (piece : String) (hmem : piece ∈ Text.pieces ',' key) : Text.lower (Text.trim piece) = Text.trim piece := by
    refine Text.lower_of_settled fun c hc => hkey c ?_
    rw [Text.trim, String.toList_ofList] at hc
    exact (Text.sublist_of_mem_pieces hmem).subset ((Text.between_sublist _ _).subset hc)
  rw [Bool.eq_iff_iff]
  simp only [List.contains_iff_mem, Text.listed, Catalog.wantedKeys, List.mem_map, List.mem_filter, Bool.not_eq_true']
  constructor
  · rintro ⟨⟨piece, hmem, rfl⟩, _⟩
    refine ⟨piece, ⟨hmem, ?_⟩, hpiece piece hmem⟩
    -- A blank piece would be trimmed to nothing.
    rw [Bool.eq_false_iff]
    exact fun hblank => hname (Text.trim_of_isAllBlank hblank)
  · rintro ⟨piece, ⟨hmem, _⟩, rfl⟩
    exact ⟨⟨piece, hmem, (hpiece piece hmem).symm⟩, by simpa using hname⟩

end Pack

/-- All the rules of a file. -/
def Disk.catalog (d : Disk) (p : Path) : Except CatalogFailure Catalog := do
  Catalog.ofEntries (CatalogEntry.ofFields (← d.rules p))

namespace CatalogChoice

theorem custom_eq (choice : CatalogChoice) (d : Disk) (p : Path) :
    choice.custom d p = (d.catalog p).map fun c =>
      if Pack.selectsAll (Pack.selectorKey choice.selector) then c
      else c.select (Text.pieces ',' (Pack.selectorKey choice.selector)) := by
  unfold custom Disk.catalog
  cases d.rules p with
  | error failure => rfl
  | ok fields =>
    change (Catalog.ofEntries (CatalogEntry.ofFields fields) >>= _) =
      (Catalog.ofEntries (CatalogEntry.ofFields fields)).map _
    cases Catalog.ofEntries (CatalogEntry.ofFields fields) <;> rfl

/-- The rules that those of a file are added to. -/
def base (choice : CatalogChoice) : Except CatalogFailure Catalog :=
  if choice.builtin then Catalog.builtin choice.selector else .ok Catalog.empty

theorem load_without_file (selector : Option String) (builtin : Bool) (d : Disk) :
    load ⟨selector, none, builtin⟩ d = base ⟨selector, none, builtin⟩ := by
  cases builtin with
  | false => rfl
  | true =>
    change (Catalog.builtin selector >>= _) = Catalog.builtin selector
    cases Catalog.builtin selector <;> rfl

theorem load_with_file (selector : Option String) (p : Path) (builtin : Bool) (d : Disk) :
    load ⟨selector, some p, builtin⟩ d = (do
      let catalog ← base ⟨selector, some p, builtin⟩
      (custom ⟨selector, some p, builtin⟩ d p).map catalog.merged) := by
  cases builtin with
  | false =>
    change (custom ⟨selector, some p, false⟩ d p >>= _) = (custom ⟨selector, some p, false⟩ d p).map _
    cases custom ⟨selector, some p, false⟩ d p <;> rfl
  | true =>
    change (Catalog.builtin selector >>= _) = (Catalog.builtin selector >>= _)
    cases Catalog.builtin selector with
    | error failure => rfl
    | ok catalog =>
      change (custom ⟨selector, some p, true⟩ d p >>= _) = (custom ⟨selector, some p, true⟩ d p).map _
      cases custom ⟨selector, some p, true⟩ d p <;> rfl

end CatalogChoice

section Selector

variable {s : String} (hs : s ≠ "") (hall : Text.lower (Text.trim s) ≠ "all") (hstar : Text.lower (Text.trim s) ≠ "*")

include hs hall hstar

theorem Pack.selectorKey_some :
    selectorKey (some s) = Text.lower (Text.trim s) ∧ selectsAll (Text.lower (Text.trim s)) = false :=
  ⟨by simp [selectorKey, hs], by simp [selectsAll, hall, hstar]⟩

/-- No built-in pack is faulty, so that leaving packs out is the same as leaving their categories out. -/
theorem Catalog.builtin_some :
    builtin (some s) = (builtin none).map (·.select (Text.pieces ',' (Text.lower (Text.trim s)))) := by
  have hnames : ∀ p ∈ Pack.builtin, Text.lower p.name ≠ "" := by decide
  obtain ⟨categories, hcategories⟩ := exists_forall₂ (r := fun p category => p ∈ Pack.builtin ∧ p.Yields category)
    fun p hp => (Pack.exists_yields hp).imp fun _ h => ⟨hp, h⟩
  have hwhole : builtin none = .ok ⟨categories⟩ := by
    have hpacks : Pack.select Pack.builtin none = Pack.builtin := rfl
    rw [builtin, hpacks, ofEntries_eq_ok_iff, List.forall₂_map_left_iff]
    exact hcategories.imp fun _ _ h => h.2.checked
  have hsame (p : Pack) (category : Category) (h : p ∈ Pack.builtin ∧ p.Yields category) :
      (Text.listed (Text.lower (Text.trim s))).contains (Text.lower p.name) = true ↔
        (wantedKeys (Text.pieces ',' (Text.lower (Text.trim s)))).contains (Text.lower category.name) = true := by
    have hname : category.name = p.name := by
      simpa [Pack.toEntry, eq_comm] using CatalogEntry.name_of_check h.2.checked
    rw [hname, Pack.contains_listed (fun c hc => Text.settled_of_mem_lower hc) (hnames p h.1)]
  have hpacks : Pack.select Pack.builtin (some s) = Pack.builtin.filter fun p =>
      (Text.listed (Text.lower (Text.trim s))).contains (Text.lower p.name) := by
    obtain ⟨hkey, hsome⟩ := Pack.selectorKey_some hs hall hstar
    simp only [Pack.select, hkey, hsome, Bool.false_eq_true, if_false]
  have hselected : builtin (some s) = .ok (select ⟨categories⟩ (Text.pieces ',' (Text.lower (Text.trim s)))) := by
    rw [builtin, hpacks, ofEntries_eq_ok_iff, List.forall₂_map_left_iff, select_eq]
    exact (List.rel_filter (fun p category h => hsame p category h) hcategories).imp fun _ _ h => h.2.checked
  rw [hselected, hwhole]
  rfl

namespace CatalogChoice

theorem base_some (file : Option Path) (builtin : Bool) :
    base ⟨some s, file, builtin⟩ =
      (base ⟨none, file, builtin⟩).map (·.select (Text.pieces ',' (Text.lower (Text.trim s)))) := by
  cases builtin with
  | false => rfl
  | true => exact Catalog.builtin_some hs hall hstar

theorem custom_some (file : Option Path) (builtin : Bool) (d : Disk) (p : Path) :
    custom ⟨some s, file, builtin⟩ d p =
      (custom ⟨none, file, builtin⟩ d p).map (·.select (Text.pieces ',' (Text.lower (Text.trim s)))) := by
  obtain ⟨hkey, hsome⟩ := Pack.selectorKey_some hs hall hstar
  have hnone : Pack.selectsAll (Pack.selectorKey none) = true := rfl
  simp only [custom_eq, hkey, hsome, hnone]
  cases d.catalog p <;> rfl

end CatalogChoice

end Selector

namespace CatalogChoice

/-- Selecting categories while the rules are loaded, or from all the rules after they are loaded, is the same, and so is
what is said of rules that cannot be loaded. -/
theorem load_eq_map_select {s : String} (hs : s ≠ "") (hall : Text.lower (Text.trim s) ≠ "all")
    (hstar : Text.lower (Text.trim s) ≠ "*") (file : Option Path) (builtin : Bool) (d : Disk) :
    load ⟨some s, file, builtin⟩ d =
      (load ⟨none, file, builtin⟩ d).map (·.select (Text.pieces ',' (Text.lower (Text.trim s)))) := by
  cases file with
  | none => rw [load_without_file, load_without_file, base_some hs hall hstar]
  | some p =>
    rw [load_with_file, load_with_file, base_some hs hall hstar, custom_some hs hall hstar]
    cases base ⟨none, some p, builtin⟩ with
    | error failure => rfl
    | ok catalog =>
      cases custom ⟨none, some p, builtin⟩ d p with
      | error failure => rfl
      | ok added => exact congrArg Except.ok (Catalog.select_merged catalog added _).symm

/-- A file with a category that has no rules and one that has no list of them. -/
def unlistedDisk : Disk where
  here := []
  entries := [(["rules.json"], .file (Utf8.encode "\x7b\"Letters\": [], \"signs\": 5\x7d".toList))]

theorem load_eq_map_select_of_unlisted :
    " LETTERS,Debugging," ≠ "" ∧ Text.lower (Text.trim " LETTERS,Debugging,") = "letters,debugging," ∧
    load ⟨some " LETTERS,Debugging,", some ⟨"/", ["rules.json"]⟩, true⟩ unlistedDisk =
      (load ⟨none, some ⟨"/", ["rules.json"]⟩, true⟩ unlistedDisk).map
        (·.select (Text.pieces ',' "letters,debugging,")) := by
  have hkey : Text.lower (Text.trim " LETTERS,Debugging,") = "letters,debugging," := by decide
  have hload := load_eq_map_select (s := " LETTERS,Debugging,") (by decide) (by rw [hkey]; decide)
    (by rw [hkey]; decide) (some ⟨"/", ["rules.json"]⟩) true unlistedDisk
  rw [hkey] at hload
  exact ⟨by decide, hkey, hload⟩

end CatalogChoice

end ScriptAudit
