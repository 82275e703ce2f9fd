import ScriptAudit.Proofs.Alternations
import ScriptAudit.Proofs.RoundTrip

namespace ScriptAudit

namespace Text

theorem isAllBlank_ofList_cons {c : Char} {cs : List Char} (h : isBlank c = false) :
    isAllBlank (String.ofList (c :: cs)) = false := by
  simp [isAllBlank, h]

theorem isAllBlank_append {s t : String} (h : isAllBlank s = false) : isAllBlank (s ++ t) = false := by
  rw [isAllBlank] at h ⊢
  rw [String.toList_append, List.all_append, h, Bool.false_and]

end Text

/-- What tells the rules of a catalog apart, and what they look for. -/
structure Outline where
  category : String
  title : String
  source : List Char
  modes : Pattern.Modes
  deriving DecidableEq

def Outline.ofEntry (entry : String × Rule) : Outline :=
  ⟨entry.1, entry.2.title, entry.2.detector.pattern.source.toList, entry.2.detector.pattern.modes⟩

/-- The outline of a draft, if it is one of texts and its pattern is not between slashes. -/
def Draft.outline (category : String) (d : Draft) : Outline where
  category
  title := match d.title with
    | .text title => title
    | _ => ""
  source := match d.pattern with
    | .value (.text pattern) => pattern.toList
    | _ => []
  modes := match d.flags with
    | .text letters => .ofFlags (letters.toList.map fun c => String.ofList [c])
    | _ => {}

/-- The draft passes in a category, as the rule that it says it is. -/
def Draft.Yields (category : String) (d : Draft) : Prop :=
  ∃ rule, d.check category = .ok rule ∧ Outline.ofEntry (category, rule) = d.outline category ∧
    rule.detector.interruption = none

theorem Pattern.isOk_compile_of_plain {cs : List Char} {modes : Modes}
    (h : cs.all (fun c => c == '|' || isPlain c) = true) : (compile (String.ofList cs) modes).isOk = true := by
  rw [compile_plain]
  · rfl
  · simpa using h

theorem Pattern.ofText_of_not_slash {text : String} {flags : Value} {items : List FlagItem} {known : List String}
    (hslash : ∃ c cs, text.toList = c :: cs ∧ c ≠ '/') (hitems : flagItems flags none = .ok items)
    (hknown : checkFlags items = .ok (.known known)) (hcompile : (compile text (.ofFlags known)).isOk = true) :
    ∃ p, ofText text flags = .ok p ∧ p.source = text ∧ p.modes = .ofFlags known := by
  obtain ⟨c, cs, htext, hslash⟩ := hslash
  have hliteral : SlashLiteral.ofList? text.toList = none := by
    rw [htext, SlashLiteral.ofList?]
    exact fun _ heq => hslash (List.head_eq_of_cons_eq heq)
  have hsource : sourceOf text = text := by simp [sourceOf, hliteral]
  cases hprogram : compile text (.ofFlags known) with
  | error e => simp [hprogram, Except.isOk, Except.toBool] at hcompile
  | ok program =>
    refine ⟨⟨text, .ofFlags known, program, hprogram⟩, ofText_eq_ok_iff.mpr ⟨?_, items, known, ?_, hknown, ?_⟩, rfl, rfl⟩
    · rintro rfl
      exact absurd htext (by simp)
    · rw [hliteral]
      exact hitems
    · rw [hsource]
      exact ofSource_self ⟨text, .ofFlags known, program, hprogram⟩

theorem Draft.yields {category text title description suggestion : String} {severity : Severity} {flags : Value}
    {items : List Pattern.FlagItem} {known : List String}
    (htitle : Text.isAllBlank title = false) (hdescription : Text.isAllBlank description = false)
    (hsuggestion : Text.isAllBlank suggestion = false) (hslash : ∃ c cs, text.toList = c :: cs ∧ c ≠ '/')
    (hitems : Pattern.flagItems flags none = .ok items) (hknown : Pattern.checkFlags items = .ok (.known known))
    (hmodes : .ofFlags known = (Draft.outline category
      ⟨.value (.text text), flags, .text title, .text description, .text severity.name, .text suggestion⟩).modes)
    (hcompile : (Pattern.compile text (.ofFlags known)).isOk = true) :
    Draft.Yields category
      ⟨.value (.text text), flags, .text title, .text description, .text severity.name, .text suggestion⟩ := by
  obtain ⟨p, hread, hsource, hp⟩ := Pattern.ofText_of_not_slash hslash hitems hknown hcompile
  have hdark {s : String} (h : Text.isAllBlank s = false) : nonBlank? (.text s) = some s := by simp [nonBlank?, h]
  refine ⟨⟨⟨p, none⟩, title, description, severity, suggestion⟩, check_eq_ok_iff.mpr ?_, ?_, rfl⟩
  · exact ⟨hdark htitle, hdark hdescription, hdark hsuggestion, severity.ofValue_name,
      (detector_eq_ok_iff rfl).mpr ⟨hread, rfl⟩⟩
  · simp only [Outline.ofEntry, hsource, hp, hmodes]
    rfl

namespace Pack

theorem yields_databaseAccess : ∀ d ∈ databaseAccess.rules, d.Yields databaseAccess.name := by
  have hitems : Pattern.flagItems (.text "i") none = .ok [.text "i"] := rfl
  have hknown : Pattern.checkFlags [.text "i"] = .ok (.known ["i"]) := rfl
  refine List.forall_mem_singleton.mpr (Draft.yields ?title ?description ?suggestion ?slash hitems hknown rfl ?pattern)
  case title | description => exact Text.isAllBlank_ofList_cons (by decide)
  case suggestion => exact Text.isAllBlank_append (Text.isAllBlank_ofList_cons (by decide))
  case slash =>
    rw [String.toList_append, String.toList_ofList]
    exact ⟨_, _, List.cons_append, by decide⟩
  case pattern =>
    rw [Pattern.compile, String.toList_append, String.toList_ofList, String.toList_ofList]
    decide +kernel

/-- All the built-in drafts pass, as the rules that they say they are. -/
theorem yields_of_mem_builtin : ∀ p ∈ builtin, ∀ d ∈ p.rules, d.Yields p.name := by
  have hitems : Pattern.flagItems .null none = .ok [] := rfl
  have hknown : Pattern.checkFlags [] = .ok (.known []) := rfl
  simp only [builtin_eq, List.forall_mem_cons, playerExploits, vehicleExploits, resourceManipulation, eventSystem,
    antiCheatBypass, performanceIssues, debugging, nuiExploitation, dynamicExecution, List.not_mem_nil,
    false_implies, implies_true, and_true]
  refine ⟨⟨?_, ?_, ?_⟩, ⟨?_, ?_⟩, ⟨?_, ?_⟩, ⟨?_, ?_⟩, ⟨?_, ?_⟩, ⟨?_, ?_⟩, ?_, ?_, ⟨?_, ?_⟩, yields_databaseAccess⟩
  all_goals
    refine Draft.yields (Text.isAllBlank_ofList_cons (by decide)) (Text.isAllBlank_ofList_cons (by decide)) ?_
      ⟨_, _, String.toList_ofList, by decide⟩ hitems hknown rfl
      (by first | exact Pattern.isOk_compile_of_plain (by decide) | decide +kernel)
  all_goals try with_reducible apply Text.isAllBlank_append
  all_goals exact Text.isAllBlank_ofList_cons (by decide)

def outlines (p : Pack) : List Outline := p.rules.map (Draft.outline p.name)

/-- A category with the rules that a pack says it has, none of which can fail. -/
structure Yields (p : Pack) (category : Category) : Prop where
  checked : p.toEntry.check = .ok category
  outlines : category.rules.map (fun rule => Outline.ofEntry (category.name, rule)) = p.outlines
  plain : ∀ rule ∈ category.rules, rule.detector.interruption = none

theorem exists_yields {p : Pack} (hp : p ∈ builtin) : ∃ category, p.Yields category := by
  have hnames : ∀ p ∈ builtin, nonBlank? (.text p.name) = some p.name := by decide
  obtain ⟨rules, hrules⟩ := exists_forall₂ (yields_of_mem_builtin p hp)
  refine ⟨⟨p.name, rules⟩, ?checked, ?outlines, ?plain⟩
  case checked =>
    refine CatalogEntry.check_eq_ok_iff.mpr ⟨hnames p hp, p.rules.map .draft, rfl, ?_⟩
    rw [List.forall₂_map_left_iff]
    exact hrules.imp fun d rule h => h.1
  case outlines => exact map_eq_of_forall₂ hrules fun d rule h => h.2.1
  case plain =>
    intro rule hrule
    obtain ⟨d, _, _, _, hplain⟩ := exists_of_forall₂_of_mem hrules hrule
    exact hplain

end Pack

namespace Catalog

theorem outlines_of_forall₂ {packs : List Pack} {categories : List Category}
    (h : List.Forall₂ Pack.Yields packs categories) :
    (entries ⟨categories⟩).map Outline.ofEntry = packs.flatMap Pack.outlines := by
  induction h with
  | nil => rfl
  | cons hhead _ ih =>
    rw [entries_cons, List.map_append, ih, List.flatMap_cons, ← hhead.outlines, List.map_map]
    rfl

/-- Whatever is selected, the built-in rules are there as their packs say. -/
theorem builtin_outlines (selector : Option String) :
    ∃ c, builtin selector = .ok c ∧
      c.entries.map Outline.ofEntry = (Pack.select Pack.builtin selector).flatMap Pack.outlines ∧
      ∀ entry ∈ c.entries, entry.2.detector.interruption = none := by
  obtain ⟨categories, hall⟩ := exists_forall₂ fun p hp =>
    Pack.exists_yields ((Pack.select_sublist Pack.builtin selector).subset hp)
  refine ⟨⟨categories⟩, ?_, outlines_of_forall₂ hall, ?_⟩
  · rw [builtin, ofEntries_eq_ok_iff, List.forall₂_map_left_iff]
    exact hall.imp fun p category h => h.checked
  · rintro ⟨name, rule⟩ hentry
    obtain ⟨category, hcategory, _, hrule⟩ := mem_entries.mp hentry
    obtain ⟨p, _, hp⟩ := exists_of_forall₂_of_mem hall hcategory
    exact hp.plain rule hrule

/-- A test that only one of the packs' outlines passes picks one built-in rule. -/
theorem exists_builtin_rule {test : Outline → Bool} {outlines : List Outline} {category : String}
    {program : Pattern.Program} (hpicked : (Pack.builtin.flatMap Pack.outlines).filter test = outlines)
    (hone : outlines.map (·.category) = [category])
    (hcompile : ∀ o ∈ outlines, (Pattern.compile (String.ofList o.source) o.modes).toOption = some program) :
    ∃ c rule, builtin none = .ok c ∧
      (∀ entry, entry ∈ c.entries ∧ test (Outline.ofEntry entry) = true ↔ entry = (category, rule)) ∧
      outlines = [Outline.ofEntry (category, rule)] ∧ rule.detector.pattern.program = program ∧
      ∀ text, rule.detector.search text = (program.spans text, none) := by
  obtain ⟨c, hbuilt, houtlines, hplain⟩ := builtin_outlines none
  have hentries : (c.entries.filter fun entry => test (Outline.ofEntry entry)).map Outline.ofEntry = outlines := by
    rw [← hpicked]
    change _ = ((Pack.select Pack.builtin none).flatMap Pack.outlines).filter _
    rw [← houtlines, List.filter_map]
    rfl
  obtain ⟨o, rfl, rfl⟩ := List.map_eq_singleton_iff.mp hone
  obtain ⟨⟨category, rule⟩, hentry, rfl⟩ := List.map_eq_singleton_iff.mp hentries
  have hmem : ∀ entry, entry ∈ c.entries ∧ test (Outline.ofEntry entry) = true ↔ entry = (category, rule) := by
    intro entry
    rw [← List.mem_singleton (a := entry), ← hentry, List.mem_filter]
  have hprogram : rule.detector.pattern.program = program := by
    have hcompiled := hcompile _ List.mem_cons_self
    simp only [Outline.ofEntry, String.ofList_toList, rule.detector.pattern.compiled] at hcompiled
    exact Option.some.inj hcompiled
  refine ⟨c, rule, hbuilt, hmem, rfl, hprogram, ?_⟩
  intro text
  rw [Detector.search, hplain _ ((hmem _).mpr rfl).1, hprogram]

end Catalog

end ScriptAudit
