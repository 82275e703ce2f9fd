import ScriptAudit.Command.Run
import ScriptAudit.Proofs.CommandWords
import ScriptAudit.Proofs.JsonDocuments
import ScriptAudit.Proofs.Narrowing
import ScriptAudit.Proofs.Sharding
import ScriptAudit.Proofs.Trees
import ScriptAudit.Proofs.Utf8

namespace ScriptAudit

theorem Text.unifyLines_of_not_mem {text : List Char} (h : '\r' ∉ text) : unifyLines text = text := by
  fun_induction unifyLines text with
  | case1 => rfl
  | case2 rest ih => simp at h
  | case3 rest _ ih => simp at h
  | case4 c rest _ _ ih => rw [ih fun hmem => h (List.mem_cons_of_mem c hmem)]

theorem Rule.Spelled.plain {r : Rule} (h : r.Spelled) : r.detector.interruption = none := by
  obtain ⟨d, category, text, hpattern, hcheck⟩ := h
  obtain ⟨_, _, _, _, hdetector⟩ := Draft.check_eq_ok_iff.mp hcheck
  exact ((Draft.detector_eq_ok_iff hpattern).mp hdetector).2

/-- Only texts are read as patterns. -/
theorem Draft.spelled_of_check {d : Draft} {v : Value} (hpattern : d.pattern = .value v) {category : String}
    {rule : Rule} (h : d.check category = .ok rule) : rule.Spelled := by
  obtain ⟨_, _, _, _, hdetector⟩ := check_eq_ok_iff.mp h
  cases v with
  | text text => exact ⟨d, category, text, hpattern, h⟩
  | _ => simp [detector, hpattern, Pattern.ofValue, fail] at hdetector

theorem Rule.textual_toValue (r : Rule) : r.toValue.Textual 1 := by
  have hnames : ["pattern", "title", "description", "severity", "suggestion"].Nodup := by decide
  refine .record hnames ?_
  simp only [List.forall_mem_cons]
  exact ⟨.text _ _, .text _ _, .text _ _, .text _ _, .text _ _, List.forall_mem_nil _⟩

theorem Pack.pattern_of_mem_builtin : ∀ p ∈ builtin, ∀ d ∈ p.rules, ∃ v, d.pattern = .value v := by
  simp only [builtin_eq, List.forall_mem_cons, playerExploits, vehicleExploits, resourceManipulation, eventSystem,
    antiCheatBypass, performanceIssues, debugging, nuiExploitation, dynamicExecution, databaseAccess, List.not_mem_nil,
    false_implies, implies_true, and_true]
  refine ⟨⟨?_, ?_, ?_⟩, ⟨?_, ?_⟩, ⟨?_, ?_⟩, ⟨?_, ?_⟩, ⟨?_, ?_⟩, ⟨?_, ?_⟩, ?_, ?_, ⟨?_, ?_⟩, ?_⟩ <;> exact ⟨_, rfl⟩

theorem Definition.pattern_of_ofValue {v : Value} {d : Draft} (h : Definition.ofValue v = .draft d) :
    ∃ w, d.pattern = .value w := by
  unfold Definition.ofValue at h
  split at h
  next =>
    cases h
    exact ⟨_, rfl⟩
  next => simp at h

namespace Catalog

/-- All its patterns were given as texts. -/
def Spelled (c : Catalog) : Prop := ∀ entry ∈ c.entries, entry.2.Spelled

theorem spelled_builtin {selector : Option String} {c : Catalog} (built : builtin selector = .ok c) : c.Spelled := by
  intro entry hentry
  obtain ⟨e, he, definitions, d, hdefinitions, hd, hcheck⟩ := draft_of_ofEntries built hentry
  obtain ⟨p, hp, rfl⟩ := List.mem_map.mp he
  cases hdefinitions
  obtain ⟨d', hd', hsame⟩ := List.mem_map.mp hd
  cases hsame
  obtain ⟨v, hv⟩ := Pack.pattern_of_mem_builtin p ((Pack.select_sublist _ _).subset hp) d hd'
  exact Draft.spelled_of_check hv hcheck

theorem spelled_ofFields {fields : List (String × Value)} {c : Catalog}
    (built : ofEntries (CatalogEntry.ofFields fields) = .ok c) : c.Spelled := by
  intro entry hentry
  obtain ⟨e, he, definitions, d, hdefinitions, hd, hcheck⟩ := draft_of_ofEntries built hentry
  obtain ⟨⟨name, v⟩, _, rfl⟩ := List.mem_map.mp he
  cases v with
  | list items =>
    cases hdefinitions
    obtain ⟨w, _, hw⟩ := List.mem_map.mp hd
    obtain ⟨u, hu⟩ := Definition.pattern_of_ofValue hw
    exact Draft.spelled_of_check hu hcheck
  | _ => simp [Definitions.ofValue] at hdefinitions

theorem spelled_merged {c d : Catalog} (hnames : c.names.Nodup) (hc : c.Spelled) (hd : d.Spelled) :
    (c.merged d).Spelled :=
  fun entry hentry => (mem_entries_merged hnames hentry).elim (hc entry) (hd entry)

theorem spelled_select {c : Catalog} (hc : c.Spelled) (wanted : List String) : (c.select wanted).Spelled :=
  fun entry hentry => hc entry (mem_entries_select hentry)

theorem reachable_empty : empty.Reachable := @Reachable.ofEntries [] empty List.nodup_nil rfl

theorem textual_toValue {c : Catalog} (h : c.names.Nodup) : c.toValue.Textual 3 := by
  have hnames : c.fields.map (·.1) = c.names := by simp [fields, names]
  refine Value.Textual.record (hnames ▸ h) fun field hfield => ?_
  obtain ⟨category, _, rfl⟩ := List.mem_map.mp hfield
  refine .list fun v hv => ?_
  obtain ⟨rule, _, rfl⟩ := List.mem_map.mp hv
  exact rule.textual_toValue

end Catalog

namespace Disk

variable {d : Disk} {p : Path}

theorem rules_eq_ok_iff {fields : List (String × Value)} :
    d.rules p = .ok fields ↔ ∃ data text, d.read p = .ok data ∧ Utf8.decode data = .ok text ∧
      Json.read (Text.unifyLines text) = .ok (.record fields) := by
  unfold rules
  cases d.read p with
  | error e => simp
  | ok data =>
    cases hdecode : Utf8.decode data with
    | error fault => simp [hdecode]
    | ok text =>
      cases hread : Json.read (Text.unifyLines text) with
      | error fault => cases hbreak : fault.problem.breaksOff <;> simp [hdecode, hread, hbreak]
      | ok v => cases v <;> simp [hdecode, hread]

/-- The categories of a rules file have different names, and its patterns are texts. -/
theorem reachable_catalog {c : Catalog} (h : d.catalog p = .ok c) : c.Reachable ∧ c.Spelled := by
  obtain ⟨fields, hfields, built⟩ := bind_eq_ok_iff.mp h
  refine ⟨.ofEntries ?_ built, Catalog.spelled_ofFields built⟩
  obtain ⟨_, _, _, _, hread⟩ := rules_eq_ok_iff.mp hfields
  have hnames : (CatalogEntry.ofFields fields).map (·.name) = (fields.map (·.1)).map .text := by
    simp [CatalogEntry.ofFields]
  rw [hnames]
  exact (Json.nodup_of_read hread).map fun _ _ h => by simpa using h

/-- A file with the text of a catalog has its rules. -/
theorem catalog_of_render {c : Catalog} (hc : c.Reachable) (hspelled : c.Spelled)
    (h : d.read p = .ok (Utf8.encode (Json.render c.toValue ++ "\n").toList)) : d.catalog p = .ok c := by
  have htextual : c.toValue.Textual 3 := Catalog.textual_toValue hc.names_nodup
  have hlines : '\r' ∉ (Json.render c.toValue ++ "\n").toList :=
    fun hmem => absurd (Json.isWritten_render htextual '\r' hmem) (by decide)
  have hfields : d.rules p = .ok c.fields := by
    refine rules_eq_ok_iff.mpr ⟨_, _, h, Utf8.decode_encode _, ?_⟩
    rw [Text.unifyLines_of_not_mem hlines]
    exact Json.read_render htextual (by decide)
  have hbuilt := (Catalog.ofEntries_fields_iff hc fun entry hentry => (hspelled entry hentry).plain).mpr
    fun entry hentry => (hspelled entry hentry).source_ne_empty
  exact bind_eq_ok_iff.mpr ⟨c.fields, hfields, hbuilt⟩

end Disk

namespace CatalogChoice

variable {d : Disk} {c : Catalog}

theorem reachable_base {choice : CatalogChoice} (h : choice.base = .ok c) : c.Reachable ∧ c.Spelled := by
  unfold base at h
  split at h
  · exact ⟨.builtin h, Catalog.spelled_builtin h⟩
  · cases Except.ok.inj h
    exact ⟨Catalog.reachable_empty, fun entry hentry => absurd hentry List.not_mem_nil⟩

theorem reachable_custom {choice : CatalogChoice} {p : Path} (h : choice.custom d p = .ok c) :
    c.Reachable ∧ c.Spelled := by
  rw [custom_eq] at h
  cases hfile : d.catalog p with
  | error failure => simp [hfile, Except.map] at h
  | ok whole =>
    obtain ⟨hreachable, hspelled⟩ := Disk.reachable_catalog hfile
    rw [hfile] at h
    rw [← Except.ok.inj h]
    split
    · exact ⟨hreachable, hspelled⟩
    · exact ⟨hreachable.select _, Catalog.spelled_select hspelled _⟩

/-- Whatever is loaded has been built in one of the ways to build catalogs, from patterns that are texts. -/
theorem reachable_load {choice : CatalogChoice} (h : choice.load d = .ok c) : c.Reachable ∧ c.Spelled := by
  obtain ⟨selector, file, builtin⟩ := choice
  cases file with
  | none =>
    rw [load_without_file] at h
    exact reachable_base h
  | some p =>
    rw [load_with_file] at h
    obtain ⟨first, hfirst, h⟩ := bind_eq_ok_iff.mp h
    obtain ⟨hreachable, hspelled⟩ := reachable_base hfirst
    cases hsecond : custom ⟨selector, some p, builtin⟩ d p with
    | error failure => simp [hsecond, Except.map] at h
    | ok second =>
      obtain ⟨hreachable', hspelled'⟩ := reachable_custom hsecond
      rw [hsecond] at h
      cases Except.ok.inj h
      exact ⟨hreachable.merged hreachable', Catalog.spelled_merged hreachable.names_nodup hspelled hspelled'⟩

/-- All the rules of a file, and no others. -/
theorem load_file_alone {selector : Option String} (hall : Pack.selectsAll (Pack.selectorKey selector) = true)
    {p : Path} (hc : c.names.Nodup) (h : d.catalog p = .ok c) : load ⟨selector, some p, false⟩ d = .ok c := by
  rw [load_with_file, custom_eq, h]
  change Except.ok (Catalog.empty.merged (if Pack.selectsAll (Pack.selectorKey selector) then c else _)) = _
  rw [if_pos hall, Catalog.empty_merged hc]

end CatalogChoice

namespace Command

variable {s : ListSettings} {d : Disk}

theorem load_of_exit (h : (runList s d).ending = .exit 0) : ∃ c, s.rules.load d = .ok c ∧ c.ruleCount ≠ 0 := by
  unfold runList withRules at h
  split at h
  next => simp [complain] at h
  next => simp at h
  next => simp at h
  next c hload =>
    by_cases hcount : c.ruleCount = 0
    · rw [if_pos hcount] at h
      simp [complain] at h
    · exact ⟨c, hload, hcount⟩

theorem runList_of_load {c : Catalog} (hload : s.rules.load d = .ok c) (hcount : c.ruleCount ≠ 0)
    (hjson : s.json = true) :
    runList s d = { disk := d, output := Json.render c.toValue ++ "\n", ending := .exit 0 } := by
  simp only [runList, withRules, hload, hcount, hjson, if_false, if_true]

/-- Rules that are listed as data and read again, without the built-in ones, are the same rules, and are listed as the
same data. -/
theorem run_of_listed_rules {words : List String} (hwords : read words = .ok (.list s)) (hjson : s.json = true)
    (guess : Bytes → Guess) (d : Disk) (hexit : (run words guess d).ending = .exit 0) :
    ∃ c, s.rules.load d = .ok c ∧ (run words guess d).output = Json.render c.toValue ++ "\n" ∧
      ∀ (p : Path) (d' : Disk), d'.read p = .ok (Utf8.encode (run words guess d).output.toList) →
        CatalogChoice.load { file := some p, builtin := false } d' = .ok c ∧
        ∀ (w : String) (guess' : Bytes → Guess), Path.ofText w = p → w.toList.head? ≠ some '-' →
          run ["rules", "--json", "--no-builtin", "--rules", w] guess' d' =
            { disk := d', output := (run words guess d).output, ending := .exit 0 } := by
  have hrun : run words guess d = runList s d := by rw [run, hwords]
  rw [hrun] at hexit ⊢
  obtain ⟨c, hload, hcount⟩ := load_of_exit hexit
  obtain ⟨hreachable, hspelled⟩ := CatalogChoice.reachable_load hload
  rw [runList_of_load hload hcount hjson]
  refine ⟨c, hload, rfl, fun p d' hfile => ?_⟩
  have hcatalog : d'.catalog p = .ok c := Disk.catalog_of_render hreachable hspelled hfile
  refine ⟨CatalogChoice.load_file_alone rfl hreachable.names_nodup hcatalog, ?_⟩
  rintro w guess' rfl hw
  have hall : Pack.selectsAll (Pack.selectorKey (some "all")) = true := by decide
  have hagain : CatalogChoice.load ⟨some "all", some (.ofText w), false⟩ d' = .ok c :=
    CatalogChoice.load_file_alone hall hreachable.names_nodup hcatalog
  rw [run, read_list hw]
  exact runList_of_load hagain hcount rfl

/-- Rules in another layout than the one they are listed in, with escapes for a character beyond the basic plane, for a
slash and for a carriage return. -/
def signsText : List Char :=
  "\x7b\"signs\":[\x7b\"title\":\"\\ud83d\\ude00\",\"pattern\":\"/a\\/i/ms\",".toList ++
  "\"description\":\"\\u00e9\\r\",\"severity\":\"low\",\"suggestion\":\"None.\"\x7d]\x7d".toList

def signsFields : List (String × Value) :=
  [("signs", .list [.record [("title", .text "😀"), ("pattern", .text "/a/i/ms"), ("description", .text "é\r"),
    ("severity", .text "low"), ("suggestion", .text "None.")]])]

def signs : Catalog := ⟨[⟨"signs", [⟨⟨Catalog.slashed, none⟩, "😀", "é\r", .low, "None."⟩]⟩]⟩

set_option maxRecDepth 10000 in
theorem read_signsText : Json.read (Text.unifyLines signsText) = .ok (.record signsFields) := by
  have htext : signsText = _ := congrArg₂ (· ++ ·) String.toList_ofList String.toList_ofList
  rw [htext]
  rfl

/-- Bytes that are no UTF-8 are not looked into. -/
def undecided (_ : Bytes) : Guess := .encoding none

def signsDisk : Disk := .holding "s" (Utf8.encode signsText)

theorem load_signs : CatalogChoice.load ⟨some "all", some (.ofText "s"), false⟩ signsDisk = .ok signs := by
  have hpath : Path.ofText "s" = ⟨"", ["s"]⟩ := by decide
  rw [hpath]
  refine CatalogChoice.load_file_alone (by decide) (List.nodup_singleton _) (bind_eq_ok_iff.mpr ⟨signsFields, ?_, rfl⟩)
  exact Disk.rules_eq_ok_iff.mpr ⟨_, _, Disk.read_holding (by decide) _, Utf8.decode_encode _, read_signsText⟩

def signsWords : List String := ["rules", "--rules", "s", "--no-builtin", "--json"]

def listedDisk : Disk := .holding "e" (Utf8.encode (Json.render signs.toValue ++ "\n").toList)

/-- The rules come from a file in another layout; the file that is listed from them is listed as it is. -/
theorem run_of_listed_rules_of_signs :
    read signsWords = .ok (.list ⟨⟨some "all", some (.ofText "s"), false⟩, true⟩) ∧
    (run signsWords undecided signsDisk).ending = .exit 0 ∧
    (run signsWords undecided signsDisk).output = Json.render signs.toValue ++ "\n" ∧
    listedDisk.read ⟨"", ["e"]⟩ = .ok (Utf8.encode (run signsWords undecided signsDisk).output.toList) ∧
    CatalogChoice.load { file := some ⟨"", ["e"]⟩, builtin := false } listedDisk = .ok signs ∧
    run ["rules", "--json", "--no-builtin", "--rules", "e"] undecided listedDisk =
      { disk := listedDisk, output := Json.render signs.toValue ++ "\n", ending := .exit 0 } := by
  have hwords : read signsWords = .ok (.list ⟨⟨some "all", some (.ofText "s"), false⟩, true⟩) := rfl
  have hexit : (run signsWords undecided signsDisk).ending = .exit 0 := by
    rw [run, hwords]
    exact congrArg Outcome.ending (runList_of_load load_signs (by decide) rfl)
  have hread : listedDisk.read ⟨"", ["e"]⟩ = .ok (Utf8.encode (Json.render signs.toValue ++ "\n").toList) :=
    Disk.read_holding (by decide) _
  have hpath : Path.ofText "e" = ⟨"", ["e"]⟩ := by decide
  obtain ⟨c, hload, houtput, hagain⟩ := run_of_listed_rules hwords rfl undecided signsDisk hexit
  cases Except.ok.inj (hload.symm.trans load_signs)
  rw [houtput] at hagain ⊢
  obtain ⟨halone, hlisted⟩ := hagain _ _ hread
  exact ⟨hwords, hexit, rfl, hread, halone, hlisted "e" undecided hpath (by decide)⟩

end Command

end ScriptAudit
