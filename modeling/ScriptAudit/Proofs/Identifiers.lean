import ScriptAudit.Proofs.Builtin
import ScriptAudit.Proofs.Discovery

namespace ScriptAudit

namespace Pattern

/-- The words between the bars, if all of them are identifiers and letter case counts. -/
def identifiersIn? (source : List Char) (modes : Modes) : Option (List String) :=
  if !modes.ignoreCase && (source.splitOn '|').all Text.isIdentifier then
    some ((source.splitOn '|').map String.ofList)
  else none

def identifiers? (p : Pattern) : Option (List String) := identifiersIn? p.source.toList p.modes

theorem isPlain_of_isIdentifier {w : List Char} (h : Text.isIdentifier w = true) {c : Char} (hc : c ∈ w) :
    isPlain c = true := by
  have hsigns : signs.all (fun c => !Text.isIdentifierStart c && !Text.isIdentifierPart c) = true := rfl
  by_contra hnot
  have hmem : c ∈ signs := by simpa [isPlain] using hnot
  have hneither := List.all_eq_true.mp hsigns c hmem
  rw [Bool.and_eq_true, Bool.not_eq_true', Bool.not_eq_true'] at hneither
  obtain ⟨hstart, hpart⟩ := hneither
  cases w with
  | nil => exact absurd hc List.not_mem_nil
  | cons d rest =>
    rw [Text.isIdentifier, Bool.and_eq_true, List.all_eq_true] at h
    rcases List.mem_cons.mp hc with rfl | hc
    · exact absurd h.1 (by simp [hstart])
    · exact absurd (h.2 c hc) (by simp [hpart])

/-- A pattern that lists identifiers tries them one after the other. -/
theorem program_of_identifiers {p : Pattern} {names : List String} (h : p.identifiers? = some names) :
    names ≠ [] ∧ p.program = ofWords (names.map String.toList) := by
  unfold identifiers? identifiersIn? at h
  split at h
  case isFalse => exact absurd h (by simp)
  case isTrue hcondition =>
    rw [Bool.and_eq_true, List.all_eq_true] at hcondition
    obtain ⟨hcase, hidentifiers⟩ := hcondition
    have hsource : ∀ c ∈ p.source.toList, c = '|' ∨ isPlain c = true := by
      intro c hc
      refine (eq_or_mem_splitOn hc).imp_right ?_
      rintro ⟨w, hw, hc⟩
      exact isPlain_of_isIdentifier (hidentifiers w hw) hc
    have hfolding : p.modes.toLocal.folding = .exact := by
      simp only [Bool.not_eq_true'] at hcase
      simp [Modes.toLocal, LocalModes.folding, hcase]
    have hprogram := (p.compiled).symm.trans (compile_plain hsource)
    rw [hfolding, Except.ok.injEq] at hprogram
    have hnames := Option.some.inj h
    subst hnames
    refine ⟨by simp [List.splitOn_ne_nil], ?_⟩
    rw [hprogram, ofWords, List.map_map]
    simp [Function.comp_def]

end Pattern

/-- A word stands in a text and begins at a place. -/
def StandsAt (word : String) (text : List Char) (place : Location) : Prop :=
  ∃ before after, text = before ++ word.toList ++ after ∧ place = .ofOffset text before.length

theorem standsAt_iff {word : String} {text : List Char} {place : Location} :
    StandsAt word text place ↔
      ∃ offset ≤ text.length, word.toList <+: text.drop offset ∧ place = .ofOffset text offset := by
  constructor
  · rintro ⟨before, after, rfl, rfl⟩
    refine ⟨before.length, ?_, ?_, rfl⟩
    · simp only [List.length_append]
      omega
    · rw [List.append_assoc, List.drop_left]
      exact List.prefix_append word.toList after
  · rintro ⟨offset, hoffset, ⟨after, hafter⟩, rfl⟩
    refine ⟨text.take offset, after, ?_, ?_⟩
    · rw [List.append_assoc, hafter, List.take_append_drop]
    · rw [List.length_take, Nat.min_eq_left hoffset]

theorem Finding.ofSpan_of_prefix {text : List Char} {word : String} {span : Pattern.Span}
    (hpre : word.toList <+: text.drop span.start) (hstop : span.stop = span.start + word.length)
    (file : Option String) (category : String) (rule : Rule) :
    ofSpan text file category rule span = ⟨category, rule, .ofOffset text span.start, word, file⟩ := by
  have htake : (text.drop span.start).take word.length = word.toList := by
    rw [← String.length_toList, ← List.prefix_iff_eq_take.mp hpre]
  rw [ofSpan, hstop, Nat.add_sub_cancel_left, htake, String.ofList_toList]

/-- A finding that is kept is the first match of its identity in the search of its rule. -/
theorem Catalog.first_span_of_mem_firsts {c : Catalog} {text : List Char} {file : Option String} {budget : Budget}
    {clock : Clock} {f : Finding} (h : f ∈ Finding.firsts (c.discoveries text file budget clock)) :
    ∃ span ∈ f.rule.spans text.toArray, Finding.ofSpan text file f.category f.rule span = f ∧
      ∀ other ∈ f.rule.spans text.toArray,
        (Finding.ofSpan text file f.category f.rule other).identity = f.identity → span.start ≤ other.start := by
  have hfind := Finding.find?_of_mem_firsts h
  rw [discoveries, List.find?_flatMap] at hfind
  -- The run that the finding comes from is one of its own rule.
  obtain ⟨run, _, hfirst⟩ := List.exists_of_findSome?_eq_some hfind
  obtain ⟨hdone, _, _, hof⟩ := Run.mem_findings.mp (List.mem_of_find?_eq_some hfirst)
  have hcategory : run.category = f.category := congrArg Finding.category hof
  have hrule : run.rule = f.rule := congrArg Finding.rule hof
  rw [Run.findings, hdone, hcategory, hrule] at hfirst
  simp only [List.find?_map] at hfirst
  obtain ⟨span, hspan, heq⟩ := Option.map_eq_some_iff.mp hfirst
  refine ⟨span, List.mem_of_find?_eq_some hspan, heq, ?_⟩
  intro other hother hidentity
  have horder := f.rule.detector.pattern.program.spans_increasing text.toArray
  rcases rel_of_find? horder hspan hother (by simpa using hidentity) with rfl | hlt
  · exact Nat.le_refl _
  · exact hlt.le

/-- A rule of the catalog that lists identifiers, is alone under its title and cannot fail. -/
structure Catalog.Lists (c : Catalog) (entry : String × Rule) (names : List String) : Prop where
  mem : entry ∈ c.entries
  alone : ∀ other ∈ c.entries, other.1 = entry.1 → other.2.title = entry.2.title → other = entry
  plain : entry.2.detector.interruption = none
  listed : entry.2.detector.pattern.identifiers? = some names
  separate : Pattern.Separate (names.map String.toList)

namespace Catalog.Lists

variable {c : Catalog} {entry : String × Rule} {names : List String} {text : List Char} {file : Option String}
  {clock : Clock} {f : Finding}

theorem mem_spans (h : c.Lists entry names) {span : Pattern.Span} :
    span ∈ entry.2.spans text.toArray ↔
      ∃ word ∈ names, word.toList <+: text.drop span.start ∧ span.stop = span.start + word.length := by
  obtain ⟨hne, hprogram⟩ := Pattern.program_of_identifiers h.listed
  rw [Rule.spans, hprogram, h.separate.mem_spans_iff (by simpa using hne)]
  simp only [List.mem_map, exists_exists_and_eq_and, String.length_toList]

theorem run_of_mem (h : c.Lists entry names) (text : List Char) (clock : Clock) :
    ∃ run ∈ c.runs .none text clock, run.category = entry.1 ∧ run.rule = entry.2 ∧
      run.enumeration.failure = none := by
  have hentry := h.mem
  rw [← runs_entries .none text c.entries clock, List.mem_map] at hentry
  obtain ⟨run, hrun, rfl⟩ := hentry
  obtain ⟨start, hstart⟩ := enumeration_of_mem_runs hrun
  exact ⟨run, hrun, rfl, rfl, hstart ▸ run.rule.enumerate_unlimited text.toArray start h.plain⟩

theorem mem_discoveries_of_prefix (h : c.Lists entry names) {word : String} (hword : word ∈ names) {offset : Nat}
    (hpre : word.toList <+: text.drop offset) (file : Option String) (clock : Clock) :
    ⟨entry.1, entry.2, .ofOffset text offset, word, file⟩ ∈ c.discoveries text file .none clock := by
  obtain ⟨run, hrun, hcategory, hrule, hdone⟩ := h.run_of_mem text clock
  refine (mem_discoveries c text file .none clock).mpr
    ⟨run, hrun, hdone, ⟨offset, offset + word.length⟩, ?_, ?_⟩
  · rw [hrule]
    exact h.mem_spans.mpr ⟨word, hword, hpre, rfl⟩
  · rw [hcategory, hrule]
    exact Finding.ofSpan_of_prefix hpre rfl file entry.1 entry.2

/-- A discovery in the category and under the title of the rule is one of the rule. -/
theorem entry_of_mem_discoveries (h : c.Lists entry names) (hf : f ∈ c.discoveries text file .none clock)
    (hcategory : f.category = entry.1) (htitle : f.rule.title = entry.2.title) : (f.category, f.rule) = entry := by
  obtain ⟨run, hrun, _, span, _, rfl⟩ := (mem_discoveries c text file .none clock).mp hf
  exact h.alone _ (entry_of_mem_runs c text .none clock hrun) hcategory htitle

theorem exists_finding (h : c.Lists entry names) {word : String} (hword : word ∈ names) {offset : Nat}
    (hpre : word.toList <+: text.drop offset) (file : Option String) (clock : Clock) :
    ∃ f ∈ Finding.ranked (Finding.firsts (c.discoveries text file .none clock)), (f.category, f.rule) = entry ∧
      f.location.line = (Location.ofOffset text offset).line ∧ f.matchedText = word := by
  have hfound := h.mem_discoveries_of_prefix hword hpre file clock
  obtain ⟨f, hf, hidentity⟩ := List.mem_map.mp
    ((Finding.mem_identities_ranked_firsts _).mpr (List.mem_map_of_mem hfound))
  simp only [Finding.identity, Finding.Identity.mk.injEq] at hidentity
  obtain ⟨hcategory, htitle, hline, htext⟩ := hidentity
  have hown := (Finding.firsts_sublist _).subset (Finding.mem_ranked.mp hf)
  exact ⟨f, hf, h.entry_of_mem_discoveries hown hcategory htitle, hline, htext⟩

/-- A finding of the rule that is kept is the first of its identifier on its line. -/
theorem first_of_mem_firsts (h : c.Lists entry names)
    (hf : f ∈ Finding.firsts (c.discoveries text file .none clock)) (hentry : (f.category, f.rule) = entry) :
    f.matchedText ∈ names ∧ ∃ offset ≤ text.length, f.matchedText.toList <+: text.drop offset ∧
      f.location = .ofOffset text offset ∧
      ∀ other ≤ text.length, f.matchedText.toList <+: text.drop other →
        (Location.ofOffset text other).line = f.location.line → offset ≤ other := by
  subst hentry
  obtain ⟨span, hspan, hof, hfirst⟩ := first_span_of_mem_firsts hf
  obtain ⟨word, hword, hpre, hstop⟩ := h.mem_spans.mp hspan
  have hb := f.rule.detector.pattern.program.spans_bounds text.toArray hspan
  rw [List.size_toArray] at hb
  rw [Finding.ofSpan_of_prefix hpre hstop] at hof
  have hplace : f.location = .ofOffset text span.start := (congrArg Finding.location hof).symm
  obtain rfl : word = f.matchedText := congrArg Finding.matchedText hof
  refine ⟨hword, span.start, by omega, hpre, hplace, ?_⟩
  intro other _ hother hline
  refine hfirst ⟨other, other + f.matchedText.length⟩ (h.mem_spans.mpr ⟨_, hword, hother, rfl⟩) ?_
  rw [Finding.ofSpan_of_prefix hother rfl]
  simp only [Finding.identity, hline]

end Catalog.Lists

def Outline.listing? (o : Outline) : Option (String × String × List String) :=
  (Pattern.identifiersIn? o.source o.modes).map (o.category, o.title, ·)

/-- Category, title and identifiers of the built-in rules that list identifiers. -/
def Pack.listings : List (String × String × List String) :=
  [("playerExploits", "Player model manipulation", ["SetPlayerModel", "GetHashKey", "RequestModel"]),
   ("playerExploits", "Player state manipulation", ["SetPlayerInvincible", "SetPlayerControl"]),
   ("playerExploits", "Weapon manipulation", ["GiveWeaponToPed", "RemoveWeaponFromPed", "SetPedAmmo"]),
   ("vehicleExploits", "Vehicle property manipulation", ["SetVehicleEngineOn", "SetVehicleDoorOpen"]),
   ("vehicleExploits", "Vehicle health manipulation", ["SetVehicleEngineHealth", "SetVehicleBodyHealth"]),
   ("resourceManipulation", "Resource control manipulation", ["StopResource", "StartResource", "RestartResource"]),
   ("resourceManipulation", "Resource file manipulation", ["LoadResourceFile", "SaveResourceFile"]),
   ("eventSystem", "Unprotected event registration", ["RegisterNetEvent", "RegisterServerEvent"]),
   ("eventSystem", "Unprotected event trigger", ["TriggerEvent", "TriggerServerEvent"]),
   ("antiCheatBypass", "Visibility manipulation", ["SetEntityVisible", "SetEntityAlpha"]),
   ("antiCheatBypass", "Movement speed manipulation", ["SetRunSprintMultiplier", "SetSwimMultiplier"]),
   ("performanceIssues", "Resource intensive operation", ["GetActivePlayers", "GetGamePool"]),
   ("nuiExploitation", "Unprotected NUI interaction", ["SendNUIMessage", "RegisterNUICallback"])]

namespace Pack

theorem outlines_builtin_titles : ((builtin.flatMap outlines).map fun o => (o.category, o.title)).Nodup := by
  decide +kernel

theorem listings_eq : (builtin.flatMap outlines).filterMap Outline.listing? = listings := by
  simp only [builtin_eq, playerExploits, vehicleExploits, resourceManipulation, eventSystem, antiCheatBypass,
    performanceIssues, debugging, nuiExploitation, dynamicExecution, databaseAccess, outlines, Draft.outline, draft,
    List.flatMap_cons, List.flatMap_nil, List.map_cons, List.map_nil, List.cons_append, List.nil_append]
  repeat rw [String.toList_ofList]
  rfl

theorem separate_of_mem_listings : ∀ listing ∈ listings, Pattern.Separate (listing.2.2.map String.toList) := by
  simp only [listings, List.forall_mem_cons, List.map_cons, List.map_nil]
  repeat rw [String.toList_ofList]
  decide +kernel

end Pack

namespace Catalog

/-- The built-in rules that list identifiers can be told apart by their titles and do not fail. -/
theorem lists_of_builtin {c : Catalog} (houtlines : c.entries.map Outline.ofEntry = Pack.builtin.flatMap Pack.outlines)
    (hplain : ∀ entry ∈ c.entries, entry.2.detector.interruption = none) {entry : String × Rule}
    (hentry : entry ∈ c.entries) {names : List String}
    (hnames : entry.2.detector.pattern.identifiers? = some names) : c.Lists entry names := by
  have hkeys : (c.entries.map fun entry => (entry.1, entry.2.title)).Nodup := by
    have htitles := Pack.outlines_builtin_titles
    rwa [← houtlines, List.map_map] at htitles
  have hlisting : (entry.1, entry.2.title, names) ∈ Pack.listings := by
    rw [← Pack.listings_eq, ← houtlines, List.mem_filterMap]
    exact ⟨_, List.mem_map_of_mem hentry, congrArg (Option.map _) hnames⟩
  refine ⟨hentry, ?_, hplain entry hentry, hnames, Pack.separate_of_mem_listings _ hlisting⟩
  intro other hother hcategory htitle
  exact List.inj_on_of_nodup_map hkeys hother hentry (Prod.ext hcategory htitle)

/-- The built-in rules that list identifiers report every line on which one of them stands, and nothing else; the
column is the first one of that identifier on the line. -/
theorem builtin_reports_identifiers (text : List Char) (file : Option String) (clock : Clock) :
    ∃ c report after, builtin none = .ok c ∧ c.audit text file .none clock = .ok (report, after) ∧
      c.entries.filterMap (fun entry => entry.2.detector.pattern.identifiers?.map (entry.1, entry.2.title, ·)) =
        Pack.listings ∧
      ∀ entry ∈ c.entries, ∀ names, entry.2.detector.pattern.identifiers? = some names →
        (∀ line word,
          (∃ f ∈ report.findings, (f.category, f.rule) = entry ∧ f.location.line = line ∧ f.matchedText = word) ↔
            word ∈ names ∧ ∃ place, StandsAt word text place ∧ place.line = line) ∧
        ∀ f ∈ report.findings, (f.category, f.rule) = entry →
          StandsAt f.matchedText text f.location ∧
          ∀ place, StandsAt f.matchedText text place → place.line = f.location.line →
            f.location.column ≤ place.column := by
  obtain ⟨c, hbuilt, houtlines, hplain⟩ := builtin_outlines none
  obtain ⟨after, haudit⟩ := c.audit_eq text file .none clock
  refine ⟨c, _, after, hbuilt, haudit, ?_, ?_⟩
  · rw [← Pack.listings_eq]
    change _ = ((Pack.select Pack.builtin none).flatMap Pack.outlines).filterMap Outline.listing?
    rw [← houtlines, List.filterMap_map]
    rfl
  intro entry hentry names hnames
  have hlists := lists_of_builtin houtlines hplain hentry hnames
  constructor
  · intro line word
    constructor
    · rintro ⟨f, hf, hof, rfl, rfl⟩
      obtain ⟨hword, offset, hoffset, hpre, hlocation, _⟩ := hlists.first_of_mem_firsts (Finding.mem_ranked.mp hf) hof
      exact ⟨hword, f.location, standsAt_iff.mpr ⟨offset, hoffset, hpre, hlocation⟩, rfl⟩
    · rintro ⟨hword, place, hstands, rfl⟩
      obtain ⟨offset, _, hpre, rfl⟩ := standsAt_iff.mp hstands
      exact hlists.exists_finding hword hpre file clock
  · intro f hf hof
    obtain ⟨_, offset, hoffset, hpre, hlocation, hfirst⟩ := hlists.first_of_mem_firsts (Finding.mem_ranked.mp hf) hof
    refine ⟨standsAt_iff.mpr ⟨offset, hoffset, hpre, hlocation⟩, ?_⟩
    intro place hstands hline
    obtain ⟨other, hother, hotherPre, rfl⟩ := standsAt_iff.mp hstands
    rw [hlocation] at hline ⊢
    exact Location.column_le_of_line_eq (hfirst other hother hotherPre (by rw [hlocation, hline])) hother hline.symm

end Catalog

end ScriptAudit
