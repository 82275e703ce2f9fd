import ScriptAudit.Proofs.Checks

namespace ScriptAudit

namespace Pattern

namespace SlashLiteral

theorem ofReversed?_of_body {body flags : List Char} (hbody : body ≠ []) (hflags : ∀ c ∈ flags, c.isAlpha = true) :
    ofReversed? (flags ++ '/' :: body) = some ⟨body.reverse, flags.reverse⟩ := by
  have hslash : Char.isAlpha '/' = false := by decide
  have hdrop : (flags ++ '/' :: body).dropWhile Char.isAlpha = '/' :: body := by
    rw [List.dropWhile_append_of_pos hflags, List.dropWhile_cons_of_neg (by simp [hslash])]
  have htake : (flags ++ '/' :: body).takeWhile Char.isAlpha = flags := by
    rw [List.takeWhile_append_of_pos hflags, List.takeWhile_cons_of_neg (by simp [hslash]), List.append_nil]
  unfold ofReversed?
  split
  next rest hend =>
    -- Neither a letter nor the slash is the newline that may end a literal.
    cases flags with
    | nil => simp at hend
    | cons c cs =>
      have hc := hflags c List.mem_cons_self
      rw [(List.cons.inj hend).1] at hc
      exact absurd hc (by decide)
  next =>
    obtain ⟨c, rest, rfl⟩ := List.exists_cons_of_ne_nil hbody
    simp only [hdrop, htake]

theorem ofList?_of_body {body flags : List Char} (hbody : body ≠ []) (hflags : ∀ c ∈ flags, c.isAlpha = true) :
    ofList? ('/' :: (body ++ '/' :: flags)) = some ⟨body, flags⟩ := by
  have hreversed : (body ++ '/' :: flags).reverse = flags.reverse ++ '/' :: body.reverse := by simp
  have hletters : ∀ c ∈ flags.reverse, c.isAlpha = true := fun c hc => hflags c (List.mem_reverse.mp hc)
  rw [ofList?, hreversed, ofReversed?_of_body (by simpa using hbody) hletters, List.reverse_reverse,
    List.reverse_reverse]

theorem body_ne_nil {cs : List Char} {l : SlashLiteral} (h : ofList? cs = some l) : l.body ≠ [] := by
  unfold ofList? at h
  split at h
  next rest =>
    unfold ofReversed? at h
    dsimp only at h
    split at h
    next c body _ =>
      cases Option.some.inj h
      simp
    next => exact absurd h (by simp)
  next => exact absurd h (by simp)

end SlashLiteral

theorem toList_toText (p : Pattern) :
    p.toText.toList = '/' :: (p.source.toList ++ '/' :: p.modes.letters.toList) := by
  simp [toText, String.toList_append, toString]

theorem Modes.isAlpha_of_mem_letters (m : Modes) : ∀ c ∈ m.letters.toList, c.isAlpha = true := by
  have hall : m.letters.toList.all Char.isAlpha = true := by
    obtain ⟨ignoreCase, multiline, dotAll⟩ := m
    cases ignoreCase <;> cases multiline <;> cases dotAll <;> rfl
  exact List.all_eq_true.mp hall

/-- The letters of modes are known flags and stand for these modes. -/
theorem checkFlags_letters (m : Modes) :
    ∃ flags, checkFlags (letterItems m.letters.toList) = .ok (.known flags) ∧ Modes.ofFlags flags = m := by
  obtain ⟨ignoreCase, multiline, dotAll⟩ := m
  cases ignoreCase <;> cases multiline <;> cases dotAll <;> exact ⟨_, rfl, rfl⟩

theorem ofSource_self (p : Pattern) : ofSource p.source p.modes = .ok p := by
  unfold ofSource
  split
  next program h =>
    exact congrArg Except.ok (eq_of_source rfl rfl)
  next e h =>
    rw [p.compiled] at h
    exact absurd h (by simp)

theorem source_of_ofSource {source : String} {modes : Modes} {p : Pattern} (h : ofSource source modes = .ok p) :
    p.source = source := by
  unfold ofSource at h
  split at h
  next => rw [← Except.ok.inj h]
  next => exact absurd h (by simp)

/-- The expression in a text, which is its body if the text is a literal. -/
def sourceOf (text : String) : String :=
  ((SlashLiteral.ofList? text.toList).map fun l => String.ofList l.body).getD text

/-- The ways in which a text is read as a pattern. -/
theorem ofText_eq_ok_iff {text : String} {flags : Value} {p : Pattern} :
    ofText text flags = .ok p ↔ text ≠ "" ∧ ∃ items known,
      flagItems flags ((SlashLiteral.ofList? text.toList).map (·.flags)) = .ok items ∧
      checkFlags items = .ok (.known known) ∧ ofSource (sourceOf text) (.ofFlags known) = .ok p := by
  unfold ofText
  by_cases htext : text = ""
  · simp [htext]
  rw [if_neg (by simpa using htext)]
  dsimp only
  cases hitems : flagItems flags ((SlashLiteral.ofList? text.toList).map (·.flags)) with
  | error misuse => simp
  | ok items =>
    cases hcheck : checkFlags items with
    | error misuse => simp [hcheck]
    | ok verdict =>
      cases verdict with
      | unknown unknown => simp [hcheck]
      | known known => simp [hcheck, mapError_eq_ok_iff, htext, sourceOf]

theorem sourceOf_ne_empty {text : String} (h : text ≠ "") : sourceOf text ≠ "" := by
  unfold sourceOf
  cases hliteral : SlashLiteral.ofList? text.toList with
  | none => exact h
  | some l =>
    have hbody := SlashLiteral.body_ne_nil hliteral
    simpa using hbody

/-- No text stands for the pattern without a source. -/
theorem source_ne_empty_of_ofText {text : String} {flags : Value} {p : Pattern} (h : ofText text flags = .ok p) :
    p.source ≠ "" := by
  obtain ⟨htext, items, known, _, _, hsource⟩ := ofText_eq_ok_iff.mp h
  rw [source_of_ofSource hsource]
  exact sourceOf_ne_empty htext

theorem ofText_toText_iff (p : Pattern) : ofText p.toText .null = .ok p ↔ p.source ≠ "" := by
  constructor
  · exact source_ne_empty_of_ofText
  intro h
  have hbody : p.source.toList ≠ [] := by simpa using h
  have hliteral : SlashLiteral.ofList? p.toText.toList = some ⟨p.source.toList, p.modes.letters.toList⟩ := by
    rw [toList_toText]
    exact SlashLiteral.ofList?_of_body hbody p.modes.isAlpha_of_mem_letters
  have htext : p.toText ≠ "" := by
    intro hempty
    have hlist := p.toList_toText
    simp [hempty] at hlist
  have hsource : sourceOf p.toText = p.source := by simp [sourceOf, hliteral]
  obtain ⟨known, hknown, hmodes⟩ := checkFlags_letters p.modes
  refine ofText_eq_ok_iff.mpr ⟨htext, letterItems p.modes.letters.toList, known, ?_, hknown, ?_⟩
  · rw [hliteral]
    rfl
  · rw [hsource, hmodes]
    exact p.ofSource_self

end Pattern

theorem Draft.detector_eq_ok_iff {d : Draft} {text : String} (h : d.pattern = .value (.text text)) {category : String}
    {detector : Detector} :
    d.detector category = .ok detector ↔
      Pattern.ofText text d.flags = .ok detector.pattern ∧ detector.interruption = none := by
  obtain ⟨pattern, interruption⟩ := detector
  unfold Draft.detector
  rw [h]
  simp only [Pattern.ofValue]
  cases Pattern.ofText text d.flags with
  | ok other => simp [eq_comm]
  | error refusal => cases refusal <;> simp [fail]

namespace Rule

variable {r : Rule}

/-- Given by a definition whose pattern is a text. -/
def Spelled (r : Rule) : Prop :=
  ∃ (d : Draft) (category text : String), d.pattern = .value (.text text) ∧ d.check category = .ok r

theorem Spelled.source_ne_empty (h : r.Spelled) : r.detector.pattern.source ≠ "" := by
  obtain ⟨d, category, text, hpattern, hcheck⟩ := h
  obtain ⟨_, _, _, _, hdetector⟩ := Draft.check_eq_ok_iff.mp hcheck
  exact Pattern.source_ne_empty_of_ofText ((Draft.detector_eq_ok_iff hpattern).mp hdetector).1

/-- A rule that is written down and read again is the same rule, unless its pattern has no source. -/
theorem check_toValue_iff (hvalid : r.Valid) (hplain : r.detector.interruption = none) (category : String) :
    (Definition.ofValue r.toValue).check category = .ok r ↔ r.detector.pattern.source ≠ "" := by
  have hpattern : (Draft.ofValue r.toValue).pattern = .value (.text r.detector.pattern.toText) := rfl
  have hdetector : (Draft.ofValue r.toValue).detector category = .ok r.detector ↔ r.detector.pattern.source ≠ "" := by
    rw [Draft.detector_eq_ok_iff hpattern, ← Pattern.ofText_toText_iff]
    exact and_iff_left hplain
  change (Draft.ofValue r.toValue).check category = .ok r ↔ _
  rw [Draft.check_eq_ok_iff, hdetector]
  exact ⟨fun h => h.2.2.2.2, fun h => ⟨hvalid.title, hvalid.description, hvalid.suggestion,
    r.severity.ofValue_name, h⟩⟩

end Rule

namespace Catalog

/-- The fields of a catalog as data. -/
def fields (c : Catalog) : List (String × Value) :=
  c.categories.map fun category => (category.name, .list (category.rules.map Rule.toValue))

theorem check_field_iff {category : Category} (hname : nonBlank? (.text category.name) = some category.name)
    (hvalid : ∀ rule ∈ category.rules, rule.Valid)
    (hplain : ∀ rule ∈ category.rules, rule.detector.interruption = none) :
    CatalogEntry.check ⟨.text category.name, .ofValue (.list (category.rules.map Rule.toValue))⟩ = .ok category ↔
      ∀ rule ∈ category.rules, rule.detector.pattern.source ≠ "" := by
  rw [CatalogEntry.check_eq_ok_iff]
  simp only [Definitions.ofValue, Definitions.list.injEq, exists_eq_left', hname, true_and, List.map_map,
    List.forall₂_map_left_iff, List.forall₂_same]
  refine forall₂_congr ?_
  intro rule hrule
  exact Rule.check_toValue_iff (hvalid rule hrule) (hplain rule hrule) category.name

theorem ofEntries_fields_iff {c : Catalog} (hc : c.Reachable)
    (hplain : ∀ entry ∈ c.entries, entry.2.detector.interruption = none) :
    ofEntries (CatalogEntry.ofFields c.fields) = .ok c ↔
      ∀ entry ∈ c.entries, entry.2.detector.pattern.source ≠ "" := by
  have hentry {category : Category} (hcategory : category ∈ c.categories) {rule : Rule}
      (hrule : rule ∈ category.rules) : (category.name, rule) ∈ c.entries :=
    mem_entries.mpr ⟨category, hcategory, rfl, hrule⟩
  have hcategories : ofEntries (CatalogEntry.ofFields c.fields) = .ok c ↔
      ∀ category ∈ c.categories, ∀ rule ∈ category.rules, rule.detector.pattern.source ≠ "" := by
    rw [ofEntries_eq_ok_iff, CatalogEntry.ofFields, fields, List.map_map, List.forall₂_map_left_iff, List.forall₂_same]
    refine forall₂_congr ?_
    intro category hcategory
    exact check_field_iff (hc.nonBlank (List.mem_map_of_mem hcategory))
      (fun rule hrule => hc.valid (hentry hcategory hrule)) (fun rule hrule => hplain _ (hentry hcategory hrule))
  rw [hcategories]
  constructor
  · rintro h ⟨name, rule⟩ hmem
    obtain ⟨category, hcategory, _, hrule⟩ := mem_entries.mp hmem
    exact h category hcategory rule hrule
  · intro h category hcategory rule hrule
    exact h _ (hentry hcategory hrule)

/-- A catalog that is written down as data and read again is the same catalog, unless a pattern has no source. That
cannot be where the patterns were given as texts. -/
theorem ofEntries_toValue_iff {c : Catalog} (hc : c.Reachable)
    (hplain : ∀ entry ∈ c.entries, entry.2.detector.interruption = none) :
    ∃ fields, c.toValue = .record fields ∧ (fields.map (·.1)).Nodup ∧
      (ofEntries (CatalogEntry.ofFields fields) = .ok c ↔
        ∀ entry ∈ c.entries, entry.2.detector.pattern.source ≠ "") ∧
      ((∀ entry ∈ c.entries, entry.2.Spelled) → ofEntries (CatalogEntry.ofFields fields) = .ok c) := by
  have hiff := ofEntries_fields_iff hc hplain
  refine ⟨c.fields, rfl, ?_, hiff, ?_⟩
  · have hnames : c.fields.map (·.1) = c.names := by simp [fields, names]
    rw [hnames]
    exact hc.names_nodup
  · intro hspelled
    exact hiff.mpr fun entry hentry => (hspelled entry hentry).source_ne_empty

/-- A source that reads like the end of a literal, with two modes. -/
def slashed : Pattern :=
  ⟨"a/i", ⟨false, true, true⟩,
    ⟨.seq (.char (.code .exact 97)) (.seq (.char (.code .exact 47)) (.char (.code .exact 105))), 0⟩, by decide⟩

def unsourced : Pattern := ⟨"", {}, ⟨.empty, 0⟩, by decide⟩

def patternsOf (patterns : List Pattern) : Catalog :=
  ⟨[⟨"patterns", patterns.map fun p => ⟨⟨p, none⟩, "title", "What it is.", .low, "None."⟩⟩]⟩

theorem patternsOf_plain (patterns : List Pattern) :
    ∀ entry ∈ (patternsOf patterns).entries, entry.2.detector.interruption = none := by
  rintro ⟨name, rule⟩ hentry
  obtain ⟨category, hcategory, _, hrule⟩ := mem_entries.mp hentry
  rw [List.mem_singleton.mp hcategory] at hrule
  obtain ⟨p, _, rfl⟩ := List.mem_map.mp hrule
  rfl

/-- The slash in a source is not mistaken for the end of the literal, and a catalog with an empty source is not got
back. -/
theorem ofEntries_toValue_iff_of_slashes :
    ((patternsOf [slashed]).Reachable ∧
      (∀ entry ∈ (patternsOf [slashed]).entries, entry.2.detector.interruption = none) ∧
      (∀ entry ∈ (patternsOf [slashed]).entries, entry.2.Spelled) ∧
      ∃ fields, (patternsOf [slashed]).toValue = .record fields ∧ (fields.map (·.1)).Nodup ∧
        ofEntries (CatalogEntry.ofFields fields) = .ok (patternsOf [slashed])) ∧
    (patternsOf [slashed, unsourced]).Reachable ∧
    (∀ entry ∈ (patternsOf [slashed, unsourced]).entries, entry.2.detector.interruption = none) ∧
    ∃ fields, (patternsOf [slashed, unsourced]).toValue = .record fields ∧ (fields.map (·.1)).Nodup ∧
      ofEntries (CatalogEntry.ofFields fields) ≠ .ok (patternsOf [slashed, unsourced]) := by
  have hfirst : (patternsOf [slashed]).Reachable :=
    @Reachable.ofEntries ((patternsOf [slashed]).categories.map Category.toEntry) _ (List.nodup_singleton _) rfl
  have hsecond : (patternsOf [slashed, unsourced]).Reachable :=
    @Reachable.ofEntries ((patternsOf [slashed, unsourced]).categories.map Category.toEntry) _
      (List.nodup_singleton _) rfl
  have hspelled : ∀ entry ∈ (patternsOf [slashed]).entries, entry.2.Spelled := by
    intro entry hentry
    rw [List.mem_singleton.mp hentry]
    exact ⟨.ofValue (Rule.toValue _), "patterns", "/a/i/ms", rfl,
      (Rule.check_toValue_iff (hfirst.valid List.mem_cons_self) rfl _).mpr (by decide)⟩
  constructor
  · obtain ⟨fields, hfields, hnames, _, hback⟩ := ofEntries_toValue_iff hfirst (patternsOf_plain _)
    exact ⟨hfirst, patternsOf_plain _, hspelled, fields, hfields, hnames, hback hspelled⟩
  · obtain ⟨fields, hfields, hnames, hiff, _⟩ := ofEntries_toValue_iff hsecond (patternsOf_plain _)
    refine ⟨hsecond, patternsOf_plain _, fields, hfields, hnames, fun h => ?_⟩
    exact hiff.mp h _ (List.mem_cons_of_mem _ List.mem_cons_self) rfl

end Catalog

end ScriptAudit
