import ScriptAudit.Proofs.Flags

namespace ScriptAudit.Pattern

namespace SlashLiteral

/-- What stands after the body and a slash: letters, and a newline perhaps. -/
structure Closes (flags ending : List Char) : Prop where
  flags : ∀ c ∈ flags, c.isAlpha = true
  ending : ending = [] ∨ ending = ['\n']

theorem Closes.slash_not_mem {flags ending : List Char} (h : Closes flags ending) : '/' ∉ flags ++ ending := by
  intro hmem
  rcases List.mem_append.mp hmem with hmem | hmem
  · exact absurd (h.flags _ hmem) (by decide)
  · rcases h.ending with rfl | rfl <;> exact absurd hmem (by decide)

/-- How a literal is written: a slash, the body, a slash and letters for flags. A newline may stand at the end. -/
structure Spells (l : SlashLiteral) (ending text : List Char) : Prop where
  text_eq : text = '/' :: (l.body ++ '/' :: (l.flags ++ ending))
  body : l.body ≠ []
  flags : ∀ c ∈ l.flags, c.isAlpha = true
  ending : ending = [] ∨ ending = ['\n']

theorem Spells.closes {l : SlashLiteral} {ending text : List Char} (h : l.Spells ending text) :
    Closes l.flags ending := ⟨h.flags, h.ending⟩

/-- One newline at the end is passed over. -/
theorem ofReversed?_newline {body flags : List Char} (hflags : ∀ c ∈ flags, c.isAlpha = true) :
    ofReversed? ('\n' :: (flags ++ '/' :: body)) = ofReversed? (flags ++ '/' :: body) := by
  cases flags with
  | nil => rfl
  | cons c flags =>
    have hc : c ≠ '\n' := by
      rintro rfl
      exact absurd (hflags _ List.mem_cons_self) (by decide)
    unfold ofReversed?
    split
    next rest hrest =>
      cases hrest
      split
      next rest hrest => exact absurd (List.cons.inj hrest).1 hc
      next => rfl
    next hnone => exact absurd rfl (hnone _)

theorem ofList?_of_spells {l : SlashLiteral} {ending text : List Char} (h : l.Spells ending text) :
    ofList? text = some l := by
  obtain ⟨rfl, hbody, hflags, hending⟩ := h
  rcases hending with rfl | rfl
  · rw [List.append_nil]
    exact ofList?_of_body hbody hflags
  · have hreversed : (l.body ++ '/' :: (l.flags ++ ['\n'])).reverse =
        '\n' :: (l.flags.reverse ++ '/' :: l.body.reverse) := by simp
    have hletters : ∀ c ∈ l.flags.reverse, c.isAlpha = true := fun c hc => hflags c (List.mem_reverse.mp hc)
    rw [ofList?, hreversed, ofReversed?_newline hletters, ofReversed?_of_body (by simpa using hbody) hletters,
      List.reverse_reverse, List.reverse_reverse]

theorem spells_of_dropWhile {rest body ending : List Char} {c : Char}
    (hdrop : rest.dropWhile Char.isAlpha = '/' :: c :: body) (hending : ending = [] ∨ ending = ['\n']) :
    Spells ⟨(c :: body).reverse, (rest.takeWhile Char.isAlpha).reverse⟩ ending ('/' :: (ending ++ rest).reverse) := by
  have hback : ending.reverse = ending := by
    rcases hending with rfl | rfl <;> rfl
  have hrest : rest = rest.takeWhile Char.isAlpha ++ '/' :: c :: body := by
    rw [← hdrop, List.takeWhile_append_dropWhile]
  refine ⟨?_, by simp, ?_, hending⟩
  · rw [List.reverse_append, hback]
    conv_lhs => rw [hrest]
    simp
  · intro d hd
    exact List.all_eq_true.mp List.all_takeWhile d (List.mem_reverse.mp hd)

theorem spells_of_ofList? {l : SlashLiteral} {text : List Char} (h : ofList? text = some l) :
    ∃ ending, l.Spells ending text := by
  unfold ofList? at h
  split at h
  next rest =>
    have hspells {ending reversed body : List Char} {c : Char} (hrest : rest.reverse = ending ++ reversed)
        (hdrop : reversed.dropWhile Char.isAlpha = '/' :: c :: body) (hending : ending = [] ∨ ending = ['\n']) :
        Spells ⟨(c :: body).reverse, (reversed.takeWhile Char.isAlpha).reverse⟩ ending ('/' :: rest) := by
      have hwritten := spells_of_dropWhile hdrop hending
      rwa [← hrest, List.reverse_reverse] at hwritten
    unfold ofReversed? at h
    split at h
    next reversed hrest =>
      dsimp only at h
      split at h
      next c body hdrop =>
        cases h
        exact ⟨['\n'], hspells hrest hdrop (.inr rfl)⟩
      next => exact absurd h (by simp)
    next =>
      dsimp only at h
      split at h
      next c body hdrop =>
        cases h
        exact ⟨[], hspells rfl hdrop (.inl rfl)⟩
      next => exact absurd h (by simp)
  next => exact absurd h (by simp)

/-- A text is read as a literal exactly if it is one. -/
theorem ofList?_eq_some_iff {l : SlashLiteral} {text : List Char} :
    ofList? text = some l ↔ ∃ ending, l.Spells ending text :=
  ⟨spells_of_ofList?, fun ⟨_, h⟩ => ofList?_of_spells h⟩

/-- A text is a literal in one way only. -/
theorem Spells.unique {l l' : SlashLiteral} {ending ending' text : List Char} (h : l.Spells ending text)
    (h' : l'.Spells ending' text) : l = l' ∧ ending = ending' := by
  have hsame : l = l' := Option.some.inj ((ofList?_of_spells h).symm.trans (ofList?_of_spells h'))
  subst hsame
  refine ⟨rfl, ?_⟩
  simpa using h.text_eq.symm.trans h'.text_eq

end SlashLiteral

/-- The expression and the flags that are in force: those of the literal if the text is one, else the text itself. -/
inductive InForce (text given : List Char) : List Char → List Char → Prop
  | literal {l : SlashLiteral} {ending : List Char} (written : l.Spells ending text) :
      InForce text given l.body (given ++ l.flags)
  | plain (other : ∀ (l : SlashLiteral) (ending : List Char), ¬l.Spells ending text) : InForce text given text given

theorem exists_inForce (text given : List Char) : ∃ source flags, InForce text given source flags := by
  by_cases h : ∃ (l : SlashLiteral) (ending : List Char), l.Spells ending text
  · obtain ⟨l, ending, h⟩ := h
    exact ⟨_, _, .literal h⟩
  · push Not at h
    exact ⟨_, _, .plain h⟩

def Modes.ofLetters (flags : List Char) : Modes := ⟨flags.contains 'i', flags.contains 'm', flags.contains 's'⟩

theorem Modes.ofFlags_singletons (flags : List Char) : ofFlags (flags.map String.singleton) = ofLetters flags := by
  have hcontains (c : Char) : (flags.map String.singleton).contains (String.singleton c) = flags.contains c := by
    rw [Bool.eq_iff_iff, List.contains_iff_mem, List.contains_iff_mem, List.mem_map_of_injective singleton_injective]
  rw [ofLetters, ← hcontains, ← hcontains, ← hcontains]
  rfl

theorem flagItems_text (f : String) (literal : Option (List Char)) :
    flagItems (.text f) literal = .ok (letterItems (f.toList ++ literal.getD [])) := by
  rw [flagItems_of_texts (.text f), letterItems_eq, List.map_append (f := String.singleton)]

theorem InForce.read {text f : String} {source flags : List Char} (h : InForce text.toList f.toList source flags) :
    sourceOf text = String.ofList source ∧
      flagItems (.text f) (literalFlags? text) = .ok (letterItems flags) := by
  cases h with
  | literal written => simp [sourceOf, literalFlags?, flagItems_text, SlashLiteral.ofList?_of_spells written]
  | plain other =>
    have hnone : SlashLiteral.ofList? text.toList = none := by
      rw [Option.eq_none_iff_forall_ne_some]
      intro l hl
      obtain ⟨ending, hspells⟩ := SlashLiteral.spells_of_ofList? hl
      exact other l ending hspells
    simp [sourceOf, literalFlags?, flagItems_text, hnone]

section Reading

variable {text f : String} (hne : text ≠ "") {source flags : List Char}
  (h : InForce text.toList f.toList source flags)

include hne h

theorem ofText_of_knownLetters (hknown : ∀ c ∈ flags, c ∈ knownLetters) :
    ofText text (.text f) = (ofSource (String.ofList source) (.ofLetters flags)).mapError
      (.ofRejection text (String.ofList source)) := by
  obtain ⟨hsource, hitems⟩ := h.read
  rcases checkFlags_letterItems flags with ⟨_, hcheck⟩ | ⟨unknown, hsome, _, hmem, _⟩
  · rw [ofText_of_known hne hitems hcheck, hsource, Modes.ofFlags_singletons]
  · obtain ⟨c, hc⟩ := List.exists_mem_of_ne_nil _ hsome
    exact absurd (hknown c ((hmem c).mp hc).1) ((hmem c).mp hc).2

theorem ofText_of_unknownLetter (hunknown : ∃ c ∈ flags, c ∉ knownLetters) :
    ∃ unknown : List Char, unknown.Pairwise (·.toNat < ·.toNat) ∧
      (∀ c, c ∈ unknown ↔ c ∈ flags ∧ c ∉ knownLetters) ∧
      ofText text (.text f) = .error (.problem (.unsupportedFlags (String.ofList unknown))) := by
  obtain ⟨hsource, hitems⟩ := h.read
  obtain ⟨c, hc, hnot⟩ := hunknown
  rcases checkFlags_letterItems flags with ⟨hknown, _⟩ | ⟨unknown, _, hsorted, hmem, hcheck⟩
  · exact absurd (hknown c hc) hnot
  · exact ⟨unknown, hsorted, hmem, ofText_of_unknown hne hitems hcheck⟩

end Reading

theorem ofSource_eq_ok_iff {source : String} {modes : Modes} {p : Pattern} :
    ofSource source modes = .ok p ↔ p.source = source ∧ p.modes = modes := by
  constructor
  · intro h
    unfold ofSource at h
    split at h
    next program hprogram =>
      rw [← Except.ok.inj h]
      exact ⟨rfl, rfl⟩
    next => exact absurd h (by simp)
  · rintro ⟨rfl, rfl⟩
    exact p.ofSource_self

theorem ofSource_of_rejected {source : String} {modes : Modes} {e : Rejection} (h : compile source modes = .error e) :
    ofSource source modes = .error e := by
  unfold ofSource
  split
  next program hprogram =>
    rw [h] at hprogram
    exact absurd hprogram (by simp)
  next e' he' => exact congrArg Except.error (Except.error.inj (he'.symm.trans h))

/-- A text that is accepted has known flags only, and they are all that decides on its modes. -/
theorem ofText_eq_ok_iff_of_inForce {text f : String} (hne : text ≠ "") {source flags : List Char}
    (h : InForce text.toList f.toList source flags) {p : Pattern} :
    ofText text (.text f) = .ok p ↔
      (∀ c ∈ flags, c ∈ knownLetters) ∧ p.source = String.ofList source ∧ p.modes = .ofLetters flags := by
  by_cases hknown : ∀ c ∈ flags, c ∈ knownLetters
  · rw [ofText_of_knownLetters hne h hknown, mapError_eq_ok_iff, ofSource_eq_ok_iff, and_iff_right hknown]
  · have hunknown : ∃ c ∈ flags, c ∉ knownLetters := by
      push Not at hknown
      exact hknown
    obtain ⟨unknown, _, _, hrefused⟩ := ofText_of_unknownLetter hne h hunknown
    rw [hrefused]
    constructor
    · intro hok
      exact absurd hok (by simp)
    · intro hall
      exact absurd hall.1 hknown

theorem Modes.ofLetters_congr {flags flags' : List Char}
    (h : ∀ c, c ≠ 'g' → c ≠ 'u' → (c ∈ flags ↔ c ∈ flags')) : ofLetters flags = ofLetters flags' := by
  have hcontains (c : Char) (hg : c ≠ 'g') (hu : c ≠ 'u') : flags.contains c = flags'.contains c := by
    rw [Bool.eq_iff_iff, List.contains_iff_mem, List.contains_iff_mem]
    exact h c hg hu
  rw [ofLetters, hcontains 'i' (by decide) (by decide), hcontains 'm' (by decide) (by decide),
    hcontains 's' (by decide) (by decide)]
  rfl

/-- Literals are recognised by their grammar, which leaves no choice, since the slash before the flags is the last one.
With an unknown flag in force a text is refused and these flags are told; otherwise it is refused for a fault of its
expression. A pattern that is read has the modes of its flags, whose order and number do not count. -/
theorem ofText_recognises_literals {text : String} (hne : text ≠ "") (f : String) :
    (∀ l, SlashLiteral.ofList? text.toList = some l ↔ ∃ ending, l.Spells ending text.toList) ∧
    (∀ l ending l' ending', SlashLiteral.Spells l ending text.toList → SlashLiteral.Spells l' ending' text.toList →
      l = l' ∧ ending = ending' ∧ '/' ∉ l.flags ++ ending) ∧
    ∃ source flags, InForce text.toList f.toList source flags ∧
      ((∃ c ∈ flags, c ∉ ['i', 'm', 's', 'g', 'u']) → ∃ unknown : List Char,
        unknown.Pairwise (·.toNat < ·.toNat) ∧
        (∀ c, c ∈ unknown ↔ c ∈ flags ∧ c ∉ ['i', 'm', 's', 'g', 'u']) ∧
        ofText text (.text f) = .error (.problem (.unsupportedFlags (String.ofList unknown)))) ∧
      ((∀ c ∈ flags, c ∈ ['i', 'm', 's', 'g', 'u']) →
        (∀ fault, compile (String.ofList source) (.ofLetters flags) = .error (.fault fault) →
          ofText text (.text f) = .error (.problem (.malformed text (String.ofList source) fault))) ∧
        ∀ program, compile (String.ofList source) (.ofLetters flags) = .ok program →
          ∃ p, ofText text (.text f) = .ok p ∧ p.program = program) ∧
      (∀ p, ofText text (.text f) = .ok p → p.source = String.ofList source ∧
        (p.modes.ignoreCase = true ↔ 'i' ∈ flags) ∧ (p.modes.multiline = true ↔ 'm' ∈ flags) ∧
        (p.modes.dotAll = true ↔ 's' ∈ flags)) ∧
      ∀ text' f' flags', text' ≠ "" → InForce text'.toList f'.toList source flags' →
        (∀ c ∈ flags ++ flags', c ∈ ['i', 'm', 's', 'g', 'u']) →
        (∀ c, c ≠ 'g' → c ≠ 'u' → (c ∈ flags ↔ c ∈ flags')) →
        ∀ p, ofText text (.text f) = .ok p ↔ ofText text' (.text f') = .ok p := by
  obtain ⟨source, flags, h⟩ := exists_inForce text.toList f.toList
  refine ⟨fun l => SlashLiteral.ofList?_eq_some_iff, ?_, source, flags, h, ofText_of_unknownLetter hne h, ?_, ?_, ?_⟩
  · intro l ending l' ending' hl hl'
    obtain ⟨hsame, hending⟩ := hl.unique hl'
    exact ⟨hsame, hending, hl.closes.slash_not_mem⟩
  · intro hknown
    constructor
    · intro fault hfault
      rw [ofText_of_knownLetters hne h hknown, ofSource_of_rejected hfault]
      rfl
    · intro program hprogram
      exact ⟨⟨_, _, program, hprogram⟩, (ofText_eq_ok_iff_of_inForce hne h).mpr ⟨hknown, rfl, rfl⟩, rfl⟩
  · intro p hp
    obtain ⟨_, hsource, hmodes⟩ := (ofText_eq_ok_iff_of_inForce hne h).mp hp
    simp [hsource, hmodes, Modes.ofLetters]
  · intro text' f' flags' hne' h' hknown hsame p
    rw [ofText_eq_ok_iff_of_inForce hne h, ofText_eq_ok_iff_of_inForce hne' h', Modes.ofLetters_congr hsame]
    have hboth := List.forall_mem_append.mp hknown
    exact ⟨fun hp => ⟨hboth.2, hp.2⟩, fun hp => ⟨hboth.1, hp.2⟩⟩

/-- A body that ends in a slash, letters and a newline as a literal does, and flags on both sides. -/
theorem ofText_recognises_literals_of_inner_slash :
    "/a/i\n/gi\n" ≠ "" ∧
    (∀ l, SlashLiteral.ofList? "/a/i\n/gi\n".toList = some l ↔ l = ⟨['a', '/', 'i', '\n'], ['g', 'i']⟩) ∧
    ∃ p, ofText "/a/i\n/gi\n" (.text "su") = .ok p ∧ p.source = "a/i\n" ∧ p.modes.ignoreCase = true ∧
      p.modes.multiline = false ∧ p.modes.dotAll = true := by
  have hne : "/a/i\n/gi\n" ≠ "" := by decide
  have hwritten : SlashLiteral.Spells ⟨['a', '/', 'i', '\n'], ['g', 'i']⟩ ['\n'] "/a/i\n/gi\n".toList :=
    ⟨by decide, by decide, List.all_eq_true.mp rfl, .inr rfl⟩
  have hknown : ∀ c ∈ ['s', 'u', 'g', 'i'], c ∈ knownLetters := by simp [knownLetters]
  obtain ⟨hread, hunique, source, flags, hforce, _, haccepted, hmodes, _⟩ := ofText_recognises_literals hne "su"
  refine ⟨hne, ?_, ?_⟩
  · intro l
    rw [hread]
    constructor
    · rintro ⟨ending, hl⟩
      exact (hunique _ _ _ _ hl hwritten).1
    · rintro rfl
      exact ⟨_, hwritten⟩
  · obtain ⟨rfl, rfl⟩ : source = ['a', '/', 'i', '\n'] ∧ flags = ['s', 'u', 'g', 'i'] := by
      cases hforce with
      | literal hl =>
        obtain ⟨rfl, _⟩ := hunique _ _ _ _ hl hwritten
        exact ⟨rfl, by decide⟩
      | plain hother => exact absurd hwritten (hother _ _)
    obtain ⟨p, hp, _⟩ := (haccepted hknown).2 _ rfl
    obtain ⟨hsource, hi, hm, hs⟩ := hmodes p hp
    refine ⟨p, hp, hsource.trans (by decide), hi.mpr (by decide), ?_, hs.mpr (by decide)⟩
    rw [Bool.eq_false_iff]
    intro hmultiline
    exact absurd (hm.mp hmultiline) (by decide)

end ScriptAudit.Pattern
