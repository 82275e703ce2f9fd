import ScriptAudit.Proofs.Folding
import ScriptAudit.Proofs.Identifiers
import ScriptAudit.Proofs.Languages

namespace ScriptAudit

namespace Pattern

open Text

/-- A call of the library with a query text in double quotes that is joined to something. -/
def queryCall (name text : List Char) : List Char :=
  ['M', 'y', 'S', 'Q', 'L'] ++ '.' :: (name ++ '(' :: '"' :: (text ++ ['"', ' ', '.', '.', ' ']))

/-- Two dots stand behind the first single quote, so that a query text could end there and be joined to something. -/
def joinsAtQuote (s : List Char) : Bool :=
  ['.', '.'].isPrefixOf (((s.dropWhile (· != '\'')).drop 1).dropWhile isBlank)

namespace Expr

/-- Letters in whatever case. -/
def letters (w : List Char) : List Expr := w.map (literal .unicode)

def blanks : Expr := run .greedy 0 none (.set .unicode false [.cls .blank false false])

def wordTest : CharTest := .set .unicode false [.cls .word false false]

def quote : Expr := char (.set .unicode false (['\'', '"'].map fun d => .code d.toNat))

/-- What may stand between two quotes. -/
def unquotedTest : CharTest := .set .unicode true (['\'', '"', '\n'].map fun d => .code d.toNat)

/-- A function of one of the two interfaces of the driver. -/
def driverName : Expr :=
  ofList (letters ['m', 'y', 's', 'q', 'l'] ++ literal .unicode '.' ::
    [alternatives [ofList (letters ['a', 's', 'y', 'n', 'c']), ofList (letters ['s', 'y', 'n', 'c'])],
      literal .unicode '.', run .greedy 1 none wordTest])

def exportName : Expr :=
  ofList (letters ['e', 'x', 'p', 'o', 'r', 't', 's'] ++ literal .unicode '.' ::
    (letters ['o', 'x', 'm', 'y', 's', 'q', 'l'] ++
      [char (.set .unicode false ([':', '.'].map fun d => .code d.toNat)), run .greedy 1 none wordTest]))

def await : Expr := repeated .greedy 0 (some 1) (ofList (letters ['.', 'a', 'w', 'a', 'i', 't']))

/-- A function of the library, which may be awaited. -/
def libraryName : Expr :=
  ofList (letters ['M', 'y', 'S', 'Q', 'L'] ++ literal .unicode '.' :: [run .greedy 1 none wordTest, await])

/-- What stands between the name and the query text. -/
def opening : List Expr := [blanks, literal .unicode '(', blanks, quote]

def dots : List Expr := [blanks, literal .unicode '.', literal .unicode '.']

/-- A query text that ends and is joined to something else. -/
def queryText : List Expr := run .greedy 0 none unquotedTest :: quote :: dots

/-- The expression of the built-in rule on queries. -/
def concatenation : Expr :=
  ofList (alternatives [driverName, exportName, libraryName] :: (opening ++ queryText))

variable {P : List Char → Prop} {es : List Expr} {c : Char} {l m w : List Char}

/-- Whether a character counts as a letter when case is ignored. -/
def sameLetter (d c : Char) : Bool := (CharTest.code .unicode d.toNat).accepts c

theorem sameLetter_of_ascii {d : Char} (hd : d.toNat < 128) (hc : c.toNat < 128) :
    sameLetter d c = true ↔ lowerAscii d.toNat = lowerAscii c.toNat := by
  rw [← mem_variants_iff_of_ascii hd hc]
  simp [sameLetter, CharTest.accepts, SetItem.accepts, Folding.variants]

theorem lowerAscii_of_isAlpha (hc : c.isAlpha = true) :
    c.toNat < 128 ∧ 97 ≤ lowerAscii c.toNat ∧ lowerAscii c.toNat ≤ 122 := by
  have hrange := (isAlpha_iff c).mp hc
  have hcases := lowerAscii_cases c.toNat
  omega

theorem begins_letters_cons {d : Char} :
    (ofList (letters (d :: w) ++ es)).Begins P (c :: l) ↔
      sameLetter d c = true ∧ (ofList (letters w ++ es)).Begins P l := by
  rw [letters, List.map_cons, List.cons_append, begins_ofList_cons]
  exact begins_char_cons

theorem begins_letters_append {u : List Char}
    (h : List.Forall₂ (fun d c => sameLetter d c = true) w u) :
    (ofList (letters w ++ es)).Begins P (u ++ l) ↔ (ofList es).Begins P l := by
  induction h with
  | nil => rfl
  | cons hhead _ ih => rw [List.cons_append, begins_letters_cons, ih, and_iff_right hhead]

theorem begins_sign_cons {d : Char} (hd : Caseless d.toNat) :
    (literal .unicode d).Begins P (c :: l) ↔ c = d ∧ P l := by
  rw [literal, begins_char_cons, accepts_code_of_caseless hd]

/-- A name that goes on behind a dot does not stand where a bracket comes before the next dot. -/
theorem not_begins_of_bracket (hw : w.all Char.isAlpha = true) (hm : '.' ∉ m) :
    ¬(ofList (letters w ++ literal .unicode '.' :: es)).Begins P (m ++ '(' :: l) := by
  induction w generalizing m with
  | nil =>
    rw [letters, List.map_nil, List.nil_append, begins_ofList_cons]
    cases m with
    | nil => simp [begins_sign_cons (d := '.') (by decide)]
    | cons c m =>
      rw [List.cons_append, begins_sign_cons (by decide)]
      rintro ⟨rfl, _⟩
      exact hm List.mem_cons_self
  | cons d w ih =>
    rw [List.all_cons, Bool.and_eq_true] at hw
    cases m with
    | nil =>
      have hd := lowerAscii_of_isAlpha hw.1
      have hbracket : lowerAscii '('.toNat = 40 := rfl
      rw [List.nil_append, begins_letters_cons, sameLetter_of_ascii hd.1 (by decide)]
      rintro ⟨heq, _⟩
      omega
    | cons c m =>
      rw [List.cons_append, begins_letters_cons]
      exact fun h => ih hw.2 (fun hdot => hm (List.mem_cons_of_mem c hdot)) h.2

theorem begins_sign_iff {d : Char} (hd : Caseless d.toNat) :
    (literal .unicode d).Begins P l ↔ ∃ rest, l = d :: rest ∧ P rest := by
  simp only [literal, begins_char_iff, accepts_code_of_caseless hd]
  constructor
  · rintro ⟨_, rest, heq, rfl, h⟩
    exact ⟨rest, heq, h⟩
  · rintro ⟨rest, heq, h⟩
    exact ⟨d, rest, heq, rfl, h⟩

theorem begins_dots_iff : (ofList dots).Begins (fun _ => True) l ↔ ['.', '.'] <+: l.dropWhile isBlank := by
  have hsigns (l : List Char) :
      (ofList [literal .unicode '.', literal .unicode '.']).Begins (fun _ => True) l ↔ ['.', '.'] <+: l := by
    have hdot : Caseless '.'.toNat := by decide
    simp only [begins_ofList_cons, begins_sign_iff hdot]
    constructor
    · rintro ⟨_, rfl, rest, rfl, _⟩
      exact ⟨rest, rfl⟩
    · rintro ⟨rest, rfl⟩
      exact ⟨_, rfl, rest, rfl, begins_empty.mpr trivial⟩
  rw [dots, begins_ofList_cons]
  constructor
  · rintro ⟨w, ⟨_, hw⟩, rest, rfl, h⟩
    obtain ⟨after, rfl⟩ := (hsigns rest).mp h
    have hblank : ∀ c ∈ w, isBlank c = true := fun c hc => (accepts_blank c).symm.trans (hw c hc)
    rw [List.dropWhile_append_of_pos hblank]
    exact ⟨after, rfl⟩
  · intro h
    refine ⟨l.takeWhile isBlank, ⟨Nat.zero_le _, ?_⟩, _, List.takeWhile_append_dropWhile, (hsigns _).mpr h⟩
    exact fun c hc => (accepts_blank c).trans (List.mem_takeWhile_imp hc)

theorem accepts_quote (c : Char) :
    (CharTest.set .unicode false (['\'', '"'].map fun d => .code d.toNat)).accepts c = true ↔ c = '\'' ∨ c = '"' := by
  rw [accepts_set_of_caseless rfl]
  simp

theorem accepts_unquotedTest (c : Char) :
    unquotedTest.accepts c = true ↔ c ≠ '\'' ∧ c ≠ '"' ∧ c ≠ '\n' := by
  rw [unquotedTest, accepts_set_of_caseless rfl]
  simp

/-- The text in quotes ends at the first quote of either kind. -/
theorem begins_queryText_iff {q : Char} (hq : q = '\'' ∨ q = '"') {before after : List Char}
    (hbefore : ∀ c ∈ before, c ≠ '\'' ∧ c ≠ '"' ∧ c ≠ '\n') :
    (ofList queryText).Begins (fun _ => True) (before ++ q :: after) ↔
      ['.', '.'] <+: after.dropWhile isBlank := by
  have hrejected : unquotedTest.accepts q = false := by
    rw [← Bool.not_eq_true, accepts_unquotedTest]
    rcases hq with rfl | rfl <;> simp
  have hstop : ∀ d ∈ before, unquotedTest.accepts d = true ∧
      ∀ l, ¬(ofList (quote :: dots)).Begins (fun _ => True) (d :: l) := by
    intro d hd
    obtain ⟨hsingle, hdouble, _⟩ := hbefore d hd
    refine ⟨(accepts_unquotedTest d).mpr (hbefore d hd), fun l h => ?_⟩
    rw [begins_ofList_cons, quote, begins_char_cons, accepts_quote] at h
    exact h.1.elim hsingle hdouble
  rw [← begins_dots_iff, queryText, begins_ofList_cons, begins_run_iff hstop hrejected, begins_ofList_cons,
    quote, begins_char_cons, accepts_quote]
  exact ⟨fun h => h.2.2, fun h => ⟨Nat.zero_le _, hq, h⟩⟩

/-- Dots do not reach over a quote. -/
theorem dots_prefix_append_iff (rest after : List Char) :
    ['.', '.'] <+: (rest ++ '"' :: after).dropWhile isBlank ↔ ['.', '.'] <+: rest.dropWhile isBlank := by
  rw [List.dropWhile_append]
  rcases rest.dropWhile isBlank with _ | ⟨c, _ | ⟨d, l⟩⟩
  · have hblank : isBlank '"' = false := by decide
    simp [hblank]
  · simp
  · simp

/-- A query text in double quotes that is joined to something is taken up unless it holds a single quote that does not
look like the end of such a text itself. -/
theorem begins_queryText_joined_iff {s : List Char} (hdouble : '"' ∉ s) (hline : '\n' ∉ s) (after : List Char) :
    (ofList queryText).Begins (fun _ => True) (s ++ '"' :: ' ' :: '.' :: '.' :: after) ↔
      '\'' ∉ s ∨ joinsAtQuote s = true := by
  have hplain {before : List Char} (hsub : before ⊆ s) (hsingle : '\'' ∉ before) :
      ∀ c ∈ before, c ≠ '\'' ∧ c ≠ '"' ∧ c ≠ '\n' :=
    fun c hc => ⟨ne_of_mem_of_not_mem hc hsingle, ne_of_mem_of_not_mem (hsub hc) hdouble,
      ne_of_mem_of_not_mem (hsub hc) hline⟩
  by_cases hsingle : '\'' ∈ s
  · obtain ⟨before, rest, rfl, hfirst⟩ := List.eq_append_cons_of_mem hsingle
    have hbefore := hplain (List.subset_append_left _ _) hfirst
    have hrest : (before ++ '\'' :: rest).dropWhile (· != '\'') = '\'' :: rest := by
      rw [List.dropWhile_append_of_pos fun c hc => by simpa using (hbefore c hc).1]
      rfl
    rw [List.append_assoc, List.cons_append, begins_queryText_iff (.inl rfl) hbefore, dots_prefix_append_iff,
      joinsAtQuote, hrest, List.isPrefixOf_iff_prefix]
    simp only [hsingle, not_true_eq_false, false_or, List.drop_one, List.tail_cons]
  · rw [begins_queryText_iff (.inr rfl) (hplain (List.Subset.refl s) hsingle)]
    simp only [hsingle, not_false_eq_true, true_or, iff_true]
    exact ⟨after, rfl⟩

theorem begins_opening_cons (hc : isBlank c = false) :
    (ofList (opening ++ es)).Begins P (c :: l) ↔ c = '(' ∧ (ofList (blanks :: quote :: es)).Begins P l := by
  change (ofList (blanks :: literal .unicode '(' :: blanks :: quote :: es)).Begins P (c :: l) ↔ _
  rw [begins_ofList_cons, blanks, begins_run_of_rejected ((accepts_blank c).trans hc), begins_ofList_cons,
    begins_sign_cons (by decide)]

theorem begins_opening_quote {t : List Char} :
    (ofList (opening ++ es)).Begins P ('(' :: '"' :: t) ↔ (ofList es).Begins P t := by
  rw [begins_opening_cons (by decide), and_iff_right rfl, begins_ofList_cons, blanks,
    begins_run_of_rejected ((accepts_blank '"').trans (by decide)), begins_ofList_cons, quote, begins_char_cons,
    and_iff_right ((accepts_quote '"').mpr (.inr rfl))]

theorem begins_await_cons (hc : c ≠ '.') : (ofList [await]).Begins P (c :: l) ↔ P (c :: l) := by
  have hdot : ¬(ofList (letters ['.', 'a', 'w', 'a', 'i', 't'])).Begins P (c :: l) := by
    rw [letters, List.map_cons, begins_ofList_cons, begins_sign_cons (by decide)]
    exact fun h => hc h.1
  change await.Begins P (c :: l) ↔ _
  rw [await, begins_optional, or_iff_right hdot]

theorem accepts_letter (hc : c.isAlpha = true) : wordTest.accepts c = true ∧ isBlank c = false := by
  have htable : ((List.range' 97 26).all fun n => isWord (Char.ofNat n)) = true := rfl
  obtain ⟨hlt, hlow, hhigh⟩ := lowerAscii_of_isAlpha hc
  have hlower : lowerCode c.toNat = lowerAscii c.toNat := if_pos hlt
  constructor
  · have hword := List.all_eq_true.mp htable (lowerAscii c.toNat) (List.mem_range'_1.mpr (by omega))
    simpa [wordTest, CharTest.accepts, SetItem.accepts, CharClass.contains, Folding.lower, hlower] using hword
  · have hcases := lowerAscii_cases c.toNat
    simp only [isBlank, Bool.or_eq_false_iff, Bool.and_eq_false_iff, decide_eq_false_iff_not, beq_eq_false_iff_ne]
    omega

section Call

variable {name t : List Char} {Q : List Char → Prop}

theorem not_begins_driverName (hdot : '.' ∉ name) :
    ¬driverName.Begins Q (['M', 'y', 'S', 'Q', 'L'] ++ '.' :: (name ++ '(' :: t)) := by
  have hcase : List.Forall₂ (fun d c => sameLetter d c = true)
      ['m', 'y', 's', 'q', 'l'] ['M', 'y', 'S', 'Q', 'L'] := by
    repeat constructor
  rw [driverName, begins_letters_append hcase, begins_ofList_cons, begins_sign_cons (by decide), and_iff_right rfl,
    begins_ofList_cons, begins_alternatives (by simp)]
  simp only [List.exists_mem_cons_iff, List.not_mem_nil, false_and, exists_false, or_false, ← begins_ofList_append]
  rintro (h | h)
  · exact not_begins_of_bracket rfl hdot h
  · exact not_begins_of_bracket rfl hdot h

theorem not_begins_exportName : ¬exportName.Begins Q (['M', 'y', 'S', 'Q', 'L'] ++ t) := by
  rw [exportName, List.cons_append, begins_letters_cons, sameLetter_of_ascii (by decide) (by decide)]
  exact fun h => absurd h.1 (by decide)

/-- A name of letters alone is read to its end if what comes next cannot be a letter. -/
theorem begins_libraryName_iff (hne : name ≠ []) (hname : ∀ c ∈ name, c.isAlpha = true)
    (hQ : ∀ c ∈ name, ∀ l, ¬Q (c :: l)) :
    libraryName.Begins Q (['M', 'y', 'S', 'Q', 'L'] ++ '.' :: (name ++ '(' :: t)) ↔ Q ('(' :: t) := by
  have hcase : List.Forall₂ (fun d c => sameLetter d c = true)
      ['M', 'y', 'S', 'Q', 'L'] ['M', 'y', 'S', 'Q', 'L'] := by
    repeat constructor
  have hstop : ∀ c ∈ name, wordTest.accepts c = true ∧ ∀ l, ¬(ofList [await]).Begins Q (c :: l) := by
    intro c hc
    have hdot : c ≠ '.' := fun h => absurd (hname c hc) (by rw [h]; decide)
    refine ⟨(accepts_letter (hname c hc)).1, fun l => ?_⟩
    rw [begins_await_cons hdot]
    exact hQ c hc l
  have hpos : 1 ≤ name.length := List.length_pos_iff.mpr hne
  rw [libraryName, begins_letters_append hcase, begins_ofList_cons, begins_sign_cons (by decide), and_iff_right rfl,
    begins_ofList_cons, begins_run_iff hstop rfl, and_iff_right hpos, begins_await_cons (by decide)]

theorem begins_concatenation_iff (hne : name ≠ []) (hname : ∀ c ∈ name, c.isAlpha = true) :
    concatenation.Begins P (['M', 'y', 'S', 'Q', 'L'] ++ '.' :: (name ++ '(' :: '"' :: t)) ↔
      (ofList queryText).Begins P t := by
  have hdot : '.' ∉ name := fun h => absurd (hname _ h) (by decide)
  have hclosed : ∀ c ∈ name, ∀ l, ¬(ofList (opening ++ queryText)).Begins P (c :: l) := by
    intro c hc l
    rw [begins_opening_cons (accepts_letter (hname c hc)).2]
    rintro ⟨rfl, _⟩
    exact absurd (hname _ hc) (by decide)
  rw [concatenation, begins_ofList_cons, begins_alternatives (by simp)]
  simp only [List.exists_mem_cons_iff, List.not_mem_nil, false_and, exists_false, or_false]
  rw [or_iff_right (not_begins_driverName hdot), or_iff_right not_begins_exportName,
    begins_libraryName_iff hne hname hclosed, begins_opening_quote]

end Call

/-- An ASCII character that no name begins with. -/
def isAside (c : Char) : Bool :=
  c.toNat < 128 && lowerAscii c.toNat != 'm'.toNat && lowerAscii c.toNat != 'e'.toNat

/-- All names begin with one of two letters and go on behind a dot. -/
theorem stem_of_mem_names : ∀ e ∈ [driverName, exportName, libraryName], ∃ d w es,
    e = ofList (letters (d :: w) ++ literal .unicode '.' :: es) ∧ (d :: w).all Char.isAlpha = true ∧
      (lowerAscii d.toNat = 'm'.toNat ∨ lowerAscii d.toNat = 'e'.toNat) := by
  simp only [List.forall_mem_cons, List.not_mem_nil, false_implies, implies_true, and_true]
  exact ⟨⟨_, _, _, rfl, rfl, .inl rfl⟩, ⟨_, _, _, rfl, rfl, .inr rfl⟩, ⟨_, _, _, rfl, rfl, .inl rfl⟩⟩

theorem begins_name_of_begins_concatenation (h : concatenation.Begins P l) :
    ∃ e ∈ [driverName, exportName, libraryName], ∃ Q, e.Begins Q l := by
  rw [concatenation, begins_ofList_cons, begins_alternatives (by simp)] at h
  obtain ⟨e, he, h⟩ := h
  exact ⟨e, he, _, h⟩

theorem not_begins_concatenation_cons (hc : isAside c = true) : ¬concatenation.Begins P (c :: l) := by
  intro h
  obtain ⟨e, he, Q, h⟩ := begins_name_of_begins_concatenation h
  obtain ⟨d, w, es, rfl, hw, hd⟩ := stem_of_mem_names e he
  rw [List.all_cons, Bool.and_eq_true] at hw
  simp only [isAside, Bool.and_eq_true, decide_eq_true_eq, bne_iff_ne] at hc
  obtain ⟨⟨hlt, hm⟩, he⟩ := hc
  rw [begins_letters_cons, sameLetter_of_ascii (lowerAscii_of_isAlpha hw.1).1 hlt] at h
  omega

theorem not_begins_concatenation_bracket (hm : '.' ∉ m) : ¬concatenation.Begins P (m ++ '(' :: l) := by
  intro h
  obtain ⟨e, he, Q, h⟩ := begins_name_of_begins_concatenation h
  obtain ⟨d, w, es, rfl, hw, _⟩ := stem_of_mem_names e he
  exact not_begins_of_bracket hw hm h

theorem nil_not_mem_concatenation : [] ∉ concatenation.language := by
  intro h
  exact not_begins_concatenation_cons (P := fun _ => True) (c := '.') (l := []) rfl
    ⟨[], h, _, rfl, trivial⟩

theorem occurs_concatenation_cons (hc : isAside c = true) :
    concatenation.Occurs (c :: l) ↔ concatenation.Occurs l := by
  rw [occurs_cons, or_iff_right (not_begins_concatenation_cons hc)]

theorem occurs_concatenation_bracket (hm : '.' ∉ m) :
    concatenation.Occurs (m ++ '(' :: l) ↔ concatenation.Occurs l := by
  induction m with
  | nil =>
    have hnone : ¬concatenation.Begins (fun _ => True) ('(' :: l) := not_begins_concatenation_bracket hm
    rw [List.nil_append, occurs_cons, or_iff_right hnone]
  | cons c m ih =>
    have hnone : ¬concatenation.Begins (fun _ => True) (c :: (m ++ '(' :: l)) := not_begins_concatenation_bracket hm
    rw [List.cons_append, occurs_cons, or_iff_right hnone, ih fun h => hm (List.mem_cons_of_mem c h)]

/-- Such a call is found by its text, or by what stands in its text and behind it. -/
theorem occurs_queryCall_iff {name text : List Char} (hne : name ≠ []) (hname : ∀ c ∈ name, c.isAlpha = true)
    (hdouble : '"' ∉ text) (hline : '\n' ∉ text) (after : List Char) :
    concatenation.Occurs (queryCall name text ++ after) ↔
      '\'' ∉ text ∨ joinsAtQuote text = true ∨
        concatenation.Occurs (text ++ '"' :: ' ' :: '.' :: '.' :: ' ' :: after) := by
  have hdot : '.' ∉ name := fun h => absurd (hname _ h) (by decide)
  have htext : queryCall name text ++ after = ['M', 'y', 'S', 'Q', 'L'] ++ '.' ::
      (name ++ '(' :: '"' :: (text ++ '"' :: ' ' :: '.' :: '.' :: ' ' :: after)) := by
    simp [queryCall]
  rw [← or_assoc, ← begins_queryText_joined_iff hdouble hline (' ' :: after), ← begins_concatenation_iff hne hname,
    htext]
  simp only [List.cons_append, List.nil_append]
  rw [occurs_cons]
  refine or_congr_right ?_
  -- Behind the first letter of the call, no name begins before the text.
  rw [occurs_concatenation_cons rfl, occurs_concatenation_cons rfl, occurs_concatenation_cons rfl,
    occurs_concatenation_cons rfl, occurs_concatenation_cons rfl, occurs_concatenation_bracket hdot,
    occurs_concatenation_cons rfl]

/-- Nothing stands where no name can begin. -/
theorem not_occurs_concatenation (hl : l.all isAside = true) : ¬concatenation.Occurs l := by
  induction l with
  | nil =>
    rintro ⟨_, hsuffix, hbegins⟩
    obtain ⟨w, hw, hpre⟩ := begins_true_iff.mp hbegins
    rw [List.suffix_nil.mp hsuffix, List.prefix_nil] at hpre
    exact nil_not_mem_concatenation (hpre ▸ hw)
  | cons c l ih =>
    rw [List.all_cons, Bool.and_eq_true] at hl
    rw [occurs_concatenation_cons hl.1]
    exact ih hl.2

end Expr

theorem compile_of_mem_databaseAccess :
    ∀ o ∈ Pack.databaseAccess.outlines,
      (compile (String.ofList o.source) o.modes).toOption = some ⟨.concatenation, 0⟩ := by
  simp only [Pack.outlines, Pack.databaseAccess, Draft.outline, Pack.draft, List.map_cons, List.map_nil,
    List.forall_mem_singleton, compile, String.toList_append, String.toList_ofList]
  -- The kernel reads a source that is a list of characters much faster than a literal.
  repeat rw [String.toList_ofList]
  decide +kernel

end Pattern

namespace Pack

theorem outlines_databaseAccess :
    (builtin.flatMap outlines).filter (·.category = "databaseAccess") = databaseAccess.outlines := rfl

theorem titles_databaseAccess : databaseAccess.outlines.map (·.title) = ["SQL query built by concatenation"] := rfl

end Pack

namespace Catalog

open Pattern Expr

/-- The one rule of a catalog on queries. -/
structure Queries (c : Catalog) (rule : Rule) : Prop where
  title : rule.title = "SQL query built by concatenation"
  mem_iff : ∀ other, ("databaseAccess", other) ∈ c.entries ↔ other = rule
  program : rule.detector.pattern.program = ⟨concatenation, 0⟩

theorem exists_queries : ∃ c rule, builtin none = .ok c ∧ c.Queries rule := by
  have hone : Pack.databaseAccess.outlines.map (·.category) = ["databaseAccess"] := rfl
  obtain ⟨c, rule, hbuilt, hmem, hof, hprogram, _⟩ :=
    exists_builtin_rule Pack.outlines_databaseAccess hone compile_of_mem_databaseAccess
  refine ⟨c, rule, hbuilt, ?title, ?mem_iff, hprogram⟩
  case title =>
    have htitles := Pack.titles_databaseAccess
    rw [hof] at htitles
    exact List.singleton_inj.mp htitles
  case mem_iff =>
    intro other
    have hother := hmem ("databaseAccess", other)
    simpa [Outline.ofEntry] using hother

theorem Queries.spans_ne_nil_iff {c : Catalog} {rule : Rule} (h : c.Queries rule) (text : List Char) :
    rule.spans text.toArray ≠ [] ↔ concatenation.Occurs text := by
  rw [Rule.spans, h.program, Program.spans_ne_nil_iff (by decide) nil_not_mem_concatenation]

theorem Queries.entry_iff {c : Catalog} {rule : Rule} (h : c.Queries rule) (other : Rule) :
    ("databaseAccess", other) ∈ c.entries ∧ other.title = "SQL query built by concatenation" ↔ other = rule := by
  rw [h.mem_iff]
  constructor
  · exact fun hother => hother.1
  · rintro rfl
    exact ⟨rfl, h.title⟩

/-- A joined query text in double quotes is found, whatever stands around the call, exactly if it holds no single quote,
or would end at its first single quote, or holds, with the quote and the two dots behind it, another joined query. -/
theorem builtin_detects_concatenation_iff {name text : List Char} (hne : name ≠ [])
    (hname : ∀ c ∈ name, c.isAlpha = true) (hdouble : '"' ∉ text) (hline : '\n' ∉ text) :
    ∃ c rule, builtin none = .ok c ∧
      (∀ other, ("databaseAccess", other) ∈ c.entries ∧ other.title = "SQL query built by concatenation" ↔
        other = rule) ∧
      ((∀ before after, rule.spans (before ++ queryCall name text ++ after).toArray ≠ []) ↔
        '\'' ∉ text ∨ joinsAtQuote text = true ∨ rule.spans (text ++ ['"', ' ', '.', '.', ' ']).toArray ≠ []) := by
  obtain ⟨c, rule, hbuilt, hqueries⟩ := exists_queries
  refine ⟨c, rule, hbuilt, hqueries.entry_iff, ?_⟩
  simp only [hqueries.spans_ne_nil_iff, ← occurs_queryCall_iff hne hname hdouble hline []]
  constructor
  · exact fun h => h [] []
  · intro h before after
    rw [List.append_nil] at h
    exact h.append before after

/-- A text that goes on behind a single quote and two dots. -/
theorem builtin_detects_concatenation_iff_of_early_end :
    (∀ c ∈ ['q', 'u', 'e', 'r', 'y'], c.isAlpha = true) ∧ '\'' ∈ ['n', ' ', '=', ' ', '\'', ' ', '.', '.', 'n'] ∧
    ∃ c rule, builtin none = .ok c ∧ ("databaseAccess", rule) ∈ c.entries ∧
      ∀ before after, rule.spans (before ++ queryCall ['q', 'u', 'e', 'r', 'y']
        ['n', ' ', '=', ' ', '\'', ' ', '.', '.', 'n'] ++ after).toArray ≠ [] := by
  have hne : ['q', 'u', 'e', 'r', 'y'] ≠ [] := by simp
  have hname : ∀ c ∈ ['q', 'u', 'e', 'r', 'y'], c.isAlpha = true := by simp
  have hdouble : '"' ∉ ['n', ' ', '=', ' ', '\'', ' ', '.', '.', 'n'] := by decide
  obtain ⟨c, rule, hbuilt, hrule, hiff⟩ := builtin_detects_concatenation_iff hne hname hdouble (by decide)
  refine ⟨hname, by decide, c, rule, hbuilt, ((hrule rule).mpr rfl).1, ?_⟩
  exact hiff.mpr (.inr (.inl (by decide)))

/-- A query text that passes a value in single quotes. -/
def quotedValue : List Char := ['C', 'A', 'L', 'L', ' ', 'r', 'u', 'n', '(', '\'']

/-- The rule does not find a call with such a text. -/
theorem builtin_misses_quoted_value :
    ∃ c rule, builtin none = .ok c ∧
      (∀ other, ("databaseAccess", other) ∈ c.entries ∧ other.title = "SQL query built by concatenation" ↔
        other = rule) ∧
      '"' ∉ quotedValue ∧ '\\' ∉ quotedValue ∧ '\n' ∉ quotedValue ∧
      rule.spans (queryCall ['q', 'u', 'e', 'r', 'y'] quotedValue ++
        ['i', 'd', ' ', '.', '.', ' ', '"', '\'', ')', '"', ')']).toArray = [] := by
  obtain ⟨c, rule, hbuilt, hqueries⟩ := exists_queries
  have hdouble : '"' ∉ quotedValue := by decide
  have hline : '\n' ∉ quotedValue := by decide
  refine ⟨c, rule, hbuilt, hqueries.entry_iff, hdouble, by decide, hline, ?_⟩
  by_contra hfound
  rw [← ne_eq, hqueries.spans_ne_nil_iff, occurs_queryCall_iff (by simp) (by simp) hdouble hline] at hfound
  rcases hfound with hsingle | hjoins | hinside
  · exact hsingle (by decide)
  · exact absurd hjoins (by decide)
  · exact not_occurs_concatenation rfl hinside

end Catalog

end ScriptAudit
