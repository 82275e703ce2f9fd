import ScriptAudit.Proofs.Languages

namespace ScriptAudit.Pattern

/-- No word of a language is the beginning of another. -/
def IsCode (l : Language Char) : Prop := ∀ u ∈ l, ∀ v ∈ l, u <+: v → u = v

/-- The test for white space where letter case counts. -/
def CharTest.blank : CharTest := .set .exact false [.cls .blank false false]

theorem accepts_exact_blank (c : Char) : CharTest.blank.accepts c = Text.isBlank c := by
  simp [CharTest.blank, CharTest.accepts, SetItem.accepts, CharClass.contains, Folding.lower]

theorem mem_blank_stretches_iff {least : Nat} {w : List Char} :
    w ∈ CharTest.blank.stretches least ↔ least ≤ w.length ∧ ∀ c ∈ w, Text.isBlank c = true := by
  simp only [← accepts_exact_blank]
  rfl

theorem not_mem_of_blanks {gap : List Char} (hgap : ∀ d ∈ gap, Text.isBlank d = true) {c : Char}
    (hc : Text.isBlank c = false) : c ∉ gap := by
  intro hmem
  simp [hgap c hmem] at hc

theorem mem_singleton_mul_iff {l : Language Char} {u w : List Char} :
    w ∈ ({u} : Language Char) * l ↔ ∃ v ∈ l, w = u ++ v := by
  rw [Language.mem_mul]
  constructor
  · rintro ⟨_, rfl, v, hv, rfl⟩
    exact ⟨v, hv, rfl⟩
  · rintro ⟨v, hv, rfl⟩
    exact ⟨u, rfl, v, hv, rfl⟩

namespace IsCode

variable {l m : Language Char} {u v w : List Char}

theorem eq_of_prefixes (h : IsCode l) (hu : u ∈ l) (hv : v ∈ l) (huw : u <+: w) (hvw : v <+: w) : u = v := by
  rcases List.prefix_or_prefix_of_prefix huw hvw with hpre | hpre
  · exact h u hu v hv hpre
  · exact (h v hv u hu hpre).symm

theorem singleton (w : List Char) : IsCode {w} := by
  intro u hu v hv _
  exact Eq.trans hu (Eq.symm hv)

theorem mul (hl : IsCode l) (hm : IsCode m) : IsCode (l * m) := by
  intro u hu v hv hpre
  obtain ⟨a, ha, b, hb, rfl⟩ := Language.mem_mul.mp hu
  obtain ⟨c, hc, d, hd, rfl⟩ := Language.mem_mul.mp hv
  obtain rfl : a = c := hl.eq_of_prefixes ha hc ((List.prefix_append a b).trans hpre) (List.prefix_append c d)
  rw [hm b hb d hd ((List.prefix_append_right_inj a).mp hpre)]

/-- Two languages make up a code if at some place their words always differ. -/
theorem add (hl : IsCode l) (hm : IsCode m) {i : Nat} (hdiffer : ∀ u ∈ l, ∀ v ∈ m, ∃ a b, u[i]? = some a ∧
    v[i]? = some b ∧ a ≠ b) : IsCode (l + m) := by
  have hapart : ∀ u ∈ l, ∀ v ∈ m, ¬u <+: v ∧ ¬v <+: u := by
    intro u hu v hv
    obtain ⟨a, b, ha, hb, hne⟩ := hdiffer u hu v hv
    have hsame {x y : List Char} {c d : Char} (hpre : x <+: y) (hx : x[i]? = some c) (hy : y[i]? = some d) :
        c = d := by
      obtain ⟨rest, rfl⟩ := hpre
      obtain ⟨hlt, _⟩ := List.getElem?_eq_some_iff.mp hx
      rw [List.getElem?_append_left hlt, hx] at hy
      exact Option.some.inj hy
    exact ⟨fun hpre => hne (hsame hpre ha hb), fun hpre => hne (hsame hpre hb ha).symm⟩
  intro u hu v hv hpre
  rcases hu with hu | hu <;> rcases hv with hv | hv
  · exact hl u hu v hv hpre
  · exact absurd hpre (hapart u hu v hv).1
  · exact absurd hpre (hapart v hv u hu).2
  · exact hm u hu v hv hpre

/-- A stretch of characters is told from what follows if that begins with a character of another kind. -/
theorem stretches_mul (hm : IsCode m) {test : CharTest}
    (hstop : ∀ w ∈ m, ∃ c rest, w = c :: rest ∧ test.accepts c = false) (least : Nat) :
    IsCode (test.stretches least * m) := by
  have hstretch (after : List Char) {g b : List Char} (hg : g ∈ test.stretches least) (hb : b ∈ m) :
      (g ++ b ++ after).takeWhile test.accepts = g := by
    obtain ⟨c, rest, rfl, hc⟩ := hstop b hb
    rw [List.append_assoc, List.takeWhile_append_of_pos hg.2, List.cons_append,
      List.takeWhile_cons_of_neg (by simp [hc]), List.append_nil]
  intro u hu v hv hpre
  obtain ⟨g, hg, b, hb, rfl⟩ := Language.mem_mul.mp hu
  obtain ⟨h, hh, d, hd, rfl⟩ := Language.mem_mul.mp hv
  obtain ⟨after, hafter⟩ := hpre
  have hsame : g = h := by
    have hleft := hstretch after hg hb
    have hright := hstretch [] hh hd
    rw [List.append_nil, ← hafter, hleft] at hright
    exact hright
  subst hsame
  rw [List.append_assoc, List.append_cancel_left_eq] at hafter
  rw [hm b hb d hd ⟨after, hafter⟩]

end IsCode

/-- A code whose words begin with a character that is nowhere else in them. -/
structure Marked (l : Language Char) (mark : Char) : Prop where
  code : IsCode l
  mark : ∀ w ∈ l, ∃ rest, w = mark :: rest ∧ mark ∉ rest

namespace Marked

variable {l : Language Char} {mark : Char} {text : List Char}

theorem nil_not_mem (h : Marked l mark) : [] ∉ l := by
  intro hnil
  obtain ⟨rest, heq, _⟩ := h.mark [] hnil
  exact absurd heq (by simp)

/-- No word begins inside another one. -/
theorem apart (h : Marked l mark) {u v : List Char} (hu : u ∈ l) (hv : v ∈ l) {i j : Nat} (hui : u <+: text.drop i)
    (hvj : v <+: text.drop j) (hij : i < j) : i + u.length ≤ j := by
  obtain ⟨urest, rfl, habsent⟩ := h.mark u hu
  obtain ⟨vrest, rfl, _⟩ := h.mark v hv
  obtain ⟨_, hrest⟩ := cons_prefix_drop_iff.mp hui
  obtain ⟨hmark, _⟩ := cons_prefix_drop_iff.mp hvj
  by_contra hlt
  rw [List.length_cons] at hlt
  have hinside : j - (i + 1) < urest.length := by omega
  have hget := List.prefix_iff_getElem?.mp hrest (j - (i + 1)) hinside
  rw [List.getElem?_drop, Nat.add_sub_cancel' hij, hmark, Option.some.injEq] at hget
  exact habsent (hget ▸ List.getElem_mem hinside)

end Marked

theorem prefix_drop_iff_extract {w text : List Char} {i : Nat} :
    w <+: text.drop i ↔ text.extract i (i + w.length) = w := by
  rw [List.extract_eq_take_drop, Nat.add_sub_cancel_left, List.prefix_iff_eq_take, eq_comm]

theorem exists_prefix_drop_iff {l : Language Char} (hne : [] ∉ l) {text : List Char} {start stop : Nat} :
    (∃ w ∈ l, w <+: text.drop start ∧ stop = start + w.length) ↔ stop ≤ text.length ∧ text.extract start stop ∈ l := by
  constructor
  · rintro ⟨w, hw, hpre, rfl⟩
    have hle := hpre.length_le
    have hpos : 0 < w.length := List.length_pos_iff.mpr fun h => hne (h ▸ hw)
    rw [List.length_drop] at hle
    rw [prefix_drop_iff_extract.mp hpre]
    exact ⟨by omega, hw⟩
  · rintro ⟨hstop, hw⟩
    rw [List.extract_eq_take_drop] at hw
    have hlt : start < stop := by
      by_contra hge
      rw [Nat.sub_eq_zero_of_le (Nat.not_lt.mp hge), List.take_zero] at hw
      exact hne hw
    refine ⟨_, hw, List.take_prefix _ _, ?_⟩
    rw [List.length_take, List.length_drop]
    omega

/-- A program that takes up the words of a marked code, where a condition holds of their place, finds all of these. -/
theorem Marked.mem_spans_iff {l : Language Char} {mark : Char} (h : Marked l mark) {p : Program} {text : List Char}
    {Holds : Nat → Nat → Prop}
    (hend : ∀ pos stop, p.endAt? text.toArray pos = some stop ↔
      (∃ w ∈ l, w <+: text.drop pos ∧ stop = pos + w.length) ∧ Holds pos stop) {span : Span} :
    span ∈ p.spans text.toArray ↔
      (span.stop ≤ text.length ∧ text.extract span.start span.stop ∈ l) ∧ Holds span.start span.stop := by
  rw [Program.mem_spans_iff_of_apart, hend, exists_prefix_drop_iff h.nil_not_mem]
  · intro pos stop hfound
    obtain ⟨⟨w, hw, hpre, hstop⟩, _⟩ := (hend pos stop).mp hfound
    have hle := hpre.length_le
    have hpos : 0 < w.length := List.length_pos_iff.mpr fun hnil => h.nil_not_mem (hnil ▸ hw)
    rw [List.length_drop] at hle
    rw [List.size_toArray]
    omega
  · intro i stop j stop' hi hj hlt
    obtain ⟨⟨u, hu, hui, rfl⟩, _⟩ := (hend i stop).mp hi
    obtain ⟨⟨v, hv, hvj, _⟩, _⟩ := (hend j stop').mp hj
    exact h.apart hu hv hui hvj hlt

namespace Expr

variable {text : List Char} {e : Expr} {es ds : List Expr} {s r : State} {k : Continuation}

theorem language_ofList_cons : (ofList (e :: es)).language = e.language * (ofList es).language := by
  cases es with
  | nil => exact (mul_one e.language).symm
  | cons d es => rfl

theorem language_ofList_append :
    (ofList (es ++ ds)).language = (ofList es).language * (ofList ds).language := by
  induction es with
  | nil => exact (one_mul _).symm
  | cons e es ih => rw [List.cons_append, language_ofList_cons, language_ofList_cons, ih, mul_assoc]

theorem language_letters (w : List Char) : (ofList (w.map (literal .exact))).language = {w} := by
  induction w with
  | nil => rfl
  | cons c w ih =>
    rw [List.map_cons, language_ofList_cons, ih]
    ext u
    rw [Language.mem_mul]
    constructor
    · rintro ⟨_, ⟨d, rfl, haccepts⟩, _, rfl, rfl⟩
      rw [(accepts_code_exact d c).mp haccepts]
      rfl
    · rintro rfl
      exact ⟨[c], ⟨c, rfl, (accepts_code_exact c c).mpr rfl⟩, w, rfl, rfl⟩

theorem matching?_ofList_append (text : Subject) (s : State) (k : Continuation) (es ds : List Expr) :
    (ofList (es ++ ds)).matching? text s k = (ofList es).matching? text s fun t => (ofList ds).matching? text t k := by
  induction es generalizing s with
  | nil => rfl
  | cons e es ih =>
    rw [List.cons_append, matching?_ofList_cons, matching?_ofList_cons]
    simp only [ih]

/-- Where no word is the beginning of another, there is one way to match at most. -/
theorem matching?_eq_some_iff (he : e.isRegular = true) (hcode : IsCode e.language) :
    e.matching? text.toArray s k = some r ↔
      ∃ w ∈ e.language, w <+: text.drop s.pos ∧ k (s.advance w.length) = some r := by
  constructor
  · exact matching?_sound he
  · rintro ⟨w, hw, hpre, hk⟩
    obtain ⟨r', hr'⟩ := Option.isSome_iff_exists.mp (matching?_complete he hw hpre (k := k) (by rw [hk]; rfl))
    obtain ⟨v, hv, hvpre, hkv⟩ := matching?_sound he hr'
    obtain rfl : v = w := hcode.eq_of_prefixes hv hw hvpre hpre
    rw [hr', ← hkv, hk]

theorem isSome_matching?_iff (he : e.isRegular = true) :
    (e.matching? text.toArray s some).isSome = true ↔ ∃ w ∈ e.language, w <+: text.drop s.pos := by
  constructor
  · intro h
    obtain ⟨r, hr⟩ := Option.isSome_iff_exists.mp h
    obtain ⟨w, hw, hpre, _⟩ := matching?_sound he hr
    exact ⟨w, hw, hpre⟩
  · rintro ⟨w, hw, hpre⟩
    exact matching?_complete he hw hpre rfl

/-- What must not follow is a word of the expression. -/
theorem matching?_notAhead_iff (he : e.isRegular = true) :
    (look none false e).matching? text.toArray s k = some r ↔
      (¬∃ w ∈ e.language, w <+: text.drop s.pos) ∧ k s = some r := by
  rw [← isSome_matching?_iff (s := s) he]
  simp [matching?]

end Expr

end ScriptAudit.Pattern
