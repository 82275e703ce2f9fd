import Mathlib.Computability.Language
import ScriptAudit.Proofs.Alternations

namespace ScriptAudit.Pattern

/-- The stretches of characters that pass a test, of a least length. -/
def CharTest.stretches (test : CharTest) (least : Nat) : Language Char :=
  {w | least ≤ w.length ∧ ∀ c ∈ w, test.accepts c = true}

namespace Expr

/-- Expressions that take up words, whatever stands around these. -/
def isRegular : Expr → Bool
  | .empty | .char _ | .run .greedy _ none _ => true
  | .seq first second | .either first second => first.isRegular && second.isRegular
  | .repeated .greedy 0 (some 1) body => body.isRegular
  | _ => false

/-- The words that a regular expression takes up. -/
def language : Expr → Language Char
  | .empty => 1
  | .char test => {w | ∃ c, w = [c] ∧ test.accepts c = true}
  | .seq first second => first.language * second.language
  | .either first second => first.language + second.language
  | .run .greedy least none test => test.stretches least
  | .repeated .greedy 0 (some 1) body => body.language + 1
  | _ => 0

theorem isRegular_run {greed : Greed} {least : Nat} {most : Option Nat} {test : CharTest}
    (h : (run greed least most test).isRegular = true) : greed = .greedy ∧ most = none := by
  cases greed <;> cases most <;> simp [isRegular] at h ⊢

theorem isRegular_repeated {greed : Greed} {least : Nat} {most : Option Nat} {body : Expr}
    (h : (repeated greed least most body).isRegular = true) :
    greed = .greedy ∧ least = 0 ∧ most = some 1 ∧ body.isRegular = true := by
  unfold isRegular at h
  split at h
  all_goals simp_all

theorem matching?_optional (text : Subject) (body : Expr) (s : State) (k : Continuation) :
    (repeated .greedy 0 (some 1) body).matching? text s k = (either body empty).matching? text s k := by
  have hextra : extraRounds 0 (some 1) (text.size - s.pos) = 1 := by
    simp only [extraRounds]
    omega
  have hrounds : (repeated .greedy 0 (some 1) body).matching? text s k =
      moreRounds (fun s k => body.matching? text s k) (extraRounds 0 (some 1) (text.size - s.pos)) none s k := by
    rw [matching?]
    rfl
  rw [hrounds, hextra, moreRounds, if_neg (by simp), matching?]
  rfl

end Expr

theorem drop_eq_cons_of_getElem? {text : List Char} {pos : Nat} {c : Char} (h : text[pos]? = some c) :
    text.drop pos = c :: text.drop (pos + 1) := by
  obtain ⟨hlt, rfl⟩ := List.getElem?_eq_some_iff.mp h
  exact List.drop_eq_getElem_cons hlt

theorem append_prefix_drop_iff {u v text : List Char} {pos : Nat} :
    u ++ v <+: text.drop pos ↔ u <+: text.drop pos ∧ v <+: text.drop (pos + u.length) := by
  induction u generalizing pos with
  | nil => simp
  | cons c u ih =>
    rw [List.cons_append, cons_prefix_drop_iff, cons_prefix_drop_iff, ih, and_assoc, List.length_cons, Nat.add_assoc,
      Nat.add_comm 1]

theorem le_runLength (text : Subject) (test : CharTest) (pos count limit : Nat) :
    count ≤ runLength text test pos count limit := by
  induction limit generalizing pos count with
  | zero => exact le_refl _
  | succ limit ih =>
    rw [runLength]
    split
    next =>
      split
      · exact (Nat.le_succ count).trans (ih (pos + 1) (count + 1))
      · exact le_refl _
    next => exact le_refl _

/-- The count of characters that pass covers every stretch of them that begins at the place. -/
theorem add_length_le_runLength {text : List Char} {test : CharTest} {limit pos : Nat} (count : Nat) {w : List Char}
    (hw : w <+: text.drop pos) (hlimit : w.length ≤ limit) (haccepts : ∀ c ∈ w, test.accepts c = true) :
    count + w.length ≤ runLength text.toArray test pos count limit := by
  induction w generalizing limit pos count with
  | nil => exact le_runLength _ _ _ _ _
  | cons c w ih =>
    obtain ⟨hc, hw⟩ := cons_prefix_drop_iff.mp hw
    rw [List.forall_mem_cons] at haccepts
    cases limit with
    | zero => simp at hlimit
    | succ limit =>
      have hrest := ih (count + 1) hw (by simpa using hlimit) haccepts.2
      rw [runLength, List.getElem?_toArray, hc]
      simp only [haccepts.1, if_true, List.length_cons]
      omega

theorem runLength_any (text : List Char) (pos : Nat) :
    runLength text.toArray (.any true) pos 0 (text.length - pos) = text.length - pos := by
  rcases Nat.lt_or_ge text.length pos with hpast | hwithin
  · rw [Nat.sub_eq_zero_of_le hpast.le, runLength]
  · have hle := (runLength_bounds text.toArray (.any true) (text.length - pos) pos 0 hwithin).2
    have hge : 0 + (text.drop pos).length ≤ runLength text.toArray (.any true) pos 0 (text.length - pos) :=
      add_length_le_runLength 0 (List.prefix_refl _) (Nat.le_of_eq List.length_drop) fun _ _ => rfl
    rw [List.length_drop] at hge
    simp only [List.size_toArray] at hle
    omega

/-- All the characters that are counted pass. -/
theorem accepts_of_le_runLength {text : List Char} {test : CharTest} {limit pos count n : Nat}
    (h : count + n ≤ runLength text.toArray test pos count limit) :
    n ≤ (text.drop pos).length ∧ ∀ c ∈ (text.drop pos).take n, test.accepts c = true := by
  induction n generalizing limit pos count with
  | zero => simp
  | succ n ih =>
    cases limit with
    | zero =>
      rw [runLength] at h
      omega
    | succ limit =>
      rw [runLength, List.getElem?_toArray] at h
      split at h
      next c hc =>
        split at h
        next haccepts =>
          rw [Nat.add_comm n 1, ← Nat.add_assoc] at h
          obtain ⟨hlength, hall⟩ := ih h
          rw [drop_eq_cons_of_getElem? hc]
          exact ⟨by simpa using hlength, by simpa [haccepts] using hall⟩
        next => omega
      next => omega

theorem descend_isSome {attempt : Nat → Option State} {base extra n : Nat} (hlow : base ≤ n) (hhigh : n ≤ base + extra)
    (h : (attempt n).isSome) : (descend attempt base extra).isSome := by
  induction extra with
  | zero =>
    obtain rfl : n = base := by omega
    exact h
  | succ extra ih =>
    rw [descend]
    cases htop : attempt (base + (extra + 1)) with
    | some t => rfl
    | none =>
      have hne : n ≠ base + (extra + 1) := by
        rintro rfl
        simp [htop] at h
      exact ih (by omega)

namespace Expr

variable {text : List Char} {e : Expr}

/-- A regular expression takes up one of its words. -/
theorem matching?_sound (he : e.isRegular = true) {s r : State} {k : Continuation}
    (h : e.matching? text.toArray s k = some r) :
    ∃ w ∈ e.language, w <+: text.drop s.pos ∧ k (s.advance w.length) = some r := by
  induction e generalizing s r k with
  | empty => exact ⟨[], rfl, List.nil_prefix, h⟩
  | char test =>
    rw [matching?, List.getElem?_toArray] at h
    split at h
    next c hc =>
      split at h
      next haccepts =>
        refine ⟨[c], ⟨c, rfl, haccepts⟩, ?_, h⟩
        exact cons_prefix_drop_iff.mpr ⟨hc, List.nil_prefix⟩
      next => simp at h
    next => simp at h
  | seq first second ih₁ ih₂ =>
    obtain ⟨hfirst, hsecond⟩ := (Bool.and_eq_true _ _).mp he
    obtain ⟨u, hu, hupre, h⟩ := ih₁ hfirst h
    obtain ⟨v, hv, hvpre, h⟩ := ih₂ hsecond h
    refine ⟨u ++ v, Language.append_mem_mul hu hv, ?_, ?_⟩
    · exact append_prefix_drop_iff.mpr ⟨hupre, hvpre⟩
    · simpa [State.advance, Nat.add_assoc] using h
  | either first second ih₁ ih₂ =>
    obtain ⟨hfirst, hsecond⟩ := (Bool.and_eq_true _ _).mp he
    rw [matching?] at h
    split at h
    next t ht =>
      obtain ⟨w, hw, hrest⟩ := ih₁ hfirst (ht.trans h)
      exact ⟨w, .inl hw, hrest⟩
    next =>
      obtain ⟨w, hw, hrest⟩ := ih₂ hsecond h
      exact ⟨w, .inr hw, hrest⟩
  | run greed least most test =>
    obtain ⟨rfl, rfl⟩ := isRegular_run he
    unfold matching? at h
    extract_lets room count at h
    split at h
    next => simp at h
    next hleast =>
      obtain ⟨n, hlow, hhigh, hk⟩ := descend_some _ _ _ _ h
      have hcount : 0 + n ≤ count := by omega
      obtain ⟨hlength, haccepts⟩ := accepts_of_le_runLength hcount
      have htake : ((text.drop s.pos).take n).length = n := List.length_take_of_le hlength
      refine ⟨(text.drop s.pos).take n, ⟨?_, haccepts⟩, List.take_prefix _ _, ?_⟩
      · rw [htake]
        exact hlow
      · rw [htake]
        exact hk
  | repeated greed least most body ih =>
    obtain ⟨rfl, rfl, rfl, hbody⟩ := isRegular_repeated he
    rw [matching?_optional, matching?] at h
    split at h
    next t ht =>
      obtain ⟨w, hw, hrest⟩ := ih hbody (ht.trans h)
      exact ⟨w, .inl hw, hrest⟩
    next => exact ⟨[], .inr rfl, List.nil_prefix, h⟩
  | _ => simp [isRegular] at he

/-- Where a word of a regular expression stands and the rest succeeds, the expression matches. -/
theorem matching?_complete {w : List Char} (he : e.isRegular = true) (hw : w ∈ e.language) {s : State}
    {k : Continuation} (hpre : w <+: text.drop s.pos) (hk : (k (s.advance w.length)).isSome) :
    (e.matching? text.toArray s k).isSome := by
  induction e generalizing w s k with
  | empty =>
    cases hw
    exact hk
  | char test =>
    obtain ⟨c, rfl, haccepts⟩ := hw
    obtain ⟨hc, _⟩ := cons_prefix_drop_iff.mp hpre
    rw [matching?, List.getElem?_toArray, hc]
    simpa only [haccepts, if_true, List.length_singleton] using hk
  | seq first second ih₁ ih₂ =>
    obtain ⟨hfirst, hsecond⟩ := (Bool.and_eq_true _ _).mp he
    obtain ⟨u, hu, v, hv, rfl⟩ := Language.mem_mul.mp hw
    obtain ⟨hupre, hvpre⟩ := append_prefix_drop_iff.mp hpre
    refine ih₁ hfirst hu hupre (ih₂ hsecond hv hvpre ?_)
    simpa [State.advance, Nat.add_assoc] using hk
  | either first second ih₁ ih₂ =>
    obtain ⟨hfirst, hsecond⟩ := (Bool.and_eq_true _ _).mp he
    rw [matching?]
    cases htaken : first.matching? text.toArray s k with
    | some t => rfl
    | none =>
      rcases hw with hw | hw
      · have hsome := ih₁ hfirst hw hpre hk
        simp [htaken] at hsome
      · exact ih₂ hsecond hw hpre hk
  | run greed least most test =>
    obtain ⟨rfl, rfl⟩ := isRegular_run he
    obtain ⟨hleast, haccepts⟩ := hw
    unfold matching?
    extract_lets room count
    have hroom : w.length ≤ room := by
      have hle := hpre.length_le
      rwa [List.length_drop] at hle
    have hcount : 0 + w.length ≤ count := add_length_le_runLength 0 hpre hroom haccepts
    rw [if_neg (by omega)]
    exact descend_isSome hleast (by omega) hk
  | repeated greed least most body ih =>
    obtain ⟨rfl, rfl, rfl, hbody⟩ := isRegular_repeated he
    rw [matching?_optional, matching?]
    cases htaken : body.matching? text.toArray s k with
    | some t => rfl
    | none =>
      rcases hw with hw | hw
      · have hsome := ih hbody hw hpre hk
        simp [htaken] at hsome
      · cases hw
        exact hk
  | _ => simp [isRegular] at he

/-- A text begins with a word of an expression, and what follows the word has a property. -/
def Begins (e : Expr) (P : List Char → Prop) (l : List Char) : Prop :=
  ∃ w ∈ e.language, ∃ rest, w ++ rest = l ∧ P rest

/-- A word of an expression stands somewhere in a text. -/
def Occurs (e : Expr) (text : List Char) : Prop := ∃ l, l <:+ text ∧ e.Begins (fun _ => True) l

variable {test : CharTest} {P : List Char → Prop} {c : Char} {l : List Char}

theorem begins_true_iff : e.Begins (fun _ => True) l ↔ ∃ w ∈ e.language, w <+: l := by
  simp only [Begins, and_true, List.IsPrefix]

theorem begins_empty : empty.Begins P l ↔ P l := by
  constructor
  · rintro ⟨w, rfl, rest, rfl, h⟩
    exact h
  · exact fun h => ⟨[], rfl, l, rfl, h⟩

theorem begins_char_iff : (char test).Begins P l ↔ ∃ c rest, l = c :: rest ∧ test.accepts c = true ∧ P rest := by
  constructor
  · rintro ⟨_, ⟨c, rfl, haccepts⟩, rest, rfl, h⟩
    exact ⟨c, rest, rfl, haccepts, h⟩
  · rintro ⟨c, rest, rfl, haccepts, h⟩
    exact ⟨[c], ⟨c, rfl, haccepts⟩, rest, rfl, h⟩

theorem begins_char_cons : (char test).Begins P (c :: l) ↔ test.accepts c = true ∧ P l := by
  rw [begins_char_iff]
  constructor
  · rintro ⟨d, rest, heq, h⟩
    obtain ⟨rfl, rfl⟩ := List.cons.inj heq
    exact h
  · exact fun h => ⟨c, l, rfl, h⟩

theorem begins_seq {first second : Expr} : (seq first second).Begins P l ↔ first.Begins (second.Begins P) l := by
  constructor
  · rintro ⟨w, hw, rest, rfl, h⟩
    obtain ⟨u, hu, v, hv, rfl⟩ := Language.mem_mul.mp hw
    exact ⟨u, hu, v ++ rest, by simp, v, hv, rest, rfl, h⟩
  · rintro ⟨u, hu, _, rfl, v, hv, rest, rfl, h⟩
    exact ⟨u ++ v, Language.append_mem_mul hu hv, rest, by simp, h⟩

theorem begins_either {first second : Expr} :
    (either first second).Begins P l ↔ first.Begins P l ∨ second.Begins P l := by
  constructor
  · rintro ⟨w, hw | hw, h⟩
    · exact .inl ⟨w, hw, h⟩
    · exact .inr ⟨w, hw, h⟩
  · rintro (⟨w, hw, h⟩ | ⟨w, hw, h⟩)
    · exact ⟨w, .inl hw, h⟩
    · exact ⟨w, .inr hw, h⟩

theorem begins_optional {body : Expr} : (repeated .greedy 0 (some 1) body).Begins P l ↔ body.Begins P l ∨ P l := by
  rw [← begins_empty (P := P), ← begins_either]
  rfl

theorem begins_ofList_cons {es : List Expr} : (ofList (e :: es)).Begins P l ↔ e.Begins ((ofList es).Begins P) l := by
  cases es with
  | nil =>
    have hempty : (ofList []).Begins P = P := funext fun _ => propext begins_empty
    rw [hempty]
    rfl
  | cons d es => exact begins_seq

theorem begins_ofList_append {es ds : List Expr} :
    (ofList (es ++ ds)).Begins P l ↔ (ofList es).Begins ((ofList ds).Begins P) l := by
  induction es generalizing l with
  | nil => exact begins_empty.symm
  | cons e es ih =>
    have hrest : (ofList (es ++ ds)).Begins P = (ofList es).Begins ((ofList ds).Begins P) :=
      funext fun _ => propext ih
    rw [List.cons_append, begins_ofList_cons, begins_ofList_cons, hrest]

theorem begins_alternatives {es : List Expr} (hne : es ≠ []) :
    (alternatives es).Begins P l ↔ ∃ e ∈ es, e.Begins P l := by
  induction es with
  | nil => exact absurd rfl hne
  | cons e es ih =>
    cases es with
    | nil => simp [alternatives]
    | cons d es =>
      change (either e (alternatives (d :: es))).Begins P l ↔ _
      rw [begins_either, ih (by simp), List.exists_mem_cons_iff (a := e)]

/-- Where nothing that passes the test can follow, a stretch goes as far as the test does. -/
theorem begins_run_iff {least : Nat} {m : List Char} (hm : ∀ d ∈ m, test.accepts d = true ∧ ∀ l, ¬P (d :: l))
    (hc : test.accepts c = false) :
    (run .greedy least none test).Begins P (m ++ c :: l) ↔ least ≤ m.length ∧ P (c :: l) := by
  constructor
  · rintro ⟨w, ⟨hleast, hw⟩, rest, heq, h⟩
    rcases List.append_eq_append_iff.mp heq with ⟨u, rfl, rfl⟩ | ⟨u, rfl, hu⟩
    · cases u with
      | nil => exact ⟨by simpa using hleast, h⟩
      | cons d u => exact absurd h ((hm d (by simp)).2 _)
    · cases u with
      | nil =>
        obtain rfl : c :: l = rest := hu
        exact ⟨by simpa using hleast, h⟩
      | cons d u =>
        obtain rfl : c = d := List.head_eq_of_cons_eq hu
        exact absurd (hw c (by simp)) (by simp [hc])
  · rintro ⟨hleast, h⟩
    exact ⟨m, ⟨hleast, fun d hd => (hm d hd).1⟩, c :: l, rfl, h⟩

theorem begins_run_of_rejected (hc : test.accepts c = false) :
    (run .greedy 0 none test).Begins P (c :: l) ↔ P (c :: l) := by
  have hnone : (run .greedy 0 none test).Begins P ([] ++ c :: l) ↔ 0 ≤ ([] : List Char).length ∧ P (c :: l) :=
    begins_run_iff (by simp) hc
  simpa using hnone

theorem occurs_cons : e.Occurs (c :: l) ↔ e.Begins (fun _ => True) (c :: l) ∨ e.Occurs l := by
  simp only [Occurs, List.suffix_cons_iff, or_and_right, exists_or, exists_eq_left]

theorem Occurs.append {text : List Char} (h : e.Occurs text) (before after : List Char) :
    e.Occurs (before ++ text ++ after) := by
  obtain ⟨l, ⟨front, rfl⟩, w, hw, rest, rfl, _⟩ := h
  exact ⟨w ++ rest ++ after, ⟨before ++ front, by simp⟩, w, hw, rest ++ after, by simp, trivial⟩

end Expr

namespace Program

variable {p : Program}

/-- A regular program that does not take up the empty word finds something exactly where one of its words stands. -/
theorem spans_ne_nil_iff (hp : p.expr.isRegular = true) (hne : [] ∉ p.expr.language) (text : List Char) :
    p.spans text.toArray ≠ [] ↔ p.expr.Occurs text := by
  constructor
  · intro h
    obtain ⟨span, hspan⟩ := List.exists_mem_of_ne_nil _ h
    obtain ⟨t, ht, _⟩ := Option.map_eq_some_iff.mp (p.endAt?_of_mem_spans text.toArray hspan)
    obtain ⟨w, hw, hpre, _⟩ := Expr.matching?_sound hp ht
    exact ⟨text.drop span.start, List.drop_suffix _ _, Expr.begins_true_iff.mpr ⟨w, hw, hpre⟩⟩
  · rintro ⟨l, ⟨front, rfl⟩, hbegins⟩
    obtain ⟨w, hw, hpre⟩ := Expr.begins_true_iff.mp hbegins
    have hplace : w <+: (front ++ l).drop front.length := by rwa [List.drop_left]
    have hlength := hplace.length_le
    have hpos : 0 < w.length := List.length_pos_iff.mpr fun h => hne (h ▸ hw)
    rw [List.length_drop] at hlength
    obtain ⟨t, ht⟩ := Option.isSome_iff_exists.mp
      (Expr.matching?_complete hp hw (s := .start (p.groups + 1) front.length) (k := some) hplace rfl)
    -- The word that is taken up need not be the one at hand, but it is not empty either.
    obtain ⟨v, hv, _, hend⟩ := Expr.matching?_sound hp ht
    have hnonempty : 0 < v.length := List.length_pos_iff.mpr fun h => hne (h ▸ hv)
    have hstop : t.pos = front.length + v.length := by rw [← Option.some.inj hend]; rfl
    have hsome : p.endAt? (front ++ l).toArray front.length = some t.pos := by rw [endAt?, ht, Option.map_some]
    obtain ⟨span, hspan, _⟩ := p.spans_cover _ (by rw [List.size_toArray]; omega) hsome (by omega)
    exact List.ne_nil_of_mem hspan

end Program

end ScriptAudit.Pattern
