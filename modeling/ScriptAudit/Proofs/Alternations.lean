import Mathlib.Data.List.Infix
import ScriptAudit.Pattern.Grammar
import ScriptAudit.Proofs.Spans

namespace ScriptAudit.Pattern

/-- The characters that have a meaning of their own in every mode. -/
def signs : List Char := ['|', ')', '\\', '[', '.', '^', '$', '?', '*', '+', '\x7b', '(']

def isPlain (c : Char) : Bool := !signs.contains c

def literal (folding : Folding) (c : Char) : Expr := .char (.code folding c.toNat)

def word (folding : Folding) (w : List Char) : Expr := .ofList (w.map (literal folding))

theorem tokens_of_not_mem {cs : List Char} (h : '\\' ∉ cs) : tokens cs = cs.map .plain := by
  induction cs with
  | nil => rfl
  | cons c rest ih =>
    rw [List.mem_cons, not_or] at h
    have hc : c ≠ '\\' := Ne.symm h.1
    rw [List.map_cons, ← ih h.2, tokens]
    · exact fun _ _ heq => absurd heq hc
    · exact fun heq => absurd heq hc

namespace Reader

theorem settle_plain (pos : Nat) (cs : List Char) :
    settle ⟨pos, cs.map .plain⟩ = .ok ⟨pos, cs.map .plain⟩ := by
  cases cs <;> rfl

theorem skip_plain {r : Reader} {c : Char} {cs : List Char} (h : r.rest = (c :: cs).map .plain) :
    r.skip = .ok ⟨r.pos + 1, cs.map .plain⟩ := by
  rw [skip, h]
  exact settle_plain (r.pos + 1) cs

end Reader

namespace Expr

theorem height_ofList_le {n : Nat} {es : List Expr} (h : ∀ e ∈ es, e.height ≤ n) : (ofList es).height ≤ n := by
  induction es with
  | nil => exact Nat.zero_le n
  | cons e rest ih =>
    obtain ⟨he, hrest⟩ := List.forall_mem_cons.mp h
    cases rest with
    | nil => exact he
    | cons d rest => exact Nat.max_le.mpr ⟨he, ih hrest⟩

theorem height_either_le (first second : Expr) :
    (either first second).height ≤ max first.height second.height + 1 := by
  cases second with
  | either second third =>
    rw [height]
    omega
  | _ => exact Nat.le_refl _

/-- A choice is one call, however many alternatives it has. -/
theorem height_alternatives_le {n : Nat} {es : List Expr} (h : ∀ e ∈ es, e.height ≤ n) :
    (alternatives es).height ≤ n + 1 := by
  induction es with
  | nil => exact Nat.zero_le _
  | cons e rest ih =>
    obtain ⟨he, hrest⟩ := List.forall_mem_cons.mp h
    match rest with
    | [] => exact Nat.le_succ_of_le he
    | [d] => exact (height_either_le e d).trans (Nat.succ_le_succ (Nat.max_le.mpr ⟨he, hrest d (by simp)⟩))
    | c :: d :: rest => exact Nat.max_le.mpr ⟨Nat.succ_le_succ he, ih hrest⟩

end Expr

namespace OpenGroup

/-- The alternatives of a group as far as it has been read. -/
def alternatives (g : OpenGroup) : List Expr := g.finished.reverse.map (·.expr) ++ [g.current.expr]

/-- The alternatives of a group once the given ones have been read as well, the first of them as the rest of the
alternative that was begun. -/
def alternativesWith (g : OpenGroup) (read : List (List Expr)) : List Expr :=
  g.finished.reverse.map (·.expr) ++ (read.modifyHead (g.pieces.reverse.map (·.expr) ++ ·)).map .ofList

theorem alternativesWith_of_empty {g : OpenGroup} (hfinished : g.finished = []) (hpieces : g.pieces = [])
    (read : List (List Expr)) : g.alternativesWith read = read.map .ofList := by
  cases read <;> simp [alternativesWith, hfinished, hpieces]

theorem alternativesWith_next (g : OpenGroup) (read : List (List Expr)) :
    g.next.alternativesWith read = g.alternativesWith ([] :: read) := by
  cases read <;> simp [alternativesWith, next, current]

theorem alternativesWith_add (g : OpenGroup) (piece : Piece) (read : List (List Expr)) :
    (g.add piece).alternativesWith read = g.alternativesWith (read.modifyHead (piece.expr :: ·)) := by
  cases read <;> simp [alternativesWith, add]

end OpenGroup

namespace Progress

variable {p : Progress} {c : Char} {cs : List Char}

theorem step_plain (hc : isPlain c = true) (hrest : p.reader.rest = (c :: cs).map .plain)
    (hverbose : p.modes.verbose = false) :
    p.step (.plain c) = .ok ((p.moveTo ⟨p.reader.pos + 1, cs.map .plain⟩).addCode p.reader.pos c.toNat) := by
  have hskip := Reader.skip_plain hrest
  unfold step
  split
  next heq => cases heq; exact absurd hc (by decide)
  next heq => cases heq; exact absurd hc (by decide)
  next heq => exact absurd heq (by simp)
  next heq => exact absurd heq (by simp)
  next heq =>
    cases heq
    rw [hskip]
    simp only [bind, Except.bind, hverbose, Bool.false_and, Bool.false_eq_true, if_false]
    split <;> first | exact absurd hc (by decide) | rfl

theorem step_bar (hrest : p.reader.rest = ('|' :: cs).map .plain) (hpurpose : p.inner.purpose = .whole) :
    p.step (.plain '|') = .ok { p with reader := ⟨p.reader.pos + 1, cs.map .plain⟩, inner := p.inner.next } := by
  change p.bar = _
  unfold bar
  rw [hpurpose, Reader.skip_plain hrest]
  rfl

/-- Reading plain characters and bars changes only the group, which gains the words between the bars. -/
theorem steps_plain (cs : List Char) (hcs : ∀ c ∈ cs, c = '|' ∨ isPlain c = true) :
    ∀ p : Progress, p.reader.rest = cs.map .plain → p.inner.purpose = .whole → p.modes.verbose = false →
      p.depth ≤ callLimit → ∃ reader group, p.steps cs.length = .ok { p with reader := reader, inner := group } ∧
        group.alternatives =
          p.inner.alternativesWith ((cs.splitOn '|').map (List.map (literal p.modes.folding))) := by
  induction cs with
  | nil =>
    intro p _ _ _ _
    exact ⟨p.reader, p.inner, rfl, by simp [OpenGroup.alternatives, OpenGroup.alternativesWith, OpenGroup.current]⟩
  | cons c cs ih =>
    intro p hrest hpurpose hverbose hdepth
    -- No group is opened, so that the depth stays what it is.
    have hsteps {q : Progress} (hstep : p.step (.plain c) = .ok q) (hq : q.depth = p.depth) :
        p.steps (c :: cs).length = q.steps cs.length := by
      simp only [List.length_cons, steps, Reader.next?, hrest, List.map_cons, List.head?_cons, hstep]
      exact if_neg (Nat.not_lt.mpr (hq ▸ hdepth))
    specialize ih fun d hd => hcs d (List.mem_cons_of_mem c hd)
    by_cases hbar : c = '|'
    case pos =>
      subst hbar
      obtain ⟨reader, group, hrun, halternatives⟩ :=
        ih { p with reader := ⟨p.reader.pos + 1, cs.map .plain⟩, inner := p.inner.next } rfl hpurpose hverbose hdepth
      refine ⟨reader, group, (hsteps (step_bar hrest hpurpose) rfl).trans hrun, ?_⟩
      rw [halternatives, List.splitOn_cons_eq_if_modifyHead]
      exact OpenGroup.alternativesWith_next _ _
    case neg =>
      have hplain := (hcs c List.mem_cons_self).resolve_left hbar
      obtain ⟨reader, group, hrun, halternatives⟩ :=
        ih ((p.moveTo ⟨p.reader.pos + 1, cs.map .plain⟩).addCode p.reader.pos c.toNat) rfl hpurpose hverbose hdepth
      refine ⟨reader, group, (hsteps (step_plain hplain hrest hverbose) rfl).trans hrun, ?_⟩
      rw [halternatives, List.splitOn_cons_eq_if_modifyHead, if_neg (by simpa using hbar)]
      refine (OpenGroup.alternativesWith_add _ _ _).trans ?_
      cases cs.splitOn '|' <;> rfl

end Progress

/-- A source of plain characters and bars stands for the words between the bars. -/
theorem compile_plain {source : String} {modes : Modes}
    (hsource : ∀ c ∈ source.toList, c = '|' ∨ isPlain c = true) :
    compile source modes =
      .ok ⟨.alternatives ((source.toList.splitOn '|').map (word modes.toLocal.folding)), 0⟩ := by
  have hslash : '\\' ∉ source.toList := fun h => absurd (hsource _ h) (by decide)
  have hreader : Reader.ofSource source.toList = .ok ⟨0, source.toList.map .plain⟩ := by
    rw [Reader.ofSource, tokens_of_not_mem hslash, Reader.settle_plain]
  obtain ⟨reader, group, hrun, halternatives⟩ :=
    Progress.steps_plain source.toList hsource (.start modes ⟨0, source.toList.map .plain⟩) rfl rfl rfl (by decide : 2 ≤ 980)
  have hcontent : group.content.expr =
      .alternatives ((source.toList.splitOn '|').map (word modes.toLocal.folding)) := by
    change Expr.alternatives group.alternatives = _
    rw [halternatives, OpenGroup.alternativesWith_of_empty rfl rfl, List.map_map]
    rfl
  have hheight : ¬callLimit < group.content.expr.height := by
    have hwords : ∀ e ∈ (source.toList.splitOn '|').map (word modes.toLocal.folding), e.height ≤ 0 := by
      intro e he
      obtain ⟨w, _, rfl⟩ := List.mem_map.mp he
      refine Expr.height_ofList_le fun e he => ?_
      obtain ⟨c, _, rfl⟩ := List.mem_map.mp he
      exact Nat.le_refl 0
    have hle := Expr.height_alternatives_le hwords
    rw [hcontent, callLimit]
    omega
  rw [compile, hreader]
  simp only [bind, Except.bind, List.length_map, hrun]
  refine (if_neg hheight).trans ?_
  exact congrArg (fun e => Except.ok (Program.mk e 0)) hcontent

theorem cons_prefix_drop_iff {c : Char} {w text : List Char} {pos : Nat} :
    c :: w <+: text.drop pos ↔ text[pos]? = some c ∧ w <+: text.drop (pos + 1) := by
  rw [← List.head?_drop, ← List.drop_drop]
  cases text.drop pos <;> simp [List.cons_prefix_cons, eq_comm]

theorem isAlpha_iff (c : Char) :
    c.isAlpha = true ↔ 65 ≤ c.toNat ∧ c.toNat ≤ 90 ∨ 97 ≤ c.toNat ∧ c.toNat ≤ 122 := by
  have halpha : c.isAlpha =
      (decide (65 ≤ c.toNat ∧ c.toNat ≤ 90) || decide (97 ≤ c.toNat) && decide (c.toNat ≤ 122)) := rfl
  simp [halpha]

theorem accepts_code_exact (c d : Char) : (CharTest.code .exact d.toNat).accepts c = true ↔ c = d := by
  simp only [CharTest.accepts, SetItem.accepts, Folding.variants, List.contains_eq_mem, List.mem_singleton,
    decide_eq_true_eq, Char.toNat_inj]
  exact eq_comm

namespace Expr

theorem matching?_ofList_cons (text : Subject) (s : State) (k : Continuation) (e : Expr) (es : List Expr) :
    (ofList (e :: es)).matching? text s k = e.matching? text s fun t => (ofList es).matching? text t k := by
  cases es <;> rfl

theorem matching?_alternatives (text : Subject) (s : State) (k : Continuation) {es : List Expr} (hne : es ≠ []) :
    (alternatives es).matching? text s k = es.findSome? (·.matching? text s k) := by
  induction es with
  | nil => exact absurd rfl hne
  | cons e es ih =>
    cases es with
    | nil => simp [alternatives]
    | cons d es =>
      rw [alternatives, matching?, ih (by simp), List.findSome?_cons (a := e)]
      · cases e.matching? text s k <;> rfl
      · exact List.cons_ne_nil d es

theorem matching?_literal (text : List Char) (s : State) (k : Continuation) (c : Char) :
    (literal .exact c).matching? text.toArray s k = if text[s.pos]? = some c then k (s.advance 1) else none := by
  rw [literal, matching?, List.getElem?_toArray]
  cases text[s.pos]? with
  | none => rfl
  | some d => simp only [accepts_code_exact, Option.some.injEq]

theorem matching?_word (text : List Char) (k : Continuation) (w : List Char) (s : State) :
    (word .exact w).matching? text.toArray s k =
      if w <+: text.drop s.pos then k (s.advance w.length) else none := by
  induction w generalizing s with
  | nil => simp [word, ofList, matching?, State.advance]
  | cons c w ih =>
    rw [word, List.map_cons, matching?_ofList_cons, matching?_literal]
    simp only [cons_prefix_drop_iff]
    split
    next hc =>
      refine (ih (s.advance 1)).trans ?_
      simp only [hc, true_and, State.advance, List.length_cons, Nat.add_assoc, Nat.add_comm 1]
    next hc => rw [if_neg fun h => hc h.1]

end Expr

def ofWords (words : List (List Char)) : Program := ⟨.alternatives (words.map (word .exact)), 0⟩

/-- At every offset, the first of the words that stands there is found. -/
theorem endAt?_ofWords {words : List (List Char)} (hne : words ≠ []) (text : List Char) (pos : Nat) :
    (ofWords words).endAt? text.toArray pos =
      (words.find? fun w => w <+: text.drop pos).map (pos + ·.length) := by
  rw [Program.endAt?, ofWords, Expr.matching?_alternatives _ _ _ (by simpa using hne), List.findSome?_map,
    ← List.findSome?_guard, List.map_findSome?, List.map_findSome?]
  congr 1
  funext w
  simp only [Function.comp_apply, Expr.matching?_word, State.start, Option.guard, decide_eq_true_eq]
  split <;> rfl

/-- No word is found inside another one, and none overlaps another one or itself. -/
def Separate (words : List (List Char)) : Prop :=
  (∀ w ∈ words, w ≠ []) ∧
    ∀ u ∈ words, ∀ v ∈ words, ∀ i < u.length, (u.drop i <+: v ∨ v <+: u.drop i) → i = 0 ∧ u = v

instance (words : List (List Char)) : Decidable (Separate words) := inferInstanceAs (Decidable (_ ∧ _))

namespace Separate

variable {words : List (List Char)} {text : List Char}

/-- A word that stands where another one has begun and not yet ended is that word. -/
theorem eq_of_prefix_drop (h : Separate words) {u v : List Char} (hu : u ∈ words) (hv : v ∈ words) {i j : Nat}
    (hui : u <+: text.drop i) (hvj : v <+: text.drop j) (hij : i ≤ j) (hj : j < i + u.length) : i = j ∧ u = v := by
  have hdrop : u.drop (j - i) <+: text.drop j := by
    have hsub := hui.drop (j - i)
    rwa [List.drop_drop, Nat.add_sub_cancel' hij] at hsub
  obtain ⟨hzero, heq⟩ := h.2 u hu v hv (j - i) (by omega) (List.prefix_or_prefix_of_prefix hdrop hvj)
  exact ⟨by omega, heq⟩

theorem endAt?_iff (h : Separate words) (hne : words ≠ []) {pos stop : Nat} :
    (ofWords words).endAt? text.toArray pos = some stop ↔
      ∃ w ∈ words, w <+: text.drop pos ∧ stop = pos + w.length := by
  rw [endAt?_ofWords hne, Option.map_eq_some_iff]
  constructor
  · rintro ⟨w, hfind, rfl⟩
    exact ⟨w, List.mem_of_find?_eq_some hfind, by simpa using List.find?_some hfind, rfl⟩
  · rintro ⟨w, hw, hpre, rfl⟩
    obtain ⟨v, hfind⟩ : ∃ v, words.find? (fun w => w <+: text.drop pos) = some v :=
      Option.isSome_iff_exists.mp (List.find?_isSome.mpr ⟨w, hw, by simpa using hpre⟩)
    have hv : v <+: text.drop pos := by simpa using List.find?_some hfind
    have hpos : 0 < v.length := List.length_pos_iff.mpr (h.1 v (List.mem_of_find?_eq_some hfind))
    obtain ⟨-, rfl⟩ := h.eq_of_prefix_drop (List.mem_of_find?_eq_some hfind) hw hv hpre le_rfl (by omega)
    exact ⟨v, hfind, rfl⟩

/-- The search finds every place where one of the words stands, and no other place. -/
theorem mem_spans_iff (h : Separate words) (hne : words ≠ []) {span : Span} :
    span ∈ (ofWords words).spans text.toArray ↔
      ∃ w ∈ words, w <+: text.drop span.start ∧ span.stop = span.start + w.length := by
  have hstands {pos stop : Nat} (hend : (ofWords words).endAt? text.toArray pos = some stop) :
      ∃ w ∈ words, w <+: text.drop pos ∧ stop = pos + w.length ∧ pos < stop := by
    obtain ⟨w, hw, hpre, hstop⟩ := (h.endAt?_iff hne).mp hend
    have hpos : 0 < w.length := List.length_pos_iff.mpr (h.1 w hw)
    exact ⟨w, hw, hpre, hstop, by omega⟩
  rw [Program.mem_spans_iff_of_apart, h.endAt?_iff hne]
  · intro pos stop hend
    obtain ⟨w, _, hpre, hstop, hlt⟩ := hstands hend
    have hle := hpre.length_le
    rw [List.length_drop] at hle
    rw [List.size_toArray]
    omega
  · intro i stop j stop' hi hj hlt
    obtain ⟨u, hu, hupre, hustop, _⟩ := hstands hi
    obtain ⟨v, hv, hvpre, _, _⟩ := hstands hj
    -- Two words never overlap.
    by_contra hinside
    have hsame := h.eq_of_prefix_drop hu hv hupre hvpre hlt.le (by omega)
    omega

end Separate

end ScriptAudit.Pattern
