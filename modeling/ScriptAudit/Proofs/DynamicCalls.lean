import ScriptAudit.Proofs.Builtin
import ScriptAudit.Proofs.Codes

namespace ScriptAudit

namespace Pattern

open Text

/-- A call that compiles code: the name of a function that does, white space or none, and a bracket. -/
def IsLoadCall (w : List Char) : Prop :=
  ∃ name gap, w = name ++ (gap ++ ['(']) ∧
    (name = ['l', 'o', 'a', 'd', 's', 't', 'r', 'i', 'n', 'g'] ∨ name = ['l', 'o', 'a', 'd']) ∧
    ∀ c ∈ gap, isBlank c = true

/-- No word character stands right before a place. -/
def NoWordBefore (text : List Char) (place : Nat) : Prop :=
  place = 0 ∨ ∃ c, text[place - 1]? = some c ∧ isWord c = false

theorem isWordEdge_iff {text : List Char} {place : Nat} {c : Char} (hc : text[place]? = some c)
    (hword : isWord c = true) : isWordEdge text.toArray false place = true ↔ NoWordBefore text place := by
  have hhere : isWordAt text.toArray false place = true := by
    simp [isWordAt, hc, CharClass.contains, hword]
  cases place with
  | zero => simp [isWordEdge, hhere, NoWordBefore]
  | succ n =>
    obtain ⟨hlt, _⟩ := List.getElem?_eq_some_iff.mp hc
    obtain ⟨d, hd⟩ : ∃ d, text[n]? = some d := ⟨text[n], List.getElem?_eq_getElem (by omega)⟩
    have hbefore : isWordAt text.toArray false n = isWord d := by
      simp [isWordAt, hd, CharClass.contains]
    simp [isWordEdge, hhere, hbefore, NoWordBefore, hd]

namespace Expr

def loading : List Expr :=
  [alternatives [ofList (['l', 'o', 'a', 'd', 's', 't', 'r', 'i', 'n', 'g'].map (literal .exact)),
      ofList (['l', 'o', 'a', 'd'].map (literal .exact))],
    run .greedy 0 none .blank, literal .exact '(']

/-- The expression of the built-in rule on code that is compiled. -/
def dynamicCall : Expr := ofList (anchor (.wordEdge false) :: loading)

/-- White space, if any, and a bracket. -/
def opened : Language Char := CharTest.blank.stretches 0 * {['(']}

theorem language_loading : (ofList loading).language =
    ({['l', 'o', 'a', 'd', 's', 't', 'r', 'i', 'n', 'g']} + {['l', 'o', 'a', 'd']}) * opened := by
  have hnames (w v : List Char) :
      (alternatives [ofList (w.map (literal .exact)), ofList (v.map (literal .exact))]).language = {w} + {v} := by
    rw [← language_letters w, ← language_letters v]
    rfl
  have hbracket : (ofList [literal .exact '(']).language = {['(']} := language_letters ['(']
  rw [loading, language_ofList_cons, language_ofList_cons, hnames, hbracket]
  rfl

theorem mem_opened_iff {w : List Char} :
    w ∈ opened ↔ ∃ gap, w = gap ++ ['('] ∧ ∀ c ∈ gap, isBlank c = true := by
  rw [opened, Language.mem_mul]
  constructor
  · intro h
    obtain ⟨gap, hgap, _, rfl, rfl⟩ := h
    exact ⟨gap, rfl, (mem_blank_stretches_iff.mp hgap).2⟩
  · intro h
    obtain ⟨gap, rfl, hgap⟩ := h
    exact ⟨gap, mem_blank_stretches_iff.mpr ⟨Nat.zero_le _, hgap⟩, _, rfl, rfl⟩

theorem mem_loading_iff {w : List Char} : w ∈ (ofList loading).language ↔ IsLoadCall w := by
  rw [language_loading, Language.mem_mul]
  constructor
  · intro h
    obtain ⟨name, hname, _, hopened, rfl⟩ := h
    obtain ⟨gap, rfl, hgap⟩ := mem_opened_iff.mp hopened
    exact ⟨name, gap, rfl, hname, hgap⟩
  · intro h
    obtain ⟨name, gap, rfl, hname, hgap⟩ := h
    exact ⟨name, hname, _, mem_opened_iff.mpr ⟨gap, rfl, hgap⟩, rfl⟩

theorem isCode_opened : IsCode opened := by
  apply IsCode.stretches_mul (IsCode.singleton _)
  intro w hw
  exact ⟨'(', [], hw, accepts_exact_blank '('⟩

/-- The longer name goes on with a letter where the shorter one is followed by white space or the bracket. -/
theorem isCode_loading : IsCode (ofList loading).language := by
  rw [language_loading, add_mul]
  refine IsCode.add ((IsCode.singleton _).mul isCode_opened) ((IsCode.singleton _).mul isCode_opened) (i := 4) ?_
  intro u hu v hv
  obtain ⟨back, _, rfl⟩ := mem_singleton_mul_iff.mp hu
  obtain ⟨_, hopened, rfl⟩ := mem_singleton_mul_iff.mp hv
  obtain ⟨gap, rfl, hgap⟩ := mem_opened_iff.mp hopened
  cases gap with
  | nil => exact ⟨'s', '(', rfl, rfl, by decide⟩
  | cons c gap =>
    have habsent : 's' ∉ c :: gap := not_mem_of_blanks hgap (by decide)
    exact ⟨'s', c, rfl, rfl, List.ne_of_not_mem_cons habsent⟩

theorem marked_loading : Marked (ofList loading).language 'l' := by
  refine ⟨isCode_loading, ?_⟩
  intro w hw
  obtain ⟨name, gap, rfl, hname, hgap⟩ := mem_loading_iff.mp hw
  have habsent : 'l' ∉ gap := not_mem_of_blanks hgap (by decide)
  rcases hname with rfl | rfl
  · exact ⟨_, rfl, by simp [habsent]⟩
  · exact ⟨_, rfl, by simp [habsent]⟩

end Expr

open Pattern.Expr

/-- The program takes up a call unless its name goes on before it. -/
theorem endAt?_dynamicCall (text : List Char) (pos stop : Nat) :
    (Program.mk dynamicCall 0).endAt? text.toArray pos = some stop ↔
      (∃ w ∈ (ofList loading).language, w <+: text.drop pos ∧ stop = pos + w.length) ∧ NoWordBefore text pos := by
  have hedge {w : List Char} (hw : w ∈ (ofList loading).language) (hpre : w <+: text.drop pos) :
      isWordEdge text.toArray false pos = true ↔ NoWordBefore text pos := by
    obtain ⟨rest, rfl, _⟩ := marked_loading.mark w hw
    exact isWordEdge_iff (cons_prefix_drop_iff.mp hpre).1 (by decide)
  have hanchor (s r : State) : dynamicCall.matching? text.toArray s some = some r ↔
      isWordEdge text.toArray false s.pos = true ∧ (ofList loading).matching? text.toArray s some = some r := by
    rw [dynamicCall, matching?_ofList_cons, matching?, Anchor.holds, Option.ite_none_right_eq_some]
  rw [Program.endAt?, Option.map_eq_some_iff]
  simp only [hanchor, matching?_eq_some_iff rfl isCode_loading]
  constructor
  · intro h
    obtain ⟨_, ⟨hword, w, hw, hpre, hr⟩, rfl⟩ := h
    rw [← Option.some.inj hr]
    exact ⟨⟨w, hw, hpre, rfl⟩, (hedge hw hpre).mp hword⟩
  · intro h
    obtain ⟨⟨w, hw, hpre, rfl⟩, hbefore⟩ := h
    exact ⟨_, ⟨(hedge hw hpre).mpr hbefore, w, hw, hpre, rfl⟩, rfl⟩

theorem mem_spans_dynamicCall_iff {text : List Char} {span : Span} :
    span ∈ (Program.mk dynamicCall 0).spans text.toArray ↔
      (span.stop ≤ text.length ∧ IsLoadCall (text.extract span.start span.stop)) ∧ NoWordBefore text span.start := by
  rw [← mem_loading_iff]
  exact marked_loading.mem_spans_iff (endAt?_dynamicCall text)

section Around

variable {before call after : List Char}

theorem prefix_drop_of_append : call <+: (before ++ (call ++ after)).drop before.length := by
  rw [List.drop_left]
  exact List.prefix_append call after

/-- A call is found if the text before it does not end in a word character. -/
theorem mem_spans_of_call (hcall : IsLoadCall call) (hbefore : ∀ c ∈ before.getLast?, isWord c = false) :
    ⟨before.length, before.length + call.length⟩ ∈
      (Program.mk dynamicCall 0).spans (before ++ (call ++ after)).toArray := by
  rw [mem_spans_dynamicCall_iff, prefix_drop_iff_extract.mp prefix_drop_of_append]
  refine ⟨⟨by simp, hcall⟩, ?_⟩
  cases before using List.reverseRecOn with
  | nil => exact .inl rfl
  | append_singleton front c _ =>
    refine .inr ⟨c, by simp, hbefore c ?_⟩
    simp

/-- Nothing of a call is found if its name goes on before it. -/
theorem spans_apart_of_longer_name {c : Char} (hc : isWord c = true) (hcall : IsLoadCall call) {span : Span}
    (hspan : span ∈ (Program.mk dynamicCall 0).spans (before ++ [c] ++ (call ++ after)).toArray) :
    span.stop ≤ before.length + 1 ∨ before.length + 1 + call.length ≤ span.start := by
  have hplace : call <+: (before ++ [c] ++ (call ++ after)).drop (before.length + 1) := by
    have hdrop : call <+: (before ++ [c] ++ (call ++ after)).drop (before ++ [c]).length := prefix_drop_of_append
    rwa [List.length_append, List.length_singleton] at hdrop
  obtain ⟨hfound, hbefore⟩ := mem_spans_dynamicCall_iff.mp hspan
  rw [← mem_loading_iff, ← exists_prefix_drop_iff marked_loading.nil_not_mem] at hfound
  obtain ⟨w, hw, hpre, hstop⟩ := hfound
  rw [← mem_loading_iff] at hcall
  rcases Nat.lt_trichotomy span.start (before.length + 1) with hlt | heq | hgt
  · exact .inl (hstop ▸ marked_loading.apart hw hcall hpre hplace hlt)
  · rw [heq] at hbefore
    rcases hbefore with hzero | ⟨d, hd, hword⟩
    · exact absurd hzero (by omega)
    · have hsame : c = d := by simpa using hd
      rw [← hsame, hc] at hword
      exact absurd hword (by simp)
  · exact .inr (marked_loading.apart hcall hw hplace hpre hgt)

end Around

theorem compile_of_mem_dynamicExecution :
    ∀ o ∈ Pack.dynamicExecution.outlines.take 1,
      (compile (String.ofList o.source) o.modes).toOption = some ⟨.dynamicCall, 0⟩ := by
  simp only [Pack.outlines, Pack.dynamicExecution, Draft.outline, Pack.draft, List.map_cons, List.map_nil,
    List.take_succ_cons, List.take_zero, List.forall_mem_singleton, compile, String.toList_ofList]
  repeat rw [String.toList_ofList]
  decide +kernel

end Pattern

namespace Catalog

open Pattern Expr

/-- The built-in rule on compiled code finds exactly the calls with no word character before them: none that only ends
in such a name, and all others. -/
theorem builtin_finds_dynamic_calls :
    ∃ c rule, builtin none = .ok c ∧
      (∀ entry, entry ∈ c.entries ∧ entry.2.title = "Dynamic code execution" ↔ entry = ("dynamicExecution", rule)) ∧
      (∀ text : List Char, ∃ spans, rule.detector.search text.toArray = (spans, none) ∧
        spans.Pairwise (fun a b => a.start < b.start) ∧
        ∀ span, span ∈ spans ↔ (span.stop ≤ text.length ∧ IsLoadCall (text.extract span.start span.stop)) ∧
          (span.start = 0 ∨ ∃ d, text[span.start - 1]? = some d ∧ Text.isWord d = false)) ∧
      ∀ before call after, IsLoadCall call →
        (∀ d, Text.isWord d = true → ∀ span ∈ (rule.detector.search (before ++ [d] ++ (call ++ after)).toArray).1,
          span.stop ≤ before.length + 1 ∨ before.length + 1 + call.length ≤ span.start) ∧
        ((∀ d ∈ before.getLast?, Text.isWord d = false) →
          ⟨before.length, before.length + call.length⟩ ∈
            (rule.detector.search (before ++ (call ++ after)).toArray).1) := by
  have hpicked : (Pack.builtin.flatMap Pack.outlines).filter (·.title = "Dynamic code execution") =
      Pack.dynamicExecution.outlines.take 1 := rfl
  have hone : (Pack.dynamicExecution.outlines.take 1).map (·.category) = ["dynamicExecution"] := rfl
  obtain ⟨c, rule, hbuilt, hmem, _, _, hsearch⟩ :=
    exists_builtin_rule hpicked hone compile_of_mem_dynamicExecution
  simp only [decide_eq_true_eq] at hmem
  refine ⟨c, rule, hbuilt, hmem, fun text => ⟨_, hsearch _, ?_, ?_⟩, ?_⟩
  · exact Program.spans_increasing _ _
  · intro span
    exact mem_spans_dynamicCall_iff
  · intro before call after hcall
    simp only [hsearch]
    exact ⟨fun d hd span => spans_apart_of_longer_name hd hcall, mem_spans_of_call hcall⟩

end Catalog

end ScriptAudit
