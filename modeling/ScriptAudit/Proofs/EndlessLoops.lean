import ScriptAudit.Proofs.Builtin
import ScriptAudit.Proofs.Codes

namespace ScriptAudit

namespace Pattern

open Text

/-- The head of a loop without end: three words with white space between them. -/
def IsLoopHead (w : List Char) : Prop :=
  ∃ gap gap', w = ['w', 'h', 'i', 'l', 'e'] ++ (gap ++ (['t', 'r', 'u', 'e'] ++ (gap' ++ ['d', 'o']))) ∧
    (gap ≠ [] ∧ ∀ c ∈ gap, isBlank c = true) ∧ gap' ≠ [] ∧ ∀ c ∈ gap', isBlank c = true

/-- A call of the waiting function stands at a place or further on, with no opening brace between. -/
def WaitsFrom (text : List Char) (place : Nat) : Prop :=
  ∃ k, place ≤ k ∧ text.extract k (k + 5) = ['W', 'a', 'i', 't', '('] ∧ '\x7b' ∉ text.extract place k

namespace Expr

def gap : Expr := run .greedy 1 none .blank

def loopHead : List Expr :=
  ['w', 'h', 'i', 'l', 'e'].map (literal .exact) ++ gap ::
    (['t', 'r', 'u', 'e'].map (literal .exact) ++ gap :: ['d', 'o'].map (literal .exact))

def unbracedTest : CharTest := .set .exact true [.code '\x7b'.toNat]

def waiting : Expr :=
  ofList (run .greedy 0 none unbracedTest :: ['W', 'a', 'i', 't', '('].map (literal .exact))

/-- The expression of the built-in rule on loops. -/
def endlessLoop : Expr := ofList (loopHead ++ [look none false waiting])

theorem language_loopHead : (ofList loopHead).language =
    {['w', 'h', 'i', 'l', 'e']} * (CharTest.blank.stretches 1 *
      ({['t', 'r', 'u', 'e']} * (CharTest.blank.stretches 1 * {['d', 'o']}))) := by
  simp only [loopHead, language_ofList_append, language_ofList_cons, language_letters]
  rfl

theorem mem_loopHead_iff {w : List Char} : w ∈ (ofList loopHead).language ↔ IsLoopHead w := by
  have hgap (gap : List Char) : gap ∈ CharTest.blank.stretches 1 ↔ gap ≠ [] ∧ ∀ c ∈ gap, isBlank c = true := by
    rw [mem_blank_stretches_iff, Nat.one_le_iff_ne_zero, ne_eq, List.length_eq_zero_iff]
  rw [language_loopHead, mem_singleton_mul_iff]
  constructor
  · intro h
    obtain ⟨_, hspaced, rfl⟩ := h
    obtain ⟨front, hfront, _, hrest, rfl⟩ := Language.mem_mul.mp hspaced
    obtain ⟨_, hspaced', rfl⟩ := mem_singleton_mul_iff.mp hrest
    obtain ⟨back, hback, _, rfl, rfl⟩ := Language.mem_mul.mp hspaced'
    exact ⟨front, back, rfl, (hgap front).mp hfront, (hgap back).mp hback⟩
  · intro h
    obtain ⟨front, back, rfl, hfront, hback⟩ := h
    refine ⟨_, Language.append_mem_mul ((hgap front).mpr hfront) ?_, rfl⟩
    exact mem_singleton_mul_iff.mpr ⟨_, Language.append_mem_mul ((hgap back).mpr hback) rfl, rfl⟩

/-- White space ends where a word begins, and only the first letter of all begins a head. -/
theorem marked_loopHead : Marked (ofList loopHead).language 'w' := by
  constructor
  case code =>
    rw [language_loopHead]
    have hdo : IsCode (CharTest.blank.stretches 1 * {['d', 'o']}) := by
      apply IsCode.stretches_mul (IsCode.singleton _)
      intro w hw
      exact ⟨'d', ['o'], hw, accepts_exact_blank 'd'⟩
    apply IsCode.mul (IsCode.singleton _)
    apply IsCode.stretches_mul (IsCode.mul (IsCode.singleton _) hdo)
    intro w hw
    obtain ⟨rest, _, rfl⟩ := mem_singleton_mul_iff.mp hw
    exact ⟨'t', ['r', 'u', 'e'] ++ rest, rfl, accepts_exact_blank 't'⟩
  case mark =>
    intro w hw
    obtain ⟨gap, gap', rfl, hgap, hgap'⟩ := mem_loopHead_iff.mp hw
    have hfront : 'w' ∉ gap := not_mem_of_blanks hgap.2 (by decide)
    have hback : 'w' ∉ gap' := not_mem_of_blanks hgap'.2 (by decide)
    refine ⟨_, rfl, ?_⟩
    simp [hfront, hback]

theorem accepts_unbraced (c : Char) : unbracedTest.accepts c = true ↔ c ≠ '\x7b' := by
  have hcode := accepts_code_exact c '\x7b'
  rw [CharTest.accepts] at hcode
  simp only [unbracedTest, CharTest.accepts, List.any_cons, List.any_nil, Bool.or_false]
  rw [ne_eq, ← hcode]
  simp

theorem exists_waiting_iff {text : List Char} {place : Nat} :
    (∃ w ∈ waiting.language, w <+: text.drop place) ↔ WaitsFrom text place := by
  have hlanguage : waiting.language = unbracedTest.stretches 0 * {['W', 'a', 'i', 't', '(']} := by
    rw [waiting, language_ofList_cons, language_letters]
    rfl
  rw [hlanguage]
  constructor
  · intro h
    obtain ⟨w, hw, hpre⟩ := h
    obtain ⟨front, hfront, _, rfl, rfl⟩ := Language.mem_mul.mp hw
    obtain ⟨hpre, hwait⟩ := append_prefix_drop_iff.mp hpre
    refine ⟨place + front.length, Nat.le_add_right _ _, prefix_drop_iff_extract.mp hwait, ?_⟩
    rw [prefix_drop_iff_extract.mp hpre]
    intro hbrace
    exact (accepts_unbraced _).mp (hfront.2 _ hbrace) rfl
  · intro h
    obtain ⟨k, hk, hwait, hbrace⟩ := h
    have hpre : ['W', 'a', 'i', 't', '('] <+: text.drop k := prefix_drop_iff_extract.mpr hwait
    have hlength : (text.extract place k).length = k - place := by
      have hle := hpre.length_le
      rw [List.length_drop, List.length_cons] at hle
      rw [List.extract_eq_take_drop, List.length_take, List.length_drop]
      omega
    have hfront : text.extract place k ∈ unbracedTest.stretches 0 := by
      refine ⟨Nat.zero_le _, fun c hc => (accepts_unbraced c).mpr ?_⟩
      exact ne_of_mem_of_not_mem hc hbrace
    refine ⟨_, Language.append_mem_mul hfront rfl, append_prefix_drop_iff.mpr ⟨?_, ?_⟩⟩
    · rw [List.extract_eq_take_drop]
      exact List.take_prefix _ _
    · rwa [hlength, Nat.add_sub_cancel' hk]

end Expr

open Pattern.Expr

/-- The program takes up a loop head unless a wait follows. -/
theorem endAt?_endlessLoop (text : List Char) (pos stop : Nat) :
    (Program.mk endlessLoop 0).endAt? text.toArray pos = some stop ↔
      (∃ w ∈ (ofList loopHead).language, w <+: text.drop pos ∧ stop = pos + w.length) ∧ ¬WaitsFrom text stop := by
  rw [Program.endAt?, Option.map_eq_some_iff]
  simp only [endlessLoop, matching?_ofList_append, matching?_eq_some_iff rfl marked_loopHead.code]
  have hlook (s r : State) : (ofList [look none false waiting]).matching? text.toArray s some = some r ↔
      ¬WaitsFrom text s.pos ∧ s = r := by
    have hregular : waiting.isRegular = true := rfl
    rw [← exists_waiting_iff]
    exact (matching?_notAhead_iff hregular).trans (and_congr_right' Option.some_inj)
  simp only [hlook]
  constructor
  · intro h
    obtain ⟨_, ⟨w, hw, hpre, hwaits, rfl⟩, rfl⟩ := h
    exact ⟨⟨w, hw, hpre, rfl⟩, hwaits⟩
  · intro h
    obtain ⟨⟨w, hw, hpre, rfl⟩, hwaits⟩ := h
    exact ⟨_, ⟨w, hw, hpre, hwaits, rfl⟩, rfl⟩

theorem compile_of_mem_performanceIssues :
    ∀ o ∈ Pack.performanceIssues.outlines.take 1,
      (compile (String.ofList o.source) o.modes).toOption = some ⟨.endlessLoop, 0⟩ := by
  simp only [Pack.outlines, Pack.performanceIssues, Draft.outline, Pack.draft, List.map_cons, List.map_nil,
    List.take_succ_cons, List.take_zero, List.forall_mem_singleton, compile, String.toList_ofList]
  repeat rw [String.toList_ofList]
  decide +kernel

end Pattern

namespace Catalog

open Pattern Expr

/-- The built-in rule on loops finds exactly the loop heads that no wait follows before the next opening brace. -/
theorem builtin_finds_endless_loops :
    ∃ c rule, builtin none = .ok c ∧
      (∀ entry, entry ∈ c.entries ∧ entry.2.title = "Infinite loop detected" ↔ entry = ("performanceIssues", rule)) ∧
      ∀ text : List Char, ∃ spans, rule.detector.search text.toArray = (spans, none) ∧
        spans.Pairwise (fun a b => a.start < b.start) ∧
        ∀ span, span ∈ spans ↔ (span.stop ≤ text.length ∧ IsLoopHead (text.extract span.start span.stop)) ∧
          ¬∃ k, span.stop ≤ k ∧ text.extract k (k + 5) = ['W', 'a', 'i', 't', '('] ∧
            '\x7b' ∉ text.extract span.stop k := by
  have hpicked : (Pack.builtin.flatMap Pack.outlines).filter (·.title = "Infinite loop detected") =
      Pack.performanceIssues.outlines.take 1 := rfl
  have hone : (Pack.performanceIssues.outlines.take 1).map (·.category) = ["performanceIssues"] := rfl
  obtain ⟨c, rule, hbuilt, hmem, _, _, hsearch⟩ :=
    exists_builtin_rule hpicked hone compile_of_mem_performanceIssues
  simp only [decide_eq_true_eq] at hmem
  refine ⟨c, rule, hbuilt, hmem, fun text => ⟨_, hsearch _, Program.spans_increasing _ _, ?_⟩⟩
  intro span
  rw [← mem_loopHead_iff]
  exact marked_loopHead.mem_spans_iff (endAt?_endlessLoop text)

end Catalog

end ScriptAudit
