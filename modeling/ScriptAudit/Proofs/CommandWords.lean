import ScriptAudit.Command.Settings
import ScriptAudit.Proofs.Catalogs

namespace ScriptAudit.Command

namespace Grammar

variable {σ : Type} (g : Grammar σ)

theorem classifyAll_cons {word : String} {kind : Kind σ} {rest : List String} {kinds : List (String × Kind σ)}
    (hmarker : word ≠ marker) (hword : g.classify word.toList = .ok kind) (hrest : g.classifyAll rest = .ok kinds) :
    g.classifyAll (word :: rest) = .ok ((word, kind) :: kinds) := by
  rw [classifyAll, if_neg hmarker, hword, hrest]
  rfl

/-- A word that does not start like a switch is none. -/
theorem classifyAll_operand {word : String} {rest : List String} {kinds : List (String × Kind σ)}
    (h : word.toList.head? ≠ some '-') (hrest : g.classifyAll rest = .ok kinds) :
    g.classifyAll (word :: rest) = .ok ((word, .operand) :: kinds) := by
  refine classifyAll_cons g ?_ ?_ hrest
  · rintro rfl
    exact h rfl
  · rw [classify, if_pos h]

theorem words_of_classifyAll {words : List String} {kinds : List (String × Kind σ)}
    (h : g.classifyAll words = .ok kinds) : kinds.map (·.1) = words := by
  induction words generalizing kinds with
  | nil =>
    cases Except.ok.inj h
    rfl
  | cons word rest ih =>
    rw [classifyAll] at h
    split_ifs at h
    · cases Except.ok.inj h
      simp [Function.comp_def]
    · obtain ⟨kind, _, h⟩ := bind_eq_ok_iff.mp h
      obtain ⟨others, hothers, h⟩ := bind_eq_ok_iff.mp h
      cases Except.ok.inj h
      rw [List.map_cons, ih hothers]

theorem readFrom_nil (n : Nat) (p : Progress σ) : g.readFrom n p [] = .ok p := by
  cases n <;> rfl

end Grammar

/-- All words after the mode are for the mode. -/
theorem grammar_read_mode {mode : String} {rest : List String} {kinds : List (String × Kind (Option Task))}
    (hmode : mode.toList.head? ≠ some '-') (hkinds : grammar.classifyAll rest = .ok kinds) :
    grammar.read none (mode :: rest) = modeTask (mode :: rest) := by
  have htake : Grammar.takeOperand ⟨none, grammar.operand, []⟩ ((mode, .operand) :: kinds) =
      (modeTask (mode :: rest)).map fun result => some (⟨result.1, none, result.2⟩, []) := by
    rw [← grammar.words_of_classifyAll hkinds]
    change (modeTask (mode :: kinds.map (·.1)) >>= _) = _
    cases modeTask (mode :: kinds.map (·.1)) <;> rfl
  rw [Grammar.read, grammar.classifyAll_operand hmode hkinds]
  change ((Grammar.takeOperand ⟨none, grammar.operand, []⟩ ((mode, .operand) :: kinds) >>= _) >>= _) = _
  rw [htake]
  cases modeTask (mode :: rest) with
  | error halt => rfl
  | ok result =>
    -- The mode has taken every word, so that nothing is left to read.
    change (grammar.readFrom kinds.length ⟨result.1, none, result.2⟩ [] >>= _) = _
    rw [Grammar.readFrom_nil]
    rfl

section Words

variable {w : String} (h : w.toList.head? ≠ some '-')

include h

theorem listGrammar_read :
    listGrammar.read {} ["--json", "--no-builtin", "--rules", w] =
      .ok (⟨⟨some "all", some (.ofText w), false⟩, true⟩, []) := by
  have hfile : listGrammar.classifyAll [w] = _ := listGrammar.classifyAll_operand h rfl
  have hrules : listGrammar.classifyAll ["--rules", w] = _ := listGrammar.classifyAll_cons (by decide) rfl hfile
  have halone : listGrammar.classifyAll ["--no-builtin", "--rules", w] = _ :=
    listGrammar.classifyAll_cons (by decide) rfl hrules
  have hjson : listGrammar.classifyAll ["--json", "--no-builtin", "--rules", w] = _ :=
    listGrammar.classifyAll_cons (by decide) rfl halone
  rw [Grammar.read, hjson]
  rfl

theorem read_list :
    read ["rules", "--json", "--no-builtin", "--rules", w] =
      .ok (.list ⟨⟨some "all", some (.ofText w), false⟩, true⟩) := by
  have hfile : grammar.classifyAll [w] = _ := grammar.classifyAll_operand h rfl
  have hrules : grammar.classifyAll ["--rules", w] = _ := grammar.classifyAll_cons (by decide) rfl hfile
  have halone : grammar.classifyAll ["--no-builtin", "--rules", w] = _ :=
    grammar.classifyAll_cons (by decide) rfl hrules
  have hjson : grammar.classifyAll ["--json", "--no-builtin", "--rules", w] = _ :=
    grammar.classifyAll_cons (by decide) rfl halone
  have hmode : grammar.read none ["rules", "--json", "--no-builtin", "--rules", w] = _ :=
    grammar_read_mode (by decide) hjson
  rw [read, hmode]
  change ((listGrammar.read {} ["--json", "--no-builtin", "--rules", w]).map _ >>= _) = _
  rw [listGrammar_read h]
  rfl

end Words

end ScriptAudit.Command
