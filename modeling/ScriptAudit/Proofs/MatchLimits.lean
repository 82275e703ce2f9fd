import ScriptAudit.Proofs.BudgetChecks

namespace ScriptAudit

theorem Budget.TooMany.mono {b b' : Budget} (h : ∀ k ∈ b'.maxMatches, ∃ limit ∈ b.maxMatches, limit ≤ k) {count : Nat}
    (hmany : b'.TooMany count) : b.TooMany count := by
  obtain ⟨k, hk, hlt⟩ := hmany
  obtain ⟨limit, hlimit, hle⟩ := h k hk
  exact ⟨limit, hlimit, by omega⟩

namespace Rule

variable {rule : Rule} {budget : Budget} (hb : budget.maxSeconds = none)

include hb

theorem failure_iff_tooMany {text : Pattern.Subject} {spans : List Pattern.Span}
    (hsearch : rule.detector.search text = (spans, none)) (clock : Clock) :
    (rule.enumerate budget none text clock).failure.isSome ↔ budget.TooMany spans.length := by
  obtain ⟨n, hn, hpass, hfail⟩ := budget.exists_passing clock spans.length spans.length
  rw [failure_of_passing hsearch hn hpass hfail]
  constructor
  · rintro ⟨i, _, _, hmany | hlong⟩
    · obtain ⟨limit, hlimit, hlt⟩ := hmany
      exact ⟨limit, hlimit, by omega⟩
    · simp [Budget.TooLong, hb] at hlong
  · intro hmany
    -- The check at the end counts all matches, so that it fails if no other does.
    have hcount : min (spans.length + 1) spans.length = spans.length := by omega
    exact ⟨spans.length + 1, by omega, Nat.le_refl _, .inl (hcount.symm ▸ hmany)⟩

/-- Without a limit of time, a rule is given up if its search fails, or if it has too many matches. -/
theorem failure?_isSome_iff (rule : Rule) (text : List Char) (clock : Clock) :
    (rule.failure? budget text clock).isSome ↔
      (rule.detector.search text.toArray).2.isSome ∨
        budget.TooMany (rule.detector.search text.toArray).1.length := by
  rcases hsearch : rule.detector.search text.toArray with ⟨spans, _ | failure⟩
  · have hiff := failure_iff_tooMany hb hsearch clock
    simpa [failure?] using hiff
  · have hfails : (rule.failure? budget text clock).isSome := by
      rw [Option.isSome_iff_ne_none]
      intro hnone
      have hending : (rule.detector.search text.toArray).2 = none := (Enumeration.handOut_complete hnone).1
      simp [hsearch] at hending
    simp [hfails]

end Rule

namespace Catalog

section Timeless

variable {budget : Budget} (hb : budget.maxSeconds = none) (c : Catalog) (text : List Char) (file : Option String)
  (clock start : Clock)

include hb

theorem mem_discoveries_timeless {f : Finding} :
    f ∈ c.discoveries text file budget clock ↔
      ∃ entry ∈ c.entries, entry.2.failure? budget text start = none ∧
        ∃ span ∈ entry.2.spans text.toArray, Finding.ofSpan text file entry.1 entry.2 span = f := by
  rw [discoveries_timeless hb text file c clock start, List.mem_flatMap]
  simp only [Run.mem_findings]
  rfl

/-- The rules that are noted as skipped, by category and title. -/
theorem skipped_keys :
    ((c.runs budget text clock).filterMap (·.skipped? file)).map (fun s => (s.category, s.title)) =
      (c.entries.filter fun entry => (entry.2.failure? budget text start).isSome).map
        fun entry => (entry.1, entry.2.title) := by
  rw [skipped_timeless hb text file c clock start]
  induction c.entries with
  | nil => rfl
  | cons entry rest ih =>
    have hskipped : (Run.start budget text start entry).skipped? file =
        (entry.2.failure? budget text start).map fun failure => ⟨entry.1, entry.2.title, failure.reason, file⟩ := rfl
    rw [List.filterMap_cons, hskipped, List.filter_cons]
    cases entry.2.failure? budget text start with
    | none => simpa using ih
    | some failure => simpa using ih

end Timeless

/-- A higher limit of matches, or none, keeps every identity that is reported. It skips no rule that the lower limit does
not skip, and the rules that the lower limit skips are those whose search fails by itself and those with more
matches. -/
theorem audit_of_raised_limit (c : Catalog) (text : List Char) (file : Option String) {n : Int} {m : Option Int}
    (h : ∀ k ∈ m, n ≤ k) (clock₁ clock₂ : Clock) :
    ∃ low high after₁ after₂,
      c.audit text file ⟨none, some n⟩ clock₁ = .ok (low, after₁) ∧
      c.audit text file ⟨none, m⟩ clock₂ = .ok (high, after₂) ∧
      (∀ i ∈ low.findings.map Finding.identity, i ∈ high.findings.map Finding.identity) ∧
      (high.skipped.map fun s => (s.category, s.title)).Sublist (low.skipped.map fun s => (s.category, s.title)) ∧
      (text ≠ [] → low.skipped.map (fun s => (s.category, s.title)) =
        (c.entries.filter fun entry => (entry.2.detector.search text.toArray).2.isSome ∨
          n < ((entry.2.detector.search text.toArray).1.length : Int)).map fun entry => (entry.1, entry.2.title)) := by
  obtain ⟨after₁, hlow⟩ := c.audit_eq text file ⟨none, some n⟩ clock₁
  obtain ⟨after₂, hhigh⟩ := c.audit_eq text file ⟨none, m⟩ clock₂
  have hfails (rule : Rule) (hfail : (rule.failure? ⟨none, m⟩ text clock₁).isSome) :
      (rule.failure? ⟨none, some n⟩ text clock₁).isSome := by
    rw [Rule.failure?_isSome_iff rfl] at hfail ⊢
    exact hfail.imp_right (Budget.TooMany.mono fun k hk => ⟨n, rfl, h k hk⟩)
  refine ⟨_, _, after₁, after₂, hlow, hhigh, ?_, ?_, ?_⟩
  · intro i hi
    rw [Gathering.report, Finding.mem_identities_ranked_firsts, List.mem_map] at hi ⊢
    obtain ⟨f, hf, rfl⟩ := hi
    obtain ⟨entry, hentry, hdone, hspan⟩ := (mem_discoveries_timeless rfl c text file clock₁ clock₁).mp hf
    have hstill : entry.2.failure? ⟨none, m⟩ text clock₁ = none := by
      rw [← Option.not_isSome_iff_eq_none] at hdone ⊢
      exact fun hfail => hdone (hfails entry.2 hfail)
    exact ⟨f, (mem_discoveries_timeless rfl c text file clock₂ clock₁).mpr ⟨entry, hentry, hstill, hspan⟩, rfl⟩
  · simp only [Gathering.report]
    split_ifs
    · exact List.Sublist.refl _
    · rw [skipped_keys rfl c text file clock₂ clock₁, skipped_keys rfl c text file clock₁ clock₁]
      exact (List.monotone_filter_right _ fun (entry : String × Rule) => hfails entry.2).map _
  · intro ht
    simp only [Gathering.report, if_neg ht]
    rw [skipped_keys rfl c text file clock₁ clock₁]
    congr 1
    refine List.filter_congr fun entry _ => ?_
    rw [Bool.eq_iff_iff, Rule.failure?_isSome_iff rfl]
    simp [Budget.TooMany]

/-- Two rules of one title, the first of which also finds capitals. -/
def capitalLetters : Catalog :=
  ⟨[⟨"letters", [{ Rule.letter with
    detector := ⟨⟨"b", ⟨true, false, false⟩, ⟨.char (.code .unicode 98), 0⟩, by decide⟩, none⟩
    severity := .high }, Rule.letter]⟩]⟩

/-- The first rule has two matches and is skipped under the lower limit. The second then reports the letter in its
place. -/
theorem audit_of_raised_limit_of_capital :
    (∀ k ∈ (none : Option Int), 1 ≤ k) ∧
    ∃ low high after₁ after₂,
      capitalLetters.audit ['b', 'B'] none ⟨none, some 1⟩ (.ofReadings []) = .ok (low, after₁) ∧
      capitalLetters.audit ['b', 'B'] none ⟨none, none⟩ (.ofReadings []) = .ok (high, after₂) ∧
      (∀ i ∈ low.findings.map Finding.identity, i ∈ high.findings.map Finding.identity) ∧
      (high.skipped.map fun s => (s.category, s.title)).Sublist (low.skipped.map fun s => (s.category, s.title)) ∧
      low.skipped.map (fun s => (s.category, s.title)) = [("letters", "letter")] := by
  have h : ∀ k ∈ (none : Option Int), 1 ≤ k := by simp
  obtain ⟨low, high, after₁, after₂, hlow, hhigh, hfindings, hskipped, hkeys⟩ :=
    audit_of_raised_limit capitalLetters ['b', 'B'] none h (.ofReadings []) (.ofReadings [])
  exact ⟨h, low, high, after₁, after₂, hlow, hhigh, hfindings, hskipped, hkeys (by decide)⟩

end Catalog

end ScriptAudit
