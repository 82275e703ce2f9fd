import ScriptAudit.Proofs.Spans

namespace ScriptAudit.Pattern.Program

variable (p : Program) (text : Subject)

/-- The searches from a place on until one finds nothing or the text is over: how many there are, and the matches that
are handed out. -/
inductive Searches : Nat → Nat → List Span → Prop
  | ended {pos : Nat} (past : text.size < pos) : Searches pos 0 []
  | missed {pos : Nat} (within : pos ≤ text.size) (search : p.search? text pos = none) : Searches pos 1 []
  | dropped {pos count : Nat} {span : Span} {spans : List Span} (within : pos ≤ text.size)
      (search : p.search? text pos = some span) (empty : span.stop = span.start)
      (rest : Searches (span.stop + 1) count spans) : Searches pos (count + 1) spans
  | found {pos count : Nat} {span : Span} {spans : List Span} (within : pos ≤ text.size)
      (search : p.search? text pos = some span) (nonempty : span.stop ≠ span.start)
      (rest : Searches span.stop count spans) : Searches pos (count + 1) (span :: spans)

variable {p text}

/-- The searches go one way only. -/
theorem Searches.unique {pos count count' : Nat} {spans spans' : List Span} (h : p.Searches text pos count spans)
    (h' : p.Searches text pos count' spans') : count = count' ∧ spans = spans' := by
  induction h generalizing count' spans' with
  | ended past =>
    cases h' with
    | ended => exact ⟨rfl, rfl⟩
    | missed within' | dropped within' | found within' => omega
  | missed within search =>
    cases h' with
    | ended past' => omega
    | missed => exact ⟨rfl, rfl⟩
    | dropped _ search' | found _ search' => simp [search] at search'
  | dropped within search empty rest ih =>
    cases h' with
    | ended past' => omega
    | missed _ search' => simp [search] at search'
    | dropped _ search' _ rest' =>
      cases Option.some.inj (search.symm.trans search')
      obtain ⟨rfl, rfl⟩ := ih rest'
      exact ⟨rfl, rfl⟩
    | found _ search' nonempty' =>
      cases Option.some.inj (search.symm.trans search')
      exact absurd empty nonempty'
  | found within search nonempty rest ih =>
    cases h' with
    | ended past' => omega
    | missed _ search' => simp [search] at search'
    | dropped _ search' empty' =>
      cases Option.some.inj (search.symm.trans search')
      exact absurd empty' nonempty
    | found _ search' _ rest' =>
      cases Option.some.inj (search.symm.trans search')
      obtain ⟨rfl, rfl⟩ := ih rest'
      exact ⟨rfl, rfl⟩

variable (p text)

theorem search?_past {pos : Nat} (h : text.size < pos) : p.search? text pos = none := by
  rw [search?, Nat.sub_eq_zero_of_le h, firstFrom?]

/-- Each search moves on by one place at least, so that there are no more of them than places are left. -/
theorem exists_searches {n pos : Nat} (hn : text.size + 1 - pos ≤ n) :
    ∃ count ≤ text.size + 1 - pos, p.Searches text pos count (p.spansFrom text n pos) := by
  induction n generalizing pos with
  | zero => exact ⟨0, Nat.zero_le _, .ended (by omega)⟩
  | succ n ih =>
    rcases Nat.lt_or_ge text.size pos with hpast | hwithin
    · refine ⟨0, Nat.zero_le _, ?_⟩
      rw [spansFrom, p.search?_past text hpast]
      exact .ended hpast
    rw [spansFrom]
    split
    next span hspan =>
      have hb := p.search?_bounds text hspan
      split
      next hempty =>
        have hleft : text.size + 1 - (span.stop + 1) ≤ n := by omega
        obtain ⟨count, hcount, hrest⟩ := ih hleft
        exact ⟨count + 1, by omega, .dropped hwithin hspan hempty.symm hrest⟩
      next hnonempty =>
        have hleft : text.size + 1 - span.stop ≤ n := by omega
        obtain ⟨count, hcount, hrest⟩ := ih hleft
        exact ⟨count + 1, by omega, .found hwithin hspan (Ne.symm hnonempty) hrest⟩
    next hnone => exact ⟨1, by omega, .missed hwithin hnone⟩

/-- A search finds the preferred match at the first place that has one. -/
theorem search?_eq_some_iff {pos : Nat} {span : Span} :
    p.search? text pos = some span ↔
      pos ≤ span.start ∧ span.start ≤ text.size ∧ p.endAt? text span.start = some span.stop ∧
        ∀ q, pos ≤ q → q < span.start → p.endAt? text q = none := by
  constructor
  · intro h
    obtain ⟨hlow, hhigh, hend⟩ := p.firstFrom?_some text h
    exact ⟨hlow, by omega, hend, fun q hq hlt => p.endAt?_before_firstFrom? text h hq hlt⟩
  · rintro ⟨hlow, hhigh, hend, hnone⟩
    cases hsearch : p.search? text pos with
    | none =>
      have hmiss := p.endAt?_of_firstFrom?_none text hsearch hlow (by omega)
      simp [hend] at hmiss
    | some other =>
      obtain ⟨hlow', _, hend'⟩ := p.firstFrom?_some text hsearch
      have hbefore (q : Nat) (hq : pos ≤ q) (hlt : q < other.start) : p.endAt? text q = none :=
        p.endAt?_before_firstFrom? text hsearch hq hlt
      -- Neither of the two matches can come before the other.
      have hstart : other.start = span.start := by
        rcases Nat.lt_trichotomy other.start span.start with hlt | heq | hgt
        · simp [hnone other.start hlow' hlt] at hend'
        · exact heq
        · simp [hbefore span.start hlow hgt] at hend
      rw [hstart, hend, Option.some.injEq] at hend'
      cases other
      cases span
      simp_all

/-- The matches of a program. A search finds the preferred match at the first place that has one. From the beginning of
a text the searches come to an end, and what they hand out are not empty, preferred matches from left to right,
without overlap. Every place where the preferred match is not empty is the beginning of one of them or lies inside
one. -/
theorem spans_of_searches :
    (∀ pos span, p.search? text pos = some span ↔
      pos ≤ span.start ∧ span.start ≤ text.size ∧ p.endAt? text span.start = some span.stop ∧
        ∀ q, pos ≤ q → q < span.start → p.endAt? text q = none) ∧
    (∃ last ≤ text.size + 1, ∀ count spans, p.Searches text 0 count spans ↔ count = last ∧ spans = p.spans text) ∧
    (∀ span ∈ p.spans text,
      span.start < span.stop ∧ span.stop ≤ text.size ∧ p.endAt? text span.start = some span.stop) ∧
    (p.spans text).Pairwise (fun a b => a.stop ≤ b.start) ∧
    ∀ q ≤ text.size, ∀ stop, p.endAt? text q = some stop → q ≠ stop →
      ∃ span ∈ p.spans text, q = span.start ∨ span.start < q ∧ q < span.stop := by
  refine ⟨fun pos span => p.search?_eq_some_iff text, ?_, ?_, p.spans_pairwise text, ?_⟩
  · obtain ⟨last, hlast, hsearches⟩ := p.exists_searches text (Nat.le_refl (text.size + 1 - 0))
    refine ⟨last, hlast, fun count spans => ⟨fun h => h.unique hsearches, ?_⟩⟩
    rintro ⟨rfl, rfl⟩
    exact hsearches
  · intro span hspan
    obtain ⟨hstart, hstop⟩ := p.spans_bounds text hspan
    exact ⟨hstart, hstop, p.endAt?_of_mem_spans text hspan⟩
  · intro q hq stop hend hne
    have hle := (p.endAt?_bounds text hq hend).1
    obtain ⟨span, hspan, hstart, hstop⟩ := p.spans_cover text hq hend (by omega)
    refine ⟨span, hspan, ?_⟩
    omega

end ScriptAudit.Pattern.Program
