import ScriptAudit.Proofs.Matching

namespace ScriptAudit.Pattern.Program

variable (p : Program) (text : Subject)

theorem endAt?_of_firstFrom?_none {n pos : Nat} (h : p.firstFrom? text n pos = none) {q : Nat} (hlow : pos ≤ q)
    (hhigh : q < pos + n) : p.endAt? text q = none := by
  induction n generalizing pos with
  | zero => omega
  | succ n ih =>
    rw [firstFrom?] at h
    split at h
    next => exact absurd h (by simp)
    next hnone =>
      rcases Nat.eq_or_lt_of_le hlow with rfl | hlt
      · exact hnone
      · exact ih h hlt (by omega)

/-- The first match leaves none behind. -/
theorem endAt?_before_firstFrom? {n pos : Nat} {span : Span} (h : p.firstFrom? text n pos = some span) {q : Nat}
    (hlow : pos ≤ q) (hhigh : q < span.start) : p.endAt? text q = none := by
  induction n generalizing pos with
  | zero => exact absurd h (by simp [firstFrom?])
  | succ n ih =>
    rw [firstFrom?] at h
    split at h
    next =>
      cases h
      exact absurd hlow (by simpa using hhigh)
    next hnone =>
      rcases Nat.eq_or_lt_of_le hlow with rfl | hlt
      · exact hnone
      · exact ih h hlt

theorem endAt?_of_mem_spansFrom {n pos : Nat} {span : Span} (h : span ∈ p.spansFrom text n pos) :
    p.endAt? text span.start = some span.stop := by
  induction n generalizing pos with
  | zero => exact absurd h (by simp [spansFrom])
  | succ n ih =>
    rw [spansFrom] at h
    split at h
    next first hfirst =>
      split at h
      · exact ih h
      · rcases List.mem_cons.mp h with rfl | h
        · exact (p.firstFrom?_some text hfirst).2.2
        · exact ih h
    next => exact absurd h (by simp)

/-- Where a match is not empty, the search stops at it or is already inside an earlier one. -/
theorem spansFrom_cover {n pos : Nat} (hn : text.size + 1 - pos ≤ n) {q stop : Nat} (hpos : pos ≤ q)
    (hq : q ≤ text.size) (hend : p.endAt? text q = some stop) (hne : q < stop) :
    ∃ span ∈ p.spansFrom text n pos, span.start ≤ q ∧ q < span.stop := by
  induction n generalizing pos with
  | zero => omega
  | succ n ih =>
    rw [spansFrom]
    split
    next first hfirst =>
      have hb := p.search?_bounds text hfirst
      have hstart : first.start ≤ q := by
        by_contra hlt
        have hnone := p.endAt?_before_firstFrom? text hfirst hpos (by omega)
        rw [hend] at hnone
        exact absurd hnone (by simp)
      split
      next hempty =>
        -- The match at `q` is another one than the empty match that was passed over.
        have hother : first.start ≠ q := by
          intro heq
          have hfound := (p.firstFrom?_some text hfirst).2.2
          rw [heq, hend, Option.some.injEq] at hfound
          omega
        exact ih (by omega) (by omega)
      next =>
        by_cases hinside : q < first.stop
        · exact ⟨first, List.mem_cons_self, hstart, hinside⟩
        · obtain ⟨span, hspan, hin⟩ := ih (by omega : text.size + 1 - first.stop ≤ n) (by omega)
          exact ⟨span, List.mem_cons_of_mem _ hspan, hin⟩
    next hnone =>
      have hmiss := p.endAt?_of_firstFrom?_none text hnone hpos (by omega)
      rw [hend] at hmiss
      exact absurd hmiss (by simp)

theorem endAt?_of_mem_spans {span : Span} (h : span ∈ p.spans text) :
    p.endAt? text span.start = some span.stop := p.endAt?_of_mem_spansFrom text h

theorem spans_cover {q stop : Nat} (hq : q ≤ text.size) (hend : p.endAt? text q = some stop) (hne : q < stop) :
    ∃ span ∈ p.spans text, span.start ≤ q ∧ q < span.stop :=
  p.spansFrom_cover text (by omega) (Nat.zero_le q) hq hend hne

/-- Where matches are never empty and never overlap, the search passes none of them over. -/
theorem mem_spans_iff_of_apart (hbounds : ∀ {q stop}, p.endAt? text q = some stop → q < stop ∧ stop ≤ text.size)
    (hapart : ∀ {q stop r stop'}, p.endAt? text q = some stop → p.endAt? text r = some stop' → q < r → stop ≤ r)
    {span : Span} : span ∈ p.spans text ↔ p.endAt? text span.start = some span.stop := by
  constructor
  · exact p.endAt?_of_mem_spans text
  · intro hend
    have hb := hbounds hend
    obtain ⟨found, hfound, hstart, hinside⟩ := p.spans_cover text (by omega) hend hb.1
    have hendFound := p.endAt?_of_mem_spans text hfound
    -- The match that the search is in at this place is the one that begins here.
    have hsame : found.start = span.start := by
      by_contra hne
      have hle := hapart hendFound hend (by omega)
      omega
    rw [hsame, hend, Option.some.injEq] at hendFound
    have heq : span = found := by
      cases span
      cases found
      simp_all
    exact heq ▸ hfound

end ScriptAudit.Pattern.Program
