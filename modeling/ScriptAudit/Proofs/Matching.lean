import Mathlib.Order.Defs.PartialOrder
import Mathlib.Order.Nat
import ScriptAudit.Pattern.Match

namespace ScriptAudit.Pattern

/-- The continuation gives `r` at a place that lies at or behind `s`, and within the text. -/
def Reaches (text : Subject) (s : State) (k : Continuation) (r : State) : Prop :=
  ∃ t : State, s.pos ≤ t.pos ∧ t.pos ≤ text.size ∧ k t = some r

namespace Reaches

variable {text : Subject} {s t r : State} {k : Continuation}

theorem here (hs : s.pos ≤ text.size) (h : k s = some r) : Reaches text s k r := ⟨s, le_refl _, hs, h⟩

theorem from_later (hst : s.pos ≤ t.pos) (h : Reaches text t k r) : Reaches text s k r := by
  obtain ⟨u, htu, hu, hk⟩ := h
  exact ⟨u, hst.trans htu, hu, hk⟩

end Reaches

/-- A way of matching that never moves back and never leaves the text. -/
def Forward (text : Subject) (step : State → Continuation → Option State) : Prop :=
  ∀ (s : State) (k : Continuation) (r : State), s.pos ≤ text.size → step s k = some r → Reaches text s k r

/-- The same for a step that stops at its first success. -/
theorem Forward.bounds {text : Subject} {step : State → Continuation → Option State} (hf : Forward text step)
    {s t : State} (hs : s.pos ≤ text.size) (h : step s some = some t) : s.pos ≤ t.pos ∧ t.pos ≤ text.size := by
  obtain ⟨u, hsu, hu, hk⟩ := hf s some t hs h
  cases hk
  exact ⟨hsu, hu⟩

theorem runLength_bounds (text : Subject) (test : CharTest) (limit pos count : Nat) (hp : pos ≤ text.size) :
    count ≤ runLength text test pos count limit ∧
      pos + runLength text test pos count limit ≤ text.size + count := by
  induction limit generalizing pos count with
  | zero => exact ⟨le_refl _, by simp only [runLength]; omega⟩
  | succ limit ih =>
    rw [runLength]
    split
    next c hc =>
      have hlt : pos < text.size := (Array.getElem?_eq_some_iff.mp hc).1
      split
      · have h := ih (pos + 1) (count + 1) (by omega)
        omega
      · omega
    next => omega

theorem repeatsAt_bounds (text : Subject) (folding : Folding) (source pos length : Nat) (hp : pos ≤ text.size)
    (h : repeatsAt text folding source pos length = true) : pos + length ≤ text.size := by
  induction length generalizing source pos with
  | zero => exact hp
  | succ length ih =>
    rw [repeatsAt] at h
    split at h
    next a b ha hb =>
      have hlt : pos < text.size := (Array.getElem?_eq_some_iff.mp hb).1
      have hrest := ih (source + 1) (pos + 1) (by omega) ((Bool.and_eq_true _ _).mp h).2
      omega
    next => exact absurd h (by simp)

theorem descend_some (attempt : Nat → Option State) (base extra : Nat) (r : State)
    (h : descend attempt base extra = some r) : ∃ n, base ≤ n ∧ n ≤ base + extra ∧ attempt n = some r := by
  induction extra with
  | zero => exact ⟨base, le_refl _, by omega, h⟩
  | succ extra ih =>
    rw [descend] at h
    split at h
    next t ht => exact ⟨base + (extra + 1), by omega, le_refl _, ht.trans h⟩
    next =>
      obtain ⟨n, hlow, hhigh, hn⟩ := ih h
      exact ⟨n, hlow, by omega, hn⟩

theorem ascend_some (attempt : Nat → Option State) (base extra : Nat) (r : State)
    (h : ascend attempt base extra = some r) : ∃ n, base ≤ n ∧ n ≤ base + extra ∧ attempt n = some r := by
  induction extra generalizing base with
  | zero => exact ⟨base, le_refl _, by omega, h⟩
  | succ extra ih =>
    rw [ascend] at h
    split at h
    next t ht => exact ⟨base, le_refl _, by omega, ht.trans h⟩
    next =>
      obtain ⟨n, hlow, hhigh, hn⟩ := ih (base + 1) h
      exact ⟨n, by omega, by omega, hn⟩

section Rounds

variable {text : Subject} {step : State → Continuation → Option State}

theorem times_forward (hf : Forward text step) (n : Nat) : Forward text (times step n) := by
  induction n with
  | zero => exact fun s k r hs h => .here hs h
  | succ n ih =>
    intro s k r hs h
    obtain ⟨t, hst, ht, hk⟩ := hf s _ r hs h
    exact .from_later hst (ih t k r ht hk)

theorem moreRounds_forward (hf : Forward text step) (n : Nat) (last : Option Nat) :
    Forward text (moreRounds step n last) := by
  induction n generalizing last with
  | zero => exact fun s k r hs h => .here hs h
  | succ n ih =>
    intro s k r hs h
    rw [moreRounds] at h
    split at h
    -- A round that takes up nothing is the last one.
    · exact .here hs h
    · split at h
      next u hu =>
        obtain ⟨t, hst, ht, hk⟩ := hf s _ u hs hu
        exact .from_later hst (ih _ t k r ht (hk.trans h))
      next => exact .here hs h

theorem fewerRounds_forward (hf : Forward text step) (n : Nat) (last : Option Nat) :
    Forward text (fewerRounds step n last) := by
  induction n generalizing last with
  | zero => exact fun s k r hs h => .here hs h
  | succ n ih =>
    intro s k r hs h
    rw [fewerRounds] at h
    split at h
    next t ht => exact .here hs (ht.trans h)
    next =>
      split at h
      · exact absurd h (by simp)
      · obtain ⟨t, hst, ht, hk⟩ := hf s _ r hs h
        exact .from_later hst (ih _ t k r ht hk)

theorem exactRounds_bounds (hf : Forward text step) (n : Nat) (s t : State) (hs : s.pos ≤ text.size)
    (h : exactRounds (fun s => step s some) n s = some t) : s.pos ≤ t.pos ∧ t.pos ≤ text.size := by
  induction n generalizing s with
  | zero =>
    cases h
    exact ⟨le_refl _, hs⟩
  | succ n ih =>
    rw [exactRounds] at h
    split at h
    next u hu =>
      have hsu := hf.bounds hs hu
      have hut := ih u hsu.2 h
      omega
    next => exact absurd h (by simp)

theorem allRounds_bounds (hf : Forward text step) (n : Nat) (s : State) (hs : s.pos ≤ text.size) :
    s.pos ≤ (allRounds (fun s => step s some) n s).pos ∧
      (allRounds (fun s => step s some) n s).pos ≤ text.size := by
  induction n generalizing s with
  | zero => exact ⟨le_refl _, hs⟩
  | succ n ih =>
    rw [allRounds]
    split
    next t ht =>
      have hst := hf.bounds hs ht
      split
      · exact hst
      · have h := ih t hst.2
        omega
    next => exact ⟨le_refl _, hs⟩

end Rounds

theorem run_forward (text : Subject) (greed : Greed) (least : Nat) (most : Option Nat) (test : CharTest) :
    Forward text ((Expr.run greed least most test).matching? text) := by
  intro s k r hs h
  unfold Expr.matching? at h
  extract_lets room count at h
  have hcount : s.pos + count ≤ text.size := (runLength_bounds text test _ s.pos 0 hs).2
  have hat (n : Nat) (hn : n ≤ count) (hk : k (s.advance n) = some r) : Reaches text s k r :=
    ⟨s.advance n, Nat.le_add_right _ _, by simp only [State.advance]; omega, hk⟩
  split at h
  · exact absurd h (by simp)
  · cases greed with
    | greedy =>
      obtain ⟨n, _, hn, hk⟩ := descend_some _ _ _ _ h
      exact hat n (by omega) hk
    | «lazy» =>
      obtain ⟨n, _, hn, hk⟩ := ascend_some _ _ _ _ h
      exact hat n (by omega) hk
    | possessive => exact hat count (le_refl _) h

theorem repeated_forward (text : Subject) (greed : Greed) (least : Nat) (most : Option Nat) (body : Expr)
    (hf : Forward text (body.matching? text)) :
    Forward text ((Expr.repeated greed least most body).matching? text) := by
  intro s k r hs h
  unfold Expr.matching? at h
  cases greed with
  | greedy =>
    obtain ⟨t, hst, ht, hk⟩ := times_forward hf least s _ r hs h
    exact .from_later hst (moreRounds_forward hf _ none t k r ht hk)
  | «lazy» =>
    obtain ⟨t, hst, ht, hk⟩ := times_forward hf least s _ r hs h
    exact .from_later hst (fewerRounds_forward hf _ none t k r ht hk)
  | possessive =>
    simp only at h
    split at h
    next t ht =>
      have hst := exactRounds_bounds hf least s t hs ht
      have hall := allRounds_bounds hf (extraRounds least most (text.size - t.pos)) t hst.2
      exact ⟨_, hst.1.trans hall.1, hall.2, h⟩
    next => exact absurd h (by simp)

/-- No expression moves back or leaves the text, whatever it looks at. -/
theorem matching?_forward (text : Subject) (e : Expr) : Forward text (e.matching? text) := by
  induction e with
  | empty => exact fun s k r hs h => .here hs h
  | char test =>
    intro s k r hs h
    rw [Expr.matching?] at h
    split at h
    next c hc =>
      have hlt : s.pos < text.size := (Array.getElem?_eq_some_iff.mp hc).1
      split at h
      · exact ⟨s.advance 1, Nat.le_add_right _ _, hlt, h⟩
      · exact absurd h (by simp)
    next => exact absurd h (by simp)
  | anchor place =>
    intro s k r hs h
    rw [Expr.matching?] at h
    split at h
    · exact .here hs h
    · exact absurd h (by simp)
  | seq first second ih₁ ih₂ =>
    intro s k r hs h
    obtain ⟨t, hst, ht, hk⟩ := ih₁ s _ r hs h
    exact .from_later hst (ih₂ t k r ht hk)
  | either first second ih₁ ih₂ =>
    intro s k r hs h
    rw [Expr.matching?] at h
    split at h
    next t ht => exact ih₁ s k r hs (ht.trans h)
    next => exact ih₂ s k r hs h
  | run greed least most test => exact run_forward text greed least most test
  | repeated greed least most body ih => exact repeated_forward text greed least most body ih
  | group index body ih =>
    intro s k r hs h
    obtain ⟨t, hst, ht, hk⟩ := ih (s.openGroup index) _ r hs h
    exact ⟨t.closeGroup index, hst, ht, hk⟩
  | atomic body ih =>
    intro s k r hs h
    rw [Expr.matching?] at h
    split at h
    next t ht =>
      have hst := ih.bounds hs ht
      exact ⟨t, hst.1, hst.2, h⟩
    next => exact absurd h (by simp)
  | look behind positive body ih =>
    intro s k r hs h
    rw [Expr.matching?] at h
    generalize (if behind.getD 0 ≤ s.pos then _ else none) = found at h
    split at h
    · cases found with
      -- The groups of the body are kept, but the place is the old one.
      | some t => exact ⟨{ s with marks := t.marks }, le_refl _, hs, h⟩
      | none => exact absurd h (by simp)
    · split at h
      · exact absurd h (by simp)
      · exact .here hs h
  | again folding index =>
    intro s k r hs h
    rw [Expr.matching?] at h
    split at h
    next opened closed _ =>
      split at h
      next hr =>
        have hend := repeatsAt_bounds text folding opened s.pos (closed - opened) hs hr
        exact ⟨s.advance (closed - opened), Nat.le_add_right _ _, hend, h⟩
      next => exact absurd h (by simp)
    next => exact absurd h (by simp)
  | branch index matched unmatched ih₁ ih₂ =>
    intro s k r hs h
    rw [Expr.matching?] at h
    split at h
    · exact ih₁ s k r hs h
    · exact ih₂ s k r hs h

namespace Program

variable (p : Program) (text : Subject)

theorem endAt?_bounds {pos stop : Nat} (hp : pos ≤ text.size) (h : p.endAt? text pos = some stop) :
    pos ≤ stop ∧ stop ≤ text.size := by
  obtain ⟨t, ht, rfl⟩ := Option.map_eq_some_iff.mp h
  exact (matching?_forward text p.expr).bounds hp ht

theorem firstFrom?_some {n pos : Nat} {span : Span} (h : p.firstFrom? text n pos = some span) :
    pos ≤ span.start ∧ span.start < pos + n ∧ p.endAt? text span.start = some span.stop := by
  induction n generalizing pos with
  | zero => exact absurd h (by simp [firstFrom?])
  | succ n ih =>
    rw [firstFrom?] at h
    split at h
    next stop hstop =>
      cases h
      exact ⟨le_refl _, by simp, hstop⟩
    next =>
      obtain ⟨hlow, hhigh, hend⟩ := ih h
      exact ⟨by omega, by omega, hend⟩

theorem search?_bounds {pos : Nat} {span : Span} (h : p.search? text pos = some span) :
    pos ≤ span.start ∧ span.start ≤ span.stop ∧ span.stop ≤ text.size := by
  obtain ⟨hlow, hhigh, hend⟩ := p.firstFrom?_some text h
  have hbounds := p.endAt?_bounds text (by omega) hend
  exact ⟨hlow, hbounds.1, hbounds.2⟩

theorem spansFrom_bounds {n pos : Nat} {span : Span} (h : span ∈ p.spansFrom text n pos) :
    pos ≤ span.start ∧ span.start < span.stop ∧ span.stop ≤ text.size := by
  induction n generalizing pos with
  | zero => exact absurd h (by simp [spansFrom])
  | succ n ih =>
    rw [spansFrom] at h
    split at h
    next first hfirst =>
      have hb := p.search?_bounds text hfirst
      split at h
      -- An empty match is passed over.
      · have hi := ih h
        omega
      · rcases List.mem_cons.mp h with rfl | h
        · omega
        · have hi := ih h
          omega
    next => exact absurd h (by simp)

theorem spansFrom_pairwise (n pos : Nat) : (p.spansFrom text n pos).Pairwise fun a b => a.stop ≤ b.start := by
  induction n generalizing pos with
  | zero => simp [spansFrom]
  | succ n ih =>
    rw [spansFrom]
    split
    next first _ =>
      split
      · exact ih _
      · exact List.pairwise_cons.mpr ⟨fun b hb => (p.spansFrom_bounds text hb).1, ih _⟩
    next => exact List.Pairwise.nil

/-- Matches are not empty, and they lie within the text. -/
theorem spans_bounds {span : Span} (h : span ∈ p.spans text) : span.start < span.stop ∧ span.stop ≤ text.size :=
  (p.spansFrom_bounds text h).2

/-- Matches come from left to right and do not overlap. -/
theorem spans_pairwise : (p.spans text).Pairwise fun a b => a.stop ≤ b.start := p.spansFrom_pairwise text _ _

theorem spans_increasing : (p.spans text).Pairwise fun a b => a.start < b.start := by
  refine (p.spans_pairwise text).imp_of_mem ?_
  intro a b ha _ hab
  exact (p.spans_bounds text ha).1.trans_le hab

theorem spans_empty : p.spans #[] = [] := by
  rw [List.eq_nil_iff_forall_not_mem]
  intro span h
  have hb := p.spans_bounds #[] h
  simp only [List.size_toArray, List.length_nil] at hb
  omega

end Program

end ScriptAudit.Pattern
