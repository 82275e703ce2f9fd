import Mathlib.Data.List.Nodup
import Mathlib.Order.Nat
import ScriptAudit.Report.Finding

namespace ScriptAudit

theorem Severity.rank_injective {s t : Severity} (h : s.rank = t.rank) : s = t := by
  cases s <;> cases t <;> simp_all [Severity.rank]

namespace Finding

namespace Rank

variable {a b c : Rank}

/-- The keys count one after the other, each only among what the earlier ones leave equal. -/
theorem le_iff : a.le b = true ↔ b.severity.rank < a.severity.rank ∨ a.severity = b.severity ∧
    (a.line < b.line ∨ a.line = b.line ∧
      (a.category < b.category ∨ a.category = b.category ∧ a.column ≤ b.column)) := by
  unfold le
  split_ifs with hs hl hc <;> simp_all

theorem le_trans (hab : a.le b = true) (hbc : b.le c = true) : a.le c = true := by
  rw [le_iff] at hab hbc ⊢
  rcases hab with hab | ⟨hs, hab⟩
  · rcases hbc with hbc | ⟨hs', _⟩
    · exact .inl (hbc.trans hab)
    · exact .inl (hs' ▸ hab)
  rcases hbc with hbc | ⟨hs', hbc⟩
  · exact .inl (hs ▸ hbc)
  refine .inr ⟨hs.trans hs', ?_⟩
  rcases hab with hab | ⟨hl, hab⟩
  · rcases hbc with hbc | ⟨hl', _⟩ <;> exact .inl (by omega)
  rcases hbc with hbc | ⟨hl', hbc⟩
  · exact .inl (by omega)
  refine .inr ⟨hl.trans hl', ?_⟩
  rcases hab with hab | ⟨hc, hab⟩
  · rcases hbc with hbc | ⟨hc', _⟩
    · exact .inl (String.lt_trans hab hbc)
    · exact .inl (hc' ▸ hab)
  rcases hbc with hbc | ⟨hc', hbc⟩
  · exact .inl (hc ▸ hbc)
  · exact .inr ⟨hc.trans hc', by omega⟩

theorem le_total (a b : Rank) : a.le b = true ∨ b.le a = true := by
  rw [le_iff, le_iff]
  rcases Nat.lt_trichotomy a.severity.rank b.severity.rank with hs | hs | hs
  · exact .inr (.inl hs)
  · have hs := Severity.rank_injective hs
    rcases Int.lt_trichotomy a.line b.line with hl | hl | hl
    · exact .inl (.inr ⟨hs, .inl hl⟩)
    · by_cases hc : a.category = b.category
      · rcases Int.le_total a.column b.column with hcol | hcol
        · exact .inl (.inr ⟨hs, .inr ⟨hl, .inr ⟨hc, hcol⟩⟩⟩)
        · exact .inr (.inr ⟨hs.symm, .inr ⟨hl.symm, .inr ⟨hc.symm, hcol⟩⟩⟩)
      · by_cases hlt : a.category < b.category
        · exact .inl (.inr ⟨hs, .inr ⟨hl, .inl hlt⟩⟩)
        · have hgt : b.category < a.category := by
            by_contra hge
            exact hc (String.le_antisymm hge hlt)
          exact .inr (.inr ⟨hs.symm, .inr ⟨hl.symm, .inl hgt⟩⟩)
    · exact .inr (.inr ⟨hs.symm, .inl hl⟩)
  · exact .inl (.inl hs)

theorem le_refl (a : Rank) : a.le a = true := or_self_iff.mp (le_total a a)

theorem le_antisymm (hab : a.le b = true) (hba : b.le a = true) : a = b := by
  rw [le_iff] at hab hba
  have hs : a.severity = b.severity := by
    rcases hab with hab | hab
    · rcases hba with hba | hba
      · omega
      · exact hba.1.symm
    · exact hab.1
  simp only [hs, Nat.lt_irrefl, false_or, true_and] at hab hba
  have hl : a.line = b.line := by
    rcases hab with hab | hab
    · rcases hba with hba | hba <;> omega
    · exact hab.1
  simp only [hl, Int.lt_irrefl, false_or, true_and] at hab hba
  have hc : a.category = b.category := by
    rcases hab with hab | hab
    · rcases hba with hba | hba
      · exact absurd hba (String.lt_asymm hab)
      · exact hba.1.symm
    · exact hab.1
  simp only [hc, String.lt_irrefl, false_or, true_and] at hab hba
  obtain ⟨severity, line, category, column⟩ := a
  obtain ⟨severity', line', category', column'⟩ := b
  simp only at hs hl hc hab hba
  simp only [mk.injEq]
  exact ⟨hs, hl, hc, by omega⟩

end Rank

/-- Ranked: no finding stands behind one that it comes before. -/
def Sorted (findings : List Finding) : Prop := findings.Pairwise fun f g => f.rank.le g.rank = true

theorem rank_le_trans (f g h : Finding) (hfg : f.rank.le g.rank = true) (hgh : g.rank.le h.rank = true) :
    f.rank.le h.rank = true := Rank.le_trans hfg hgh

theorem rank_le_total (f g : Finding) : (f.rank.le g.rank || g.rank.le f.rank) = true := by
  simpa using Rank.le_total f.rank g.rank

theorem ranked_sorted (findings : List Finding) : Sorted (ranked findings) :=
  List.pairwise_mergeSort rank_le_trans rank_le_total findings

theorem ranked_perm (findings : List Finding) : (ranked findings).Perm findings := List.mergeSort_perm _ _

@[simp]
theorem mem_ranked {f : Finding} {findings : List Finding} : f ∈ ranked findings ↔ f ∈ findings :=
  (ranked_perm findings).mem_iff

/-- Findings of equal rank keep their order. -/
theorem ranked_filter_rank (findings : List Finding) (k : Rank) :
    (ranked findings).filter (·.rank = k) = findings.filter (·.rank = k) := by
  -- What is in order already is a sublist after a stable sort, and here it has the full length.
  have hsorted : (findings.filter (·.rank = k)).Pairwise fun f g => f.rank.le g.rank = true := by
    refine List.pairwise_of_forall_mem_list ?_
    intro f hf g hg
    have hfk : f.rank = k := by simpa using (List.mem_filter.mp hf).2
    have hgk : g.rank = k := by simpa using (List.mem_filter.mp hg).2
    rw [hfk, hgk]
    exact Rank.le_refl k
  have hsub : (findings.filter (·.rank = k)).Sublist (ranked findings) :=
    List.sublist_mergeSort rank_le_trans rank_le_total hsorted List.filter_sublist
  have hsub' := hsub.filter (·.rank = k)
  rw [List.filter_filter] at hsub'
  simp only [Bool.and_self] at hsub'
  exact (hsub'.eq_of_length ((ranked_perm findings).filter _).length_eq.symm).symm

/-- Ranked lists are equal if they agree at every rank. -/
theorem Sorted.eq_of_filter_rank {l m : List Finding} (hl : Sorted l) (hm : Sorted m)
    (h : ∀ k, l.filter (·.rank = k) = m.filter (·.rank = k)) : l = m := by
  induction l generalizing m with
  | nil =>
    rw [eq_comm, List.eq_nil_iff_forall_not_mem]
    intro g hg
    have hin : g ∈ m.filter (·.rank = g.rank) := List.mem_filter.mpr ⟨hg, by simp⟩
    rw [← h g.rank] at hin
    simp at hin
  | cons f l ih =>
    have hmem (k : Rank) (x : Finding) : x ∈ f :: l ∧ x.rank = k ↔ x ∈ m ∧ x.rank = k := by
      simpa only [List.mem_filter, decide_eq_true_eq] using iff_of_eq (congrArg (x ∈ ·) (h k))
    cases m with
    | nil => exact absurd ((hmem f.rank f).mp ⟨List.mem_cons_self, rfl⟩).1 List.not_mem_nil
    | cons g m =>
      -- Both heads are first in their lists, so they have the same rank, and at that rank they are the first.
      have hfg : f.rank = g.rank := by
        apply Rank.le_antisymm
        · rcases List.mem_cons.mp ((hmem g.rank g).mpr ⟨List.mem_cons_self, rfl⟩).1 with rfl | hg
          · exact Rank.le_refl _
          · exact (List.pairwise_cons.mp hl).1 g hg
        · rcases List.mem_cons.mp ((hmem f.rank f).mp ⟨List.mem_cons_self, rfl⟩).1 with rfl | hf
          · exact Rank.le_refl _
          · exact (List.pairwise_cons.mp hm).1 f hf
      have hhead : f = g := by
        have h := h f.rank
        rw [List.filter_cons_of_pos (by simp), List.filter_cons_of_pos (by simp [hfg])] at h
        exact (List.cons.inj h).1
      subst hhead
      refine congrArg (List.cons f) (ih (List.pairwise_cons.mp hl).2 (List.pairwise_cons.mp hm).2 ?_)
      intro k
      have h := h k
      by_cases hk : f.rank = k
      · rw [List.filter_cons_of_pos (by simpa using hk), List.filter_cons_of_pos (by simpa using hk)] at h
        exact (List.cons.inj h).2
      · rwa [List.filter_cons_of_neg (by simpa using hk), List.filter_cons_of_neg (by simpa using hk)] at h

/-- Ranking makes lists equal that agree at every rank. -/
theorem ranked_congr {l m : List Finding} (h : ∀ k, l.filter (·.rank = k) = m.filter (·.rank = k)) :
    ranked l = ranked m := by
  refine (ranked_sorted l).eq_of_filter_rank (ranked_sorted m) ?_
  intro k
  rw [ranked_filter_rank, ranked_filter_rank, h k]

/-- A rank belongs to one category, so it is enough that the lists agree in every category. -/
theorem ranked_congr_category {l m : List Finding}
    (h : ∀ name, l.filter (·.category = name) = m.filter (·.category = name)) : ranked l = ranked m := by
  have hrank (l : List Finding) (k : Rank) :
      l.filter (·.rank = k) = (l.filter (·.category = k.category)).filter (·.rank = k) := by
    rw [List.filter_filter]
    refine List.filter_congr ?_
    intro f _
    by_cases hk : f.rank = k
    · simp [← hk, rank]
    · simp [hk]
  apply ranked_congr
  intro k
  rw [hrank l, hrank m, h]

/-- Leaving findings out before or after ranking makes no difference. -/
theorem ranked_filter (p : Finding → Bool) (findings : List Finding) :
    (ranked findings).filter p = ranked (findings.filter p) := by
  refine Sorted.eq_of_filter_rank ((ranked_sorted findings).filter p) (ranked_sorted _) ?_
  intro k
  rw [List.filter_filter, ranked_filter_rank, List.filter_filter]
  simp only [Bool.and_comm]
  rw [← List.filter_filter, ranked_filter_rank, ← List.filter_filter]

section Firsts

variable {f : Finding} {findings : List Finding} {name : String}

theorem firsts_sublist (findings : List Finding) : (firsts findings).Sublist findings := by
  induction findings with
  | nil => exact List.Sublist.refl _
  | cons f rest ih => exact (List.filter_sublist.trans ih).cons_cons f

theorem mem_identities_firsts (i : Identity) :
    i ∈ (firsts findings).map identity ↔ i ∈ findings.map identity := by
  induction findings with
  | nil => rfl
  | cons f rest ih =>
    rw [firsts, List.map_cons, List.map_cons, List.mem_cons, List.mem_cons, ← ih]
    by_cases hi : i = f.identity
    · simp [hi]
    · simp only [hi, false_or, List.mem_map, List.mem_filter, decide_eq_true_eq]
      constructor
      · rintro ⟨g, ⟨hg, _⟩, rfl⟩
        exact ⟨g, hg, rfl⟩
      · rintro ⟨g, hg, rfl⟩
        exact ⟨g, ⟨hg, hi⟩, rfl⟩

theorem nodup_identities_firsts (findings : List Finding) : ((firsts findings).map identity).Nodup := by
  induction findings with
  | nil => exact List.nodup_nil
  | cons f rest ih =>
    rw [firsts, List.map_cons, List.nodup_cons]
    refine ⟨?_, ih.sublist (List.filter_sublist.map identity)⟩
    rw [List.mem_map]
    rintro ⟨g, hg, heq⟩
    exact absurd heq (by simpa using (List.mem_filter.mp hg).2)

/-- What is kept is the first of its identity. -/
theorem find?_of_mem_firsts (h : f ∈ firsts findings) :
    findings.find? (·.identity = f.identity) = some f := by
  induction findings with
  | nil => exact absurd h List.not_mem_nil
  | cons g rest ih =>
    rcases List.mem_cons.mp h with rfl | h
    · simp
    · obtain ⟨hmem, hne⟩ := List.mem_filter.mp h
      rw [List.find?_cons_of_neg (by simpa using Ne.symm (of_decide_eq_true hne))]
      exact ih hmem

/-- Leaving whole identities out before or after makes no difference. -/
theorem firsts_filter (p : Identity → Bool) (findings : List Finding) :
    (firsts findings).filter (fun f => p f.identity) = firsts (findings.filter fun f => p f.identity) := by
  induction findings with
  | nil => rfl
  | cons f rest ih =>
    rw [firsts, List.filter_cons, List.filter_cons]
    by_cases hp : p f.identity = true
    · rw [if_pos hp, if_pos hp, firsts, ← ih, List.filter_filter, List.filter_filter]
      simp only [Bool.and_comm]
    · rw [if_neg hp, if_neg hp, ← ih, List.filter_filter]
      refine List.filter_congr ?_
      intro g _
      by_cases hg : g.identity = f.identity
      · simp [hg, hp]
      · simp [hg]

/-- Of a later list only those identities are kept that the earlier one does not have. -/
theorem firsts_append (earlier later : List Finding) :
    firsts (earlier ++ later) =
      firsts earlier ++ (firsts later).filter fun f => f.identity ∉ earlier.map identity := by
  induction earlier with
  | nil => simp [firsts]
  | cons f rest ih =>
    rw [List.cons_append, firsts, firsts, ih, List.filter_append, List.filter_filter, List.cons_append]
    congr 2
    refine List.filter_congr ?_
    intro g _
    by_cases hg : g.identity = f.identity <;> simp [hg]

theorem mem_identities_ranked_firsts (i : Identity) :
    i ∈ (ranked (firsts findings)).map identity ↔ i ∈ findings.map identity := by
  rw [((ranked_perm _).map identity).mem_iff, mem_identities_firsts]

theorem firsts_filter_category (findings : List Finding) (name : String) :
    (firsts findings).filter (·.category = name) = firsts (findings.filter (·.category = name)) :=
  firsts_filter (fun i => i.category = name) findings

/-- Identities of different categories are different, so that a category can be looked at alone. -/
theorem mem_identities_category (hname : f.category = name) :
    f.identity ∈ (findings.filter (·.category = name)).map identity ↔ f.identity ∈ findings.map identity := by
  simp only [List.mem_map, List.mem_filter, decide_eq_true_eq]
  constructor
  · rintro ⟨g, ⟨hg, _⟩, hid⟩
    exact ⟨g, hg, hid⟩
  · rintro ⟨g, hg, hid⟩
    exact ⟨g, ⟨hg, (congrArg Identity.category hid).trans hname⟩, hid⟩

/-- Where in every category the findings `b` follow the findings `a`, the report is that of `a` and, of what is
reported of `b`, the identities that `a` does not have. -/
theorem ranked_firsts_of_category_append {l a b : List Finding}
    (h : ∀ name, l.filter (·.category = name) = a.filter (·.category = name) ++ b.filter (·.category = name)) :
    (ranked (firsts l)).filter (fun f => f.identity ∈ a.map identity) = ranked (firsts a) ∧
      (ranked (firsts l)).filter (fun f => f.identity ∉ a.map identity) =
        (ranked (firsts b)).filter (fun f => f.identity ∉ a.map identity) := by
  have hcategory (name : String) : (firsts l).filter (·.category = name) =
      (firsts a).filter (·.category = name) ++
        ((firsts b).filter (·.category = name)).filter (fun f => f.identity ∉ a.map identity) := by
    rw [firsts_filter_category, h, firsts_append, firsts_filter_category, firsts_filter_category]
    congr 1
    refine List.filter_congr ?_
    intro f hf
    have hname : f.category = name := by
      simpa using (List.mem_filter.mp ((firsts_sublist _).subset hf)).2
    simp only [mem_identities_category hname]
  have hown (name : String) : ∀ f ∈ (firsts a).filter (·.category = name), f.identity ∈ a.map identity := by
    intro f hf
    exact List.mem_map_of_mem ((firsts_sublist a).subset (List.mem_filter.mp hf).1)
  rw [ranked_filter, ranked_filter, ranked_filter]
  constructor
  · apply ranked_congr_category
    intro name
    have hkept : ((firsts a).filter (·.category = name)).filter (fun f => f.identity ∈ a.map identity) =
        (firsts a).filter (·.category = name) := List.filter_eq_self.mpr fun f hf => by simpa using hown name f hf
    have hgone : (((firsts b).filter (·.category = name)).filter (fun f => f.identity ∉ a.map identity)).filter
        (fun f => f.identity ∈ a.map identity) = [] :=
      List.filter_eq_nil_iff.mpr fun f hf => by simpa using (List.mem_filter.mp hf).2
    rw [List.filter_comm, hcategory, List.filter_append, hkept, hgone, List.append_nil]
  · apply ranked_congr_category
    intro name
    have hgone : ((firsts a).filter (·.category = name)).filter (fun f => f.identity ∉ a.map identity) = [] :=
      List.filter_eq_nil_iff.mpr fun f hf => by simpa using hown name f hf
    rw [List.filter_comm, hcategory, List.filter_append, hgone, List.nil_append, List.filter_filter]
    simp only [Bool.and_self]
    rw [List.filter_comm]

end Firsts

end Finding

end ScriptAudit
