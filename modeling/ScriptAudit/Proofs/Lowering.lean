import Mathlib.Data.List.TakeWhile
import Mathlib.Data.String.Basic
import ScriptAudit.Proofs.Lists
import ScriptAudit.Text.Basic
import ScriptAudit.Text.Case

namespace ScriptAudit.Text

namespace CaseRun

/-- The first and the last letter that a run lowers to. -/
def lowFirst (run : CaseRun) : Nat := (Int.add (Int.ofNat run.first) run.shift).toNat

def lowLast (run : CaseRun) : Nat := (Int.add (Int.ofNat run.last) run.shift).toNat

/-- Seen from the ends of both runs: nothing that one lowers to is a capital of the other. Where they overlap, every
second letter is a capital, and the lowered ones are between them. -/
def avoids (run other : CaseRun) : Bool :=
  Nat.blt run.lowLast other.first || Nat.blt other.last run.lowFirst ||
    other.step == 2 && (run.step == 2 || run.lowFirst == run.lowLast) && (run.lowFirst + other.first) % 2 == 1

/-- Nothing that a run lowers to is an ASCII capital, or falls below the first code point. -/
def avoidsAscii (run : CaseRun) : Bool :=
  decide (0 ≤ (run.first : Int) + run.shift) && (Nat.blt run.lowLast 65 || Nat.blt 90 run.lowFirst)

variable {run other : CaseRun} {code : Nat}

theorem covers_iff :
    run.covers code = true ↔ run.first ≤ code ∧ code ≤ run.last ∧ (code - run.first) % run.step = 0 := by
  simp [covers, and_assoc]

theorem avoidsAscii_iff :
    run.avoidsAscii = true ↔ 0 ≤ (run.first : Int) + run.shift ∧ (run.lowLast < 65 ∨ 90 < run.lowFirst) := by
  simp [avoidsAscii]

section Lowered

variable (hascii : run.avoidsAscii = true) (hcode : run.covers code = true)

include hascii hcode

/-- Lowering keeps the distances from the ends of a run. -/
theorem lowered_bounds :
    ((Int.ofNat code + run.shift).toNat : Int) = code + run.shift ∧
      (run.lowFirst : Int) = run.first + run.shift ∧ (run.lowLast : Int) = run.last + run.shift := by
  obtain ⟨hfirst, hlast, _⟩ := covers_iff.mp hcode
  have hnonneg := (avoidsAscii_iff.mp hascii).1
  refine ⟨Int.toNat_of_nonneg ?_, Int.toNat_of_nonneg hnonneg, Int.toNat_of_nonneg ?_⟩
  · change 0 ≤ (code : Int) + run.shift
    omega
  · change 0 ≤ (run.last : Int) + run.shift
    omega

theorem lowered_not_ascii :
    ¬(65 ≤ (Int.ofNat code + run.shift).toNat ∧ (Int.ofNat code + run.shift).toNat ≤ 90) := by
  obtain ⟨hfirst, hlast, _⟩ := covers_iff.mp hcode
  obtain ⟨hlowered, hlow, hhigh⟩ := lowered_bounds hascii hcode
  have hends := (avoidsAscii_iff.mp hascii).2
  omega

theorem lowered_not_covered (h : run.avoids other = true) :
    other.covers (Int.ofNat code + run.shift).toNat = false := by
  obtain ⟨hfirst, hlast, hstep⟩ := covers_iff.mp hcode
  obtain ⟨hlowered, hlow, hhigh⟩ := lowered_bounds hascii hcode
  rw [Bool.eq_false_iff]
  intro hother
  obtain ⟨hfirst', hlast', hstep'⟩ := covers_iff.mp hother
  simp only [avoids, Bool.and_eq_true, Bool.or_eq_true, Nat.blt_eq, beq_iff_eq] at h
  rcases h with (hbelow | habove) | ⟨⟨htwo, heven⟩, hodd⟩
  · omega
  · omega
  · rw [htwo] at hstep'
    rcases heven with heven | hsingle
    · rw [heven] at hstep
      omega
    · omega

end Lowered

end CaseRun

theorem caseRuns_avoid : (caseRuns.all fun run => caseRuns.all run.avoids) = true := by decide +kernel

theorem caseRuns_avoidAscii : caseRuns.all CaseRun.avoidsAscii = true := by decide +kernel

/-- A code point that is no capital, so that lowering leaves it. -/
def Settled (code : Nat) : Prop :=
  ¬(65 ≤ code ∧ code ≤ 90) ∧ (128 ≤ code → ∀ run ∈ caseRuns, run.covers code = false)

theorem settled_of_lt {code : Nat} (hlt : code < 128) (h : ¬(65 ≤ code ∧ code ≤ 90)) : Settled code :=
  ⟨h, fun hge => absurd hlt (Nat.not_lt.mpr hge)⟩

theorem lowerCode_of_settled {code : Nat} (h : Settled code) : lowerCode code = code := by
  unfold lowerCode
  split
  · have hcapital := h.1
    simp only [lowerAscii, Bool.and_eq_true, decide_eq_true_eq, if_neg hcapital]
  next hge =>
    rw [List.find?_eq_none.mpr (by simpa using h.2 (Nat.not_lt.mp hge))]

/-- What a code point is lowered to is no capital itself. -/
theorem settled_lowerCode (code : Nat) : Settled (lowerCode code) := by
  unfold lowerCode
  split
  next hlt =>
    unfold lowerAscii
    split
    next hcapital =>
      simp only [Bool.and_eq_true, decide_eq_true_eq] at hcapital
      exact settled_of_lt (by omega) (by omega)
    next hcapital => exact settled_of_lt hlt (by simpa using hcapital)
  next hge =>
    split
    next run hrun =>
      have hmem := List.mem_of_find?_eq_some hrun
      have hcode : run.covers code = true := by simpa using List.find?_some hrun
      have hascii := List.all_eq_true.mp caseRuns_avoidAscii run hmem
      have havoids := List.all_eq_true.mp (List.all_eq_true.mp caseRuns_avoid run hmem)
      exact ⟨run.lowered_not_ascii hascii hcode, fun _ other hother =>
        run.lowered_not_covered hascii hcode (havoids other hother)⟩
    next hrun => exact ⟨by omega, fun _ => by simpa using List.find?_eq_none.mp hrun⟩

theorem settled_ofNat {code : Nat} (h : Settled code) : Settled (Char.ofNat code).toNat := by
  by_cases hvalid : code.isValidChar
  · rw [Char.ofNat, dif_pos hvalid]
    exact h
  · rw [Char.ofNat, dif_neg hvalid]
    exact settled_of_lt (by decide) (by decide)

/-- Whatever stands around a character, it is lowered to characters that are no capitals. -/
theorem settled_of_mem_lowerBetween {before after : List Char} {c d : Char} (h : d ∈ lowerBetween before c after) :
    Settled d.toNat := by
  have hsmall (code : Nat) (hcode : lowerCode code = code) : Settled code := hcode ▸ settled_lowerCode code
  unfold lowerBetween at h
  split at h
  · rw [List.mem_singleton.mp h]
    split
    · exact hsmall _ (by decide +kernel)
    · exact hsmall _ (by decide +kernel)
  · split at h
    · rcases List.mem_cons.mp h with rfl | h
      · exact settled_of_lt (by decide) (by decide)
      · rw [List.mem_singleton.mp h]
        exact hsmall _ (by decide +kernel)
    · rw [List.mem_singleton.mp h]
      exact settled_ofNat (settled_lowerCode _)

theorem settled_of_mem_lowerFrom {before cs : List Char} {d : Char} (h : d ∈ lowerFrom before cs) :
    Settled d.toNat := by
  induction cs generalizing before with
  | nil => exact absurd h List.not_mem_nil
  | cons c after ih =>
    rcases List.mem_append.mp h with h | h
    · exact settled_of_mem_lowerBetween h
    · exact ih h

theorem lowerBetween_of_settled {c : Char} (h : Settled c.toNat) (before after : List Char) :
    lowerBetween before c after = [c] := by
  have hsigma : c ≠ 'Σ' := by
    rintro rfl
    exact absurd (lowerCode_of_settled h) (by decide +kernel)
  have hdotted : c ≠ 'İ' := by
    rintro rfl
    exact absurd (lowerCode_of_settled h) (by decide +kernel)
  unfold lowerBetween
  rw [if_neg (by simpa using hsigma), if_neg (by simpa using hdotted), lowerCode_of_settled h, Char.ofNat_toNat]

/-- Lowering leaves a text without capitals as it is. -/
theorem lower_of_settled {s : String} (h : ∀ c ∈ s.toList, Settled c.toNat) : lower s = s := by
  have hfrom (before cs : List Char) (hcs : ∀ c ∈ cs, Settled c.toNat) : lowerFrom before cs = cs := by
    induction cs generalizing before with
    | nil => rfl
    | cons c after ih =>
      obtain ⟨hc, hafter⟩ := List.forall_mem_cons.mp hcs
      rw [lowerFrom, lowerBetween_of_settled hc, ih _ hafter, List.singleton_append]
  rw [lower, hfrom [] _ h, String.ofList_toList]

theorem settled_of_mem_lower {s : String} {c : Char} (h : c ∈ (lower s).toList) : Settled c.toNat := by
  rw [lower, String.toList_ofList] at h
  exact settled_of_mem_lowerFrom h

theorem between_sublist (margin : Char → Bool) (cs : List Char) : (between margin cs).Sublist cs := by
  have hright : ((cs.dropWhile margin).reverse.dropWhile margin).Sublist (cs.dropWhile margin).reverse :=
    List.dropWhile_sublist _
  have hleft := hright.reverse
  rw [List.reverse_reverse] at hleft
  exact hleft.trans (List.dropWhile_sublist _)

theorem trim_of_isAllBlank {s : String} (h : isAllBlank s = true) : trim s = "" := by
  have hnone : s.toList.dropWhile isBlank = [] := List.dropWhile_eq_nil_iff.mpr (List.all_eq_true.mp h)
  rw [trim, between, hnone]
  rfl

/-- The pieces between separators are parts of the text. -/
theorem sublist_of_mem_pieces {separator : Char} {s piece : String} (h : piece ∈ pieces separator s) :
    piece.toList.Sublist s.toList := by
  obtain ⟨cs, hcs, rfl⟩ := List.mem_map.mp h
  rw [String.toList_ofList]
  exact sublist_of_mem_splitOn hcs

end ScriptAudit.Text
