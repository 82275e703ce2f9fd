import ScriptAudit.Pattern.Expr
import ScriptAudit.Proofs.Lowering

namespace ScriptAudit

namespace Text

/-- The ASCII signs and digits, which have no other case. -/
def Caseless (code : Nat) : Prop := code < 128 ∧ ¬(65 ≤ code ∧ code ≤ 90) ∧ ¬(97 ≤ code ∧ code ≤ 122)

instance (code : Nat) : Decidable (Caseless code) := inferInstanceAs (Decidable (_ ∧ _))

namespace CaseRun

/-- Neither the capitals of a run nor what they are lowered to are signs. -/
def avoidsCaseless (run : CaseRun) : Bool :=
  decide (128 ≤ run.first ∧ 97 ≤ run.lowFirst ∧ (run.lowLast ≤ 122 ∨ 128 ≤ run.lowFirst))

def avoidsCode (run : CaseRun) (code : Nat) : Bool :=
  decide ((code < run.first ∨ run.last < code) ∧ (code < run.lowFirst ∨ run.lowLast < code))

end CaseRun

theorem caseRuns_avoidCaseless : caseRuns.all CaseRun.avoidsCaseless = true := by decide +kernel

theorem families_avoidCaseless : (families.all fun letters => letters.all fun code => !decide (Caseless code)) = true := by
  decide +kernel

theorem bounds_of_lowered {run : CaseRun} {code : Nat} (hrun : run ∈ caseRuns) (hcode : run.covers code = true) :
    run.lowFirst ≤ (Int.ofNat code + run.shift).toNat ∧ (Int.ofNat code + run.shift).toNat ≤ run.lowLast := by
  obtain ⟨hfirst, hlast, _⟩ := CaseRun.covers_iff.mp hcode
  obtain ⟨hlowered, hlow, hhigh⟩ :=
    run.lowered_bounds (List.all_eq_true.mp caseRuns_avoidAscii run hrun) hcode
  omega

/-- Lowering leaves a code point, or it is an ASCII capital, or one of a run of capitals. -/
theorem lowerCode_cases (code : Nat) :
    lowerCode code = code ∨ (65 ≤ code ∧ code ≤ 90) ∧ lowerCode code = code + 32 ∨
      128 ≤ code ∧ ∃ run ∈ caseRuns, run.covers code = true ∧ lowerCode code = (Int.ofNat code + run.shift).toNat := by
  unfold lowerCode
  split
  next =>
    unfold lowerAscii
    split
    next hcapital => exact .inr (.inl ⟨by simpa using hcapital, rfl⟩)
    next => exact .inl rfl
  next hge =>
    split
    next run hrun =>
      exact .inr (.inr ⟨by omega, run, List.mem_of_find?_eq_some hrun, by simpa using List.find?_some hrun, rfl⟩)
    next => exact .inl rfl

theorem lowerCode_eq_iff_of_caseless {n code : Nat} (hn : Caseless n) : lowerCode code = n ↔ code = n := by
  obtain ⟨hlt, hcapital, hsmall⟩ := hn
  constructor
  · intro h
    rcases lowerCode_cases code with heq | ⟨hcode, heq⟩ | ⟨_, run, hrun, hcovers, heq⟩
    · omega
    · omega
    · have hbounds := bounds_of_lowered hrun hcovers
      have hsign := List.all_eq_true.mp caseRuns_avoidCaseless run hrun
      simp only [CaseRun.avoidsCaseless, decide_eq_true_eq] at hsign
      omega
  · rintro rfl
    exact lowerCode_of_settled (settled_of_lt hlt hcapital)

theorem not_mem_families_of_caseless {n : Nat} (hn : Caseless n) {letters : List Nat} (hletters : letters ∈ families) :
    n ∉ letters := by
  intro hmem
  have hsign := List.all_eq_true.mp (List.all_eq_true.mp families_avoidCaseless letters hletters) n hmem
  simp [hn] at hsign

theorem mem_family_iff_of_caseless {n code : Nat} (hn : Caseless n) : n ∈ family code ↔ code = n := by
  unfold family
  cases hfind : families.find? (·.contains code) with
  | none => simp [eq_comm]
  | some letters =>
    have hletters := List.mem_of_find?_eq_some hfind
    have hcode : code ∈ letters := by simpa using List.find?_some hfind
    constructor
    · exact fun h => absurd h (not_mem_families_of_caseless hn hletters)
    · rintro rfl
      exact hcode

/-- Beyond ASCII there are no capitals of ASCII. -/
theorem mem_capitals_iff_of_ascii {n code : Nat} (hn : n < 128) :
    n ∈ capitals code ↔ (97 ≤ code ∧ code ≤ 122) ∧ n = code - 32 := by
  have hbeyond : n ∉ caseRuns.filterMap fun run =>
      let capital := (Int.ofNat code - run.shift).toNat
      if run.covers capital && lowerCode capital == code then some capital else none := by
    rw [List.mem_filterMap]
    rintro ⟨run, hrun, hmem⟩
    simp only [Option.ite_none_right_eq_some, Option.some.injEq, Bool.and_eq_true] at hmem
    obtain ⟨⟨hcovers, _⟩, heq⟩ := hmem
    rw [heq, CaseRun.covers_iff] at hcovers
    have hsign := List.all_eq_true.mp caseRuns_avoidCaseless run hrun
    simp only [CaseRun.avoidsCaseless, decide_eq_true_eq] at hsign
    omega
  rw [capitals, List.mem_append, or_iff_left hbeyond]
  split
  next hsmall =>
    simp only [Bool.and_eq_true, decide_eq_true_eq] at hsmall
    simp [hsmall]
  next hnot =>
    simp only [Bool.and_eq_true, decide_eq_true_eq] at hnot
    simp [hnot]

/-- A sign counts as no letter but itself. -/
theorem mem_variants_iff_of_caseless {n code : Nat} (hn : Caseless n) : n ∈ variants code ↔ code = n := by
  rw [← lowerCode_eq_iff_of_caseless hn, ← mem_family_iff_of_caseless hn, variants, List.mem_flatMap]
  constructor
  · rintro ⟨letter, hletter, hmem⟩
    rcases List.mem_cons.mp hmem with rfl | hmem
    · exact hletter
    · obtain ⟨hlt, hcapital, _⟩ := hn
      rw [mem_capitals_iff_of_ascii hlt] at hmem
      omega
  · exact fun h => ⟨n, h, List.mem_cons_self⟩

theorem families_ascii :
    (families.all fun letters => letters.all fun a => letters.all fun b => decide (a = b ∨ 128 ≤ a ∨ 128 ≤ b)) = true := by
  decide +kernel

theorem mem_family_iff_of_ascii {n code : Nat} (hn : n < 128) (hcode : code < 128) : n ∈ family code ↔ n = code := by
  unfold family
  cases hfind : families.find? (·.contains code) with
  | none => simp
  | some letters =>
    have hletters := List.mem_of_find?_eq_some hfind
    have hmem : code ∈ letters := by simpa using List.find?_some hfind
    constructor
    · intro h
      have halone := List.all_eq_true.mp (List.all_eq_true.mp (List.all_eq_true.mp families_ascii _ hletters) n h)
        code hmem
      rw [decide_eq_true_eq] at halone
      omega
    · rintro rfl
      exact hmem

theorem lowerAscii_cases (code : Nat) :
    (65 ≤ code ∧ code ≤ 90) ∧ lowerAscii code = code + 32 ∨ ¬(65 ≤ code ∧ code ≤ 90) ∧ lowerAscii code = code := by
  unfold lowerAscii
  split
  next h => exact .inl ⟨by simpa using h, rfl⟩
  next h => exact .inr ⟨by simpa using h, rfl⟩

/-- ASCII letters count as the same if their lower-case letters are. -/
theorem mem_variants_iff_of_ascii {n code : Nat} (hn : n < 128) (hcode : code < 128) :
    n ∈ variants code ↔ lowerAscii n = lowerAscii code := by
  have hlower : lowerCode code = lowerAscii code := if_pos hcode
  have hn' := lowerAscii_cases n
  have hcode' := lowerAscii_cases code
  rw [variants, hlower, List.mem_flatMap]
  simp only [List.mem_cons, mem_capitals_iff_of_ascii hn]
  constructor
  · rintro ⟨letter, hletter, hmem⟩
    rw [mem_family_iff_of_ascii (by omega) (by omega)] at hletter
    omega
  · intro h
    refine ⟨lowerAscii code, (mem_family_iff_of_ascii (by omega) (by omega)).mpr rfl, ?_⟩
    omega

def blankCodes : List Nat :=
  [9, 10, 11, 12, 13, 28, 29, 30, 31, 32, 0x85, 0xA0, 0x1680, 0x2000, 0x2001, 0x2002, 0x2003, 0x2004, 0x2005, 0x2006,
   0x2007, 0x2008, 0x2009, 0x200A, 0x2028, 0x2029, 0x202F, 0x205F, 0x3000]

theorem isBlank_iff {c : Char} : isBlank c = true ↔ c.toNat ∈ blankCodes := by
  simp only [isBlank, blankCodes, Bool.or_eq_true, Bool.and_eq_true, decide_eq_true_eq, beq_iff_eq, List.mem_cons,
    List.not_mem_nil, or_false]
  omega

theorem blankCodes_avoid :
    (blankCodes.all fun code => decide (Caseless code ∨ 128 ≤ code) && caseRuns.all (·.avoidsCode code)) = true := by
  decide +kernel

theorem lowerCode_eq_iff_of_blank {n code : Nat} (hn : n ∈ blankCodes) : lowerCode code = n ↔ code = n := by
  have havoid := List.all_eq_true.mp blankCodes_avoid n hn
  rw [Bool.and_eq_true, decide_eq_true_eq, List.all_eq_true] at havoid
  obtain ⟨hsign | hge, havoid⟩ := havoid
  · exact lowerCode_eq_iff_of_caseless hsign
  simp only [CaseRun.avoidsCode, decide_eq_true_eq] at havoid
  constructor
  · intro h
    rcases lowerCode_cases code with heq | ⟨hcode, heq⟩ | ⟨_, run, hrun, hcovers, heq⟩
    · omega
    · omega
    · have hbounds := bounds_of_lowered hrun hcovers
      have hrange := (havoid run hrun).2
      omega
  · rintro rfl
    rcases lowerCode_cases code with heq | ⟨hcode, heq⟩ | ⟨_, run, hrun, hcovers, heq⟩
    · exact heq
    · omega
    · have hrange := (havoid run hrun).1
      rw [CaseRun.covers_iff] at hcovers
      omega

/-- No letter is lowered to white space. -/
theorem isBlank_lowerCode (c : Char) : isBlank (Char.ofNat (lowerCode c.toNat)) = isBlank c := by
  rw [Bool.eq_iff_iff, isBlank_iff, isBlank_iff]
  constructor
  · intro h
    by_cases hvalid : (lowerCode c.toNat).isValidChar
    · rw [Char.ofNat, dif_pos hvalid] at h
      exact (lowerCode_eq_iff_of_blank h).mp rfl ▸ h
    · rw [Char.ofNat, dif_neg hvalid] at h
      exact absurd h (by decide)
  · intro h
    rw [(lowerCode_eq_iff_of_blank h).mpr rfl, Char.ofNat_toNat]
    exact h

end Text

namespace Pattern

open Text

theorem accepts_code_of_caseless {d : Char} (hd : Caseless d.toNat) (c : Char) :
    (CharTest.code .unicode d.toNat).accepts c = true ↔ c = d := by
  simp only [CharTest.accepts, SetItem.accepts, Folding.variants, List.contains_eq_mem, decide_eq_true_eq,
    mem_variants_iff_of_caseless hd, Char.toNat_inj]

/-- A set of signs takes up these and, if it is negated, all others. -/
theorem accepts_set_of_caseless {ds : List Char} (h : (ds.all fun d => Caseless d.toNat) = true) (negated : Bool)
    (c : Char) :
    (CharTest.set .unicode negated (ds.map fun d => .code d.toNat)).accepts c = (decide (c ∈ ds) != negated) := by
  have hds (d : Char) (hd : d ∈ ds) : Caseless d.toNat := of_decide_eq_true (List.all_eq_true.mp h d hd)
  have hany : (ds.map fun d => SetItem.code d.toNat).any (·.accepts .unicode c) = decide (c ∈ ds) := by
    rw [List.any_map, Bool.eq_iff_iff, List.any_eq_true, decide_eq_true_eq]
    constructor
    · rintro ⟨d, hd, haccepts⟩
      exact (accepts_code_of_caseless (hds d hd) c).mp haccepts ▸ hd
    · exact fun h => ⟨c, h, (accepts_code_of_caseless (hds c h) c).mpr rfl⟩
  rw [CharTest.accepts, hany]

theorem accepts_blank (c : Char) :
    (CharTest.set .unicode false [.cls .blank false false]).accepts c = isBlank c := by
  simp [CharTest.accepts, SetItem.accepts, CharClass.contains, Folding.lower, isBlank_lowerCode]

end Pattern

end ScriptAudit
