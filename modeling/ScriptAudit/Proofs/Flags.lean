import ScriptAudit.Proofs.RoundTrip

namespace ScriptAudit.Pattern

theorem joinUnknown_texts (texts : List String) :
    joinUnknown (texts.map .text) = .ok ("".intercalate (texts.mergeSort fun a b => !decide (b < a))) := by
  unfold joinUnknown
  split
  next => simp [List.filterMap_map]
  next x hx =>
    obtain ⟨item, hitem, hsome⟩ := List.exists_of_findSome?_eq_some hx
    obtain ⟨s, _, rfl⟩ := List.mem_map.mp hitem
    exact absurd hsome (by simp)

section Texts

variable {α : Type} [DecidableEq α] {text : α → String} (htext : text.Injective)

include htext

/-- Of equal texts the first is kept. -/
theorem distinctItems_texts (flags : List α) :
    ∃ distinct : List α, distinctItems (flags.map fun a => .text (text a)) = distinct.map (fun a => .text (text a)) ∧
      distinct.Nodup ∧ ∀ a, a ∈ distinct ↔ a ∈ flags := by
  induction flags with
  | nil => exact ⟨[], rfl, List.nodup_nil, fun a => Iff.rfl⟩
  | cons b flags ih =>
    obtain ⟨distinct, hitems, hnodup, hmem⟩ := ih
    have hother : (fun a => !(FlagItem.text (text b)).same (.text (text a))) = fun a => decide (a ≠ b) := by
      funext a
      rw [Bool.eq_iff_iff]
      simp [FlagItem.same, htext.eq_iff, eq_comm (a := b)]
    refine ⟨b :: distinct.filter fun a => a ≠ b, ?_, ?_, ?_⟩
    · rw [List.map_cons, distinctItems, hitems, List.filter_map, List.map_cons, Function.comp_def, hother]
    · refine List.nodup_cons.mpr ⟨?_, hnodup.filter _⟩
      simp
    · intro a
      by_cases ha : a = b <;> simp [ha, hmem]

/-- Flags that are texts are all known, or those that are not are told in their order, each once. -/
theorem checkFlags_texts (flags : List α) :
    ((∀ a ∈ flags, text a ∈ knownFlags) ∧
      checkFlags (flags.map fun a => .text (text a)) = .ok (.known (flags.map text))) ∨
    ∃ unknown : List α, unknown ≠ [] ∧ unknown.Nodup ∧ (∀ a, a ∈ unknown ↔ a ∈ flags ∧ text a ∉ knownFlags) ∧
      checkFlags (flags.map fun a => .text (text a)) =
        .ok (.unknown ("".intercalate ((unknown.map text).mergeSort fun s t => !decide (t < s)))) := by
  obtain ⟨distinct, hitems, hnodup, hmem⟩ := distinctItems_texts htext flags
  have hfilter : (distinctItems (flags.map fun a => .text (text a))).filter (!·.isKnown) =
      (distinct.filter fun a => !knownFlags.contains (text a)).map fun a => .text (text a) := by
    rw [hitems, List.filter_map]
    rfl
  have htold (a : α) :
      a ∈ distinct.filter (fun a => !knownFlags.contains (text a)) ↔ a ∈ flags ∧ text a ∉ knownFlags := by
    simp [hmem]
  rw [checkFlags, hfilter]
  cases hunknown : distinct.filter fun a => !knownFlags.contains (text a) with
  | nil =>
    refine .inl ⟨?_, by simp [List.filterMap_map]⟩
    intro a ha
    by_contra hnot
    have hin := (htold a).mpr ⟨ha, hnot⟩
    rw [hunknown] at hin
    exact absurd hin List.not_mem_nil
  | cons a rest =>
    refine .inr ⟨a :: rest, by simp, hunknown ▸ hnodup.filter _, fun b => hunknown ▸ htold b, ?_⟩
    have hjoined := joinUnknown_texts ((a :: rest).map text)
    rw [List.map_map] at hjoined
    exact congrArg (Except.map FlagCheck.unknown) hjoined

end Texts

/-- The letters of the flags that a pattern may have. -/
def knownLetters : List Char := ['i', 'm', 's', 'g', 'u']

theorem singleton_injective : String.singleton.Injective := by
  intro a b h
  simpa using congrArg String.toList h

theorem singleton_mem_knownFlags {c : Char} : String.singleton c ∈ knownFlags ↔ c ∈ knownLetters := by
  have hflags : knownFlags = knownLetters.map String.singleton := rfl
  rw [hflags, List.mem_map_of_injective singleton_injective]

theorem singleton_lt_singleton {a b : Char} : String.singleton a < String.singleton b ↔ a.toNat < b.toNat := by
  rw [String.lt_iff, String.toList_singleton, String.toList_singleton, List.cons_lt_cons_iff, Char.lt_def,
    UInt32.lt_iff_toNat_lt]
  simp

theorem intercalate_singletons (cs : List Char) : "".intercalate (cs.map String.singleton) = String.ofList cs := by
  induction cs with
  | nil => rfl
  | cons c cs ih =>
    cases cs with
    | nil => simp
    | cons d cs =>
      rw [List.map_cons, String.intercalate_cons_of_ne_nil (by simp), ih]
      simp

/-- Characters without repetition, written in the order of the texts that they are. -/
theorem sorted_singletons {cs : List Char} (h : cs.Nodup) :
    ∃ sorted : List Char, sorted.Pairwise (·.toNat < ·.toNat) ∧ sorted.Perm cs ∧
      (cs.map String.singleton).mergeSort (fun s t => !decide (t < s)) = sorted.map String.singleton := by
  refine ⟨cs.mergeSort fun a b => a.toNat ≤ b.toNat, ?_, List.mergeSort_perm _ _, ?_⟩
  · have htrans (a b c : Char) : decide (a.toNat ≤ b.toNat) = true → decide (b.toNat ≤ c.toNat) = true →
        decide (a.toNat ≤ c.toNat) = true := by
      simp only [decide_eq_true_eq]
      omega
    have htotal (a b : Char) : (decide (a.toNat ≤ b.toNat) || decide (b.toNat ≤ a.toNat)) = true := by
      simp only [Bool.or_eq_true, decide_eq_true_eq]
      omega
    have hsorted := List.pairwise_mergeSort htrans htotal cs
    refine (hsorted.and ((List.mergeSort_perm _ _).nodup_iff.mpr h)).imp ?_
    rintro a b ⟨hle, hne⟩
    exact Nat.lt_of_le_of_ne (by simpa using hle) (fun heq => hne (Char.toNat_inj.mp heq))
  · refine (List.map_mergeSort fun a _ b _ => ?_).symm
    simp only [singleton_lt_singleton, ← decide_not, Nat.not_lt]

/-- Flags that are letters are all known, or those that are not are told in the order of their codes. -/
theorem checkFlags_letterItems (cs : List Char) :
    ((∀ c ∈ cs, c ∈ knownLetters) ∧ checkFlags (letterItems cs) = .ok (.known (cs.map String.singleton))) ∨
    ∃ unknown : List Char, unknown ≠ [] ∧ unknown.Pairwise (·.toNat < ·.toNat) ∧
      (∀ c, c ∈ unknown ↔ c ∈ cs ∧ c ∉ knownLetters) ∧
      checkFlags (letterItems cs) = .ok (.unknown (String.ofList unknown)) := by
  have hflags := checkFlags_texts singleton_injective cs
  simp only [singleton_mem_knownFlags] at hflags
  refine hflags.imp_right ?_
  rintro ⟨unknown, hne, hnodup, hmem, hcheck⟩
  obtain ⟨sorted, hsorted, hperm, hmerge⟩ := sorted_singletons hnodup
  refine ⟨sorted, ?_, hsorted, fun c => hperm.mem_iff.trans (hmem c), ?_⟩
  · rintro rfl
    exact hne (List.nil_perm.mp hperm)
  · rw [← intercalate_singletons, ← hmerge]
    exact hcheck

/-- The texts that a value has as flags. The names of a record are flags only if no letters of a literal come after
them. -/
inductive FlagTexts (isLiteral : Bool) : Value → List String → Prop
  | void {v : Value} (h : v.isVoid = true) : FlagTexts isLiteral v []
  | text (s : String) : FlagTexts isLiteral (.text s) (s.toList.map String.singleton)
  | list (texts : List String) : FlagTexts isLiteral (.list (texts.map .text)) texts
  | record (fields : List (String × Value)) (h : isLiteral = false) :
      FlagTexts isLiteral (.record fields) (fields.map (·.1))

theorem letterItems_eq (cs : List Char) : letterItems cs = (cs.map String.singleton).map .text := by
  rw [letterItems, List.map_map]
  rfl

theorem mapM_ofValue_texts (texts : List String) :
    (texts.map Value.text).mapM FlagItem.ofValue = .ok (texts.map .text) := by
  induction texts with
  | nil => rfl
  | cons s texts ih =>
    rw [List.map_cons, List.mapM_cons, ih]
    rfl

theorem flagItems_of_texts {literal : Option (List Char)} {v : Value} {texts : List String}
    (h : FlagTexts literal.isSome v texts) :
    flagItems v literal = .ok ((texts ++ (literal.getD []).map String.singleton).map .text) := by
  cases hvoid : v.isVoid with
  | true =>
    have htexts : texts = [] := by
      cases h with
      | void _ => rfl
      | text s => simpa [Value.isVoid] using hvoid
      | list texts => simpa [Value.isVoid] using hvoid
      | record fields _ => simpa [Value.isVoid] using hvoid
    unfold flagItems
    rw [if_pos hvoid, htexts, List.nil_append, letterItems_eq]
  | false =>
    unfold flagItems
    rw [if_neg (by simp [hvoid])]
    cases h with
    | void h => exact absurd (h.symm.trans hvoid) (by decide)
    | text s =>
      dsimp only
      rw [letterItems_eq, List.map_append]
    | list texts =>
      dsimp only
      rw [mapM_ofValue_texts, letterItems_eq, List.map_append]
      rfl
    | record fields hliteral =>
      cases literal with
      | none => simp
      | some letters => exact absurd hliteral (by simp)

/-- The letters after the last slash, if the text is a literal. -/
def literalFlags? (text : String) : Option (List Char) := (SlashLiteral.ofList? text.toList).map (·.flags)

section OfText

variable {text : String} (hne : text ≠ "") {flags : Value}

include hne

variable {items : List FlagItem} (hitems : flagItems flags (literalFlags? text) = .ok items)

include hitems

theorem ofText_of_known {known : List String} (hcheck : checkFlags items = .ok (.known known)) :
    ofText text flags = (ofSource (sourceOf text) (.ofFlags known)).mapError (.ofRejection text (sourceOf text)) := by
  rw [literalFlags?] at hitems
  rw [ofText, if_neg (by simpa using hne)]
  simp only [hitems, hcheck, sourceOf]

theorem ofText_of_unknown {unknown : String} (hcheck : checkFlags items = .ok (.unknown unknown)) :
    ofText text flags = .error (.problem (.unsupportedFlags unknown)) := by
  rw [literalFlags?] at hitems
  rw [ofText, if_neg (by simpa using hne)]
  simp only [hitems, hcheck]

end OfText

end ScriptAudit.Pattern
