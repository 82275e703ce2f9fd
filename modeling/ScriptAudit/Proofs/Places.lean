import Mathlib.Data.List.DropRight
import ScriptAudit.Proofs.Lines

namespace ScriptAudit

/-- The lines of a text are those of the cut at its end. -/
theorem LineCut.splitOn_chars (cut : LineCut) : cut.chars.splitOn '\n' = cut.whole ++ [cut.beginning] := by
  have h := cut.splitOn_eq []
  rwa [List.append_nil, List.append_nil, List.splitOn_eq_singleton cut.started] at h

theorem not_mem_of_mem_splitOn {text line : List Char} (h : line ∈ text.splitOn '\n') : '\n' ∉ line := by
  obtain ⟨cut, rfl⟩ := LineCut.exists_chars_eq text
  rw [cut.splitOn_chars, List.mem_append, List.mem_singleton] at h
  rcases h with h | rfl
  · exact cut.unbroken line h
  · exact cut.started

theorem LineIndex.lineCount_ofText (text : List Char) :
    (LineIndex.ofText text).lineCount = (text.splitOn '\n').length := by
  obtain ⟨cut, rfl⟩ := LineCut.exists_chars_eq text
  have hcount : cut.chars.count '\n' = cut.whole.length := by
    rw [LineCut.chars, List.count_append, cut.count_closed, List.count_eq_zero.mpr cut.started, Nat.add_zero]
  rw [lineCount, ofText, List.size_toArray, newlineOffsets_length, hcount, cut.splitOn_chars, List.length_append,
    List.length_singleton]

/-- What stands before a line, when lines are put together again. -/
theorem intercalate_append_cons (before : List (List Char)) (line : List Char) (after : List (List Char)) :
    ∃ rest, ['\n'].intercalate (before ++ line :: after) = before.flatMap (· ++ ['\n']) ++ (line ++ rest) := by
  induction before with
  | nil =>
    cases after with
    | nil => exact ⟨[], by simp⟩
    | cons next after => exact ⟨'\n' :: ['\n'].intercalate (next :: after), by simp⟩
  | cons first before ih =>
    obtain ⟨rest, hrest⟩ := ih
    refine ⟨rest, ?_⟩
    have hne : before ++ line :: after ≠ [] := by simp
    rw [List.cons_append, List.intercalate_cons_of_ne_nil hne, hrest]
    simp

namespace Location

/-- On an earlier line, or on the same line and further left. -/
def Precedes (a b : Location) : Prop := a.line < b.line ∨ a.line = b.line ∧ a.column < b.column

instance (a b : Location) : Decidable (a.Precedes b) := inferInstanceAs (Decidable (_ ∨ _))

theorem Precedes.asymm {a b : Location} (h : a.Precedes b) : ¬b.Precedes a := by
  unfold Precedes at *
  omega

variable {text : List Char}

theorem ofOffset_eq_count (text : List Char) (offset : Nat) :
    ofOffset text offset =
      ⟨(text.take offset).count '\n' + 1, ((text.take offset).rtakeWhile (· != '\n')).length + 1⟩ := by
  simp [ofOffset, Text.lineAndColumn, List.rtakeWhile]

/-- A later offset is on a later line or in a later column. -/
theorem ofOffset_precedes {i j : Nat} (hij : i < j) (hj : j ≤ text.length) :
    (ofOffset text i).Precedes (ofOffset text j) := by
  have hi : i ≤ text.length := hij.le.trans hj
  have hcount : (text.take i).count '\n' ≤ (text.take j).count '\n' :=
    (List.take_sublist_take_left hij.le).count_le '\n'
  have hline : (ofOffset text i).line ≤ (ofOffset text j).line := by
    simp only [ofOffset_eq_count]
    omega
  by_cases hsame : (ofOffset text i).line = (ofOffset text j).line
  case neg => exact .inl (by omega)
  have hle := column_le_of_line_eq hij.le hj hsame
  refine .inr ⟨hsame, ?_⟩
  -- Line and column lead back to the offset, so that not both can be the same.
  have hne : (ofOffset text i).column ≠ (ofOffset text j).column := by
    intro hcolumn
    have hplace : ofOffset text i = ofOffset text j := by
      rw [Location.mk.injEq]
      exact ⟨hsame, hcolumn⟩
    have hback := offsetIn_ofOffset hi
    rw [hplace, offsetIn_ofOffset hj] at hback
    omega
  omega

theorem ofOffset_precedes_iff {i j : Nat} (hi : i ≤ text.length) (hj : j ≤ text.length) :
    (ofOffset text i).Precedes (ofOffset text j) ↔ i < j := by
  constructor
  · intro h
    by_contra hnot
    rcases Nat.eq_or_lt_of_le (Nat.not_lt.mp hnot) with rfl | hlt
    · exact h.asymm h
    · exact h.asymm (ofOffset_precedes hlt hi)
  · intro hij
    exact ofOffset_precedes hij hj

/-- Every place on a line of the text is the place of an offset. -/
theorem exists_ofOffset_eq {l : Location} (h : l.Within text) : ∃ offset ≤ text.length, ofOffset text offset = l := by
  obtain ⟨hline, hlast, hcolumn, hend⟩ := h
  obtain ⟨before, line, after, hlines, hbefore⟩ : ∃ before line after,
      text.splitOn '\n' = before ++ line :: after ∧ before.length = (l.line - 1).toNat := by
    have hn : (l.line - 1).toNat < (text.splitOn '\n').length := by omega
    refine ⟨(text.splitOn '\n').take (l.line - 1).toNat, (text.splitOn '\n')[(l.line - 1).toNat],
      (text.splitOn '\n').drop ((l.line - 1).toNat + 1), ?_, List.length_take_of_le hn.le⟩
    rw [← List.drop_eq_getElem_cons hn, List.take_append_drop]
  have hthere : (text.splitOn '\n').getD (l.line - 1).toNat [] = line := by simp [hlines, ← hbefore]
  rw [hthere] at hend
  obtain ⟨rest, hrest⟩ := intercalate_append_cons before line after
  rw [← hlines, List.intercalate_splitOn] at hrest
  have hunbroken {other : List Char} (hother : other ∈ before ++ line :: after) : '\n' ∉ other :=
    not_mem_of_mem_splitOn (hlines ▸ hother)
  let cut : LineCut :=
    { whole := before
      beginning := line.take (l.column - 1).toNat
      unbroken := fun other hother => hunbroken (List.mem_append_left _ hother)
      started := fun hmem => hunbroken (by simp) (List.mem_of_mem_take hmem) }
  have htext : text = cut.chars ++ (line.drop (l.column - 1).toNat ++ rest) := by
    rw [hrest, LineCut.chars, LineCut.closed, List.append_assoc, ← List.append_assoc (line.take _),
      List.take_append_drop]
  refine ⟨cut.chars.length, ?_, ?_⟩
  · rw [htext, List.length_append]
    omega
  · have hlength : cut.beginning.length = (l.column - 1).toNat := List.length_take_of_le (by omega)
    have hwhole : cut.whole.length = (l.line - 1).toNat := hbefore
    rw [htext, ofOffset_cut, Location.mk.injEq, hlength, hwhole]
    exact ⟨by omega, by omega⟩

end Location

namespace LineIndex

theorem resolve_eq (text : List Char) (offset : Int) :
    (ofText text).resolve offset =
      if offset < 0 ∨ (text.length : Int) < offset then .error ⟨offset, text.length⟩
      else .ok (.ofOffset text offset.toNat) := by
  split_ifs with hout
  · exact if_pos hout
  · have hlast : offset.toNat ≤ text.length := by omega
    have hin := resolve_ofText hlast
    rwa [Int.toNat_of_nonneg (by omega)] at hin

theorem resolve_eq_ok_iff {text : List Char} {offset : Int} {l : Location} :
    (ofText text).resolve offset = .ok l ↔
      0 ≤ offset ∧ offset.toNat ≤ text.length ∧ .ofOffset text offset.toNat = l := by
  rw [resolve_eq]
  split_ifs with hout
  · simp only [false_iff]
    omega
  · have hin : 0 ≤ offset ∧ offset.toNat ≤ text.length := by omega
    simp [hin]

/-- The line table agrees with counting: it refuses the offsets outside of the text, and of the others it knows the line
and the column. Later offsets have later places, and the places are all those on the lines of the text, the end of
each line included. -/
theorem resolve_agrees_with_counting (text : List Char) :
    (∀ offset : Int, (ofText text).resolve offset =
      if offset < 0 ∨ (text.length : Int) < offset then .error ⟨offset, text.length⟩
      else .ok ⟨(text.take offset.toNat).count '\n' + 1,
        ((text.take offset.toNat).rtakeWhile (· != '\n')).length + 1⟩) ∧
    (∀ (i j : Int) (a b : Location), (ofText text).resolve i = .ok a → (ofText text).resolve j = .ok b →
      (i < j ↔ a.Precedes b)) ∧
    ∀ l : Location, (∃ offset, (ofText text).resolve offset = .ok l) ↔
      1 ≤ l.line ∧ l.line ≤ (ofText text).lineCount ∧
      1 ≤ l.column ∧ l.column ≤ ((text.splitOn '\n').getD (l.line - 1).toNat []).length + 1 := by
  refine ⟨?_, ?_, ?_⟩
  · intro offset
    rw [resolve_eq, Location.ofOffset_eq_count]
  · intro i j a b ha hb
    obtain ⟨hi, hilast, rfl⟩ := resolve_eq_ok_iff.mp ha
    obtain ⟨hj, hjlast, rfl⟩ := resolve_eq_ok_iff.mp hb
    rw [Location.ofOffset_precedes_iff hilast hjlast]
    omega
  · intro l
    rw [lineCount_ofText]
    constructor
    · rintro ⟨offset, h⟩
      obtain ⟨_, hlast, rfl⟩ := resolve_eq_ok_iff.mp h
      exact Location.ofOffset_within hlast
    · intro h
      obtain ⟨offset, hlast, rfl⟩ := Location.exists_ofOffset_eq h
      exact ⟨offset, resolve_ofText hlast⟩

end LineIndex

end ScriptAudit
