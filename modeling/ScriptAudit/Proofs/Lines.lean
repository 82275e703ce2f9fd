import Mathlib.Algebra.GroupWithZero.Nat
import Mathlib.Data.List.Induction
import Mathlib.Order.Nat
import ScriptAudit.Location
import ScriptAudit.Text.Basic

namespace ScriptAudit

namespace Location

/-- The place of an offset, by counting what stands before it. -/
def ofOffset (text : List Char) (offset : Nat) : Location :=
  ⟨(Text.lineAndColumn text offset).1, (Text.lineAndColumn text offset).2⟩

/-- The offset of a place: all lines before its own, each with its newline, and the columns before its own. -/
def offsetIn (text : List Char) (l : Location) : Nat :=
  (((text.splitOn '\n').take (l.line - 1).toNat).map (·.length + 1)).sum + (l.column - 1).toNat

/-- The place is on a line of the text, and at most one column behind the end of that line. -/
def Within (text : List Char) (l : Location) : Prop :=
  1 ≤ l.line ∧ l.line ≤ (text.splitOn '\n').length ∧
    1 ≤ l.column ∧ l.column ≤ ((text.splitOn '\n').getD (l.line - 1).toNat []).length + 1

instance (text : List Char) (l : Location) : Decidable (l.Within text) := inferInstanceAs (Decidable (_ ∧ _ ∧ _ ∧ _))

end Location

/-- Where the entries below `x` come first, the search ends behind the last of them. -/
theorem firstNotBelow_eq (below others : List Nat) (x low high : Nat) (hb : ∀ a ∈ below, a < x)
    (ho : ∀ a ∈ others, x ≤ a) (hlow : low ≤ below.length) (hhigh : below.length ≤ high)
    (hsize : high ≤ (below ++ others).length) :
    firstNotBelow (below ++ others).toArray x low high = below.length := by
  -- The border between the two parts stays between `low` and `high`.
  fun_induction firstNotBelow (below ++ others).toArray x low high with
  | case1 low high hlt middle hmiddle ih =>
    apply ih _ hhigh hsize
    by_contra hcon
    have hm : below.length ≤ middle := by omega
    have hr : middle - below.length < others.length := by
      simp only [List.length_append] at hsize
      omega
    have hx := ho _ (List.getElem_mem hr)
    rw [Array.getD_eq_getD_getElem?, List.getElem?_toArray, List.getElem?_append_right hm,
      List.getElem?_eq_getElem hr, Option.getD_some] at hmiddle
    omega
  | case2 low high hlt middle hmiddle ih =>
    apply ih hlow _ (by omega)
    by_contra hcon
    have hm : middle < below.length := by omega
    have hx := hb _ (List.getElem_mem hm)
    rw [Array.getD_eq_getD_getElem?, List.getElem?_toArray, List.getElem?_append_left hm,
      List.getElem?_eq_getElem hm, Option.getD_some] at hmiddle
    exact hmiddle hx
  | case3 low high hge => omega

theorem newlineOffsets_append (a b : List Char) :
    newlineOffsets (a ++ b) = newlineOffsets a ++ (newlineOffsets b).map (· + a.length) := by
  have shift : b.zipIdx a.length = b.zipIdx.map fun entry => (entry.1, a.length + entry.2) := List.zipIdx_eq_map_add
  simp only [newlineOffsets, List.zipIdx_append, List.filterMap_append, Nat.zero_add, shift, List.filterMap_map,
    List.map_filterMap]
  congr 2
  funext entry
  by_cases hc : entry.1 = '\n' <;> simp [hc, Nat.add_comm]

theorem newlineOffsets_lt {text : List Char} {i : Nat} (h : i ∈ newlineOffsets text) : i < text.length := by
  obtain ⟨⟨c, j⟩, hmem, hsome⟩ := List.mem_filterMap.mp h
  have hj : j < text.length := by simpa using (List.mem_zipIdx hmem).2.1
  by_cases hc : c = '\n'
  · simp only [hc, if_true, Option.some.injEq] at hsome
    omega
  · simp [hc] at hsome

theorem newlineOffsets_length (text : List Char) : (newlineOffsets text).length = text.count '\n' := by
  induction text with
  | nil => rfl
  | cons c rest ih =>
    have h := newlineOffsets_append [c] rest
    rw [List.singleton_append] at h
    rw [h, List.length_append, List.length_map, ih, List.count_cons]
    by_cases hc : c = '\n' <;> simp [newlineOffsets, hc, Nat.add_comm]

theorem newlineOffsets_of_not_mem {text : List Char} (h : '\n' ∉ text) : newlineOffsets text = [] :=
  List.eq_nil_of_length_eq_zero ((newlineOffsets_length text).trans (List.count_eq_zero.mpr h))

/-- What begins without a newline is the beginning of the first line. -/
theorem splitOn_append_of_not_mem {b : List Char} (rest : List Char) (hb : '\n' ∉ b) :
    ∃ tail lines, (b ++ rest).splitOn '\n' = (b ++ tail) :: lines := by
  induction b with
  | nil =>
    obtain ⟨tail, lines, h⟩ := List.exists_cons_of_ne_nil (List.splitOn_ne_nil '\n' rest)
    exact ⟨tail, lines, h⟩
  | cons c b ih =>
    rw [List.mem_cons, not_or] at hb
    obtain ⟨tail, lines, h⟩ := ih hb.2
    refine ⟨tail, lines, ?_⟩
    rw [List.cons_append, List.splitOn_cons_eq_if_modifyHead, h, if_neg (by simpa using Ne.symm hb.1)]
    rfl

/-- A text up to some place: whole lines, and then a beginning of the next line. -/
structure LineCut where
  whole : List (List Char)
  beginning : List Char
  unbroken : ∀ line ∈ whole, '\n' ∉ line
  started : '\n' ∉ beginning

namespace LineCut

/-- The whole lines, each with its newline. -/
def closed (cut : LineCut) : List Char := cut.whole.flatMap (· ++ ['\n'])

def chars (cut : LineCut) : List Char := cut.closed ++ cut.beginning

theorem exists_chars_eq (text : List Char) : ∃ cut : LineCut, cut.chars = text := by
  induction text using List.reverseRecOn with
  | nil => exact ⟨⟨[], [], by simp, by simp⟩, rfl⟩
  | append_singleton text c ih =>
    obtain ⟨cut, rfl⟩ := ih
    by_cases hc : c = '\n'
    · refine ⟨⟨cut.whole ++ [cut.beginning], [], ?_, by simp⟩, by simp [chars, closed, hc]⟩
      intro line hline
      rcases List.mem_append.mp hline with h | h
      · exact cut.unbroken line h
      · rw [List.mem_singleton.mp h]
        exact cut.started
    · refine ⟨⟨cut.whole, cut.beginning ++ [c], cut.unbroken, ?_⟩, by simp [chars, closed]⟩
      simp [cut.started, Ne.symm hc]

theorem count_closed (cut : LineCut) : cut.closed.count '\n' = cut.whole.length := by
  obtain ⟨whole, beginning, unbroken, _⟩ := cut
  change (whole.flatMap (· ++ ['\n'])).count '\n' = whole.length
  clear * - unbroken
  induction whole with
  | nil => rfl
  | cons line rest ih =>
    rw [List.forall_mem_cons] at unbroken
    simp [List.count_append, List.count_eq_zero.mpr unbroken.1, ih unbroken.2]

theorem length_closed (cut : LineCut) : (cut.whole.map (·.length + 1)).sum = cut.closed.length := by
  simp [closed, List.length_flatMap]

/-- Before the beginning of a line stands nothing or a newline. -/
theorem closed_cases (cut : LineCut) :
    cut.closed = [] ∧ cut.whole.length = 0 ∨ ∃ a, cut.closed = a ++ ['\n'] ∧ cut.whole.length ≠ 0 := by
  rcases List.eq_nil_or_concat cut.whole with h | ⟨lines, line, h⟩
  · exact .inl ⟨by simp [closed, h], by simp [h]⟩
  · refine .inr ⟨lines.flatMap (· ++ ['\n']) ++ line, ?_, ?_⟩ <;> simp [closed, h]

theorem lineAndColumn_eq (cut : LineCut) (rest : List Char) :
    Text.lineAndColumn (cut.chars ++ rest) cut.chars.length =
      (cut.whole.length + 1, cut.beginning.length + 1) := by
  have hcount : cut.chars.count '\n' = cut.whole.length := by
    rw [chars, List.count_append, cut.count_closed, List.count_eq_zero.mpr cut.started, Nat.add_zero]
  have hback : cut.chars.reverse.takeWhile (· != '\n') = cut.beginning.reverse := by
    have hall : ∀ c ∈ cut.beginning.reverse, (c != '\n') = true := by
      intro c hc
      have hne : c ≠ '\n' := fun h => cut.started (h ▸ List.mem_reverse.mp hc)
      simpa using hne
    rw [chars, List.reverse_append, List.takeWhile_append_of_pos hall]
    rcases cut.closed_cases with ⟨h, _⟩ | ⟨a, h, _⟩ <;> simp [h]
  simp only [Text.lineAndColumn, List.take_left', hcount, hback, List.length_reverse]

theorem newlineOffsets_eq (cut : LineCut) (rest : List Char) :
    newlineOffsets (cut.chars ++ rest) =
      newlineOffsets cut.closed ++ (newlineOffsets rest).map (· + cut.chars.length) := by
  rw [newlineOffsets_append, chars, newlineOffsets_append, newlineOffsets_of_not_mem cut.started, List.map_nil,
    List.append_nil]

/-- The lookup of the line table finds the same place. -/
theorem locate_eq (cut : LineCut) (rest : List Char) :
    (LineIndex.ofText (cut.chars ++ rest)).locate cut.chars.length =
      ⟨cut.whole.length + 1, cut.beginning.length + 1⟩ := by
  have hlength : (newlineOffsets cut.closed).length = cut.whole.length := by
    rw [newlineOffsets_length, cut.count_closed]
  have hbelow : ∀ i ∈ newlineOffsets cut.closed, i < cut.chars.length := by
    intro i hi
    have h := newlineOffsets_lt hi
    simp only [chars, List.length_append]
    omega
  have hothers : ∀ i ∈ (newlineOffsets rest).map (· + cut.chars.length), cut.chars.length ≤ i := by
    simp only [List.mem_map]
    rintro i ⟨j, _, rfl⟩
    omega
  have hline := firstNotBelow_eq _ _ cut.chars.length 0 _ hbelow hothers (Nat.zero_le _)
    (by simp only [List.length_append]; omega) (le_refl _)
  have hchars : cut.chars.length = cut.closed.length + cut.beginning.length := List.length_append
  simp only [LineIndex.locate, LineIndex.ofText, newlineOffsets_eq, List.size_toArray, hline, hlength]
  rcases cut.closed_cases with ⟨h, hnone⟩ | ⟨a, h, hsome⟩
  · simp only [h, List.length_nil] at hchars
    rw [if_pos hnone, Location.mk.injEq]
    exact ⟨rfl, by omega⟩
  · -- The last newline of the whole lines is the entry just before the place.
    have hlast : newlineOffsets cut.closed = newlineOffsets a ++ [a.length] := by
      rw [h, newlineOffsets_append]
      simp [newlineOffsets]
    have hindex : cut.whole.length - 1 = (newlineOffsets a).length := by
      rw [hlast, List.length_append, List.length_singleton] at hlength
      omega
    have hstart : (newlineOffsets cut.closed ++ (newlineOffsets rest).map (· + cut.chars.length)).toArray.getD
        (cut.whole.length - 1) 0 = a.length := by simp [hlast, hindex]
    simp only [h, List.length_append, List.length_singleton] at hchars
    rw [if_neg hsome, hstart, Location.mk.injEq]
    exact ⟨rfl, by omega⟩

theorem splitOn_eq (cut : LineCut) (rest : List Char) :
    (cut.chars ++ rest).splitOn '\n' = cut.whole ++ (cut.beginning ++ rest).splitOn '\n' := by
  obtain ⟨whole, beginning, unbroken, _⟩ := cut
  change (whole.flatMap (· ++ ['\n']) ++ beginning ++ rest).splitOn '\n' = _
  induction whole with
  | nil => rfl
  | cons line lines ih =>
    rw [List.forall_mem_cons] at unbroken
    rw [List.cons_append, ← ih unbroken.2, ← List.splitOn_append_cons_self_of_not_mem unbroken.1]
    simp [List.append_assoc]

end LineCut

/-- Every place of a text is the end of a cut. -/
theorem exists_cut_at {text : List Char} {offset : Nat} (h : offset ≤ text.length) :
    ∃ (cut : LineCut) (rest : List Char), text = cut.chars ++ rest ∧ offset = cut.chars.length := by
  obtain ⟨cut, hcut⟩ := LineCut.exists_chars_eq (text.take offset)
  refine ⟨cut, text.drop offset, ?_, ?_⟩
  · rw [hcut, List.take_append_drop]
  · rw [hcut, List.length_take, Nat.min_eq_left h]

namespace Location

theorem ofOffset_cut (cut : LineCut) (rest : List Char) :
    ofOffset (cut.chars ++ rest) cut.chars.length = ⟨cut.whole.length + 1, cut.beginning.length + 1⟩ := by
  rw [ofOffset, cut.lineAndColumn_eq]
  simp

theorem ofOffset_within {text : List Char} {offset : Nat} (h : offset ≤ text.length) :
    (ofOffset text offset).Within text := by
  obtain ⟨cut, rest, rfl, rfl⟩ := exists_cut_at h
  obtain ⟨tail, lines, hline⟩ := splitOn_append_of_not_mem rest cut.started
  rw [ofOffset_cut, Within, cut.splitOn_eq, hline]
  have hthere : (cut.whole ++ (cut.beginning ++ tail) :: lines).getD cut.whole.length [] =
      cut.beginning ++ tail := by simp
  simp only [Int.add_sub_cancel, Int.toNat_natCast, hthere, List.length_append, List.length_cons]
  omega

/-- Line and column lead back to the offset. -/
theorem offsetIn_ofOffset {text : List Char} {offset : Nat} (h : offset ≤ text.length) :
    (ofOffset text offset).offsetIn text = offset := by
  obtain ⟨cut, rest, rfl, rfl⟩ := exists_cut_at h
  have htake : (cut.whole ++ (cut.beginning ++ rest).splitOn '\n').take cut.whole.length = cut.whole := by simp
  rw [ofOffset_cut, offsetIn, cut.splitOn_eq]
  simp only [Int.add_sub_cancel, Int.toNat_natCast, htake, cut.length_closed, LineCut.chars, List.length_append]

/-- On one line, places stand in the order of their columns. -/
theorem column_le_of_line_eq {text : List Char} {i j : Nat} (hij : i ≤ j) (hj : j ≤ text.length)
    (hline : (ofOffset text i).line = (ofOffset text j).line) :
    (ofOffset text i).column ≤ (ofOffset text j).column := by
  have hi : i ≤ text.length := hij.trans hj
  have hbefore := offsetIn_ofOffset hi
  have hafter := offsetIn_ofOffset hj
  rw [offsetIn, hline] at hbefore
  rw [offsetIn] at hafter
  obtain ⟨_, _, hcolumn, _⟩ := ofOffset_within hj
  omega

end Location

/-- The line table knows the place of every offset up to the end of the text. -/
theorem LineIndex.resolve_ofText {text : List Char} {offset : Nat} (h : offset ≤ text.length) :
    (LineIndex.ofText text).resolve offset = .ok (.ofOffset text offset) := by
  have hrange : ¬((offset : Int) < 0 ∨ ((LineIndex.ofText text).length : Int) < offset) := by
    simp only [LineIndex.ofText]
    omega
  obtain ⟨cut, rest, rfl, rfl⟩ := exists_cut_at h
  rw [resolve, if_neg hrange, Int.toNat_natCast, cut.locate_eq, Location.ofOffset_cut]

end ScriptAudit
