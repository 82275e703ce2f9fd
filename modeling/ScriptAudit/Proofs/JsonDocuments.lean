import ScriptAudit.Proofs.Catalogs
import ScriptAudit.Proofs.JsonStrings

namespace ScriptAudit

/-- Texts, and lists and records of them, so many in each other at most. No record has two fields of one name. -/
inductive Value.Textual : Nat → Value → Prop
  | text (levels : Nat) (s : String) : Textual levels (.text s)
  | list {levels : Nat} {items : List Value} (members : ∀ v ∈ items, v.Textual levels) :
      Textual (levels + 1) (.list items)
  | record {levels : Nat} {fields : List (String × Value)} (different : (fields.map (·.1)).Nodup)
      (members : ∀ field ∈ fields, field.2.Textual levels) : Textual (levels + 1) (.record fields)

namespace Json

theorem Cursor.skipBlank_cons {c : Char} (h : isBlank c = false) (pos : Nat) (rest : List Char) :
    skipBlank ⟨pos, c :: rest⟩ = ⟨pos, c :: rest⟩ := by
  simp [skipBlank, h, drop]

/-- The white space before a token is passed over. -/
theorem Cursor.skipBlank_append (blanks text : List Char) (hall : ∀ c ∈ blanks, isBlank c = true)
    (htext : ∃ c cs, text = c :: cs ∧ isBlank c = false) (pos : Nat) :
    ∃ pos', skipBlank ⟨pos, blanks ++ text⟩ = ⟨pos', text⟩ := by
  obtain ⟨c, cs, rfl, hc⟩ := htext
  have htake : (blanks ++ c :: cs).takeWhile isBlank = blanks := by
    rw [List.takeWhile_append_of_pos hall, List.takeWhile_cons_of_neg (by simp [hc]), List.append_nil]
  rw [skipBlank, htake, drop]
  exact ⟨_, by rw [List.drop_left]⟩

theorem Cursor.skipBlank_newLine (text : List Char) (htext : ∃ c cs, text = c :: cs ∧ isBlank c = false)
    (depth pos : Nat) : ∃ pos', skipBlank ⟨pos, newLine depth ++ text⟩ = ⟨pos', text⟩ := by
  refine skipBlank_append _ text (fun c hc => ?_) htext pos
  rcases List.mem_cons.mp hc with rfl | hc
  · rfl
  · rw [List.eq_of_mem_replicate hc]
    rfl

/-- Values begin with a quote or a bracket. -/
theorem layout_head {levels : Nat} {v : Value} (h : v.Textual levels) (depth : Nat) :
    ∃ c cs, layout depth v = c :: cs ∧ Cursor.isBlank c = false ∧ c ≠ ']' ∧ c ≠ '\ufeff' := by
  cases h with
  | text s => exact ⟨'"', _, by rw [layout]; rfl, by decide⟩
  | @list _ items _ =>
    cases items with
    | nil => exact ⟨'[', _, by rw [layout], by decide⟩
    | cons v rest => exact ⟨'[', _, by rw [layout]; rfl, by decide⟩
  | @record _ fields _ _ =>
    cases fields with
    | nil => exact ⟨'\x7b', _, by rw [layout], by decide⟩
    | cons field rest => exact ⟨'\x7b', _, by rw [layout]; rfl, by decide⟩

theorem length_le_quoted (s : String) : s.toList.length + 2 ≤ (quoted s).length := by
  have hall (cs : List Char) : cs.length ≤ (cs.flatMap escapeChar).length := by
    induction cs with
    | nil => exact Nat.le_refl _
    | cons c cs ih =>
      have hc : 0 < (escapeChar c).length := by
        rcases escapeChar_cases c with ⟨e, hc, _⟩ | ⟨hc, _⟩ | ⟨hc, _⟩ | ⟨high, low, hc, _⟩ <;> simp [hc, codeUnit]
      rw [List.flatMap_cons, List.length_append, List.length_cons]
      omega
  have hs := hall s.toList
  simp only [quoted, List.length_append, List.length_cons, List.length_nil]
  omega

/-- A name or text that is written down is read again. -/
theorem string_ofQuoted (s : String) (start pos : Nat) (rest : List Char) :
    ∃ body pos', quoted s ++ rest = '"' :: body ∧
      string start (body.length + 1) [] ⟨pos, body⟩ = .ok (s, ⟨pos', rest⟩) := by
  have hlength := length_le_quoted s
  obtain ⟨pos', hread⟩ := string_quoted start (s.toList.flatMap escapeChar ++ '"' :: rest).length.succ [] pos s.toList
    rest (by simp [quoted] at hlength ⊢; omega)
  refine ⟨s.toList.flatMap escapeChar ++ '"' :: rest, pos', by simp [quoted], ?_⟩
  simpa using hread

/-- A value that is written down is read again, whatever comes after it, where there is room for so many levels. -/
def Reads (levels : Nat) (v : Value) : Prop :=
  ∀ (depth n pos : Nat) (rest : List Char), depth + levels ≤ nestingLimit → (layout depth v).length ≤ n →
    ∃ pos', value depth n ⟨pos, layout depth v ++ rest⟩ = .ok (v, ⟨pos', rest⟩)

theorem reads_text (levels : Nat) (s : String) : Reads levels (.text s) := by
  intro depth n pos rest _ hn
  obtain ⟨body, pos', hbody, hread⟩ := string_ofQuoted s pos (pos + 1) rest
  have hlength := length_le_quoted s
  rw [layout] at hn ⊢
  obtain ⟨m, rfl⟩ : ∃ m, n = m + 1 := ⟨n - 1, by omega⟩
  rw [hbody]
  exact ⟨pos', by simp [value, Cursor.drop, hread, bind, Except.bind, pure, Except.pure]⟩

section Steps

variable {depth n pos : Nat} {v : Value} {c c' : Cursor} {rest : List Char}

theorem items_last (hread : value depth n c = .ok (v, c')) (hend : c'.skipBlank = ⟨pos, ']' :: rest⟩)
    (seen : List Value) : items depth (n + 1) seen c = .ok (.list (v :: seen).reverse, ⟨pos + 1, rest⟩) := by
  simp only [items, hread, bind, Except.bind, hend]
  rfl

theorem items_next (hread : value depth n c = .ok (v, c')) (hnext : c'.skipBlank = ⟨pos, ',' :: rest⟩)
    (seen : List Value) :
    items depth (n + 1) seen c = items depth n (v :: seen) (Cursor.skipBlank ⟨pos + 1, rest⟩) := by
  simp only [items, hread, bind, Except.bind, hnext]
  rfl

theorem value_list {d : Char} {cs : List Char} {p : Nat} (hroom : ¬ nestingLimit ≤ depth)
    (hskip : Cursor.skipBlank ⟨pos + 1, cs⟩ = ⟨p, d :: rest⟩) (hd : d ≠ ']') :
    value depth (n + 1) ⟨pos, '[' :: cs⟩ = items (depth + 1) n [] ⟨p, d :: rest⟩ := by
  simp only [value, if_neg hroom, Cursor.drop, List.drop_succ_cons, List.drop_zero, hskip]
  split
  next heq => exact absurd (List.head_eq_of_cons_eq heq) hd
  next => rfl

theorem value_record {d : Char} {cs : List Char} {p : Nat} (hroom : ¬ nestingLimit ≤ depth)
    (hskip : Cursor.skipBlank ⟨pos + 1, cs⟩ = ⟨p, d :: rest⟩) (hd : d ≠ '\x7d') :
    value depth (n + 1) ⟨pos, '\x7b' :: cs⟩ = fields (depth + 1) n [] ⟨p, d :: rest⟩ := by
  simp only [value, if_neg hroom, Cursor.drop, List.drop_succ_cons, List.drop_zero, hskip]
  split
  next heq => exact absurd (List.head_eq_of_cons_eq heq) hd
  next => rfl

end Steps

section Members

variable {levels : Nat} (depth outer : Nat) (hdepth : depth + levels ≤ nestingLimit) (rest : List Char)

theorem layout_append_head {v : Value} (h : v.Textual levels) :
    ∃ c cs, layout depth v ++ rest = c :: cs ∧ Cursor.isBlank c = false := by
  obtain ⟨c, cs, hlayout, hblank, _⟩ := layout_head h depth
  exact ⟨c, cs ++ rest, by rw [hlayout, List.cons_append], hblank⟩

include hdepth in
/-- The members of a list, from one on. -/
theorem items_layout {v : Value} {more : List Value} (h : ∀ w ∈ v :: more, w.Textual levels ∧ Reads levels w)
    (n pos : Nat) (seen : List Value) (hn : (layout depth v).length + (layoutItems depth more).length < n) :
    ∃ pos', items depth n seen ⟨pos, layout depth v ++ (layoutItems depth more ++ (newLine outer ++ ']' :: rest))⟩ =
      .ok (.list (seen.reverse ++ v :: more), ⟨pos', rest⟩) := by
  obtain ⟨m, rfl⟩ : ∃ m, n = m + 1 := ⟨n - 1, by omega⟩
  induction more generalizing v m pos seen with
  | nil =>
    obtain ⟨pos₁, hread⟩ := (h v List.mem_cons_self).2 depth m pos (newLine outer ++ ']' :: rest) hdepth (by omega)
    obtain ⟨pos₂, hend⟩ := Cursor.skipBlank_newLine (']' :: rest) ⟨_, _, rfl, by decide⟩ outer pos₁
    refine ⟨pos₂ + 1, ?_⟩
    rw [layoutItems, List.nil_append, items_last hread hend, List.reverse_cons]
  | cons w more ih =>
    obtain ⟨hv, hmore⟩ := List.forall_mem_cons.mp h
    have hcomma : layoutItems depth (w :: more) ++ (newLine outer ++ ']' :: rest) =
        ',' :: (newLine depth ++ (layout depth w ++ (layoutItems depth more ++ (newLine outer ++ ']' :: rest)))) := by
      simp [layoutItems]
    have hlength : (layoutItems depth (w :: more)).length =
        (newLine depth).length + (layout depth w).length + (layoutItems depth more).length + 1 := by
      simp [layoutItems]
      omega
    -- The line break pays for the step that the comma takes.
    have hline : 0 < (newLine depth).length := by simp [newLine]
    obtain ⟨k, rfl⟩ : ∃ k, m = k + 1 := ⟨m - 1, by omega⟩
    obtain ⟨pos₁, hread⟩ := hv.2 depth (k + 1) pos (layoutItems depth (w :: more) ++ (newLine outer ++ ']' :: rest))
      hdepth (by omega)
    rw [hcomma] at hread
    obtain ⟨pos₂, hskip⟩ := Cursor.skipBlank_newLine _ (layout_append_head depth
      (layoutItems depth more ++ (newLine outer ++ ']' :: rest)) (hmore w List.mem_cons_self).1) depth (pos₁ + 1)
    obtain ⟨pos₃, hitems⟩ := ih hmore pos₂ (v :: seen) k (by omega)
    refine ⟨pos₃, ?_⟩
    rw [hcomma, items_next hread (Cursor.skipBlank_cons (by decide) _ _), hskip, hitems, List.reverse_cons,
      List.append_assoc, List.singleton_append]

/-- A field whose name is new comes last. -/
theorem setField_of_nodup {name : String} {v : Value} {seen more : List (String × Value)}
    (h : ((seen ++ (name, v) :: more).map (·.1)).Nodup) : setField name v seen = seen ++ [(name, v)] := by
  induction seen with
  | nil => rfl
  | cons field seen ih =>
    rw [List.cons_append, List.map_cons, List.nodup_cons] at h
    have hne : field.1 ≠ name := by
      rintro rfl
      exact h.1 (by simp)
    rw [setField, if_neg (by simpa using hne), ih h.2, List.cons_append]

include hdepth in
/-- One field, and how the record goes on after it. -/
theorem fields_field (name : String) {v : Value} (h : v.Textual levels) (hv : Reads levels v) {n : Nat}
    (hn : (layout depth v).length ≤ n) (pos : Nat) (tail : List Char) :
    ∃ p, ∀ (q : Nat) (after : List Char) (seen : List (String × Value)),
      (Cursor.skipBlank ⟨p, tail⟩ = ⟨q, '\x7d' :: after⟩ →
        fields depth (n + 1) seen ⟨pos, quoted name ++ (':' :: ' ' :: (layout depth v ++ tail))⟩ =
          .ok (.record (setField name v seen), ⟨q + 1, after⟩)) ∧
      (Cursor.skipBlank ⟨p, tail⟩ = ⟨q, ',' :: after⟩ →
        fields depth (n + 1) seen ⟨pos, quoted name ++ (':' :: ' ' :: (layout depth v ++ tail))⟩ =
          fields depth n (setField name v seen) (Cursor.skipBlank ⟨q + 1, after⟩)) := by
  obtain ⟨body, p₁, hbody, hname⟩ := string_ofQuoted name pos (pos + 1) (':' :: ' ' :: (layout depth v ++ tail))
  have hcolon := Cursor.skipBlank_cons (c := ':') (by decide) p₁ (' ' :: (layout depth v ++ tail))
  obtain ⟨p₂, hblank⟩ := Cursor.skipBlank_append [' '] _ (List.forall_mem_singleton.mpr rfl)
    (layout_append_head depth tail h) (p₁ + 1)
  rw [List.singleton_append] at hblank
  obtain ⟨p, hread⟩ := hv depth n p₂ tail hdepth hn
  refine ⟨p, fun q after seen => ?_⟩
  rw [hbody]
  constructor
  · intro hend
    simp only [fields, Cursor.drop, List.drop_succ_cons, List.drop_zero, hname, bind, Except.bind, hcolon, hblank,
      hread, hend]
    rfl
  · intro hnext
    simp only [fields, Cursor.drop, List.drop_succ_cons, List.drop_zero, hname, bind, Except.bind, hcolon, hblank,
      hread, hnext]

include hdepth in
/-- The fields of a record, from one on. -/
theorem fields_layout {name : String} {v : Value} {more : List (String × Value)}
    (h : ∀ field ∈ (name, v) :: more, field.2.Textual levels ∧ Reads levels field.2) (n pos : Nat)
    (seen : List (String × Value)) (hdifferent : ((seen ++ (name, v) :: more).map (·.1)).Nodup)
    (hn : (layout depth v).length + (layoutFields depth more).length < n) :
    ∃ pos', fields depth n seen ⟨pos, quoted name ++
        (':' :: ' ' :: (layout depth v ++ (layoutFields depth more ++ (newLine outer ++ '\x7d' :: rest))))⟩ =
      .ok (.record (seen ++ (name, v) :: more), ⟨pos', rest⟩) := by
  obtain ⟨m, rfl⟩ : ∃ m, n = m + 1 := ⟨n - 1, by omega⟩
  induction more generalizing name v m pos seen with
  | nil =>
    obtain ⟨hv, hread⟩ := h _ List.mem_cons_self
    have hlength : (layout depth v).length ≤ m := by omega
    obtain ⟨p, hfield⟩ := fields_field depth hdepth name hv hread (n := m) hlength pos (newLine outer ++ '\x7d' :: rest)
    obtain ⟨q, hend⟩ := Cursor.skipBlank_newLine ('\x7d' :: rest) ⟨_, _, rfl, by decide⟩ outer p
    refine ⟨q + 1, ?_⟩
    rw [layoutFields, List.nil_append, (hfield q rest seen).1 hend, setField_of_nodup hdifferent]
  | cons field more ih =>
    obtain ⟨other, w⟩ := field
    obtain ⟨hv, hmore⟩ := List.forall_mem_cons.mp h
    have hcomma : layoutFields depth ((other, w) :: more) ++ (newLine outer ++ '\x7d' :: rest) =
        ',' :: (newLine depth ++ (quoted other ++ (':' :: ' ' ::
          (layout depth w ++ (layoutFields depth more ++ (newLine outer ++ '\x7d' :: rest)))))) := by
      simp [layoutFields]
    have hlength : (layout depth w).length + (layoutFields depth more).length + 1 <
        (layoutFields depth ((other, w) :: more)).length := by
      simp [layoutFields]
      omega
    obtain ⟨k, rfl⟩ : ∃ k, m = k + 1 := ⟨m - 1, by omega⟩
    obtain ⟨p, hfield⟩ := fields_field depth hdepth name (v := v) hv.1 hv.2 (n := k + 1) (by omega) pos
      (layoutFields depth ((other, w) :: more) ++ (newLine outer ++ '\x7d' :: rest))
    obtain ⟨q, hskip⟩ := Cursor.skipBlank_newLine (quoted other ++ (':' :: ' ' ::
      (layout depth w ++ (layoutFields depth more ++ (newLine outer ++ '\x7d' :: rest))))) ⟨'"', _, rfl, by decide⟩
      depth (p + 1)
    -- The field that has been read moves to those seen; all names together stay as they are.
    have hdifferent' : ((seen ++ [(name, v)] ++ (other, w) :: more).map (·.1)).Nodup := by
      simpa using hdifferent
    obtain ⟨pos', hfields⟩ := ih hmore q (seen ++ [(name, v)]) hdifferent' k (by omega)
    refine ⟨pos', ?_⟩
    rw [(hfield p _ seen).2 (by rw [hcomma]; exact Cursor.skipBlank_cons (by decide) _ _), hskip,
      setField_of_nodup hdifferent, hfields, List.append_assoc, List.singleton_append]

end Members

section Levels

variable {levels : Nat}

theorem reads_list {members : List Value} (h : ∀ v ∈ members, v.Textual levels ∧ Reads levels v) :
    Reads (levels + 1) (.list members) := by
  intro depth n pos rest hdepth hn
  have hroom : ¬ nestingLimit ≤ depth := by omega
  cases members with
  | nil =>
    rw [layout] at hn ⊢
    obtain ⟨m, rfl⟩ : ∃ m, n = m + 1 := ⟨n - 1, by simp at hn; omega⟩
    exact ⟨pos + 1 + 1, by simp [value, if_neg hroom, Cursor.drop, Cursor.skipBlank_cons (c := ']') (by decide)]⟩
  | cons v more =>
    have hlayout : layout depth (.list (v :: more)) ++ rest = '[' :: (newLine (depth + 1) ++
        (layout (depth + 1) v ++ (layoutItems (depth + 1) more ++ (newLine depth ++ ']' :: rest)))) := by
      simp [layout]
    have hlength : (layout (depth + 1) v).length + (layoutItems (depth + 1) more).length + 1 <
        (layout depth (.list (v :: more))).length := by
      simp [layout]
      omega
    obtain ⟨m, rfl⟩ : ∃ m, n = m + 1 := ⟨n - 1, by omega⟩
    obtain ⟨c, cs, hhead, hblank, hc, _⟩ := layout_head (h v List.mem_cons_self).1 (depth + 1)
    obtain ⟨p, hskip⟩ := Cursor.skipBlank_newLine (layout (depth + 1) v ++ (layoutItems (depth + 1) more ++
      (newLine depth ++ ']' :: rest))) ⟨c, _, by rw [hhead, List.cons_append], hblank⟩ (depth + 1) (pos + 1)
    obtain ⟨pos', hitems⟩ := items_layout (depth + 1) depth (by omega) rest h m p [] (by omega)
    rw [hhead, List.cons_append] at hskip hitems
    refine ⟨pos', ?_⟩
    rw [hlayout, hhead, List.cons_append, value_list hroom hskip hc, hitems, List.reverse_nil, List.nil_append]

theorem reads_record {members : List (String × Value)} (hdifferent : (members.map (·.1)).Nodup)
    (h : ∀ field ∈ members, field.2.Textual levels ∧ Reads levels field.2) : Reads (levels + 1) (.record members) := by
  intro depth n pos rest hdepth hn
  have hroom : ¬ nestingLimit ≤ depth := by omega
  cases members with
  | nil =>
    rw [layout] at hn ⊢
    obtain ⟨m, rfl⟩ : ∃ m, n = m + 1 := ⟨n - 1, by simp at hn; omega⟩
    exact ⟨pos + 1 + 1, by simp [value, if_neg hroom, Cursor.drop, Cursor.skipBlank_cons (c := '\x7d') (by decide)]⟩
  | cons field more =>
    obtain ⟨name, v⟩ := field
    have hlayout : layout depth (.record ((name, v) :: more)) ++ rest = '\x7b' :: (newLine (depth + 1) ++
        (quoted name ++ (':' :: ' ' :: (layout (depth + 1) v ++ (layoutFields (depth + 1) more ++
          (newLine depth ++ '\x7d' :: rest)))))) := by
      simp [layout]
    have hlength : (layout (depth + 1) v).length + (layoutFields (depth + 1) more).length + 1 <
        (layout depth (.record ((name, v) :: more))).length := by
      simp [layout]
      omega
    obtain ⟨m, rfl⟩ : ∃ m, n = m + 1 := ⟨n - 1, by omega⟩
    obtain ⟨p, hskip⟩ := Cursor.skipBlank_newLine (quoted name ++ (':' :: ' ' :: (layout (depth + 1) v ++
      (layoutFields (depth + 1) more ++ (newLine depth ++ '\x7d' :: rest))))) ⟨'"', _, rfl, by decide⟩ (depth + 1)
      (pos + 1)
    obtain ⟨pos', hfields⟩ := fields_layout (depth + 1) depth (by omega) rest h m p [] hdifferent (by omega)
    refine ⟨pos', ?_⟩
    rw [hlayout, value_record hroom hskip (by decide)]
    exact hfields

/-- Every such value is read again as it was written. -/
theorem reads_of_textual {v : Value} (h : v.Textual levels) : Reads levels v := by
  induction h with
  | text levels s => exact reads_text levels s
  | list members ih => exact reads_list fun v hv => ⟨members v hv, ih v hv⟩
  | record different members ih =>
    exact reads_record different fun field hfield => ⟨members field hfield, ih field hfield⟩

theorem read_render {v : Value} (h : v.Textual levels) (hlevels : levels ≤ nestingLimit) :
    read (render v ++ "\n").toList = .ok v := by
  obtain ⟨c, cs, hlayout, hblank, _, hmark⟩ := layout_head h 0
  have htext : (render v ++ "\n").toList = c :: (cs ++ ['\n']) := by simp [render, hlayout]
  have hlength : (layout 0 v).length ≤ 2 * (c :: (cs ++ ['\n'])).length + 2 := by
    rw [hlayout, List.length_cons, List.length_cons, List.length_append]
    omega
  obtain ⟨pos, hread⟩ := reads_of_textual h 0 _ 0 ['\n'] (by omega) hlength
  rw [hlayout, List.cons_append] at hread
  rw [htext, read]
  · simp only [Cursor.skipBlank_cons hblank, hread, bind, Except.bind]
    rfl
  · exact fun _ heq => hmark (List.head_eq_of_cons_eq heq)

end Levels

section Characters

/-- What a document is written with: ASCII that shows, blanks, and line ends of one character. -/
def IsWritten (c : Char) : Prop := c = '\n' ∨ 32 ≤ c.toNat ∧ c.toNat < 127

instance (c : Char) : Decidable (IsWritten c) := inferInstanceAs (Decidable (_ ∨ _))

theorem isWritten_pair {a b : Char} (ha : IsWritten a) (hb : IsWritten b) : ∀ c ∈ [a, b], IsWritten c :=
  List.forall_mem_cons.mpr ⟨ha, List.forall_mem_singleton.mpr hb⟩

theorem isWritten_codeUnit {n : Nat} (h : n < 0x10000) : ∀ c ∈ codeUnit n, IsWritten c := by
  have hdigit : ∀ k < 16, IsWritten (Nat.digitChar k) := by decide
  rw [codeUnit, Text.hex_four h]
  simp only [List.cons_append, List.nil_append, List.forall_mem_cons, List.not_mem_nil, false_implies, implies_true,
    and_true]
  exact ⟨by decide, by decide, hdigit _ (by omega), hdigit _ (by omega), hdigit _ (by omega), hdigit _ (by omega)⟩

theorem isWritten_of_simpleEscape? {c e : Char} (h : simpleEscape? e = some c) : IsWritten e := by
  unfold simpleEscape? at h
  split at h
  case h_9 => exact absurd h (by simp)
  all_goals decide

theorem isWritten_escapeChar (c : Char) : ∀ d ∈ escapeChar c, IsWritten d := by
  rcases escapeChar_cases c with ⟨e, hc, he⟩ | ⟨hc, _, _, hlow⟩ | ⟨hc, hbasic⟩ | ⟨high, low, hc, hhigh, hlow, _⟩ <;>
    rw [hc]
  · exact isWritten_pair (by decide) (isWritten_of_simpleEscape? he)
  · exact List.forall_mem_singleton.mpr (.inr hlow)
  · exact isWritten_codeUnit hbasic
  · exact List.forall_mem_append.mpr
      ⟨isWritten_codeUnit (lt_of_isHighUnit hhigh), isWritten_codeUnit (lt_of_isLowUnit hlow)⟩

theorem isWritten_quoted (s : String) : ∀ c ∈ quoted s, IsWritten c := by
  have hbody : ∀ c ∈ s.toList.flatMap escapeChar, IsWritten c := by
    intro c hc
    obtain ⟨d, _, hc⟩ := List.mem_flatMap.mp hc
    exact isWritten_escapeChar d c hc
  have hquote : IsWritten '"' := by decide
  rw [quoted, List.cons_append]
  exact List.forall_mem_cons.mpr ⟨hquote, List.forall_mem_append.mpr ⟨hbody, List.forall_mem_singleton.mpr hquote⟩⟩

theorem isWritten_newLine (depth : Nat) : ∀ c ∈ newLine depth, IsWritten c := by
  refine List.forall_mem_cons.mpr ⟨.inl rfl, fun c hc => ?_⟩
  rw [List.eq_of_mem_replicate hc]
  decide

theorem isWritten_layoutItems {depth : Nat} {members : List Value}
    (h : ∀ v ∈ members, ∀ c ∈ layout depth v, IsWritten c) : ∀ c ∈ layoutItems depth members, IsWritten c := by
  induction members with
  | nil => simp [layoutItems]
  | cons v more ih =>
    obtain ⟨hv, hmore⟩ := List.forall_mem_cons.mp h
    simp only [layoutItems, List.cons_append, List.forall_mem_cons, List.forall_mem_append]
    exact ⟨by decide, ⟨isWritten_newLine depth, hv⟩, ih hmore⟩

theorem isWritten_layoutFields {depth : Nat} {members : List (String × Value)}
    (h : ∀ field ∈ members, ∀ c ∈ layout depth field.2, IsWritten c) :
    ∀ c ∈ layoutFields depth members, IsWritten c := by
  induction members with
  | nil => simp [layoutFields]
  | cons field more ih =>
    obtain ⟨hfield, hmore⟩ := List.forall_mem_cons.mp h
    simp only [layoutFields, List.cons_append, List.forall_mem_cons, List.forall_mem_append, List.not_mem_nil,
      false_implies, implies_true, and_true]
    exact ⟨by decide, ⟨⟨⟨isWritten_newLine depth, isWritten_quoted field.1⟩, by decide, by decide⟩, hfield⟩, ih hmore⟩

/-- Whatever a text holds, it is written with such characters only. -/
theorem isWritten_layout {levels : Nat} {v : Value} (h : v.Textual levels) (depth : Nat) : ∀ c ∈ layout depth v, IsWritten c := by
  induction h generalizing depth with
  | text levels s =>
    rw [layout]
    exact isWritten_quoted s
  | @list _ members _ ih =>
    cases members with
    | nil =>
      rw [layout]
      exact isWritten_pair (by decide) (by decide)
    | cons v more =>
      obtain ⟨hv, hmore⟩ := List.forall_mem_cons.mp fun w hw => ih w hw (depth + 1)
      simp only [layout, List.cons_append, List.forall_mem_cons, List.forall_mem_append, List.not_mem_nil,
        false_implies, implies_true, and_true]
      exact ⟨by decide, ⟨⟨⟨isWritten_newLine _, hv⟩, isWritten_layoutItems hmore⟩, isWritten_newLine depth⟩, by decide⟩
  | @record _ members _ _ ih =>
    cases members with
    | nil =>
      rw [layout]
      exact isWritten_pair (by decide) (by decide)
    | cons field more =>
      obtain ⟨hfield, hmore⟩ := List.forall_mem_cons.mp fun f hf => ih f hf (depth + 1)
      simp only [layout, List.cons_append, List.forall_mem_cons, List.forall_mem_append, List.not_mem_nil,
        false_implies, implies_true, and_true]
      exact ⟨by decide, ⟨⟨⟨⟨⟨isWritten_newLine _, isWritten_quoted field.1⟩, by decide, by decide⟩, hfield⟩,
        isWritten_layoutFields hmore⟩, isWritten_newLine depth⟩, by decide⟩

theorem isWritten_render {levels : Nat} {v : Value} (h : v.Textual levels) : ∀ c ∈ (render v ++ "\n").toList, IsWritten c := by
  rw [render, String.toList_append, String.toList_ofList]
  exact List.forall_mem_append.mpr ⟨isWritten_layout h 0, List.forall_mem_singleton.mpr (.inl rfl)⟩

end Characters

section Names

theorem names_setField (name : String) (v : Value) (seen : List (String × Value)) :
    (setField name v seen).map (·.1) = if name ∈ seen.map (·.1) then seen.map (·.1) else seen.map (·.1) ++ [name] := by
  induction seen with
  | nil => rfl
  | cons field seen ih =>
    by_cases hname : field.1 = name
    · simp [setField, hname]
    · rw [setField, if_neg (by simpa using hname), List.map_cons, ih]
      by_cases hmem : name ∈ seen.map (·.1) <;> simp [hmem, Ne.symm hname]

theorem nodup_setField {seen : List (String × Value)} (h : (seen.map (·.1)).Nodup) (name : String) (v : Value) :
    ((setField name v seen).map (·.1)).Nodup := by
  rw [names_setField]
  split_ifs with hmem
  · exact h
  · exact List.Nodup.append h (List.nodup_singleton _) (by simpa using hmem)

theorem Numeral.value_ne_record {n : Numeral} {members : List (String × Value)} : n.value ≠ .ok (.record members) := by
  unfold value
  split_ifs <;> simp [fail]

theorem scalar_ne_record {c c' : Cursor} {members : List (String × Value)} : scalar c ≠ .ok (.record members, c') := by
  have hwords : ∀ w ∈ words, ∀ members, w.2 ≠ .record members := by simp [words]
  intro h
  unfold scalar at h
  split at h
  next result hword =>
    obtain ⟨w, hw, rfl⟩ := Option.map_eq_some_iff.mp hword
    exact hwords w (List.mem_of_find?_eq_some hw) members (congrArg Prod.fst (Except.ok.inj h))
  next =>
    split at h
    next n after _ =>
      obtain ⟨v, hv, h⟩ := bind_eq_ok_iff.mp h
      cases Except.ok.inj h
      exact Numeral.value_ne_record hv
    next => simp [fail] at h

theorem items_ne_record {depth n : Nat} {seen : List Value} {c c' : Cursor} {members : List (String × Value)} :
    items depth n seen c ≠ .ok (.record members, c') := by
  induction n generalizing seen c with
  | zero => simp [items, fail]
  | succ n ih =>
    intro h
    rw [items] at h
    obtain ⟨⟨v, c₁⟩, _, h⟩ := bind_eq_ok_iff.mp h
    dsimp only at h
    split at h
    next => simp [pure, Except.pure] at h
    next => exact ih h
    next => simp [fail] at h

theorem nodup_of_fields {depth n : Nat} {seen : List (String × Value)} {c c' : Cursor}
    {members : List (String × Value)} (hseen : (seen.map (·.1)).Nodup)
    (h : fields depth n seen c = .ok (.record members, c')) : (members.map (·.1)).Nodup := by
  induction n generalizing seen c with
  | zero => simp [fields, fail] at h
  | succ n ih =>
    rw [fields] at h
    split at h
    next =>
      obtain ⟨⟨name, c₁⟩, _, h⟩ := bind_eq_ok_iff.mp h
      dsimp only at h
      split at h
      next =>
        obtain ⟨⟨v, c₂⟩, _, h⟩ := bind_eq_ok_iff.mp h
        dsimp only at h
        split at h
        next =>
          cases Except.ok.inj h
          exact nodup_setField hseen name v
        next => exact ih (nodup_setField hseen name v) h
        next => simp [fail] at h
      next => simp [fail] at h
    next => simp [fail] at h

theorem nodup_of_value {depth n : Nat} {c c' : Cursor} {members : List (String × Value)}
    (h : value depth n c = .ok (.record members, c')) : (members.map (·.1)).Nodup := by
  cases n with
  | zero => simp [value, fail] at h
  | succ n =>
    rw [value] at h
    split at h
    next =>
      obtain ⟨⟨s, c₁⟩, _, h⟩ := bind_eq_ok_iff.mp h
      simp [pure, Except.pure] at h
    next =>
      split at h
      next => simp [fail] at h
      dsimp only at h
      split at h
      next =>
        cases Except.ok.inj h
        exact List.nodup_nil
      next =>
        have hnone : (([] : List (String × Value)).map (·.1)).Nodup := List.nodup_nil
        exact nodup_of_fields hnone h
    next =>
      split at h
      next => simp [fail] at h
      dsimp only at h
      split at h
      next => simp at h
      next => exact absurd h items_ne_record
    next => exact absurd h scalar_ne_record

/-- A document that is a record has no two fields of one name. -/
theorem nodup_of_read {source : List Char} {members : List (String × Value)} (h : read source = .ok (.record members)) :
    (members.map (·.1)).Nodup := by
  unfold read at h
  split at h
  next => simp [fail] at h
  next =>
    obtain ⟨⟨v, c⟩, hvalue, h⟩ := bind_eq_ok_iff.mp h
    dsimp only at h
    split_ifs at h
    · cases Except.ok.inj h
      exact nodup_of_value hvalue
    · simp [fail] at h

end Names

end Json

end ScriptAudit
