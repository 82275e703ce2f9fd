import Mathlib.Data.List.Basic
import ScriptAudit.Json.Printer
import ScriptAudit.Json.Reader

namespace ScriptAudit

theorem Text.hexDigit?_digitChar : ∀ k < 16, hexDigit? (Nat.digitChar k) = some k := by decide

/-- Four digits are enough for a code unit. -/
theorem Text.hex_four {n : Nat} (h : n < 0x10000) :
    hex 4 n = [(n / 4096).digitChar, (n / 256 % 16).digitChar, (n / 16 % 16).digitChar, (n % 16).digitChar] := by
  have hzero : Nat.digitChar 0 = '0' := rfl
  unfold hex
  by_cases h₁ : n < 16
  · have h₂ : n / 4096 = 0 ∧ n / 256 % 16 = 0 ∧ n / 16 % 16 = 0 ∧ n % 16 = n := by omega
    simp [Nat.toDigits_of_lt_base h₁, h₂, hzero]
  rw [Nat.toDigits_of_base_le (by decide) (by omega)]
  by_cases h₂ : n / 16 < 16
  · have h₃ : n / 4096 = 0 ∧ n / 256 % 16 = 0 ∧ n / 16 % 16 = n / 16 := by omega
    simp [Nat.toDigits_of_lt_base h₂, h₃, hzero]
  rw [Nat.toDigits_of_base_le (by decide) (by omega)]
  by_cases h₃ : n / 16 / 16 < 16
  · have h₄ : n / 4096 = 0 ∧ n / 256 % 16 = n / 16 / 16 := by omega
    simp [Nat.toDigits_of_lt_base h₃, h₄, hzero]
  rw [Nat.toDigits_of_base_le (by decide) (by omega)]
  have h₄ : n / 16 / 16 / 16 < 16 ∧ n / 4096 = n / 16 / 16 / 16 ∧ n / 256 % 16 = n / 16 / 16 % 16 := by omega
  simp [Nat.toDigits_of_lt_base h₄.1, h₄.2]

namespace Json

/-- The digits of a code unit stand for it. -/
theorem unit?_hex {n : Nat} (h : n < 0x10000) : unit? (Text.hex 4 n) = some n := by
  rw [Text.hex_four h]
  simp only [unit?, Text.hexDigit?_digitChar _ (show n / 4096 < 16 by omega),
    Text.hexDigit?_digitChar _ (show n / 256 % 16 < 16 by omega),
    Text.hexDigit?_digitChar _ (show n / 16 % 16 < 16 by omega),
    Text.hexDigit?_digitChar _ (show n % 16 < 16 by omega)]
  have hsum : ((n / 4096 * 16 + n / 256 % 16) * 16 + n / 16 % 16) * 16 + n % 16 = n := by omega
  exact congrArg some hsum

theorem length_hex {n : Nat} (h : n < 0x10000) : (Text.hex 4 n).length = 4 := by
  rw [Text.hex_four h]
  rfl

theorem length_codeUnit {n : Nat} (h : n < 0x10000) : (codeUnit n).length = 6 := by
  rw [codeUnit, List.length_append, length_hex h]
  rfl

theorem take_hex {n : Nat} (h : n < 0x10000) (rest : List Char) : (Text.hex 4 n ++ rest).take 4 = Text.hex 4 n :=
  List.take_left' (length_hex h)

theorem drop_hex {n : Nat} (h : n < 0x10000) (rest : List Char) : (Text.hex 4 n ++ rest).drop 4 = rest :=
  List.drop_left' (length_hex h)

theorem charOf_toNat (c : Char) : charOf c.toNat = c := by
  have hvalid : c.toNat.isValidChar := c.valid
  rw [charOf, if_pos hvalid, Char.ofNat_toNat]

theorem lt_of_isHighUnit {n : Nat} (h : isHighUnit n = true) : n < 0x10000 := by
  simp only [isHighUnit, Bool.and_eq_true, decide_eq_true_eq] at h
  omega

theorem lt_of_isLowUnit {n : Nat} (h : isLowUnit n = true) : n < 0x10000 := by
  simp only [isLowUnit, Bool.and_eq_true, decide_eq_true_eq] at h
  omega

/-- A unit that is not the first of a pair is a character, whatever follows it. -/
theorem codeEscape_single {n : Nat} {after : List Char} (hn : n < 0x10000) (hhigh : isHighUnit n = false)
    (hafter : after ≠ []) (pos : Nat) :
    codeEscape ⟨pos, 'u' :: (Text.hex 4 n ++ after)⟩ = .ok (charOf n, 5) := by
  unfold codeEscape
  simp only [List.drop_succ_cons, List.drop_zero, take_hex hn, drop_hex hn, unit?_hex hn]
  split <;> simp_all

/-- The two units of a pair are one character. -/
theorem codeEscape_pair {high low : Nat} {after : List Char} (hhigh : isHighUnit high = true)
    (hlow : isLowUnit low = true) (hafter : after ≠ []) (pos : Nat) :
    codeEscape ⟨pos, 'u' :: (Text.hex 4 high ++ (codeUnit low ++ after))⟩ =
      .ok (charOf (0x10000 + (high - 0xD800) * 0x400 + (low - 0xDC00)), 11) := by
  have hhigh' := lt_of_isHighUnit hhigh
  have hlow' := lt_of_isLowUnit hlow
  have hlong : 4 < (Text.hex 4 low ++ after).length := by
    rw [List.length_append, length_hex hlow']
    have hpos := List.length_pos_iff.mpr hafter
    omega
  unfold codeEscape
  simp only [List.drop_succ_cons, List.drop_zero, take_hex hhigh', drop_hex hhigh', unit?_hex hhigh']
  simp only [codeUnit, List.cons_append, List.nil_append, hhigh, hlong, take_hex hlow', unit?_hex hlow', hlow,
    decide_true, Bool.and_self, if_true]

/-- The four ways to write a character down. -/
theorem escapeChar_cases (c : Char) :
    (∃ e, escapeChar c = ['\\', e] ∧ simpleEscape? e = some c) ∨
    (escapeChar c = [c] ∧ c ≠ '"' ∧ c ≠ '\\' ∧ 32 ≤ c.toNat ∧ c.toNat < 127) ∨
    (escapeChar c = codeUnit c.toNat ∧ c.toNat < 0x10000) ∨
    (∃ high low, escapeChar c = codeUnit high ++ codeUnit low ∧ isHighUnit high = true ∧ isLowUnit low = true ∧
      0x10000 + (high - 0xD800) * 0x400 + (low - 0xDC00) = c.toNat) := by
  have hvalid : c.toNat.isValidChar := c.valid
  simp only [Nat.isValidChar] at hvalid
  have hsimple {d e : Char} (hd : (c == d) = true) (he : simpleEscape? e = some d) :
      ∃ e', ['\\', e] = ['\\', e'] ∧ simpleEscape? e' = some c := ⟨e, rfl, (beq_iff_eq.mp hd) ▸ he⟩
  generalize hwritten : escapeChar c = written
  rw [escapeChar] at hwritten
  split_ifs at hwritten with h₁ h₂ h₃ h₄ h₅ h₆ h₇ hplain hbasic <;> subst hwritten
  · exact .inl (hsimple h₁ rfl)
  · exact .inl (hsimple h₂ rfl)
  · exact .inl (hsimple h₃ rfl)
  · exact .inl (hsimple h₄ rfl)
  · exact .inl (hsimple h₅ rfl)
  · exact .inl (hsimple h₆ rfl)
  · exact .inl (hsimple h₇ rfl)
  · simp only [Bool.and_eq_true, decide_eq_true_eq] at hplain
    exact .inr (.inl ⟨rfl, by simpa using h₁, by simpa using h₂, hplain⟩)
  · exact .inr (.inr (.inl ⟨rfl, hbasic⟩))
  · refine .inr (.inr (.inr ⟨_, _, rfl, ?_, ?_, ?_⟩))
    · simp only [isHighUnit, Bool.and_eq_true, decide_eq_true_eq]
      omega
    · simp only [isLowUnit, Bool.and_eq_true, decide_eq_true_eq]
      omega
    · omega

section Reading

variable (start n : Nat) (seen : List Char) (pos : Nat)

theorem string_simple {c e : Char} (he : simpleEscape? e = some c) (more : List Char) :
    string start (n + 1) seen ⟨pos, '\\' :: e :: more⟩ = string start n (c :: seen) ⟨pos + 2, more⟩ := by
  have hu : e ≠ 'u' := by
    rintro rfl
    simp [simpleEscape?] at he
  simp [string, he, Cursor.drop]

theorem string_plain {c : Char} (hquote : c ≠ '"') (hslash : c ≠ '\\') (hlow : 32 ≤ c.toNat) (more : List Char) :
    string start (n + 1) seen ⟨pos, c :: more⟩ = string start n (c :: seen) ⟨pos + 1, more⟩ := by
  have hnot : ¬c.toNat < 32 := by omega
  simp [string, hslash, hnot, Cursor.drop]

/-- An escape with the digits of a character. -/
theorem string_code {c : Char} {digits more : List Char} {length : Nat} (hlength : digits.length = length)
    (h : codeEscape ⟨pos + 1, 'u' :: (digits ++ more)⟩ = .ok (c, length + 1)) :
    string start (n + 1) seen ⟨pos, '\\' :: 'u' :: (digits ++ more)⟩ =
      string start n (c :: seen) ⟨pos + (length + 2), more⟩ := by
  have hdrop : ('\\' :: 'u' :: (digits ++ more)).drop (1 + (length + 1)) = more := by
    rw [show 1 + (length + 1) = length + 2 by omega, List.drop_succ_cons, List.drop_succ_cons]
    exact List.drop_left' hlength
  simp only [string, Cursor.drop, List.drop_succ_cons, List.drop_zero, h, bind, Except.bind]
  rw [hdrop, show pos + (1 + (length + 1)) = pos + (length + 2) by omega]

theorem string_codeUnit {c : Char} (h : c.toNat < 0x10000) {more : List Char} (hmore : more ≠ []) :
    string start (n + 1) seen ⟨pos, codeUnit c.toNat ++ more⟩ = string start n (c :: seen) ⟨pos + 6, more⟩ := by
  have hhigh : isHighUnit c.toNat = false := by
    have hvalid : c.toNat.isValidChar := c.valid
    simp only [Nat.isValidChar] at hvalid
    simp only [isHighUnit, Bool.and_eq_false_iff, decide_eq_false_iff_not]
    omega
  have hescape := codeEscape_single h hhigh hmore (pos + 1)
  rw [charOf_toNat] at hescape
  simp only [codeUnit, List.cons_append, List.nil_append]
  exact string_code start n seen pos (length_hex h) hescape

/-- The number of a character beyond the basic plane, from the two units it is written with. -/
theorem string_codePair {c : Char} {high low : Nat} (hhigh : isHighUnit high = true) (hlow : isLowUnit low = true)
    (h : 0x10000 + (high - 0xD800) * 0x400 + (low - 0xDC00) = c.toNat) {more : List Char} (hmore : more ≠ []) :
    string start (n + 1) seen ⟨pos, codeUnit high ++ codeUnit low ++ more⟩ =
      string start n (c :: seen) ⟨pos + 12, more⟩ := by
  have hescape := codeEscape_pair hhigh hlow hmore (pos + 1)
  rw [h, charOf_toNat, ← List.append_assoc] at hescape
  have hlength : (Text.hex 4 high ++ codeUnit low).length = 10 := by
    rw [List.length_append, length_hex (lt_of_isHighUnit hhigh), length_codeUnit (lt_of_isLowUnit hlow)]
  have hread := string_code start n seen pos hlength hescape
  simp only [codeUnit, List.cons_append, List.nil_append, List.append_assoc] at hread ⊢
  exact hread

/-- A character that is written down in a string is read again, if the string goes on. -/
theorem string_escapeChar (c : Char) {more : List Char} (hmore : more ≠ []) :
    string start (n + 1) seen ⟨pos, escapeChar c ++ more⟩ =
      string start n (c :: seen) ⟨pos + (escapeChar c).length, more⟩ := by
  rcases escapeChar_cases c with ⟨e, hc, he⟩ | ⟨hc, hquote, hslash, hlow, _⟩ | ⟨hc, hbasic⟩ |
    ⟨high, low, hc, hhigh, hlow, hcode⟩
  · rw [hc]
    exact string_simple start n seen pos he more
  · rw [hc]
    exact string_plain start n seen pos hquote hslash hlow more
  · rw [hc, length_codeUnit hbasic]
    exact string_codeUnit start n seen pos hbasic hmore
  · rw [hc, List.length_append, length_codeUnit (lt_of_isHighUnit hhigh), length_codeUnit (lt_of_isLowUnit hlow)]
    exact string_codePair start n seen pos hhigh hlow hcode hmore

/-- A text that is written down as a string is read again. -/
theorem string_quoted (cs rest : List Char) (hn : cs.length < n) :
    ∃ pos', string start n seen ⟨pos, cs.flatMap escapeChar ++ '"' :: rest⟩ =
      .ok (String.ofList (seen.reverse ++ cs), ⟨pos', rest⟩) := by
  induction cs generalizing n seen pos with
  | nil =>
    obtain ⟨m, rfl⟩ := Nat.exists_eq_add_one_of_ne_zero (Nat.ne_of_gt hn)
    exact ⟨pos + 1, by simp [string, Cursor.drop]⟩
  | cons c cs ih =>
    obtain ⟨m, rfl⟩ := Nat.exists_eq_add_one_of_ne_zero (Nat.ne_of_gt (Nat.zero_lt_of_lt hn))
    obtain ⟨pos', hread⟩ := ih m (c :: seen) (pos + (escapeChar c).length) (by simpa using hn)
    refine ⟨pos', ?_⟩
    rw [List.flatMap_cons, List.append_assoc, string_escapeChar _ _ _ _ c (by simp), hread, List.reverse_cons,
      List.append_assoc, List.singleton_append]

end Reading

end Json

end ScriptAudit
