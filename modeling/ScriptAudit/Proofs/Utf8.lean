import Mathlib.Tactic.SplitIfs
import ScriptAudit.Encoding.Utf8

namespace ScriptAudit

namespace Utf8

theorem toNat_trail (n : Nat) : (trail n).toNat = 0x80 + n % 64 := by
  exact UInt8.toNat_ofNat_of_lt' (show _ < 256 by omega)

theorem isContinuation_trail (n : Nat) : isContinuation (trail n) = true := by
  simp only [isContinuation, Bool.and_eq_true, decide_eq_true_eq, UInt8.le_iff_toNat_le, toNat_trail, UInt8.reduceToNat]
  omega

theorem payload_trail (n : Nat) : payload (trail n) = n % 64 := by
  rw [payload, toNat_trail]
  omega

/-- A second byte is right unless the first one narrows what may follow it. -/
theorem isSecond_trail {a : UInt8} {n : Nat} (hlong : a.toNat = 0xE0 → 0x20 ≤ n % 64)
    (hsurrogate : a.toNat = 0xED → n % 64 < 0x20) (hlonger : a.toNat = 0xF0 → 0x10 ≤ n % 64)
    (hbeyond : a.toNat = 0xF4 → n % 64 < 0x10) : isSecond a (trail n) = true := by
  rw [isSecond, isContinuation_trail, Bool.true_and]
  split_ifs with h₁ h₂ h₃ h₄
  · have hn := hlong (by rw [h₁]; rfl)
    simp only [decide_eq_true_eq, UInt8.le_iff_toNat_le, toNat_trail, UInt8.reduceToNat]
    omega
  · have hn := hsurrogate (by rw [h₂]; rfl)
    simp only [decide_eq_true_eq, UInt8.le_iff_toNat_le, toNat_trail, UInt8.reduceToNat]
    omega
  · have hn := hlonger (by rw [h₃]; rfl)
    simp only [decide_eq_true_eq, UInt8.le_iff_toNat_le, toNat_trail, UInt8.reduceToNat]
    omega
  · have hn := hbeyond (by rw [h₄]; rfl)
    simp only [decide_eq_true_eq, UInt8.le_iff_toNat_le, toNat_trail, UInt8.reduceToNat]
    omega
  · rfl

section Steps

variable (pos : Nat) (seen : List Char) (rest : Bytes) {n : Nat}

theorem decodeFrom_one (h : n < 0x80) :
    decodeFrom pos seen (UInt8.ofNat n :: rest) = decodeFrom (pos + 1) (Char.ofNat n :: seen) rest := by
  have hbyte : (UInt8.ofNat n).toNat = n := UInt8.toNat_ofNat_of_lt' (show _ < 256 by omega)
  rw [decodeFrom.eq_def]
  simp only [UInt8.lt_iff_toNat_lt, hbyte, UInt8.reduceToNat]
  rw [if_pos h]

theorem decodeFrom_two (hlow : 0x80 ≤ n) (hhigh : n < 0x800) :
    decodeFrom pos seen (UInt8.ofNat (0xC0 + n / 64) :: trail n :: rest) =
      decodeFrom (pos + 2) (Char.ofNat n :: seen) rest := by
  have hbyte : (UInt8.ofNat (0xC0 + n / 64)).toNat = 0xC0 + n / 64 := UInt8.toNat_ofNat_of_lt' (show _ < 256 by omega)
  generalize UInt8.ofNat (0xC0 + n / 64) = a at hbyte ⊢
  have hsecond : isSecond a (trail n) = true := isSecond_trail (by omega) (by omega) (by omega) (by omega)
  have hvalue : (0xC0 + n / 64) % 32 * 64 + n % 64 = n := by omega
  rw [decodeFrom.eq_def]
  simp only [UInt8.lt_iff_toNat_lt, hbyte, UInt8.reduceToNat, hsecond, payload_trail, hvalue, if_true]
  rw [if_neg (by omega), if_neg (by omega), if_pos (by omega)]

/-- Numbers of three bytes that are no surrogates. -/
theorem decodeFrom_three (hlow : 0x800 ≤ n) (hhigh : n < 0x10000) (hvalid : n < 0xD800 ∨ 0xDFFF < n) :
    decodeFrom pos seen (UInt8.ofNat (0xE0 + n / 4096) :: trail (n / 64) :: trail n :: rest) =
      decodeFrom (pos + 3) (Char.ofNat n :: seen) rest := by
  have hbyte : (UInt8.ofNat (0xE0 + n / 4096)).toNat = 0xE0 + n / 4096 := UInt8.toNat_ofNat_of_lt' (show _ < 256 by omega)
  generalize UInt8.ofNat (0xE0 + n / 4096) = a at hbyte ⊢
  have hsecond : isSecond a (trail (n / 64)) = true := isSecond_trail (by omega) (by omega) (by omega) (by omega)
  have hvalue : ((0xE0 + n / 4096) % 16 * 64 + n / 64 % 64) * 64 + n % 64 = n := by omega
  rw [decodeFrom.eq_def]
  simp only [UInt8.lt_iff_toNat_lt, hbyte, UInt8.reduceToNat, hsecond, isContinuation_trail, payload_trail, hvalue,
    Bool.not_true, Bool.false_eq_true, if_false, if_true]
  rw [if_neg (by omega), if_neg (by omega), if_neg (by omega), if_pos (by omega)]

theorem decodeFrom_four (hlow : 0x10000 ≤ n) (hhigh : n < 0x110000) :
    decodeFrom pos seen
        (UInt8.ofNat (0xF0 + n / 262144) :: trail (n / 4096) :: trail (n / 64) :: trail n :: rest) =
      decodeFrom (pos + 4) (Char.ofNat n :: seen) rest := by
  have hbyte : (UInt8.ofNat (0xF0 + n / 262144)).toNat = 0xF0 + n / 262144 := UInt8.toNat_ofNat_of_lt' (show _ < 256 by omega)
  generalize UInt8.ofNat (0xF0 + n / 262144) = a at hbyte ⊢
  have hsecond : isSecond a (trail (n / 4096)) = true := isSecond_trail (by omega) (by omega) (by omega) (by omega)
  have hvalue : (((0xF0 + n / 262144) % 8 * 64 + n / 4096 % 64) * 64 + n / 64 % 64) * 64 + n % 64 = n := by omega
  rw [decodeFrom.eq_def]
  simp only [UInt8.lt_iff_toNat_lt, hbyte, UInt8.reduceToNat, hsecond, isContinuation_trail, payload_trail, hvalue,
    Bool.not_true, Bool.false_eq_true, if_false, if_true]
  rw [if_neg (by omega), if_neg (by omega), if_neg (by omega), if_neg (by omega), if_pos (by omega)]

/-- The bytes of a character are read as that character, whatever follows them. -/
theorem decodeFrom_encodeChar (c : Char) :
    ∃ pos', decodeFrom pos seen (encodeChar c ++ rest) = decodeFrom pos' (c :: seen) rest := by
  have hvalid : c.toNat.isValidChar := c.valid
  simp only [Nat.isValidChar] at hvalid
  unfold encodeChar
  dsimp only
  split_ifs with h₁ h₂ h₃
  · exact ⟨_, (decodeFrom_one pos seen rest h₁).trans (by rw [Char.ofNat_toNat])⟩
  · exact ⟨_, (decodeFrom_two pos seen rest (by omega) h₂).trans (by rw [Char.ofNat_toNat])⟩
  · exact ⟨_, (decodeFrom_three pos seen rest (by omega) h₃ (by omega)).trans (by rw [Char.ofNat_toNat])⟩
  · exact ⟨_, (decodeFrom_four pos seen rest (by omega) (by omega)).trans (by rw [Char.ofNat_toNat])⟩

end Steps

theorem encode_cons (c : Char) (text : List Char) : encode (c :: text) = encodeChar c ++ encode text := rfl

/-- The bytes of a text are read as that text, whatever follows them. -/
theorem decodeFrom_encode (pos : Nat) (seen text : List Char) (rest : Bytes) :
    ∃ pos', decodeFrom pos seen (encode text ++ rest) = decodeFrom pos' (text.reverse ++ seen) rest := by
  induction text generalizing pos seen with
  | nil => exact ⟨pos, rfl⟩
  | cons c text ih =>
    obtain ⟨middle, hfirst⟩ := decodeFrom_encodeChar pos seen (encode text ++ rest) c
    obtain ⟨pos', hrest⟩ := ih middle (c :: seen)
    refine ⟨pos', ?_⟩
    rw [encode_cons, List.append_assoc, hfirst, hrest, List.reverse_cons, List.append_assoc, List.singleton_append]

/-- Text that is encoded is decoded to itself. -/
theorem decode_encode (text : List Char) : decode (encode text) = .ok text := by
  obtain ⟨pos, hall⟩ := decodeFrom_encode 0 [] text []
  rw [List.append_nil, decodeFrom] at hall
  simpa [decode] using hall

section Canonical

variable {a b c d : UInt8} {n : Nat}

theorem isContinuation_iff : isContinuation b = true ↔ 0x80 ≤ b.toNat ∧ b.toNat ≤ 0xBF := by
  simp only [isContinuation, Bool.and_eq_true, decide_eq_true_eq, UInt8.le_iff_toNat_le, UInt8.reduceToNat]

/-- The bounds of a second byte, as far as the first one narrows them. -/
theorem isSecond_iff : isSecond a b = true ↔
    isContinuation b = true ∧ (a.toNat = 0xE0 → 0xA0 ≤ b.toNat) ∧ (a.toNat = 0xED → b.toNat ≤ 0x9F) ∧
      (a.toNat = 0xF0 → 0x90 ≤ b.toNat) ∧ (a.toNat = 0xF4 → b.toNat ≤ 0x8F) := by
  rw [isSecond, Bool.and_eq_true]
  refine and_congr_right fun _ => ?_
  simp only [← UInt8.toNat_inj, UInt8.reduceToNat]
  split_ifs with h₁ h₂ h₃ h₄
  case neg => exact iff_of_true rfl (by omega)
  all_goals
    simp only [decide_eq_true_eq, UInt8.le_iff_toNat_le, UInt8.reduceToNat]
    omega

theorem trail_eq (hb : isContinuation b = true) (hn : n % 64 = payload b) : trail n = b := by
  have hbounds := isContinuation_iff.mp hb
  rw [payload] at hn
  apply UInt8.toNat_inj.mp
  rw [toNat_trail]
  omega

theorem toNat_ofNat (h : n < 0xD800 ∨ 0xDFFF < n ∧ n < 0x110000) : (Char.ofNat n).toNat = n := by
  have hvalid : n.isValidChar := h
  rw [Char.ofNat, dif_pos hvalid]
  rfl

theorem ofNat_eq (h : n = a.toNat) : UInt8.ofNat n = a := by
  rw [h, UInt8.ofNat_toNat]

/-- What two right bytes stand for is written with these two. -/
theorem encodeChar_two (hlow : 0xC2 ≤ a.toNat) (hhigh : a.toNat < 0xE0) (hb : isContinuation b = true) :
    encodeChar (Char.ofNat (a.toNat % 32 * 64 + payload b)) = [a, b] := by
  have hpayload : payload b < 64 := Nat.mod_lt _ (by decide)
  have hn : (Char.ofNat (a.toNat % 32 * 64 + payload b)).toNat = a.toNat % 32 * 64 + payload b := toNat_ofNat (by omega)
  have hfirst : UInt8.ofNat (0xC0 + (a.toNat % 32 * 64 + payload b) / 64) = a := ofNat_eq (by omega)
  have hsecond : trail (a.toNat % 32 * 64 + payload b) = b := trail_eq hb (by omega)
  simp only [encodeChar, hn, hfirst, hsecond]
  rw [if_neg (by omega), if_pos (by omega)]

/-- Three bytes, the second of which keeps out what two can hold and the surrogates. -/
theorem encodeChar_three (hlow : 0xE0 ≤ a.toNat) (hhigh : a.toNat < 0xF0) (hb : isSecond a b = true)
    (hc : isContinuation c = true) :
    encodeChar (Char.ofNat ((a.toNat % 16 * 64 + payload b) * 64 + payload c)) = [a, b, c] := by
  obtain ⟨hb, hlong, hsurrogate, _, _⟩ := isSecond_iff.mp hb
  have hbounds := isContinuation_iff.mp hb
  have hpayload : payload b = b.toNat - 0x80 := by
    rw [payload]
    omega
  have hpayload' : payload c < 64 := Nat.mod_lt _ (by decide)
  generalize hvalue : (a.toNat % 16 * 64 + payload b) * 64 + payload c = n
  have hn : (Char.ofNat n).toNat = n := toNat_ofNat (by omega)
  have hfirst : UInt8.ofNat (0xE0 + n / 4096) = a := ofNat_eq (by omega)
  have hsecond : trail (n / 64) = b := trail_eq hb (by omega)
  have hthird : trail n = c := trail_eq hc (by omega)
  simp only [encodeChar, hn, hfirst, hsecond, hthird]
  rw [if_neg (by omega), if_neg (by omega), if_pos (by omega)]

theorem encodeChar_four (hlow : 0xF0 ≤ a.toNat) (hhigh : a.toNat < 0xF5) (hb : isSecond a b = true)
    (hc : isContinuation c = true) (hd : isContinuation d = true) :
    encodeChar (Char.ofNat (((a.toNat % 8 * 64 + payload b) * 64 + payload c) * 64 + payload d)) = [a, b, c, d] := by
  obtain ⟨hb, _, _, hlonger, hbeyond⟩ := isSecond_iff.mp hb
  have hbounds := isContinuation_iff.mp hb
  have hpayload : payload b = b.toNat - 0x80 := by
    rw [payload]
    omega
  have hpayload' : payload c < 64 := Nat.mod_lt _ (by decide)
  have hpayload'' : payload d < 64 := Nat.mod_lt _ (by decide)
  generalize hvalue : ((a.toNat % 8 * 64 + payload b) * 64 + payload c) * 64 + payload d = n
  have hn : (Char.ofNat n).toNat = n := toNat_ofNat (by omega)
  have hfirst : UInt8.ofNat (0xF0 + n / 262144) = a := ofNat_eq (by omega)
  have hsecond : trail (n / 4096) = b := trail_eq hb (by omega)
  have hthird : trail (n / 64) = c := trail_eq hc (by omega)
  have hfourth : trail n = d := trail_eq hd (by omega)
  simp only [encodeChar, hn, hfirst, hsecond, hthird, hfourth]
  rw [if_neg (by omega), if_neg (by omega), if_neg (by omega)]

end Canonical

/-- Bytes that are decoded begin with those of a character. -/
theorem exists_first_char {pos : Nat} {seen : List Char} {data : Bytes} {text : List Char} (hne : data ≠ [])
    (h : decodeFrom pos seen data = .ok text) : ∃ c back, data = encodeChar c ++ back := by
  revert h
  fun_cases decodeFrom pos seen data <;> intro h
  case case1 => exact absurd rfl hne
  case case2 a rest ha =>
    simp only [UInt8.lt_iff_toNat_lt, UInt8.reduceToNat] at ha
    have hn : (Char.ofNat a.toNat).toNat = a.toNat := toNat_ofNat (by omega)
    have hchar : encodeChar (Char.ofNat a.toNat) = [a] := by
      simp only [encodeChar, hn, UInt8.ofNat_toNat]
      rw [if_pos ha]
    exact ⟨_, rest, by rw [hchar]; rfl⟩
  case case5 a h₁ h₂ h₃ b rest hb =>
    simp only [UInt8.lt_iff_toNat_lt, UInt8.reduceToNat] at h₂ h₃
    have hchar := encodeChar_two (by omega) h₃ (isSecond_iff.mp hb).1
    exact ⟨_, rest, by rw [hchar]; rfl⟩
  case case10 a h₁ h₂ h₃ h₄ b hb c rest hc =>
    simp only [UInt8.lt_iff_toNat_lt, UInt8.reduceToNat] at h₃ h₄
    have hchar := encodeChar_three (by omega) h₄ (by simpa using hb) hc
    exact ⟨_, rest, by rw [hchar]; rfl⟩
  case case17 a h₁ h₂ h₃ h₄ h₅ b hb c hc d rest hd =>
    simp only [UInt8.lt_iff_toNat_lt, UInt8.reduceToNat] at h₄ h₅
    have hchar := encodeChar_four (by omega) h₅ (by simpa using hb) (by simpa using hc) hd
    exact ⟨_, rest, by rw [hchar]; rfl⟩
  all_goals exact absurd h (by simp)

theorem encodeChar_ne_nil (c : Char) : encodeChar c ≠ [] := by
  unfold encodeChar
  dsimp only
  split_ifs <;> simp

/-- What is decoded are the characters of the bytes, behind those seen before. -/
theorem eq_encode_of_decodeFrom {pos : Nat} {seen : List Char} {data : Bytes} {text : List Char}
    (h : decodeFrom pos seen data = .ok text) : ∃ added, text = seen.reverse ++ added ∧ data = encode added := by
  induction hlength : data.length using Nat.strongRecOn generalizing pos seen data with
  | ind n ih =>
    by_cases hne : data = []
    · subst hne
      rw [decodeFrom] at h
      exact ⟨[], by simpa using h.symm, rfl⟩
    · obtain ⟨c, back, rfl⟩ := exists_first_char hne h
      have hshorter : back.length < n := by
        have hpos := List.length_pos_iff.mpr (encodeChar_ne_nil c)
        rw [List.length_append] at hlength
        omega
      obtain ⟨pos', hstep⟩ := decodeFrom_encodeChar pos seen back c
      rw [hstep] at h
      obtain ⟨added, rfl, rfl⟩ := ih back.length hshorter h rfl
      exact ⟨c :: added, by simp, rfl⟩

/-- The bytes of a text are the only ones that are decoded to it. -/
theorem decode_eq_ok_iff {data : Bytes} {text : List Char} : decode data = .ok text ↔ data = encode text := by
  constructor
  · intro h
    obtain ⟨added, rfl, hdata⟩ := eq_encode_of_decodeFrom h
    exact hdata
  · intro h
    rw [h, decode_encode]

/-- If a text is cut where the bytes of its beginning can be decoded, they are decoded to its beginning. -/
theorem decode_cut {front back : Bytes} {cut text : List Char} (hcut : decode front = .ok cut)
    (htext : decode (front ++ back) = .ok text) : ∃ rest, text = cut ++ rest ∧ (back ≠ [] → rest ≠ []) := by
  rw [decode_eq_ok_iff] at hcut
  subst hcut
  obtain ⟨pos, hpos⟩ := decodeFrom_encode 0 [] cut back
  rw [decode, hpos] at htext
  obtain ⟨rest, rfl, rfl⟩ := eq_encode_of_decodeFrom htext
  refine ⟨rest, by simp, ?_⟩
  intro hback hrest
  subst hrest
  exact hback rfl

end Utf8

end ScriptAudit
