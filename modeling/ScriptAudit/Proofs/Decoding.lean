import ScriptAudit.Encoding.Guess
import ScriptAudit.Proofs.Utf8

namespace ScriptAudit

namespace Utf8

theorem encodeChar_eq (c : Char) : encodeChar c = String.utf8EncodeChar c := by
  have hvalid : c.toNat.isValidChar := c.valid
  simp only [Nat.isValidChar] at hvalid
  have hcode : c.val.toNat = c.toNat := rfl
  simp only [encodeChar, String.utf8EncodeChar, trail, hcode, ← Nat.lt_succ_iff, Nat.succ_eq_add_one, Nat.reduceAdd,
    Nat.add_comm 0x80, Nat.add_comm 0xC0, Nat.add_comm 0xE0, Nat.add_comm 0xF0]
  split_ifs with h₁ h₂ h₃
  · rfl
  · rw [Nat.mod_eq_of_lt (show c.toNat / 64 < 32 by omega)]
  · rw [Nat.mod_eq_of_lt (show c.toNat / 4096 < 16 by omega)]
  · rw [Nat.mod_eq_of_lt (show c.toNat / 262144 < 8 by omega)]

/-- The bytes of a text are those that the standard gives it. -/
theorem toByteArray_encode (text : List Char) : (encode text).toByteArray = text.utf8Encode := by
  have hchar : encodeChar = String.utf8EncodeChar := funext encodeChar_eq
  rw [encode, hchar, List.utf8Encode]

/-- The mark as a character. -/
def markChar : Char := '\uFEFF'

/-- A text without a mark in front of it. A second mark counts as text. -/
def unmarked (text : List Char) : List Char := if text.head? = some markChar then text.tail else text

theorem encode_markChar (text : List Char) : encode (markChar :: text) = mark ++ encode text := by
  rw [encode_cons]
  rfl

/-- Bytes with the mark in front are those of a text with the mark in front. -/
theorem head?_of_marked {text : List Char} (h : mark <+: encode text) : text.head? = some markChar := by
  obtain ⟨back, hback⟩ := h
  obtain ⟨pos, hmark⟩ := decodeFrom_encodeChar 0 [] back markChar
  have hdecode : decodeFrom pos [markChar] back = .ok text := by
    rw [← hmark, ← decode_encode text, ← hback]
    rfl
  obtain ⟨added, rfl, _⟩ := eq_encode_of_decodeFrom hdecode
  rfl

theorem withoutMark_encode (text : List Char) : withoutMark (encode text) = encode (unmarked text) := by
  unfold withoutMark unmarked
  by_cases hhead : text.head? = some markChar
  · obtain ⟨rest, rfl⟩ := List.head?_eq_some_iff.mp hhead
    rw [if_pos hhead, encode_markChar, if_pos (by simp)]
    rfl
  · have hmark : ¬ mark.isPrefixOf (encode text) = true := by
      rw [List.isPrefixOf_iff_prefix]
      intro h
      exact hhead (head?_of_marked h)
    rw [if_neg hmark, if_neg hhead]

/-- A number with one trailing byte, whether or not it needs one. -/
def inTwo (n : Nat) : Bytes := [UInt8.ofNat (0xC0 + n / 64), trail n]

def inThree (n : Nat) : Bytes := [UInt8.ofNat (0xE0 + n / 4096), trail (n / 64), trail n]

def inFour (n : Nat) : Bytes := [UInt8.ofNat (0xF0 + n / 262144), trail (n / 4096), trail (n / 64), trail n]

/-- Bytes that begin with no character: with a number that takes up more bytes than it needs, with a surrogate, with a
number beyond the last code point, or with a character of which the last bytes are missing. -/
inductive Malformed : Bytes → Prop
  | longTwo {n : Nat} (small : n < 0x80) (rest : Bytes) : Malformed (inTwo n ++ rest)
  | longThree {n : Nat} (small : n < 0x800) (rest : Bytes) : Malformed (inThree n ++ rest)
  | longFour {n : Nat} (small : n < 0x10000) (rest : Bytes) : Malformed (inFour n ++ rest)
  | surrogate {n : Nat} (low : 0xD800 ≤ n) (high : n ≤ 0xDFFF) (rest : Bytes) : Malformed (inThree n ++ rest)
  | beyond {n : Nat} (low : 0x110000 ≤ n) (high : n < 0x200000) (rest : Bytes) : Malformed (inFour n ++ rest)
  | truncated {c : Char} {front back rest : Bytes} (cut : encodeChar c = front ++ back) (begun : front ≠ [])
      (missing : back ≠ []) (stop : ∀ b ∈ rest.head?, isContinuation b = false) : Malformed (front ++ rest)

/-- A first byte that does not stand alone is followed by a second one that it allows. -/
theorem second_of_decodeFrom {pos : Nat} {seen text : List Char} {data rest : Bytes} {a b : UInt8}
    (h : decodeFrom pos seen data = .ok text) (hdata : data = a :: b :: rest) (ha : 0x80 ≤ a.toNat) :
    0xC2 ≤ a.toNat ∧ a.toNat < 0xF5 ∧ isSecond a b = true := by
  revert h
  fun_cases decodeFrom pos seen data <;> intro h
  case case1 => exact absurd hdata (by simp)
  case case2 hone =>
    cases hdata
    simp only [UInt8.lt_iff_toNat_lt, UInt8.reduceToNat] at hone
    omega
  case case5 h₁ h₂ h₃ b rest hb =>
    cases hdata
    simp only [UInt8.lt_iff_toNat_lt, UInt8.reduceToNat] at h₂ h₃
    exact ⟨by omega, by omega, hb⟩
  case case10 h₁ h₂ h₃ h₄ b hb c rest hc =>
    cases hdata
    simp only [UInt8.lt_iff_toNat_lt, UInt8.reduceToNat] at h₂ h₄
    exact ⟨by omega, by omega, by simpa using hb⟩
  case case17 h₁ h₂ h₃ h₄ h₅ b hb c hc d rest hd =>
    cases hdata
    simp only [UInt8.lt_iff_toNat_lt, UInt8.reduceToNat] at h₂ h₅
    exact ⟨by omega, by omega, by simpa using hb⟩
  all_goals exact absurd h (by simp)

/-- How many bytes follow a first one. -/
def following (a : UInt8) : Nat := if a < 0x80 then 0 else if a < 0xE0 then 1 else if a < 0xF0 then 2 else 3

theorem encodeChar_shape (c : Char) : ∃ a tail, encodeChar c = a :: tail ∧ tail.length = following a ∧
    ∀ b ∈ tail, isContinuation b = true := by
  have hvalid : c.toNat.isValidChar := c.valid
  simp only [Nat.isValidChar] at hvalid
  have hbyte {n : Nat} (hn : n < 256) : (UInt8.ofNat n).toNat = n := UInt8.toNat_ofNat_of_lt' hn
  unfold encodeChar
  dsimp only
  split_ifs with h₁ h₂ h₃
  all_goals
    refine ⟨_, _, rfl, ?_, by simp [isContinuation_trail]⟩
    simp only [following, UInt8.lt_iff_toNat_lt, UInt8.reduceToNat, List.length_cons, List.length_nil]
    rw [hbyte (by omega)]
    split_ifs <;> omega

/-- The first byte tells the number of the others, so that a character that is cut short goes on behind the cut. -/
theorem continuation_of_cut {c d : Char} {front back rest more : Bytes} (hcut : encodeChar c = front ++ back)
    (hfront : front ≠ []) (hback : back ≠ []) (hgoes : front ++ rest = encodeChar d ++ more) :
    ∃ b ∈ rest.head?, isContinuation b = true := by
  obtain ⟨a, tail, hc, hlength, _⟩ := encodeChar_shape c
  obtain ⟨a', tail', hd, hlength', htail'⟩ := encodeChar_shape d
  rw [hc] at hcut
  rw [hd] at hgoes
  cases front with
  | nil => exact absurd rfl hfront
  | cons first front =>
    simp only [List.cons_append, List.cons.injEq] at hcut hgoes
    obtain ⟨rfl, rfl⟩ := hcut
    obtain ⟨rfl, hsame⟩ := hgoes
    have hlt : front.length < tail'.length := by
      have hpos := List.length_pos_iff.mpr hback
      rw [List.length_append] at hlength
      omega
    have hat : (front ++ rest)[front.length]? = (tail' ++ more)[front.length]? := congrArg (·[front.length]?) hsame
    rw [List.getElem?_append_right (Nat.le_refl _), Nat.sub_self, ← List.head?_eq_getElem?,
      List.getElem?_append_left hlt, List.getElem?_eq_getElem hlt] at hat
    exact ⟨_, hat, htail' _ (List.getElem_mem hlt)⟩

/-- At bytes of this kind the decoding breaks off. -/
theorem Malformed.decodeFrom_ne {data : Bytes} (h : Malformed data) (pos : Nat) (seen text : List Char) :
    decodeFrom pos seen data ≠ .ok text := by
  intro hdecode
  -- The first two bytes of a number that is written out tell what is wrong with it.
  have hbounds (lead : Nat) {n : Nat} {rest : Bytes} (hlead : 0x80 ≤ lead ∧ lead < 256)
      (hdata : data = UInt8.ofNat lead :: trail n :: rest) :
      0xC2 ≤ lead ∧ lead < 0xF5 ∧ (lead = 0xE0 → 0x20 ≤ n % 64) ∧ (lead = 0xED → n % 64 < 0x20) ∧
        (lead = 0xF0 → 0x10 ≤ n % 64) ∧ (lead = 0xF4 → n % 64 < 0x10) := by
    have hbyte : (UInt8.ofNat lead).toNat = lead := UInt8.toNat_ofNat_of_lt' hlead.2
    have hsecond := second_of_decodeFrom hdecode hdata (by omega)
    rw [isSecond_iff, hbyte, toNat_trail] at hsecond
    omega
  cases h with
  | @longTwo n small rest =>
    have hwrong := hbounds (0xC0 + n / 64) (by omega) rfl
    omega
  | @longThree n small rest =>
    have hwrong := hbounds (0xE0 + n / 4096) (by omega) rfl
    omega
  | @longFour n small rest =>
    have hwrong := hbounds (0xF0 + n / 262144) (by omega) rfl
    omega
  | @surrogate n low high rest =>
    have hwrong := hbounds (0xE0 + n / 4096) (by omega) rfl
    omega
  | @beyond n low high rest =>
    have hwrong := hbounds (0xF0 + n / 262144) (by omega) rfl
    omega
  | @truncated c front back rest cut begun missing stop =>
    obtain ⟨d, more, hfirst⟩ := exists_first_char (by simp [begun]) hdecode
    obtain ⟨b, hb, hcontinues⟩ := continuation_of_cut cut begun missing hfirst
    rw [stop b hb] at hcontinues
    exact absurd hcontinues (by simp)

/-- Bytes that are malformed behind some text are those of no text. -/
theorem Malformed.not_encode {bad : Bytes} (h : Malformed bad) (text : List Char) :
    ¬ ∃ whole, encode text ++ bad = encode whole := by
  intro hwhole
  obtain ⟨whole, hencode⟩ := hwhole
  have hdecode := decode_eq_ok_iff.mpr hencode
  obtain ⟨pos, hpos⟩ := decodeFrom_encode 0 [] text bad
  rw [decode, hpos] at hdecode
  exact h.decodeFrom_ne _ _ _ hdecode

end Utf8

namespace Bytes

/-- What the guess says of some bytes decides what the text is. -/
def Consults (data asked : Bytes) : Prop :=
  ∃ guess guess' : Bytes → Guess, (∀ other, other ≠ asked → guess other = guess' other) ∧
    data.text guess ≠ data.text guess'

theorem puzzling?_eq_some_iff {data asked : Bytes} : data.puzzling? = some asked ↔
    asked = Utf8.withoutMark data ∧ ¬ ∃ text, asked = Utf8.encode text := by
  unfold puzzling?
  cases hdecode : Utf8.decode (Utf8.withoutMark data) with
  | ok text =>
    have hutf8 := Utf8.decode_eq_ok_iff.mp hdecode
    constructor
    · intro h
      exact absurd h (by simp)
    · intro h
      rw [← h.1] at hutf8
      exact absurd ⟨text, hutf8⟩ h.2
  | error fault =>
    have hnone : ¬ ∃ text, Utf8.withoutMark data = Utf8.encode text := by
      intro h
      obtain ⟨text, htext⟩ := h
      rw [Utf8.decode_eq_ok_iff.mpr htext] at hdecode
      exact absurd hdecode (by simp)
    constructor
    · intro h
      cases h
      exact ⟨rfl, hnone⟩
    · intro h
      rw [h.1]

/-- Bytes are asked about exactly if the answer matters. -/
theorem consults_iff {data asked : Bytes} : data.Consults asked ↔ data.puzzling? = some asked := by
  unfold puzzling?
  cases hdecode : Utf8.decode (Utf8.withoutMark data) with
  | ok text =>
    constructor
    · intro h
      obtain ⟨guess, guess', _, hne⟩ := h
      exact absurd (by simp only [Bytes.text, hdecode]) hne
    · intro h
      exact absurd h (by simp)
  | error fault =>
    constructor
    · intro h
      obtain ⟨guess, guess', hagree, hne⟩ := h
      by_cases hasked : Utf8.withoutMark data = asked
      · rw [hasked]
      · have hsame := hagree (Utf8.withoutMark data) hasked
        exact absurd (by simp only [Bytes.text, hdecode, hsame]) hne
    · intro h
      cases h
      refine ⟨fun _ => .encoding none, fun other =>
        if other = Utf8.withoutMark data then .failed ⟨"ValueError", ""⟩ else .encoding none, ?_, ?_⟩
      · intro other hother
        exact (if_neg hother).symm
      · simp [Bytes.text, hdecode]

/-- The bytes of a text are read as that text, without one mark if it begins with one, and no guess is asked for. A
guess is asked for exactly if the bytes behind the mark are not those of a text, as when a number in them takes up too
many bytes, is a surrogate or too large, or when a character is cut short. It is asked about the bytes behind the
mark. -/
theorem text_utf8_or_consults :
    (∀ text, (Utf8.encode text).toByteArray = text.utf8Encode) ∧
    (∀ text guess, (Utf8.encode text).text guess = .ok (some (Utf8.unmarked text))) ∧
    (∀ text, (Utf8.encode text).puzzling? = none) ∧
    (∀ data asked : Bytes, data.Consults asked ↔ data.puzzling? = some asked) ∧
    (∀ data asked : Bytes,
      data.Consults asked ↔ asked = Utf8.withoutMark data ∧ ¬ ∃ text, asked = Utf8.encode text) ∧
    ∀ (data bad : Bytes) (text : List Char), Utf8.Malformed bad → Utf8.withoutMark data = Utf8.encode text ++ bad →
      data.Consults (Utf8.withoutMark data) := by
  have hconsults (data asked : Bytes) :
      data.Consults asked ↔ asked = Utf8.withoutMark data ∧ ¬ ∃ text, asked = Utf8.encode text :=
    consults_iff.trans puzzling?_eq_some_iff
  have hread (text : List Char) : Utf8.decode (Utf8.withoutMark (Utf8.encode text)) = .ok (Utf8.unmarked text) := by
    rw [Utf8.withoutMark_encode, Utf8.decode_encode]
  refine ⟨Utf8.toByteArray_encode, ?_, ?_, fun data asked => consults_iff, hconsults, ?_⟩
  · intro text guess
    simp only [Bytes.text, hread]
  · intro text
    simp only [puzzling?, hread]
  · intro data bad text hbad hdata
    refine (hconsults data _).mpr ⟨rfl, ?_⟩
    rw [hdata]
    exact hbad.not_encode text

/-- A surrogate behind a mark and a letter. -/
theorem text_utf8_or_consults_of_surrogate :
    Utf8.Malformed [0xED, 0xA0, 0x80] ∧
      Consults [0xEF, 0xBB, 0xBF, 0x61, 0xED, 0xA0, 0x80] [0x61, 0xED, 0xA0, 0x80] := by
  have hbad : Utf8.Malformed [0xED, 0xA0, 0x80] := .surrogate (Nat.le_refl 0xD800) (by decide) []
  obtain ⟨_, _, _, _, _, hmalformed⟩ := text_utf8_or_consults
  exact ⟨hbad, hmalformed [0xEF, 0xBB, 0xBF, 0x61, 0xED, 0xA0, 0x80] _ ['a'] hbad rfl⟩

end Bytes

end ScriptAudit
