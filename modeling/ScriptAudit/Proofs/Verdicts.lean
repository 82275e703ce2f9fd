import Mathlib.Algebra.GroupWithZero.Nat
import Mathlib.Data.List.Infix
import ScriptAudit.Pattern.Grammar

namespace ScriptAudit

namespace Text

theorem hexDigit?_lt (c : Char) : (hexDigit? c).getD 0 < 16 := by
  have hnine : '9'.val.toNat = 57 := rfl
  have hf : 'f'.val.toNat = 102 := rfl
  have hF : 'F'.val.toNat = 70 := rfl
  unfold hexDigit?
  split_ifs with h1 h2 h3 <;>
    simp only [Bool.and_eq_true, decide_eq_true_eq, Char.le_def, UInt32.le_iff_toNat_le] at * <;>
    simp only [Option.getD_some, Option.getD_none, Char.toNat] <;> omega

theorem hexDigit?_lt_of_isDigit {c : Char} (h : c.isDigit = true) : (hexDigit? c).getD 0 < 10 := by
  have hdigit : ('0' ≤ c && c ≤ '9') = true := h
  have hle : c.val.toNat ≤ 57 := UInt32.le_iff_toNat_le.mp (of_decide_eq_true (Bool.and_eq_true_iff.mp hdigit).2)
  rw [hexDigit?, if_pos hdigit, Option.getD_some, Char.toNat]
  omega

theorem foldl_digits (base start : Nat) (digits : List Char) :
    digits.foldl (fun n c => base * n + (hexDigit? c).getD 0) start =
      start * base ^ digits.length + valueIn base digits := by
  induction digits generalizing start with
  | nil => simp [valueIn]
  | cons c digits ih =>
    rw [valueIn, List.foldl_cons, List.foldl_cons, ih, ih, List.length_cons, pow_succ]
    grind

theorem valueIn_cons (base : Nat) (c : Char) (digits : List Char) :
    valueIn base (c :: digits) = (hexDigit? c).getD 0 * base ^ digits.length + valueIn base digits := by
  rw [valueIn, List.foldl_cons, foldl_digits, Nat.mul_zero, Nat.zero_add]

theorem valueIn_lt {base : Nat} {digits : List Char} (h : ∀ c ∈ digits, (hexDigit? c).getD 0 < base) :
    valueIn base digits < base ^ digits.length := by
  induction digits with
  | nil => simp [valueIn]
  | cons c digits ih =>
    rw [List.forall_mem_cons] at h
    have hrest := ih h.2
    have hfirst := Nat.mul_le_mul_right (base ^ digits.length) (Nat.succ_le_of_lt h.1)
    rw [valueIn_cons, List.length_cons, pow_succ']
    rw [Nat.succ_mul] at hfirst
    omega

end Text

namespace Pattern

/-- A reading that comes to a verdict: a value as asked for, or a fault of the text. -/
inductive Verdict {α : Type} (post : α → Prop) : Reading α → Prop
  | ok {a : α} (h : post a) : Verdict post (.ok a)
  | fault (fault : Fault) : Verdict post (.error (.fault fault))

namespace Verdict

variable {α β : Type} {mid : α → Prop} {post : β → Prop} {x : Reading α}

theorem bind {f : α → Reading β} (hx : Verdict mid x) (hf : ∀ a, mid a → Verdict post (f a)) :
    Verdict post (x >>= f) := by
  cases hx with
  | ok h => exact hf _ h
  | fault fault => exact .fault fault

theorem map {f : α → β} (hx : Verdict mid x) (hf : ∀ a, mid a → post (f a)) : Verdict post (x.map f) := by
  cases hx with
  | ok h => exact .ok (hf _ h)
  | fault fault => exact .fault fault

theorem mono {post : α → Prop} (hx : Verdict mid x) (h : ∀ a, mid a → post a) : Verdict post x := by
  cases hx with
  | ok hmid => exact .ok (h _ hmid)
  | fault fault => exact .fault fault

end Verdict

theorem flatMap_tokens (cs : List Char) : (tokens cs).flatMap Token.chars = cs := by
  fun_induction tokens cs <;> simp_all [Token.chars]

/-- Part of the tokens of a text is part of the text. -/
theorem infix_of_tokens {source : List Char} {ts : List Token} (h : ts <:+: tokens source) :
    ts.flatMap Token.chars <:+: source := by
  obtain ⟨before, after, heq⟩ := h
  refine ⟨before.flatMap Token.chars, after.flatMap Token.chars, ?_⟩
  rw [← List.flatMap_append, ← List.flatMap_append, heq, flatMap_tokens]

/-- A text with nothing in it that a reading can break down at. -/
structure Calm (source : List Char) : Prop where
  /-- Ten digits in a row could be a count that is too large. -/
  counts : ∀ digits, digits <:+: source → (∀ c ∈ digits, c.isDigit = true) → digits.length < 10
  /-- Eight digits from here could be a code that is too large. -/
  codes : ∀ c, ['\\', 'U', c] <:+: source → (Text.hexDigit? c).getD 0 < 8
  /-- The alphabet is not narrowed, so that it cannot be the wide one as well. -/
  alphabet : ∀ flags, (∀ c ∈ flags, (Flag.ofChar? c).isSome = true) → ¬ '(' :: '?' :: (flags ++ ['a']) <:+: source
  /-- Groups could be nested too deep. -/
  groups : source.count '(' < 200

/-- Tokens in a row from those of a calm text. -/
def CalmTokens (ts : List Token) : Prop := ∃ source, Calm source ∧ ts <:+: tokens source

theorem CalmTokens.of_infix {ts part : List Token} (calm : CalmTokens ts) (h : part <:+: ts) : CalmTokens part := by
  obtain ⟨source, hsource, hts⟩ := calm
  exact ⟨source, hsource, h.trans hts⟩

theorem CalmTokens.of_suffix {ts part : List Token} (calm : CalmTokens ts) (h : part <:+ ts) : CalmTokens part :=
  calm.of_infix h.isInfix

namespace Reader

variable {ts : List Token} {r : Reader}

theorem verdict_settle (r : Reader) : Verdict (· = r) r.settle := by
  unfold settle
  split
  · exact .fault _
  · exact .ok rfl

theorem verdict_skip_cons {t : Token} {rest : List Token} (h : r.rest = t :: rest) :
    Verdict (fun s => s.rest = rest) r.skip := by
  rw [skip, h]
  exact (verdict_settle _).mono fun s hs => hs ▸ rfl

theorem verdict_skip (h : r.rest <:+ ts) : Verdict (fun s => s.rest <:+ ts) r.skip := by
  cases hrest : r.rest with
  | nil =>
    rw [skip, hrest]
    exact .ok h
  | cons t rest =>
    refine (verdict_skip_cons hrest).mono ?_
    rintro s rfl
    exact (hrest ▸ List.suffix_cons t s.rest).trans h

theorem verdict_eat (c : Char) (h : r.rest <:+ ts) :
    Verdict (fun x => x.2.rest <:+ ts ∧ (x.1 = true → r.rest = .plain c :: x.2.rest)) (r.eat c) := by
  unfold eat
  split
  next hnext =>
    obtain ⟨rest, hrest⟩ := List.head?_eq_some_iff.mp hnext
    refine (verdict_skip_cons hrest).map ?_
    rintro s rfl
    exact ⟨(hrest ▸ List.suffix_cons _ s.rest).trans h, fun _ => hrest⟩
  next => exact .ok ⟨h, by simp⟩

theorem verdict_collect (member : Char → Bool) (n : Nat) (r : Reader) :
    Verdict (fun x => r.rest = x.1.map .plain ++ x.2.rest ∧ ∀ c ∈ x.1, member c = true) (r.collect member n) := by
  induction n generalizing r with
  | zero => exact .ok ⟨rfl, by simp⟩
  | succ n ih =>
    unfold collect
    split
    next c rest hrest =>
      split
      next hc =>
        refine (verdict_skip_cons hrest).bind ?_
        rintro s rfl
        refine (ih s).bind ?_
        rintro ⟨cs, s'⟩ ⟨hs, hcs⟩
        exact .ok ⟨by rw [hrest, hs]; rfl, List.forall_mem_cons.mpr ⟨hc, hcs⟩⟩
      next => exact .ok ⟨rfl, by simp⟩
    next => exact .ok ⟨rfl, by simp⟩

theorem verdict_upToFrom (terminator : Char) (what : String) (name : List Char) (pos : Nat) {rest : List Token}
    (h : rest <:+ ts) : Verdict (fun x => x.2.rest <:+ ts) (upToFrom terminator what name pos rest) := by
  induction rest generalizing name pos with
  | nil =>
    unfold upToFrom
    split <;> exact .fault _
  | cons t rest ih =>
    have hrest := (List.suffix_cons t rest).trans h
    refine (verdict_settle _).bind ?_
    rintro s rfl
    dsimp only
    split
    · split
      · exact .fault _
      · exact .ok hrest
    · exact ih _ _ hrest

theorem verdict_passFrom (c : Char) (pos : Nat) {rest : List Token} (h : rest <:+ ts) :
    Verdict (fun x => x.2.rest <:+ ts) (passFrom c pos rest) := by
  induction rest generalizing pos with
  | nil => exact .ok List.nil_suffix
  | cons t rest ih =>
    have hrest := (List.suffix_cons t rest).trans h
    refine (verdict_settle _).bind ?_
    rintro s rfl
    dsimp only
    split
    · exact .ok hrest
    · exact ih _ hrest

end Reader

/-- What is left to read is the end of some tokens. -/
abbrev Reader.Left (ts : List Token) (r : Reader) : Prop := r.rest <:+ ts

section Tokens

variable {ts : List Token} {r : Reader}

theorem flatMap_plain (cs : List Char) : (cs.map Token.plain).flatMap Token.chars = cs := by
  induction cs with
  | nil => rfl
  | cons c cs ih => rw [List.map_cons, List.flatMap_cons, ih, Token.chars, List.singleton_append]

theorem CalmTokens.length_lt {digits : List Char} (calm : CalmTokens (digits.map .plain))
    (hdigits : ∀ c ∈ digits, c.isDigit = true) : digits.length < 10 := by
  obtain ⟨source, hsource, hpart⟩ := calm
  have hchars := infix_of_tokens hpart
  rw [flatMap_plain] at hchars
  exact hsource.counts digits hchars hdigits

theorem verdict_admitFlag (on : List Flag) (flag : Flag) (pos : Nat) :
    Verdict (fun _ => True) (admitFlag on flag pos) := by
  unfold admitFlag
  split
  · exact .fault _
  · split
    · exact .fault _
    · exact .ok trivial

theorem verdict_noFlag {α : Type} {post : α → Prop} (t : Token) (missing : Complaint) (pos : Nat) :
    Verdict post (noFlag t missing pos) := by
  unfold noFlag
  split <;> exact .fault _

theorem eq_of_ofChar?_ascii {c : Char} (h : Flag.ofChar? c = some .ascii) : c = 'a' := by
  unfold Flag.ofChar? at h
  split at h <;> simp_all

theorem plain_of_flagOf? {t : Token} {flag : Flag} (h : flagOf? t = some flag) :
    ∃ c, t = .plain c ∧ Flag.ofChar? c = some flag := by
  cases t with
  | plain c => exact ⟨c, rfl, h⟩
  | escaped c => exact absurd h (by simp [flagOf?])
  | backslash => exact absurd h (by simp [flagOf?])

/-- Flags in parentheses do not narrow the alphabet: `seen` and `c` are the letters read so far. -/
theorem CalmTokens.verdict_flagsOn (seen : List Char) {c : Char} {on : List Flag} {flag : Flag} {pos : Nat}
    {rest : List Token} (calm : CalmTokens (.plain '(' :: .plain '?' :: ((seen ++ [c]).map .plain ++ rest)))
    (hseen : ∀ d ∈ seen, (Flag.ofChar? d).isSome = true) (hc : Flag.ofChar? c = some flag) (hon : .ascii ∉ on)
    (h : rest <:+ ts) :
    Verdict (fun x => .ascii ∉ x.1 ∧ x.2.2.Left ts) (flagsOn on flag pos rest) := by
  induction rest generalizing seen c on flag pos with
  | nil =>
    refine (verdict_admitFlag on flag pos).bind ?_
    intro _ _
    exact .fault _
  | cons t rest ih =>
    have hflag : flag ≠ .ascii := by
      rintro rfl
      obtain rfl := eq_of_ofChar?_ascii hc
      obtain ⟨source, hsource, hts⟩ := calm
      refine hsource.alphabet seen hseen ?_
      have hpart : .plain '(' :: .plain '?' :: (seen ++ ['a']).map .plain <:+: tokens source :=
        List.IsInfix.trans ⟨[], t :: rest, rfl⟩ hts
      have hchars := infix_of_tokens hpart
      rw [List.flatMap_cons, List.flatMap_cons, flatMap_plain] at hchars
      exact hchars
    have hon' : .ascii ∉ on ++ [flag] := by simp [hon, hflag.symm]
    have hrest : rest <:+ ts := (List.suffix_cons t rest).trans h
    refine (verdict_admitFlag on flag pos).bind ?_
    intro _ _
    refine (Reader.verdict_settle _).bind ?_
    rintro s rfl
    dsimp only
    split_ifs
    · exact .ok ⟨hon', hrest⟩
    · exact .ok ⟨hon', hrest⟩
    · exact .ok ⟨hon', hrest⟩
    · split
      next next hnext =>
        obtain ⟨d, rfl, hd⟩ := plain_of_flagOf? hnext
        refine ih (seen ++ [c]) (by simpa using calm) ?_ hd hon' hrest
        intro e he
        rcases List.mem_append.mp he with he | he
        · exact hseen e he
        · rw [List.mem_singleton.mp he, hc, Option.isSome_some]
      next => exact verdict_noFlag _ _ _

theorem verdict_flagsOff {off : List Flag} {flag : Flag} {pos : Nat} {rest : List Token} (h : rest <:+ ts) :
    Verdict (fun x => x.2.Left ts) (flagsOff off flag pos rest) := by
  induction rest generalizing off flag pos with
  | nil =>
    unfold flagsOff
    split <;> exact .fault _
  | cons t rest ih =>
    have hrest := (List.suffix_cons t rest).trans h
    unfold flagsOff
    split
    · exact .fault _
    · refine (Reader.verdict_settle _).bind ?_
      rintro s rfl
      dsimp only
      split
      · exact .ok hrest
      · split
        · exact ih hrest
        · exact verdict_noFlag _ _ _

theorem verdict_flagsAfterMinus (h : r.Left ts) :
    Verdict (fun x => x.2.Left ts) (flagsAfterMinus r) := by
  unfold flagsAfterMinus
  split
  · exact .fault _
  · refine (Reader.verdict_skip h).bind ?_
    intro s hs
    split
    · exact verdict_flagsOff hs
    · exact verdict_noFlag _ _ _

theorem CalmTokens.verdict_flagChange {first : Token}
    (calm : CalmTokens (.plain '(' :: .plain '?' :: first :: r.rest)) (h : r.Left ts) :
    Verdict (fun x => x.2.Left ts ∧ ∀ on, x.1 = .whole on → .ascii ∉ on) (flagChange first r) := by
  unfold flagChange
  -- What comes after the flags to turn on is the same whether there are any or not.
  extract_lets join
  have hjoin (x : List Flag × Char × Reader) (hascii : .ascii ∉ x.1) (hx : x.2.2.Left ts) :
      Verdict (fun x => x.2.Left ts ∧ ∀ on, x.1 = .whole on → .ascii ∉ on) (join x) := by
    obtain ⟨on, mark, s⟩ := x
    dsimp only [join]
    split_ifs
    · exact .ok ⟨hx, fun _ hwhole => FlagChange.whole.inj hwhole ▸ hascii⟩
    · exact .fault _
    · refine (verdict_flagsAfterMinus hx).bind ?_
      intro y hy
      split_ifs
      · exact .fault _
      · exact .fault _
      · exact .ok ⟨hy, by simp⟩
    · dsimp only [bind, Except.bind]
      split_ifs
      · exact .fault _
      · exact .fault _
      · exact .ok ⟨hx, by simp⟩
  split
  next flag hflag =>
    obtain ⟨c, rfl, hc⟩ := plain_of_flagOf? hflag
    refine (CalmTokens.verdict_flagsOn [] calm (by simp) hc (by simp) h).bind ?_
    rintro x ⟨hascii, hx⟩
    exact hjoin x hascii hx
  next => exact hjoin ([], '-', r) (by simp) h

theorem verdict_hexEscape (start count : Nat) (c : Char) (h : r.Left ts)
    (hsmall : ∀ digits rest, r.rest = digits.map .plain ++ rest → digits.length = count →
      Text.valueIn 16 digits ≤ 0x7FFFFFFF) :
    Verdict (fun x => x.2.Left ts) (hexEscape start count c r) := by
  refine (Reader.verdict_collect isHexDigit count r).bind ?_
  rintro ⟨digits, s⟩ ⟨hrest, _⟩
  dsimp only at hrest ⊢
  split
  · exact .fault _
  next hlength =>
    rw [if_neg (Nat.not_lt.mpr (hsmall digits s.rest hrest (not_not.mp hlength)))]
    split
    · exact .fault _
    · exact .ok ((hrest ▸ List.suffix_append _ _).trans h)

/-- Four digits are never too large a code. -/
theorem valueIn_le_of_short {digits : List Char} {count : Nat} (hcount : count ≤ 4) (h : digits.length = count) :
    Text.valueIn 16 digits ≤ 0x7FFFFFFF := by
  have hlt := Text.valueIn_lt fun c (_ : c ∈ digits) => Text.hexDigit?_lt c
  have hle : 16 ^ digits.length ≤ 16 ^ 4 := Nat.pow_le_pow_right (by decide) (h ▸ hcount)
  omega

theorem CalmTokens.valueIn_le {digits : List Char} {rest : List Token}
    (calm : CalmTokens (.escaped 'U' :: (digits.map .plain ++ rest))) (hlength : digits.length = 8) :
    Text.valueIn 16 digits ≤ 0x7FFFFFFF := by
  obtain ⟨d, digits, rfl⟩ := List.exists_cons_of_ne_nil (l := digits) (by rintro rfl; simp at hlength)
  obtain ⟨source, hsource, hts⟩ := calm
  have hpart : [.escaped 'U', .plain d] <:+: tokens source :=
    List.IsInfix.trans ⟨[], digits.map .plain ++ rest, rfl⟩ hts
  have hd := hsource.codes d (infix_of_tokens hpart)
  have hlt := Text.valueIn_lt fun c (_ : c ∈ digits) => Text.hexDigit?_lt c
  rw [List.length_cons, Nat.succ_inj] at hlength
  rw [Text.valueIn_cons]
  rw [hlength] at hlt ⊢
  omega

theorem verdict_namedEscape (start : Nat) (h : r.Left ts) :
    Verdict (fun x => x.2.Left ts) (namedEscape start r) := by
  refine (Reader.verdict_eat '\x7b' h).bind ?_
  rintro ⟨found, s⟩ ⟨hs, _⟩
  dsimp only
  split
  · exact .fault _
  · exact (Reader.verdict_upToFrom _ _ _ _ hs).bind fun _ _ => .fault _

theorem verdict_octalCode (start : Nat) (digits : List Char) (h : r.Left ts) :
    Verdict (fun x => x.2.Left ts) (octalCode start digits r) := by
  unfold octalCode
  dsimp only
  split
  · exact .fault _
  · exact .ok h

theorem verdict_selfEscape (start : Nat) (c : Char) (h : r.Left ts) :
    Verdict (fun x => x.2.Left ts) (selfEscape start c r) := by
  unfold selfEscape
  split
  · exact .fault _
  · exact .ok h

theorem CalmTokens.verdict_codeEscape {start : Nat} {c : Char} {reading : Reading (Nat × Reader)}
    (calm : CalmTokens (.escaped c :: r.rest)) (h : r.Left ts) (hreading : codeEscape? start c r = some reading) :
    Verdict (fun x => x.2.Left ts) reading := by
  unfold codeEscape? at hreading
  split at hreading
  · cases hreading
    exact verdict_hexEscape _ _ _ h fun digits _ _ hlength => valueIn_le_of_short (by decide) hlength
  · cases hreading
    exact verdict_hexEscape _ _ _ h fun digits _ _ hlength => valueIn_le_of_short (by decide) hlength
  · cases hreading
    exact verdict_hexEscape _ _ _ h fun digits rest heq hlength => valueIn_le (heq ▸ calm) hlength
  · cases hreading
    exact verdict_namedEscape _ h
  · cases hreading

theorem verdict_collect_suffix (member : Char → Bool) (n : Nat) (h : r.Left ts) :
    Verdict (fun x => x.2.Left ts) (r.collect member n) := by
  refine (Reader.verdict_collect member n r).mono ?_
  rintro x ⟨hrest, _⟩
  exact (hrest ▸ List.suffix_append _ _).trans h

theorem CalmTokens.verdict_setEscape (ascii : Bool) (start : Nat) {c : Char}
    (calm : CalmTokens (.escaped c :: r.rest)) (h : r.Left ts) :
    Verdict (fun x => x.2.Left ts) (setEscape ascii start c r) := by
  unfold setEscape
  extract_lets code
  have hcode {reading : Reading (Nat × Reader)} (hreading : Verdict (fun x => x.2.Left ts) reading) :
      Verdict (fun x => x.2.Left ts) (code reading) := hreading.map fun _ hx => hx
  split
  · exact .ok h
  · exact .ok h
  · split
    next reading hreading => exact hcode (calm.verdict_codeEscape h hreading)
    next =>
      split
      · refine (verdict_collect_suffix _ _ h).bind ?_
        intro x hx
        exact hcode (verdict_octalCode _ _ hx)
      · exact hcode (verdict_selfEscape _ _ h)

theorem verdict_numberEscape (start : Nat) (c : Char) (h : r.Left ts) :
    Verdict (fun x => x.2.Left ts) (numberEscape start c r) := by
  refine (verdict_collect_suffix _ _ h).bind ?_
  rintro ⟨second, s⟩ hs
  dsimp -zeta only at hs ⊢
  -- A third digit is looked for only after two octal ones; the rest does not depend on it.
  extract_lets join
  have hjoin (x : List Char × Reader) (hx : x.2.Left ts) :
      Verdict (fun x => x.2.Left ts) (join x) := by
    dsimp only [join]
    split
    · exact (verdict_octalCode _ _ hx).bind fun _ hy => .ok hy
    · exact .ok hx
  split
  · split
    · exact (verdict_collect_suffix _ _ hs).bind hjoin
    · exact hjoin ([], s) hs
  · exact hjoin ([], s) hs

theorem CalmTokens.verdict_exprEscape (start : Nat) {c : Char} (calm : CalmTokens (.escaped c :: r.rest))
    (h : r.Left ts) : Verdict (fun x => x.2.Left ts) (exprEscape start c r) := by
  unfold exprEscape
  extract_lets code
  have hcode {reading : Reading (Nat × Reader)} (hreading : Verdict (fun x => x.2.Left ts) reading) :
      Verdict (fun x => x.2.Left ts) (code reading) := hreading.map fun _ hx => hx
  split
  · exact .ok h
  · exact .ok h
  · exact .ok h
  · split
    next reading hreading => exact hcode (calm.verdict_codeEscape h hreading)
    next =>
      split_ifs
      · exact (verdict_collect_suffix _ _ h).bind fun _ hx => .ok hx
      · exact verdict_numberEscape start c h
      · exact hcode (verdict_selfEscape _ _ h)

theorem CalmTokens.verdict_setMember (modes : LocalModes) (start : Nat) {t : Token} (calm : CalmTokens (t :: r.rest))
    (h : r.Left ts) : Verdict (fun x => x.2.Left ts) (setMember modes start t r) := by
  cases t with
  | escaped c => exact calm.verdict_setEscape modes.ascii start h
  | plain c => exact .ok h
  | backslash => exact .fault _

theorem verdict_setRange (low high : SetItem) (lowToken highToken : Token) (r : Reader) :
    Verdict (fun _ => True) (setRange low high lowToken highToken r) := by
  unfold setRange
  dsimp only
  split
  · split
    · exact .fault _
    · exact .ok trivial
  · exact .fault _

/-- The token that comes next is passed over. -/
theorem verdict_skip_next {t : Token} (hnext : r.next? = some t) :
    Verdict (fun s => r.rest = t :: s.rest) r.skip := by
  obtain ⟨rest, hrest⟩ := List.head?_eq_some_iff.mp hnext
  refine (Reader.verdict_skip_cons hrest).mono ?_
  rintro s rfl
  exact hrest

theorem CalmTokens.verdict_setMembers (modes : LocalModes) (start n : Nat) (seen : List SetItem)
    (calm : CalmTokens r.rest) (h : r.Left ts) :
    Verdict (fun x => x.2.Left ts) (setMembers modes start n seen r) := by
  induction n generalizing seen r with
  | zero => exact .fault _
  | succ n ih =>
    unfold setMembers
    split
    next => exact .fault _
    next t hnext =>
      dsimp only
      refine (verdict_skip_next hnext).bind ?_
      intro s hs
      rw [hs] at calm
      have hs := (hs ▸ List.suffix_cons t s.rest).trans h
      split
      · exact .ok hs
      · refine (calm.verdict_setMember modes _ (List.suffix_refl s.rest)).bind ?_
        rintro ⟨item, r⟩ hitem
        have hr := hitem.trans hs
        have calm := calm.of_suffix (hitem.trans (List.suffix_cons t s.rest))
        refine (Reader.verdict_eat '-' (List.suffix_refl r.rest)).bind ?_
        rintro ⟨dash, r'⟩ ⟨hdash, _⟩
        have hr := hdash.trans hr
        have calm := calm.of_suffix hdash
        dsimp only at hr calm ⊢
        split
        · exact ih _ calm hr
        · split
          next => exact .fault _
          next u hnext =>
            refine (verdict_skip_next hnext).bind ?_
            intro s hs
            rw [hs] at calm
            have hs := (hs ▸ List.suffix_cons u s.rest).trans hr
            split
            · exact .ok hs
            · refine (calm.verdict_setMember modes _ (List.suffix_refl s.rest)).bind ?_
              rintro ⟨high, r⟩ hhigh
              refine (verdict_setRange _ _ _ _ _).bind ?_
              intro range _
              exact ih _ (calm.of_suffix (hhigh.trans (List.suffix_cons u s.rest))) (hhigh.trans hs)

theorem CalmTokens.verdict_charSet (modes : LocalModes) (start : Nat) (calm : CalmTokens r.rest) (h : r.Left ts) :
    Verdict (fun x => x.2.Left ts) (charSet modes start r) := by
  refine (Reader.verdict_eat '^' (List.suffix_refl r.rest)).bind ?_
  rintro ⟨negated, s⟩ ⟨hs, _⟩
  refine (CalmTokens.verdict_setMembers modes start _ _ (calm.of_suffix hs) (hs.trans h)).bind ?_
  rintro ⟨items, s⟩ hitems
  dsimp only
  split <;> exact .ok hitems

end Tokens

end Pattern

end ScriptAudit
