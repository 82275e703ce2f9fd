import ScriptAudit.Proofs.Languages
import ScriptAudit.Proofs.SlashLiterals

namespace ScriptAudit.Pattern

section Descent

variable {attempt : Nat → Option State} {base extra n : Nat}

theorem descend_eq_none (h : ∀ m ≤ base + extra, attempt m = none) : descend attempt base extra = none := by
  rw [Option.eq_none_iff_forall_ne_some]
  intro t hsome
  obtain ⟨m, _, hm, hattempt⟩ := descend_some _ _ _ _ hsome
  rw [h m hm] at hattempt
  cases hattempt

/-- Where at most one number of repetitions succeeds, the order of the attempts does not matter. -/
theorem descend_eq_of_only (hlow : base ≤ n) (hhigh : n ≤ base + extra)
    (honly : ∀ m ≤ base + extra, m ≠ n → attempt m = none) : descend attempt base extra = attempt n := by
  induction extra with
  | zero => rw [descend, Nat.le_antisymm hlow hhigh]
  | succ extra ih =>
    rw [descend]
    by_cases hlast : n = base + (extra + 1)
    · rw [← hlast, descend_eq_none fun m hm => honly m (by omega) (by omega)]
      cases attempt n <;> rfl
    · rw [honly _ (Nat.le_refl _) (Ne.symm hlast)]
      exact ih (by omega) fun m hm => honly m (by omega)

end Descent

theorem matching?_group_run (text : List Char) (index : Nat) (test : CharTest) (s : State) (k : Continuation) :
    (Expr.group index (.run .greedy 0 none test)).matching? text.toArray s k =
      descend (fun n => k (((s.openGroup index).advance n).closeGroup index)) 0
        (runLength text.toArray test s.pos 0 (text.length - s.pos)) := by
  simp only [Expr.matching?, State.openGroup, List.size_toArray, Nat.not_lt_zero, if_false, Nat.sub_zero]

/-- The text of a group that has been matched. -/
def State.captured? (s : State) (text : List Char) (index : Nat) : Option (List Char) :=
  (s.group? index).map fun place => (text.drop place.1).take (place.2 - place.1)

theorem lastLineEnd_holds_iff {text : List Char} {pos : Nat} (hpos : pos ≤ text.length) :
    Anchor.lastLineEnd.holds text.toArray pos = true ↔ text.drop pos = [] ∨ text.drop pos = ['\n'] := by
  have hsplit : text = text.take pos ++ text.drop pos := (List.take_append_drop pos text).symm
  have hlength : (text.take pos).length = pos := List.length_take_of_le hpos
  generalize text.take pos = front at hsplit hlength
  generalize text.drop pos = back at hsplit
  subst hsplit hlength
  cases back with
  | nil => simp [Anchor.holds]
  | cons c back => cases back <;> simp [Anchor.holds]

namespace SlashLiteral

def letter : CharTest := .set .exact false [.range 65 90, .range 97 122]

theorem letter_accepts_iff (c : Char) : letter.accepts c = true ↔ c.isAlpha = true := by
  rw [isAlpha_iff]
  simp [letter, CharTest.accepts, SetItem.accepts, Folding.variants]

/-- Flags up to the end of the text or to a newline before it. -/
def closing : Expr := .seq (.group 2 (.run .greedy 0 none letter)) (.anchor .lastLineEnd)

theorem runLength_letters {text flags ending : List Char} {pos : Nat} (hsplit : text.drop pos = flags ++ ending)
    (hflags : ∀ c ∈ flags, c.isAlpha = true) (hending : ∀ c ∈ ending.head?, c.isAlpha = false) :
    runLength text.toArray letter pos 0 (text.length - pos) = flags.length := by
  have hroom : flags.length ≤ text.length - pos := by
    rw [← List.length_drop, hsplit, List.length_append]
    omega
  have hge : 0 + flags.length ≤ runLength text.toArray letter pos 0 (text.length - pos) :=
    add_length_le_runLength 0 (hsplit ▸ List.prefix_append flags ending) hroom
      fun c hc => (letter_accepts_iff c).mpr (hflags c hc)
  -- One more would be the first character after the flags.
  by_contra hne
  have hmore : 0 + (flags.length + 1) ≤ runLength text.toArray letter pos 0 (text.length - pos) := by omega
  obtain ⟨hlength, haccepts⟩ := accepts_of_le_runLength hmore
  rw [hsplit] at hlength haccepts
  cases ending with
  | nil => exact absurd hlength (by simp)
  | cons c rest =>
    have hc := haccepts c (by simp [List.take_append])
    rw [letter_accepts_iff, hending c rfl] at hc
    cases hc

theorem matching?_closing {text flags ending : List Char} {s : State} (hsplit : text.drop s.pos = flags ++ ending)
    (hflags : ∀ c ∈ flags, c.isAlpha = true) (hending : ∀ c ∈ ending.head?, c.isAlpha = false)
    (hpos : s.pos ≤ text.length) :
    closing.matching? text.toArray s some =
      if ending = [] ∨ ending = ['\n'] then some (((s.openGroup 2).advance flags.length).closeGroup 2) else none := by
  have hattempt {n : Nat} (hn : n ≤ flags.length) :
      (Expr.anchor .lastLineEnd).matching? text.toArray (((s.openGroup 2).advance n).closeGroup 2) some =
        if flags.drop n ++ ending = [] ∨ flags.drop n ++ ending = ['\n'] then
          some (((s.openGroup 2).advance n).closeGroup 2) else none := by
    have hbehind : text.drop (s.pos + n) = flags.drop n ++ ending := by
      rw [← List.drop_drop, hsplit, List.drop_append_of_le_length hn]
    have hplace : s.pos + n ≤ text.length := by
      have hlength := congrArg List.length hsplit
      rw [List.length_drop, List.length_append] at hlength
      omega
    have hholds := lastLineEnd_holds_iff hplace
    rw [hbehind] at hholds
    rw [Expr.matching?]
    exact if_congr hholds rfl rfl
  rw [closing, Expr.matching?, matching?_group_run, runLength_letters hsplit hflags hending,
    descend_eq_of_only (Nat.zero_le flags.length) (Nat.le_of_eq (Nat.zero_add _).symm), hattempt (Nat.le_refl _),
    List.drop_length, List.nil_append]
  -- Before the last flag there is a letter, and that ends no line.
  intro m hm hne
  have hlt : m < flags.length := by omega
  rw [hattempt (by omega), List.drop_eq_getElem_cons hlt, if_neg]
  rintro (hnil | hnewline)
  · exact absurd hnil (List.cons_ne_nil _ _)
  · have hletter := hflags _ (List.getElem_mem hlt)
    rw [(List.cons.inj hnewline).1] at hletter
    exact absurd hletter (by decide)

theorem not_isAlpha_dropWhile (cs : List Char) : ∀ c ∈ (cs.dropWhile Char.isAlpha).head?, c.isAlpha = false := by
  intro c hc
  have hhead := List.head?_dropWhile_not Char.isAlpha cs
  rw [Option.mem_def.mp hc] at hhead
  simpa using hhead

theorem Closes.head_ending {flags ending : List Char} (h : Closes flags ending) :
    ∀ c ∈ ending.head?, c.isAlpha = false := by
  intro c hc
  rcases h.ending with rfl | rfl
  · cases hc
  · cases hc
    rfl

def slash : CharTest := .code .exact '/'.toNat

theorem matching?_slash_closing {text : List Char} {s t : State} :
    (Expr.seq (.char slash) closing).matching? text.toArray s some = some t ↔
      ∃ flags ending, text.drop s.pos = '/' :: (flags ++ ending) ∧ Closes flags ending ∧
        t = (((s.advance 1).openGroup 2).advance flags.length).closeGroup 2 := by
  rw [Expr.matching?, Expr.matching?, List.getElem?_toArray]
  cases hrest : text.drop s.pos with
  | nil =>
    have hnone : text[s.pos]? = none := List.getElem?_eq_none (List.drop_eq_nil_iff.mp hrest)
    simp [hnone]
  | cons c rest =>
    have hc : text[s.pos]? = some c := by
      rw [← List.head?_drop, hrest]
      rfl
    have hbehind : text.drop (s.advance 1).pos = rest := by
      rw [State.advance, ← List.drop_drop, hrest]
      rfl
    have hplace : (s.advance 1).pos ≤ text.length := (List.getElem?_eq_some_iff.mp hc).1
    have hslash : slash.accepts c = true ↔ c = '/' := accepts_code_exact c '/'
    simp only [hc, hslash]
    constructor
    · intro h
      split_ifs at h with hfirst
      have hsplit : text.drop (s.advance 1).pos = rest.takeWhile Char.isAlpha ++ rest.dropWhile Char.isAlpha := by
        rw [hbehind, List.takeWhile_append_dropWhile]
      have hletters : ∀ c ∈ rest.takeWhile Char.isAlpha, c.isAlpha = true := List.all_eq_true.mp List.all_takeWhile
      rw [matching?_closing hsplit hletters (not_isAlpha_dropWhile rest) hplace] at h
      split_ifs at h with hending
      cases h
      refine ⟨_, _, ?_, ⟨hletters, hending⟩, rfl⟩
      rw [hfirst, List.takeWhile_append_dropWhile]
    · rintro ⟨flags, ending, heq, hcloses, rfl⟩
      obtain ⟨rfl, rfl⟩ := List.cons.inj heq
      rw [if_pos rfl, matching?_closing hbehind hcloses.flags hcloses.head_ending hplace, if_pos hcloses.ending]

theorem eq_nil_of_slash_not_mem {more rest rest' : List Char} (h : '/' ∉ rest)
    (heq : '/' :: rest = more ++ '/' :: rest') : more = [] := by
  cases more with
  | nil => rfl
  | cons c more =>
    obtain ⟨_, rfl⟩ := List.cons.inj heq
    exact absurd (List.mem_append_right more List.mem_cons_self) h

/-- A slash that is followed by no other is in one place only. -/
theorem eq_of_last_slash {body body' rest rest' : List Char} (h : '/' ∉ rest) (h' : '/' ∉ rest')
    (heq : body ++ '/' :: rest = body' ++ '/' :: rest') : body = body' := by
  rcases List.append_eq_append_iff.mp heq with ⟨more, rfl, hmore⟩ | ⟨more, rfl, hmore⟩
  · rw [eq_nil_of_slash_not_mem h hmore, List.append_nil]
  · rw [eq_nil_of_slash_not_mem h' hmore, List.append_nil]

/-- The expression that literals match. -/
def form : Program :=
  ⟨.seq (.anchor .textStart) (.seq (.char slash)
    (.seq (.group 1 (.run .greedy 0 none (.any true))) (.seq (.char slash) closing))), 2⟩

theorem compile_form : compile "^/(?P<body>.*)/(?P<flags>[A-Za-z]*)$" ⟨false, false, true⟩ = .ok form := by rfl

theorem match_form_of_head {text : List Char} (h : text.head? ≠ some '/') :
    form.expr.matching? text.toArray (.start (form.groups + 1) 0) some = none := by
  cases text with
  | nil => rfl
  | cons c rest =>
    have hslash : ¬slash.accepts c = true := fun hc => h (congrArg some ((accepts_code_exact c '/').mp hc))
    exact if_neg hslash

theorem match_form_of_slash (rest : List Char) :
    form.expr.matching? ('/' :: rest).toArray (.start (form.groups + 1) 0) some =
      descend (fun n => (Expr.seq (.char slash) closing).matching? ('/' :: rest).toArray
        ⟨1 + n, [⟨none, none⟩, ⟨some 1, some (1 + n)⟩, ⟨none, none⟩]⟩ some) 0 rest.length := by
  have hopen : form.expr.matching? ('/' :: rest).toArray (.start (form.groups + 1) 0) some =
      (Expr.group 1 (.run .greedy 0 none (.any true))).matching? ('/' :: rest).toArray ⟨1, List.replicate 3 ⟨none, none⟩⟩
        fun t => (Expr.seq (.char slash) closing).matching? ('/' :: rest).toArray t some := rfl
  rw [hopen, matching?_group_run, runLength_any]
  rfl

/-- The state in which a match ends that has a body and flags of some lengths. -/
def matched (body flags : Nat) : State :=
  ⟨1 + body + 1 + flags,
    [⟨none, none⟩, ⟨some 1, some (1 + body)⟩, ⟨some (1 + body + 1), some (1 + body + 1 + flags)⟩]⟩

theorem drop_behind_slash (rest : List Char) (n : Nat) : ('/' :: rest).drop (1 + n) = rest.drop n := by
  rw [Nat.add_comm, List.drop_succ_cons]

/-- No other body fits: it would end at another slash that is followed by none. -/
theorem slash_closing_of_other_body {body flags ending : List Char} (hcloses : Closes flags ending) {n : Nat}
    (hne : n ≠ body.length) (marks : List Mark) :
    (Expr.seq (.char slash) closing).matching? ('/' :: (body ++ '/' :: (flags ++ ending))).toArray ⟨1 + n, marks⟩ some =
      none := by
  rw [Option.eq_none_iff_forall_ne_some]
  intro t ht
  obtain ⟨flags', ending', hrest, hcloses', _⟩ := matching?_slash_closing.mp ht
  rw [drop_behind_slash] at hrest
  have hsplit := List.take_append_drop n (body ++ '/' :: (flags ++ ending))
  rw [hrest] at hsplit
  have hsame := congrArg List.length (eq_of_last_slash hcloses'.slash_not_mem hcloses.slash_not_mem hsplit)
  have hn : n ≤ (body ++ '/' :: (flags ++ ending)).length := by
    by_contra hpast
    rw [List.drop_eq_nil_of_le (by omega)] at hrest
    cases hrest
  rw [List.length_take_of_le hn] at hsame
  exact hne hsame

theorem match_form_iff {text : List Char} {t : State} :
    form.expr.matching? text.toArray (.start (form.groups + 1) 0) some = some t ↔
      ∃ body flags ending, text = '/' :: (body ++ '/' :: (flags ++ ending)) ∧ Closes flags ending ∧
        t = matched body.length flags.length := by
  constructor
  · intro h
    obtain ⟨rest, rfl⟩ : ∃ rest, text = '/' :: rest := by
      refine List.head?_eq_some_iff.mp (by_contra fun hhead => ?_)
      rw [match_form_of_head hhead] at h
      cases h
    rw [match_form_of_slash] at h
    obtain ⟨n, _, hn, hattempt⟩ := descend_some _ _ _ _ h
    obtain ⟨flags, ending, hdrop, hcloses, rfl⟩ := matching?_slash_closing.mp hattempt
    refine ⟨rest.take n, flags, ending, ?_, hcloses, ?_⟩
    · rw [← hdrop, drop_behind_slash, List.take_append_drop]
    · rw [List.length_take_of_le (by simpa using hn)]
      rfl
  · rintro ⟨body, flags, ending, rfl, hcloses, rfl⟩
    have hbody : body.length ≤ 0 + (body ++ '/' :: (flags ++ ending)).length := by simp
    rw [match_form_of_slash, descend_eq_of_only (Nat.zero_le _) hbody]
    · refine matching?_slash_closing.mpr ⟨flags, ending, ?_, hcloses, rfl⟩
      rw [drop_behind_slash, List.drop_left]
    · intro n _ hne
      exact slash_closing_of_other_body hcloses hne _

/-- The literal that a match of the form stands for: one with a body. -/
def ofMatch? (text : List Char) (s : State) : Option SlashLiteral := do
  let body ← s.captured? text 1
  let flags ← s.captured? text 2
  if body.isEmpty then none else some ⟨body, flags⟩

theorem ofMatch?_matched {body flags ending : List Char} :
    ofMatch? ('/' :: (body ++ '/' :: (flags ++ ending))) (matched body.length flags.length) =
      if body.isEmpty then none else some ⟨body, flags⟩ := by
  have hbody : (matched body.length flags.length).captured? ('/' :: (body ++ '/' :: (flags ++ ending))) 1 =
      some body := by
    simp [State.captured?, State.group?, matched]
  have hflags : (matched body.length flags.length).captured? ('/' :: (body ++ '/' :: (flags ++ ending))) 2 =
      some flags := by
    have hplace : 1 + body.length + 1 = body.length + 1 + 1 := by omega
    have hbehind : ('/' :: (body ++ '/' :: (flags ++ ending))).drop (1 + body.length + 1) = flags ++ ending := by
      rw [hplace, List.drop_succ_cons, ← List.drop_drop, List.drop_left]
      rfl
    simp [State.captured?, State.group?, matched, hbehind]
  simp [ofMatch?, hbody, hflags]

/-- A text is read as the literal that the match of the form stands for. -/
theorem ofList?_eq_ofMatch? (text : List Char) :
    ofList? text =
      (form.expr.matching? text.toArray (.start (form.groups + 1) 0) some).bind (ofMatch? text) := by
  refine Option.ext fun l => ?_
  rw [ofList?_eq_some_iff, Option.bind_eq_some_iff]
  constructor
  · rintro ⟨ending, h⟩
    refine ⟨_, match_form_iff.mpr ⟨l.body, l.flags, ending, h.text_eq, h.closes, rfl⟩, ?_⟩
    rw [h.text_eq, ofMatch?_matched, if_neg (by simpa using h.body)]
  · rintro ⟨t, hmatch, hl⟩
    obtain ⟨body, flags, ending, rfl, hcloses, rfl⟩ := match_form_iff.mp hmatch
    rw [ofMatch?_matched] at hl
    split_ifs at hl with hbody
    cases hl
    exact ⟨ending, rfl, by simpa using hbody, hcloses.flags, hcloses.ending⟩

end SlashLiteral

end ScriptAudit.Pattern
