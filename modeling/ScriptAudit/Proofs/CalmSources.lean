import ScriptAudit.Proofs.Alternations
import ScriptAudit.Proofs.Verdicts

namespace ScriptAudit.Pattern

/-- What a group holds is laid out in few calls while few groups have been closed: three for each of these, and one more
for a repetition. -/
structure OpenGroup.Low (closed : Nat) (g : OpenGroup) : Prop where
  items : ∀ piece ∈ g.pieces, piece.role ≠ .repetition → piece.expr.height ≤ 3 * closed
  pieces : ∀ piece ∈ g.pieces, piece.expr.height ≤ 3 * closed + 1
  finished : ∀ a ∈ g.finished, a.expr.height ≤ 3 * closed + 1

namespace OpenGroup.Low

variable {closed : Nat} {g : OpenGroup}

theorem succ (h : g.Low closed) : g.Low (closed + 1) where
  items piece hp hrole := (h.items piece hp hrole).trans (by omega)
  pieces piece hp := (h.pieces piece hp).trans (by omega)
  finished a ha := (h.finished a ha).trans (by omega)

theorem add (h : g.Low closed) {piece : Piece} (hitem : piece.role ≠ .repetition → piece.expr.height ≤ 3 * closed)
    (hpiece : piece.expr.height ≤ 3 * closed + 1) : (g.add piece).Low closed where
  items := List.forall_mem_cons.mpr ⟨hitem, h.items⟩
  pieces := List.forall_mem_cons.mpr ⟨hpiece, h.pieces⟩
  finished := h.finished

theorem current (h : g.Low closed) : g.current.expr.height ≤ 3 * closed + 1 := by
  apply Expr.height_ofList_le
  intro e he
  obtain ⟨piece, hpiece, rfl⟩ := List.mem_map.mp he
  exact h.pieces piece (List.mem_reverse.mp hpiece)

theorem next (h : g.Low closed) : g.next.Low closed where
  items := by simp [OpenGroup.next]
  pieces := by simp [OpenGroup.next]
  finished := List.forall_mem_cons.mpr ⟨h.current, h.finished⟩

theorem content (h : g.Low closed) : g.content.expr.height ≤ 3 * closed + 2 := by
  apply Expr.height_alternatives_le
  intro e he
  rcases List.mem_append.mp he with he | he
  · obtain ⟨a, ha, rfl⟩ := List.mem_map.mp he
    exact h.finished a (List.mem_reverse.mp ha)
  · exact List.mem_singleton.mp he ▸ h.current

theorem branches (h : g.Low closed) (group : Nat) : (g.branches group).expr.height ≤ 3 * closed + 2 := by
  unfold OpenGroup.branches
  split
  next first rest hfinished =>
    have hfirst := h.finished first (hfinished ▸ List.mem_cons_self)
    exact Nat.succ_le_succ (Nat.max_le.mpr ⟨hfirst, h.current⟩)
  next => exact Nat.succ_le_succ (Nat.max_le.mpr ⟨h.current, Nat.zero_le _⟩)

theorem closedPiece (h : g.Low closed) : (Progress.closedPiece g).expr.height ≤ 3 * (closed + 1) := by
  have hcontent := h.content
  unfold Progress.closedPiece
  dsimp only
  split
  · exact hcontent.trans (by omega)
  · exact hcontent.trans (by omega)
  · exact Nat.succ_le_succ hcontent
  · exact Nat.succ_le_succ hcontent
  · exact Nat.succ_le_succ hcontent
  · exact Nat.succ_le_succ hcontent
  · exact (h.branches _).trans (by omega)

end OpenGroup.Low

theorem height_repeating_le (greed : Greed) (least : Nat) (most : Option Nat) (body : Expr) :
    (Expr.repeating greed least most body).height ≤ body.height + 1 := by
  cases body <;> exact Nat.le_refl _

/-- With `n` parentheses opened so far, no more groups are open or closed, and what they hold is laid out in few
calls. -/
def Progress.Fits (n : Nat) (p : Progress) : Prop :=
  ∃ closed, closed + p.outer.length ≤ n ∧ p.inner.Low closed ∧ ∀ g ∈ p.outer, g.Low closed

namespace Progress.Fits

variable {n : Nat} {p : Progress}

theorem mono (h : p.Fits n) {more : Nat} (hle : n ≤ more) : p.Fits more := by
  obtain ⟨closed, hcount, hlow⟩ := h
  exact ⟨closed, hcount.trans hle, hlow⟩

theorem add (h : p.Fits n) {piece : Piece} (hpiece : piece.expr.height = 0) : (p.add piece).Fits n := by
  obtain ⟨closed, hcount, hinner, houter⟩ := h
  exact ⟨closed, hcount, hinner.add (fun _ => by omega) (by omega), houter⟩

theorem enter (h : p.Fits n) (purpose : Purpose) (start : Nat) (modes : LocalModes) :
    (p.enter purpose start modes).Fits (n + 1) := by
  obtain ⟨closed, hcount, hinner, houter⟩ := h
  refine ⟨closed, ?_, ⟨by simp [Progress.enter], by simp [Progress.enter], by simp [Progress.enter]⟩, ?_⟩
  · exact Nat.succ_le_succ hcount
  · exact List.forall_mem_cons.mpr ⟨hinner, houter⟩

/-- Three calls more are allowed for when a group is closed. -/
theorem close (h : p.Fits n) {around : OpenGroup} {outer : List OpenGroup} (hp : p.outer = around :: outer) :
    ∃ closed, closed + outer.length ≤ n ∧ (around.add (closedPiece p.inner)).Low closed ∧ ∀ g ∈ outer, g.Low closed := by
  obtain ⟨closed, hcount, hinner, houter⟩ := h
  rw [hp] at hcount houter
  obtain ⟨haround, houter⟩ := List.forall_mem_cons.mp houter
  have hpiece := hinner.closedPiece
  refine ⟨closed + 1, ?_, haround.succ.add (fun _ => hpiece) (Nat.le_succ_of_le hpiece), fun g hg => (houter g hg).succ⟩
  rw [List.length_cons] at hcount
  omega

theorem depth_le (h : p.Fits n) : p.depth ≤ 2 * n + 2 := by
  have hcalls (gs : List OpenGroup) : gs.foldr (fun g calls => calls + g.purpose.calls) 0 ≤ 2 * gs.length := by
    induction gs with
    | nil => exact Nat.zero_le _
    | cons g gs ih =>
      have hg : g.purpose.calls ≤ 2 := by cases g.purpose <;> simp [Purpose.calls]
      rw [List.foldr_cons, List.length_cons]
      omega
  obtain ⟨closed, hcount, _⟩ := h
  have hdepth := hcalls (p.inner :: p.outer)
  rw [List.length_cons] at hdepth
  unfold depth
  omega

end Progress.Fits

/-- How far a reading has come: the tokens left are the last ones of some, the alphabet was not narrowed, and there are
no more groups than parentheses. -/
structure Progress.Within (ts : List Token) (n : Nat) (p : Progress) : Prop where
  left : p.reader.Left ts
  wide : .ascii ∉ p.flags
  fits : p.Fits n

namespace Progress

variable {ts : List Token} {n : Nat} {p : Progress} {r : Reader}

namespace Within

theorem moveTo {before : List Token} (h : p.Within before n) (hr : r.Left ts) : (p.moveTo r).Within ts n :=
  ⟨hr, h.wide, h.fits⟩

theorem add (h : p.Within ts n) {piece : Piece} (hpiece : piece.expr.height = 0) : (p.add piece).Within ts n :=
  ⟨h.left, h.wide, h.fits.add hpiece⟩

theorem enter (h : p.Within ts n) (purpose : Purpose) (start : Nat) (modes : LocalModes) :
    (p.enter purpose start modes).Within ts (n + 1) := ⟨h.left, h.wide, h.fits.enter purpose start modes⟩

theorem succ (h : p.Within ts n) : p.Within ts (n + 1) := ⟨h.left, h.wide, h.fits.mono n.le_succ⟩

end Within

theorem verdict_checkLookBehind (p : Progress) (group pos : Nat) :
    Verdict (fun _ => True) (p.checkLookBehind group pos) := by
  unfold checkLookBehind
  split
  · exact .ok trivial
  · split_ifs
    · exact .fault _
    · exact .fault _
    · exact .ok trivial

theorem verdict_checkName (name : List Char) (pos : Nat) : Verdict (fun _ => True) (checkName name pos) := by
  unfold checkName
  split
  · exact .ok trivial
  · exact .fault _

theorem verdict_named (p : Progress) (name : String) (pos : Nat) : Verdict (fun _ => True) (p.named name pos) := by
  unfold named
  split
  · exact .ok trivial
  · exact .fault _

namespace Within

variable {before : List Token}

theorem addReference (h : p.Within before n) (start group openPos : Nat) (hr : r.Left ts) :
    Verdict (Within ts n) (p.addReference start group openPos r) := by
  unfold Progress.addReference
  split
  · exact .fault _
  · exact (verdict_checkLookBehind p group r.pos).bind fun _ _ => .ok ((h.moveTo hr).add rfl)

theorem addEscape (h : p.Within before n) (start : Nat) {c : Char} (calm : CalmTokens (.escaped c :: r.rest))
    (hr : r.Left ts) : Verdict (Within ts n) (p.addEscape start c r) := by
  refine (calm.verdict_exprEscape start hr).bind ?_
  rintro ⟨escape, s⟩ hs
  dsimp only at hs ⊢
  split
  · exact .ok ((h.moveTo hs).add rfl)
  · exact .ok ((h.moveTo hs).add rfl)
  · exact .ok ((h.moveTo hs).add rfl)
  · exact .ok ((h.moveTo hs).add rfl)
  · exact .ok ((h.moveTo hs).add rfl)
  · exact .ok ((h.moveTo hs).add rfl)
  · split
    · exact h.addReference _ _ _ hs
    · exact .fault _

end Within

end Progress

theorem verdict_count {digits : List Char} (hdigits : ∀ c ∈ digits, c.isDigit = true) (hlength : digits.length < 10) :
    Verdict (fun _ => True) (count digits) := by
  have hlt := Text.valueIn_lt fun c hc => Text.hexDigit?_lt_of_isDigit (hdigits c hc)
  have hle : 10 ^ digits.length ≤ 10 ^ 9 := Nat.pow_le_pow_right (by decide) (by omega)
  have hcount : ¬ countLimit ≤ Text.valueIn 10 digits := by
    unfold countLimit
    omega
  have hshort : ¬ Decimal.longestNumeral < digits.length := by
    unfold Decimal.longestNumeral
    omega
  unfold count
  split
  · exact .ok trivial
  · dsimp only
    rw [if_neg hcount]
    exact .ok trivial

section Tokens

variable {ts : List Token} {r : Reader}

theorem CalmTokens.verdict_digits (k : Nat) (calm : CalmTokens r.rest) :
    Verdict (fun x => Verdict (fun _ => True) (count x.1) ∧ x.2.Left r.rest) (r.collect Char.isDigit k) := by
  refine (Reader.verdict_collect Char.isDigit k r).mono ?_
  rintro ⟨digits, s⟩ ⟨hrest, hdigits⟩
  have hpart : digits.map .plain <:+: r.rest := hrest ▸ (List.prefix_append _ _).isInfix
  exact ⟨verdict_count hdigits ((calm.of_infix hpart).length_lt hdigits), hrest ▸ List.suffix_append _ _⟩

theorem CalmTokens.verdict_braceCounts (calm : CalmTokens r.rest) :
    Verdict (fun x => ∀ y ∈ x, y.2.Left r.rest) (braceCounts r) := by
  unfold braceCounts
  split
  · exact .ok (by simp)
  · refine (calm.verdict_digits _).bind ?_
    rintro ⟨low, s⟩ ⟨hlow, hs⟩
    refine (Reader.verdict_eat ',' hs).bind ?_
    rintro ⟨comma, s⟩ ⟨hs, _⟩
    dsimp -zeta only at hlow hs ⊢
    -- Without a comma the upper count is the lower one, and its digits are no more than those.
    extract_lets join
    have hjoin (x : List Char × Reader) (hx : Verdict (fun _ => True) (count x.1) ∧ x.2.Left r.rest) :
        Verdict (fun x => ∀ y ∈ x, y.2.Left r.rest) (join x) := by
      refine (Reader.verdict_eat '\x7d' hx.2).bind ?_
      rintro ⟨closed, s⟩ ⟨hs, _⟩
      dsimp only at hs ⊢
      split
      · exact .ok (by simp)
      · refine hlow.bind ?_
        intro least _
        refine hx.1.bind ?_
        intro most _
        split
        · exact .fault _
        · exact .ok (by simpa using hs)
    split
    · refine ((calm.of_suffix hs).verdict_digits _).bind ?_
      rintro x ⟨hhigh, hx⟩
      exact hjoin x ⟨hhigh, hx.trans hs⟩
    · exact hjoin (low, s) ⟨hlow, hs⟩

theorem CalmTokens.verdict_repeatCounts (c : Char) (calm : CalmTokens r.rest) :
    Verdict (fun x => ∀ y ∈ x, y.2.Left r.rest) (repeatCounts c r) := by
  unfold repeatCounts
  split
  · exact .ok (by simp)
  · exact .ok (by simp)
  · exact .ok (by simp)
  · exact calm.verdict_braceCounts

theorem verdict_greedAfter (h : r.Left ts) : Verdict (fun x => x.2.Left ts) (greedAfter r) := by
  refine (Reader.verdict_eat '?' h).bind ?_
  rintro ⟨isLazy, s⟩ ⟨hs, _⟩
  dsimp only at hs ⊢
  split
  · exact .ok hs
  · exact (Reader.verdict_eat '+' hs).bind fun _ hx => .ok hx.1

end Tokens

namespace Progress

variable {before ts : List Token} {n : Nat} {p : Progress} {r : Reader}

/-- An item that is repeated is no longer one that can be. -/
theorem Fits.repeatLast (h : p.Fits n) {piece : Piece} {earlier : List Piece} (hpieces : p.inner.pieces = piece :: earlier)
    (hrole : piece.role = .item) {again : Piece} (hagain : again.role = .repetition)
    (hheight : again.expr.height ≤ piece.expr.height + 1) :
    ∃ closed, closed + p.outer.length ≤ n ∧ OpenGroup.Low closed { p.inner with pieces := again :: earlier } ∧
      ∀ g ∈ p.outer, g.Low closed := by
  obtain ⟨closed, hcount, ⟨hitems, hall, hfinished⟩, houter⟩ := h
  rw [hpieces, List.forall_mem_cons] at hitems hall
  have hpiece := hitems.1 (by simp [hrole])
  refine ⟨closed, hcount, ⟨?_, ?_, hfinished⟩, houter⟩
  · exact List.forall_mem_cons.mpr ⟨fun hne => absurd hagain hne, hitems.2⟩
  · exact List.forall_mem_cons.mpr ⟨by omega, hall.2⟩

namespace Within

theorem repeatLast (h : p.Within before n) (start least : Nat) (most : Option Nat) (hr : r.Left ts) :
    Verdict (Within ts n) (p.repeatLast start least most r) := by
  unfold Progress.repeatLast
  split
  · exact .fault _
  next piece earlier hpieces =>
    split
    · exact .fault _
    · exact .fault _
    next hrole =>
      refine (verdict_greedAfter hr).bind ?_
      intro x hx
      exact .ok ⟨hx, h.wide, h.fits.repeatLast hpieces hrole rfl (height_repeating_le _ _ _ _)⟩

theorem addRepeat (h : p.Within before n) (start : Nat) (c : Char) (calm : CalmTokens r.rest) (hr : r.Left ts) :
    Verdict (Within ts n) (p.addRepeat start c r) := by
  refine (calm.verdict_repeatCounts c).bind ?_
  intro counts hcounts
  split
  · exact .ok ((h.moveTo hr).add rfl)
  next least most s => exact h.repeatLast _ _ _ ((hcounts _ rfl).trans hr)

theorem enterCapture (h : p.Within before n) (start : Nat) (name : Option (String × Nat)) (hr : r.Left ts) :
    Verdict (Within ts (n + 1)) (p.enterCapture start name r) := by
  have henter := (h.moveTo hr).enter (.capture p.groups) start p.modes
  unfold Progress.enterCapture
  dsimp only
  split
  · exact .ok ⟨henter.left, henter.wide, henter.fits⟩
  · split
    · exact .fault _
    · exact .ok ⟨henter.left, henter.wide, henter.fits⟩

theorem addNamed (h : p.Within before n) (start : Nat) (hr : r.Left ts) :
    Verdict (Within ts (n + 1)) (p.addNamed start r) := by
  unfold Progress.addNamed
  split
  · exact .fault _
  · refine (Reader.verdict_skip hr).bind ?_
    intro s hs
    split_ifs
    · refine (Reader.verdict_upToFrom _ _ _ _ hs).bind ?_
      rintro ⟨name, after⟩ hafter
      exact (verdict_checkName _ _).bind fun _ _ => h.enterCapture _ _ hafter
    · refine (Reader.verdict_upToFrom _ _ _ _ hs).bind ?_
      rintro ⟨name, after⟩ hafter
      refine (verdict_checkName _ _).bind fun _ _ => ?_
      exact (verdict_named _ _ _).bind fun _ _ => h.succ.addReference _ _ _ hafter
    · exact .fault _

theorem condition (h : p.Within before n) (name : List Char) (pos : Nat) :
    Verdict (fun x => x.2.Within before n) (p.condition name pos) := by
  unfold Progress.condition
  split
  · exact (verdict_named _ _ _).bind fun _ _ => .ok h
  · split
    · split_ifs
      · exact .fault _
      · exact .fault _
      · exact .ok h
      · exact .ok ⟨h.left, h.wide, h.fits⟩
    · exact .fault _

theorem enterBranch (h : p.Within before n) (start : Nat) (hr : r.Left ts) :
    Verdict (Within ts (n + 1)) (p.enterBranch start r) := by
  refine (Reader.verdict_upToFrom _ _ _ _ hr).bind ?_
  rintro ⟨name, after⟩ hafter
  refine (h.condition _ _).bind ?_
  rintro ⟨group, q⟩ hq
  exact (verdict_checkLookBehind _ _ _).bind fun _ _ => .ok ((hq.moveTo hafter).enter _ _ _)

theorem enterLookBehind (h : p.Within before n) (start : Nat) (hr : r.Left ts) :
    Verdict (Within ts (n + 1)) (p.enterLookBehind start r) := by
  unfold Progress.enterLookBehind
  split
  · exact .fault _
  · refine (Reader.verdict_skip hr).bind ?_
    intro s hs
    split_ifs
    · exact .ok ((h.moveTo hs).enter _ _ _)
    · exact .ok ((h.moveTo hs).enter _ _ _)
    · exact .fault _

theorem addFlags (h : p.Within before n) (start : Nat) {first : Token}
    (calm : CalmTokens (.plain '(' :: .plain '?' :: first :: r.rest)) (hr : r.Left ts) :
    Verdict (Within ts (n + 1)) (p.addFlags start first r) := by
  refine (calm.verdict_flagChange hr).bind ?_
  rintro ⟨change, s⟩ ⟨hs, hwhole⟩
  dsimp only at hs hwhole ⊢
  split
  next on after heq =>
    obtain ⟨rfl, rfl⟩ := Prod.mk.inj heq
    split
    · obtain ⟨closed, hcount, hinner, houter⟩ := h.succ.fits
      refine .ok ⟨hs, by simp [h.wide, hwhole on rfl], closed, hcount, ?_, houter⟩
      exact ⟨hinner.items, hinner.pieces, hinner.finished⟩
    · exact .fault _
  next on off after heq =>
    obtain ⟨rfl, rfl⟩ := Prod.mk.inj heq
    exact .ok ((h.moveTo hs).enter _ _ _)

/-- A parenthesis opens one group at most. -/
theorem addGroup (h : p.Within before n) (start : Nat) (calm : CalmTokens (.plain '(' :: r.rest)) :
    Verdict (Within r.rest (n + 1)) (p.addGroup start r) := by
  refine (Reader.verdict_eat '?' (List.suffix_refl r.rest)).bind ?_
  rintro ⟨extended, s⟩ ⟨hs, hmark⟩
  dsimp only at hs hmark ⊢
  split
  · exact h.enterCapture _ _ hs
  next hextended =>
    have hrest := hmark (by simpa using hextended)
    split
    · exact .fault _
    next t hnext =>
      refine (verdict_skip_next hnext).bind ?_
      intro after ht
      have hhead : CalmTokens (.plain '(' :: .plain '?' :: t :: after.rest) := by rwa [hrest, ht] at calm
      have hafter : after.rest <:+ r.rest := (ht ▸ List.suffix_cons t after.rest).trans hs
      split
      · exact h.addNamed _ hafter
      · exact .ok ((h.moveTo hafter).enter _ _ _)
      · refine (Reader.verdict_passFrom _ _ hafter).bind ?_
        rintro ⟨closed, s⟩ hs
        dsimp only at hs ⊢
        split
        · exact .ok (h.succ.moveTo hs)
        · exact .fault _
      · exact .ok ((h.moveTo hafter).enter _ _ _)
      · exact .ok ((h.moveTo hafter).enter _ _ _)
      · exact h.enterLookBehind _ hafter
      · exact h.enterBranch _ hafter
      · exact .ok ((h.moveTo hafter).enter _ _ _)
      · split
        · exact h.addFlags _ hhead hafter
        · exact .fault _

theorem close (h : p.Within before n) {t : Token} (hrest : p.reader.rest = t :: ts) :
    Verdict (Within ts n) p.close := by
  unfold Progress.close
  split
  · rw [if_neg]
    · exact .fault _
    · simp [hasMixedAlphabet, h.wide]
  next around outer houter =>
    refine (Reader.verdict_skip_cons hrest).bind ?_
    rintro s rfl
    have hfits := h.fits.close houter
    dsimp only
    split <;> exact .ok ⟨List.suffix_refl _, h.wide, hfits⟩

theorem bar (h : p.Within before n) {t : Token} (hrest : p.reader.rest = t :: ts) : Verdict (Within ts n) p.bar := by
  unfold Progress.bar
  split
  · exact .fault _
  · refine (Reader.verdict_skip_cons hrest).map ?_
    rintro s rfl
    obtain ⟨closed, hcount, hinner, houter⟩ := h.fits
    exact ⟨List.suffix_refl _, h.wide, closed, hcount, hinner.next, houter⟩

end Within

end Progress

/-- The parentheses among tokens that open a group. -/
abbrev openings (ts : List Token) : Nat := ts.count (.plain '(')

namespace Progress

variable {before ts : List Token} {n : Nat} {p : Progress}

/-- One step takes the first of the tokens, and opens no more groups than this token does. -/
theorem Within.step (h : p.Within before n) {t : Token} (hrest : p.reader.rest = t :: ts) (calm : CalmTokens (t :: ts)) :
    Verdict (fun q => ∃ opened, q.Within ts opened ∧ opened + openings ts ≤ n + openings (t :: ts)) (p.step t) := by
  have hsame {reading : Reading Progress} (hreading : Verdict (Within ts n) reading) :
      Verdict (fun q => ∃ opened, q.Within ts opened ∧ opened + openings ts ≤ n + openings (t :: ts)) reading :=
    hreading.mono fun q hq => ⟨n, hq, Nat.add_le_add_left List.count_le_count_cons n⟩
  have hskip := Reader.verdict_skip_cons hrest
  unfold Progress.step
  dsimp only
  split
  · exact hsame (h.bar hrest)
  · exact hsame (h.close hrest)
  · exact .fault _
  · refine hskip.bind ?_
    rintro s rfl
    exact hsame (h.addEscape _ calm (List.suffix_refl _))
  · refine hskip.bind ?_
    rintro s rfl
    have hleft := List.suffix_refl s.rest
    have hcalm : CalmTokens s.rest := calm.of_suffix (List.suffix_cons _ _)
    split
    · exact hsame (.ok (h.moveTo hleft))
    · split
      · exact hsame ((Reader.verdict_passFrom _ _ hleft).bind fun _ hx => .ok (h.moveTo hx))
      · split
        · exact hsame ((hcalm.verdict_charSet _ _ hleft).bind fun _ hx => .ok ((h.moveTo hx).add rfl))
        · exact hsame (.ok ((h.moveTo hleft).add rfl))
        · exact hsame (.ok ((h.moveTo hleft).add rfl))
        · exact hsame (.ok ((h.moveTo hleft).add rfl))
        · exact hsame (h.addRepeat _ _ hcalm hleft)
        · exact hsame (h.addRepeat _ _ hcalm hleft)
        · exact hsame (h.addRepeat _ _ hcalm hleft)
        · exact hsame (h.addRepeat _ _ hcalm hleft)
        · refine (h.addGroup _ calm).mono fun q hq => ⟨n + 1, hq, ?_⟩
          rw [openings, openings, List.count_cons_self]
          omega
        · exact hsame (.ok ((h.moveTo hleft).add rfl))

/-- The groups that are opened in the end are no more than the parentheses that were left. -/
theorem Within.steps {limit : Nat} (hlimit : 2 * limit + 2 ≤ callLimit) (k : Nat) (h : p.Within p.reader.rest n)
    (calm : CalmTokens p.reader.rest) (hcount : n + openings p.reader.rest ≤ limit) :
    Verdict (fun q => .ascii ∉ q.flags ∧ q.Fits limit) (p.steps k) := by
  induction k generalizing p n with
  | zero => exact .ok ⟨h.wide, h.fits.mono (by omega)⟩
  | succ k ih =>
    unfold Progress.steps
    split
    · exact .ok ⟨h.wide, h.fits.mono (by omega)⟩
    next t hnext =>
      obtain ⟨ts, hrest⟩ := List.head?_eq_some_iff.mp hnext
      rw [hrest] at calm hcount
      refine (h.step hrest calm).bind ?_
      rintro q ⟨opened, hq, hopened⟩
      have hleft : openings q.reader.rest ≤ openings ts := hq.left.sublist.count_le _
      have hdepth := hq.fits.depth_le
      rw [if_neg (by omega)]
      exact ih ⟨List.suffix_refl _, hq.wide, hq.fits⟩ (calm.of_suffix (hq.left.trans (List.suffix_cons t ts))) (by omega)

end Progress

namespace Progress

/-- A parenthesis before another one opens a group. -/
theorem step_parenthesis {p : Progress} {ts : List Token} (hrest : p.reader.rest = .plain '(' :: .plain '(' :: ts) :
    ∃ q, p.step (.plain '(') = .ok q ∧ q.reader.rest = .plain '(' :: ts ∧ q.depth = p.depth + 2 := by
  have hskip : p.reader.skip = .ok ⟨p.reader.pos + 1, .plain '(' :: ts⟩ := by
    rw [Reader.skip, hrest]
    rfl
  refine ⟨{ p with reader := ⟨p.reader.pos + 1, .plain '(' :: ts⟩, widths := p.widths ++ [none] }.enter
    (.capture p.groups) p.reader.pos p.modes, ?_, rfl, rfl⟩
  change (p.reader.skip >>= _) = _
  rw [hskip]
  simp only [bind, Except.bind, show isLayout '(' = false from rfl, show ('(' == '#') = false from rfl,
    Bool.and_false, Bool.false_eq_true, if_false]
  rfl

/-- Groups that open one inside the other break a reading off once there are too many. -/
theorem steps_parentheses (n k : Nat) {p : Progress} {ts : List Token}
    (hrest : p.reader.rest = List.replicate (k + 1) (.plain '(') ++ ts) (hdepth : p.depth ≤ callLimit)
    (hdeep : callLimit < p.depth + 2 * k) : p.steps (n + k) = .error .tooDeep := by
  induction k generalizing p with
  | zero => omega
  | succ k ih =>
    obtain ⟨q, hstep, hq, hmore⟩ := step_parenthesis hrest
    have hnext : p.reader.next? = some (.plain '(') := congrArg List.head? hrest
    have hsteps : p.steps (n + (k + 1)) = if callLimit < q.depth then .error .tooDeep else q.steps (n + k) := by
      simp only [steps, hnext, hstep]
      rfl
    rw [hsteps]
    split
    · rfl
    next hq' => exact ih hq (by omega) (by omega)

end Progress

/-- A source that opens too many groups one inside the other is read to no verdict, whatever follows. -/
theorem compile_of_parentheses (n : Nat) (hn : callLimit < 2 * n) (rest : List Char) (modes : Modes) :
    compile (String.ofList (List.replicate n '(' ++ rest)) modes = .error .tooDeep := by
  obtain ⟨k, rfl⟩ := Nat.exists_eq_add_of_le' (show 1 ≤ n by omega)
  have htokens (m : Nat) : tokens (List.replicate m '(' ++ rest) = List.replicate m (.plain '(') ++ tokens rest := by
    induction m with
    | zero => rfl
    | succ m ih => exact congrArg (Token.plain '(' :: ·) ih
  have hreader : Reader.ofSource (List.replicate (k + 1) '(' ++ rest) =
      .ok ⟨0, List.replicate (k + 1) (.plain '(') ++ tokens rest⟩ := by
    rw [Reader.ofSource, htokens]
    rfl
  have hlength : (List.replicate (k + 1) (Token.plain '(') ++ tokens rest).length = (tokens rest).length + 1 + k := by
    simp
    omega
  have hdeep := Progress.steps_parentheses ((tokens rest).length + 1) k
    (p := .start modes ⟨0, List.replicate (k + 1) (.plain '(') ++ tokens rest⟩) rfl (by decide : 2 ≤ 980)
    (show callLimit < 2 + 2 * k by omega)
  rw [compile, String.toList_ofList, hreader]
  simp only [bind, Except.bind, hlength, hdeep]

-- What else a calm source is without: each of these is read to no verdict.
example : compile "a\x7b4294967295\x7d" {} = .error .countTooLarge := by rfl

example : count (List.replicate 4301 '0') = .error (.longCount 4301) := by
  rw [count, if_neg (by rw [List.isEmpty_replicate]; decide), if_pos, List.length_replicate]
  rw [List.length_replicate]
  decide

example : compile "\\UFFFFFFFF" {} = .error .codeTooLarge := by rfl

example : compile "(?a)(?u)b" {} = .error .asciiAndUnicode := by rfl

end ScriptAudit.Pattern
