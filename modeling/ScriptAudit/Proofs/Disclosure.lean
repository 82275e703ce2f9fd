import ScriptAudit.Proofs.Isolation
import ScriptAudit.Report.Console

namespace ScriptAudit

namespace Text

/-- The lines of a text. -/
def lines (s : String) : List String := (s.toList.splitOn '\n').map String.ofList

theorem lines_ne_nil (s : String) : lines s ≠ [] := by
  simp [lines, List.splitOn_ne_nil]

theorem lines_of_unbroken {s : String} (h : '\n' ∉ s.toList) : lines s = [s] := by
  rw [lines, List.splitOn_eq_singleton h, List.map_singleton, String.ofList_toList]

theorem intercalate_lines (s : String) : "\n".intercalate (lines s) = s := by
  have htexts : (lines s).map String.toList = s.toList.splitOn '\n' := by simp [lines, Function.comp_def]
  rw [← String.toList_inj, String.toList_intercalate, htexts]
  exact List.intercalate_splitOn '\n'

/-- Of texts that are put one below the other, the lines are those of each. -/
theorem lines_intercalate {pieces : List String} (h : pieces ≠ []) :
    lines ("\n".intercalate pieces) = pieces.flatMap lines := by
  induction pieces with
  | nil => exact absurd rfl h
  | cons piece rest ih =>
    cases rest with
    | nil => simp
    | cons next rest =>
      have hcut : ("\n".intercalate (piece :: next :: rest)).toList =
          piece.toList ++ '\n' :: ("\n".intercalate (next :: rest)).toList := by
        rw [String.intercalate_cons_cons, String.toList_append, String.toList_append, List.append_assoc]
        rfl
      rw [lines, hcut, List.splitOn_append_cons_self, List.map_append, List.flatMap_cons, ← ih (by simp)]
      rfl

theorem getLast?_lines_concat (before : List String) (last : String) :
    (lines ("\n".intercalate (before ++ [last]))).getLast? = (lines last).getLast? := by
  rw [lines_intercalate (by simp), List.flatMap_append, List.flatMap_singleton,
    List.getLast?_append_of_ne_nil _ (lines_ne_nil last)]

/-- A text ends as its last line does, if that one is not empty. -/
theorem getLast?_of_lines {s line : String} (h : (lines s).getLast? = some line) (hline : line.toList ≠ []) :
    s.toList.getLast? = line.toList.getLast? := by
  obtain ⟨before, hbefore⟩ := List.getLast?_eq_some_iff.mp h
  rw [← intercalate_lines s, hbefore]
  by_cases hnil : before = []
  · rw [hnil, List.nil_append, String.intercalate_singleton]
  · rw [String.intercalate_append_of_ne_nil hnil (by simp), String.intercalate_singleton, String.toList_append,
      List.getLast?_append_of_ne_nil _ hline]

/-- What is written below a text that is there already. -/
def below (pieces : List String) : List Char := pieces.flatMap fun piece => '\n' :: piece.toList

theorem below_append (pieces others : List String) : below (pieces ++ others) = below pieces ++ below others :=
  List.flatMap_append

theorem toList_intercalate_append {pieces : List String} (h : pieces ≠ []) (others : List String) :
    ("\n".intercalate (pieces ++ others)).toList = ("\n".intercalate pieces).toList ++ below others := by
  induction others generalizing pieces with
  | nil => simp [below]
  | cons piece others ih =>
    have hnext := @ih (pieces ++ [piece]) (by simp)
    rw [List.append_assoc, List.singleton_append] at hnext
    rw [hnext, String.intercalate_append_of_ne_nil h (by simp), String.intercalate_singleton, String.toList_append,
      String.toList_append, List.append_assoc, List.append_assoc]
    rfl

theorem getLast?_append {t : String} {c : Char} (s : String) (h : t.toList.getLast? = some c) :
    (s ++ t).toList.getLast? = some c := by
  rw [String.toList_append, List.getLast?_append, h, Option.some_or]

theorem getLast?_toString_nat (n : Nat) : ∃ c, (toString n).toList.getLast? = some c ∧ c.isDigit = true := by
  rw [Nat.toString_eq_repr, Nat.toList_repr, List.getLast?_eq_some_getLast Nat.toDigits_ne_nil]
  exact ⟨_, rfl, Nat.isDigit_of_mem_toDigits (by decide) (by decide) (List.getLast_mem _)⟩

/-- A number ends in a digit. -/
theorem getLast?_toString (n : Int) : ∃ c, (toString n).toList.getLast? = some c ∧ c.isDigit = true := by
  cases n with
  | ofNat n => exact getLast?_toString_nat n
  | negSucc n =>
    obtain ⟨c, hc, hdigit⟩ := getLast?_toString_nat (n + 1)
    exact ⟨c, getLast?_append "-" hc, hdigit⟩

end Text

namespace Report

open Text

/-- What the console says of findings that it leaves out. -/
def notice (hidden : Nat) : String := s!"... {hidden} more finding(s), see report.md"

/-- What the console shows before it comes to the findings. -/
def overview (r : Report) : List String :=
  ["Scan Summary", rule '=' 40, tableHead, rule '-' tableHead.length] ++
    r.summary.map (fun row => fillRight 10 row.1 ++ " | " ++ fillLeft 5 (toString row.2)) ++
    [rule '-' tableHead.length, s!"Files     : {r.filesScanned}", s!"Findings  : {r.total}"] ++
    (if r.rulesSkipped = 0 then [] else [s!"Skipped   : {r.rulesSkipped} rule evaluation(s)"])

/-- The entries of findings, one after the other, below an empty line. -/
def listing : List Finding → List String
  | [] => []
  | f :: rest => "" :: (f :: rest).flatMap entryLines

theorem consoleLines_eq (r : Report) (limit : Option Int) :
    r.consoleLines limit = r.overview ++ (listing (shown r.findings limit) ++
      if shown r.findings limit = [] then [] else hiddenLine r.total (shown r.findings limit).length) := by
  unfold consoleLines
  cases shown r.findings limit with
  | nil => rfl
  | cons f rest => rfl

theorem toList_notice (k : Nat) :
    (notice k).toList =
      "... ".toList ++ (Nat.toDigits 10 k ++ " more finding(s), see report.md".toList) := by
  rw [notice, String.toList_append, String.toList_append, Nat.toString_eq_repr, Nat.toList_repr, List.append_assoc]
  rfl

/-- By its last letter a notice differs from every other line that is written. -/
theorem getLast?_notice (k : Nat) : (notice k).toList.getLast? = some 'd' := by
  rw [toList_notice, List.getLast?_append, List.getLast?_append]
  rfl

theorem unbroken_notice (k : Nat) : '\n' ∉ (notice k).toList := by
  rw [toList_notice, List.mem_append, List.mem_append]
  rintro (h | h | h)
  · exact absurd h (by decide)
  · exact absurd (Nat.isDigit_of_mem_toDigits (by decide) (by decide) h) (by decide)
  · exact absurd h (by decide)

/-- A line that ends in a number does not end as a notice does. -/
theorem getLast?_append_number (s : String) (n : Int) : (s ++ toString n).toList.getLast? ≠ some 'd' := by
  obtain ⟨c, hc, hdigit⟩ := getLast?_toString n
  rw [getLast?_append s hc]
  rintro ⟨⟩
  exact absurd hdigit (by decide)

theorem getLast?_ne_of_mem_overview {r : Report} {line : String} (h : line ∈ r.overview) :
    line.toList.getLast? ≠ some 'd' := by
  rw [overview, List.mem_append, List.mem_append, List.mem_append] at h
  rcases h with ((h | h) | h) | h
  · have hfixed : ∀ line ∈ ["Scan Summary", rule '=' 40, tableHead, rule '-' tableHead.length],
        line.toList.getLast? ≠ some 'd' := by decide
    exact hfixed line h
  · obtain ⟨row, _, rfl⟩ := List.mem_map.mp h
    rw [fillLeft, ← String.append_assoc]
    exact getLast?_append_number _ row.2
  · rw [List.mem_cons, List.mem_cons, List.mem_singleton] at h
    rcases h with rfl | rfl | rfl
    · decide
    · exact getLast?_append_number _ r.filesScanned
    · exact getLast?_append_number _ r.total
  · split at h
    · exact absurd h List.not_mem_nil
    · rw [List.mem_singleton.mp h, getLast?_append _ rfl]
      decide

theorem getLast?_ne_of_mem_entryLines {f : Finding} {line : String} (h : line ∈ entryLines f) :
    line.toList.getLast? ≠ some 'd' := by
  rw [entryLines, List.mem_cons, List.mem_singleton] at h
  rcases h with rfl | rfl
  · rw [getLast?_append _ rfl]
    decide
  · rw [getLast?_append _ rfl]
    decide

theorem getLast?_ne_of_mem_listing {visible : List Finding} {line : String} (h : line ∈ listing visible) :
    line.toList.getLast? ≠ some 'd' := by
  cases visible with
  | nil => exact absurd h List.not_mem_nil
  | cons f rest =>
    rcases List.mem_cons.mp h with rfl | h
    · decide
    · obtain ⟨g, _, hline⟩ := List.mem_flatMap.mp h
      exact getLast?_ne_of_mem_entryLines hline

/-- Lines that all end otherwise than a notice do not end in one. -/
theorem getLast?_ne_notice {pieces : List String} (hne : pieces ≠ [])
    (hends : ∀ line ∈ pieces, line.toList.getLast? ≠ some 'd') (k : Nat) :
    (lines ("\n".intercalate pieces)).getLast? ≠ some (notice k) := by
  obtain ⟨before, last, rfl⟩ := (List.eq_nil_or_concat' pieces).resolve_left hne
  intro h
  rw [getLast?_lines_concat] at h
  have hlast : last.toList.getLast? = some 'd' := by
    rw [getLast?_of_lines h (by rw [toList_notice]; simp), getLast?_notice]
  exact hends last (by simp) hlast

/-- A notice among such lines is part of one that has a newline in it. -/
theorem quoted_of_mem_lines {pieces : List String} (hne : pieces ≠ [])
    (hends : ∀ line ∈ pieces, line.toList.getLast? ≠ some 'd') {k : Nat}
    (h : notice k ∈ lines ("\n".intercalate pieces)) :
    ∃ line ∈ pieces, '\n' ∈ line.toList ∧ notice k ∈ lines line := by
  rw [lines_intercalate hne, List.mem_flatMap] at h
  obtain ⟨line, hline, hmem⟩ := h
  refine ⟨line, hline, ?_, hmem⟩
  by_contra hunbroken
  rw [lines_of_unbroken hunbroken, List.mem_singleton] at hmem
  exact hends line hline (hmem ▸ getLast?_notice k)

/-- A text with the entries of `visible`, the first findings of a report, in their order, and at most one notice. -/
structure Lists (r : Report) (visible : List Finding) (text : String) : Prop where
  first : visible <+: r.findings
  entries : ∃ told : Option Nat,
    text = "\n".intercalate (r.overview ++ (listing visible ++ told.toList.map notice))

/-- Such a text that says at its end how many findings it leaves out, and says so only if there are any. What reads
like a notice in another place is quoted from a text of several lines. -/
structure Discloses (r : Report) (visible : List Finding) (text : String) : Prop extends r.Lists visible text where
  hidden : visible.length < r.total → (lines text).getLast? = some (notice (r.total - visible.length))
  whole : visible.length = r.total → ∀ k, (lines text).getLast? ≠ some (notice k) ∧
    (notice k ∈ lines text → ∃ line ∈ r.overview ++ listing visible, '\n' ∈ line.toList ∧ notice k ∈ lines line)

section Uniqueness

variable {few more : List Finding} {told told' : Option Nat}

theorem below_told (told : Option Nat) {c d : Char} {rest : List Char}
    (h : below (told.toList.map notice) = c :: d :: rest) : d = '.' := by
  cases told with
  | none => exact absurd h (by simp [below])
  | some k =>
    rw [Option.toList_some, List.map_singleton, below, List.flatMap_singleton, toList_notice] at h
    exact (List.cons.inj (List.cons.inj h).2).1.symm

theorem below_entryLines (f : Finding) (others : List String) :
    ∃ rest, below (entryLines f ++ others) = '\n' :: '[' :: rest := by
  simp only [entryLines, below, List.cons_append, List.flatMap_cons, String.toList_append, List.append_assoc]
  exact ⟨_, rfl⟩

/-- Entries do not read like a notice, so that a text lists one beginning of the findings only. -/
theorem eq_nil_of_below_listing
    (h : below (listing few ++ told.toList.map notice) = below (listing (few ++ more) ++ told'.toList.map notice)) :
    more = [] := by
  cases more with
  | nil => rfl
  | cons f more =>
    exfalso
    obtain ⟨rest, hrest⟩ := below_entryLines f (more.flatMap entryLines ++ told'.toList.map notice)
    cases few with
    | nil =>
      -- The listing begins with an empty line.
      have hempty : below (told.toList.map notice) = '\n' :: '\n' :: '[' :: rest := by
        rw [← hrest]
        simpa [listing, below] using h
      exact absurd (below_told told hempty) (by decide)
    | cons g few =>
      -- The first entry of `more` stands where the other text has its notice or its end.
      have hentry : below (told.toList.map notice) = '\n' :: '[' :: rest := by
        have hsplit : listing (g :: few ++ f :: more) =
            listing (g :: few) ++ (entryLines f ++ more.flatMap entryLines) := by simp [listing]
        rw [hsplit, List.append_assoc, List.append_assoc, below_append, below_append, hrest] at h
        exact List.append_cancel_left h
      exact absurd (below_told told hentry) (by decide)

end Uniqueness

theorem overview_ne_nil (r : Report) : r.overview ≠ [] := by
  simp [overview]

/-- What a text lists can be read from it. -/
theorem Lists.unique {r : Report} {few many : List Finding} {text : String} (h : r.Lists few text)
    (h' : r.Lists many text) : few = many := by
  obtain ⟨told, htext⟩ := h.entries
  obtain ⟨told', htext'⟩ := h'.entries
  have hbelow : below (listing few ++ told.toList.map notice) = below (listing many ++ told'.toList.map notice) := by
    have hsame := congrArg String.toList (htext.symm.trans htext')
    rw [toList_intercalate_append r.overview_ne_nil, toList_intercalate_append r.overview_ne_nil] at hsame
    exact List.append_cancel_left hsame
  rcases List.prefix_or_prefix_of_prefix h.first h'.first with ⟨more, rfl⟩ | ⟨more, rfl⟩
  · rw [eq_nil_of_below_listing hbelow, List.append_nil]
  · rw [eq_nil_of_below_listing hbelow.symm, List.append_nil]

/-- How many of `total` findings a limit asks for; a negative one asks for all but so many. -/
def quota (limit : Option Int) (total : Nat) : Nat :=
  match limit with
  | none => total
  | some n => (if 0 ≤ n then min n total else total + n).toNat

theorem shown_eq_take {α : Type} (items : List α) (limit : Option Int) :
    shown items limit = items.take (quota limit items.length) := by
  match limit with
  | none => rw [shown, quota, List.take_length]
  | some (.ofNat n) =>
    have hquota : quota (some (.ofNat n)) items.length = min n items.length := by
      simp only [quota, Int.ofNat_eq_natCast]
      omega
    rw [shown, hquota, ← List.take_eq_take_min]
  | some (.negSucc n) =>
    have hquota : quota (some (.negSucc n)) items.length = items.length - (n + 1) := by
      simp only [quota, Int.negSucc_eq]
      omega
    rw [shown, hquota]

example : [none, some 4, some 2, some 0, some (-1), some (-3), some (-4)].map (shown [1, 2, 3]) =
    [[1, 2, 3], [1, 2, 3], [1, 2], [], [1, 2], [], []] := rfl

/-- A limit leaves nothing of some items if it is zero, or negative and takes off as many as there are. -/
theorem eq_nil_of_shown_iff {α : Type} {items : List α} {limit : Option Int} :
    (shown items limit = [] → items = []) ↔ items = [] ∨ ∀ n ∈ limit, n ≠ 0 ∧ 0 < n + items.length := by
  rw [shown_eq_take, List.take_eq_nil_iff, ← List.length_eq_zero_iff]
  cases limit with
  | none => simp [quota]
  | some n =>
    simp only [quota, Option.mem_some_iff, forall_eq']
    omega

/-- Every console text lists the findings that its limit asks for. -/
theorem console_lists (r : Report) (limit : Option Int) : r.Lists (shown r.findings limit) (r.console limit) where
  first := by
    rw [shown_eq_take]
    exact List.take_prefix _ _
  entries := by
    rw [console, consoleLines_eq, hiddenLine]
    split_ifs
    · exact ⟨none, rfl⟩
    · exact ⟨some _, rfl⟩
    · exact ⟨none, rfl⟩

theorem console_of_nothing_shown {r : Report} {limit : Option Int} (h : shown r.findings limit = []) :
    r.console limit = "\n".intercalate r.overview := by
  rw [console, consoleLines_eq, h]
  exact congrArg _ (List.append_nil _)

/-- Nothing but the counts is shown, and these do not end in a notice. -/
theorem getLast?_of_nothing_shown {r : Report} {limit : Option Int} (h : shown r.findings limit = []) (k : Nat) :
    (lines (r.console limit)).getLast? ≠ some (notice k) := by
  rw [console_of_nothing_shown h]
  exact getLast?_ne_notice r.overview_ne_nil (fun _ => getLast?_ne_of_mem_overview) k

theorem console_of_all_shown {r : Report} {limit : Option Int} (h : (shown r.findings limit).length = r.total) :
    r.console limit = "\n".intercalate (r.overview ++ listing (shown r.findings limit)) := by
  have hnone : ¬(shown r.findings limit).length < r.total := by omega
  rw [console, consoleLines_eq, hiddenLine, if_neg hnone, ite_self, List.append_nil]

theorem console_of_some_shown {r : Report} {limit : Option Int} (hsome : shown r.findings limit ≠ [])
    (h : (shown r.findings limit).length < r.total) :
    r.console limit = "\n".intercalate (r.overview ++ listing (shown r.findings limit) ++
      [notice (r.total - (shown r.findings limit).length)]) := by
  rw [console, consoleLines_eq, hiddenLine, if_neg hsome, if_pos h, List.append_assoc]
  rfl

theorem console_discloses {r : Report} {limit : Option Int} (h : shown r.findings limit = [] → r.findings = []) :
    r.Discloses (shown r.findings limit) (r.console limit) where
  toLists := r.console_lists limit
  hidden hless := by
    have hsome : shown r.findings limit ≠ [] := by
      intro hnone
      rw [total, h hnone] at hless
      exact Nat.not_lt_zero _ hless
    rw [console_of_some_shown hsome hless, getLast?_lines_concat, lines_of_unbroken (unbroken_notice _)]
    rfl
  whole hall k := by
    have hne : r.overview ++ listing (shown r.findings limit) ≠ [] :=
      List.append_ne_nil_of_left_ne_nil r.overview_ne_nil _
    have hends : ∀ line ∈ r.overview ++ listing (shown r.findings limit), line.toList.getLast? ≠ some 'd' := by
      intro line hline
      rcases List.mem_append.mp hline with hline | hline
      · exact getLast?_ne_of_mem_overview hline
      · exact getLast?_ne_of_mem_listing hline
    rw [console_of_all_shown hall]
    exact ⟨getLast?_ne_notice hne hends k, quoted_of_mem_lines hne hends⟩

theorem discloses_console_iff {r : Report} {limit : Option Int} {visible : List Finding} :
    r.Discloses visible (r.console limit) ↔
      visible = shown r.findings limit ∧ (shown r.findings limit = [] → r.findings = []) := by
  constructor
  · intro h
    have hvisible : visible = shown r.findings limit := h.toLists.unique (r.console_lists limit)
    refine ⟨hvisible, fun hnone => ?_⟩
    by_contra hsome
    have hless : visible.length < r.total := by
      rw [hvisible, hnone]
      exact List.length_pos_iff.mpr hsome
    exact getLast?_of_nothing_shown hnone _ (h.hidden hless)
  · rintro ⟨rfl, h⟩
    exact console_discloses h

/-- Every console text lists the findings that its limit asks for. It also tells of those that it leaves out, but for a
limit that asks for none of some findings: zero, or one that takes off as many as there are. Then the counts are all
that is shown. -/
theorem console_discloses_iff (r : Report) (limit : Option Int) :
    r.Lists (r.findings.take (quota limit r.total)) (r.console limit) ∧
    (∀ visible, r.Discloses visible (r.console limit) ↔
      visible = r.findings.take (quota limit r.total) ∧
        (r.findings = [] ∨ ∀ n ∈ limit, n ≠ 0 ∧ 0 < n + r.total)) ∧
    ((∃ visible, r.Discloses visible (r.console limit)) ∨
      r.console limit = "\n".intercalate r.overview ∧ ∀ k, (lines (r.console limit)).getLast? ≠ some (notice k)) := by
  have htake : shown r.findings limit = r.findings.take (quota limit r.total) := shown_eq_take r.findings limit
  refine ⟨htake ▸ r.console_lists limit, ?_, ?_⟩
  · intro visible
    rw [discloses_console_iff, eq_nil_of_shown_iff, htake]
    rfl
  · by_cases h : shown r.findings limit = []
    · exact .inr ⟨console_of_nothing_shown h, getLast?_of_nothing_shown h⟩
    · exact .inl ⟨_, console_discloses fun hnone => absurd hnone h⟩

/-- A finding that is neither shown nor told of, under two limits. -/
theorem console_silent_of_letter :
    ∃ r after, (Catalog.lettersOf [(.low, none)]).audit ['a'] none .none (.ofReadings []) = .ok (r, after) ∧
      r.total = 1 ∧ ∀ limit ∈ [some 0, some (-1)],
        (∀ k, (lines (r.console limit)).getLast? ≠ some (notice k)) ∧
        ∀ visible, ¬r.Discloses visible (r.console limit) := by
  obtain ⟨r, after, haudit, htotal⟩ : ∃ r after,
      (Catalog.lettersOf [(.low, none)]).audit ['a'] none .none (.ofReadings []) = .ok (r, after) ∧ r.total = 1 :=
    ⟨_, _, rfl, (List.length_mergeSort _).trans rfl⟩
  refine ⟨r, after, haudit, htotal, fun limit hlimit => ?_⟩
  have hquota : ∀ limit ∈ [some 0, some (-1)], quota limit 1 = 0 := by decide
  have hnone : shown r.findings limit = [] := by
    rw [shown_eq_take, ← total, htotal, hquota limit hlimit, List.take_zero]
  refine ⟨getLast?_of_nothing_shown hnone, fun visible h => ?_⟩
  have hempty : r.findings = [] := (discloses_console_iff.mp h).2 hnone
  rw [total, hempty] at htotal
  exact absurd htotal (by decide)

end Report

end ScriptAudit
