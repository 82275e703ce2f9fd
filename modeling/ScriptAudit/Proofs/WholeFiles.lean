import ScriptAudit.Proofs.ExitStatus
import ScriptAudit.Proofs.Languages
import ScriptAudit.Proofs.Utf8

namespace ScriptAudit

namespace Bytes

/-- Neither the head of the data nor all of them look like something else than text. -/
def looksPlain (data : Bytes) : Bool := !isBinary .standard (data.take 4096) && !isBinary .standard data

/-- The head and what is read after it are one stretch. -/
theorem take_append_take_drop (data : Bytes) {head whole : Nat} (h : head ≤ whole) :
    data.take head ++ (data.drop head).take (whole - (data.take head).length) = data.take whole := by
  by_cases hlength : head ≤ data.length
  · rw [List.length_take, Nat.min_eq_left hlength, ← List.take_add, Nat.add_sub_cancel' h]
  · rw [List.drop_eq_nil_of_le (by omega), List.take_nil, List.append_nil, List.take_of_length_le (by omega),
      List.take_of_length_le (by omega)]

/-- What is read is the beginning of the data, if that looks plain. -/
theorem readable_eq (data : Bytes) :
    data.readable readLimit =
      .ok (if looksPlain (data.take readLimit.toNat) then some (data.take readLimit.toNat) else none) := by
  have hhead : min headLength readLimit = 4096 := by decide
  have hlimit : readLimit = 20000000 := rfl
  have hlength : (data.take 4096).length ≤ 4096 := List.length_take_le _ _
  have hleft : (readLimit - (data.take 4096).length).toNat = readLimit.toNat - (data.take 4096).length := by omega
  have hsame : (data.take readLimit.toNat).take 4096 = data.take 4096 := by
    rw [List.take_take, Nat.min_eq_left (by omega)]
  rw [readable, hhead, split_of_nonneg (by decide), looksPlain, hsame]
  simp only [bind, Except.bind, show (4096 : Int).toNat = 4096 from rfl]
  cases isBinary .standard (data.take 4096) with
  | true => rfl
  | false =>
    rw [if_neg (by simp), split_of_nonneg (by omega), hleft]
    simp only [take_append_take_drop data (show 4096 ≤ readLimit.toNat by omega)]
    cases isBinary .standard (data.take readLimit.toNat) <;> rfl

/-- Data look plain if they have no zero byte, begin with no mark and have few bytes of either kind. -/
theorem isBinary_eq_false {limits : Thresholds} {data : Bytes} (hzero : 0 ∉ data)
    (hmark : compiledMark.isPrefixOf data = false) (hcontrol : ¬ limits.control < share data isControl)
    (hhigh : ¬ limits.high < share data isHigh) : isBinary limits data = false := by
  simp [isBinary, hzero, hmark, hcontrol, hhigh]

theorem isBinary_letters {letters : Nat} {ending : Bytes} (hletters : letters ≠ 0) (hzero : 0 ∉ ending)
    (hcontrol : ¬ Thresholds.standard.control <
      Float.ofNat (ending.countP isControl) / Float.ofNat (letters + ending.length))
    (hhigh : ¬ Thresholds.standard.high <
      Float.ofNat (ending.countP isHigh) / Float.ofNat (letters + ending.length)) :
    isBinary .standard (List.replicate letters 0x62 ++ ending) = false := by
  have hkind (kind : UInt8 → Bool) (h : kind 0x62 = false) : share (List.replicate letters 0x62 ++ ending) kind =
      Float.ofNat (ending.countP kind) / Float.ofNat (letters + ending.length) := by
    rw [share, List.countP_append, List.countP_replicate, List.length_append, List.length_replicate, h,
      if_neg (by simp), Nat.zero_add]
  refine isBinary_eq_false ?_ ?_ ?_ ?_
  · simp [hzero]
  · obtain ⟨n, rfl⟩ := Nat.exists_eq_succ_of_ne_zero hletters
    rw [List.replicate_succ, List.cons_append, compiledMark, List.isPrefixOf_cons_cons,
      show ((0x1B : UInt8) == 0x62) = false by decide, Bool.false_and]
  · rw [hkind isControl (by decide)]
    exact hcontrol
  · rw [hkind isHigh (by decide)]
    exact hhigh

theorem not_mark_take {data : Bytes} (h : ¬ Utf8.mark <+: data) (count : Nat) : ¬ Utf8.mark <+: data.take count :=
  fun hmark => h (hmark.trans (List.take_prefix count data))

theorem withoutMark_eq {data : Bytes} (h : ¬ Utf8.mark <+: data) : Utf8.withoutMark data = data := by
  rw [Utf8.withoutMark, if_neg (by simpa using h)]

theorem text_of_decode {guess : Bytes → Guess} {data : Bytes} {text : List Char} (hmark : ¬ Utf8.mark <+: data)
    (h : Utf8.decode data = .ok text) : data.text guess = .ok (some text) := by
  simp only [Bytes.text, withoutMark_eq hmark, h]

end Bytes

namespace Disk

variable {d : Disk} {p : Path} {data : Bytes}

theorem size_of_read (h : d.read p = .ok data) : d.size p = .ok data.length := by
  obtain ⟨place, _, h⟩ := bind_eq_ok_iff.mp h
  split at h
  next => cases h
  next =>
    obtain ⟨node, hfind, h⟩ := bind_eq_ok_iff.mp h
    cases node with
    | file content =>
      cases h
      rw [size, hfind]
      rfl
    | dir => cases h
    | link target => cases h

theorem text_eq (hread : d.read p = .ok data) (guess : Bytes → Guess) :
    d.text guess readLimit p =
      if Bytes.looksPlain (data.take readLimit.toNat) then Bytes.text guess (data.take readLimit.toNat)
      else .ok none := by
  simp only [Disk.text, hread, Bytes.content, Bytes.readable_eq]
  split <;> rfl

end Disk

theorem Catalog.audit_map_fst (c : Catalog) (text : List Char) (file : Option String) (clock : Clock) :
    (c.audit text file .none clock).map (·.1) = .ok (c.report text file .none) := by
  obtain ⟨after, haudit⟩ := c.audit_timeless text file (show Budget.none.maxSeconds = none from rfl) clock
  rw [haudit]
  rfl

namespace Session

variable {s : Session} {d : Disk} {p : Path} {data : Bytes}

/-- A file that is not too large is audited by what is read of it. -/
theorem auditSingle_of_read (hread : d.read p = .ok data) (hb : s.budget = .none)
    (hsize : (data.length : Int) ≤ s.maxFileSize) (clock : Clock) :
    (s.auditSingle d p clock).1 = singleResult (s.outcome d p p.toText) := by
  have hadmits : s.admitsSize d p = true := by
    simp only [admitsSize, Disk.size_of_read hread, decide_eq_true_eq]
    exact hsize
  have htimeless : s.budget.maxSeconds = none := by
    rw [hb]
    rfl
  rw [auditSingle_eq d p htimeless clock, if_pos hadmits]

/-- What is audited is the text that is read. -/
theorem auditSingle_of_text (hread : d.read p = .ok data) (hb : s.budget = .none)
    (hsize : (data.length : Int) ≤ s.maxFileSize) {text : List Char}
    (htext : d.text s.guess readLimit p = .ok (some text)) (clock : Clock) :
    (s.auditSingle d p clock).1 = (s.catalog.audit text (some p.toText) .none clock).map (·.1) := by
  rw [auditSingle_of_read hread hb hsize, Catalog.audit_map_fst, outcome, htext]
  dsimp only
  rw [hb]
  rfl

/-- What is read is the beginning of the file up to the limit, if that is text. -/
theorem text_of_cut (hread : d.read p = .ok data) (hplain : Bytes.looksPlain (data.take readLimit.toNat) = true)
    (hmark : ¬ Utf8.mark <+: data) {cut : List Char} (hcut : Utf8.decode (data.take readLimit.toNat) = .ok cut) :
    d.text s.guess readLimit p = .ok (some cut) := by
  rw [Disk.text_eq hread, if_pos hplain, Bytes.text_of_decode (Bytes.not_mark_take hmark _) hcut]

end Session

namespace Pattern

theorem descend_of_total (f : Nat → State) (base extra : Nat) :
    descend (fun n => some (f n)) base extra = some (f (base + extra)) := by
  cases extra <;> rfl

namespace Program

theorem endAt?_char {test : CharTest} {text : List Char} {q stop : Nat} :
    (⟨.char test, 0⟩ : Program).endAt? text.toArray q = some stop ↔
      (∃ c, text[q]? = some c ∧ test.accepts c = true) ∧ stop = q + 1 := by
  rw [endAt?, Expr.matching?, State.start, List.getElem?_toArray]
  cases hc : text[q]? with
  | none => simp
  | some c => by_cases haccepts : test.accepts c <;> simp [haccepts, State.advance, eq_comm (a := stop)]

theorem mem_spans_char {test : CharTest} {text : List Char} {span : Span} :
    span ∈ (⟨.char test, 0⟩ : Program).spans text.toArray ↔
      (∃ c, text[span.start]? = some c ∧ test.accepts c = true) ∧ span.stop = span.start + 1 := by
  rw [mem_spans_iff_of_apart, endAt?_char]
  · intro q stop hend
    obtain ⟨⟨c, hc, _⟩, rfl⟩ := endAt?_char.mp hend
    have hlt := (List.getElem?_eq_some_iff.mp hc).1
    simp only [List.size_toArray]
    omega
  · intro q stop r stop' hend _ hlt
    obtain ⟨_, rfl⟩ := endAt?_char.mp hend
    exact hlt

/-- All characters, from the first on. -/
def wholeText : Program := ⟨.seq (.anchor .textStart) (.run .greedy 1 none (.any true)), 0⟩

theorem endAt?_wholeText {text : List Char} {q stop : Nat} :
    wholeText.endAt? text.toArray q = some stop ↔ q = 0 ∧ text ≠ [] ∧ stop = text.length := by
  rw [endAt?, wholeText, State.start]
  simp only [Expr.matching?, Anchor.holds, List.size_toArray]
  by_cases hq : q = 0
  · subst hq
    have hcount := runLength_any text 0
    rw [Nat.sub_zero] at hcount
    simp only [beq_self_eq_true, if_true, Nat.sub_zero, hcount, descend_of_total, State.advance]
    cases text with
    | nil => simp
    | cons c rest => simp [Nat.add_comm, eq_comm (a := stop)]
  · simp [hq]

theorem mem_spans_wholeText {text : List Char} {span : Span} :
    span ∈ wholeText.spans text.toArray ↔ span.start = 0 ∧ text ≠ [] ∧ span.stop = text.length := by
  rw [mem_spans_iff_of_apart, endAt?_wholeText]
  · intro q stop hend
    obtain ⟨rfl, hne, rfl⟩ := endAt?_wholeText.mp hend
    exact ⟨List.length_pos_iff.mpr hne, Nat.le_of_eq List.size_toArray.symm⟩
  · intro q stop r stop' _ hend hlt
    obtain ⟨rfl, _⟩ := endAt?_wholeText.mp hend
    exact absurd hlt (Nat.not_lt_zero q)

end Program

end Pattern

namespace Catalog

variable {c : Catalog} {text : List Char} {file : Option String}

/-- A rule that finds something has something in the report. -/
theorem report_findings_ne_nil {entry : String × Rule} (hentry : entry ∈ c.entries)
    (hplain : entry.2.detector.interruption = none) {span : Pattern.Span} (hspan : span ∈ entry.2.spans text.toArray) :
    (c.report text file .none).findings ≠ [] := by
  have hfailure := entry.2.enumerate_unlimited text.toArray (.ofReadings []) hplain
  have hfound : Finding.ofSpan text file entry.1 entry.2 span ∈
      c.entries.flatMap fun entry => (Run.start .none text (.ofReadings []) entry).findings text file :=
    List.mem_flatMap.mpr ⟨entry, hentry, Run.mem_findings.mpr ⟨hfailure, span, hspan, rfl⟩⟩
  have hreported := (Finding.mem_identities_ranked_firsts _).mpr (List.mem_map_of_mem hfound)
  intro hnil
  rw [report, Gathering.report] at hnil
  dsimp only at hnil
  rw [hnil] at hreported
  exact absurd hreported List.not_mem_nil

/-- The catalog that looks for a letter reports something of the texts that have it. -/
theorem report_letters_ne_nil_iff :
    ((lettersOf [(.low, none)]).report text file .none).findings ≠ [] ↔ 'a' ∈ text := by
  constructor
  · intro hne
    obtain ⟨f, hf⟩ := List.exists_mem_of_ne_nil _ hne
    obtain ⟨entry, hentry, span, hspan, _⟩ := exists_span_of_mem_report hf
    obtain rfl := List.mem_singleton.mp hentry
    obtain ⟨⟨c, hc, haccepts⟩, _⟩ := Pattern.Program.mem_spans_char.mp hspan
    have hletter : c = 'a' := (Pattern.accepts_code_exact c 'a').mp haccepts
    exact hletter ▸ List.mem_of_getElem? hc
  · intro hmem
    obtain ⟨i, hi⟩ := List.mem_iff_getElem?.mp hmem
    have hspan : ⟨i, i + 1⟩ ∈ (⟨.char (.code .exact 97), 0⟩ : Pattern.Program).spans text.toArray :=
      Pattern.Program.mem_spans_char.mpr ⟨⟨'a', hi, by decide⟩, rfl⟩
    exact report_findings_ne_nil (List.mem_singleton_self _) rfl hspan

/-- A catalog with one rule, which finds all of a text. -/
def wholeText : Catalog :=
  ⟨[⟨"texts", [⟨⟨⟨"\\A.+", ⟨false, false, true⟩, .wholeText, by decide⟩, none⟩, "text", "All of the text.", .low,
    "None."⟩]⟩]⟩

theorem wholeText_reachable : wholeText.Reachable :=
  @Reachable.ofEntries (wholeText.categories.map Category.toEntry) _ (List.nodup_singleton _) rfl

theorem report_wholeText_ne_nil (h : text ≠ []) : (wholeText.report text file .none).findings ≠ [] := by
  have hspan : ⟨0, text.length⟩ ∈ Pattern.Program.wholeText.spans text.toArray :=
    Pattern.Program.mem_spans_wholeText.mpr ⟨rfl, h, rfl⟩
  exact report_findings_ne_nil (List.mem_singleton_self _) rfl hspan

theorem matchedText_of_mem_report_wholeText {f : Finding} (h : f ∈ (wholeText.report text file .none).findings) :
    f.matchedText = String.ofList text := by
  obtain ⟨entry, hentry, span, hspan, rfl⟩ := exists_span_of_mem_report h
  obtain rfl := List.mem_singleton.mp hentry
  obtain ⟨hstart, _, hstop⟩ := Pattern.Program.mem_spans_wholeText.mp hspan
  simp [Finding.ofSpan, hstart, hstop]

/-- The report tells what the text is. -/
theorem eq_of_report_wholeText {other : List Char} (hne : text ≠ [])
    (h : wholeText.report other file .none = wholeText.report text file .none) : other = text := by
  have hfound : (wholeText.report text file .none).findings ≠ [] := report_wholeText_ne_nil hne
  obtain ⟨f, hf⟩ := List.exists_mem_of_ne_nil _ hfound
  have htext := matchedText_of_mem_report_wholeText hf
  rw [← h] at hf
  exact String.ofList_injective ((matchedText_of_mem_report_wholeText hf).symm.trans htext)

end Catalog

namespace Session

variable {d : Disk} {p : Path} {data : Bytes} {text : List Char}

/-- An audit that tells what the text is comes to what it comes to for a text only if that is what is read. -/
theorem auditSingle_wholeText_iff (hread : d.read p = .ok data) (hne : text ≠ []) {s : Session}
    (hcatalog : s.catalog = .wholeText) (hb : s.budget = .none) (hsize : (data.length : Int) ≤ s.maxFileSize)
    (clock : Clock) :
    (s.auditSingle d p clock).1 = (Catalog.wholeText.audit text (some p.toText) .none clock).map (·.1) ↔
      d.text s.guess readLimit p = .ok (some text) := by
  constructor
  · rw [auditSingle_of_read hread hb hsize, Catalog.audit_map_fst, outcome, hcatalog, hb]
    intro heq
    rcases htext : d.text s.guess readLimit p with failure | _ | cut
    · simp [htext, singleResult] at heq
    · simp only [htext, singleResult] at heq
      have hnil := congrArg Report.findings (Except.ok.inj heq)
      rw [Report.findings_join_nil] at hnil
      exact absurd hnil.symm (Catalog.report_wholeText_ne_nil hne)
    · simp only [htext, singleResult] at heq
      rw [Catalog.eq_of_report_wholeText hne (Except.ok.inj heq)]
  · intro htext
    rw [← hcatalog]
    exact auditSingle_of_text hread hb hsize htext clock

/-- What is read of a file beyond the limit is not all of it, unless the limit is inside a character and the guess
makes of what is before it what the file is. -/
theorem text_eq_whole_iff (hread : d.read p = .ok data) (htext : Utf8.decode data = .ok text)
    (hmark : ¬ Utf8.mark <+: data) (hlarge : readLimit < data.length) (guess : Bytes → Guess) :
    d.text guess readLimit p = .ok (some text) ↔
      Bytes.looksPlain (data.take readLimit.toNat) = true ∧
      (∃ fault, Utf8.decode (data.take readLimit.toNat) = .error fault) ∧
      Bytes.text guess (data.take readLimit.toNat) = .ok (some text) := by
  have hdropped : data.drop readLimit.toNat ≠ [] := by
    have hlimit : readLimit = 20000000 := rfl
    rw [ne_eq, List.drop_eq_nil_iff]
    omega
  rw [Disk.text_eq hread]
  split_ifs with hplain
  · cases hdecoded : Utf8.decode (data.take readLimit.toNat) with
    | error fault => simp [hplain]
    | ok cut =>
      rw [Bytes.text_of_decode (Bytes.not_mark_take hmark _) hdecoded]
      rw [← List.take_append_drop readLimit.toNat data] at htext
      obtain ⟨rest, rfl, hrest⟩ := Utf8.decode_cut hdecoded htext
      simp [hrest hdropped]
  · simp [hplain]

/-- A file of text that is not too large is audited whole if it has no more bytes than are read of a file. Of a longer
one the beginning is audited if it can be decoded; and there is a catalog that tells it from the whole, whatever is
guessed of encodings, unless the limit is inside a character and the guess makes the whole of what is before it. -/
theorem auditSingle_whole_up_to_readLimit (hread : d.read p = .ok data) (htext : Utf8.decode data = .ok text)
    (hmark : ¬ Utf8.mark <+: data) (hplain : Bytes.looksPlain data = true) :
    ((data.length : Int) ≤ readLimit → ∀ (s : Session) (clock : Clock), s.budget = .none →
      (data.length : Int) ≤ s.maxFileSize →
        (s.auditSingle d p clock).1 = (s.catalog.audit text (some p.toText) .none clock).map (·.1)) ∧
    (readLimit < data.length → ∃ c : Catalog, c.Reachable ∧ ∀ (s : Session) (clock : Clock), s.catalog = c →
      s.budget = .none → (data.length : Int) ≤ s.maxFileSize →
        ((s.auditSingle d p clock).1 = (c.audit text (some p.toText) .none clock).map (·.1) ↔
          Bytes.looksPlain (data.take readLimit.toNat) = true ∧
          (∃ fault, Utf8.decode (data.take readLimit.toNat) = .error fault) ∧
          Bytes.text s.guess (data.take readLimit.toNat) = .ok (some text))) ∧
    ∀ cut, Utf8.decode (data.take readLimit.toNat) = .ok cut → Bytes.looksPlain (data.take readLimit.toNat) = true →
      ∀ (s : Session) (clock : Clock), s.budget = .none → (data.length : Int) ≤ s.maxFileSize →
        (s.auditSingle d p clock).1 = (s.catalog.audit cut (some p.toText) .none clock).map (·.1) := by
  refine ⟨?_, ?_, ?_⟩
  · intro hlength s clock hb hsize
    have hall : data.take readLimit.toNat = data := List.take_of_length_le (by omega)
    exact auditSingle_of_text hread hb hsize
      (text_of_cut hread (by rw [hall, hplain]) hmark (by rw [hall, htext])) clock
  · intro hlarge
    have hne : text ≠ [] := by
      rintro rfl
      rw [Utf8.decode_eq_ok_iff] at htext
      subst htext
      exact absurd hlarge (by decide)
    refine ⟨.wholeText, Catalog.wholeText_reachable, fun s clock hcatalog hb hsize => ?_⟩
    rw [auditSingle_wholeText_iff hread hne hcatalog hb hsize, text_eq_whole_iff hread htext hmark hlarge]
  · intro cut hcut hplain' s clock hb hsize
    exact auditSingle_of_text hread hb hsize (text_of_cut hread hplain' hmark hcut) clock

/-- A text of letters with another character at its end. -/
def ending (letters : Nat) (last : Char) : List Char := List.replicate letters 'b' ++ [last]

theorem encode_replicate (letters : Nat) :
    Utf8.encode (List.replicate letters 'b') = List.replicate letters 0x62 := by
  induction letters with
  | zero => rfl
  | succ letters ih =>
    rw [Utf8.encode, List.replicate_succ, List.flatMap_cons, ← Utf8.encode, ih]
    rfl

theorem encode_ending (letters : Nat) (last : Char) :
    Utf8.encode (ending letters last) = List.replicate letters 0x62 ++ Utf8.encodeChar last := by
  rw [Utf8.encode, ending, List.flatMap_append, ← Utf8.encode, encode_replicate, List.flatMap_singleton]

theorem length_encode_ending (letters : Nat) (last : Char) :
    (Utf8.encode (ending letters last)).length = letters + (Utf8.encodeChar last).length := by
  rw [encode_ending, List.length_append, List.length_replicate]

theorem mark_not_letters {letters : Nat} (hletters : letters ≠ 0) (last : Bytes) :
    ¬ Utf8.mark <+: List.replicate letters 0x62 ++ last := by
  obtain ⟨n, rfl⟩ := Nat.exists_eq_succ_of_ne_zero hletters
  rw [Utf8.mark, List.replicate_succ, List.cons_append, List.cons_prefix_cons]
  exact fun h => absurd h.1 (by decide)

/-- Many letters look plain, whatever a few bytes after them are. -/
theorem looksPlain_letters {letters : Nat} {last : Bytes} (hmany : 4096 ≤ letters) (hzero : 0 ∉ last)
    (hcontrol : ¬ Bytes.Thresholds.standard.control <
      Float.ofNat (last.countP Bytes.isControl) / Float.ofNat (letters + last.length))
    (hhigh : ¬ Bytes.Thresholds.standard.high <
      Float.ofNat (last.countP Bytes.isHigh) / Float.ofNat (letters + last.length)) :
    Bytes.looksPlain (List.replicate letters 0x62 ++ last) = true := by
  have hhead : (List.replicate letters (0x62 : UInt8) ++ last).take 4096 = List.replicate 4096 0x62 ++ [] := by
    have hlength : 4096 ≤ (List.replicate letters (0x62 : UInt8)).length := by
      rw [List.length_replicate]
      exact hmany
    rw [List.take_append_of_le_length hlength, List.take_replicate, Nat.min_eq_left hmany, List.append_nil]
  rw [Bytes.looksPlain, hhead, Bytes.isBinary_letters (by decide) List.not_mem_nil (by decide) (by decide),
    Bytes.isBinary_letters (by omega) hzero hcontrol hhigh]
  rfl

/-- The letters of a survey of scripts, looked for in one file. -/
def lettersSession (guess : Bytes → Guess) (maxFileSize : Int) : Session :=
  ⟨.lettersOf [(.low, none)], .none, guess, maxFileSize, false⟩

theorem auditSingle_whole_up_to_readLimit_of_accent :
    (Disk.holding "a.lua" (Utf8.encode (ending 5 'é'))).read ⟨"", ["a.lua"]⟩ = .ok (Utf8.encode (ending 5 'é')) ∧
    Utf8.decode (Utf8.encode (ending 5 'é')) = .ok (ending 5 'é') ∧ ¬ Utf8.mark <+: Utf8.encode (ending 5 'é') ∧
    Bytes.looksPlain (Utf8.encode (ending 5 'é')) = true ∧
    ∀ guess, ((lettersSession guess standardFileSize).auditSingle (.holding "a.lua" (Utf8.encode (ending 5 'é')))
        ⟨"", ["a.lua"]⟩ (.ofReadings [])).1 =
      ((Catalog.lettersOf [(.low, none)]).audit (ending 5 'é') (some "a.lua") .none (.ofReadings [])).map (·.1) := by
  have hread := Disk.read_holding (show Disk.IsName "a.lua" by decide) (Utf8.encode (ending 5 'é'))
  have hdecode := Utf8.decode_encode (ending 5 'é')
  have hmark : ¬ Utf8.mark <+: Utf8.encode (ending 5 'é') := by decide
  have hplain : Bytes.looksPlain (Utf8.encode (ending 5 'é')) = true := by decide
  have hsize : ((Utf8.encode (ending 5 'é')).length : Int) ≤ standardFileSize := by decide
  have hwhole := (auditSingle_whole_up_to_readLimit hread hdecode hmark hplain).1 (by decide)
  exact ⟨hread, hdecode, hmark, hplain,
    fun guess => hwhole (lettersSession guess standardFileSize) (.ofReadings []) rfl hsize⟩

/-- A file of letters with one more byte than is read: what is looked for is at its end, and is not found, whatever is
guessed of encodings. -/
theorem auditSingle_misses_last_character :
    (Disk.holding "a.lua" (Utf8.encode (ending 20000000 'a'))).read ⟨"", ["a.lua"]⟩ =
      .ok (Utf8.encode (ending 20000000 'a')) ∧
    Utf8.decode (Utf8.encode (ending 20000000 'a')) = .ok (ending 20000000 'a') ∧
    ¬ Utf8.mark <+: Utf8.encode (ending 20000000 'a') ∧
    Bytes.looksPlain (Utf8.encode (ending 20000000 'a')) = true ∧
    ∀ guess clock, ((lettersSession guess 20000001).auditSingle (.holding "a.lua" (Utf8.encode (ending 20000000 'a')))
        ⟨"", ["a.lua"]⟩ clock).1 ≠
      ((Catalog.lettersOf [(.low, none)]).audit (ending 20000000 'a') (some "a.lua") .none clock).map (·.1) := by
  have hread := Disk.read_holding (show Disk.IsName "a.lua" by decide) (Utf8.encode (ending 20000000 'a'))
  have hdecode := Utf8.decode_encode (ending 20000000 'a')
  have hmark : ¬ Utf8.mark <+: Utf8.encode (ending 20000000 'a') := by
    rw [encode_ending]
    exact mark_not_letters (by decide) _
  have hlength := length_encode_ending 20000000 'a'
  have hplain : Bytes.looksPlain (Utf8.encode (ending 20000000 'a')) = true := by
    rw [encode_ending]
    exact looksPlain_letters (by decide) (by decide) (by decide) (by decide)
  have hcut : (Utf8.encode (ending 20000000 'a')).take readLimit.toNat = List.replicate 20000000 0x62 := by
    rw [encode_ending]
    exact List.take_left' List.length_replicate
  have hplainCut : Bytes.looksPlain ((Utf8.encode (ending 20000000 'a')).take readLimit.toNat) = true := by
    rw [hcut, ← List.append_nil (List.replicate _ _)]
    exact looksPlain_letters (by decide) List.not_mem_nil (by decide) (by decide)
  have hletters : Utf8.decode ((Utf8.encode (ending 20000000 'a')).take readLimit.toNat) =
      .ok (List.replicate 20000000 'b') := by
    rw [hcut, ← encode_replicate, Utf8.decode_encode]
  refine ⟨hread, hdecode, hmark, hplain, fun guess clock heq => ?_⟩
  have hsize : ((Utf8.encode (ending 20000000 'a')).length : Int) ≤ (lettersSession guess 20000001).maxFileSize := by
    rw [hlength]
    exact Int.le_refl 20000001
  rw [auditSingle_of_text hread rfl hsize (text_of_cut hread hplainCut hmark hletters), Catalog.audit_map_fst,
    Catalog.audit_map_fst] at heq
  have hfound : ((Catalog.lettersOf [(.low, none)]).report (ending 20000000 'a') (some "a.lua") .none).findings ≠ [] :=
    Catalog.report_letters_ne_nil_iff.mpr (List.mem_append_right _ (List.mem_singleton_self _))
  rw [← Except.ok.inj heq] at hfound
  have hletter := Catalog.report_letters_ne_nil_iff.mp hfound
  exact absurd (List.eq_of_mem_replicate hletter) (by decide)

/-- The first byte of a character has no meaning alone. -/
theorem decode_open_character (letters : Nat) :
    ∃ fault, Utf8.decode (List.replicate letters 0x62 ++ [0xC3]) = .error fault := by
  obtain ⟨pos, hpos⟩ := Utf8.decodeFrom_encode 0 [] (List.replicate letters 'b') [0xC3]
  rw [encode_replicate] at hpos
  rw [Utf8.decode, hpos]
  exact ⟨_, rfl⟩

theorem latin_char? (b : UInt8) : CodePage.latin.char? b = some (Char.ofNat b.toNat) := by
  rw [CodePage.char?, if_pos (show b.toNat < CodePage.latin.first from b.toNat_lt)]

/-- In Latin-1 it is a character, and it may be the same. -/
theorem text_open_character {letters : Nat} (hletters : letters ≠ 0) :
    Bytes.text Survey.latinGuess (List.replicate letters 0x62 ++ [0xC3]) = .ok (some (ending letters 'Ã')) := by
  have hmark := mark_not_letters hletters [0xC3]
  obtain ⟨fault, hfault⟩ := decode_open_character letters
  have hname : Encoding.ofName? "ISO-8859-1" = some (.page .latin) := by decide
  have hdecoded : (List.replicate letters (0x62 : UInt8) ++ [0xC3]).mapM CodePage.latin.char? =
      some (ending letters 'Ã') := by
    rw [funext latin_char?]
    refine (List.mapM_pure (m := Option)).trans ?_
    rw [List.map_append, List.map_replicate]
    rfl
  simp only [Bytes.text, Bytes.withoutMark_eq hmark, hfault, Survey.latinGuess, hname, Option.bind_some,
    Encoding.decode?, hdecoded]

/-- A file that is read up to the middle of its last character and is audited whole, since the guess is that character
for what is left of it. -/
theorem auditSingle_whole_by_guess {s : Session} (hguess : s.guess = Survey.latinGuess) (hb : s.budget = .none)
    (hsize : 20000001 ≤ s.maxFileSize) (clock : Clock) :
    (s.auditSingle (.holding "a.lua" (Utf8.encode (ending 19999999 'Ã'))) ⟨"", ["a.lua"]⟩ clock).1 =
      (s.catalog.audit (ending 19999999 'Ã') (some "a.lua") .none clock).map (·.1) := by
  have hread := Disk.read_holding (show Disk.IsName "a.lua" by decide) (Utf8.encode (ending 19999999 'Ã'))
  have hcut : (Utf8.encode (ending 19999999 'Ã')).take readLimit.toNat = List.replicate 19999999 0x62 ++ [0xC3] := by
    have hsplit : List.replicate 19999999 0x62 ++ Utf8.encodeChar 'Ã' =
        (List.replicate 19999999 0x62 ++ [0xC3]) ++ [0x83] := by
      rw [List.append_assoc]
      rfl
    rw [encode_ending, hsplit]
    exact List.take_left' (by rw [List.length_append, List.length_replicate]; rfl)
  have htext : (Disk.holding "a.lua" (Utf8.encode (ending 19999999 'Ã'))).text s.guess readLimit ⟨"", ["a.lua"]⟩ =
      .ok (some (ending 19999999 'Ã')) := by
    have hplain : Bytes.looksPlain (List.replicate 19999999 0x62 ++ [0xC3]) = true :=
      looksPlain_letters (by decide) (by decide) (by decide) (by decide)
    rw [Disk.text_eq hread, hcut, if_pos hplain, hguess, text_open_character (by decide)]
  have hlength := length_encode_ending 19999999 'Ã'
  refine auditSingle_of_text hread hb ?_ htext clock
  rw [hlength]
  exact hsize

end Session

end ScriptAudit
