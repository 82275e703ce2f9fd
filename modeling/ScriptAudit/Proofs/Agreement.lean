import ScriptAudit.Proofs.Completion
import ScriptAudit.Proofs.Joining

namespace ScriptAudit

namespace Finding

/-- The same finding in a file of another name. -/
def under (file : Option String) (f : Finding) : Finding := { f with file }

theorem firsts_under (file : Option String) (findings : List Finding) :
    firsts (findings.map (under file)) = (firsts findings).map (under file) := by
  induction findings with
  | nil => rfl
  | cons f rest ih =>
    rw [List.map_cons, firsts, ih, List.filter_map, firsts, List.map_cons]
    rfl

theorem ranked_under (file : Option String) (findings : List Finding) :
    ranked (findings.map (under file)) = (ranked findings).map (under file) := by
  rw [ranked, ranked, List.map_mergeSort]
  intro f _ g _
  rfl

end Finding

theorem Run.findings_under (text : List Char) (file other : Option String) (run : Run) :
    run.findings text other = (run.findings text file).map (Finding.under other) := by
  unfold findings
  cases run.enumeration.failure with
  | none => rw [List.map_map]; rfl
  | some failure => rfl

namespace Catalog

variable (c : Catalog) (text : List Char) (file : Option String) (budget : Budget)

/-- The name of a file shows in the findings and nowhere else. -/
theorem report_under (other : Option String) :
    (c.report text other budget).findings = (c.report text file budget).findings.map (Finding.under other) := by
  simp only [report, Gathering.report]
  rw [← Finding.ranked_under, ← Finding.firsts_under, List.map_flatMap]
  simp only [Run.findings_under text file other]

variable {c text file budget} in
/-- What is reported was found by a rule. -/
theorem exists_span_of_mem_report {f : Finding} (h : f ∈ (c.report text file budget).findings) :
    ∃ entry ∈ c.entries, ∃ span ∈ entry.2.spans text.toArray, Finding.ofSpan text file entry.1 entry.2 span = f := by
  have hfound := (Finding.firsts_sublist _).subset (Finding.mem_ranked.mp h)
  obtain ⟨entry, hentry, hf⟩ := List.mem_flatMap.mp hfound
  obtain ⟨_, span, hspan, hf⟩ := Run.mem_findings.mp hf
  exact ⟨entry, hentry, span, hspan, hf⟩

theorem file_of_mem_report {f : Finding} (h : f ∈ (c.report text file budget).findings) : f.file = file := by
  obtain ⟨entry, _, span, _, rfl⟩ := exists_span_of_mem_report h
  rfl

theorem report_identities_nodup : ((c.report text file budget).findings.map Finding.identity).Nodup :=
  ((Finding.ranked_perm _).map Finding.identity).nodup_iff.mpr (Finding.nodup_identities_firsts _)

end Catalog

namespace Session

variable (s : Session) (d : Disk)

/-- The text of a file, if it has one. -/
def text? (p : Path) : Option (List Char) :=
  match d.text s.guess readLimit p with
  | .ok text => text
  | .error _ => none

/-- What is reported of a file under a name, which is nothing if the file has no text. -/
def reportUnder (name : String) (p : Path) : Report :=
  match s.text? d p with
  | some text => s.catalog.report text (some name) s.budget
  | none => Report.join []

variable (name : String) (p : Path)

theorem report?_outcome :
    (s.outcome d p name).report? = (s.text? d p).map fun text => s.catalog.report text (some name) s.budget := by
  unfold outcome text?
  rcases d.text s.guess readLimit p with failure | _ | text <;> rfl

theorem findings_outcome :
    (s.outcome d p name).report?.toList.flatMap (·.findings) = (s.reportUnder d name p).findings := by
  rw [report?_outcome, reportUnder]
  cases s.text? d p <;> simp

theorem filesScanned_reportUnder :
    (s.reportUnder d name p).filesScanned = 1 ↔ (s.text? d p).isSome := by
  unfold reportUnder
  cases s.text? d p with
  | none => simp [Report.join]
  | some text => simp [Catalog.report, Gathering.report]

theorem findings_reportUnder (other : String) :
    (s.reportUnder d other p).findings = (s.reportUnder d name p).findings.map (Finding.under (some other)) := by
  unfold reportUnder
  cases s.text? d p with
  | none => simp
  | some text => exact s.catalog.report_under text (some name) s.budget (some other)

theorem file_of_mem_reportUnder {f : Finding} (h : f ∈ (s.reportUnder d name p).findings) : f.file = some name := by
  unfold reportUnder at h
  cases htext : s.text? d p with
  | none => simp [htext] at h
  | some text =>
    rw [htext] at h
    exact s.catalog.file_of_mem_report text (some name) s.budget h

theorem reportUnder_identities_nodup : ((s.reportUnder d name p).findings.map Finding.identity).Nodup := by
  unfold reportUnder
  cases s.text? d p with
  | none => simp
  | some text => exact s.catalog.report_identities_nodup text (some name) s.budget

theorem reportUnder_ranked :
    Finding.ranked (s.reportUnder d name p).findings = (s.reportUnder d name p).findings := by
  unfold reportUnder
  cases s.text? d p <;> exact Finding.ranked_ranked _

/-- Each file that is audited counts as one. -/
theorem filesScanned_outcomes (names : Path → String) (files : List Path) :
    ((files.filterMap fun p => (s.outcome d p (names p)).report?).map (·.filesScanned)).foldr (· + ·) 0 =
      ((files.countP fun p => (s.text? d p).isSome : Nat) : Int) := by
  simp only [report?_outcome]
  induction files with
  | nil => rfl
  | cons p rest ih =>
    rw [List.filterMap_cons, List.countP_cons]
    cases s.text? d p with
    | none => simpa using ih
    | some text =>
      simp only [Option.map_some, List.map_cons, List.foldr_cons, ih, Option.isSome_some, if_true]
      simp only [Catalog.report, Gathering.report]
      omega

variable {s} (hguess : ∀ data failure, s.guess data ≠ .failed failure)

include hguess

theorem outcome_goes : (s.outcome d p name).stop? = none := by
  obtain ⟨text, htext⟩ := d.text_ok hguess p
  unfold outcome
  rw [htext]
  cases text <;> rfl

/-- A file that is not too large is audited alone as it is under any name. -/
theorem auditSingle_ok (hb : s.budget.maxSeconds = none) {size : Nat} (hsize : d.size p = .ok size)
    (hle : (size : Int) ≤ s.maxFileSize) (clock : Clock) :
    (s.auditSingle d p clock).1 = .ok (s.reportUnder d p.toText p) := by
  have houtcome := s.auditFile_outcome d p p.toText hb singleLogger clock
  obtain ⟨text, htext⟩ := d.text_ok hguess p
  simp only [outcome, htext] at houtcome
  simp only [auditSingle, hsize, if_neg (Int.not_lt.mpr hle), reportUnder, text?, htext]
  cases text <;> simp only [houtcome]

end Session

namespace Survey

variable (s : Survey) (d : Disk)

/-- What is reported of a file of a survey. -/
def reportOf (p : Path) : Report := s.session.reportUnder d (Path.display s.root p) p

theorem run_ok (h : s.refused? d = none) (hb : s.session.budget.maxSeconds = none)
    (hguess : ∀ data failure, s.session.guess data ≠ .failed failure) (clocks : Clocks) :
    ∃ whole, (s.run d clocks).outcome = .ok whole ∧
      whole.findings = Finding.ranked ((s.files d).flatMap fun p => (s.reportOf d p).findings) ∧
      whole.filesScanned = ((s.files d).countP fun p => (s.session.text? d p).isSome : Nat) := by
  have hanswers := s.run_answers d h hb clocks
  cases hrun : (s.run d clocks).outcome with
  | error failure =>
    rw [hrun] at hanswers
    obtain ⟨p, _, hstop⟩ := hanswers
    rw [Session.outcome_goes d _ p hguess] at hstop
    exact absurd hstop (by simp)
  | ok whole =>
    rw [hrun] at hanswers
    obtain ⟨-, rfl⟩ := hanswers
    refine ⟨_, rfl, ?_, s.session.filesScanned_outcomes d _ _⟩
    simp only [Report.join, List.filterMap_eq_flatMap_toList, List.flatMap_assoc, Session.findings_outcome, reportOf]

section Proper

variable {d} (hd : d.Proper)

include hd

theorem filter_display {p : Path} (hp : p ∈ s.files d) :
    (s.files d).filter (fun q => some (Path.display s.root q) = some (Path.display s.root p)) = [p] := by
  have hcongr : (s.files d).filter (fun q => some (Path.display s.root q) = some (Path.display s.root p)) =
      (s.files d).filter (· = p) := by
    refine List.filter_congr ?_
    intro q hq
    rw [decide_eq_decide]
    exact ⟨fun h => s.display_injective hd hq hp (Option.some.inj h), fun h => by rw [h]⟩
  rw [hcongr, List.filter_eq, List.count_eq_one_of_mem (s.files_nodup hd) hp, List.replicate_one]

/-- What a survey has found in a file is what is reported of that file. -/
theorem ranked_found_filter {p : Path} (hp : p ∈ s.files d) :
    (Finding.ranked ((s.files d).flatMap fun p => (s.reportOf d p).findings)).filter
      (·.file = some (Path.display s.root p)) = (s.reportOf d p).findings := by
  have hkey (q : Path) (f : Finding) (hf : f ∈ (s.reportOf d q).findings) : f.file = some (Path.display s.root q) :=
    s.session.file_of_mem_reportUnder d _ q hf
  rw [Finding.ranked_filter, flatMap_filter_key hkey, s.filter_display hd hp, List.flatMap_singleton]
  exact s.session.reportUnder_ranked d _ p

/-- In one file an identity is found once, and findings of different files are told apart by the file. -/
theorem found_nodup :
    (((s.files d).flatMap fun p => (s.reportOf d p).findings).map fun f => (f.file, f.identity)).Nodup := by
  rw [List.map_flatMap, List.nodup_flatMap]
  constructor
  · intro p _
    have hidentities := s.session.reportUnder_identities_nodup d (Path.display s.root p) p
    refine List.Nodup.of_map Prod.snd ?_
    rwa [List.map_map]
  · refine (s.files_nodup hd).pairwise_of_forall_ne ?_
    intro p hp q hq hne key hkey hkey'
    obtain ⟨f, hf, rfl⟩ := List.mem_map.mp hkey
    obtain ⟨g, hg, heq⟩ := List.mem_map.mp hkey'
    refine hne (s.display_injective hd hp hq (Option.some.inj ?_))
    calc some (Path.display s.root p)
      _ = f.file := (s.session.file_of_mem_reportUnder d _ p hf).symm
      _ = g.file := (congrArg Prod.fst heq).symm
      _ = some (Path.display s.root q) := s.session.file_of_mem_reportUnder d _ q hg

end Proper

/-- A survey and audits of single files agree, unless the search for files is refused something: then the survey ends
with that, though the files that it has come to can be audited. Otherwise the survey finds in every file what an audit
of that file finds, in the same order; it finds nothing else and nothing twice; and it counts the files that can be
audited. -/
theorem run_agrees_with_auditSingle (s : Survey) {d : Disk} (hd : d.Proper)
    (hb : s.session.budget.maxSeconds = none) (hguess : ∀ data failure, s.session.guess data ≠ .failed failure)
    (clocks : Clocks) (clock : Clock) :
    (∀ r, s.refused? d = some r → (s.run d clocks).outcome = .error r.failure) ∧
    ∃ single : Path → Report,
      (∀ p ∈ s.files d, (s.session.auditSingle d p clock).1 = .ok (single p)) ∧
      (s.refused? d = none → ∃ whole : Report,
        (s.run d clocks).outcome = .ok whole ∧
        (∀ p ∈ s.files d, ∃ relative, p.relativeTo? s.root = some relative ∧
          whole.findings.filter (·.file = some relative.toText) =
            (single p).findings.map (Finding.under (some relative.toText))) ∧
        (∀ f ∈ whole.findings, ∃ p ∈ s.files d, ∃ relative, p.relativeTo? s.root = some relative ∧
          f.file = some relative.toText) ∧
        (whole.findings.map fun f => (f.file, f.identity)).Nodup ∧
        whole.filesScanned = ((s.files d).countP fun p => (single p).filesScanned = 1 : Nat)) := by
  refine ⟨?_, fun p => s.session.reportUnder d p.toText p, ?_, ?_⟩
  · intro r h
    rw [run_of_refused h]
  · intro p hp
    obtain ⟨size, hsize, hle⟩ := s.size_of_mem_files hp
    exact Session.auditSingle_ok d p hguess hb hsize hle clock
  · intro h
    obtain ⟨whole, hrun, hfindings, hscanned⟩ := s.run_ok d h hb hguess clocks
    refine ⟨whole, hrun, ?_, ?_, ?_, ?_⟩
    · intro p hp
      obtain ⟨relative, hrelative, hdisplay⟩ := s.relativeTo?_of_mem_files hp
      refine ⟨relative, hrelative, ?_⟩
      rw [← hdisplay, hfindings, s.ranked_found_filter hd hp]
      exact s.session.findings_reportUnder d p.toText p _
    · intro f hf
      rw [hfindings, Finding.mem_ranked] at hf
      obtain ⟨p, hp, hf⟩ := List.mem_flatMap.mp hf
      obtain ⟨relative, hrelative, hdisplay⟩ := s.relativeTo?_of_mem_files hp
      exact ⟨p, hp, relative, hrelative, hdisplay ▸ s.session.file_of_mem_reportUnder d _ p hf⟩
    · rw [hfindings]
      exact ((Finding.ranked_perm _).map _).nodup_iff.mpr (s.found_nodup hd)
    · simp only [hscanned, Session.filesScanned_reportUnder, Bool.decide_eq_true]

/-- A guess for bytes that are no UTF-8 and have letters of Western languages in them. -/
def latinGuess (_ : Bytes) : Guess := .encoding (some "ISO-8859-1")

theorem latinGuess_never_fails (data : Bytes) (failure : Failure) : latinGuess data ≠ .failed failure := by
  simp [latinGuess]

/-- Three files, one of them in an encoding that has to be guessed, have a finding of the same rank each. -/
theorem run_agrees_with_auditSingle_of_letters :
    lettersDisk.Proper ∧ (lettersSurvey latinGuess).session.budget.maxSeconds = none ∧
    (∀ data failure, (lettersSurvey latinGuess).session.guess data ≠ .failed failure) ∧
    (lettersSurvey latinGuess).files lettersDisk = [⟨"", ["d", "a"]⟩, ⟨"", ["d", "b"]⟩, ⟨"", ["d", "c"]⟩] ∧
    lettersDisk.text latinGuess readLimit ⟨"", ["d", "a"]⟩ = .ok (some ['a', 'ÿ']) ∧
    ∃ single : Path → Report,
      (∀ p ∈ (lettersSurvey latinGuess).files lettersDisk,
        ((lettersSurvey latinGuess).session.auditSingle lettersDisk p (.ofReadings [])).1 = .ok (single p)) ∧
      ∃ whole : Report,
        ((lettersSurvey latinGuess).run lettersDisk ⟨.ofReadings [], .ofReadings []⟩).outcome = .ok whole ∧
        (∀ p ∈ (lettersSurvey latinGuess).files lettersDisk,
          ∃ relative, p.relativeTo? (lettersSurvey latinGuess).root = some relative ∧
            whole.findings.filter (·.file = some relative.toText) =
              (single p).findings.map (Finding.under (some relative.toText))) ∧
        (∀ f ∈ whole.findings, ∃ p ∈ (lettersSurvey latinGuess).files lettersDisk,
          ∃ relative, p.relativeTo? (lettersSurvey latinGuess).root = some relative ∧
            f.file = some relative.toText) ∧
        (whole.findings.map fun f => (f.file, f.identity)).Nodup ∧
        whole.filesScanned =
          (((lettersSurvey latinGuess).files lettersDisk).countP fun p => (single p).filesScanned = 1 : Nat) := by
  have hd : lettersDisk.Proper := ⟨by decide, by decide⟩
  have hfile : (["a"], .file [97, 255]) ∈ letters := by decide
  have hread : lettersDisk.read ⟨"", ["d", "a"]⟩ = .ok [97, 255] := letters_plantable.read_file hfile
  have htext : lettersDisk.text latinGuess readLimit ⟨"", ["d", "a"]⟩ = .ok (some ['a', 'ÿ']) := by
    simp only [Disk.text, hread]
    decide
  obtain ⟨_, single, hsingle, hwhole⟩ := run_agrees_with_auditSingle (lettersSurvey latinGuess) hd rfl
    latinGuess_never_fails ⟨.ofReadings [], .ofReadings []⟩ (.ofReadings [])
  exact ⟨hd, rfl, latinGuess_never_fails, lettersSurvey_files _, htext, single, hsingle,
    hwhole (lettersSurvey_refused? _)⟩

/-- A survey of scripts with a link to a name that is too long beside them. -/
def stuckSurvey : Survey :=
  .of ⟨.lettersOf [(.low, none)], .none, latinGuess, Session.standardFileSize, false⟩ ⟨"", ["proj"]⟩ [] [] false
    standardDescription

/-- The survey comes to a file that can be audited alone, and comes to nothing because of the link. -/
theorem run_fails_beside_auditSingle :
    ⟨"", ["proj", "a.lua"]⟩ ∈ stuckSurvey.files (.planted "proj" Disk.stuck) ∧
    (∃ report, (stuckSurvey.session.auditSingle (.planted "proj" Disk.stuck) ⟨"", ["proj", "a.lua"]⟩
        (.ofReadings [])).1 = .ok report ∧ report.filesScanned = 1) ∧
    (stuckSurvey.run (.planted "proj" Disk.stuck) ⟨.ofReadings [], .ofReadings []⟩).outcome =
      .error ⟨"OSError", "[Errno 36] File name too long: 'proj/b.lua'"⟩ := by
  have hentry : (["a.lua"], .file [97]) ∈ Disk.stuck := by decide
  have hlisted : (["a.lua"], .file [97]) ∈ (Disk.planted "proj" Disk.stuck).below ⟨"", ["proj"]⟩ :=
    Disk.stuck_plantable.below.symm ▸ hentry
  have hdir := Disk.stuck_plantable.isDir_entry hentry (by simp)
  have hsize := Disk.stuck_plantable.isTree.size_of_file hlisted hdir
  obtain ⟨hrefused, hreached⟩ := refused?_stuck (s := stuckSurvey) rfl
  refine ⟨?_, ⟨_, Session.auditSingle_ok _ _ latinGuess_never_fails rfl hsize (by decide) _, ?_⟩, ?_⟩
  · refine (mem_files_iff _ _).mpr ⟨["a.lua"], (hreached _).mpr rfl, rfl, ?_⟩
    exact ⟨hdir, by decide, by decide, 1, hsize, by decide⟩
  · have htext : (Disk.planted "proj" Disk.stuck).text latinGuess readLimit ⟨"", ["proj", "a.lua"]⟩ =
        .ok (some ['a']) := by
      simp only [Disk.text, Disk.stuck_plantable.read_file hentry]
      decide
    rw [Session.filesScanned_reportUnder, Session.text?]
    exact htext ▸ rfl
  · rw [run_of_refused hrefused]
    rfl

end Survey

end ScriptAudit
