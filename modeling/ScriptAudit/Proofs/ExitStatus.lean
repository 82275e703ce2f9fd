import ScriptAudit.Command.Run
import ScriptAudit.Proofs.Agreement
import ScriptAudit.Proofs.ExitPolicy
import ScriptAudit.Proofs.Identifiers
import ScriptAudit.Proofs.Narrowing

namespace ScriptAudit

namespace Session

variable (s : Session) (d : Disk) (p : Path)

/-- The text of a file has a finding that is as grave as a threshold. -/
def Reaches (threshold : Severity) (name : String) : Prop :=
  ∃ text report after, d.text s.guess readLimit p = .ok (some text) ∧
    s.catalog.audit text (some name) s.budget Command.still = .ok (report, after) ∧
    ∃ f ∈ report.findings, threshold.rank ≤ f.severity.rank

/-- Whether a file is there and not too large. -/
def admitsSize : Bool :=
  match d.size p with
  | .ok size => (size : Int) ≤ s.maxFileSize
  | .error _ => false

/-- What an audit of a single file makes of its outcome. -/
def singleResult : FileOutcome → Except Failure Report
  | .audited report => .ok report
  | .unreadable => .ok (Report.join [])
  | .failed failure => .error failure

theorem exitCode_singleResult_iff {outcome : FileOutcome} {report : Report} (h : singleResult outcome = .ok report)
    (threshold : Severity) :
    report.exitCode (some threshold) = 1 ↔ ∃ r, outcome.report? = some r ∧ r.exitCode (some threshold) = 1 := by
  cases outcome with
  | audited r =>
    cases h
    simp [FileOutcome.report?]
  | unreadable =>
    cases h
    simp [FileOutcome.report?, Report.exitCode_join_eq_one_iff]
  | failed failure => cases h

variable {s}

theorem reaches_iff (hb : s.budget.maxSeconds = none) {threshold : Severity} {name : String} :
    s.Reaches d p threshold name ↔
      ∃ report, (s.outcome d p name).report? = some report ∧ report.exitCode (some threshold) = 1 := by
  have haudit (text : List Char) := s.catalog.audit_timeless text (some name) hb Command.still
  simp only [Report.exitCode_eq_one_iff]
  constructor
  · rintro ⟨text, report, after, htext, hreport, hfound⟩
    obtain ⟨_, hok⟩ := haudit text
    obtain ⟨rfl, _⟩ := Prod.mk.inj (Except.ok.inj (hreport.symm.trans hok))
    exact ⟨_, by simp only [outcome, htext, FileOutcome.report?], hfound⟩
  · rintro ⟨report, hreport, hfound⟩
    unfold outcome at hreport
    rcases htext : d.text s.guess readLimit p with failure | _ | text
    · simp [htext, FileOutcome.report?] at hreport
    · simp [htext, FileOutcome.report?] at hreport
    · obtain ⟨after, hok⟩ := haudit text
      simp only [htext, FileOutcome.report?, Option.some.injEq] at hreport
      exact ⟨text, _, after, htext, hok, hreport ▸ hfound⟩

theorem auditSingle_eq (hb : s.budget.maxSeconds = none) (clock : Clock) :
    (s.auditSingle d p clock).1 =
      if s.admitsSize d p then singleResult (s.outcome d p p.toText) else .ok (Report.join []) := by
  have houtcome := s.auditFile_outcome d p p.toText hb singleLogger clock
  unfold auditSingle admitsSize
  cases hsize : d.size p with
  | error e => rfl
  | ok size =>
    by_cases hlarge : s.maxFileSize < size
    · simp [hlarge]
    · simp only [if_neg hlarge, decide_eq_true_eq, if_pos (Int.not_lt.mp hlarge), ← houtcome]
      cases (s.auditFile d singleLogger p p.toText clock).1 <;> rfl

end Session

namespace Survey

variable (s : Survey) (d : Disk)

/-- The same survey, which tells more or less of what it does. -/
def toned (verbose showProgress : Bool) : Survey := { s with session := { s.session with verbose }, showProgress }

theorem judge_fst (names : Place) :
    (s.judge d names).1 =
      if !s.admits names then none
      else if s.session.admitsSize d (s.root.descendant names) then some (s.root.descendant names) else none := by
  simp only [judge]
  split
  next => rfl
  next =>
    split
    next size hsize => by_cases hle : (size : Int) ≤ s.session.maxFileSize <;> simp [Session.admitsSize, hsize, hle]
    next e hsize => simp [Session.admitsSize, hsize]

theorem choice?_toned (verbose showProgress : Bool) : (s.toned verbose showProgress).choice? d = s.choice? d := by
  funext names
  rw [choice?, choice?, judge_fst, judge_fst]
  rfl

theorem files_toned (verbose showProgress : Bool) : (s.toned verbose showProgress).files d = s.files d := by
  rw [files_eq_filterMap, files_eq_filterMap, choice?_toned]
  rfl

theorem refused?_toned_iff (verbose showProgress : Bool) :
    (s.toned verbose showProgress).refused? d = none ↔ s.refused? d = none := by
  cases hentries : s.entries d with
  | ok entries =>
    have htoned : (s.toned verbose showProgress).entries d = .ok entries := hentries
    rw [refused?_of_entries htoned, refused?_of_entries hentries, refused_select_eq_none_iff,
      refused_select_eq_none_iff]
    rfl
  | error r =>
    have htoned : (s.toned verbose showProgress).entries d = .error r := hentries
    simp [refused?, selection, hentries, htoned]

theorem run_eq_ok_iff (hb : s.session.budget.maxSeconds = none) (clocks : Clocks) {report : Report} :
    (s.run d clocks).outcome = .ok report ↔ s.refused? d = none ∧
      Pool.Answers (s.files d) (fun p => s.session.outcome d p (Path.display s.root p)) (.ok report) := by
  constructor
  · intro h
    cases hrefused : s.refused? d with
    | some r =>
      rw [run_of_refused hrefused] at h
      cases h
    | none => exact ⟨rfl, h ▸ s.run_answers d hrefused hb clocks⟩
  · rintro ⟨hrefused, hgo, rfl⟩
    have hanswers := s.run_answers d hrefused hb clocks
    cases hrun : (s.run d clocks).outcome with
    | ok other =>
      rw [hrun] at hanswers
      rw [hanswers.2]
    | error failure =>
      rw [hrun] at hanswers
      obtain ⟨p, hp, hstop⟩ := hanswers
      rw [hgo p hp] at hstop
      exact absurd hstop (by simp)

theorem run_toned_iff (hb : s.session.budget.maxSeconds = none) (clocks : Clocks) (verbose showProgress : Bool)
    {report : Report} :
    ((s.toned verbose showProgress).run d clocks).outcome = .ok report ↔ (s.run d clocks).outcome = .ok report := by
  rw [(s.toned verbose showProgress).run_eq_ok_iff d hb, s.run_eq_ok_iff d hb, files_toned, refused?_toned_iff]
  rfl

/-- However many work on the files, they come to what the survey comes to. -/
theorem eq_run_of_pool (hb : s.session.budget.maxSeconds = none) {clocks : Clocks} {report : Report}
    (hrun : (s.run d clocks).outcome = .ok report) {workers : Int} {pool : Pool}
    (hpool : Pool.Run workers (fun p => (s.work d p clocks).1.outcome) (.submitted (s.files d)) pool)
    {result : Except Failure Report} (hresult : pool.result? (s.files d) = some result) : result = .ok report := by
  have hends : (fun p => (s.work d p clocks).1.outcome) = fun p => s.session.outcome d p (Path.display s.root p) :=
    funext fun p => s.work_outcome d hb p clocks
  rw [hends] at hpool
  have hanswers := (Pool.Run.accounts hpool).answers hresult
  obtain ⟨-, hgo, rfl⟩ := (s.run_eq_ok_iff d hb clocks).mp hrun
  cases result with
  | ok other => rw [hanswers.2]
  | error failure =>
    obtain ⟨p, hp, hstop⟩ := hanswers
    rw [hgo p hp] at hstop
    exact absurd hstop (by simp)

end Survey

namespace Command

/-- The settings without those that only say what is shown and where it is saved. -/
def AuditSettings.bare (s : AuditSettings) : AuditSettings := { s with out := none, maxShown := 0, verbose := false }

namespace Task

def audit? : Task → Option AuditSettings
  | .tree t => some t.audit
  | .file s => some s
  | .list _ => none

/-- The task without the settings that only say how it is carried out and what is told of it. -/
def bare : Task → Task
  | .tree t => .tree { t with audit := t.audit.bare, workers := 1, noProgress := false }
  | .file s => .file s.bare
  | .list l => .list l

/-- Whether what the path of a task leads to is there. -/
def target (d : Disk) : Task → Except Disk.Refused Bool
  | .tree t => d.isDir t.audit.path
  | .file s => d.isFile s.path
  | .list _ => .ok true

/-- The files that are audited, with the names under which they are reported. -/
def files (guess : Bytes → Guess) (catalog : Catalog) (d : Disk) : Task → List (Path × String)
  | .tree t => ((t.survey guess catalog).files d).map fun p => (p, Path.display t.audit.path p)
  | .file s => if (session s guess catalog).admitsSize d s.path then [(s.path, s.path.toText)] else []
  | .list _ => []

/-- What the audit of a task comes to. -/
def result (guess : Bytes → Guess) (catalog : Catalog) (d : Disk) : Task → Except Failure Report
  | .tree t => ((t.survey guess catalog).run d ⟨still, still⟩).outcome
  | .file s => ((session s guess catalog).auditSingle d s.path still).1
  | .list _ => .ok (Report.join [])

variable {task : Task} {s : AuditSettings} {guess : Bytes → Guess} {catalog : Catalog} {d : Disk} {report : Report}

theorem result_bare (hs : task.audit? = some s) (ht : s.ruleTimeout = none) :
    task.bare.result guess catalog d = .ok report ↔ task.result guess catalog d = .ok report := by
  cases task with
  | tree t =>
    cases hs
    exact (t.survey guess catalog).run_toned_iff d ht ⟨still, still⟩ false true
  | file s =>
    cases hs
    have hb : (session s guess catalog).budget.maxSeconds = none := ht
    have hb' : (session s.bare guess catalog).budget.maxSeconds = none := ht
    simp only [bare, result]
    rw [Session.auditSingle_eq d _ hb', Session.auditSingle_eq d _ hb]
    rfl
  | list l => cases hs

theorem exitCode_result_iff (hs : task.audit? = some s) (ht : s.ruleTimeout = none)
    (h : task.result guess catalog d = .ok report) (threshold : Severity) :
    report.exitCode (some threshold) = 1 ↔
      ∃ file ∈ task.files guess catalog d, (session s guess catalog).Reaches d file.1 threshold file.2 := by
  have hb : (session s guess catalog).budget.maxSeconds = none := ht
  simp only [Session.reaches_iff d _ hb]
  cases task with
  | tree t =>
    cases hs
    obtain ⟨-, -, rfl⟩ := ((t.survey guess catalog).run_eq_ok_iff d hb ⟨still, still⟩).mp h
    rw [Report.exitCode_join_eq_one_iff]
    constructor
    · rintro ⟨r, hr, hcode⟩
      obtain ⟨p, hp, hreport⟩ := List.mem_filterMap.mp hr
      exact ⟨_, List.mem_map_of_mem hp, r, hreport, hcode⟩
    · rintro ⟨_, hfile, r, hreport, hcode⟩
      obtain ⟨p, hp, rfl⟩ := List.mem_map.mp hfile
      exact ⟨r, List.mem_filterMap.mpr ⟨p, hp, hreport⟩, hcode⟩
  | file s =>
    cases hs
    simp only [result, Session.auditSingle_eq d _ hb] at h
    simp only [files]
    split at h
    next hsize =>
      simp only [hsize, if_true, List.mem_singleton, exists_eq_left]
      exact Session.exitCode_singleResult_iff h threshold
    next hsize =>
      cases h
      simp [hsize, Report.exitCode_join_eq_one_iff]
  | list l => cases hs

/-- A task that cannot begin: its path leads nowhere, or its rules are not valid, or there are none. -/
def Unready (task : Task) (s : AuditSettings) (d : Disk) : Prop :=
  task.target d = .ok false ∨ (∃ e, s.rules.load d = .error (.invalid e)) ∨
    ∃ catalog, s.rules.load d = .ok catalog ∧ catalog.ruleCount = 0

structure Ready (task : Task) (s : AuditSettings) (d : Disk) (catalog : Catalog) : Prop where
  target : task.target d = .ok true
  loaded : s.rules.load d = .ok catalog
  some_rule : catalog.ruleCount ≠ 0

theorem not_unready (htarget : task.target d = .ok true) (hvalid : ∀ e, s.rules.load d ≠ .error (.invalid e))
    (hrules : ∀ catalog, s.rules.load d = .ok catalog → catalog.ruleCount ≠ 0) : ¬task.Unready s d := by
  rintro (hnot | ⟨e, hload⟩ | ⟨catalog, hload, hnone⟩)
  · simp [htarget] at hnot
  · exact hvalid e hload
  · exact hrules catalog hload hnone

theorem Ready.not_unready (h : task.Ready s d catalog) : ¬task.Unready s d := by
  apply Task.not_unready h.target
  · simp [h.loaded]
  · intro other hload
    cases h.loaded.symm.trans hload
    exact h.some_rule

/-- All that an audit can come to. -/
inductive Comes (task : Task) (s : AuditSettings) (guess : Bytes → Guess) (d : Disk) : Outcome → Prop
  | refused {e : Disk.Refused} (target : task.target d = .error e) :
      Comes task s guess d { disk := d, ending := .refused e }
  | unready {answer : Bool} {text : String} (target : task.target d = .ok answer) (unready : task.Unready s d) :
      Comes task s guess d (complain d text)
  | broken {b : Pattern.Breakdown} (target : task.target d = .ok true) (load : s.rules.load d = .error (.broken b)) :
      Comes task s guess d { disk := d, ending := .broken b }
  | nested {problem : Json.Problem} (target : task.target d = .ok true)
      (load : s.rules.load d = .error (.nested problem)) :
      Comes task s guess d { disk := d, ending := .failed ⟨"RecursionError", problem.text⟩ }
  | finished {catalog : Catalog} {report : Report} {log : List Log.Record} {progress : List ScriptAudit.Progress}
      (ready : task.Ready s d catalog) (result : task.result guess catalog d = .ok report) :
      Comes task s guess d (finish s d report log progress)
  | failed {catalog : Catalog} {failure : Failure} {notices : List Notice} {progress : List ScriptAudit.Progress}
      (ready : task.Ready s d catalog) (result : task.result guess catalog d = .error failure) :
      Comes task s guess d { disk := d, notices, progress, ending := .failed failure }

theorem comes_withRules {next : Catalog → Outcome} (htarget : task.target d = .ok true)
    (hnext : ∀ catalog, task.Ready s d catalog → task.Comes s guess d (next catalog)) :
    task.Comes s guess d (withRules s.rules d next) := by
  unfold withRules
  split
  next e hload => exact .unready htarget (.inr (.inl ⟨e, hload⟩))
  next b hload => exact .broken htarget hload
  next problem hload => exact .nested htarget hload
  next catalog hload =>
    split
    next hnone => exact .unready htarget (.inr (.inr ⟨catalog, hload, hnone⟩))
    next hsome => exact hnext catalog ⟨htarget, hload, hsome⟩

theorem comes_withTarget {complaint : String} {next : Outcome}
    (hnext : task.target d = .ok true → task.Comes s guess d next) :
    task.Comes s guess d (withTarget d (task.target d) complaint next) := by
  unfold withTarget
  split
  next e htarget => exact .refused htarget
  next htarget => exact .unready htarget (.inl htarget)
  next htarget => exact hnext htarget

theorem comes_runTree (t : TreeSettings) (guess : Bytes → Guess) (d : Disk) :
    (tree t).Comes t.audit guess d (runTree t guess d) := by
  refine comes_withTarget fun htarget => comes_withRules htarget fun catalog hready => ?_
  dsimp only
  split
  next report hresult => exact .finished hready hresult
  next failure hresult => exact .failed hready hresult

theorem comes_runFile (s : AuditSettings) (guess : Bytes → Guess) (d : Disk) :
    (file s).Comes s guess d (runFile s guess d) := by
  refine comes_withTarget fun htarget => comes_withRules htarget fun catalog hready => ?_
  split
  next report log hresult => exact .finished hready (congrArg Prod.fst hresult)
  next failure log hresult => exact .failed hready (congrArg Prod.fst hresult)

theorem comes_run {words : List String} (hread : read words = .ok task) (hs : task.audit? = some s)
    (guess : Bytes → Guess) (d : Disk) : task.Comes s guess d (run words guess d) := by
  unfold run
  rw [hread]
  cases task with
  | tree t =>
    cases hs
    exact comes_runTree t guess d
  | file s =>
    cases hs
    exact comes_runFile s guess d
  | list l => cases hs

end Task

/-- A report is shown and makes the exit code, unless it cannot be saved. -/
theorem finish_ending (s : AuditSettings) (d : Disk) (r : Report) (log : List Log.Record)
    (progress : List ScriptAudit.Progress) :
    (finish s d r log progress).ending = .exit (r.exitCode s.failOn) ∨
      s.out ≠ none ∧ ∃ e, (finish s d r log progress).ending = .refused e := by
  unfold finish
  split
  next => exact .inl rfl
  next dir hout =>
    rcases save r dir d with ⟨after, _ | e⟩
    · exact .inl rfl
    · exact .inr ⟨by simp [hout], e, rfl⟩

namespace Task

variable {task other : Task} {s s' : AuditSettings} {guess : Bytes → Guess} {d : Disk} {outcome : Outcome} {code : Nat}

/-- What a run that ends with an exit code has come to. -/
theorem Comes.exit_cases (h : task.Comes s guess d outcome) (hexit : outcome.ending = .exit code) :
    ((∃ answer, task.target d = .ok answer) ∧ task.Unready s d ∧ code = 2 ∧ outcome.output = "" ∧ outcome.disk = d) ∨
      ∃ catalog report, task.Ready s d catalog ∧ task.result guess catalog d = .ok report ∧
        code = report.exitCode s.failOn := by
  cases h with
  | refused => cases hexit
  | unready target hunready => exact .inl ⟨⟨_, target⟩, hunready, (Ending.exit.inj hexit).symm, rfl, rfl⟩
  | broken => cases hexit
  | nested => cases hexit
  | @finished catalog report log progress ready result =>
    refine .inr ⟨catalog, report, ready, result, ?_⟩
    rcases finish_ending s d report log progress with hending | ⟨_, e, hending⟩
    · exact Ending.exit.inj (hexit.symm.trans hending)
    · cases hexit.symm.trans hending
  | failed => cases hexit

theorem Comes.exit_of_unready (h : task.Comes s guess d outcome) {answer : Bool} (htarget : task.target d = .ok answer)
    (hunready : task.Unready s d) : outcome.ending = .exit 2 := by
  cases h with
  | refused target => cases htarget.symm.trans target
  | unready => rfl
  | broken target load => exact absurd hunready (not_unready target (by simp [load]) (by simp [load]))
  | nested target load => exact absurd hunready (not_unready target (by simp [load]) (by simp [load]))
  | finished ready => exact absurd hunready ready.not_unready
  | failed ready => exact absurd hunready ready.not_unready

theorem Comes.exit_of_ready {catalog : Catalog} {report : Report} (h : task.Comes s guess d outcome)
    (hready : task.Ready s d catalog) (hresult : task.result guess catalog d = .ok report) :
    outcome.ending = .exit (report.exitCode s.failOn) ∨ s.out ≠ none ∧ ∃ e, outcome.ending = .refused e := by
  cases h with
  | refused target => cases target.symm.trans hready.target
  | unready _ hunready => exact absurd hunready hready.not_unready
  | broken _ load => cases load.symm.trans hready.loaded
  | nested _ load => cases load.symm.trans hready.loaded
  | finished ready result =>
    cases ready.loaded.symm.trans hready.loaded
    cases result.symm.trans hresult
    exact finish_ending s d report _ _
  | failed ready result =>
    cases ready.loaded.symm.trans hready.loaded
    cases result.symm.trans hresult

section Bare

variable (hs : task.audit? = some s) (hs' : other.audit? = some s') (h : other.bare = task.bare)

theorem target_bare (task : Task) (d : Disk) : task.bare.target d = task.target d := by
  cases task <;> rfl

theorem audit?_bare (task : Task) : task.bare.audit? = task.audit?.map AuditSettings.bare := by
  cases task <;> rfl

include hs hs' h

/-- What tasks have in common that differ only in what is told of them. -/
theorem shared_of_bare_eq (d : Disk) :
    other.target d = task.target d ∧ s'.rules = s.rules ∧ s'.failOn = s.failOn ∧
      s'.ruleTimeout = s.ruleTimeout := by
  have htarget : other.target d = task.target d := by rw [← target_bare, h, target_bare]
  have hbare : s'.bare = s.bare := by
    have haudit := congrArg audit? h
    rw [audit?_bare, audit?_bare, hs, hs'] at haudit
    exact Option.some.inj haudit
  have hrules : s'.bare.rules = s.bare.rules := by rw [hbare]
  have hfailOn : s'.bare.failOn = s.bare.failOn := by rw [hbare]
  have htimeout : s'.bare.ruleTimeout = s.bare.ruleTimeout := by rw [hbare]
  exact ⟨htarget, hrules, hfailOn, htimeout⟩

/-- Tasks that differ in what is told of them end alike, unless a report cannot be saved. -/
theorem Comes.exit_of_bare_eq (ht : s.ruleTimeout = none) {outcome' : Outcome} (hcomes : task.Comes s guess d outcome)
    (hexit : outcome.ending = .exit code) (hcomes' : other.Comes s' guess d outcome') :
    outcome'.ending = .exit code ∨ s'.out ≠ none ∧ ∃ e, outcome'.ending = .refused e := by
  obtain ⟨htarget, hrules, hfailOn, htimeout⟩ := shared_of_bare_eq hs hs' h d
  rcases hcomes.exit_cases hexit with ⟨⟨answer, hanswer⟩, hunready, rfl, _⟩ | ⟨catalog, report, hready, hresult, rfl⟩
  · refine .inl (hcomes'.exit_of_unready (htarget.trans hanswer) ?_)
    unfold Unready
    rwa [htarget, hrules]
  · have hready' : other.Ready s' d catalog :=
      ⟨htarget.trans hready.target, hrules ▸ hready.loaded, hready.some_rule⟩
    rw [← result_bare hs ht, ← h, result_bare hs' (htimeout.trans ht)] at hresult
    rw [← hfailOn]
    exact hcomes'.exit_of_ready hready' hresult

end Bare

end Task

/-- The exit code of an audit that ends with one. It is 2 exactly if the audit could not begin, and then nothing has
been written. Otherwise it says whether a file that was audited reaches the threshold, however many have worked on the
files. Settings that only say what is told of the audit and where it is saved have no part in it. -/
theorem run_exit_code {words : List String} {task : Task} {s : AuditSettings} (hread : read words = .ok task)
    (hs : task.audit? = some s) (ht : s.ruleTimeout = none) (guess : Bytes → Guess) (d : Disk) {code : Nat}
    (hexit : (run words guess d).ending = .exit code) :
    (code = 2 ↔ task.Unready s d) ∧
    (task.Unready s d → (run words guess d).output = "" ∧ (run words guess d).disk = d) ∧
    (¬task.Unready s d → ∃ catalog, s.rules.load d = .ok catalog ∧
      (code = 1 ↔ ∃ threshold, s.failOn = some threshold ∧
        ∃ file ∈ task.files guess catalog d, (session s guess catalog).Reaches d file.1 threshold file.2) ∧
      (code ≠ 1 → code = 0) ∧
      ∀ t, task = .tree t → ∀ workers pool result,
        Pool.Run workers (fun p => ((t.survey guess catalog).work d p ⟨still, still⟩).1.outcome)
          (.submitted ((t.survey guess catalog).files d)) pool →
        pool.result? ((t.survey guess catalog).files d) = some result →
        ∃ report, result = .ok report ∧ report.exitCode s.failOn = code) ∧
    ∀ words' task' s', read words' = .ok task' → task'.audit? = some s' → task'.bare = task.bare →
      (run words' guess d).ending = .exit code ∨
        s'.out ≠ none ∧ ∃ e, (run words' guess d).ending = .refused e := by
  have hcomes := Task.comes_run hread hs guess d
  have hother (words' : List String) (task' : Task) (s' : AuditSettings) (hread' : read words' = .ok task')
      (hs' : task'.audit? = some s') (hbare : task'.bare = task.bare) :=
    hcomes.exit_of_bare_eq hs hs' hbare ht hexit (Task.comes_run hread' hs' guess d)
  rcases hcomes.exit_cases hexit with ⟨_, hunready, rfl, hnothing⟩ | ⟨catalog, report, hready, hresult, rfl⟩
  · exact ⟨by simp [hunready], fun _ => hnothing, fun hnot => absurd hunready hnot, hother⟩
  · have hnot := hready.not_unready
    have hle : report.exitCode s.failOn ≤ 1 := by
      cases s.failOn with
      | none => exact Nat.zero_le 1
      | some threshold => exact report.exitCode_le_one threshold
    refine ⟨by simp only [hnot, iff_false]; omega, fun hunready => absurd hunready hnot, fun _ => ?_, hother⟩
    refine ⟨catalog, hready.loaded, ?_, by omega, ?_⟩
    · cases s.failOn with
      | none => simp [Report.exitCode]
      | some threshold =>
        rw [Task.exitCode_result_iff hs ht hresult]
        simp
    · rintro t rfl workers pool result hpool hend
      cases hs
      exact ⟨report, (t.survey guess catalog).eq_run_of_pool d ht hresult hpool hend, rfl⟩

/-- A file with one of the identifiers that the built-in rules look for. -/
def hashDisk : Disk := .holding "a" [71, 101, 116, 72, 97, 115, 104, 75, 101, 121]

def hashText : List Char := ['G', 'e', 't', 'H', 'a', 's', 'h', 'K', 'e', 'y']

def hashSettings : AuditSettings := { path := .ofText "a", failOn := some .low }

theorem hashSettings_path : hashSettings.path = ⟨"", ["a"]⟩ := by decide

theorem hashDisk_text (guess : Bytes → Guess) :
    hashDisk.text guess readLimit hashSettings.path = .ok (some hashText) := by
  have hdata : hashDisk.read hashSettings.path = .ok [71, 101, 116, 72, 97, 115, 104, 75, 101, 121] := by
    rw [hashSettings_path]
    exact Disk.read_holding (by decide) _
  simp only [Disk.text, hdata]
  rfl

theorem hashSettings_load :
    ∃ catalog entry names, hashSettings.rules.load hashDisk = .ok catalog ∧ catalog.Lists entry names ∧
      "GetHashKey" ∈ names := by
  obtain ⟨catalog, hbuilt, houtlines, hplain⟩ := Catalog.builtin_outlines (some "all")
  have hkey : Pack.selectsAll (Pack.selectorKey (some "all")) = true := by decide +kernel
  rw [Pack.select, if_pos hkey] at houtlines
  have hlisting : ("playerExploits", "Player model manipulation", ["SetPlayerModel", "GetHashKey", "RequestModel"]) ∈
      (catalog.entries.map Outline.ofEntry).filterMap Outline.listing? := by
    rw [houtlines, Pack.listings_eq]
    simp [Pack.listings]
  rw [List.filterMap_map, List.mem_filterMap] at hlisting
  obtain ⟨entry, hentry, hnames⟩ := hlisting
  obtain ⟨names, hidentifiers, heq⟩ := Option.map_eq_some_iff.mp hnames
  refine ⟨catalog, entry, names, ?_, Catalog.lists_of_builtin houtlines hplain hentry hidentifiers, ?_⟩
  · exact (CatalogChoice.load_without_file (some "all") true hashDisk).trans hbuilt
  · simp only [Prod.mk.injEq] at heq
    simp [heq.2.2]

/-- A threshold that every finding reaches, and a file with one. -/
theorem run_exit_code_of_identifier :
    read ["file", "a", "--fail-on", "low"] = .ok (.file hashSettings) ∧
    (Task.file hashSettings).audit? = some hashSettings ∧ hashSettings.ruleTimeout = none ∧
    ¬(Task.file hashSettings).Unready hashSettings hashDisk ∧
    (run ["file", "a", "--fail-on", "low"] Survey.noGuess hashDisk).ending = .exit 1 := by
  have hread : read ["file", "a", "--fail-on", "low"] = .ok (.file hashSettings) := rfl
  have hfind := hashSettings_path ▸ Disk.find_holding (by decide) [71, 101, 116, 72, 97, 115, 104, 75, 101, 121]
  have htarget : (Task.file hashSettings).target hashDisk = .ok true := by
    rw [Task.target, Disk.isFile, Disk.passes, hashDisk, hfind]
    rfl
  obtain ⟨catalog, entry, names, hload, hlists, hword⟩ := hashSettings_load
  have hready : (Task.file hashSettings).Ready hashSettings hashDisk catalog :=
    ⟨htarget, hload, (List.length_pos_of_mem hlists.mem).ne'⟩
  have hsize : (session hashSettings Survey.noGuess catalog).admitsSize hashDisk hashSettings.path = true := by
    have hlength : hashDisk.size hashSettings.path = .ok 10 := by
      rw [Disk.size, hashDisk, hfind]
      rfl
    unfold Session.admitsSize
    rw [hlength]
    rfl
  have hresult : (Task.file hashSettings).result Survey.noGuess catalog hashDisk =
      .ok (catalog.report hashText (some hashSettings.path.toText) .none) := by
    simp only [Task.result]
    rw [Session.auditSingle_eq _ _ rfl, if_pos hsize]
    simp only [Session.outcome, session, hashDisk_text]
    rfl
  have hexit := ((Task.comes_run hread rfl Survey.noGuess hashDisk).exit_of_ready hready hresult).resolve_right
    (by simp [hashSettings])
  have hreaches : (session hashSettings Survey.noGuess catalog).Reaches hashDisk hashSettings.path .low
      hashSettings.path.toText := by
    have hpre : "GetHashKey".toList <+: hashText.drop 0 := by decide
    obtain ⟨after, haudit⟩ := catalog.audit_eq hashText (some hashSettings.path.toText) .none still
    obtain ⟨f, hf, _⟩ := hlists.exists_finding hword hpre (some hashSettings.path.toText) still
    exact ⟨_, _, after, hashDisk_text _, haudit, f, hf, Nat.zero_le _⟩
  obtain ⟨_, _, hcode, _⟩ := run_exit_code hread rfl rfl Survey.noGuess hashDisk hexit
  obtain ⟨other, hload', hone, _⟩ := hcode hready.not_unready
  cases hload.symm.trans hload'
  have hfile : (hashSettings.path, hashSettings.path.toText) ∈
      (Task.file hashSettings).files Survey.noGuess catalog hashDisk := by
    simp [Task.files, hsize]
  refine ⟨hread, rfl, rfl, hready.not_unready, hexit.trans (congrArg Ending.exit ?_)⟩
  exact hone.mpr ⟨.low, rfl, _, hfile, hreaches⟩

end Command

end ScriptAudit
