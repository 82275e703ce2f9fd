import ScriptAudit.Audit.Survey
import ScriptAudit.Proofs.Isolation

namespace ScriptAudit

namespace Catalog

/-- The report of an audit without a limit of time. -/
def report (c : Catalog) (text : List Char) (file : Option String) (budget : Budget) : Report :=
  Gathering.report
    ⟨c.entries.flatMap fun entry => (Run.start budget text (.ofReadings []) entry).findings text file,
      if text = [] then []
      else c.entries.filterMap fun entry => (Run.start budget text (.ofReadings []) entry).skipped? file,
      .ofReadings []⟩ file

theorem audit_timeless (c : Catalog) (text : List Char) (file : Option String) {budget : Budget}
    (hb : budget.maxSeconds = none) (clock : Clock) :
    ∃ after, c.audit text file budget clock = .ok (c.report text file budget, after) := by
  obtain ⟨after, haudit⟩ := c.audit_eq text file budget clock
  refine ⟨after, ?_⟩
  rw [haudit, discoveries_timeless hb text file c clock (.ofReadings []),
    skipped_timeless hb text file c clock (.ofReadings [])]
  rfl

end Catalog

namespace Bytes

theorem split_of_nonneg {count : Int} (h : 0 ≤ count) (data : Bytes) :
    data.split count = .ok (data.take count.toNat, data.drop count.toNat) := by
  rw [split, if_neg (by omega), if_neg (by omega)]

/-- The standard limit is a length that can be read, and so is what the head leaves of it. -/
theorem readable_ok (data : Bytes) : ∃ readable, data.readable readLimit = .ok readable := by
  have hhead : min headLength readLimit = 4096 := by decide
  have hleft : 0 ≤ readLimit - (data.take 4096).length := by
    have hlength : (data.take 4096).length ≤ 4096 := List.length_take_le _ _
    simp only [readLimit]
    omega
  rw [readable, hhead, split_of_nonneg (by decide)]
  simp only [bind, Except.bind]
  split
  · exact ⟨none, rfl⟩
  · exact ⟨_, by rw [show (4096 : Int).toNat = 4096 from rfl, split_of_nonneg hleft]; rfl⟩

theorem text_ok {guess : Bytes → Guess} (hguess : ∀ data failure, guess data ≠ .failed failure) (data : Bytes) :
    ∃ text, data.text guess = .ok text := by
  unfold text
  cases Utf8.decode (Utf8.withoutMark data) with
  | ok text => exact ⟨some text, rfl⟩
  | error e =>
    cases hg : guess (Utf8.withoutMark data) with
    | failed failure => exact absurd hg (hguess _ _)
    | foreign text => exact ⟨text, rfl⟩
    | encoding name => cases name <;> exact ⟨_, rfl⟩

end Bytes

/-- Only a guess can fail: a file that cannot be read has no text. -/
theorem Disk.text_ok {guess : Bytes → Guess} (hguess : ∀ data failure, guess data ≠ .failed failure) (d : Disk)
    (p : Path) : ∃ text, d.text guess readLimit p = .ok text := by
  unfold text
  cases d.read p with
  | error e => exact ⟨none, rfl⟩
  | ok data =>
    obtain ⟨readable, hreadable⟩ := data.readable_ok
    simp only [Bytes.content, hreadable]
    cases readable with
    | none => exact ⟨none, rfl⟩
    | some data => exact Bytes.text_ok hguess data

/-- The failure that ends all work, if the file has come to one. -/
def FileOutcome.stop? : FileOutcome → Option Failure
  | .failed failure => if failure.stops then some failure else none
  | _ => none

namespace Session

variable (s : Session) (d : Disk) (p : Path) (name : String)

/-- What becomes of a file without a limit of time. -/
def outcome : FileOutcome :=
  match d.text s.guess readLimit p with
  | .error failure => .failed failure
  | .ok none => .unreadable
  | .ok (some text) => .audited (s.catalog.report text (some name) s.budget)

theorem auditFile_outcome (hb : s.budget.maxSeconds = none) (logger : String) (clock : Clock) :
    (s.auditFile d logger p name clock).1 = s.outcome d p name := by
  unfold auditFile outcome
  rcases d.text s.guess readLimit p with failure | _ | text
  · rfl
  · rfl
  · obtain ⟨after, haudit⟩ := s.catalog.audit_timeless text (some name) hb clock
    simp only [haudit]

end Session

namespace Survey

variable (s : Survey) (d : Disk)

/-- What becomes of a file does not depend on when it is worked on. -/
theorem work_outcome (hb : s.session.budget.maxSeconds = none) (p : Path) (clocks : Clocks) :
    (s.work d p clocks).1.outcome = s.session.outcome d p (Path.display s.root p) :=
  s.session.auditFile_outcome d p _ hb logger clocks.rules

theorem workAll_cons (p : Path) (rest : List Path) (clocks : Clocks) :
    s.workAll d (p :: rest) clocks =
      match (s.work d p clocks).1.outcome.stop? with
      | some failure => ([(s.work d p clocks).1], some failure)
      | none => ((s.work d p clocks).1 :: (s.workAll d rest (s.work d p clocks).2).1,
          (s.workAll d rest (s.work d p clocks).2).2) := by
  simp only [workAll]
  cases (s.work d p clocks).1.outcome with
  | audited report => rfl
  | unreadable => rfl
  | failed failure => by_cases hstops : failure.stops <;> simp [FileOutcome.stop?, hstops]

/-- A survey of no files needs no case of its own. -/
theorem runFiles_outcome (clocks : Clocks) (files : List Path) (before : List Log.Record) :
    (s.runFiles d clocks files before).outcome =
      match (s.workAll d files clocks).2 with
      | some failure => .error failure
      | none => .ok (collect files ((s.workAll d files clocks).1.map fun t => (t.path, t.outcome))) := by
  cases files with
  | nil => rfl
  | cons p rest =>
    simp only [runFiles, List.isEmpty_cons, Bool.false_eq_true, if_false]
    cases (s.workAll d (p :: rest) clocks).2 <;> rfl

variable {s d}

theorem run_of_not_refused (h : s.refused? d = none) (clocks : Clocks) :
    s.run d clocks = s.runFiles d clocks (s.files d) (s.selectionLog d) := by
  rw [run, h]

/-- If the search for files is refused something, the survey is. -/
theorem run_of_refused {r : Disk.Refused} (h : s.refused? d = some r) (clocks : Clocks) :
    s.run d clocks = ⟨.error r.failure, s.selectionLog d, none⟩ := by
  rw [run, h]

theorem run_outcome (h : s.refused? d = none) (clocks : Clocks) :
    (s.run d clocks).outcome =
      match (s.workAll d (s.files d) clocks).2 with
      | some failure => .error failure
      | none => .ok (collect (s.files d) ((s.workAll d (s.files d) clocks).1.map fun t => (t.path, t.outcome))) := by
  rw [run_of_not_refused h, runFiles_outcome]

end Survey

end ScriptAudit
