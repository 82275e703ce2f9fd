import Mathlib.Logic.Relation
import Mathlib.Tactic.Tauto
import ScriptAudit.Proofs.FileChoice
import ScriptAudit.Proofs.Sessions

namespace ScriptAudit

/-- Files that workers share: those that wait, those that are worked on, what has become of those that are done, and
what has been collected of that. A failure that stops all work ends the collecting. -/
structure Pool where
  waiting : List Path
  running : List Path
  finished : List (Path × FileOutcome)
  collected : List (Path × FileOutcome)
  stopped : Option Failure

namespace Pool

def submitted (files : List Path) : Pool := ⟨files, [], [], [], none⟩

/-- What can happen next. A free worker takes the file that has waited longest; of the files that are worked on any may
be the next to finish; and of those that have finished any may be the next to be collected. -/
inductive Step (workers : Int) (ends : Path → FileOutcome) : Pool → Pool → Prop
  | start {p waiting running finished collected} (free : (running.length : Int) < Survey.workerCount workers) :
      Step workers ends ⟨p :: waiting, running, finished, collected, none⟩
        ⟨waiting, running ++ [p], finished, collected, none⟩
  | finish {p waiting finished collected} (before after : List Path) :
      Step workers ends ⟨waiting, before ++ p :: after, finished, collected, none⟩
        ⟨waiting, before ++ after, finished ++ [(p, ends p)], collected, none⟩
  | collect {done waiting running collected} (before after : List (Path × FileOutcome))
      (goes : done.2.stop? = none) :
      Step workers ends ⟨waiting, running, before ++ done :: after, collected, none⟩
        ⟨waiting, running, before ++ after, collected ++ [done], none⟩
  | stop {done waiting running collected failure} (before after : List (Path × FileOutcome))
      (stops : done.2.stop? = some failure) :
      Step workers ends ⟨waiting, running, before ++ done :: after, collected, none⟩
        ⟨waiting, running, before ++ after, collected, some failure⟩

abbrev Run (workers : Int) (ends : Path → FileOutcome) : Pool → Pool → Prop :=
  Relation.ReflTransGen (Step workers ends)

/-- What the work has come to, if it is over. -/
def result? (files : List Path) (pool : Pool) : Option (Except Failure Report) :=
  match pool with
  | ⟨_, _, _, _, some failure⟩ => some (.error failure)
  | ⟨[], [], [], collected, none⟩ => some (.ok (Survey.collect files collected))
  | _ => none

/-- What work on files should come to: the join of the reports in the order of the files, or a failure that stops all
work, if there is one. -/
def Answers (files : List Path) (ends : Path → FileOutcome) : Except Failure Report → Prop
  | .ok report =>
    (∀ p ∈ files, (ends p).stop? = none) ∧ report = Report.join (files.filterMap fun p => (ends p).report?)
  | .error failure => ∃ p ∈ files, (ends p).stop? = some failure

/-- No file is lost or made up, and what is said of a file is what has become of it. -/
structure Accounts (files : List Path) (ends : Path → FileOutcome) (pool : Pool) : Prop where
  files_iff : pool.stopped = none → ∀ p, p ∈ files ↔ p ∈ pool.waiting ∨ p ∈ pool.running ∨
    p ∈ pool.finished.map Prod.fst ∨ p ∈ pool.collected.map Prod.fst
  finished_ends : ∀ done ∈ pool.finished, done.2 = ends done.1
  collected_ends : ∀ done ∈ pool.collected, done.2 = ends done.1 ∧ done.2.stop? = none
  stopped_ends : ∀ failure, pool.stopped = some failure → ∃ p ∈ files, (ends p).stop? = some failure

variable {workers : Int} {ends : Path → FileOutcome} {files : List Path} {pool next : Pool}

theorem accounts_submitted : Accounts files ends (submitted files) where
  files_iff := by simp [submitted]
  finished_ends := by simp [submitted]
  collected_ends := by simp [submitted]
  stopped_ends := by simp [submitted]

theorem Step.accounts (hstep : Step workers ends pool next) (h : Accounts files ends pool) :
    Accounts files ends next := by
  obtain ⟨hfiles, hfinished, hcollected, -⟩ := h
  cases hstep with
  | start free =>
    refine ⟨?_, hfinished, hcollected, by simp⟩
    intro _ p
    rw [hfiles rfl]
    simp only [List.mem_cons, List.mem_append, List.not_mem_nil, or_false]
    tauto
  | finish =>
    refine ⟨?_, ?_, hcollected, by simp⟩
    · intro _ p
      rw [hfiles rfl]
      simp only [List.mem_cons, List.mem_append, List.map_append, List.map_cons, List.map_nil, List.not_mem_nil,
        or_false]
      tauto
    · intro done hdone
      rcases List.mem_append.mp hdone with hdone | hdone
      · exact hfinished done hdone
      · rw [List.mem_singleton.mp hdone]
  | @collect done _ _ collected before after goes =>
    refine ⟨?_, fun other h => hfinished other (mem_of_mem_others h), ?_, by simp⟩
    · intro _ p
      rw [hfiles rfl]
      simp only [List.mem_cons, List.mem_append, List.map_append, List.map_cons, List.map_nil, List.not_mem_nil,
        or_false]
      tauto
    · intro other hother
      rcases List.mem_append.mp hother with hother | hother
      · exact hcollected other hother
      · rw [List.mem_singleton.mp hother]
        exact ⟨hfinished done (by simp), goes⟩
  | @stop done _ _ collected failure before after stops =>
    have hdone : done.2 = ends done.1 := hfinished done (by simp)
    refine ⟨by simp, fun other h => hfinished other (mem_of_mem_others h), hcollected, ?_⟩
    intro failure' h
    cases h
    refine ⟨done.1, (hfiles rfl done.1).mpr ?_, hdone ▸ stops⟩
    exact .inr (.inr (.inl (List.mem_map_of_mem (by simp))))

theorem Run.accounts (hrun : Run workers ends (submitted files) pool) : Accounts files ends pool := by
  induction hrun with
  | refl => exact accounts_submitted
  | tail _ hstep ih => exact hstep.accounts ih

/-- In a list that says of each key what the function says, the function can be looked up. -/
theorem lookup_of_graph {l : List (Path × FileOutcome)} (h : ∀ done ∈ l, done.2 = ends done.1) {p : Path}
    (hp : p ∈ l.map Prod.fst) : l.lookup p = some (ends p) := by
  induction l with
  | nil => exact absurd hp List.not_mem_nil
  | cons done rest ih =>
    obtain ⟨q, outcome⟩ := done
    by_cases hq : p = q
    · rw [hq, List.lookup_cons_self]
      exact congrArg some (h _ List.mem_cons_self)
    · rw [List.lookup_cons, beq_false_of_ne hq]
      exact ih (fun done hdone => h done (List.mem_cons_of_mem _ hdone)) (by simpa [hq] using hp)

/-- Whatever the order in which files have finished, the result is the same. -/
theorem Accounts.answers (h : Accounts files ends pool) {result : Except Failure Report}
    (hresult : pool.result? files = some result) : Answers files ends result := by
  obtain ⟨hfiles, -, hcollected, hstopped⟩ := h
  unfold result? at hresult
  split at hresult
  next failure =>
    cases hresult
    exact hstopped failure rfl
  next collected =>
    cases hresult
    have hmem (p : Path) (hp : p ∈ files) : p ∈ collected.map Prod.fst := by
      simpa using (hfiles rfl p).mp hp
    constructor
    · intro p hp
      obtain ⟨done, hdone, rfl⟩ := List.mem_map.mp (hmem p hp)
      obtain ⟨hends, hgoes⟩ := hcollected done hdone
      exact hends ▸ hgoes
    · refine congrArg Report.join (List.filterMap_congr ?_)
      intro p hp
      rw [lookup_of_graph (fun done hdone => (hcollected done hdone).1) (hmem p hp), Option.bind_some]
  next => exact absurd hresult (by simp)

theorem run_start_all (waiting running : List Path)
    (hfree : (running.length : Int) + waiting.length ≤ Survey.workerCount workers) :
    Run workers ends ⟨waiting, running, [], [], none⟩ ⟨[], running ++ waiting, [], [], none⟩ := by
  induction waiting generalizing running with
  | nil => rw [List.append_nil]
  | cons p rest ih =>
    rw [List.length_cons] at hfree
    have hrest := ih (running ++ [p]) (by simp only [List.length_append, List.length_singleton]; omega)
    rw [List.append_assoc] at hrest
    exact .head (.start (by omega)) hrest

theorem run_finish_all (workers : Int) {order running : List Path} (hperm : order.Perm running)
    (hgo : ∀ p ∈ order, (ends p).stop? = none) (collected : List (Path × FileOutcome)) :
    Run workers ends ⟨[], running, [], collected, none⟩
      ⟨[], [], [], collected ++ order.map fun p => (p, ends p), none⟩ := by
  induction order generalizing running collected with
  | nil =>
    obtain rfl := hperm.nil_eq
    rw [List.map_nil, List.append_nil]
  | cons p rest ih =>
    obtain ⟨before, after, rfl⟩ := List.append_of_mem (hperm.mem_iff.mp List.mem_cons_self)
    have hothers : rest.Perm (before ++ after) := (hperm.trans List.perm_middle).cons_inv
    have hrest := ih hothers (fun q hq => hgo q (List.mem_cons_of_mem _ hq)) (collected ++ [(p, ends p)])
    rw [List.append_assoc] at hrest
    exact .head (.finish before after) (.head (.collect [] [] (hgo p List.mem_cons_self)) hrest)

/-- With a worker for each file, files can be collected in any order. -/
theorem exists_run_of_perm {order : List Path} (hperm : order.Perm files)
    (hfree : (files.length : Int) ≤ Survey.workerCount workers) (hgo : ∀ p ∈ files, (ends p).stop? = none) :
    ∃ pool, Run workers ends (submitted files) pool ∧ pool.collected = order.map fun p => (p, ends p) := by
  have hstart : Run workers ends (submitted files) ⟨[], files, [], [], none⟩ :=
    run_start_all files [] (by simpa using hfree)
  have hfinish := run_finish_all workers hperm (fun p hp => hgo p (hperm.mem_iff.mp hp)) []
  exact ⟨_, hstart.trans hfinish, rfl⟩

/-- How much there is still to do. -/
def load (pool : Pool) : Nat := 3 * pool.waiting.length + 2 * pool.running.length + pool.finished.length

theorem Step.load_lt (hstep : Step workers ends pool next) : next.load < pool.load := by
  cases hstep <;> simp only [load, List.length_append, List.length_cons, List.length_nil] <;> omega

/-- No work goes on for ever. -/
theorem step_wellFounded (workers : Int) (ends : Path → FileOutcome) :
    WellFounded fun next pool => Step workers ends pool next :=
  Subrelation.wf (fun hstep => hstep.load_lt) (measure load).wf

/-- Work that has no result yet can go on. -/
theorem exists_step (workers : Int) (ends : Path → FileOutcome) (hresult : pool.result? files = none) :
    ∃ next, Step workers ends pool next := by
  obtain ⟨waiting, running, finished, collected, _ | failure⟩ := pool
  · match waiting, running, finished with
    | _, _, done :: rest =>
      cases hstop : done.2.stop? with
      | none => exact ⟨_, .collect [] rest hstop⟩
      | some failure => exact ⟨_, .stop [] rest hstop⟩
    | _, p :: rest, [] => exact ⟨_, .finish [] rest⟩
    | p :: rest, [], [] => exact ⟨_, .start (by simp only [Survey.workerCount, List.length_nil]; omega)⟩
    | [], [], [] => exact absurd hresult (by simp [result?])
  · exact absurd hresult (by simp [result?])

end Pool

namespace Survey

variable (s : Survey) (d : Disk)

/-- One worker that takes up each file when the one before it has been collected. -/
theorem workAll_run {ends : Path → FileOutcome} (hends : ∀ p clocks, (s.work d p clocks).1.outcome = ends p)
    (workers : Int) (waiting : List Path) (clocks : Clocks) (collected : List (Path × FileOutcome)) :
    ∃ pool, Pool.Run workers ends ⟨waiting, [], [], collected, none⟩ pool ∧
      match (s.workAll d waiting clocks).2 with
      | some failure => pool.stopped = some failure
      | none => pool = ⟨[], [], [],
          collected ++ (s.workAll d waiting clocks).1.map (fun t => (t.path, t.outcome)), none⟩ := by
  induction waiting generalizing clocks collected with
  | nil => exact ⟨_, .refl, by simp [workAll]⟩
  | cons p rest ih =>
    have hdone : Pool.Run workers ends ⟨p :: rest, [], [], collected, none⟩
        ⟨rest, [], [(p, ends p)], collected, none⟩ := by
      refine (Relation.ReflTransGen.single (.start ?_)).tail (.finish [] [])
      simp only [workerCount, List.length_nil]
      omega
    rw [workAll_cons, hends]
    cases hstop : (ends p).stop? with
    | some failure => exact ⟨_, hdone.tail (.stop [] [] hstop), rfl⟩
    | none =>
      obtain ⟨pool, hrest, hpool⟩ := ih (s.work d p clocks).2 (collected ++ [(p, ends p)])
      refine ⟨pool, (hdone.tail (.collect [] [] hstop)).trans hrest, ?_⟩
      simp only [List.map_cons, hends]
      rw [List.append_assoc] at hpool
      exact hpool

/-- A survey is one of the ways in which workers can share its files. -/
theorem exists_run (h : s.refused? d = none) {ends : Path → FileOutcome}
    (hends : ∀ p clocks, (s.work d p clocks).1.outcome = ends p) (workers : Int) (clocks : Clocks) :
    ∃ pool, Pool.Run workers ends (.submitted (s.files d)) pool ∧
      pool.result? (s.files d) = some (s.run d clocks).outcome := by
  obtain ⟨pool, hrun, hpool⟩ := s.workAll_run d hends workers (s.files d) clocks []
  refine ⟨pool, hrun, ?_⟩
  rw [run_outcome h]
  cases hstop : (s.workAll d (s.files d) clocks).2 with
  | some failure =>
    rw [hstop] at hpool
    obtain ⟨_, _, _, _, _⟩ := pool
    cases hpool
    rfl
  | none =>
    rw [hstop] at hpool
    rw [hpool]
    rfl

theorem run_answers (h : s.refused? d = none) (hb : s.session.budget.maxSeconds = none) (clocks : Clocks) :
    Pool.Answers (s.files d) (fun p => s.session.outcome d p (Path.display s.root p)) (s.run d clocks).outcome := by
  obtain ⟨pool, hrun, hresult⟩ := s.exists_run d h (s.work_outcome d hb) 1 clocks
  exact (Pool.Run.accounts hrun).answers hresult

/-- A survey comes to the same however many work on its files and in whatever order these finish, which may be any order
if there are enough workers. Every way to share the work ends, and it ends with the reports of the files that have one,
joined in the order of their paths; a file that is unreadable or fails does nothing to the others, unless its failure
is one that stops all work. The survey itself is one of these ways, unless its search for files is refused something,
which is then what it ends with; and what becomes of its files does not depend on when they are worked on. -/
theorem run_of_any_completion (hb : s.session.budget.maxSeconds = none) (workers : Int) (clocks : Clocks) :
    (s.files d).Pairwise (fun p q => ¬ q.parts < p.parts) ∧
    (∀ p other, (s.work d p other).1.outcome = (s.work d p clocks).1.outcome) ∧
    (s.refused? d = none →
      ∃ pool, Pool.Run workers (fun p => (s.work d p clocks).1.outcome) (.submitted (s.files d)) pool ∧
        pool.result? (s.files d) = some (s.run d clocks).outcome) ∧
    (∀ r, s.refused? d = some r → (s.run d clocks).outcome = .error r.failure) ∧
    ∀ ends : Path → FileOutcome,
      (WellFounded fun next pool => Pool.Step workers ends pool next) ∧
      (∀ order : List Path, order.Perm (s.files d) → ((s.files d).length : Int) ≤ workerCount workers →
        (∀ p ∈ s.files d, (ends p).stop? = none) →
        ∃ pool, Pool.Run workers ends (.submitted (s.files d)) pool ∧
          pool.collected = order.map fun p => (p, ends p)) ∧
      ∀ pool, Pool.Run workers ends (.submitted (s.files d)) pool →
        (pool.result? (s.files d) = none → ∃ next, Pool.Step workers ends pool next) ∧
        ∀ result, pool.result? (s.files d) = some result → Pool.Answers (s.files d) ends result := by
  have htimeless (p : Path) (other : Clocks) : (s.work d p other).1.outcome = (s.work d p clocks).1.outcome :=
    (s.work_outcome d hb p other).trans (s.work_outcome d hb p clocks).symm
  refine ⟨files_sorted, htimeless, fun h => s.exists_run d h htimeless workers clocks, ?_, ?_⟩
  · intro r h
    rw [run_of_refused h]
  intro ends
  refine ⟨Pool.step_wellFounded workers ends, fun order => Pool.exists_run_of_perm, ?_⟩
  intro pool hrun
  exact ⟨Pool.exists_step workers ends, fun result => (Pool.Run.accounts hrun).answers⟩

/-- Three files, of which the first is no UTF-8. -/
def letters : List (Place × Node) := [(["c"], .file [97]), (["b"], .file [97, 10]), (["a"], .file [97, 255])]

def lettersDisk : Disk := .planted "d" letters

theorem letters_plantable : Disk.Plantable "d" letters := ⟨by decide, by decide, by decide, by decide, by decide⟩

def lettersSurvey (guess : Bytes → Guess) : Survey :=
  .of ⟨.lettersOf [(.low, none)], .none, guess, Session.standardFileSize, false⟩ ⟨"", ["d"]⟩ ["*"] [] false
    standardDescription

theorem lettersSurvey_refused? (guess : Bytes → Guess) : (lettersSurvey guess).refused? lettersDisk = none :=
  letters_plantable.refused?_eq_none (by simp [letters]) rfl

theorem lettersSurvey_files (guess : Bytes → Guess) :
    (lettersSurvey guess).files lettersDisk = [⟨"", ["d", "a"]⟩, ⟨"", ["d", "b"]⟩, ⟨"", ["d", "c"]⟩] := by
  have htree : lettersDisk.Tree (lettersSurvey guess).root := letters_plantable.isTree
  have hbelow : lettersDisk.below (lettersSurvey guess).root = letters := letters_plantable.below
  have hfile (name : String) (content : Bytes) (he : ([name], .file content) ∈ letters)
      (hglob : (Glob.ofText "*").accepts name.toList = true)
      (hsize : (content.length : Int) ≤ Session.standardFileSize) :
      (∃ node, ([name], node) ∈ letters) ∧ (lettersSurvey guess).Selects lettersDisk [name] := by
    refine ⟨⟨_, he⟩, (selects_file_iff _ htree (lettersSurvey_refused? guess) (hbelow.symm ▸ he)).mpr ?_⟩
    exact ⟨⟨"*", List.mem_singleton_self _, hglob⟩, by simp, hsize⟩
  refine files_eq_of_increasing _ htree (lettersSurvey_refused? guess) (l := [["a"], ["b"], ["c"]]) (by decide) ?_
  intro names
  rw [hbelow]
  constructor
  · intro hnames
    simp only [List.mem_cons, List.not_mem_nil, or_false] at hnames
    rcases hnames with rfl | rfl | rfl
    · exact hfile "a" [97, 255] (by decide) (by decide) (by decide)
    · exact hfile "b" [97, 10] (by decide) (by decide) (by decide)
    · exact hfile "c" [97] (by decide) (by decide) (by decide)
  · rintro ⟨⟨node, hnode⟩, _⟩
    simp only [letters, List.mem_cons, List.not_mem_nil, or_false, Prod.mk.injEq] at hnode
    rcases hnode with ⟨rfl, _⟩ | ⟨rfl, _⟩ | ⟨rfl, _⟩
    all_goals decide

/-- A guess that always fails. -/
def noGuess (_ : Bytes) : Guess := .failed ⟨"RuntimeError", "boom"⟩

/-- The first of three files fails, and three workers may finish them in any order. -/
theorem run_of_any_completion_of_failing_file :
    (lettersSurvey noGuess).session.budget.maxSeconds = none ∧
    (lettersSurvey noGuess).files lettersDisk = [⟨"", ["d", "a"]⟩, ⟨"", ["d", "b"]⟩, ⟨"", ["d", "c"]⟩] ∧
    ((lettersSurvey noGuess).work lettersDisk ⟨"", ["d", "a"]⟩ ⟨.ofReadings [], .ofReadings []⟩).1.outcome =
      .failed ⟨"RuntimeError", "boom"⟩ ∧
    ((lettersSurvey noGuess).files lettersDisk).Pairwise (fun p q => ¬ q.parts < p.parts) ∧
    (∀ p other, ((lettersSurvey noGuess).work lettersDisk p other).1.outcome =
      ((lettersSurvey noGuess).work lettersDisk p ⟨.ofReadings [], .ofReadings []⟩).1.outcome) ∧
    (∃ pool, Pool.Run 3
        (fun p => ((lettersSurvey noGuess).work lettersDisk p ⟨.ofReadings [], .ofReadings []⟩).1.outcome)
        (.submitted ((lettersSurvey noGuess).files lettersDisk)) pool ∧
      pool.result? ((lettersSurvey noGuess).files lettersDisk) =
        some ((lettersSurvey noGuess).run lettersDisk ⟨.ofReadings [], .ofReadings []⟩).outcome) ∧
    ∀ ends : Path → FileOutcome,
      (WellFounded fun next pool => Pool.Step 3 ends pool next) ∧
      (∀ order : List Path, order.Perm ((lettersSurvey noGuess).files lettersDisk) →
        (((lettersSurvey noGuess).files lettersDisk).length : Int) ≤ workerCount 3 →
        (∀ p ∈ (lettersSurvey noGuess).files lettersDisk, (ends p).stop? = none) →
        ∃ pool, Pool.Run 3 ends (.submitted ((lettersSurvey noGuess).files lettersDisk)) pool ∧
          pool.collected = order.map fun p => (p, ends p)) ∧
      ∀ pool, Pool.Run 3 ends (.submitted ((lettersSurvey noGuess).files lettersDisk)) pool →
        (pool.result? ((lettersSurvey noGuess).files lettersDisk) = none → ∃ next, Pool.Step 3 ends pool next) ∧
        ∀ result, pool.result? ((lettersSurvey noGuess).files lettersDisk) = some result →
          Pool.Answers ((lettersSurvey noGuess).files lettersDisk) ends result := by
  have htext : lettersDisk.text noGuess readLimit ⟨"", ["d", "a"]⟩ = .error ⟨"RuntimeError", "boom"⟩ := by
    have hfile : (["a"], .file [97, 255]) ∈ letters := by decide
    have hread : lettersDisk.read ⟨"", ["d", "a"]⟩ = .ok [97, 255] := letters_plantable.read_file hfile
    simp only [Disk.text, hread]
    decide
  have hfails : ((lettersSurvey noGuess).work lettersDisk ⟨"", ["d", "a"]⟩ ⟨.ofReadings [], .ofReadings []⟩).1.outcome =
      .failed ⟨"RuntimeError", "boom"⟩ := by
    rw [work_outcome _ _ rfl]
    simp only [Session.outcome, lettersSurvey, of, htext]
  obtain ⟨hsorted, htimeless, hshared, -, hany⟩ := run_of_any_completion (lettersSurvey noGuess) lettersDisk rfl 3
    ⟨.ofReadings [], .ofReadings []⟩
  exact ⟨rfl, lettersSurvey_files noGuess, hfails, hsorted, htimeless, hshared (lettersSurvey_refused? noGuess), hany⟩

end Survey

end ScriptAudit
