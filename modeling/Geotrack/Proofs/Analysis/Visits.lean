import Geotrack.Analysis.Batch
import Geotrack.Proofs.Analysis.Effect

/-!
# The visits of a batch

A batch visits the active configurations of its jobs one by one. `Batch.visits` keeps what became of
each; `Batch.exec_run` says that a batch leaves the stores as its visits do and that its tally is
the count of them.
-/

namespace Geotrack

theorem Run.exec_then {σ α β : Type} (responder : Responder σ) (r : Run α) (f : α → Run β) (s : σ) :
    (r >>= f).exec responder s =
      (f (r.exec responder s).1).exec responder (r.exec responder s).2 :=
  exec_bind responder r f s

theorem Run.exec_pure {σ α : Type} (responder : Responder σ) (a : α) (s : σ) :
    (pure a : Run α).exec responder s = (a, s) := rfl

theorem Run.exec_map {σ α β : Type} (responder : Responder σ) (f : α → β) (r : Run α) (s : σ) :
    (f <$> r).exec responder s = (f (r.exec responder s).1, (r.exec responder s).2) :=
  exec_bind responder r (fun a => .done (f a)) s

/-- The active configurations of a job with its subject, if that is active. -/
def Job.pairs (job : Job) : List (Subject × AnalyzerConfig) :=
  if job.subject.active then (job.configs.filter (·.active)).map (job.subject, ·) else []

namespace Batch

/-- What became of a configuration when it was visited. -/
inductive Visit where
  /-- No analyzer could be made of it. -/
  | unbuilt (e : AnalysisError)
  /-- It paused. -/
  | skipped (a : Analyzer)
  | ran (a : Analyzer) (result : Except AnalysisError (List Outcome))

namespace Visit

def isSkip : Visit → Bool
  | .skipped _ => true
  | _ => false

def isRun : Visit → Bool
  | .ran .. => true
  | _ => false

/-- Whether the analyzer ran and its run ended in an error. -/
def isFailedRun : Visit → Bool
  | .ran _ (.error _) => true
  | _ => false

/-- Why no analyzer could be made, or the error that the run ended in. -/
def error? : Visit → Option AnalysisError
  | .unbuilt e | .ran _ (.error e) => some e
  | _ => none

/-- What the run returned, unless it ended in an error. -/
def outcomes : Visit → List Outcome
  | .ran _ (.ok outcomes) => outcomes
  | _ => []

/-- The events that were published. -/
def events : Visit → List Event
  | .ran _ (.ok outcomes) => outcomes.filterMap (·.event)
  | _ => []

theorem events_eq (x : Visit) : x.events = x.outcomes.filterMap (·.event) := by
  match x with
  | .unbuilt _ | .skipped _ | .ran _ (.error _) | .ran _ (.ok _) => rfl

end Visit

end Batch

namespace Tally

/-- Counts a visit. -/
def count (t : Tally) : Batch.Visit → Tally
  | .unbuilt e => t.countError e
  | .skipped _ => { t with quietSkipped := t.quietSkipped + 1 }
  | .ran _ result => t.countRun result

/-- What is counted at visits. -/
def ofVisits (t : Tally) : Tally := { t with subjects := 0, cancelled := false }

theorem countError_eq (t : Tally) (e : AnalysisError) :
    t.countError e =
      { t with
        insufficientData := t.insufficientData + e.isShortage.toNat
        failures := t.failures + (!e.isShortage).toNat } := by
  unfold countError
  cases e.isShortage <;> rfl

theorem count_eq (t : Tally) (x : Batch.Visit) :
    t.count x =
      { t with
        analyzersRun := t.analyzersRun + x.isRun.toNat
        quietSkipped := t.quietSkipped + x.isSkip.toNat
        insufficientData := t.insufficientData + (x.error?.any (·.isShortage)).toNat
        failures := t.failures + (x.error?.any (!·.isShortage)).toNat
        results := t.results + x.outcomes.length
        events := t.events + x.events.length } := by
  match x with
  | .unbuilt e =>
    rw [count, countError_eq]
    rfl
  | .skipped a => rfl
  | .ran a (.error e) =>
    rw [count, countRun, countError_eq]
    rfl
  | .ran a (.ok outcomes) =>
    rw [Batch.Visit.events_eq, List.length_filterMap_eq_countP, List.countP_eq_length_filter]
    rfl

/-- The count of visits by what became of them. -/
theorem foldl_count (t : Tally) (xs : List Batch.Visit) :
    xs.foldl count t =
      { t with
        analyzersRun := t.analyzersRun + xs.countP (·.isRun)
        quietSkipped := t.quietSkipped + xs.countP (·.isSkip)
        insufficientData := t.insufficientData + (xs.filterMap (·.error?)).countP (·.isShortage)
        failures := t.failures + (xs.filterMap (·.error?)).countP (!·.isShortage)
        results := t.results + (xs.flatMap (·.outcomes)).length
        events := t.events + (xs.flatMap (·.events)).length } := by
  induction xs generalizing t with
  | nil => rfl
  | cons x xs ih =>
    rw [List.foldl_cons, ih, count_eq]
    have hone (b : Bool) : (if b = true then 1 else 0) = b.toNat := by cases b <;> rfl
    cases he : x.error? <;>
      simp only [List.countP_cons, List.filterMap_cons, List.flatMap_cons, List.length_append, he,
        hone, Option.any_none, Option.any_some, Bool.toNat_false, Nat.add_assoc, Nat.add_comm,
        Nat.add_left_comm, Nat.add_zero]

theorem subjects_foldl_count (t : Tally) (xs : List Batch.Visit) :
    (xs.foldl count t).subjects = t.subjects := by
  rw [foldl_count]

end Tally

namespace Batch

variable (settings : Settings) (cancelled : Nat → Bool)

/-- Visits one configuration for an active subject. -/
def visit (subject : Subject) (config : AnalyzerConfig) : Run Visit :=
  match Analyzer.ofConfig subject config settings.context with
  | .error e => pure (.unbuilt e)
  | .ok a => do
    if ← a.isQuiet then return .skipped a
    else return .ran a (← (a.run none (settings.filter subject)).run)

/-- Visits the active configurations of a job, if its subject is active. -/
def visitJob (job : Job) : Run (List Visit) :=
  if job.subject.active then (job.configs.filter (·.active)).mapM (visit settings job.subject)
  else pure []

/-- The visits of a batch that has done `n` jobs already. -/
def visits : List Job → Nat → Run (List Visit)
  | [], _ => pure []
  | job :: rest, n =>
    if cancelled n then pure []
    else do
      let own ← visitJob settings job
      let later ← visits rest (n + 1)
      return own ++ later

/-- Visits configurations in turn, each for its subject. -/
def visitAll (pairs : List (Subject × AnalyzerConfig)) : Run (List Visit) :=
  pairs.mapM fun p => visit settings p.1 p.2

/-- How many of some jobs are done before the batch is cancelled, if `n` were done already. -/
def turns : List Job → Nat → Nat
  | [], _ => 0
  | _ :: rest, n => if cancelled n then 0 else turns rest (n + 1) + 1

variable {settings cancelled}

theorem runConfig_eq (subject : Subject) (t : Tally) (config : AnalyzerConfig) :
    runConfig settings subject t config = t.count <$> visit settings subject config := by
  unfold runConfig visit
  cases Analyzer.ofConfig subject config settings.context with
  | error e => rfl
  | ok a =>
    simp only [map_bind]
    congr 1
    funext quiet
    cases quiet <;> simp [Tally.count]

theorem foldlM_runConfig (subject : Subject) (t : Tally) (configs : List AnalyzerConfig) :
    configs.foldlM (runConfig settings subject) t =
      (·.foldl Tally.count t) <$> configs.mapM (visit settings subject) := by
  induction configs generalizing t with
  | nil => simp
  | cons config configs ih => simp [runConfig_eq, ih]

/-- Running a job counts the visits of the job and the subject. -/
theorem runJob_eq (t : Tally) (job : Job) :
    runJob settings t job =
      (fun xs => { xs.foldl Tally.count t with subjects := t.subjects + 1 }) <$>
        visitJob settings job := by
  unfold runJob visitJob
  split
  · simp [foldlM_runConfig, Tally.subjects_foldl_count]
  · simp

theorem visitJob_eq (job : Job) : visitJob settings job = visitAll settings job.pairs := by
  unfold visitJob visitAll Job.pairs
  split
  · rw [List.mapM_map]
    rfl
  · rfl

/-- A batch visits the configurations of the jobs before its cancellation. -/
theorem visits_eq (jobs : List Job) (n : Nat) :
    visits settings cancelled jobs n =
      visitAll settings ((jobs.take (turns cancelled jobs n)).flatMap Job.pairs) := by
  induction jobs generalizing n with
  | nil => rfl
  | cons job rest ih =>
    unfold visits turns
    split
    · rfl
    · rw [List.take_succ_cons, List.flatMap_cons, visitJob_eq, ih]
      exact List.mapM_append.symm

section Executed

variable {σ : Type} (responder : Responder σ)

theorem exec_visitAll_append (before after : List (Subject × AnalyzerConfig)) (s : σ) :
    (visitAll settings (before ++ after)).exec responder s =
      let earlier := (visitAll settings before).exec responder s
      let later := (visitAll settings after).exec responder earlier.2
      (earlier.1 ++ later.1, later.2) := by
  unfold visitAll
  rw [List.mapM_append, Run.exec_then, Run.exec_then]
  rfl

/-- A batch leaves the stores as the visits before its cancellation do. It counts these and the jobs
before, and reports the beginning and the end of each. -/
theorem exec_runJobs (jobs : List Job) (t : Tally) (s : σ) :
    let done := jobs.take (turns cancelled jobs t.subjects)
    let visited := (visitAll settings (done.flatMap Job.pairs)).exec responder s
    (runJobs settings cancelled jobs t).exec responder s =
      (({ visited.1.foldl Tally.count t with
          subjects := t.subjects + turns cancelled jobs t.subjects
          cancelled := t.cancelled || turns cancelled jobs t.subjects < jobs.length },
        done.flatMap fun job => [.message job.subject.name, .advance 1]), visited.2) := by
  induction jobs generalizing t s with
  | nil => simp [runJobs, turns, visitAll, Run.exec_pure]
  | cons job rest ih =>
    unfold runJobs turns
    split
    · simp [visitAll, Run.exec_pure]
    · simp only [List.take_succ_cons, List.flatMap_cons, exec_visitAll_append, runJob_eq,
        visitJob_eq, Run.exec_then, Run.exec_map, Run.exec_pure, ih, List.foldl_append,
        Tally.foldl_count, List.length_cons, Nat.add_lt_add_iff_right, Nat.add_assoc,
        Nat.add_comm 1]
      rfl

/-- A batch over jobs that have not begun. -/
theorem exec_run_eq (jobs : List Job) (s : σ) :
    let done := jobs.take (turns cancelled jobs 0)
    let visited := (visitAll settings (done.flatMap Job.pairs)).exec responder s
    let tally : Tally :=
      { visited.1.foldl Tally.count {} with
        subjects := turns cancelled jobs 0
        cancelled := turns cancelled jobs 0 < jobs.length }
    (run settings cancelled jobs).exec responder s =
      ((tally, .total jobs.length ::
        (done.flatMap fun job => [.message job.subject.name, .advance 1]) ++
          [.finish tally.summary]), visited.2) := by
  unfold run
  rw [Run.exec_then, exec_runJobs]
  simp [Run.exec_pure]

/-- A batch leaves the stores as its visits do, and counts them. -/
theorem exec_run (jobs : List Job) (s : σ) :
    ((run settings cancelled jobs).exec responder s).1.1.ofVisits =
      ((visits settings cancelled jobs 0).exec responder s).1.foldl Tally.count {} ∧
    ((run settings cancelled jobs).exec responder s).2 =
      ((visits settings cancelled jobs 0).exec responder s).2 := by
  rw [exec_run_eq, visits_eq]
  refine ⟨?_, rfl⟩
  simp only [Tally.ofVisits, Tally.foldl_count]

end Executed

/-! ### What a visit does -/

/-- To ask whether an analyzer pauses is to make one call, if it pauses at all. -/
theorem exec_isQuiet_left {σ : Type} (responder : Responder σ) (a : Analyzer) (s : σ) :
    (a.isQuiet.exec responder s).2 = s ∨
      (a.isQuiet.exec responder s).2 =
        (responder.answer (.isQuiet (quietKey a.config.id a.subject.id)) s).2 := by
  unfold Analyzer.isQuiet
  cases a.config.quietPeriod with
  | none => exact .inl rfl
  | some length =>
    refine .inr ?_
    have called : (Run.call (.isQuiet (quietKey a.config.id a.subject.id))).exec responder s =
        responder.answer (.isQuiet (quietKey a.config.id a.subject.id)) s := rfl
    rw [Run.exec_then, called]
    cases (responder.answer (.isQuiet (quietKey a.config.id a.subject.id)) s).1 <;> rfl

section Visited

variable {σ : Type} {responder : Responder σ} {subject : Subject} {config : AnalyzerConfig}
  {a : Analyzer} {s : σ}

/-- An analyzer is asked whether it pauses, and runs if it does not. -/
theorem exec_visit (made : Analyzer.ofConfig subject config settings.context = .ok a) :
    (visit settings subject config).exec responder s =
      let asked := a.isQuiet.exec responder s
      let ran := (a.run none (settings.filter subject)).exec responder asked.2
      if asked.1 then (.skipped a, asked.2) else (.ran a ran.1, ran.2) := by
  unfold visit
  rw [made]
  dsimp only
  rw [Run.exec_then]
  cases (a.isQuiet.exec responder s).1 with
  | true => rfl
  | false =>
    rw [if_neg Bool.false_ne_true, if_neg Bool.false_ne_true, Run.exec_then]
    rfl

theorem exec_visit_unbuilt {e : AnalysisError}
    (made : Analyzer.ofConfig subject config settings.context = .error e) :
    (visit settings subject config).exec responder s = (.unbuilt e, s) := by
  unfold visit
  rw [made]
  rfl

theorem exec_visitAll_cons (p : Subject × AnalyzerConfig) (pairs : List (Subject × AnalyzerConfig))
    (s : σ) :
    (visitAll settings (p :: pairs)).exec responder s =
      let own := (visit settings p.1 p.2).exec responder s
      let later := (visitAll settings pairs).exec responder own.2
      (own.1 :: later.1, later.2) := by
  unfold visitAll
  rw [List.mapM_cons, Run.exec_then, Run.exec_then]
  rfl

end Visited

/-! ### What visits preserve -/

section Preserved

variable {σ : Type} {responder : Responder σ} (kept : List Visit → σ → Prop)

theorem kept_append_mapM {subject : Subject} {configs : List AnalyzerConfig}
    (each : ∀ config ∈ configs, ∀ xs s, kept xs s →
      kept (xs ++ [((visit settings subject config).exec responder s).1])
        ((visit settings subject config).exec responder s).2)
    {xs : List Visit} {s : σ} (h : kept xs s) :
    kept (xs ++ ((configs.mapM (visit settings subject)).exec responder s).1)
      ((configs.mapM (visit settings subject)).exec responder s).2 := by
  induction configs generalizing xs s with
  | nil => simpa [Run.exec_pure] using h
  | cons config configs ih =>
    have hrest := ih (fun c hc => each c (List.mem_cons_of_mem _ hc))
      (each config List.mem_cons_self xs s h)
    rw [List.append_assoc] at hrest
    rw [List.mapM_cons, Run.exec_then, Run.exec_then]
    exact hrest

theorem kept_append_visits {jobs : List Job}
    (each : ∀ job ∈ jobs, ∀ config ∈ job.configs, ∀ xs s, kept xs s →
      kept (xs ++ [((visit settings job.subject config).exec responder s).1])
        ((visit settings job.subject config).exec responder s).2)
    {n : Nat} {xs : List Visit} {s : σ} (h : kept xs s) :
    kept (xs ++ ((visits settings cancelled jobs n).exec responder s).1)
      ((visits settings cancelled jobs n).exec responder s).2 := by
  induction jobs generalizing n xs s with
  | nil => simpa [visits, Run.exec_pure] using h
  | cons job rest ih =>
    have hown : kept (xs ++ ((visitJob settings job).exec responder s).1)
        ((visitJob settings job).exec responder s).2 := by
      unfold visitJob
      split
      · refine kept_append_mapM kept (fun config hconfig => ?_) h
        exact each job List.mem_cons_self config (List.mem_filter.mp hconfig).1
      · simpa [Run.exec_pure] using h
    unfold visits
    split
    · simpa [Run.exec_pure] using h
    · have hrest := ih (n := n + 1) (fun j hj => each j (List.mem_cons_of_mem _ hj)) hown
      rw [List.append_assoc] at hrest
      rw [Run.exec_then, Run.exec_then]
      exact hrest

/-- What each visit preserves a batch preserves. -/
theorem kept_visits {jobs : List Job}
    (each : ∀ job ∈ jobs, ∀ config ∈ job.configs, ∀ xs s, kept xs s →
      kept (xs ++ [((visit settings job.subject config).exec responder s).1])
        ((visit settings job.subject config).exec responder s).2)
    {n : Nat} {s : σ} (h : kept [] s) :
    kept ((visits settings cancelled jobs n).exec responder s).1
      ((visits settings cancelled jobs n).exec responder s).2 :=
  kept_append_visits kept each h

end Preserved

end Batch

end Geotrack
