import Geotrack.Command.Execute
import Geotrack.Proofs.Analysis.Accounts
import Geotrack.Proofs.Analysis.Quiet

/-!
# Dry runs

A dry run tries to make every analyzer that a plan asks for. A batch makes only those of active
configurations for active subjects. Of these the dry run reports as errors just the ones whose
making the batch counts as a failure: `Command.execute_dryRun`.
-/

namespace Geotrack

/-! ### Why an analyzer cannot be made -/

/-- Whether something fails only because it is not set up right. -/
def FailsAtSetup {α : Type} (x : Except AnalysisError α) : Prop :=
  ∀ e, x = .error e → e.stage = .setup

namespace FailsAtSetup

variable {α β : Type}

theorem ok (a : α) : FailsAtSetup (.ok a) := nofun

theorem configuration (cause : ConfigurationError) :
    FailsAtSetup (.error (.configuration cause) : Except AnalysisError α) := by
  rintro _ ⟨⟩
  rfl

theorem geometry (x : Except (FeatureError Float) α) :
    FailsAtSetup (x.mapError AnalysisError.geometry) := by
  cases x with
  | error cause =>
    rintro _ ⟨⟩
    rfl
  | ok a => exact ok a

theorem bind {x : Except AnalysisError α} {f : α → Except AnalysisError β} (hx : FailsAtSetup x)
    (hf : ∀ a, FailsAtSetup (f a)) : FailsAtSetup (x >>= f) := by
  cases x with
  | error e =>
    rintro _ ⟨⟩
    exact hx e rfl
  | ok a => exact hf a

theorem group (catalog : Catalog) (name : String) : FailsAtSetup (catalog.group name) := by
  unfold Catalog.group
  split
  · exact ok _
  · exact configuration _

theorem optionalGroup (catalog : Catalog) (name : Option String) :
    FailsAtSetup (catalog.optionalGroup name) := by
  cases name with
  | none => exact ok []
  | some name => exact group catalog name

theorem forSubject (subject : Subject) (config : AnalyzerConfig) (task : Task)
    (h : task.kind = config.kind) : FailsAtSetup (Analyzer.forSubject subject config task h) := by
  unfold Analyzer.forSubject
  split
  · exact ok _
  · exact configuration _

theorem fencesOf (catalog : Catalog) (settings : GeofenceSettings) :
    FailsAtSetup (Analyzer.fencesOf catalog settings) :=
  (optionalGroup catalog _).bind fun _ => (geometry _).bind fun _ =>
    (optionalGroup catalog _).bind fun _ => (geometry _).bind fun _ => ok _

theorem regionsOf (catalog : Catalog) (settings : GeofenceSettings) :
    FailsAtSetup (Analyzer.regionsOf catalog settings) :=
  (optionalGroup catalog _).bind fun _ => geometry _

/-- No analyzer is made only where it is not set up right. -/
theorem ofConfig (subject : Subject) (config : AnalyzerConfig) (context : Analyzer.Context) :
    FailsAtSetup (Analyzer.ofConfig subject config context) := by
  unfold Analyzer.ofConfig
  split
  case h_1 =>
    unfold Analyzer.geofence
    split
    · exact (fencesOf _ _).bind fun _ => (regionsOf _ _).bind fun _ => forSubject _ _ _ _
    · exact configuration _
  case h_2 =>
    unfold Analyzer.immobility
    split
    · exact forSubject _ _ _ _
    · exact configuration _
  case h_3 =>
    unfold Analyzer.proximity
    split
    · exact (group _ _).bind fun _ => forSubject _ _ _ _
    · exact configuration _
  case h_4 =>
    split
    · unfold Analyzer.environmental
      split
      · exact forSubject _ _ _ _
      · exact configuration _
    · exact configuration _

end FailsAtSetup

theorem AnalysisError.isShortage_of_setup {e : AnalysisError} (h : e.stage = .setup) :
    e.isShortage = false := by
  cases e with
  | configuration cause => rfl
  | geometry cause => rfl
  | call stage cause => rfl
  | shortage cause => cases h
  | statistic cause => cases h

/-! ### Trials -/

/-- What a job asks for, each with the subject. -/
def Job.entries (job : Job) : List (Subject × AnalyzerConfig) := job.configs.map (job.subject, ·)

/-- Whether a subject and a configuration are both active. -/
def isWatched (entry : Subject × AnalyzerConfig) : Bool := entry.1.active && entry.2.active

theorem Job.pairs_eq (job : Job) : job.pairs = job.entries.filter isWatched := by
  unfold pairs entries
  rw [List.filter_map]
  cases hactive : job.subject.active with
  | true => simp [Function.comp_def, isWatched, hactive]
  | false => simp [Function.comp_def, isWatched, hactive]

theorem flatMap_pairs (jobs : List Job) :
    jobs.flatMap Job.pairs = (jobs.flatMap Job.entries).filter isWatched := by
  rw [List.filter_flatMap]
  exact congrArg (jobs.flatMap ·) (funext Job.pairs_eq)

namespace Trial

variable {settings : Batch.Settings} {context : Analyzer.Context}

/-- What is tried. -/
def entry (t : Trial) : Subject × AnalyzerConfig := (t.subject, t.config)

/-- What some trials report as errors. -/
def troubled (trials : List Trial) : List (Subject × AnalyzerConfig) :=
  (trials.filter (·.problem.isSome)).map entry

theorem attempt_entry (p : Subject × AnalyzerConfig) : (attempt context p.1 p.2).entry = p := by
  unfold attempt
  split <;> rfl

theorem attempt_problem (p : Subject × AnalyzerConfig) :
    (attempt settings.context p.1 p.2).problem.isSome = Batch.unbuildable settings p := by
  unfold attempt Batch.unbuildable
  cases Analyzer.ofConfig p.1 p.2 settings.context <;> rfl

/-- The line of a trial is that of an error just where there is one. -/
theorem report_error_iff (t : Trial) :
    (∃ rest, t.report = "error " ++ rest) ↔ t.problem.isSome := by
  unfold report
  cases t.problem with
  | some e => simp [String.append_assoc]
  | none =>
    simp only [Option.isSome_none, Bool.false_eq_true, iff_false]
    rintro ⟨rest, same⟩
    have := congrArg String.toList same
    simp at this

theorem rehearse_eq (jobs : List Job) : rehearse context jobs =
    (jobs.flatMap Job.entries).map fun p => attempt context p.1 p.2 := by
  simp only [rehearse, Job.entries, List.map_flatMap, List.map_map]
  rfl

theorem map_entry_rehearse (jobs : List Job) :
    (rehearse context jobs).map entry = jobs.flatMap Job.entries := by
  rw [rehearse_eq, List.map_map]
  exact (List.map_congr_left fun p _ => attempt_entry p).trans (List.map_id _)

/-- What is tried and active is what a batch visits. -/
theorem map_entry_watched (context : Analyzer.Context) (jobs : List Job) :
    ((rehearse context jobs).filter (isWatched ·.entry)).map entry = jobs.flatMap Job.pairs := by
  rw [flatMap_pairs, ← map_entry_rehearse, List.filter_map]
  rfl

/-- The trials of what is active fail where a batch cannot make the analyzer. -/
theorem troubled_watched (settings : Batch.Settings) (jobs : List Job) :
    troubled ((rehearse settings.context jobs).filter (isWatched ·.entry)) =
      (jobs.flatMap Job.pairs).filter (Batch.unbuildable settings) := by
  rw [troubled, rehearse_eq, flatMap_pairs, List.filter_map, List.filter_map, List.map_map]
  simp only [Function.comp_def, attempt_entry, attempt_problem, List.map_id']

/-- No analyzer is made for an inactive subject. -/
theorem problem_of_inactive {jobs : List Job} {t : Trial} (ht : t ∈ rehearse context jobs)
    (inactive : t.subject.active = false) : t.problem.isSome = true := by
  rw [rehearse_eq] at ht
  obtain ⟨p, -, rfl⟩ := List.mem_map.mp ht
  have subject : (attempt context p.1 p.2).subject = p.1 := congrArg Prod.fst (attempt_entry p)
  rw [subject] at inactive
  unfold attempt
  cases made : Analyzer.ofConfig p.1 p.2 context with
  | error e => rfl
  | ok a =>
    have active := a.active
    rw [(Analyzer.ofConfig_ok made).1, inactive] at active
    cases active

end Trial

/-! ### Visits -/

namespace Batch

variable {settings : Settings} {σ : Type} {responder : Responder σ}

/-- Why no analyzer could be made. -/
def Visit.setupError? : Visit → Option AnalysisError
  | .unbuilt e => some e
  | _ => none

/-- Whether the analyzer ran and its run failed, for all that there were enough data. -/
def Visit.isFault : Visit → Bool
  | .ran _ (.error e) => !e.isShortage
  | _ => false

/-- What a batch cannot make analyzers of, as it finds out when it visits them. -/
def unmade (settings : Settings) (responder : Responder σ) (jobs : List Job) (s : σ) :
    List (Subject × AnalyzerConfig) :=
  let pairs := jobs.flatMap Job.pairs
  let visits := ((visitAll settings pairs).exec responder s).1
  ((pairs.zip visits).filter (·.2.setupError?.isSome)).map (·.1)

theorem Visit.Of.setupError? {p : Subject × AnalyzerConfig} {x : Visit} (h : x.Of settings p) :
    x.setupError?.isSome = unbuildable settings p := by
  unfold unbuildable
  match x, h with
  | .unbuilt e, (made : _ = _) | .skipped a, (made : _ = _) | .ran a _, (made : _ = _) =>
    rw [made]
    rfl

/-- A visit counts as a failure where no analyzer is made and where the run fails. -/
theorem Visit.Of.failure {p : Subject × AnalyzerConfig} {x : Visit} (h : x.Of settings p) :
    (x.error?.any (!·.isShortage)).toNat = (unbuildable settings p).toNat + x.isFault.toNat := by
  unfold unbuildable
  match x, h with
  | .unbuilt e, (made : _ = _) =>
    have enough : e.isShortage = false :=
      AnalysisError.isShortage_of_setup (FailsAtSetup.ofConfig _ _ _ e made)
    rw [made]
    simp [error?, isFault, enough, Except.isOk, Except.toBool]
  | .skipped a, (made : _ = _) | .ran a (.error _), (made : _ = _)
  | .ran a (.ok _), (made : _ = _) =>
    rw [made]
    simp [error?, isFault, Except.isOk, Except.toBool]

theorem filter_zip_of {pairs : List (Subject × AnalyzerConfig)} {xs : List Visit}
    (h : List.Forall₂ (Visit.Of settings) pairs xs) :
    ((pairs.zip xs).filter (·.2.setupError?.isSome)).map (·.1) =
      pairs.filter (unbuildable settings) := by
  induction h with
  | nil => rfl
  | cons of _ ih =>
    simp only [List.zip_cons_cons, List.filter_cons, of.setupError?]
    split
    · rw [List.map_cons, ih]
    · exact ih

theorem failures_of {pairs : List (Subject × AnalyzerConfig)} {xs : List Visit}
    (h : List.Forall₂ (Visit.Of settings) pairs xs) :
    (xs.filterMap (·.error?)).countP (!·.isShortage) =
      pairs.countP (unbuildable settings) + xs.countP (·.isFault) := by
  have fails (x : Visit) : (x.error?.map (!·.isShortage)).getD false =
      x.error?.any (!·.isShortage) := by cases x.error? <;> rfl
  simp only [List.countP_filterMap, fails]
  induction h with
  | nil => rfl
  | cons of _ ih =>
    have one := of.failure
    simp only [countP_cons_toNat]
    omega

theorem unmade_eq (jobs : List Job) (s : σ) : unmade settings responder jobs s =
    (jobs.flatMap Job.pairs).filter (unbuildable settings) :=
  filter_zip_of (forall₂_visitAll _ s)

/-- A batch counts its visits. Its failures are those to make an analyzer, and faults of its
runs. -/
theorem counted_run (settings : Settings) (responder : Responder σ) (jobs : List Job) (s : σ) :
    let visits := ((visitAll settings (jobs.flatMap Job.pairs)).exec responder s).1
    let tally := ((run settings (fun _ => false) jobs).exec responder s).1.1
    tally.ofVisits = visits.foldl Tally.count {} ∧
      tally.failures = (unmade settings responder jobs s).length + visits.countP (·.isFault) := by
  intro visits tally
  have counted : tally.ofVisits =
      ((Batch.visits settings (fun _ => false) jobs 0).exec responder s).1.foldl Tally.count {} :=
    (exec_run responder jobs s).1
  rw [visits_eq, turns_never, List.take_length] at counted
  refine ⟨counted, ?_⟩
  have failures : tally.failures = (visits.foldl Tally.count {}).failures :=
    show tally.ofVisits.failures = _ from congrArg Tally.failures counted
  rw [failures, Tally.foldl_count, unmade_eq, ← List.countP_eq_length_filter]
  exact (Nat.zero_add _).trans (failures_of (forall₂_visitAll _ s))

end Batch

/-! ### The command -/

namespace Command

variable {m : Type → Type} [Monad m] [LawfulMonad m]

/-- A dry run prints a line for each analyzer that the jobs of the plan ask for. Of those that are
active for active subjects it reports as errors the ones that a batch over these jobs, which visits
only them, finds it cannot make, each of which counts as a failure. All those of inactive subjects
it reports as errors too. -/
theorem execute_dryRun (outside : Outside m) (file observations : String) (now : Option Instant)
    {text : String} {plan : Plan} {catalog : Catalog} {jobs : List Job}
    (read : readText outside file = pure text) (parsed : Plan.parse? text = some plan)
    (loaded : readCatalog outside file plan.groups = pure catalog)
    (resolved : plan.jobs = .ok jobs) :
    let trials := rehearse { catalog } jobs
    let watched := trials.filter (isWatched ·.entry)
    (execute outside (.analyze file observations now true) = pure (trials.map Trial.report) ∧
      trials.map Trial.entry = jobs.flatMap Job.entries ∧
      (∀ t ∈ trials, (∃ rest, t.report = "error " ++ rest) ↔ t.problem.isSome) ∧
      ∀ t ∈ trials, t.subject.active = false → t.problem.isSome) ∧
    ∀ {σ : Type} (responder : Responder σ) (filter : Subject → TrackFilter Float) (s : σ),
      let settings : Batch.Settings := ⟨{ catalog }, filter⟩
      let visits := ((Batch.visitAll settings (jobs.flatMap Job.pairs)).exec responder s).1
      let tally := ((Batch.run settings (fun _ => false) jobs).exec responder s).1.1
      let unmade := Batch.unmade settings responder jobs s
      watched.map Trial.entry = jobs.flatMap Job.pairs ∧ Trial.troubled watched = unmade ∧
        tally.ofVisits = visits.foldl Tally.count {} ∧
        tally.failures = unmade.length + visits.countP (·.isFault) := by
  refine ⟨⟨?_, Trial.map_entry_rehearse jobs, fun t _ => t.report_error_iff,
    fun t => Trial.problem_of_inactive⟩, fun responder filter s => ?_⟩
  · simp only [execute, runAnalyze, read, pure_bind, parsed, loaded, resolved, orFail]
    rfl
  · intro settings visits tally unmade
    obtain ⟨counted, failures⟩ := Batch.counted_run settings responder jobs s
    refine ⟨Trial.map_entry_watched { catalog } jobs, ?_, counted, failures⟩
    exact (Trial.troubled_watched settings jobs).trans (Batch.unmade_eq jobs s).symm

/-- A plan of one subject and one analyzer, whose features are missing. -/
def wellsText : String := "[[analyzers]]
id = \"0000000000000000000000000000000a\"
name = \"near\"
params.kind = \"PROXIMITY\"
params.spatial_feature_group = \"wells\"
[[subjects]]
id = \"0000000000000000000000000000000b\"
name = \"Tembo\"
analyzers = [\"near\"]
"

def wellsEntry : Subject × AnalyzerConfig :=
  ({ id := { bits := 11 }, name := "Tembo" },
    { id := { bits := 10 }, name := "near", settings := .proximity { group := "wells" } })

def wellsJob : Job := ⟨wellsEntry.1, [wellsEntry.2]⟩

/-- What the text says, as data that can be compared. -/
def outlineOf (plan : Plan) : Directory String × Option (List (Subject × List AnalyzerConfig)) :=
  (plan.groups, plan.jobs.toOption.map (·.map fun job => (job.subject, job.configs)))

theorem exists_wellsPlan :
    ∃ plan, Plan.parse? wellsText = some plan ∧ plan.groups = [] ∧ plan.jobs = .ok [wellsJob] := by
  have outline : (Plan.parse? wellsText).map outlineOf =
      some ([], some [(wellsEntry.1, [wellsEntry.2])]) := by decide +kernel
  obtain ⟨plan, parsed, outline⟩ := Option.map_eq_some_iff.mp outline
  obtain ⟨groups, jobs⟩ := Prod.mk.inj outline
  refine ⟨plan, parsed, groups, ?_⟩
  cases resolved : plan.jobs with
  | error e =>
    rw [resolved] at jobs
    cases jobs
  | ok found =>
    rw [resolved] at jobs
    obtain ⟨job, rfl, same⟩ := List.map_eq_singleton_iff.mp (Option.some.inj jobs)
    obtain ⟨subject, configs⟩ := job
    obtain ⟨rfl, rfl⟩ := Prod.mk.inj same
    rfl

theorem execute_dryRun_wells :
    let outside : Outside Id := { textOf := fun _ => some wellsText, clock := .epoch }
    let batch := Batch.run {} (fun _ => false) [wellsJob]
    execute outside (.analyze "plan.toml" "observations.csv" none true) =
      pure ["error Tembo / near: Configuration error: unknown feature group \"wells\""] ∧
    Batch.unmade {} (Stores.responder noValues) [wellsJob] { now := .epoch } = [wellsEntry] ∧
    (batch.exec (Stores.responder noValues) { now := .epoch }).1.1.failures = 1 := by
  intro outside batch
  obtain ⟨plan, parsed, groups, resolved⟩ := exists_wellsPlan
  have loaded : readCatalog outside "plan.toml" plan.groups = pure [] := by
    rw [groups]
    rfl
  obtain ⟨⟨printed, -⟩, counted⟩ :=
    execute_dryRun outside "plan.toml" "observations.csv" none rfl parsed loaded resolved
  obtain ⟨-, unmade, -, failures⟩ :=
    counted (Stores.responder noValues) (fun _ => {}) { now := .epoch }
  have reported : (rehearse { catalog := [] } [wellsJob]).map Trial.report =
      ["error Tembo / near: Configuration error: unknown feature group \"wells\""] := by
    decide +kernel
  exact ⟨printed.trans (congrArg pure reported), unmade.symm, failures⟩

/-- A plan of an inactive subject, and of an inactive analyzer whose features are missing. -/
def idlePlan : Plan where
  analyzers := [{ id := .nil, name := "rest", settings := .immobility {} },
    { id := .nil, name := "near", active := false, settings := .proximity { group := "wells" } }]
  assignments := [⟨{ id := .nil, name := "Tembo", active := false }, ["rest"]⟩,
    ⟨{ id := .nil, name := "Kifaru" }, ["near"]⟩]

/-- A rehearsal reports errors of what a batch does not visit. -/
theorem idlePlan_troubled :
    ¬ ∀ (plan : Plan) (catalog : Catalog) (jobs : List Job) (filter : Subject → TrackFilter Float)
      (sampler : Sampler) (s : Stores), plan.jobs = .ok jobs →
      Trial.troubled (rehearse { catalog } jobs) =
        Batch.unmade ⟨{ catalog }, filter⟩ (Stores.responder sampler) jobs s := by
  intro h
  have same := h idlePlan [] _ (fun _ => {}) noValues { now := .epoch } rfl
  rw [Batch.unmade_eq] at same
  exact absurd (congrArg List.length same) (by decide +kernel)

end Command

end Geotrack
