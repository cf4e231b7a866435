import Mathlib.Data.List.Forall2
import Geotrack.Proofs.Analysis.Visits

/-!
# The accounts of a batch

A batch takes its jobs in order until it finds itself cancelled. By then it has done what a batch
over just the jobs before does. Each active configuration of an active subject among them is visited
once, in order, and `accounts` says where in the tally each of the visits is found.
-/

namespace Geotrack

namespace Batch

variable (settings : Settings) (cancelled : Nat → Bool)

/-- Whether a visit is to an analyzer that is made of a configuration for a subject, or to none if
none can be made. -/
def Visit.Of (p : Subject × AnalyzerConfig) : Visit → Prop
  | .unbuilt e => Analyzer.ofConfig p.1 p.2 settings.context = .error e
  | .skipped a | .ran a _ => Analyzer.ofConfig p.1 p.2 settings.context = .ok a

variable {settings cancelled} {σ : Type} {responder : Responder σ}

/-! ### Cancellation -/

theorem turns_le (jobs : List Job) (n : Nat) : turns cancelled jobs n ≤ jobs.length := by
  induction jobs generalizing n with
  | nil => exact Nat.le_refl 0
  | cons job rest ih =>
    unfold turns
    split
    · exact Nat.zero_le _
    · exact Nat.succ_le_succ (ih (n + 1))

theorem not_cancelled_of_lt_turns {jobs : List Job} {n i : Nat} (h : i < turns cancelled jobs n) :
    cancelled (n + i) = false := by
  induction jobs generalizing n i with
  | nil => cases h
  | cons job rest ih =>
    unfold turns at h
    split at h
    · cases h
    · rename_i running
      cases i with
      | zero => simpa using running
      | succ i =>
        have later := ih (Nat.lt_of_succ_lt_succ h)
        rwa [Nat.add_right_comm] at later

theorem cancelled_turns {jobs : List Job} {n : Nat} (h : turns cancelled jobs n < jobs.length) :
    cancelled (n + turns cancelled jobs n) = true := by
  induction jobs generalizing n with
  | nil => cases h
  | cons job rest ih =>
    unfold turns at h ⊢
    split at h
    · rename_i stopped
      simp [stopped]
    · rename_i running
      rw [if_neg running, ← Nat.add_assoc, Nat.add_right_comm]
      exact ih (Nat.lt_of_succ_lt_succ h)

@[simp] theorem turns_never (jobs : List Job) (n : Nat) :
    turns (fun _ => false) jobs n = jobs.length := by
  induction jobs generalizing n with
  | nil => rfl
  | cons job rest ih => simp [turns, ih]

/-- A batch that is cancelled leaves and counts what a batch over the jobs before does. -/
theorem exec_run_take (jobs : List Job) (s : σ) :
    let ended := (run settings cancelled jobs).exec responder s
    let whole :=
      (run settings (fun _ => false) (jobs.take (turns cancelled jobs 0))).exec responder s
    ended.2 = whole.2 ∧ whole.1.1 = { ended.1.1 with cancelled := false } := by
  have hlength : (jobs.take (turns cancelled jobs 0)).length = turns cancelled jobs 0 := by
    rw [List.length_take, Nat.min_eq_left (turns_le jobs 0)]
  intro ended whole
  simp only [ended, whole, exec_run_eq, turns_never, List.take_length]
  simp only [hlength, Nat.lt_irrefl, decide_false, and_self]

/-! ### What becomes of each configuration -/

theorem visit_of (p : Subject × AnalyzerConfig) (s : σ) :
    ((visit settings p.1 p.2).exec responder s).1.Of settings p := by
  cases made : Analyzer.ofConfig p.1 p.2 settings.context with
  | error e =>
    rw [exec_visit_unbuilt made]
    exact made
  | ok a =>
    rw [exec_visit made]
    dsimp only
    split
    · exact made
    · exact made

theorem forall₂_visitAll (pairs : List (Subject × AnalyzerConfig)) (s : σ) :
    List.Forall₂ (Visit.Of settings) pairs ((visitAll settings pairs).exec responder s).1 := by
  induction pairs generalizing s with
  | nil => exact .nil
  | cons p pairs ih =>
    rw [exec_visitAll_cons]
    exact .cons (visit_of p s) (ih _)

/-- Whether no analyzer can be made of a configuration for a subject. -/
def unbuildable (settings : Settings) (p : Subject × AnalyzerConfig) : Bool :=
  !(Analyzer.ofConfig p.1 p.2 settings.context).isOk

/-- A configuration is skipped, run, or no analyzer can be made of it. -/
theorem Visit.Of.once {p : Subject × AnalyzerConfig} {x : Visit} (h : x.Of settings p) :
    x.isSkip.toNat + x.isRun.toNat + (unbuildable settings p).toNat = 1 := by
  unfold unbuildable
  match x, h with
  | .unbuilt e, (made : _ = _) | .skipped a, (made : _ = _) | .ran a _, (made : _ = _) =>
    rw [made]
    rfl

/-- An error is that of making the analyzer or that of its run. -/
theorem Visit.Of.errors {p : Subject × AnalyzerConfig} {x : Visit} (h : x.Of settings p) :
    x.error?.isSome.toNat = (unbuildable settings p).toNat + x.isFailedRun.toNat := by
  unfold unbuildable
  match x, h with
  | .unbuilt e, (made : _ = _) | .skipped a, (made : _ = _) | .ran a (.error _), (made : _ = _)
  | .ran a (.ok _), (made : _ = _) =>
    rw [made]
    rfl

theorem countP_cons_toNat {α : Type} (q : α → Bool) (a : α) (as : List α) :
    (a :: as).countP q = (q a).toNat + as.countP q := by
  rw [List.countP_cons]
  cases q a <;> simp [Nat.add_comm]

/-- Of visits to configurations each is one of the three, and their errors are of the two kinds. -/
theorem count_of {pairs : List (Subject × AnalyzerConfig)} {xs : List Visit}
    (h : List.Forall₂ (Visit.Of settings) pairs xs) :
    xs.countP (·.isSkip) + xs.countP (·.isRun) + pairs.countP (unbuildable settings) =
      pairs.length ∧
    xs.countP (·.error?.isSome) =
      pairs.countP (unbuildable settings) + xs.countP (·.isFailedRun) := by
  induction h with
  | nil => exact ⟨rfl, rfl⟩
  | cons of rest ih =>
    obtain ⟨hvisits, herrors⟩ := ih
    have hone := of.once
    have herror := of.errors
    simp only [countP_cons_toNat, List.length_cons]
    constructor <;> omega

theorem countP_shortage (errors : List AnalysisError) :
    errors.countP (!·.isShortage) + errors.countP (·.isShortage) = errors.length := by
  have h := List.length_eq_countP_add_countP (·.isShortage) (l := errors)
  simp only [Bool.not_eq_true, Bool.decide_eq_false] at h
  omega

/-- A batch does its jobs up to the first check that finds it cancelled, and leaves what its visits
leave and what a batch over just these jobs leaves. Each pair of an active subject and an active
configuration among them is skipped, or run, or no analyzer can be made of it. The errors are those
of making analyzers and those of runs; what is told of results and events is of the runs that
succeed. -/
theorem accounts (responder : Responder σ) (settings : Settings) (cancelled : Nat → Bool)
    (jobs : List Job) (s : σ) :
    let ended := (run settings cancelled jobs).exec responder s
    let tally := ended.1.1
    let done := jobs.take tally.subjects
    let whole := (run settings (fun _ => false) done).exec responder s
    let pairs := done.flatMap Job.pairs
    let visited := (visitAll settings pairs).exec responder s
    let visits := visited.1
    let unbuilt := pairs.countP (unbuildable settings)
    let failed := visits.countP (·.isFailedRun)
    (tally.subjects ≤ jobs.length ∧ (tally.cancelled = true ↔ tally.subjects < jobs.length) ∧
      (∀ n < tally.subjects, cancelled n = false) ∧
      (tally.cancelled = true → cancelled tally.subjects = true)) ∧
    (ended.2 = visited.2 ∧ ended.2 = whole.2 ∧ whole.1.1 = { tally with cancelled := false } ∧
      ended.1.2 = .total jobs.length ::
        (done.flatMap fun job => [.message job.subject.name, .advance 1]) ++
          [.finish tally.summary]) ∧
    List.Forall₂ (Visit.Of settings) pairs visits ∧
    tally.quietSkipped + tally.analyzersRun + unbuilt = pairs.length ∧
    tally.failures + tally.insufficientData = unbuilt + failed ∧
    tally.insufficientData = (visits.filterMap (·.error?)).countP (·.isShortage) ∧
    tally.results = (visits.flatMap (·.outcomes)).length ∧
    tally.events = ((visits.flatMap (·.outcomes)).filter (·.event.isSome)).length := by
  intro ended tally done whole pairs visited visits unbuilt failed
  have hsubjects : tally.subjects = turns cancelled jobs 0 := by
    simp only [tally, ended, exec_run_eq]
  have hcancelled : tally.cancelled = decide (turns cancelled jobs 0 < jobs.length) := by
    simp only [tally, ended, exec_run_eq]
  have hdone : done = jobs.take (turns cancelled jobs 0) := by simp only [done, hsubjects]
  have hvisited : ended.2 = visited.2 := by simp only [ended, visited, pairs, hdone, exec_run_eq]
  have hcounted : tally.ofVisits = visits.foldl Tally.count {} := by
    simp only [tally, ended, visits, visited, pairs, hdone, exec_run_eq, Tally.ofVisits,
      Tally.foldl_count]
  rw [Tally.foldl_count] at hcounted
  simp only [Tally.ofVisits, Tally.mk.injEq, Nat.zero_add, true_and, and_true] at hcounted
  obtain ⟨hrun, hskipped, hshort, hfailures, hresults, hevents⟩ := hcounted
  have hof : List.Forall₂ (Visit.Of settings) pairs visits := forall₂_visitAll pairs s
  obtain ⟨hvisits, herrors⟩ := count_of hof
  have hwhole : ended.2 = whole.2 ∧ whole.1.1 = { tally with cancelled := false } := by
    simp only [whole, hdone]
    exact exec_run_take jobs s
  refine ⟨⟨?_, ?_, ?_, ?_⟩, ⟨hvisited, hwhole.1, hwhole.2, ?_⟩, hof, ?_, ?_, hshort, hresults, ?_⟩
  · rw [hsubjects]
    exact turns_le jobs 0
  · rw [hsubjects, hcancelled, decide_eq_true_iff]
  · intro n hn
    rw [hsubjects] at hn
    simpa using not_cancelled_of_lt_turns hn
  · intro h
    rw [hcancelled, decide_eq_true_iff] at h
    rw [hsubjects]
    simpa using cancelled_turns h
  · simp only [ended, tally, exec_run_eq, hdone]
  · rw [hskipped, hrun]
    exact hvisits
  · rw [hfailures, hshort, countP_shortage, List.length_filterMap_eq_countP]
    exact herrors
  · rw [hevents, ← List.countP_eq_length_filter, ← List.length_filterMap_eq_countP,
      List.filterMap_flatMap]
    simp only [Visit.events_eq]

end Batch

end Geotrack
