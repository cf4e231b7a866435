import Geotrack.Proofs.Analysis.Retry

/-!
# Observations of other subjects

Of the observations that it is given a run analyzes those of its own subject. Others make no
difference beside these. Where all are of others, though, the run takes them as given and finds no
track in them, and does not turn to the observations of the default window.
-/

namespace Geotrack

namespace Analyzer

/-- The observations of the analyzer's subject among some. -/
def own (a : Analyzer) (os : List Observation) : List Observation :=
  os.filter (·.subject = a.subject.id)

/-- What a run over a track without fixes returns. -/
def untracked (a : Analyzer) : Except AnalysisError (List Outcome) :=
  match a.task with
  | .geofence .. | .proximity .. => .ok []
  | .immobility _ => .error (.shortage .noFixesToTest)
  | .environmental _ => .error (.shortage .noFixesToSample)

variable {a : Analyzer} {os : List Observation} {filter : TrackFilter Float}

theorem trajectory_own : a.trajectory (a.own os) filter = a.trajectory os filter := by
  simp only [trajectory, own, List.filter_filter, Bool.and_self]

theorem fixes_of_foreign (foreign : a.own os = []) : (a.trajectory os filter).fixes = [] := by
  rw [← trajectory_own, foreign]
  change sortByTime (filter.keep none (sortByTime [])) = []
  simp [sortByTime, TrackFilter.keep]

/-- Nothing is found on a track without fixes. -/
theorem exec_findings_untracked {σ : Type} (responder : Responder σ) {t : Trajectory Float}
    (untracked : t.fixes = []) (s : σ) :
    (a.findings t >>= (·.mapM a.settle)).exec responder s = (a.untracked, s) := by
  have hlegs : t.legs = [] := by rw [Trajectory.legs, untracked]; rfl
  unfold findings Analyzer.untracked
  cases a.task with
  | geofence fences regions =>
    have hnone : geofenceFindings a.subject a.reference fences regions t = [] := by
      simp [geofenceFindings, crossings, hlegs]
    simp only [hnone]
    rfl
  | immobility settings =>
    have hnone : immobilityFindings a.subject a.reference settings t =
        .error (.shortage .noFixesToTest) := by
      simp [immobilityFindings, untracked]
    simp only [hnone]
    rfl
  | proximity settings features =>
    have hlast : (t.tail 2).legs = [] := by
      simp [Trajectory.legs, Trajectory.tail, untracked, Leg.between]
    have hnone : proximityFindings a.subject a.reference settings features t = [] := by
      simp [proximityFindings, approaches, hlast]
    simp only [hnone]
    rfl
  | environmental settings =>
    simp only [untracked, List.getLast?_nil]
    rfl

theorem run_of_given (given : os ≠ []) :
    a.run (some os) filter = a.findings (a.trajectory os filter) >>= (·.mapM a.settle) := by
  obtain ⟨o, os, rfl⟩ := List.exists_cons_of_ne_nil given
  rfl

/-- A run that is given observations analyzes those of the analyzer's own subject. Only where it is
given some and all are of other subjects it does not go on as if it were given none: it then returns
what is found on a track without fixes, and asks and changes nothing. -/
theorem run_of_own {σ : Type} (responder : Responder σ) (a : Analyzer) (os : List Observation)
    (filter : TrackFilter Float) (s : σ) :
    (a.run (some os) filter).exec responder s =
      if os ≠ [] ∧ a.own os = [] then (a.untracked, s)
      else (a.run (some (a.own os)) filter).exec responder s := by
  split
  · rename_i h
    obtain ⟨given, foreign⟩ := h
    rw [run_of_given given]
    exact exec_findings_untracked responder (fixes_of_foreign foreign) s
  · rename_i h
    by_cases given : os = []
    · rw [given]
      rfl
    · have own : a.own os ≠ [] := fun foreign => h ⟨given, foreign⟩
      rw [run_of_given given, run_of_given own, trajectory_own]

/-! ### A position of another subject -/

/-- One position of another subject. -/
def foreignSighting : List Observation := [⟨{ bits := 2 }, .epoch, -1.4, 36.9⟩]

/-- A run that is given a position of another subject misses the alert that a run that is given none
raises. -/
theorem foreignSighting_hides :
    ¬ ∀ (a : Analyzer) (sampler : Sampler) (s : Stores) (os : List Observation)
      (filter : TrackFilter Float),
      (a.run (some os) filter).exec (Stores.responder sampler) s =
        (a.run (some (a.own os)) filter).exec (Stores.responder sampler) s := by
  intro h
  let seen : Stores := { now := .epoch, observations := sighting }
  have same := h footprintWatch highValues seen foreignSighting {}
  have hidden : ((footprintWatch.run (some foreignSighting) {}).exec (Stores.responder highValues)
      seen).2.events.length = 0 := by decide +kernel
  have told : ((footprintWatch.run (some (footprintWatch.own foreignSighting)) {}).exec
      (Stores.responder highValues) seen).2.events.length = 1 := by decide +kernel
  rw [same, told] at hidden
  cases hidden

end Analyzer

end Geotrack
