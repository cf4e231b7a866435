import Geotrack.Analysis.Analyzer

/-!
# Findings of immobility

The newest fixes of a subject are gathered into ever larger clusters. The subject is immobile when
some cluster has enough of its fixes near its middle and spans more than the time asked for; the
largest such cluster is reported.
-/

namespace Geotrack

open Scalar

variable {K : Type} [Scalar K]

/-- The mean of some points. -/
def centroid? : List (Point K) → Option (Point K)
  | [] => none
  | p :: rest =>
    let add (a b : Point K) : Point K := ⟨a.longitude + b.longitude, a.latitude + b.latitude⟩
    let sum := rest.foldl add p
    let count : K := ofInt (rest.length + 1)
    some ⟨sum.longitude / count, sum.latitude / count⟩

/-- The measures of a cluster of fixes. -/
structure ClusterMeasures (K : Type) where
  centroid : Point K
  /-- How many fixes there are. -/
  count : Nat
  /-- How many of them lie within the radius asked for. -/
  inside : Nat
  /-- The distance of the farthest fix from the middle. -/
  radiusMeters : K
  /-- Whole seconds from the oldest fix to the newest. -/
  seconds : Int
  deriving Repr, Inhabited

namespace ClusterMeasures

/-- The measures of a cluster, newest fix first. -/
def of? (cluster : List (Fix K)) (radiusMeters : K) : Option (ClusterMeasures K) := do
  let centroid ← centroid? (cluster.map (·.point))
  let newest ← cluster.head?
  let oldest ← cluster.getLast?
  let distances := cluster.map fun fix => distanceMeters centroid fix.point
  return {
    centroid
    count := cluster.length
    inside := (distances.filter (le · radiusMeters)).length
    radiusMeters := distances.foldl max zero
    seconds := Instant.wholeSeconds (newest.time.since oldest.time) }

/-- The share of the fixes that lie within the radius. -/
def share (m : ClusterMeasures K) : K := ofInt m.inside / ofInt m.count

end ClusterMeasures

namespace ImmobilitySettings

/-- Whether a cluster is held together for long enough. -/
def admits (s : ImmobilitySettings) (m : ClusterMeasures Float) : Bool :=
  s.share ≤ m.share && s.seconds < m.seconds

/-- The largest cluster of newest fixes that shows the subject immobile. The fixes are given newest
first. -/
def cluster? (s : ImmobilitySettings) (newestFirst : List (Fix Float)) :
    Option (ClusterMeasures Float) :=
  let clusters := (List.range newestFirst.length).map fun k => newestFirst.take (k + 1)
  ((clusters.filterMap (ClusterMeasures.of? · s.radiusMeters)).filter s.admits).getLast?

end ImmobilitySettings

/-- The finding that a subject moves, at its newest fix. -/
def movingFinding (subject : Subject) (analyzer : AnalyzerReference) (newest : Fix Float) :
    Finding where
  subject := subject.id
  analyzer := analyzer
  time := newest.time
  level := .ok
  title := subject.name ++ " is moving"
  points := [newest.point]

/-- The finding that a subject is immobile in a cluster, at the time of its newest fix. -/
def immobileFinding (subject : Subject) (analyzer : AnalyzerReference) (newest : Fix Float)
    (m : ClusterMeasures Float) : Finding where
  subject := subject.id
  analyzer := analyzer
  time := newest.time
  level := .critical
  title := subject.name ++ " is immobile"
  values := .ofList
    [("probability_value", .ofFloat m.share), ("cluster_radius", .ofFloat m.radiusMeters),
     ("cluster_fix_count", .integer m.inside), ("total_fix_count", .integer m.count),
     ("immobility_time", .integer m.seconds)]
  points := [m.centroid]

/-- The finding of a trajectory that spans enough time. -/
def immobilityFindings (subject : Subject) (analyzer : AnalyzerReference) (s : ImmobilitySettings)
    (t : Trajectory Float) : Except AnalysisError (List Finding) :=
  match t.fixes.getLast? with
  | none => .error (.shortage .noFixesToTest)
  | some newest =>
    if t.timespanSeconds < s.seconds then
      .error (.shortage (.shortTimespan t.timespanSeconds s.seconds))
    else
      match s.cluster? t.fixes.reverse with
      | none => .ok [movingFinding subject analyzer newest]
      | some m => .ok [immobileFinding subject analyzer newest m]

end Geotrack
