import Geotrack.Analysis.Analyzer
import Geotrack.Feature.Approach

/-!
# Findings of proximity

Only the last leg of a track is looked at. Each feature that it came near enough to is one finding.
-/

namespace Geotrack

/-- The finding of an approach. -/
def Approach.finding (a : Approach Float) (subject : Subject) (analyzer : AnalyzerReference)
    (fixCount : Nat) : Finding where
  subject := subject.id
  analyzer := analyzer
  time := a.fix.time
  level := .critical
  title := subject.name ++ " proximal to " ++ a.featureName ++ "."
  values := .ofList
    [("spatial_feature_name", .text a.featureName),
     ("proximity_dist_meters", .ofFloat a.distanceMeters), ("total_fix_count", .integer fixCount),
     ("subject_speed_kmhr", .ofFloat a.speed), ("subject_heading", .ofFloat a.heading)]
  points := [a.fix.point]

/-- The findings of a trajectory's last leg. -/
def proximityFindings (subject : Subject) (analyzer : AnalyzerReference) (s : ProximitySettings)
    (features : List (Feature Float)) (t : Trajectory Float) : List Finding :=
  let last := t.tail 2
  let near := (approaches features [last]).filter fun a => a.distanceMeters ≤ s.distanceMeters
  near.map (·.finding subject analyzer last.fixes.length)

end Geotrack
