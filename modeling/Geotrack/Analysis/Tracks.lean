import Geotrack.Analysis.Finding
import Geotrack.Fence.Crossing

/-!
# Tracks of observed subjects

Observations come in rows of several subjects. `Observation.trajectories` sorts them out into one
trajectory for each subject, by the subjects' ids, and `observedCrossings` finds the fences that
these trajectories cross.
-/

namespace Geotrack

/-- Identifiers in order, each once. -/
def Uuid.sorted (ids : List Uuid) : List Uuid := (ids.mergeSort Uuid.le).eraseDups

namespace Observation

/-- The subjects of some observations. -/
def subjects (observations : List Observation) : List Uuid :=
  Uuid.sorted (observations.map (·.subject))

/-- The fixes of one subject, as they come. -/
def fixesOf (observations : List Observation) (subject : Uuid) : List (Fix Float) :=
  (observations.filter (·.subject = subject)).map fix

/-- The trajectories of all subjects through the fixes that a filter keeps. -/
def trajectories (filter : TrackFilter Float) (observations : List Observation) :
    List (Trajectory Float) :=
  (subjects observations).map fun id => Trajectory.buildFiltered id (fixesOf observations id) filter

end Observation

/-- The crossings of some fences by observed subjects, with the usual filter. -/
def observedCrossings (fences : List (Fence Float)) (regions : List (Region Float))
    (observations : List Observation) : List (Crossing Float) :=
  crossings fences regions (Observation.trajectories {} observations)

end Geotrack
