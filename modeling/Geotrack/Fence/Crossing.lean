import Geotrack.Fence.Region
import Geotrack.Geodesy.Along
import Geotrack.Track.Trajectory

/-!
# Crossings

A leg crosses a fence when it meets the fence's boundary an odd number of times, for then it ends
on the other side. Each point where it does is a crossing. `crossings` takes trajectories, legs and
fences in order.
-/

namespace Geotrack

/-- One point where a subject has crossed a fence. -/
structure Crossing (K : Type) where
  subject : Uuid
  speed : K
  heading : K
  /-- The point, and the time estimated for it. -/
  fix : Fix K
  /-- The share of the leg before the point. -/
  fraction : K
  fenceId : String
  fenceName : String
  level : WarnLevel
  /-- The regions that contain the start of the leg. -/
  startRegions : List String
  /-- The regions that contain the end of the leg. -/
  finishRegions : List String
  deriving Repr, Inhabited

variable {K : Type} [Scalar K]

namespace Leg

/-- The share of the leg up to a point of it. -/
def fractionAt (leg : Leg K) (p : Point K) : K := fractionAlong leg.start.point p leg.lengthMeters

/-- The fix at a point of the leg. -/
def fixAt (leg : Leg K) (p : Point K) : Fix K :=
  ⟨p, interpolateTime leg.start.time leg.finish.time (leg.fractionAt p)⟩

/-- The points where the leg crosses a boundary: those where it meets it, if their number is odd. -/
def crossingPoints (leg : Leg K) (boundary : Boundary K) : List (Point K) :=
  let points := meetingPoints leg.start.point leg.finish.point boundary
  if points.length % 2 = 0 then [] else points

/-- The crossings of one fence. -/
def crossings (leg : Leg K) (subject : Uuid) (fence : Fence K) (index : RegionIndex K) :
    List (Crossing K) :=
  (leg.crossingPoints fence.boundary).map fun p => {
    subject
    speed := leg.speed
    heading := leg.heading
    fix := leg.fixAt p
    fraction := leg.fractionAt p
    fenceId := fence.id
    fenceName := fence.name
    level := fence.level
    startRegions := index.containing leg.start.point
    finishRegions := index.containing leg.finish.point }

end Leg

/-- The crossings of some fences by some trajectories. -/
def crossings (fences : List (Fence K)) (regions : List (Region K))
    (trajectories : List (Trajectory K)) : List (Crossing K) :=
  let index := RegionIndex.ofRegions regions
  trajectories.flatMap fun t =>
    t.legs.flatMap fun leg =>
      fences.flatMap fun fence => leg.crossings t.subject fence index

end Geotrack
