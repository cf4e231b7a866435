import Geotrack.Feature.Basic
import Geotrack.Fence.Crossing

/-!
# Approaches

How near a leg comes to a feature, and where. A leg that meets the outline of the feature comes to
distance zero at the first meeting point. Otherwise the ends of the leg are tried against the shape
and the vertices of the shape against the leg, and the first of the nearest candidates counts.
-/

namespace Geotrack

open Scalar

/-- The nearest that a leg came to a feature. -/
structure Approach (K : Type) where
  subject : Uuid
  featureId : String
  featureName : String
  distanceMeters : K
  /-- The nearest point of the leg, and the time estimated for it. -/
  fix : Fix K
  speed : K
  heading : K
  deriving Repr, Inhabited

/-- A point of a leg and its distance in meters from a shape. -/
structure Candidate (K : Type) where
  point : Point K
  distanceMeters : K
  deriving Repr, Inhabited

variable {K : Type} [Scalar K]

namespace Candidate

/-- The candidate of a leg's end: the shape's nearest point in degrees gives the distance. -/
def ofEnd? (shape : Shape K) (p : Point K) : Option (Candidate K) :=
  match shape.nearest p with
  | .none => none
  | .touching _ => some ⟨p, zero⟩
  | .apart q => some ⟨p, Geotrack.distanceMeters p q⟩

/-- The candidate of a shape's vertex: the leg's nearest point to it. -/
def ofVertex? (edge : Edge K) (vertex : Point K) : Option (Candidate K) :=
  (edge.nearest vertex).point?.map fun p => ⟨p, Geotrack.distanceMeters p vertex⟩

/-- The first of the candidates with the smallest distance. -/
def best? : List (Candidate K) → Option (Candidate K)
  | [] => none
  | c :: rest =>
    some (rest.foldl (fun best c => if lt c.distanceMeters best.distanceMeters then c else best) c)

end Candidate

namespace Leg

/-- The nearest that the leg comes to a shape. -/
def closest? (leg : Leg K) (shape : Shape K) : Option (Candidate K) :=
  let start := leg.start.point
  let finish := leg.finish.point
  match meetingPoints start finish shape.outline with
  | p :: _ => some ⟨p, zero⟩
  | [] =>
    Candidate.best? <|
      [start, finish].filterMap (Candidate.ofEnd? shape) ++
      shape.vertices.filterMap (Candidate.ofVertex? ⟨start, finish⟩)

/-- The leg's approach to a feature. A shape without points has none. -/
def approach? (leg : Leg K) (subject : Uuid) (feature : Feature K) : Option (Approach K) :=
  (leg.closest? feature.shape).map fun c => {
    subject
    featureId := feature.id
    featureName := feature.name
    distanceMeters := c.distanceMeters
    fix := leg.fixAt c.point
    speed := leg.speed
    heading := leg.heading }

end Leg

/-- The approaches of some trajectories to some features, for each leg and each feature one. -/
def approaches (features : List (Feature K)) (trajectories : List (Trajectory K)) :
    List (Approach K) :=
  trajectories.flatMap fun t =>
    t.legs.flatMap fun leg =>
      features.filterMap (leg.approach? t.subject)

end Geotrack
