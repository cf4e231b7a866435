import Geotrack.Geodesy.Sphere
import Geotrack.Plane.Shape

/-!
# Boundaries

A boundary is a list of paths that a straight segment may meet. Points where it does are reported
once each, by distance from the segment's start; how two edges meet is a parameter of
`meetingPointsBy`, and `meetingPoints` uses `Edge.meet?`.
-/

namespace Geotrack

open Scalar

variable {K : Type} [Scalar K]

/-- The paths that a crossing is tested against. -/
abbrev Boundary (K : Type) := List (Path K)

def Boundary.edges {K : Type} (b : Boundary K) : List (Edge K) := b.flatMap Path.edges

/-- Points closer than this in both coordinates, in degrees, are one meeting point. -/
def samePointTolerance : K := decimal 1 9

/-- Whether two points count as one meeting point. -/
def Point.near (a b : Point K) : Bool :=
  lt (abs (a.longitude - b.longitude)) samePointTolerance &&
  lt (abs (a.latitude - b.latitude)) samePointTolerance

/-- A list of points with one more, unless it is near one of them. -/
def addDistinct (points : List (Point K)) (p : Point K) : List (Point K) :=
  if points.any (·.near p) then points else points ++ [p]

/-- The points of a list that are near none that was kept before them. -/
def distinctPoints (points : List (Point K)) : List (Point K) := points.foldl addDistinct []

/-- Points ordered by their distance from a start, equally distant ones as they were. -/
def sortByDistance (start : Point K) (points : List (Point K)) : List (Point K) :=
  points.mergeSort fun a b => sortKeyLe (distanceMeters start a) (distanceMeters start b)

/-- The points where the segment from `start` to `finish` meets the boundary. A segment without
length meets nothing. -/
def meetingPointsBy (meet : Edge K → Edge K → Option (Meeting K)) (start finish : Point K)
    (boundary : Boundary K) : List (Point K) :=
  if start.same finish then []
  else
    let reported := boundary.edges.flatMap fun e =>
      ((meet ⟨start, finish⟩ e).map Meeting.points).getD []
    sortByDistance start (distinctPoints reported)

/-- The points where the segment from `start` to `finish` meets the boundary. -/
def meetingPoints (start finish : Point K) (boundary : Boundary K) : List (Point K) :=
  meetingPointsBy Edge.meet? start finish boundary

/-- The smallest of some numbers in the order for sorting, the first of equal ones. -/
def least? : List K → Option K
  | [] => none
  | x :: xs => some (xs.foldl (fun m y => if sortKeyLe m y then m else y) x)

/-- The distance in meters from a position to the nearest points of a polygon's rings; zero inside
the polygon and for a polygon without edges. -/
def Polygon.distanceMetersTo (p : Polygon K) (position : Point K) : K :=
  if p.contains position then zero
  else
    let projected := p.rings.filterMap fun ring => (Path.nearest ring position).point?
    (least? (projected.map (distanceMeters · position))).getD zero

end Geotrack
