import Geotrack.Plane.Edge

/-!
# Paths, rings and polygons

A path is a list of points, a ring a path that ends where it starts, a polygon an outer ring with
holes. A point is placed against a ring by its winding number: `Ring.place` is `inside` where the
ring goes around the point, `border` where the point lies on an edge.
-/

namespace Geotrack

open Scalar

variable {K : Type} [Scalar K]

/-- Points that are joined one after the other. -/
abbrev Path (K : Type) := List (Point K)

/-- The edges of a path, one fewer than its points. -/
def Path.edges {K : Type} : Path K → List (Edge K)
  | a :: b :: rest => ⟨a, b⟩ :: Path.edges (b :: rest)
  | _ => []

/-- The path with its first point repeated at its end, unless it ends there already. -/
def Path.closed (path : Path K) : Path K :=
  match path.head?, path.getLast? with
  | some a, some b => if a.same b then path else path ++ [a]
  | _, _ => path

/-- Where a point lies relative to a ring or a polygon. -/
inductive Place where
  | inside
  | outside
  | border
  deriving DecidableEq, Repr, Inhabited

namespace Ring

/-- What one edge adds to the winding number around a point, or none where the point lies on the
edge. An upward edge counts its lower end, a downward one too, so that no vertex counts twice. -/
def windingStep? (p : Point K) (e : Edge K) : Option Int :=
  let onEdge := between p.longitude e.start.longitude e.finish.longitude
  if le e.start.latitude p.latitude then
    if le p.latitude e.finish.latitude then
      match e.turnTo p with
      | .left => some (if eq e.finish.latitude p.latitude then 0 else 1)
      | .straight => if onEdge then none else some 0
      | .right => some 0
    else some 0
  else if le e.finish.latitude p.latitude then
    match e.turnTo p with
    | .right => some (-1)
    | .straight => if onEdge then none else some 0
    | .left => some 0
  else some 0

/-- How often edges go around a point, or none where the point lies on one of them. -/
def winding? (p : Point K) (edges : List (Edge K)) : Option Int :=
  edges.foldlM (fun n e => (windingStep? p e).map (n + ·)) 0

/-- Where a point lies relative to a ring. -/
def place (ring : Path K) (p : Point K) : Place :=
  match ring with
  | [] => .outside
  | [q] => if p.same q then .border else .outside
  | _ =>
    match winding? p ring.edges with
    | none => .border
    | some n => if n = 0 then .outside else .inside

end Ring

structure Polygon (K : Type) where
  outer : Path K
  holes : List (Path K)
  deriving Repr, Inhabited, DecidableEq

namespace Polygon

/-- The polygon of an outer path and the paths of its holes, each closed. -/
def ofPaths (outer : Path K) (holes : List (Path K)) : Polygon K :=
  ⟨outer.closed, holes.map Path.closed⟩

/-- The outer ring followed by the holes. -/
def rings (p : Polygon K) : List (Path K) := p.outer :: p.holes

/-- Where a point outside or on a hole lies, given the holes. -/
def placeAmongHoles (q : Point K) : List (Path K) → Place
  | [] => .inside
  | hole :: rest =>
    match Ring.place hole q with
    | .inside => .outside
    | .border => .border
    | .outside => placeAmongHoles q rest

/-- Where a point lies: inside the outer ring and outside all holes, on a border, or outside. -/
def place (p : Polygon K) (q : Point K) : Place :=
  match Ring.place p.outer q with
  | .outside => .outside
  | .border => .border
  | .inside => placeAmongHoles q p.holes

/-- Whether a point lies strictly inside. -/
def contains (p : Polygon K) (q : Point K) : Bool := p.place q = .inside

/-- Whether a point lies inside or on the border. -/
def covers (p : Polygon K) (q : Point K) : Bool := p.place q ≠ .outside

end Polygon

/-- What can be wrong with the points of a ring or a line. -/
inductive GeometryError (K : Type) where
  | invalidCoordinate (p : Point K)
  | invalidPolygon (distinct : Nat)
  | invalidPolyline (distinct : Nat)
  deriving Repr, Inhabited, DecidableEq

def GeometryError.message : GeometryError Float → String
  | .invalidCoordinate p => "Invalid coordinate " ++ p.toText
  | .invalidPolygon n => "Polygon needs at least 3 distinct points, got " ++ toString n
  | .invalidPolyline n => "Polyline needs at least 2 distinct points, got " ++ toString n

/-- The points of a list, if each of them is a position on the Earth. -/
def validPoints (points : Path K) : Except (GeometryError K) (Path K) :=
  match points.find? (!·.isValid) with
  | some p => .error (.invalidCoordinate p)
  | none => .ok points

/-- The polygon around at least three distinct positions; its ring is closed if it is not yet. -/
def Polygon.ofPoints (points : Path K) : Except (GeometryError K) (Polygon K) := do
  let points ← validPoints points
  let n := (Point.distinct points).length
  if n < 3 then .error (.invalidPolygon n) else .ok (.ofPaths points [])

/-- The open line through at least two distinct positions. -/
def Path.ofPoints (points : Path K) : Except (GeometryError K) (Path K) := do
  let points ← validPoints points
  let n := (Point.distinct points).length
  if n < 2 then .error (.invalidPolyline n) else .ok points

/-- A polygon whose rings are each those of a polygon around at least three distinct positions. -/
def Polygon.validate (p : Polygon K) : Except (GeometryError K) Unit :=
  p.rings.forM fun ring => do
    let _ ← Polygon.ofPoints ring

end Geotrack
