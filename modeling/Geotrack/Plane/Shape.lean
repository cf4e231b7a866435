import Geotrack.Plane.Polygon

/-!
# Shapes and their nearest points

`Shape` is the geometry of a feature on the map. `Shape.nearest` gives the point of a shape that is
nearest to a position in degrees; a position that the shape covers is its own nearest point.
-/

namespace Geotrack

open Scalar

inductive Shape (K : Type) where
  | point (p : Point K)
  | edge (e : Edge K)
  | path (line : Path K)
  | polygon (p : Polygon K)
  | points (ps : List (Point K))
  | paths (lines : List (Path K))
  | polygons (ps : List (Polygon K))
  | box (b : Box K)
  | triangle (a b c : Point K)
  | collection (shapes : List (Shape K))
  deriving Repr, Inhabited

/-- The name of a shape's kind. -/
def Shape.kind : Shape K → String
  | .point _ => "Point"
  | .edge _ => "Line"
  | .path _ => "LineString"
  | .polygon _ => "Polygon"
  | .points _ => "MultiPoint"
  | .paths _ => "MultiLineString"
  | .polygons _ => "MultiPolygon"
  | .box _ => "Rect"
  | .triangle .. => "Triangle"
  | .collection _ => "GeometryCollection"

/-- The point of a shape nearest to a position. -/
inductive Nearest (K : Type) where
  /-- The shape has no points. -/
  | none
  /-- The position is a point of the shape. -/
  | touching (p : Point K)
  | apart (p : Point K)
  deriving Repr, Inhabited, DecidableEq

def Nearest.point? : Nearest K → Option (Point K)
  | .none => Option.none
  | .touching p => some p
  | .apart p => some p

variable {K : Type} [Scalar K]

namespace Nearest

/-- The nearer of two to a position; the first one of two equally near. -/
def better (position : Point K) (a b : Nearest K) : Nearest K :=
  match a, b with
  | .none, b => b
  | .touching p, _ => .touching p
  | a, .none => a
  | _, .touching p => .touching p
  | .apart p, .apart q =>
    if le (planarDistance p position) (planarDistance q position) then .apart p else .apart q

/-- The best of a list of parts. A part that touches ends the search; of equally near ones the
later counts. -/
def best (position : Point K) (nearest : α → Nearest K) (parts : List α) : Nearest K :=
  let step (best : Nearest K) (part : α) : Nearest K :=
    match best with
    | .touching p => .touching p
    | best => better position (nearest part) best
  parts.foldl step .none

end Nearest

/-- The point of an edge nearest to a position: the foot of the perpendicular, or an end. An edge
without length has none. -/
def Edge.nearest (e : Edge K) (position : Point K) : Nearest K :=
  if eq (planarDistance e.start e.finish) zero then .none
  else
    let dx := e.finish.longitude - e.start.longitude
    let dy := e.finish.latitude - e.start.latitude
    let px := position.longitude - e.start.longitude
    let py := position.latitude - e.start.latitude
    let t := (px * dx + py * dy) / (dx * dx + dy * dy)
    if lt t zero then .apart e.start
    else if lt one t then .apart e.finish
    else
      let foot : Point K := ⟨e.start.longitude + dx * t, e.start.latitude + dy * t⟩
      if e.holds position then .touching foot else .apart foot

def Path.nearest (path : Path K) (position : Point K) : Nearest K :=
  Nearest.best position (Edge.nearest · position) path.edges

def Polygon.nearest (p : Polygon K) (position : Point K) : Nearest K :=
  if p.covers position then .touching position
  else Nearest.best position (Path.nearest · position) (p.holes ++ [p.outer])

namespace Box

/-- The corners from the south-west around, clockwise. -/
def corners (b : Box K) : List (Point K) :=
  [⟨b.west, b.south⟩, ⟨b.west, b.north⟩, ⟨b.east, b.north⟩, ⟨b.east, b.south⟩]

def polygon (b : Box K) : Polygon K := .ofPaths b.corners []

end Box

/-- Whether a triangle covers a position: the position does not lie left of one side and right of
another. -/
def triangleCovers (a b c position : Point K) : Bool :=
  let turns := [turnOf a b position, turnOf b c position, turnOf c a position]
  !(turns.contains .left && turns.contains .right)

namespace Shape

/-- The point of the shape nearest to a position. -/
def nearest (shape : Shape K) (position : Point K) : Nearest K :=
  match shape with
  | .point p => if p.same position then .touching p else .apart p
  | .edge e => e.nearest position
  | .path line => Path.nearest line position
  | .polygon p => p.nearest position
  | .points ps =>
    Nearest.best position (fun p => if p.same position then .touching p else .apart p) ps
  | .paths lines => Nearest.best position (Path.nearest · position) lines
  | .polygons ps => Nearest.best position (Polygon.nearest · position) ps
  | .box b =>
    if b.holds position then .touching position
    else Nearest.best position (Edge.nearest · position) (Path.edges b.polygon.outer)
  | .triangle a b c =>
    if triangleCovers a b c position then .touching position
    else Nearest.best position (Edge.nearest · position) [⟨a, b⟩, ⟨b, c⟩, ⟨c, a⟩]
  | .collection shapes => nearestOfAll shapes .none
where
  /-- The best of the shapes of a collection and the best so far. -/
  nearestOfAll : List (Shape K) → Nearest K → Nearest K
    | [], best => best
    | shape :: rest, best =>
      match best with
      | .touching p => .touching p
      | best => nearestOfAll rest (Nearest.better position (nearest shape position) best)

/-- The lines that make up the outline. A point has none. -/
def outline (shape : Shape K) : List (Path K) :=
  match shape with
  | .point _ => []
  | .points _ => []
  | .edge e => [[e.start, e.finish]]
  | .path line => [line]
  | .paths lines => lines
  | .polygon p => p.rings
  | .polygons ps => ps.flatMap Polygon.rings
  | .box b => b.polygon.rings
  | .triangle a b c => (Polygon.ofPaths [a, b, c] []).rings
  | .collection shapes => outlines shapes
where
  outlines : List (Shape K) → List (Path K)
    | [] => []
    | shape :: rest => outline shape ++ outlines rest

/-- All vertices in the order in which they are given. -/
def vertices (shape : Shape K) : List (Point K) :=
  match shape with
  | .point p => [p]
  | .points ps => ps
  | .edge e => [e.start, e.finish]
  | .path line => line
  | .paths lines => lines.flatten
  | .polygon p => p.rings.flatten
  | .polygons ps => ps.flatMap (·.rings.flatten)
  | .box b => b.corners
  | .triangle a b c => [a, b, c]
  | .collection shapes => allVertices shapes
where
  allVertices : List (Shape K) → List (Point K)
    | [] => []
    | shape :: rest => vertices shape ++ allVertices rest

end Shape

end Geotrack
