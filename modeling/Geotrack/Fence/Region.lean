import Geotrack.Feature.Basic
import Geotrack.Fence.Basic
import Geotrack.Text.Directory

/-!
# Regions

A region is a named area that tells where a subject is. Regions may overlap, so that a point can lie
in several. `RegionIndex` looks at the polygons of a region only where its box holds the point.
-/

namespace Geotrack

open Scalar

structure Region (K : Type) where
  id : String
  name : String
  area : List (Polygon K)
  deriving Repr, Inhabited, DecidableEq

variable {K : Type} [Scalar K]

namespace Region

/-- The region of an area feature, all of whose rings are sound. -/
def ofFeature (feature : Feature K) : Except (FeatureError K) (Region K) := do
  let area ← match feature.shape with
    | .polygon p => .ok [p]
    | .polygons ps => .ok ps
    | shape => .error (.unsupportedShape feature.id shape.kind)
  (area.forM Polygon.validate).mapError .geometry
  return ⟨feature.id, feature.name, area⟩

/-- The region within a ring of points. -/
def within (id name : String) (points : Path K) : Except (FeatureError K) (Region K) := do
  return ⟨id, name, [← (Polygon.ofPoints points).mapError .geometry]⟩

/-- Whether a point lies strictly inside one of the region's polygons. -/
def contains (r : Region K) (p : Point K) : Bool := r.area.any (·.contains p)

end Region

/-- The box with one more point. -/
def Box.include (b : Box K) (p : Point K) : Box K :=
  let (west, east) :=
    if lt b.east p.longitude then (b.west, p.longitude)
    else if lt p.longitude b.west then (p.longitude, b.east)
    else (b.west, b.east)
  let (south, north) :=
    if lt b.north p.latitude then (b.south, p.latitude)
    else if lt p.latitude b.south then (p.latitude, b.north)
    else (b.south, b.north)
  ⟨west, south, east, north⟩

/-- The smallest box around points; around none it is the origin. -/
def Box.around : List (Point K) → Box K
  | [] => ⟨zero, zero, zero, zero⟩
  | p :: rest => rest.foldl Box.include ⟨p.longitude, p.latitude, p.longitude, p.latitude⟩

/-- A region with the box around its outer rings. -/
structure RegionIndex.Entry (K : Type) where
  region : Region K
  box : Box K
  deriving Repr, Inhabited

abbrev RegionIndex (K : Type) := List (RegionIndex.Entry K)

namespace RegionIndex

def ofRegions (regions : List (Region K)) : RegionIndex K :=
  regions.map fun r => ⟨r, .around (r.area.flatMap (·.outer))⟩

/-- The ids of the regions that contain a point, in order, each once. -/
def containing (index : RegionIndex K) (p : Point K) : List String :=
  sortedNames ((index.filter fun e => e.box.holds p && e.region.contains p).map (·.region.id))

end RegionIndex

end Geotrack
