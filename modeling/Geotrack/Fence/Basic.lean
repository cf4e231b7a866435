import Geotrack.Feature.Basic
import Geotrack.Plane.Boundary
import Geotrack.Text.Wording

/-!
# Fences

A fence is a boundary that a subject should not cross, with the level of the warning when it does.
Areas become fences along their rings, lines become open fences; `Fence.ofFeature` gives one fence
for each part of a feature.
-/

namespace Geotrack

/-- How grave it is to cross a fence. -/
inductive WarnLevel where
  | warning
  | critical
  deriving DecidableEq, Repr, Inhabited

instance : Wording WarnLevel where
  all := [.warning, .critical]
  word
    | .warning => "WARNING"
    | .critical => "CRITICAL"

structure Fence (K : Type) where
  id : String
  name : String
  boundary : Boundary K
  level : WarnLevel
  deriving Repr, Inhabited, DecidableEq

variable {K : Type} [Scalar K]

namespace Fence

/-- The boundary along the rings of a sound polygon. -/
def boundaryOfPolygon (p : Polygon K) : Except (GeometryError K) (Boundary K) := do
  p.validate
  return p.rings

/-- The boundary along a sound line. -/
def boundaryOfPath (line : Path K) : Except (GeometryError K) (Boundary K) := do
  return [← Path.ofPoints line]

/-- The fence around the area within a ring of points. -/
def around (id name : String) (points : Path K) (level : WarnLevel) :
    Except (FeatureError K) (Fence K) := do
  return ⟨id, name, (← (Polygon.ofPoints points).mapError .geometry).rings, level⟩

/-- The fence along a line of points. -/
def along (id name : String) (points : Path K) (level : WarnLevel) :
    Except (FeatureError K) (Fence K) := do
  return ⟨id, name, ← (boundaryOfPath points).mapError .geometry, level⟩

/-- The boundaries of a feature's parts. -/
def boundaries (feature : Feature K) : Except (FeatureError K) (List (Boundary K)) :=
  match feature.shape with
  | .polygon p => ([p].mapM boundaryOfPolygon).mapError .geometry
  | .polygons ps => (ps.mapM boundaryOfPolygon).mapError .geometry
  | .path line => ([line].mapM boundaryOfPath).mapError .geometry
  | .paths lines => (lines.mapM boundaryOfPath).mapError .geometry
  | shape => .error (.unsupportedShape feature.id shape.kind)

/-- The fences along a feature. Its parts share its id and name. -/
def ofFeature (feature : Feature K) (level : WarnLevel) :
    Except (FeatureError K) (List (Fence K)) := do
  return (← boundaries feature).map fun boundary => ⟨feature.id, feature.name, boundary, level⟩

/-- The fences along all features of a list. -/
def ofFeatures (features : List (Feature K)) (level : WarnLevel) :
    Except (FeatureError K) (List (Fence K)) := do
  return (← features.mapM (ofFeature · level)).flatten

end Fence

end Geotrack
