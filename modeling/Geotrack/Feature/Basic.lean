import Geotrack.Plane.Shape

/-!
# Features

A feature is a named shape on the map: a fence line, a protected area, a waterhole. Features come
from a map text or are drawn directly, and are turned into fences and regions.
-/

namespace Geotrack

structure Feature (K : Type) where
  id : String
  name : String
  shape : Shape K
  deriving Repr, Inhabited

/-- Why features cannot be read, or cannot serve as fences or regions. -/
inductive FeatureError (K : Type) where
  | geometry (cause : GeometryError K)
  /-- The text is not a map text. -/
  | notGeoJson
  /-- The text holds a shape without a feature around it. -/
  | bareShape
  | missingId (index : Nat)
  | missingShape (id : String)
  | unsupportedShape (id kind : String)
  deriving Repr, DecidableEq

def FeatureError.message : FeatureError Float → String
  | .geometry cause => "Geometry error: " ++ cause.message
  | .notGeoJson => "GeoJSON error"
  | .bareShape => "Expected a GeoJSON Feature or FeatureCollection"
  | .missingId index => "Feature at index " ++ toString index ++ " has no id"
  | .missingShape id => "Feature " ++ id ++ " has no geometry"
  | .unsupportedShape id kind => "Feature " ++ id ++ " has unsupported geometry type " ++ kind

end Geotrack
