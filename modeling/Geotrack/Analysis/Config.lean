import Geotrack.Ident.Uuid
import Geotrack.Text.Wording
import Geotrack.Time.Instant

/-!
# Analyzer configurations

A configuration says what to look for in the tracks of the subjects that it is applied to: crossed
fences, a subject that does not move, a subject near a feature, or exposure to an environment. Its
settings decide its kind.
-/

namespace Geotrack

inductive AnalyzerKind where
  | geofence
  | immobility
  | proximity
  | environmental
  deriving DecidableEq, Repr, Inhabited

instance : Wording AnalyzerKind where
  all := [.geofence, .immobility, .proximity, .environmental]
  word
    | .geofence => "GEOFENCE"
    | .immobility => "IMMOBILITY"
    | .proximity => "PROXIMITY"
    | .environmental => "ENVIRONMENTAL"

/-- The groups of features that serve as fences, by level, and as regions. -/
structure GeofenceSettings where
  criticalGroup : Option String := none
  warningGroup : Option String := none
  regionsGroup : Option String := none
  deriving Repr, DecidableEq, Inhabited

/-- When a subject counts as immobile: a share of its newest fixes lies within a radius of their
middle, and they span more than some time. -/
structure ImmobilitySettings where
  radiusMeters : Float := 13
  seconds : Int := 18000
  share : Float := 0.8
  deriving Repr, DecidableEq

instance : Inhabited ImmobilitySettings := ⟨{}⟩

/-- The group of features to keep away from, and how far. -/
structure ProximitySettings where
  group : String
  distanceMeters : Float := 500
  deriving Repr, DecidableEq, Inhabited

/-- The image to sample, and the mean above which a subject is exposed. -/
structure EnvironmentalSettings where
  image : String
  band : String := "b1"
  scaleMeters : Float := 500
  threshold : Float := 0
  /-- What the image shows, in words. -/
  description : String
  deriving Repr, DecidableEq, Inhabited

inductive AnalyzerSettings where
  | geofence (settings : GeofenceSettings)
  | immobility (settings : ImmobilitySettings)
  | proximity (settings : ProximitySettings)
  | environmental (settings : EnvironmentalSettings)
  deriving Repr, DecidableEq

instance : Inhabited AnalyzerSettings := ⟨.immobility {}⟩

def AnalyzerSettings.kind : AnalyzerSettings → AnalyzerKind
  | .geofence _ => .geofence
  | .immobility _ => .immobility
  | .proximity _ => .proximity
  | .environmental _ => .environmental

structure AnalyzerConfig where
  id : Uuid
  name : String
  /-- Counted up by whoever edits the configuration; below `2 ^ 32`. -/
  revision : Nat := 1
  active : Bool := true
  /-- How far back observations are fetched; not at all limited where it is not positive. -/
  searchHours : Float := 24
  /-- For how long to pause after an event. -/
  quietSeconds : Option Nat := none
  settings : AnalyzerSettings
  deriving Repr, DecidableEq, Inhabited

/-- What a finding remembers of the configuration that it was made under. -/
structure AnalyzerReference where
  kind : AnalyzerKind
  config : Uuid
  revision : Nat
  deriving Repr, DecidableEq, Inhabited

namespace AnalyzerConfig

def kind (c : AnalyzerConfig) : AnalyzerKind := c.settings.kind

def reference (c : AnalyzerConfig) : AnalyzerReference := ⟨c.kind, c.id, c.revision⟩

/-- The pause after an event in nanoseconds: none for zero, and none for one that is longer than any
span. -/
def quietPeriod (c : AnalyzerConfig) : Option Int := do
  let seconds ← c.quietSeconds
  if 0 < seconds then spanOfSeconds? seconds else none

end AnalyzerConfig

end Geotrack
