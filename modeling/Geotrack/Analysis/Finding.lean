import Geotrack.Analysis.Config
import Geotrack.Analysis.Level
import Geotrack.Geodesy.Point
import Geotrack.Json.Basic

/-!
# Subjects, observations, findings and events

A subject is observed at positions. An analysis of its observations makes findings, of which some
are recorded, and events, which are published. `Event.ofFinding` is the event that a finding is
published as.
-/

namespace Geotrack

/-- One that is tracked. -/
structure Subject where
  id : Uuid
  name : String
  active : Bool := true
  /-- The kind of subject, by which its default filter is chosen. -/
  subtype : Option String := none
  deriving Repr, DecidableEq, Inhabited

/-- A report of a subject's position. -/
structure Observation where
  subject : Uuid
  time : Instant
  latitude : Float
  longitude : Float
  deriving Repr, DecidableEq, Inhabited

def Observation.fix (o : Observation) : Fix Float := ⟨⟨o.longitude, o.latitude⟩, o.time⟩

/-- What an analysis has found out about a subject at a time. -/
structure Finding where
  /-- Unset until the finding leaves the program. -/
  id : Uuid := .nil
  subject : Uuid
  analyzer : AnalyzerReference
  /-- The revision of the analysis itself; below `2 ^ 32`. -/
  revision : Nat := 1
  time : Instant
  level : Level
  title : String
  message : String := title
  values : Directory Json := []
  /-- Points that the finding is about. -/
  points : List (Point Float) := []
  deriving Inhabited

/-- The place of a finding is its first point. -/
def Finding.location (f : Finding) : Option (Point Float) := f.points.head?

inductive EventKind where
  | geofenceBreak
  | immobility
  | immobilityAllClear
  | proximity
  | environmentalValue
  | environmentalAllClear
  deriving DecidableEq, Repr, Inhabited

instance : Wording EventKind where
  all := [.geofenceBreak, .immobility, .immobilityAllClear, .proximity, .environmentalValue,
    .environmentalAllClear]
  word
    | .geofenceBreak => "geofence_break"
    | .immobility => "immobility"
    | .immobilityAllClear => "immobility_all_clear"
    | .proximity => "proximity"
    | .environmentalValue => "environmental_value"
    | .environmentalAllClear => "environmental_all_clear"

/-- Something to tell other programs. -/
structure Event where
  /-- Unset until the event leaves the program. -/
  id : Uuid := .nil
  title : String
  kind : EventKind
  priority : Priority
  time : Instant
  location : Option (Point Float)
  details : Directory Json := []
  subjects : List Uuid
  deriving Inhabited

namespace Event

/-- The event of a finding about a subject. Its details are the subject's name and the finding's
values; a value called `name` takes the place of the former. -/
def ofFinding (kind : EventKind) (subject : Subject) (finding : Finding) : Event where
  title := finding.title
  kind := kind
  priority := finding.level.priority
  time := finding.time
  location := finding.location
  details := Directory.putAll [("name", .text subject.name)] finding.values
  subjects := [subject.id]

/-- Whether two events have one location, or both none. -/
def sameLocation (a b : Event) : Bool :=
  match a.location, b.location with
  | some p, some q => p.same q
  | none, none => true
  | _, _ => false

/-- Whether two events tell the same: kind, time, location and subjects are equal. -/
def same (a b : Event) : Bool :=
  a.kind = b.kind && a.time = b.time && a.sameLocation b && a.subjects = b.subjects

end Event

end Geotrack
