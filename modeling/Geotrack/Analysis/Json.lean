import Geotrack.Analysis.Finding
import Geotrack.Number.Scaled
import Geotrack.Track.Json

/-!
# Configurations, findings and events in Json

Each is a record of its fields. The settings of a configuration are one record with the kind in
front: an object that has the kind as one more field, or an array that starts with it.
-/

namespace Geotrack

namespace Uuid

def ofJson? (v : Json) : Option Uuid := v.string?.bind parse?

def toJson (u : Uuid) : Json := .text u.toText

end Uuid

namespace Subject

def ofJson? (v : Json) : Option Subject := do
  let r ← v.record? ["id", "name", "is_active", "subtype"]
  return {
    id := ← r.get? "id" Uuid.ofJson?
    name := ← r.get? "name" Json.string?
    active := ← r.getD? "is_active" true Json.bool?
    subtype := ← r.getD? "subtype" none (Json.nullable Json.string?) }

def toJson (s : Subject) : Json :=
  .object [("id", s.id.toJson), ("name", .text s.name), ("is_active", .bool s.active),
    ("subtype", .ofOption .text s.subtype)]

end Subject

namespace Observation

def ofJson? (v : Json) : Option Observation := do
  let r ← v.record? ["subject_id", "recorded_at", "latitude", "longitude"]
  return {
    subject := ← r.get? "subject_id" Uuid.ofJson?
    time := ← r.get? "recorded_at" Instant.ofJson?
    latitude := ← r.get? "latitude" Json.float?
    longitude := ← r.get? "longitude" Json.float? }

def toJson (o : Observation) : Json :=
  .object [("subject_id", o.subject.toJson), ("recorded_at", o.time.toJson),
    ("latitude", .ofFloat o.latitude), ("longitude", .ofFloat o.longitude)]

end Observation

namespace GeofenceSettings

def ofJson? (v : Json) : Option GeofenceSettings := do
  let r ← v.record?
    ["critical_geofence_group", "warning_geofence_group", "containment_regions_group"]
  return {
    criticalGroup := ← r.optional? "critical_geofence_group" Json.string?
    warningGroup := ← r.optional? "warning_geofence_group" Json.string?
    regionsGroup := ← r.optional? "containment_regions_group" Json.string? }

def fields (s : GeofenceSettings) : Json.Fields :=
  [("critical_geofence_group", .ofOption .text s.criticalGroup),
   ("warning_geofence_group", .ofOption .text s.warningGroup),
   ("containment_regions_group", .ofOption .text s.regionsGroup)]

end GeofenceSettings

namespace ImmobilitySettings

def ofJson? (v : Json) : Option ImmobilitySettings := do
  let r ← v.record? ["threshold_radius_meters", "threshold_time_seconds", "threshold_probability"]
  let initial : ImmobilitySettings := {}
  return {
    radiusMeters := ← r.getD? "threshold_radius_meters" initial.radiusMeters Json.float?
    seconds := ← r.getD? "threshold_time_seconds" initial.seconds
      (Json.integerIn? int64Range.1 int64Range.2)
    share := ← r.getD? "threshold_probability" initial.share Json.float? }

def fields (s : ImmobilitySettings) : Json.Fields :=
  [("threshold_radius_meters", .ofFloat s.radiusMeters),
   ("threshold_time_seconds", .integer s.seconds),
   ("threshold_probability", .ofFloat s.share)]

end ImmobilitySettings

namespace ProximitySettings

def ofJson? (v : Json) : Option ProximitySettings := do
  let r ← v.record? ["spatial_feature_group", "threshold_dist_meters"]
  return {
    group := ← r.get? "spatial_feature_group" Json.string?
    distanceMeters := ← r.getD? "threshold_dist_meters" 500 Json.float? }

def fields (s : ProximitySettings) : Json.Fields :=
  [("spatial_feature_group", .text s.group), ("threshold_dist_meters", .ofFloat s.distanceMeters)]

end ProximitySettings

namespace EnvironmentalSettings

def ofJson? (v : Json) : Option EnvironmentalSettings := do
  let r ← v.record?
    ["image_name", "band_name", "scale_meters", "threshold_value", "short_description"]
  return {
    image := ← r.get? "image_name" Json.string?
    band := ← r.getD? "band_name" "b1" Json.string?
    scaleMeters := ← r.getD? "scale_meters" 500 Json.float?
    threshold := ← r.getD? "threshold_value" 0 Json.float?
    description := ← r.get? "short_description" Json.string? }

def fields (s : EnvironmentalSettings) : Json.Fields :=
  [("image_name", .text s.image), ("band_name", .text s.band),
   ("scale_meters", .ofFloat s.scaleMeters), ("threshold_value", .ofFloat s.threshold),
   ("short_description", .text s.description)]

end EnvironmentalSettings

namespace AnalyzerSettings

/-- The settings of a kind, without the kind. -/
def ofKind? (kind : AnalyzerKind) (v : Json) : Option AnalyzerSettings :=
  match kind with
  | .geofence => (GeofenceSettings.ofJson? v).map .geofence
  | .immobility => (ImmobilitySettings.ofJson? v).map .immobility
  | .proximity => (ProximitySettings.ofJson? v).map .proximity
  | .environmental => (EnvironmentalSettings.ofJson? v).map .environmental

def ofJson? (v : Json) : Option AnalyzerSettings := do
  let (kind, rest) ← match v with
    | .object fields =>
      some (← Directory.find? "kind" fields, Json.object (Directory.remove "kind" fields))
    | .array (kind :: rest) => some (kind, Json.array rest)
    | _ => none
  ofKind? (← kind.string?.bind Wording.ofWord?) rest

def fields : AnalyzerSettings → Json.Fields
  | .geofence s => s.fields
  | .immobility s => s.fields
  | .proximity s => s.fields
  | .environmental s => s.fields

def toJson (s : AnalyzerSettings) : Json := .object (("kind", .ofWording s.kind) :: s.fields)

end AnalyzerSettings

namespace AnalyzerConfig

def ofJson? (v : Json) : Option AnalyzerConfig := do
  let r ← v.record?
    ["id", "name", "revision", "is_active", "search_time_hours", "quiet_period_seconds", "params"]
  return {
    id := ← r.get? "id" Uuid.ofJson?
    name := ← r.get? "name" Json.string?
    revision := ← r.getD? "revision" 1 (Json.word? 32)
    active := ← r.getD? "is_active" true Json.bool?
    searchHours := ← r.getD? "search_time_hours" 24 Json.float?
    quietSeconds := ← r.getD? "quiet_period_seconds" none (Json.nullable (Json.word? 64))
    settings := ← r.get? "params" AnalyzerSettings.ofJson? }

def toJson (c : AnalyzerConfig) : Json :=
  .object [("id", c.id.toJson), ("name", .text c.name), ("revision", .integer c.revision),
    ("is_active", .bool c.active), ("search_time_hours", .ofFloat c.searchHours),
    ("quiet_period_seconds", .ofOption (fun n => .integer n) c.quietSeconds),
    ("params", c.settings.toJson)]

end AnalyzerConfig

namespace AnalyzerReference

def ofJson? (v : Json) : Option AnalyzerReference := do
  let r ← v.record? ["kind", "config_id", "config_revision"]
  return {
    kind := ← r.get? "kind" Json.wording?
    config := ← r.get? "config_id" Uuid.ofJson?
    revision := ← r.get? "config_revision" (Json.word? 32) }

def toJson (a : AnalyzerReference) : Json :=
  .object [("kind", .ofWording a.kind), ("config_id", a.config.toJson),
    ("config_revision", .integer a.revision)]

end AnalyzerReference

namespace Finding

def ofJson? (v : Json) : Option Finding := do
  let r ← v.record? ["id", "subject_id", "analyzer", "analyzer_revision", "estimated_time", "level",
    "title", "message", "values", "geometry"]
  return {
    id := ← r.get? "id" Uuid.ofJson?
    subject := ← r.get? "subject_id" Uuid.ofJson?
    analyzer := ← r.get? "analyzer" AnalyzerReference.ofJson?
    revision := ← r.get? "analyzer_revision" (Json.word? 32)
    time := ← r.get? "estimated_time" Instant.ofJson?
    level := ← r.get? "level" Json.wording?
    title := ← r.get? "title" Json.string?
    message := ← r.get? "message" Json.string?
    values := ← r.getD? "values" [] Json.fields?
    points := ← r.getD? "geometry" [] (Json.listOf? Point.ofJson?) }

def toJson (f : Finding) : Json :=
  .object [("id", f.id.toJson), ("subject_id", f.subject.toJson), ("analyzer", f.analyzer.toJson),
    ("analyzer_revision", .integer f.revision), ("estimated_time", f.time.toJson),
    ("level", .ofWording f.level), ("title", .text f.title),
    ("message", .text f.message), ("values", .object f.values),
    ("geometry", .array (f.points.map Point.toJson))]

end Finding

namespace Event

def ofJson? (v : Json) : Option Event := do
  let r ← v.record? ["id", "title", "event_type", "priority", "event_time", "location",
    "event_details", "related_subject_ids"]
  return {
    id := ← r.get? "id" Uuid.ofJson?
    title := ← r.get? "title" Json.string?
    kind := ← r.get? "event_type" Json.wording?
    priority := ← r.get? "priority" Json.wording?
    time := ← r.get? "event_time" Instant.ofJson?
    location := ← r.optional? "location" Point.ofJson?
    details := ← r.getD? "event_details" [] Json.fields?
    subjects := ← r.get? "related_subject_ids" (Json.listOf? Uuid.ofJson?) }

def toJson (e : Event) : Json :=
  .object [("id", e.id.toJson), ("title", .text e.title), ("event_type", .ofWording e.kind),
    ("priority", .ofWording e.priority), ("event_time", e.time.toJson),
    ("location", .ofOption Point.toJson e.location), ("event_details", .object e.details),
    ("related_subject_ids", .array (e.subjects.map Uuid.toJson))]

end Event

end Geotrack
