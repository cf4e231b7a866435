import Geotrack.Json.Record
import Geotrack.Time.Timestamp
import Geotrack.Track.Filter

/-!
# Points, fixes and filters in Json

Each is a record of its fields. Of a filter every field may be left out.
-/

namespace Geotrack

/-- An instant written as a timestamp. -/
def Instant.ofJson? (v : Json) : Option Instant := v.string?.bind Timestamp.parse?

def Instant.toJson (t : Instant) : Json := .text (Timestamp.toText t)

def Point.ofJson? (v : Json) : Option (Point Float) := do
  let r ← v.record? ["longitude", "latitude"]
  return ⟨← r.get? "longitude" Json.float?, ← r.get? "latitude" Json.float?⟩

def Point.toJson (p : Point Float) : Json :=
  .object [("longitude", .ofFloat p.longitude), ("latitude", .ofFloat p.latitude)]

def Fix.ofJson? (v : Json) : Option (Fix Float) := do
  let r ← v.record? ["point", "time"]
  return ⟨← r.get? "point" Point.ofJson?, ← r.get? "time" Instant.ofJson?⟩

def Fix.toJson (f : Fix Float) : Json :=
  .object [("point", f.point.toJson), ("time", f.time.toJson)]

def TrackFilter.ofJson? (v : Json) : Option (TrackFilter Float) := do
  let r ← v.record? ["max_speed_kmhr", "min_length_meters", "drop_invalid_coordinates"]
  return {
    maxSpeed := ← r.getD? "max_speed_kmhr" none (Json.nullable Json.float?)
    minLength := ← r.getD? "min_length_meters" none (Json.nullable Json.float?)
    dropJunk := ← r.getD? "drop_invalid_coordinates" true Json.bool? }

def TrackFilter.toJson (f : TrackFilter Float) : Json :=
  .object [("max_speed_kmhr", Json.ofOption .ofFloat f.maxSpeed),
    ("min_length_meters", Json.ofOption .ofFloat f.minLength),
    ("drop_invalid_coordinates", .bool f.dropJunk)]

end Geotrack
