import Geotrack.Feature.Approach
import Geotrack.Fence.Crossing
import Geotrack.Track.Json

/-!
# Crossings and approaches in Json
-/

namespace Geotrack

/-- A list of names as Json. -/
def namesToJson (names : List String) : Json := .array (names.map .text)

def Crossing.toJson (c : Crossing Float) : Json :=
  .object [("subject_id", .text c.subject.toText), ("subject_speed_kmhr", .ofFloat c.speed),
    ("subject_heading", .ofFloat c.heading), ("estimated_cross_fix", c.fix.toJson),
    ("fractional_distance", .ofFloat c.fraction), ("geofence_id", .text c.fenceId),
    ("geofence_name", .text c.fenceName), ("warn_level", .ofWording c.level),
    ("start_region_ids", namesToJson c.startRegions),
    ("end_region_ids", namesToJson c.finishRegions)]

def Approach.toJson (a : Approach Float) : Json :=
  .object [("subject_id", .text a.subject.toText), ("feature_id", .text a.featureId),
    ("feature_name", .text a.featureName), ("proximity_distance_meters", .ofFloat a.distanceMeters),
    ("proximal_fix", a.fix.toJson), ("subject_speed_kmhr", .ofFloat a.speed),
    ("subject_heading", .ofFloat a.heading)]

end Geotrack
