import Geotrack.Analysis.Analyzer
import Geotrack.Fence.Crossing

/-!
# Findings of crossed fences

Each crossing of a fence is one finding, at the time and place of the crossing and as grave as the
fence says.
-/

namespace Geotrack

def WarnLevel.level : WarnLevel → Level
  | .warning => .warning
  | .critical => .critical

namespace Crossing

/-- The name that the fence is shown by. -/
def fenceTitle (c : Crossing Float) : String :=
  if c.fenceName.isEmpty then "Un-named Feature" else c.fenceName

/-- The names of the regions where the leg ended, each the name of the first region with the id. -/
def regionTitle (c : Crossing Float) (regions : List (Region Float)) : String :=
  let names := c.finishRegions.filterMap fun id => (regions.find? (·.id = id)).map (·.name)
  if names.isEmpty then "Unknown region" else ",".intercalate names

/-- The finding of a crossing. -/
def finding (c : Crossing Float) (subject : Subject) (analyzer : AnalyzerReference)
    (regions : List (Region Float)) (fixCount : Nat) : Finding :=
  let title := subject.name ++ " crossed " ++ c.fenceTitle ++ "."
  { subject := subject.id
    analyzer
    time := c.fix.time
    level := c.level.level
    title
    message := title ++ " Subject now in: " ++ c.regionTitle regions
    values := .ofList
      [("geofence_name", .text c.fenceTitle), ("contain_regions", .text (c.regionTitle regions)),
       ("total_fix_count", .integer fixCount), ("subject_speed_kmhr", .ofFloat c.speed),
       ("subject_heading", .ofFloat c.heading)]
    points := [c.fix.point] }

end Crossing

/-- The findings of all crossings of a trajectory. -/
def geofenceFindings (subject : Subject) (analyzer : AnalyzerReference)
    (fences : List (Fence Float)) (regions : List (Region Float)) (t : Trajectory Float) :
    List Finding :=
  (crossings fences regions [t]).map (·.finding subject analyzer regions t.fixes.length)

end Geotrack
