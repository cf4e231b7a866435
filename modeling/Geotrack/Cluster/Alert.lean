import Geotrack.Cluster.Density
import Geotrack.Geodesy.Sphere
import Geotrack.Json.Parser
import Geotrack.Json.Record
import Geotrack.Number.Reading
import Geotrack.Text.Blank

/-!
# Alerts

An alert is a record of which only the coordinates matter here. Alerts that lie together stand for
one event, so that `Alert.reduce` keeps the first of each cluster with the size of the cluster.
-/

namespace Geotrack

/-- The fields of an alert, sorted by name. -/
abbrev Alert := List (String × Json)

/-- Why alerts cannot be read or clustered. -/
inductive AlertError where
  | invalidRadius (radiusKm : Float)
  | notJson
  | notAnObject (index : Nat)
  deriving Repr, DecidableEq

def AlertError.message : AlertError → String
  | .invalidRadius r =>
    "Invalid clustering radius " ++ Decimal.shortest r ++ " km: expected a positive distance"
  | .notJson => "JSON parse error"
  | .notAnObject i => "Alert at index " ++ toString i ++ " is not a JSON object"

namespace Alert

/-- A field moved to another name. A value that the other name had is replaced. -/
def rename (old new : String) (alert : Alert) : Alert :=
  match Directory.find? old alert with
  | some v => Directory.put new v (Directory.remove old alert)
  | none => alert

/-- The alert with the short names of its coordinates written out. -/
def normalize (alert : Alert) : Alert := rename "long" "longitude" (rename "lat" "latitude" alert)

/-- A coordinate: a number, or a text that writes one. It has to be finite. -/
def coordinate? (v : Json) : Option Float := do
  let x ← match v with
    | .text s => Decimal.read? (trimBlanks s)
    | v => v.float?
  if Binary64.finite x then some x else none

/-- The position of an alert with its full names. -/
def point? (alert : Alert) : Option (Point Float) := do
  let latitude ← coordinate? (← Directory.find? "latitude" alert)
  let longitude ← coordinate? (← Directory.find? "longitude" alert)
  return ⟨longitude, latitude⟩

/-- The records under each positive label, by the label's first appearance. A record without a label
is left out, and so is a label without a record. -/
def groups (records : List α) (labels : List Int32) : List (List α) :=
  let labelled := (labels.zip records).filter fun (l, _) => 0 < l
  (labelled.map (·.1)).eraseDups.map fun l => (labelled.filter (·.1 = l)).map (·.2)

/-- The name of the field that tells how many alerts a record stands for. -/
def sizeField : String := "num_clustered_alerts"

/-- The first record of a group with the size of the group. -/
def representative? (group : List Alert) : Option Alert :=
  group.head?.map (Directory.put sizeField (.integer group.length))

/-- One record for each cluster of alerts within a radius of each other. There are none where the
program stops or never ends over the labels. -/
def reduce (overflow : Density.Overflow) (alerts : List Alert) (radiusKm : Float) (minSize : Nat) :
    Except AlertError (Option (List Alert)) :=
  if !Binary64.finite radiusKm || radiusKm ≤ 0 then .error (.invalidRadius radiusKm)
  else
    let normalized := alerts.map normalize
    let near := Density.closerThan distanceKm radiusKm
    let labels := Density.labels overflow near minSize (normalized.map point?)
    .ok (labels.map fun labels => (groups normalized labels).filterMap representative?)

/-- The alerts of a Json array. -/
def parse (text : String) : Except AlertError (List Alert) :=
  match Json.parse? text with
  | some (.array items) =>
    (items.zipIdx).mapM fun (item, index) =>
      match item with
      | .object fields => .ok fields
      | _ => .error (.notAnObject index)
  | _ => .error .notJson

end Alert

end Geotrack
