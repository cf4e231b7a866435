import Geotrack.Feature.Basic
import Geotrack.Json.Parser
import Geotrack.Json.Record

/-!
# Features in GeoJSON

`GeoJson.features` reads the features of a GeoJSON text, a single one or a collection. The text is
checked as a whole first. Then each feature in turn gets its id, from its own `id` or from its
properties, its name, which is the id if the properties give none, and its shape.
-/

namespace Geotrack.GeoJson

/-- A position: two numbers or more, of which the first two count. -/
def position? (v : Json) : Option (Point Float) := do
  match ← v.listOf? Json.float? with
  | x :: y :: _ => some ⟨x, y⟩
  | _ => none

def path? (v : Json) : Option (Path Float) := v.listOf? position?

/-- A polygon of its rings, which are closed. Without rings it is empty. -/
def polygon? (v : Json) : Option (Polygon Float) := do
  match ← v.listOf? path? with
  | outer :: holes => some (.ofPaths outer holes)
  | [] => some ⟨[], []⟩

/-- Whether a bounding box is a list of numbers, where there is one. -/
def boxReadable (fields : Json.Fields) : Bool :=
  (Directory.find? "bbox" fields).all fun v => (v.nullable (Json.listOf? Json.float?)).isSome

/-- The shape that an object writes, with collections nested up to a depth. -/
def shape? : (depth : Nat) → Json → Option (Shape Float)
  | 0, _ => none
  | depth + 1, v => do
    let fields ← v.fields?
    let kind ← (← Directory.find? "type" fields).string?
    let coordinates {α : Type} (read : Json → Option α) : Option α :=
      (Directory.find? "coordinates" fields).bind read
    let shape ← match kind with
      | "Point" => (coordinates position?).map Shape.point
      | "MultiPoint" => (coordinates path?).map Shape.points
      | "LineString" => (coordinates path?).map Shape.path
      | "MultiLineString" => (coordinates (Json.listOf? path?)).map Shape.paths
      | "Polygon" => (coordinates polygon?).map Shape.polygon
      | "MultiPolygon" => (coordinates (Json.listOf? polygon?)).map Shape.polygons
      | "GeometryCollection" =>
        let shapes ← (Directory.find? "geometries" fields).bind (Json.listOf? (shape? depth))
        some (Shape.collection shapes)
      | _ => none
    if boxReadable fields then some shape else none

/-- A feature as it stands in a text. -/
structure Draft where
  /-- Its own id. -/
  id : Option Json
  properties : Json.Fields
  shape : Option (Shape Float)

/-- An id: a text or a number. -/
def id? : Json → Option Json
  | .text s => some (.text s)
  | .integer n => some (.integer n)
  | .real x => some (.real x)
  | _ => none

/-- A field that may be missing but not of another kind. -/
def optional? (name : String) (fields : Json.Fields) (read : Json → Option α) : Option (Option α) :=
  match Directory.find? name fields with
  | none => some none
  | some v => (read v).map some

def draft? (v : Json) : Option Draft := do
  let fields ← v.fields?
  let kind ← (← Directory.find? "type" fields).string?
  if kind ≠ "Feature" then none
  let shape ← Json.nullable (shape? Json.deepest) (← Directory.find? "geometry" fields)
  let properties ← optional? "properties" fields (Json.nullable Json.fields?)
  let id ← optional? "id" fields id?
  if boxReadable fields then some ⟨id, properties.join.getD [], shape⟩ else none

/-- The text of a name or id. -/
def idText? : Json → Option String
  | .text s => some s
  | .integer n => some (toString n)
  | .real x => some (Decimal.scientific Decimal.dataStyle x)
  | _ => none

/-- The text of a property; an empty one counts as missing. -/
def Draft.property? (e : Draft) (name : String) : Option String :=
  ((Directory.find? name e.properties).bind idText?).filter (· ≠ "")

/-- The feature of a draft, which stands at an index in its text. -/
def Draft.feature (e : Draft) (index : Nat) : Except (FeatureError Float) (Feature Float) :=
  match (e.id.bind idText?).or (e.property? "id") with
  | none => .error (.missingId index)
  | some id =>
    match e.shape with
    | none => .error (.missingShape id)
    | some shape => .ok ⟨id, (e.property? "name").getD id, shape⟩

/-- The drafts of a text; none for a shape that stands by itself. -/
def drafts? (v : Json) : Option (Option (List Draft)) := do
  let fields ← v.fields?
  let kind ← (← Directory.find? "type" fields).string?
  if kind = "Feature" then (draft? v).map fun e => some [e]
  else if kind = "FeatureCollection" then
    let drafts ← (← Directory.find? "features" fields).listOf? draft?
    if boxReadable fields then some (some drafts) else none
  else (shape? Json.deepest v).map fun _ => none

/-- The features of a text. -/
def features (text : String) : Except (FeatureError Float) (List (Feature Float)) :=
  match (Json.parse? text).bind drafts? with
  | none => .error .notGeoJson
  | some none => .error .bareShape
  | some (some drafts) => drafts.zipIdx.mapM fun (e, index) => e.feature index

end Geotrack.GeoJson
