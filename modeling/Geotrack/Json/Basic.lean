import Geotrack.Number.Scaled
import Geotrack.Text.Directory

/-!
# Json values

The data that alerts, settings, results and events are exchanged in. A number is a whole number
where it was written as one that fits 64 bits, and a float otherwise; the two stay apart. The
fields of an object stand in the order in which they are written. Objects that were read are
directories: their fields are sorted by name.
-/

namespace Geotrack

inductive Json where
  | null
  | bool (b : Bool)
  | integer (n : Int)
  | real (x : Float)
  | text (s : String)
  | array (items : List Json)
  | object (fields : List (String × Json))
  deriving Repr, Inhabited, BEq

namespace Json

/-- A float as data: there is no writing for an infinity or a NaN, so it is absent. -/
def ofFloat (x : Float) : Json := if Binary64.finite x then .real x else .null

def ofOption (f : α → Json) : Option α → Json
  | some a => f a
  | none => .null

/-- The fields of an object, by name. -/
abbrev Fields := Directory Json

end Json

end Geotrack
