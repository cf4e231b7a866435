import Geotrack.Json.Token

/-!
# Reading Json

`Json.parse?` folds the tokens of a text into a value. The containers that are open are held in a
list, innermost first, and at most 127 of them may be open at once. Of two fields of one name the
later one counts.
-/

namespace Geotrack.Json

/-- A container that is open: the items of an array so far, last first, or the fields of an object
so far and the name of the field being read. -/
inductive Frame where
  | array (items : List Json)
  | object (fields : List (String × Json)) (name : String)

/-- What may come next. -/
inductive Expecting where
  /-- A value. -/
  | value (frames : List Frame)
  /-- A value or the end of an array that is still empty. -/
  | firstItem (frames : List Frame)
  /-- The name of a field; the end of the object too while it is empty. -/
  | name (empty : Bool) (fields : List (String × Json)) (frames : List Frame)
  /-- The colon after a name. -/
  | colon (fields : List (String × Json)) (name : String) (frames : List Frame)
  /-- A comma or the end of the array. -/
  | moreItems (items : List Json) (frames : List Frame)
  /-- A comma or the end of the object. -/
  | moreFields (fields : List (String × Json)) (frames : List Frame)
  /-- Nothing: the value is complete. -/
  | done (value : Json)

/-- The containers that may be open at once. -/
def deepest : Nat := 127

/-- The state after a value is complete. -/
def complete (v : Json) : List Frame → Expecting
  | [] => .done v
  | .array items :: frames => .moreItems (v :: items) frames
  | .object fields name :: frames => .moreFields (Directory.put name v fields) frames

/-- The state after a token where a value may start. -/
def startValue (frames : List Frame) : Token → Option Expecting
  | .scalar v => some (complete v frames)
  | .openArray => if frames.length < deepest then some (.firstItem frames) else none
  | .openObject => if frames.length < deepest then some (.name true [] frames) else none
  | _ => none

def step : Expecting → Token → Option Expecting
  | .value frames, t => startValue frames t
  | .firstItem frames, .closeArray => some (complete (.array []) frames)
  | .firstItem frames, t => startValue (.array [] :: frames) t
  | .name _ fields frames, .scalar (.text s) => some (.colon fields s frames)
  | .name true _ frames, .closeObject => some (complete (.object []) frames)
  | .colon fields name frames, .colon => some (.value (.object fields name :: frames))
  | .moreItems items frames, .comma => some (.value (.array items :: frames))
  | .moreItems items frames, .closeArray => some (complete (.array items.reverse) frames)
  | .moreFields fields frames, .comma => some (.name false fields frames)
  | .moreFields fields frames, .closeObject => some (complete (.object fields) frames)
  | _, _ => none

/-- The value that a text writes. -/
def parse? (s : String) : Option Json := do
  match ← (← Token.all? s.toList).foldlM step (.value []) with
  | .done v => some v
  | _ => none

end Geotrack.Json
