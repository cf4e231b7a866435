import Geotrack.Json.Basic
import Geotrack.Number.Power
import Geotrack.Text.Wording

/-!
# Reading records from Json

A record is read from an object by the names of its fields, or from an array that holds its fields
in order. Unknown fields are ignored, an array that is too long is not. A field that is missing
may have a default; an optional field may be missing from an object and may be null in either.
-/

namespace Geotrack.Json

def string? : Json → Option String
  | .text s => some s
  | _ => none

def bool? : Json → Option Bool
  | .bool b => some b
  | _ => none

/-- A whole number between two bounds; a float is none, even one without a fraction. -/
def integerIn? (low high : Int) : Json → Option Int
  | .integer n => if low ≤ n ∧ n ≤ high then some n else none
  | _ => none

/-- A natural number below `2 ^ width`. -/
def word? (width : Nat) (v : Json) : Option Nat :=
  (v.integerIn? 0 (twoTo width - 1)).map Int.toNat

/-- A float; a whole number of 64 bits serves as one. -/
def float? : Json → Option Float
  | .integer n => if -(twoTo 63 : Int) ≤ n ∧ n < twoTo 64 then some (Float.ofInt n) else none
  | .real x => some x
  | _ => none

/-- A value that may be null. -/
def nullable (read : Json → Option α) : Json → Option (Option α)
  | .null => some none
  | v => (read v).map some

def listOf? (read : Json → Option α) : Json → Option (List α)
  | .array items => items.mapM read
  | _ => none

/-- The fields of an object as they are. -/
def fields? : Json → Option (List (String × Json))
  | .object fields => some fields
  | _ => none

/-- The values of an object whose fields are all of one kind. -/
def mapOf? (read : Json → Option α) : Json → Option (List (String × α))
  | .object fields => fields.mapM fun (n, v) => (read v).map (n, ·)
  | _ => none

/-- The name of one case of a choice: a text, or an object with that one name and null. -/
def choice? : Json → Option String
  | .text s => some s
  | .object [(s, .null)] => some s
  | _ => none

/-- A value of a type of words. -/
def wording? [Wording α] (v : Json) : Option α := v.choice?.bind Wording.ofWord?

def ofWording [Wording α] (a : α) : Json := .text (Wording.word a)

/-- The fields of a record as they were found. -/
structure Record where
  /-- Whether the fields were found by name. -/
  named : Bool
  slots : List (String × Json)

/-- The fields of a record with these names. -/
def record? (names : List String) : Json → Option Record
  | .object fields => some ⟨true, fields⟩
  | .array items => if items.length ≤ names.length then some ⟨false, names.zip items⟩ else none
  | _ => none

namespace Record

def get? (r : Record) (name : String) (read : Json → Option α) : Option α :=
  (Directory.find? name r.slots).bind read

def getD? (r : Record) (name : String) (fallback : α) (read : Json → Option α) : Option α :=
  match Directory.find? name r.slots with
  | some v => read v
  | none => some fallback

/-- An optional field. Only an object may leave it out. -/
def optional? (r : Record) (name : String) (read : Json → Option α) : Option (Option α) :=
  match Directory.find? name r.slots with
  | some v => nullable read v
  | none => if r.named then some none else none

end Record

end Geotrack.Json
