import Geotrack.Json.Basic
import Geotrack.Number.Decimal

/-!
# Writing Json

`Json.compact` writes a value on one line, `Json.pretty` with an indent of two blanks for each
level. Empty containers stay on one line in both.
-/

namespace Geotrack.Json

/-- A character inside a quoted text. -/
def escaped (c : Char) : String :=
  if c = '"' then "\\\""
  else if c = '\\' then "\\\\"
  else if c = '\x08' then "\\b"
  else if c = '\x0c' then "\\f"
  else if c = '\n' then "\\n"
  else if c = '\r' then "\\r"
  else if c = '\t' then "\\t"
  else if c.toNat < 0x20 then
    "\\u00" ++ String.ofList [Nat.digitChar (c.toNat / 16), Nat.digitChar (c.toNat % 16)]
  else c.toString

def quoted (s : String) : String := "\"" ++ String.join (s.toList.map escaped) ++ "\""

/-- How a container is laid out: what stands between its bracket and its first item at a depth,
between two items, before its last bracket, and between a name and its value. -/
structure Layout where
  start : Nat → String
  between : Nat → String
  finish : Nat → String
  colon : String

def Layout.line : Layout := ⟨fun _ => "", fun _ => ",", fun _ => "", ":"⟩

def Layout.indented : Layout :=
  let newline (depth : Nat) : String := "\n" ++ "".pushn ' ' (2 * depth)
  ⟨fun d => newline (d + 1), fun d => "," ++ newline (d + 1), newline, ": "⟩

def bracket (layout : Layout) (depth : Nat) (left right : String) (parts : List String) : String :=
  if parts.isEmpty then left ++ right
  else
    left ++ layout.start depth ++ (layout.between depth).intercalate parts ++
      layout.finish depth ++ right

mutual

/-- The text of a value that stands inside `depth` containers. -/
def render (layout : Layout) (depth : Nat) : Json → String
  | .null => "null"
  | .bool b => if b then "true" else "false"
  | .integer n => toString n
  | .real x => if Binary64.finite x then Decimal.scientific Decimal.dataStyle x else "null"
  | .text s => quoted s
  | .array items => bracket layout depth "[" "]" (renderItems layout (depth + 1) items)
  | .object fields => bracket layout depth "\x7b" "\x7d" (renderFields layout (depth + 1) fields)

def renderItems (layout : Layout) (depth : Nat) : List Json → List String
  | [] => []
  | v :: rest => render layout depth v :: renderItems layout depth rest

def renderFields (layout : Layout) (depth : Nat) : List (String × Json) → List String
  | [] => []
  | (n, v) :: rest =>
    (quoted n ++ layout.colon ++ render layout depth v) :: renderFields layout depth rest

end

def compact (v : Json) : String := render .line 0 v

def pretty (v : Json) : String := render .indented 0 v

end Geotrack.Json
