import Geotrack.Json.Basic

/-!
# Tables of a TOML document

While a document is read its tables remember how they came about, for that decides what may still be
added to them: a header opens a table once, the tables on the way to it may be opened later, and a
table that a key with points has made belongs to the table where the key stands.
-/

namespace Geotrack.Toml

/-- How a table came about. -/
inductive Origin where
  | header
  /-- It lies on the way to a table that has a header. -/
  | implied
  /-- It lies on the way of a key with points. -/
  | dotted
  deriving DecidableEq, Repr

inductive Node where
  | value (v : Json)
  | table (origin : Origin) (entries : List (String × Node))
  /-- A list of tables with one header each, last one first. -/
  | rows (rows : List (List (String × Node)))

mutual

/-- A node as data. -/
def Node.toJson : Node → Json
  | .value v => v
  | .table _ entries => .object (entriesToJson entries)
  | .rows rows => .array (rowsToJson rows).reverse

def entriesToJson : List (String × Node) → List (String × Json)
  | [] => []
  | (name, node) :: rest => (name, node.toJson) :: entriesToJson rest

def rowsToJson : List (List (String × Node)) → List Json
  | [] => []
  | row :: rest => .object (entriesToJson row) :: rowsToJson rest

end

abbrev Entries := Directory Node

/-- Changes the entries of the table at a path; tables that are missing on the way are made. A way
of a header may lead through any table and through the last of a list of tables, a way of a key only
through tables without a header. -/
def Entries.change (onWay : Origin) (f : Origin → Entries → Option Entries) :
    (path : List String) → (origin : Origin) → Entries → Option Entries
  | [], origin, entries => f origin entries
  | name :: path, _, entries =>
    match Directory.find? name entries with
    | none => do
      let inner ← Entries.change onWay f path onWay []
      return Directory.put name (.table onWay inner) entries
    | some (.table origin inner) =>
      if onWay = .dotted ∧ origin = .header then none
      else do
        let inner ← Entries.change onWay f path origin inner
        return Directory.put name (.table origin inner) entries
    | some (.rows (row :: rows)) =>
      if onWay = .dotted then none
      else do
        let row ← Entries.change onWay f path .header row
        return Directory.put name (.rows (row :: rows)) entries
    | some (.rows []) => none
    | some (.value _) => none

/-- Sets the value of a key, which must be new. The table of a key with points must itself come from
such keys. -/
def Entries.set (key : List String) (v : Json) (entries : Entries) : Option Entries := do
  let name ← key.getLast?
  let path := key.dropLast
  let add (origin : Origin) (inner : Entries) : Option Entries :=
    if origin = .dotted ↔ path = [] then none
    else if (Directory.find? name inner).isSome then none
    else some (Directory.put name (.value v) inner)
  Entries.change .dotted add path .header entries

/-- Opens the table of a header. -/
def Entries.openTable (header : List String) (entries : Entries) : Option Entries := do
  let name ← header.getLast?
  let add (_ : Origin) (inner : Entries) : Option Entries :=
    match Directory.find? name inner with
    | none => some (Directory.put name (.table .header []) inner)
    | some (.table .implied old) => some (Directory.put name (.table .header old) inner)
    | some _ => none
  Entries.change .implied add header.dropLast .header entries

/-- Opens one more table of the list of tables that a header names. -/
def Entries.openRow (header : List String) (entries : Entries) : Option Entries := do
  let name ← header.getLast?
  let add (_ : Origin) (inner : Entries) : Option Entries :=
    match Directory.find? name inner with
    | none => some (Directory.put name (.rows [[]]) inner)
    | some (.rows rows) => some (Directory.put name (.rows ([] :: rows)) inner)
    | some _ => none
  Entries.change .implied add header.dropLast .header entries

/-- Sets the value of a key in the table that a header has opened. -/
def Entries.setUnder (header key : List String) (v : Json) (entries : Entries) : Option Entries :=
  Entries.change .implied (fun _ inner => inner.set key v) header .header entries

end Geotrack.Toml
