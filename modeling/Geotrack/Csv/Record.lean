import Geotrack.Csv.Row
import Geotrack.Text.Blank

/-!
# Records from tables

The first row of a table names its columns, and each row after it is a record. Blanks at the ends of
names and cells do not count. `Csv.records` reads records up to the first that is at fault.
-/

namespace Geotrack.Csv

/-- The cells of a row with the names of their columns. -/
abbrev Cells := List (String × String)

/-- The cell of a column; none where no column has the name, or several have. -/
def Cells.column? (cells : Cells) (name : String) : Option String :=
  match cells.filter (·.1 = name) with
  | [(_, cell)] => some cell
  | _ => none

/-- What is wrong with a record. -/
inductive Fault where
  | cellCount (expected found : Nat)
  /-- A column is missing or ambiguous, or a cell cannot be read. -/
  | value
  deriving DecidableEq, Repr

/-- The first record that is at fault. The row of names has number 0. -/
structure RecordError where
  line : Nat
  row : Nat
  fault : Fault
  deriving DecidableEq, Repr

def RecordError.message (e : RecordError) : String :=
  "Row " ++ toString e.row ++ " near line " ++ toString e.line ++ ": " ++
    match e.fault with
    | .cellCount expected found => toString found ++ " cell(s) instead of " ++ toString expected
    | .value => "a value is missing or cannot be read"

/-- The record of a row. -/
def record (read : Cells → Option α) (names : List String) (number : Nat) (row : Row) :
    Except RecordError α :=
  if row.cells.length = names.length then
    match read (names.zip (row.cells.map trimBlanks)) with
    | some a => .ok a
    | none => .error ⟨row.line, number, .value⟩
  else .error ⟨row.line, number, .cellCount names.length row.cells.length⟩

/-- The records of a table. -/
def records (read : Cells → Option α) (text : String) : Except RecordError (List α) :=
  match rows text with
  | [] => .ok []
  | header :: body =>
    let names := header.cells.map trimBlanks
    (body.zipIdx 1).mapM fun (row, number) => record read names number row

end Geotrack.Csv
