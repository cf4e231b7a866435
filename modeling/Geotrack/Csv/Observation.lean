import Geotrack.Analysis.Batch
import Geotrack.Csv.Record
import Geotrack.Number.Reading
import Geotrack.Time.Timestamp

/-!
# Observations from tables
-/

namespace Geotrack.Observation

/-- The observation in a row, from four of its columns. -/
def ofCells? (cells : Csv.Cells) : Option Observation := do
  return {
    subject := ← Uuid.parse? (← cells.column? "subject_id")
    time := ← Timestamp.parse? (← cells.column? "recorded_at")
    latitude := ← Decimal.read? (← cells.column? "latitude")
    longitude := ← Decimal.read? (← cells.column? "longitude") }

/-- The observations of a table. -/
def ofCsv (text : String) : Except Csv.RecordError (List Observation) := Csv.records ofCells? text

/-- How the reading of observations is reported. -/
def readingProgress (observations : List Observation) : List Progress :=
  observations.map (fun _ => .advance 1) ++
    [.finish (toString observations.length ++ " observation(s)")]

end Geotrack.Observation
