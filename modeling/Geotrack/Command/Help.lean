import Geotrack.Command.Basic

/-!
# Help pages

A page says what a command is for, how it is called and what its options are. It is made from the
slots of the command's form.
-/

namespace Geotrack.Command

def Topic.about : Topic → String
  | .cluster => "Cluster alerts and print one representative per cluster"
  | .crossings => "Report geofence crossings"
  | .analyze => "Run the configured analyzers over an observations file"
  | .help => "Print this message or the help of the given subcommand(s)"

/-- An option as it is written. -/
def SlotNote.text (note : SlotNote) : String :=
  "--" ++ note.name ++
    match note.placeholder with
    | some word => " <" ++ word ++ ">"
    | none => ""

/-- Entries in two columns. -/
def columns (entries : List (String × String)) : List String :=
  let width := entries.foldl (fun w (left, _) => Nat.max w left.length) 0
  entries.map fun (left, right) => "  " ++ left.pushn ' ' (width - left.length + 2) ++ right

/-- The page of a command with these options. -/
def optionPage (program : String) (topic : Topic) (notes : List SlotNote) : List String :=
  let needed := (notes.filter (·.required)).map fun note => " " ++ note.text
  let usage :=
    "Usage: " ++ program ++ " " ++ Wording.word topic ++ " [OPTIONS]" ++ String.join needed
  let options := notes.flatMap fun note => ["      " ++ note.text, "          " ++ note.about]
  [topic.about, "", usage, "", "Options:"] ++ options ++ ["  -h, --help", "          Print help"]

/-- The page on the whole. -/
def overview (program : String) : List String :=
  let topics : List Topic := Wording.all
  ["Analyze tracked-subject positions for alerts", "",
    "Usage: " ++ program ++ " <COMMAND>", "", "Commands:"] ++
    columns (topics.map fun topic => (Wording.word topic, topic.about)) ++
    ["", "Options:"] ++ columns [("-h, --help", "Print help")]

/-- The page on a topic, under the name that the program is called by. -/
def helpPage (program : String) : Option Topic → List String
  | none => overview program
  | some .cluster => optionPage program .cluster (ClusterForm.slots.map (·.toSlotNote))
  | some .crossings => optionPage program .crossings (CrossingsForm.slots.map (·.toSlotNote))
  | some .analyze =>
    optionPage program .analyze ((AnalyzeForm.slots (program ++ ".toml")).map (·.toSlotNote))
  | some .help =>
    [Topic.about .help, "", "Usage: " ++ program ++ " help [COMMAND]...", "", "Arguments:"] ++
      columns [("[COMMAND]...", "Print help for the subcommand(s)")]

end Geotrack.Command
