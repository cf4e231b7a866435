import Geotrack.Analysis.Rehearsal
import Geotrack.Analysis.Tracks
import Geotrack.Cluster.Alert
import Geotrack.Command.Help
import Geotrack.Csv.Observation
import Geotrack.Feature.GeoJson
import Geotrack.Fence.Json
import Geotrack.Json.Printer
import Geotrack.Plan.Document
import Geotrack.Plan.Events

/-!
# What commands do

A command reads files and prints lines. The files and the clock are those of an `Outside`, in any
monad; all else is the work of the library. A command that fails prints nothing.
-/

namespace Geotrack.Command

/-- The files and the clock that commands see, and how the program is built. -/
structure Outside (m : Type → Type) where
  /-- The text of a file, if it can be read. -/
  textOf : String → m (Option String)
  clock : m Instant
  overflow : Density.Overflow := .wraps

/-- Why a command fails. -/
inductive Failure where
  | unreadable (file : String)
  | alerts (cause : AlertError)
  /-- The clusters of the alerts are more than a build that stops there can count. -/
  | overflow
  | features (file : String) (cause : FeatureError Float)
  | group (name : String) (cause : FeatureError Float)
  | observations (cause : Csv.RecordError)
  | notPlan (file : String)
  | plan (cause : PlanError)

def Failure.message : Failure → String
  | .unreadable file => "Failed to read " ++ file
  | .alerts cause => cause.message
  | .overflow => "attempt to add with overflow"
  | .features file cause => file ++ ": " ++ cause.message
  | .group name cause => "Feature group " ++ quoted name ++ ": " ++ cause.message
  | .observations cause => "CSV error: " ++ cause.message
  | .notPlan file => file ++ " is not a plan"
  | .plan cause => cause.message

/-- The file that a name in another file stands for. It is looked for beside that file, unless it
starts at the root. -/
def fileBeside (file name : String) : String :=
  if name.startsWith "/" then name
  else String.ofList (file.toList.reverse.dropWhile (· ≠ '/')).reverse ++ name

section

variable {m : Type → Type} [Monad m]

/-- The work of a command, which may fail. -/
abbrev Work (m : Type → Type) := ExceptT Failure m

def orFail {ε α : Type} (failure : ε → Failure) : Except ε α → Work m α
  | .ok a => pure a
  | .error e => throw (failure e)

def readText (outside : Outside m) (file : String) : Work m String := do
  match ← ExceptT.lift (outside.textOf file) with
  | some text => return text
  | none => throw (.unreadable file)

def readClock (outside : Outside m) : Work m Instant := ExceptT.lift outside.clock

def readFeatures (outside : Outside m) (file : String) : Work m (List (Feature Float)) := do
  orFail (.features file) (GeoJson.features (← readText outside file))

def readObservations (outside : Outside m) (file : String) : Work m (List Observation) := do
  orFail .observations (Observation.ofCsv (← readText outside file))

/-- The features of a plan's groups, in the order of their names. -/
def readCatalog (outside : Outside m) (file : String) (groups : Directory String) :
    Work m Catalog :=
  groups.mapM fun (name, place) => do
    let text ← readText outside (fileBeside file place)
    return (name, ← orFail (.group name) (GeoJson.features text))

/-- Prints one alert for each cluster. -/
def runCluster (outside : Outside m) (input : String) (radiusKm : Float) (minSize : Nat) :
    Work m (List String) := do
  let alerts ← orFail .alerts (Alert.parse (← readText outside input))
  match ← orFail .alerts (Alert.reduce outside.overflow alerts radiusKm minSize) with
  | none => throw .overflow
  | some reduced => return [(Json.array (reduced.map .object)).pretty]

/-- Prints the crossings of fences, with the times at which the search for them began and ended. -/
def runCrossings (outside : Outside m) (fences : String) (regions : Option String)
    (observations : String) (level : WarnLevel) : Work m (List String) := do
  let fences ← orFail (.features fences) (Fence.ofFeatures (← readFeatures outside fences) level)
  let regions ← match regions with
    | some file => do orFail (.features file) ((← readFeatures outside file).mapM Region.ofFeature)
    | none => pure []
  let observations ← readObservations outside observations
  let start ← readClock outside
  let found := observedCrossings fences regions observations
  let finish ← readClock outside
  let result := Json.object [("crossings", .array (found.map Crossing.toJson)),
    ("analysis_start", start.toJson), ("analysis_end", finish.toJson)]
  return [result.pretty]

/-- Prints the events of a plan, or the trials of its analyzers in a dry run. -/
def runAnalyze (outside : Outside m) (file observations : String) (now : Option Instant)
    (dryRun : Bool) : Work m (List String) := do
  match Plan.parse? (← readText outside file) with
  | none => throw (.notPlan file)
  | some plan =>
    let catalog ← readCatalog outside file plan.groups
    let jobs ← orFail .plan plan.jobs
    if dryRun then return (rehearse (plan.batchSettings catalog).context jobs).map Trial.report
    else
      let observations ← readObservations outside observations
      let now ← match now with
        | some now => pure now
        | none => readClock outside
      return (plan.events catalog jobs now observations).map fun event => event.toJson.compact

/-- Does what a command says and gives the lines that it prints. -/
def execute (outside : Outside m) : Command → Work m (List String)
  | .cluster input radiusKm minSize => runCluster outside input radiusKm minSize
  | .crossings fences regions observations level =>
    runCrossings outside fences regions observations level
  | .analyze plan observations now dryRun => runAnalyze outside plan observations now dryRun

/-- How the program ends. -/
inductive Ending where
  | printed (lines : List String)
  | failed (failure : Failure)
  | misused

def Ending.code : Ending → UInt32
  | .printed _ => 0
  | .failed .overflow => 101
  | .failed _ => 1
  | .misused => 2

/-- Answers arguments. -/
def respond (program : String) (outside : Outside m) (arguments : List String) : m Ending := do
  match Request.ofArguments? arguments with
  | none => return .misused
  | some (.help topic) => return .printed (helpPage program topic)
  | some (.run command) =>
    match ← (execute outside command).run with
    | .ok lines => return .printed lines
    | .error failure => return .failed failure

end

end Geotrack.Command
