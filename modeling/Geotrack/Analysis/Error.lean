import Geotrack.Analysis.Config
import Geotrack.Feature.Basic
import Geotrack.Text.Quoted
import Geotrack.Track.Trajectory

/-!
# Errors of an analysis

An analysis can fail because it is not set up right, because there are too few data, or because
something that it calls fails. Each error belongs to a stage.
-/

namespace Geotrack

/-- The stages of an analysis. -/
inductive Stage where
  | setup
  | fetchObservations
  | analyze
  | sample
  | loadHistory
  | recordResult
  | createEvent
  | quietPeriod
  deriving DecidableEq, Repr, Inhabited

instance : Wording Stage where
  all := [.setup, .fetchObservations, .analyze, .sample, .loadHistory, .recordResult, .createEvent,
    .quietPeriod]
  word
    | .setup => "setup"
    | .fetchObservations => "fetch_observations"
    | .analyze => "analyze"
    | .sample => "sample"
    | .loadHistory => "load_history"
    | .recordResult => "record_result"
    | .createEvent => "create_event"
    | .quietPeriod => "quiet_period"

/-- Why a store or service did not do what it was asked to. -/
inductive StoreError where
  /-- The time after this many seconds has no date. -/
  | durationOutOfRange (seconds : Int)
  | unavailable (message : String)
  deriving DecidableEq, Repr

def StoreError.message : StoreError → String
  | .durationOutOfRange seconds => "Duration of " ++ toString seconds ++ "s is out of range"
  | .unavailable message => "Store unavailable: " ++ message

/-- Why an analyzer cannot be set up. -/
inductive ConfigurationError where
  | inactiveSubject (name : String) (id : Uuid)
  | unknownGroup (name : String)
  | wrongKind (config : Uuid) (found wanted : AnalyzerKind)
  | noSampler (config : Uuid)
  deriving DecidableEq, Repr

def ConfigurationError.message : ConfigurationError → String
  | .inactiveSubject name id => "subject " ++ name ++ " (" ++ id.toText ++ ") is not active"
  | .unknownGroup name => "unknown feature group " ++ quoted name
  | .wrongKind config found wanted =>
    "config " ++ config.toText ++ " is a " ++ Wording.word found ++ " configuration, not " ++
      Wording.word wanted
  | .noSampler config => "environmental config " ++ config.toText ++ " needs a raster sampler"

/-- What is missing for an analysis. -/
inductive Shortage where
  | noFixesToTest
  | shortTimespan (found needed : Int)
  | noFixesToSample
  deriving DecidableEq, Repr

def Shortage.message : Shortage → String
  | .noFixesToTest => "no fixes to test"
  | .shortTimespan found needed =>
    "fixes span " ++ toString found ++ "s, immobility needs " ++ toString needed ++ "s"
  | .noFixesToSample => "no fixes to sample"

inductive AnalysisError where
  | configuration (cause : ConfigurationError)
  | shortage (cause : Shortage)
  | geometry (cause : FeatureError Float)
  | statistic (cause : StatisticError Float)
  | call (stage : Stage) (cause : StoreError)
  deriving Repr

namespace AnalysisError

/-- Whether more data may mend the error. -/
def isShortage : AnalysisError → Bool
  | .shortage _ | .statistic .noMeanSpeed | .statistic (.noSpeedPercentile _) => true
  | _ => false

def stage : AnalysisError → Stage
  | .configuration _ | .geometry _ => .setup
  | .shortage _ | .statistic _ => .analyze
  | .call stage _ => stage

def message : AnalysisError → String
  | .configuration cause => "Configuration error: " ++ cause.message
  | .shortage cause => "Insufficient data: " ++ cause.message
  | .geometry cause => "Geometry error: " ++ cause.message
  | .statistic (.invalidPercentile p) =>
    "Trajectory error: " ++ (StatisticError.invalidPercentile p).message
  | .statistic cause => cause.message
  | .call stage cause => Wording.word stage ++ " failed: " ++ cause.message

end AnalysisError

end Geotrack
