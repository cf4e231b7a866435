import Geotrack.Analysis.Error
import Geotrack.Analysis.Finding
import Geotrack.Fence.Region

/-!
# Analyzers

An analyzer is a configuration made ready for one active subject: the groups that its settings name
have been looked up in the catalog and turned into fences, regions or features. `Analyzer.ofConfig`
makes the analyzer of a configuration's own kind.
-/

namespace Geotrack

/-- Samples the image that settings name: the mean value at some fixes, if there are values. -/
abbrev Sampler := List (Fix Float) → EnvironmentalSettings → Except StoreError (Option Float)

/-- Features by the name of their group. -/
abbrev Catalog := Directory (List (Feature Float))

/-- The features of a group. -/
def Catalog.group (catalog : Catalog) (name : String) :
    Except AnalysisError (List (Feature Float)) :=
  match Directory.find? name catalog with
  | some features => .ok features
  | none => .error (.configuration (.unknownGroup name))

/-- The features of a group that need not be named. -/
def Catalog.optionalGroup (catalog : Catalog) :
    Option String → Except AnalysisError (List (Feature Float))
  | some name => catalog.group name
  | none => .ok []

/-- What an analyzer looks for. -/
inductive Task where
  | geofence (fences : List (Fence Float)) (regions : List (Region Float))
  | immobility (settings : ImmobilitySettings)
  | proximity (settings : ProximitySettings) (features : List (Feature Float))
  | environmental (settings : EnvironmentalSettings)

def Task.kind : Task → AnalyzerKind
  | .geofence .. => .geofence
  | .immobility _ => .immobility
  | .proximity .. => .proximity
  | .environmental _ => .environmental

structure Analyzer where
  subject : Subject
  config : AnalyzerConfig
  task : Task
  active : subject.active = true
  kind_eq : task.kind = config.kind

namespace Analyzer

/-- The error of settings of another kind than wanted. -/
def wrongKind (config : AnalyzerConfig) (wanted : AnalyzerKind) : AnalysisError :=
  .configuration (.wrongKind config.id config.kind wanted)

/-- The analyzer of a task, unless the subject is inactive. -/
def forSubject (subject : Subject) (config : AnalyzerConfig) (task : Task)
    (h : task.kind = config.kind) : Except AnalysisError Analyzer :=
  if active : subject.active = true then .ok ⟨subject, config, task, active, h⟩
  else .error (.configuration (.inactiveSubject subject.name subject.id))

/-- The fences of the critical group, then those of the warning group. -/
def fencesOf (catalog : Catalog) (settings : GeofenceSettings) :
    Except AnalysisError (List (Fence Float)) := do
  let critical ← catalog.optionalGroup settings.criticalGroup
  let criticalFences ← (Fence.ofFeatures critical .critical).mapError .geometry
  let warning ← catalog.optionalGroup settings.warningGroup
  let warningFences ← (Fence.ofFeatures warning .warning).mapError .geometry
  return criticalFences ++ warningFences

def regionsOf (catalog : Catalog) (settings : GeofenceSettings) :
    Except AnalysisError (List (Region Float)) := do
  let features ← catalog.optionalGroup settings.regionsGroup
  (features.mapM Region.ofFeature).mapError .geometry

def geofence (subject : Subject) (config : AnalyzerConfig) (catalog : Catalog) :
    Except AnalysisError Analyzer :=
  match h : config.settings with
  | .geofence settings => do
    let fences ← fencesOf catalog settings
    let regions ← regionsOf catalog settings
    forSubject subject config (.geofence fences regions)
      (by simp [Task.kind, AnalyzerConfig.kind, h, AnalyzerSettings.kind])
  | _ => .error (wrongKind config .geofence)

def immobility (subject : Subject) (config : AnalyzerConfig) : Except AnalysisError Analyzer :=
  match h : config.settings with
  | .immobility settings =>
    forSubject subject config (.immobility settings)
      (by simp [Task.kind, AnalyzerConfig.kind, h, AnalyzerSettings.kind])
  | _ => .error (wrongKind config .immobility)

def proximity (subject : Subject) (config : AnalyzerConfig) (catalog : Catalog) :
    Except AnalysisError Analyzer :=
  match h : config.settings with
  | .proximity settings => do
    let features ← catalog.group settings.group
    forSubject subject config (.proximity settings features)
      (by simp [Task.kind, AnalyzerConfig.kind, h, AnalyzerSettings.kind])
  | _ => .error (wrongKind config .proximity)

def environmental (subject : Subject) (config : AnalyzerConfig) : Except AnalysisError Analyzer :=
  match h : config.settings with
  | .environmental settings =>
    forSubject subject config (.environmental settings)
      (by simp [Task.kind, AnalyzerConfig.kind, h, AnalyzerSettings.kind])
  | _ => .error (wrongKind config .environmental)

/-- What analyzers are made from. -/
structure Context where
  catalog : Catalog := []
  sampler : Option Sampler := none

/-- The analyzer of a configuration's own kind. An environmental one needs a sampler. -/
def ofConfig (subject : Subject) (config : AnalyzerConfig) (context : Context) :
    Except AnalysisError Analyzer :=
  match config.kind with
  | .geofence => geofence subject config context.catalog
  | .immobility => immobility subject config
  | .proximity => proximity subject config context.catalog
  | .environmental =>
    if context.sampler.isSome then environmental subject config
    else .error (.configuration (.noSampler config.id))

end Analyzer

end Geotrack
