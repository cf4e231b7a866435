import Geotrack.Analysis.Call
import Geotrack.Analysis.Environmental
import Geotrack.Analysis.Geofence
import Geotrack.Analysis.Immobility
import Geotrack.Analysis.Proximity

/-!
# Running an analyzer

A run fetches observations if it is given none, makes findings of the trajectory through them, and
then takes the findings one by one: it looks up the latest finding on record, records the new one if
it is worth it, and publishes the event that it calls for. A published event starts the pause of the
configuration; a pause that cannot be started does not matter.
-/

namespace Geotrack

/-- The key of a configuration's pause for a subject. -/
def quietKey (config subject : Uuid) : String :=
  "analyzer_silent__" ++ config.toText ++ "__" ++ subject.toText

/-- What became of a finding. -/
structure Outcome where
  finding : Finding
  /-- The event that was published. -/
  event : Option Event
  deriving Inhabited

/-- Whether a finding ends an alert. -/
def Finding.allClear (this : Finding) (last : Option Finding) : Bool :=
  this.level = .ok && last.any (·.level.alerting)

namespace Analyzer

def reference (a : Analyzer) : AnalyzerReference := a.config.reference

/-- What to fetch when no observations are given. Only two fixes make a leg, so that where one leg
is enough two observations are. -/
def defaultWindow (a : Analyzer) : Window :=
  let window := Window.ofSearchHours a.config.searchHours
  match a.task with
  | .geofence .. => if window.hours.isSome then window else { window with limit := some 2 }
  | .proximity .. => { window with limit := some 2 }
  | _ => window

/-- The findings of a trajectory. -/
def findings (a : Analyzer) (t : Trajectory Float) : Analysis (List Finding) :=
  match a.task with
  | .geofence fences regions => pure (geofenceFindings a.subject a.reference fences regions t)
  | .immobility settings => .ofExcept (immobilityFindings a.subject a.reference settings t)
  | .proximity settings features =>
    pure (proximityFindings a.subject a.reference settings features t)
  | .environmental settings =>
    match t.fixes.getLast? with
    | none => .ofExcept (.error (.shortage .noFixesToSample))
    | some newest => do
      match ← Analysis.ask (.sample t.fixes settings) with
      | none => return [settings.lowFinding a.subject a.reference newest]
      | some mean => return [settings.finding a.subject a.reference newest t.fixes.length mean]

/-- Whether a finding is put on record, given the latest one that is. -/
def records (a : Analyzer) (last : Option Finding) (this : Finding) : Bool :=
  match a.task with
  | .geofence .. => !(last.any (·.time = this.time)) && this.level.alerting
  | .proximity .. => this.level.alerting
  | .immobility _ | .environmental _ => this.level.alerting || this.allClear last

/-- Whether an alert of exposure tells anything new. -/
def exposureChanged (last : Option Finding) (this : Finding) : Bool :=
  last.all fun last => last.level ≠ this.level || last.time < this.time

/-- The kind of event that a finding calls for, given the latest finding on record. -/
def eventKind? (a : Analyzer) (last : Option Finding) (this : Finding) : Option EventKind :=
  let alert : Option EventKind :=
    match a.task with
    | .geofence .. => some .geofenceBreak
    | .proximity .. => some .proximity
    | .immobility _ => some .immobility
    | .environmental _ => if exposureChanged last this then some .environmentalValue else none
  let clear : Option EventKind :=
    match a.task with
    | .immobility _ => some .immobilityAllClear
    | .environmental _ => some .environmentalAllClear
    | _ => none
  if this.level.alerting then alert else if this.allClear last then clear else none

/-- The event that a finding calls for. -/
def event? (a : Analyzer) (last : Option Finding) (this : Finding) : Option Event :=
  (a.eventKind? last this).map fun kind => .ofFinding kind a.subject this

/-- Whether events that tell the same as a published one are dropped. -/
def skipsKnownEvents (a : Analyzer) : Bool := a.config.kind = .geofence

/-- Whether an event is dropped because it is known. -/
def isKnown (a : Analyzer) (event : Event) : Analysis Bool :=
  if a.skipsKnownEvents then Analysis.ask (.known event) else pure false

/-- Starts the pause that follows an event, if there is one to start. -/
def pause (a : Analyzer) : Analysis Unit :=
  match a.config.quietPeriod with
  | none => pure ()
  | some length => ExceptT.lift do
    let _ ← Run.call (.pause (quietKey a.config.id a.subject.id) length)

/-- Records and publishes what a finding calls for. -/
def settle (a : Analyzer) (this : Finding) : Analysis Outcome := do
  let last ← Analysis.ask (.latest a.subject.id a.config.id)
  if a.records last this then Analysis.ask (.record this)
  match a.event? last this with
  | none => return ⟨this, none⟩
  | some event =>
    if ← a.isKnown event then return ⟨this, none⟩
    else
      Analysis.ask (.publish event)
      a.pause
      return ⟨this, some event⟩

/-- The trajectory through the subject's own observations that a filter keeps. -/
def trajectory (a : Analyzer) (observations : List Observation) (filter : TrackFilter Float) :
    Trajectory Float :=
  let own := observations.filter (·.subject = a.subject.id)
  .buildFiltered a.subject.id (own.map Observation.fix) filter

/-- The observations to analyze: those given, or those of the default window if there are none. -/
def observations (a : Analyzer) (given : Option (List Observation)) : Analysis (List Observation) :=
  match given with
  | some (o :: os) => pure (o :: os)
  | _ => Analysis.ask (.observations a.subject.id a.defaultWindow)

/-- One run of the analyzer. -/
def run (a : Analyzer) (given : Option (List Observation)) (filter : TrackFilter Float) :
    Analysis (List Outcome) := do
  let observations ← a.observations given
  let findings ← a.findings (a.trajectory observations filter)
  findings.mapM a.settle

/-- Whether the analyzer pauses. When that cannot be told it does not. -/
def isQuiet (a : Analyzer) : Run Bool :=
  match a.config.quietPeriod with
  | none => .done false
  | some _ => do
    match ← Run.call (.isQuiet (quietKey a.config.id a.subject.id)) with
    | .ok quiet => return quiet
    | .error _ => return false

end Analyzer

end Geotrack
