import Geotrack.Command.Form
import Geotrack.Fence.Basic
import Geotrack.Number.Reading
import Geotrack.Time.Timestamp

/-!
# Commands

There are three commands: to reduce alerts to one for each cluster, to list the crossings of fences,
and to run the analyses of a plan. Each has a form that its options fill in.
-/

namespace Geotrack

inductive Command where
  | cluster (input : String) (radiusKm : Float) (minSize : Nat)
  | crossings (fences : String) (regions : Option String) (observations : String)
      (level : WarnLevel)
  | analyze (plan observations : String) (now : Option Instant) (dryRun : Bool)
  deriving Repr

namespace Command

/-- The first words that arguments may start with. -/
inductive Topic where
  | cluster
  | crossings
  | analyze
  | help
  deriving DecidableEq, Repr, Inhabited

instance : Wording Topic where
  all := [.cluster, .crossings, .analyze, .help]
  word
    | .cluster => "cluster"
    | .crossings => "crossings"
    | .analyze => "analyze"
    | .help => "help"

/-- The name of a file, which is not empty. -/
def fileName? (text : String) : Option String := if text.isEmpty then none else some text

structure ClusterForm where
  input : Option String := none
  radiusKm : Option Float := none
  minSize : Option Nat := none

def ClusterForm.slots : List (Slot ClusterForm) :=
  [{ name := "input", placeholder := some "INPUT", required := true
     about := "JSON array of alert objects with `latitude`/`longitude`"
     fill := once fileName? (·.input) fun form input => { form with input } },
   { name := "radius-km", placeholder := some "RADIUS_KM"
     about := "Neighborhood radius in kilometers [default: 4]"
     fill := once Decimal.read? (·.radiusKm) fun form radiusKm => { form with radiusKm } },
   { name := "min-cluster-size", placeholder := some "MIN_CLUSTER_SIZE"
     about := "Minimum number of alerts in a cluster [default: 1]"
     fill := once natural? (·.minSize) fun form minSize => { form with minSize } }]

def ClusterForm.command? (form : ClusterForm) : Option Command := do
  return .cluster (← form.input) (form.radiusKm.getD 4) (form.minSize.getD 1)

structure CrossingsForm where
  fences : Option String := none
  regions : Option String := none
  observations : Option String := none
  level : Option WarnLevel := none

def CrossingsForm.slots : List (Slot CrossingsForm) :=
  [{ name := "fences", placeholder := some "FENCES", required := true
     about := "`GeoJSON` fences (polygons or lines)"
     fill := once fileName? (·.fences) fun form fences => { form with fences } },
   { name := "regions", placeholder := some "REGIONS"
     about := "`GeoJSON` containment regions"
     fill := once fileName? (·.regions) fun form regions => { form with regions } },
   { name := "observations", placeholder := some "OBSERVATIONS", required := true
     about := "Observations CSV"
     fill := once fileName? (·.observations) fun form observations => { form with observations } },
   { name := "warn-level", placeholder := some "WARN_LEVEL"
     about := "Warn level assigned to every fence (WARNING or CRITICAL) [default: CRITICAL]"
     fill := once Wording.ofWord? (·.level) fun form level => { form with level } }]

def CrossingsForm.command? (form : CrossingsForm) : Option Command := do
  return .crossings (← form.fences) form.regions (← form.observations) (form.level.getD .critical)

structure AnalyzeForm where
  plan : Option String := none
  observations : Option String := none
  now : Option Instant := none
  dryRun : Option Unit := none

/-- The slots, where `usual` is the usual name of a plan's file. -/
def AnalyzeForm.slots (usual : String) : List (Slot AnalyzeForm) :=
  [{ name := "config", placeholder := some "CONFIG", required := true
     about := "`" ++ usual ++ "`"
     fill := once fileName? (·.plan) fun form plan => { form with plan } },
   { name := "observations", placeholder := some "OBSERVATIONS", required := true
     about := "Observations CSV"
     fill := once fileName? (·.observations) fun form observations => { form with observations } },
   { name := "now", placeholder := some "NOW"
     about := "Evaluate look-back windows as of this RFC 3339 time instead of now"
     fill := once Timestamp.parse? (·.now) fun form now => { form with now } },
   { name := "dry-run", placeholder := none
     about := "Validate the configuration and build every analyzer without running them"
     fill := once (fun _ => some ()) (·.dryRun) fun form dryRun => { form with dryRun } }]

def AnalyzeForm.command? (form : AnalyzeForm) : Option Command := do
  return .analyze (← form.plan) (← form.observations) form.now form.dryRun.isSome

/-- What arguments ask for. -/
inductive Request where
  | run (command : Command)
  /-- Help on a topic, or on the whole. -/
  | help (topic : Option Topic)
  deriving Repr

/-- The request of a form that was to be filled in. -/
def Request.ofForm? {σ : Type} (topic : Topic) (command? : σ → Option Command) :
    Except Halt σ → Option Request
  | .ok form => (command? form).map .run
  | .error .help => some (.help (some topic))
  | .error .misuse => none

/-- The request of some arguments; none for arguments that cannot be understood. -/
def Request.ofArguments? : List String → Option Request
  | [] => none
  | word :: rest =>
    if asksHelp word then some (.help none)
    else
      match (Wording.ofWord? word : Option Topic) with
      | some .cluster => ofForm? .cluster ClusterForm.command? (fillIn ClusterForm.slots {} rest)
      | some .crossings =>
        ofForm? .crossings CrossingsForm.command? (fillIn CrossingsForm.slots {} rest)
      | some .analyze =>
        ofForm? .analyze AnalyzeForm.command? (fillIn (AnalyzeForm.slots "") {} rest)
      | some .help =>
        match rest with
        | [] => some (.help none)
        | [word] => (Wording.ofWord? word).map fun topic => .help (some topic)
        | _ => none
      | none => none

end Command

end Geotrack
