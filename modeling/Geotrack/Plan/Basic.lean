import Geotrack.Analysis.Batch
import Geotrack.Text.Quoted

/-!
# Plans

A plan says which analyzers there are and which of them run for which subject. `Plan.jobs` looks the
names of the analyzers up: it needs every analyzer to have a name of its own and every subject to
name analyzers of the plan.
-/

namespace Geotrack

/-- A subject and the names of the analyzers to run for it. -/
structure Assignment where
  subject : Subject
  analyzers : List String
  deriving Inhabited

structure Plan where
  /-- The file of each group of features, as seen from the plan. -/
  groups : Directory String := []
  /-- The filter for the tracks of each subtype of subjects. -/
  filters : Directory (TrackFilter Float) := []
  analyzers : List AnalyzerConfig := []
  assignments : List Assignment := []
  deriving Inhabited

/-- Why a plan has no jobs. -/
inductive PlanError where
  | repeatedAnalyzer (name : String)
  | unknownAnalyzer (subject name : String)
  deriving DecidableEq, Repr

def PlanError.message : PlanError → String
  | .repeatedAnalyzer name => "Analyzer name " ++ quoted name ++ " is used more than once"
  | .unknownAnalyzer subject name =>
    "Subject " ++ quoted subject ++ " refers to unknown analyzer " ++ quoted name

/-- The first name of a list that was seen before, in the list or among `seen`. -/
def firstRepeat? (seen : List String) : List String → Option String
  | [] => none
  | name :: rest => if name ∈ seen then some name else firstRepeat? (name :: seen) rest

namespace Plan

/-- The analyzer of a name, the first one. -/
def analyzer? (plan : Plan) (name : String) : Option AnalyzerConfig :=
  plan.analyzers.find? (·.name = name)

/-- The job of one subject. -/
def job (plan : Plan) (assignment : Assignment) : Except PlanError Job := do
  let configs ← assignment.analyzers.mapM fun name =>
    match plan.analyzer? name with
    | some config => .ok config
    | none => .error (.unknownAnalyzer assignment.subject.name name)
  return ⟨assignment.subject, configs⟩

/-- The jobs of all subjects, in order. -/
def jobs (plan : Plan) : Except PlanError (List Job) :=
  match firstRepeat? [] (plan.analyzers.map (·.name)) with
  | some name => .error (.repeatedAnalyzer name)
  | none => plan.assignments.mapM plan.job

/-- The filter for the tracks of a subject: the one of its subtype, or the usual one. -/
def filterOf (plan : Plan) (subject : Subject) : TrackFilter Float :=
  (subject.subtype.bind (Directory.find? · plan.filters)).getD {}

end Plan

end Geotrack
