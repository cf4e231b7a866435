import Geotrack.Analysis.Run

/-!
# Batches

A batch runs the configured analyzers of a list of subjects. One that fails is counted and does not
stop the others; one that pauses is skipped. Between two subjects the batch can be cancelled.
-/

namespace Geotrack

/-- A subject and the configurations to run for it. -/
structure Job where
  subject : Subject
  configs : List AnalyzerConfig
  deriving Inhabited

/-- What a batch has counted. -/
structure Tally where
  subjects : Nat := 0
  analyzersRun : Nat := 0
  quietSkipped : Nat := 0
  insufficientData : Nat := 0
  failures : Nat := 0
  results : Nat := 0
  events : Nat := 0
  cancelled : Bool := false
  deriving DecidableEq, Repr, Inhabited

/-- A report on how far a lengthy task has come. -/
inductive Progress where
  | total (count : Nat)
  | message (text : String)
  /-- So many units more are done. -/
  | advance (count : Nat)
  | finish (text : String)
  deriving DecidableEq, Repr

namespace Tally

def countError (t : Tally) (e : AnalysisError) : Tally :=
  if e.isShortage then { t with insufficientData := t.insufficientData + 1 }
  else { t with failures := t.failures + 1 }

/-- Counts one run of an analyzer. -/
def countRun (t : Tally) (result : Except AnalysisError (List Outcome)) : Tally :=
  let t := { t with analyzersRun := t.analyzersRun + 1 }
  match result with
  | .ok outcomes =>
    { t with
      results := t.results + outcomes.length
      events := t.events + (outcomes.filter (·.event.isSome)).length }
  | .error e => t.countError e

def summary (t : Tally) : String :=
  toString t.subjects ++ " subject(s), " ++ toString t.analyzersRun ++ " analyzer run(s), " ++
    toString t.events ++ " event(s), " ++ toString t.failures ++ " failure(s)"

end Tally

namespace Batch

/-- What the jobs of a batch have in common: what analyzers are made from, and the filter for the
tracks of each subject. -/
structure Settings where
  context : Analyzer.Context := {}
  filter : Subject → TrackFilter Float := fun _ => {}

/-- Runs one configuration for an active subject. -/
def runConfig (settings : Settings) (subject : Subject) (t : Tally) (config : AnalyzerConfig) :
    Run Tally :=
  match Analyzer.ofConfig subject config settings.context with
  | .error e => pure (t.countError e)
  | .ok a => do
    if ← a.isQuiet then return { t with quietSkipped := t.quietSkipped + 1 }
    else return t.countRun (← (a.run none (settings.filter subject)).run)

/-- Runs the active configurations of a job, if its subject is active. -/
def runJob (settings : Settings) (t : Tally) (job : Job) : Run Tally := do
  let t ← if job.subject.active then
      (job.configs.filter (·.active)).foldlM (runConfig settings job.subject) t
    else pure t
  return { t with subjects := t.subjects + 1 }

/-- Runs jobs until the batch is cancelled. `cancelled n` tells whether it is once `n` jobs are
done. -/
def runJobs (settings : Settings) (cancelled : Nat → Bool) :
    List Job → Tally → Run (Tally × List Progress)
  | [], t => pure (t, [])
  | job :: rest, t =>
    if cancelled t.subjects then pure ({ t with cancelled := true }, [])
    else do
      let t ← runJob settings t job
      let (t, progress) ← runJobs settings cancelled rest t
      return (t, .message job.subject.name :: .advance 1 :: progress)

/-- Runs a batch and reports its progress. -/
def run (settings : Settings) (cancelled : Nat → Bool) (jobs : List Job) :
    Run (Tally × List Progress) := do
  let (t, progress) ← runJobs settings cancelled jobs {}
  return (t, .total jobs.length :: progress ++ [.finish t.summary])

end Batch

end Geotrack
