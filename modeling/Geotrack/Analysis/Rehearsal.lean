import Geotrack.Analysis.Batch

/-!
# Rehearsals

A rehearsal makes every analyzer that the jobs of a batch ask for and runs none. Its trials stand in
the order of the jobs, those of inactive subjects and inactive configurations among them.
-/

namespace Geotrack

/-- The attempt to make one analyzer. -/
structure Trial where
  subject : Subject
  config : AnalyzerConfig
  /-- Why it cannot be made. -/
  problem : Option AnalysisError

namespace Trial

def attempt (context : Analyzer.Context) (subject : Subject) (config : AnalyzerConfig) : Trial :=
  match Analyzer.ofConfig subject config context with
  | .ok _ => ⟨subject, config, none⟩
  | .error e => ⟨subject, config, some e⟩

/-- The trial in a line. -/
def report (t : Trial) : String :=
  let name := t.subject.name ++ " / " ++ t.config.name
  match t.problem with
  | none => "ok    " ++ name ++ " (" ++ Wording.word t.config.kind ++ ")"
  | some e => "error " ++ name ++ ": " ++ e.message

end Trial

/-- The trials of all jobs. -/
def rehearse (context : Analyzer.Context) (jobs : List Job) : List Trial :=
  jobs.flatMap fun job => job.configs.map (Trial.attempt context job.subject)

end Geotrack
