import Geotrack.Analysis.Analyzer

/-!
# Findings of exposure

The mean of an image's values at the fixes of a track is compared with a threshold. Where the image
has no values, the subject counts as not exposed.
-/

namespace Geotrack

namespace EnvironmentalSettings

/-- The finding that a subject is not exposed, without a value. -/
def lowFinding (s : EnvironmentalSettings) (subject : Subject) (analyzer : AnalyzerReference)
    (newest : Fix Float) : Finding where
  subject := subject.id
  analyzer := analyzer
  time := newest.time
  level := .ok
  title := subject.name ++ ": low " ++ s.description
  message := subject.name ++ " is in a low " ++ s.description ++ " area."
  points := [newest.point]

/-- The finding of a mean value. -/
def finding (s : EnvironmentalSettings) (subject : Subject) (analyzer : AnalyzerReference)
    (newest : Fix Float) (fixCount : Nat) (mean : Float) : Finding :=
  let low := { s.lowFinding subject analyzer newest with
    values := .ofList
      [("environmental_descriptor", .text s.description), ("mean_value", .ofFloat mean),
       ("img_name", .text s.image), ("img_band_name", .text s.band),
       ("total_fix_count", .integer fixCount)] }
  if s.threshold < mean then
    { low with
      level := .critical
      title := subject.name ++ ": high " ++ s.description
      message := subject.name ++ " is in a high " ++ s.description ++ " area." }
  else low

end EnvironmentalSettings

end Geotrack
