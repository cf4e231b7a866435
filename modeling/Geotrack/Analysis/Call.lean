import Geotrack.Analysis.Error
import Geotrack.Analysis.Finding

/-!
# Calls and runs

What an analysis does to the world outside is a list of calls, each of which is answered or fails.
A `Run` is a program that makes calls; `Run.exec` runs it against a `Responder`, which answers calls
over a state. Nothing else of the outside reaches an analysis.
-/

namespace Geotrack

/-- Which observations of a subject to fetch. -/
structure Window where
  /-- Those of so many hours up to now. -/
  hours : Option Float := none
  /-- So many of the newest. -/
  limit : Option Nat := none
  deriving Repr, DecidableEq, Inhabited

/-- The window that reaches back a number of hours; unlimited where the number is not positive. -/
def Window.ofSearchHours (hours : Float) : Window where
  hours := if 0 < hours then some hours else none

/-- A call to the outside and the type of its answer. -/
inductive Call : Type → Type where
  /-- The observations of a subject, oldest first. -/
  | observations (subject : Uuid) (window : Window) : Call (List Observation)
  /-- The mean value of an image at some fixes. -/
  | sample (fixes : List (Fix Float)) (settings : EnvironmentalSettings) : Call (Option Float)
  /-- The latest finding recorded for a subject under a configuration. -/
  | latest (subject config : Uuid) : Call (Option Finding)
  | record (finding : Finding) : Call Unit
  /-- Whether an event that tells the same was published before. -/
  | known (event : Event) : Call Bool
  | publish (event : Event) : Call Unit
  | isQuiet (key : String) : Call Bool
  /-- Starts a pause of so many nanoseconds. -/
  | pause (key : String) (length : Int) : Call Unit

/-- The stage that a failing call belongs to. -/
def Call.stage {β : Type} : Call β → Stage
  | .observations .. => .fetchObservations
  | .sample .. => .sample
  | .latest .. => .loadHistory
  | .record _ => .recordResult
  | .known _ | .publish _ => .createEvent
  | .isQuiet _ | .pause .. => .quietPeriod

/-- A program that makes calls. -/
inductive Run (α : Type) : Type 1 where
  | done (a : α)
  | ask {β : Type} (call : Call β) (next : Except StoreError β → Run α)

/-- A way to answer calls over a state. -/
structure Responder (σ : Type) where
  answer : {β : Type} → Call β → σ → Except StoreError β × σ

namespace Run

def bind {α β : Type} (r : Run α) (f : α → Run β) : Run β :=
  match r with
  | .done a => f a
  | .ask call next => .ask call fun answer => (next answer).bind f

instance : Monad Run where
  pure := .done
  bind := bind

/-- The run of one call that hands its answer on. -/
def call {β : Type} (c : Call β) : Run (Except StoreError β) := .ask c .done

/-- Runs a program against a responder from a state. -/
def exec {σ α : Type} (responder : Responder σ) : Run α → σ → α × σ
  | .done a, s => (a, s)
  | .ask c next, s =>
    let (answer, t) := responder.answer c s
    exec responder (next answer) t

theorem exec_bind {σ α β : Type} (responder : Responder σ) (r : Run α) (f : α → Run β) (s : σ) :
    exec responder (r.bind f) s =
      exec responder (f (exec responder r s).1) (exec responder r s).2 := by
  induction r generalizing s with
  | done a => rfl
  | ask c next ih => exact ih _ _

end Run

/-- A run that may end in an error. -/
abbrev Analysis := ExceptT AnalysisError Run

namespace Analysis

/-- The answer of a call; its failure is an error of the call's stage. -/
def ask {β : Type} (c : Call β) : Analysis β :=
  ExceptT.mk <| Run.bind (Run.call c) fun answer => .done (answer.mapError (.call c.stage))

/-- An answer that needs no call. -/
def ofExcept {α : Type} (result : Except AnalysisError α) : Analysis α := ExceptT.mk (.done result)

end Analysis

end Geotrack
