import Geotrack.Analysis.Run

/-!
# Stores

What a session of analyses keeps: observations, findings on record, published events, pauses and the
time. `Stores.responder` answers calls from them. A service that is down answers nothing and changes
nothing.
-/

namespace Geotrack

structure Stores where
  now : Instant
  /-- All observations in the order in which they came. -/
  observations : List Observation := []
  /-- The findings on record, oldest record first. -/
  findings : List Finding := []
  /-- The published events, first one first. -/
  events : List Event := []
  /-- The end of each pause. -/
  pauses : Directory Instant := []
  deriving Inhabited

namespace Window

/-- The earliest time inside a window that ends now. There is none for a window that reaches back
farther than dates do. -/
def start? (window : Window) (now : Instant) : Option Instant := do
  let hours ← window.hours
  let span ← spanOfMillis? (Binary64.truncateInt64 (hours * 3600000))
  now.plus? (-span)

/-- The newest observations of a list, as many as the window admits. -/
def newest (window : Window) (observations : List Observation) : List Observation :=
  match window.limit with
  | some limit => observations.drop (observations.length - limit)
  | none => observations

end Window

namespace Stores

/-- Adds observations behind those that have come before. -/
def extend (s : Stores) (news : List Observation) : Stores :=
  { s with observations := s.observations ++ news }

/-- The observations of a subject in a window, by time. -/
def observationsOf (s : Stores) (subject : Uuid) (window : Window) : List Observation :=
  let own := s.observations.filter (·.subject = subject)
  let recent := match window.start? s.now with
    | some start => own.filter fun (o : Observation) => start ≤ o.time
    | none => own
  window.newest (recent.mergeSort fun (a b : Observation) => a.time ≤ b.time)

/-- The latest finding for a subject under a configuration; of two of one time the one recorded
later. -/
def latest (s : Stores) (subject config : Uuid) : Option Finding :=
  let own := s.findings.filter fun f => f.subject = subject && f.analyzer.config = config
  let later (best : Option Finding) (f : Finding) : Option Finding :=
    match best with
    | some b => if b.time ≤ f.time then some f else some b
    | none => some f
  own.foldl later none

def record (s : Stores) (f : Finding) : Stores := { s with findings := s.findings ++ [f] }

def publish (s : Stores) (e : Event) : Stores := { s with events := s.events ++ [e] }

/-- Whether an event that tells the same was published. -/
def knows (s : Stores) (e : Event) : Bool := s.events.any (·.same e)

/-- Whether a pause lasts. One that is over is forgotten. -/
def isQuiet (s : Stores) (key : String) : Bool × Stores :=
  match Directory.find? key s.pauses with
  | some finish =>
    if s.now < finish then (true, s)
    else (false, { s with pauses := Directory.remove key s.pauses })
  | none => (false, s)

/-- Starts a pause of so many nanoseconds, or starts it anew. -/
def pause (s : Stores) (key : String) (length : Int) : Except StoreError Stores :=
  match s.now.plus? length with
  | some finish => .ok { s with pauses := Directory.put key finish s.pauses }
  | none => .error (.durationOutOfRange (Instant.wholeSeconds length))

/-- Answers a call. -/
def answer (sampler : Sampler) {β : Type} (call : Call β) (s : Stores) :
    Except StoreError β × Stores :=
  match call with
  | .observations subject window => (.ok (s.observationsOf subject window), s)
  | .sample fixes settings => (sampler fixes settings, s)
  | .latest subject config => (.ok (s.latest subject config), s)
  | .record finding => (.ok (), s.record finding)
  | .known event => (.ok (s.knows event), s)
  | .publish event => (.ok (), s.publish event)
  | .isQuiet key =>
    let (quiet, t) := s.isQuiet key
    (.ok quiet, t)
  | .pause key length =>
    match s.pause key length with
    | .ok t => (.ok (), t)
    | .error e => (.error e, s)

def responder (sampler : Sampler) : Responder Stores := ⟨answer sampler⟩

end Stores

/-- A sampler of an image without values. -/
def noValues : Sampler := fun _ _ => .ok none

/-- What answers a call of an analysis. The sampler answers for itself. -/
inductive Service where
  | fetch
  | load
  | record
  | create
  | exists
  | quietGet
  | quietSet
  deriving DecidableEq, Repr

instance : Wording Service where
  all := [.fetch, .load, .record, .create, .exists, .quietGet, .quietSet]
  word
    | .fetch => "fetch"
    | .load => "load"
    | .record => "record"
    | .create => "create"
    | .exists => "exists"
    | .quietGet => "quiet_get"
    | .quietSet => "quiet_set"

/-- The service that answers a call. -/
def Call.service? {β : Type} : Call β → Option Service
  | .observations .. => some .fetch
  | .sample .. => none
  | .latest .. => some .load
  | .record _ => some .record
  | .known _ => some .exists
  | .publish _ => some .create
  | .isQuiet _ => some .quietGet
  | .pause .. => some .quietSet

/-- A responder some of whose services are down. -/
def Responder.without {σ : Type} (responder : Responder σ) (down : List Service) : Responder σ where
  answer call s :=
    match call.service?.filter down.contains with
    | some service => (.error (.unavailable (Wording.word service ++ " offline")), s)
    | none => responder.answer call s

end Geotrack
