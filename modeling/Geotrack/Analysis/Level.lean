import Geotrack.Text.Wording

/-!
# Levels and priorities

A level says how grave a finding is, a priority how urgent the event made from it. Both have numbers
by which other programs know them.
-/

namespace Geotrack

/-- How grave a finding is. -/
inductive Level where
  | ok
  | warning
  | critical
  | error
  deriving DecidableEq, Repr, Inhabited

/-- How urgent an event is. -/
inductive Priority where
  | reference
  | important
  | urgent
  deriving DecidableEq, Repr, Inhabited

instance : Wording Level where
  all := [.ok, .warning, .critical, .error]
  word
    | .ok => "OK"
    | .warning => "WARNING"
    | .critical => "CRITICAL"
    | .error => "ERROR"

instance : Wording Priority where
  all := [.reference, .important, .urgent]
  word
    | .reference => "REFERENCE"
    | .important => "IMPORTANT"
    | .urgent => "URGENT"

namespace Level

def number : Level → Nat
  | .ok => 10
  | .warning => 20
  | .critical => 30
  | .error => 40

/-- The level of a number. -/
def ofNumber? (n : Nat) : Option Level := (Wording.all : List Level).find? (number · = n)

theorem ofNumber?_number (l : Level) : ofNumber? l.number = some l := by cases l <;> rfl

/-- Whether the level calls for an alert. -/
def alerting : Level → Bool
  | .warning | .critical => true
  | .ok | .error => false

def priority : Level → Priority
  | .ok => .reference
  | .warning => .important
  | .critical | .error => .urgent

/-- What is said of a number that no level has. -/
def unknownNumber (n : Nat) : String :=
  "invalid level value " ++ toString n ++ ": expected 10, 20, 30 or 40"

end Level

def Priority.number : Priority → Nat
  | .reference => 100
  | .important => 200
  | .urgent => 300

end Geotrack
