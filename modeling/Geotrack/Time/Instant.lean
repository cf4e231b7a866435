import Geotrack.Number.Power

/-!
# Instants

An instant is a count of seconds since 1970-01-01T00:00:00Z and of nanoseconds within the second.
A second that holds a leap second after it is longer: its nanoseconds go on to two thousand
million. Instants are ordered by their seconds, then by their nanoseconds. Differences are whole
numbers of nanoseconds; one that reaches over a leap second counts it where the instants show it.
-/

namespace Geotrack

/-- The nanoseconds of a second without a leap second. -/
def nanosPerSecond : Int := 1000000000

def secondsPerDay : Int := 86400

structure Instant where
  second : Int
  nano : Nat
  nano_lt : nano < 2000000000 := by decide
  deriving DecidableEq, Repr

namespace Instant

/-- 1970-01-01T00:00:00Z. -/
def epoch : Instant := { second := 0, nano := 0 }

instance : Inhabited Instant := ⟨epoch⟩

/-- Whether the instant lies in a leap second. -/
def inLeapSecond (t : Instant) : Bool := 1000000000 ≤ t.nano

/-- The instant a whole number of nanoseconds after the epoch, leap seconds not counted. -/
def ofNanos (n : Int) : Instant :=
  { second := n / nanosPerSecond
    nano := (n % nanosPerSecond).toNat
    nano_lt := by
      have : n % nanosPerSecond < nanosPerSecond := Int.emod_lt_of_pos n (by decide)
      simp only [nanosPerSecond] at this ⊢
      omega }

/-- The nanoseconds from the epoch to the instant, leap seconds not counted. -/
def toNanos (t : Instant) : Int := t.second * nanosPerSecond + t.nano

def lt (a b : Instant) : Prop :=
  a.second < b.second ∨ (a.second = b.second ∧ a.nano < b.nano)

def le (a b : Instant) : Prop :=
  a.second < b.second ∨ (a.second = b.second ∧ a.nano ≤ b.nano)

instance : LT Instant := ⟨lt⟩
instance : LE Instant := ⟨le⟩

instance (a b : Instant) : Decidable (a < b) :=
  inferInstanceAs (Decidable (a.second < b.second ∨ (a.second = b.second ∧ a.nano < b.nano)))

instance (a b : Instant) : Decidable (a ≤ b) :=
  inferInstanceAs (Decidable (a.second < b.second ∨ (a.second = b.second ∧ a.nano ≤ b.nano)))

theorem le_def {a b : Instant} :
    a ≤ b ↔ a.second < b.second ∨ (a.second = b.second ∧ a.nano ≤ b.nano) := Iff.rfl

theorem lt_def {a b : Instant} :
    a < b ↔ a.second < b.second ∨ (a.second = b.second ∧ a.nano < b.nano) := Iff.rfl

theorem le_refl (a : Instant) : a ≤ a := by simp [le_def]

theorem le_trans {a b c : Instant} (h : a ≤ b) (k : b ≤ c) : a ≤ c := by
  simp only [le_def] at *; omega

theorem le_total (a b : Instant) : a ≤ b ∨ b ≤ a := by
  simp only [le_def]; omega

theorem not_le {a b : Instant} : ¬ a ≤ b ↔ b < a := by
  simp only [le_def, lt_def]; omega

theorem not_lt {a b : Instant} : ¬ a < b ↔ b ≤ a := by
  simp only [le_def, lt_def]; omega

theorem le_antisymm {a b : Instant} (h : a ≤ b) (k : b ≤ a) : a = b := by
  cases a; cases b
  simp only [le_def] at h k
  simp only [mk.injEq]
  omega

/-- The first and the last instant that a date can be written for: the years -262143 to 262142. -/
def first : Instant := { second := -8334601228800, nano := 0 }

def last : Instant := { second := 8210266876799, nano := 1999999999 }

/-- Whether an instant has a date. -/
def inRange (t : Instant) : Bool := first ≤ t && t ≤ last

/-- The seconds that a leap second adds between two instants of one day: one more when it lies in
the second of the earlier instant, so that it has passed. -/
def passedLeap (a b : Instant) : Int :=
  let secondA := a.second % secondsPerDay
  let secondB := b.second % secondsPerDay
  if secondB < secondA ∧ b.inLeapSecond then 1
  else if secondA < secondB ∧ a.inLeapSecond then -1
  else 0

/-- The nanoseconds from `b` to `a`. -/
def since (a b : Instant) : Int :=
  (a.second - b.second + passedLeap a b) * nanosPerSecond + ((a.nano : Int) - b.nano)

theorem since_of_regular {a b : Instant} (ha : a.nano < 1000000000) (hb : b.nano < 1000000000) :
    a.since b = a.toNanos - b.toNanos := by
  have h : passedLeap a b = 0 := by
    have : ¬ 1000000000 ≤ a.nano := by omega
    have : ¬ 1000000000 ≤ b.nano := by omega
    simp [passedLeap, inLeapSecond, *]
  simp only [since, h, toNanos, nanosPerSecond]
  omega

/-- The instant `n` nanoseconds later. From within a leap second a step that stays there is kept
there; any other leaves it on the side it goes to. -/
def shift (t : Instant) (n : Int) : Instant :=
  if t.inLeapSecond then
    let seconds := n.tdiv nanosPerSecond
    let nanos := (t.nano : Int) + n.tmod nanosPerSecond
    if 0 < seconds ∨ 2 * nanosPerSecond ≤ nanos then ofNanos (t.toNanos - nanosPerSecond + n)
    else if seconds < 0 then ofNanos (t.toNanos + n)
    else
      { second := t.second
        nano := (min nanos 1999999999).toNat
        nano_lt := by omega }
  else ofNanos (t.toNanos + n)

/-- The instant `n` nanoseconds later, if it has a date. -/
def plus? (t : Instant) (n : Int) : Option Instant :=
  let u := t.shift n
  if u.inRange then some u else none

/-- Whole seconds of a span of nanoseconds, cut off toward zero. -/
def wholeSeconds (n : Int) : Int := n.tdiv 1000000000

/-- Whole milliseconds of a span of nanoseconds, cut off toward zero. -/
def wholeMillis (n : Int) : Int := n.tdiv 1000000

/-- Whole microseconds of a span of nanoseconds, cut off toward zero. -/
def wholeMicros (n : Int) : Int := n.tdiv 1000

end Instant

/-- Spans are limited to what a 64-bit count of milliseconds can hold in either direction. -/
def longestSpanMillis : Int := (twoTo 63 : Int) - 1

/-- A span of so many milliseconds in nanoseconds, if there is one so long. -/
def spanOfMillis? (ms : Int) : Option Int :=
  if -longestSpanMillis ≤ ms ∧ ms ≤ longestSpanMillis then some (ms * 1000000) else none

/-- A span of so many seconds in nanoseconds, if there is one so long. -/
def spanOfSeconds? (s : Int) : Option Int := spanOfMillis? (s * 1000)

end Geotrack
