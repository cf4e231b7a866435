import Geotrack.Proofs.Analysis.Window
import Geotrack.Proofs.Geodesy.Times
import Geotrack.Proofs.Number.Truncated

/-!
# How far windows reach back

More hours reach back farther. They are counted in milliseconds that 64 bits hold, the largest count
standing for all that are too many, and where dates do not reach as far there is no start, so that
everything is within: `Window.start?_anti`. Only hours that are not negative are so ordered: those
that reach far into the future have no start either.
-/

namespace Geotrack

open Binary64

namespace Instant

variable {t u : Instant} {m n : ℤ}

/-- An instant moved back less is later. -/
theorem shift_neg_mono (h0 : 0 ≤ n) (h : n ≤ m) : t.shift (-m) ≤ t.shift (-n) := by
  unfold shift
  split
  case isFalse => exact ofNanos_mono (by omega)
  case isTrue leap =>
    have hnano : 1000000000 ≤ t.nano := of_decide_eq_true leap
    have hlt := t.nano_lt
    simp only [Int.neg_tdiv, Int.neg_tmod, Int.tdiv_eq_ediv_of_nonneg h0,
      Int.tdiv_eq_ediv_of_nonneg (h0.trans h), Int.tmod_eq_emod_of_nonneg h0,
      Int.tmod_eq_emod_of_nonneg (h0.trans h), nanosPerSecond]
    have ahead (k : ℤ) (hk : 0 ≤ k) :
        ¬ (0 < -(k / 1000000000) ∨ 2 * 1000000000 ≤ (t.nano : ℤ) + -(k % 1000000000)) := by omega
    rw [if_neg (ahead m (h0.trans h)), if_neg (ahead n h0)]
    -- a step back stays in the leap second if it is shorter than a second
    split
    case isTrue =>
      split
      case isTrue => exact ofNanos_mono (by omega)
      case isFalse =>
        simp only [le_def, ofNanos, toNanos, nanosPerSecond]
        omega
    case isFalse =>
      rw [if_neg (by omega)]
      refine .inr ⟨rfl, ?_⟩
      dsimp only
      omega

/-- A shorter way back from an instant with a date ends at a date if a longer one does, and
later. -/
theorem plus?_back (dated : t.inRange = true) (h0 : 0 ≤ n) (h : n ≤ m)
    (hu : t.plus? (-m) = some u) :
    ∃ v, t.plus? (-n) = some v ∧ u ≤ v := by
  have early := shift_neg_mono (t := t) h0 h
  have late : t.shift (-n) ≤ t := by
    have := shift_neg_mono (t := t) le_rfl h0
    rwa [neg_zero, shift_zero] at this
  simp only [plus?, inRange, Bool.and_eq_true, decide_eq_true_eq] at dated hu ⊢
  split at hu
  case isFalse => cases hu
  case isTrue within =>
    obtain rfl := Option.some.inj hu
    rw [if_pos ⟨le_trans within.1 early, le_trans late dated.2⟩]
    exact ⟨_, rfl, early⟩

end Instant

namespace Window

variable {now start : Instant} {g h : Float} {limit limit' : Option Nat}

/-- The milliseconds that hours reach back. -/
def millis (hours : Float) : ℤ := truncateInt64 (hours * 3600000)

theorem millis_mono (g0 : 0 ≤ g) (h0 : 0 ≤ h) (hgh : g ≤ h) : millis g ≤ millis h :=
  truncateInt64_mul_mono (by decide +kernel) h0 (by decide +kernel) g0 hgh

theorem millis_nonneg (h0 : 0 ≤ h) : 0 ≤ millis h :=
  le_trans (by decide +kernel) (millis_mono (g := 0) (by decide +kernel) h0 h0)

theorem start?_hours (h0 : 0 ≤ h) :
    start? { hours := some h, limit } now = now.plus? (-(millis h * 1000000)) := by
  have low := millis_nonneg h0
  have high : millis h ≤ longestSpanMillis := truncateInt64_le _
  have hspan : spanOfMillis? (millis h) = some (millis h * 1000000) :=
    if_pos ⟨le_trans (by decide) low, high⟩
  change (spanOfMillis? (millis h)).bind _ = _
  rw [hspan]
  rfl

/-- A window starts as many milliseconds before now as its hours reach back, if it has any. It has
no start where that is no date, nor for the least count of milliseconds, which stands for all that
are too many the other way. -/
theorem start?_eq_some_iff {w : Window} : w.start? now = some start ↔
    ∃ hours, w.hours = some hours ∧ -2 ^ 63 < millis hours ∧
      start = now.shift (-(millis hours * 1000000)) ∧ start.inRange = true := by
  obtain ⟨hours, limit⟩ := w
  cases hours with
  | none => simp [start?]
  | some hours =>
    have top : longestSpanMillis = 2 ^ 63 - 1 := rfl
    have high : millis hours ≤ longestSpanMillis := truncateInt64_le _
    have spanned : start? { hours := some hours, limit } now =
        if -2 ^ 63 < millis hours then now.plus? (-(millis hours * 1000000)) else none := by
      change (spanOfMillis? (millis hours)).bind _ = _
      rw [spanOfMillis?]
      by_cases low : -2 ^ 63 < millis hours
      · rw [if_pos ⟨by omega, high⟩, if_pos low]
        rfl
      · rw [if_neg (by omega), if_neg low]
        rfl
    rw [spanned, Instant.plus?]
    simp only [Option.some.injEq, exists_eq_left']
    constructor
    · intro h
      split at h
      · split at h
        · cases h
          exact ⟨‹_›, rfl, ‹_›⟩
        · cases h
      · cases h
    · rintro ⟨low, rfl, dated⟩
      rw [if_pos low, if_pos dated]

/-- A window that reaches back no farther starts no earlier, from now on a date. -/
theorem start?_anti (dated : now.inRange = true) (g0 : 0 ≤ g) (h0 : 0 ≤ h) (hgh : g ≤ h)
    (begins : start? { hours := some h, limit } now = some start) :
    ∃ later, start? { hours := some g, limit := limit' } now = some later ∧ start ≤ later := by
  rw [start?_hours h0] at begins
  rw [start?_hours g0]
  have hmillis := millis_mono g0 h0 hgh
  have := millis_nonneg g0
  exact Instant.plus?_back dated (by omega) (by omega) begins

end Window

end Geotrack
