import Geotrack.Proofs.Geodesy.Along
import Geotrack.Proofs.Number.Error
import Geotrack.Proofs.Number.Share
import Geotrack.Proofs.Time.Span

/-!
# Times along a segment

A time along a segment is its start moved by a part of the microseconds between its ends. It is not
before the start, and as long as the float of those microseconds does not count more of them than
there are it is not after the end: `interpolateTime_within`. Up to 285 years the float is exact;
beyond, it can be up to 512 microseconds too many.
-/

namespace Geotrack

open Binary64

/-! ### Moved instants -/

namespace Instant

variable {t a b : Instant} {n : ℤ}

theorem shift_zero (t : Instant) : t.shift 0 = t := by
  unfold shift
  split
  case isTrue leap =>
    have hlt := t.nano_lt
    simp only [Int.zero_tdiv, Int.zero_tmod, nanosPerSecond]
    rw [if_neg (by omega), if_neg (by omega)]
    cases t
    simp only [mk.injEq, true_and]
    dsimp only at hlt
    omega
  case isFalse regular =>
    have hlt : t.nano < 1000000000 := by simpa [inLeapSecond] using regular
    cases t
    simp only [ofNanos, toNanos, nanosPerSecond, mk.injEq]
    dsimp only at hlt
    omega

theorem ofNanos_toNanos (regular : t.inLeapSecond = false) : ofNanos t.toNanos = t := by
  simpa [shift, regular] using shift_zero t

/-- An instant moved by the time to a later one, and by some more, is not after that one as a clock
without leap seconds shows it, moved by what is more. -/
theorem shift_since_add_le (order : a ≤ b) (hn : 0 ≤ n) (forward : 0 ≤ b.since a) :
    a.shift (b.since a + n) ≤ ofNanos (b.toNanos + n) := by
  have passed : b.passedLeap a ≤ 1 := by
    unfold passedLeap
    dsimp only
    split
    · exact le_rfl
    · split <;> decide
  obtain ⟨m, hm⟩ : ∃ m, m = b.since a + n := ⟨_, rfl⟩
  have hm0 : 0 ≤ m := by omega
  have hsince := hm
  rw [le_def] at order
  rw [← hm]
  simp only [since, nanosPerSecond] at hsince
  cases leap : a.inLeapSecond with
  | false =>
    have none : b.passedLeap a ≤ 0 := by simp [passedLeap, leap]; split <;> decide
    rw [shift, leap]
    refine ofNanos_mono ?_
    simp only [toNanos, nanosPerSecond]
    omega
  | true =>
    have ha : 1000000000 ≤ a.nano := of_decide_eq_true leap
    have hlt := a.nano_lt
    have same : a.second = b.second → b.passedLeap a = 0 := fun h => by simp [passedLeap, h]
    rw [shift, leap, if_pos rfl]
    simp only [Int.tdiv_eq_ediv_of_nonneg hm0, Int.tmod_eq_emod_of_nonneg hm0, nanosPerSecond]
    split
    case isTrue =>
      refine ofNanos_mono ?_
      simp only [toNanos, nanosPerSecond]
      omega
    case isFalse =>
      -- what stays in the leap second is in the second before or counts the same leap second
      rw [if_neg (by omega)]
      simp only [le_def, ofNanos, toNanos, nanosPerSecond]
      omega

end Instant

/-! ### Microseconds -/

variable {start finish : Instant} {f g : Float}

/-- The microseconds between two instants as a float counts them. -/
def countedMicros (start finish : Instant) : ℤ := roundInt64 (.ofInt (elapsedMicros start finish))

/-- The whole microseconds between two instants. -/
def microsBetween (start finish : Instant) : ℤ := Instant.wholeMicros (finish.since start)

section Micros

variable (forward : 0 ≤ finish.since start)
include forward

theorem microsBetween_nonneg : 0 ≤ microsBetween start finish :=
  Int.tdiv_nonneg forward (by decide)

theorem microsBetween_mul_le : microsBetween start finish * 1000 ≤ finish.since start := by
  rw [microsBetween, Instant.wholeMicros, Int.tdiv_eq_ediv_of_nonneg forward]
  omega

/-- A span too long for 64 bits of microseconds is not counted too long. -/
theorem elapsedMicros_le : elapsedMicros start finish ≤ microsBetween start finish := by
  unfold elapsedMicros
  dsimp only
  split
  case isTrue => exact le_rfl
  case isFalse =>
    refine max_le (le_trans (by decide) (microsBetween_nonneg forward))
      ((min_le_left _ _).trans ?_)
    rw [microsBetween, Instant.wholeMillis, Instant.wholeMicros,
      Int.tdiv_eq_ediv_of_nonneg forward, Int.tdiv_eq_ediv_of_nonneg forward]
    omega

theorem countedMicros_le : countedMicros start finish ≤ microsBetween start finish + 512 := by
  obtain ⟨low, high⟩ := elapsedMicros_bounds forward
  have hle : (elapsedMicros start finish : ℚ) ≤ microsBetween start finish := by
    exact_mod_cast elapsedMicros_le forward
  refine roundInt64_le (ofInt_nonneg low high).1 ?_ ?_
  · have := microsBetween_nonneg forward
    omega
  · have := value_ofInt_le low high
    push_cast
    linarith

/-- Up to 285 years a float counts the microseconds exactly. -/
theorem countedMicros_le_of_near (near : microsBetween start finish ≤ 2 ^ 53) :
    countedMicros start finish ≤ microsBetween start finish := by
  obtain ⟨low, high⟩ := elapsedMicros_bounds forward
  have hle := elapsedMicros_le forward
  refine roundInt64_le (ofInt_nonneg low high).1 (low.trans hle) ?_
  rw [value_ofInt_eq low (hle.trans near)]
  exact_mod_cast hle

end Micros

/-! ### Times -/

theorem unitFraction_of_not_finite (hf : finite f = false) :
    unitFraction f = unitFraction Scalar.zero := by
  have hf' : Scalar.finite f = false := hf
  rw [unitFraction, hf']
  rfl

theorem unitFraction_of_nonpos (hf : finite f = true) (h : value f < 0) :
    unitFraction f = unitFraction Scalar.zero := by
  have hf' : Scalar.finite f = true := hf
  have below : Scalar.lt f Scalar.zero = true := by
    rw [scalar_lt_eq hf finite_scalar_zero, value_scalar_zero]
    exact decide_eq_true h
  rw [unitFraction, if_pos hf', Scalar.clamp, if_pos below]
  rfl

theorem unitFraction_of_one_lt (hf : finite f = true) (h : 1 < value f) :
    unitFraction f = unitFraction Scalar.one := by
  have hf' : Scalar.finite f = true := hf
  have above : Scalar.lt Scalar.one f = true := by
    rw [scalar_lt_eq finite_scalar_one hf, value_scalar_one]
    exact decide_eq_true h
  have below : Scalar.lt f Scalar.zero = false := by
    rw [scalar_lt_eq hf finite_scalar_zero, value_scalar_zero]
    exact decide_eq_false (by linarith)
  rw [unitFraction, if_pos hf', Scalar.clamp, below, above]
  rfl

theorem interpolateTime_congr (h : unitFraction f = unitFraction g) :
    interpolateTime start finish f = interpolateTime start finish g := by
  rw [interpolateTime, h, interpolateTime]

section Times

variable (forward : 0 ≤ finish.since start)
include forward

theorem interpolateTime_zero : interpolateTime start finish (Scalar.zero : Float) = start := by
  obtain ⟨low, high⟩ := elapsedMicros_bounds forward
  have product := mul_rounded (ofInt_nonneg low high).1 finite_zero
  rw [value_zero, mul_zero] at product
  obtain ⟨finite_product, value_product⟩ :=
    product.exact (c := 0) onGrid_zero (by rw [abs_zero]; exact abs_nonneg _)
  have none : roundInt64 (Float.ofInt (elapsedMicros start finish) * 0) = 0 :=
    (roundInt64_congr finite_product finite_zero (value_product.trans value_zero.symm)).trans
      roundInt64_zero
  change start.shift (roundInt64 (Float.ofInt (elapsedMicros start finish) * 0) * 1000) = start
  rw [none, zero_mul, Instant.shift_zero]

theorem interpolateTime_one : interpolateTime start finish (Scalar.one : Float) =
    start.shift (countedMicros start finish * 1000) := by
  obtain ⟨low, high⟩ := elapsedMicros_bounds forward
  have finite_micros := (ofInt_nonneg low high).1
  have product := mul_rounded finite_micros finite_scalar_one
  rw [value_scalar_one, mul_one] at product
  obtain ⟨finite_product, value_product⟩ := product.exact (onGrid_value _) le_rfl
  rw [countedMicros, ← roundInt64_congr finite_product finite_micros value_product]
  rfl

theorem start_le_interpolateTime (f : Float) : start ≤ interpolateTime start finish f := by
  cases hf : finite f with
  | false =>
    rw [interpolateTime_congr (unitFraction_of_not_finite hf), interpolateTime_zero forward]
    exact Instant.le_refl start
  | true =>
    rcases lt_or_ge (value f) 0 with neg | nonneg
    · rw [interpolateTime_congr (unitFraction_of_nonpos hf neg), interpolateTime_zero forward]
      exact Instant.le_refl start
    · have := interpolateTime_mono forward finite_scalar_zero hf (value_scalar_zero.trans_le nonneg)
      rwa [interpolateTime_zero forward] at this

theorem interpolateTime_le_one (f : Float) :
    interpolateTime start finish f ≤ interpolateTime start finish (Scalar.one : Float) := by
  cases hf : finite f with
  | false =>
    rw [interpolateTime_congr (unitFraction_of_not_finite hf), interpolateTime_zero forward]
    exact start_le_interpolateTime forward _
  | true =>
    rcases le_or_gt (value f) 1 with le | gt
    · exact interpolateTime_mono forward hf finite_scalar_one (le.trans_eq value_scalar_one.symm)
    · rw [interpolateTime_congr (unitFraction_of_one_lt hf gt)]
      exact Instant.le_refl _

theorem countedMicros_nonneg : 0 ≤ countedMicros start finish := by
  obtain ⟨low, high⟩ := elapsedMicros_bounds forward
  obtain ⟨finite_micros, nonneg⟩ := ofInt_nonneg low high
  rw [← roundInt64_zero]
  exact roundInt64_mono finite_zero finite_micros (value_zero ▸ nonneg)

/-- If the float counts at most so many nanoseconds more than there are, then no time is later than
the end by more. -/
theorem interpolateTime_le_add {n : ℤ} (order : start ≤ finish) (hn : 0 ≤ n)
    (count : countedMicros start finish * 1000 ≤ finish.since start + n) (f : Float) :
    interpolateTime start finish f ≤ .ofNanos (finish.toNanos + n) := by
  have last := interpolateTime_le_one forward f
  rw [interpolateTime_one forward] at last
  have nonneg := mul_nonneg (countedMicros_nonneg forward) (by decide : (0 : ℤ) ≤ 1000)
  exact Instant.le_trans last
    (Instant.le_trans (Instant.shift_mono nonneg count)
      (Instant.shift_since_add_le order hn forward))

end Times

/-- A float that counts too many microseconds moves the time at fraction 1 past the end. -/
theorem countedMicros_le_of_within (regular : start.inLeapSecond = false)
    (regular' : finish.inLeapSecond = false) (forward : 0 ≤ finish.since start)
    (within : interpolateTime start finish (Scalar.one : Float) ≤ finish) :
    countedMicros start finish ≤ microsBetween start finish := by
  have hs : start.nano < 1000000000 := by simpa [Instant.inLeapSecond] using regular
  have hf : finish.nano < 1000000000 := by simpa [Instant.inLeapSecond] using regular'
  rw [interpolateTime_one forward, Instant.shift, regular, if_neg (by decide),
    Instant.le_iff_toNanos (Instant.ofNanos_regular _) hf, Instant.toNanos_ofNanos] at within
  have hsince := Instant.since_of_regular hf hs
  rw [microsBetween, Instant.wholeMicros, Int.tdiv_eq_ediv_of_nonneg forward]
  omega

/-- A time along a segment is its start for a fraction that is not finite, and for finite ones not
earlier the larger they are. It is not before the start. It is not after the end, and has a date, as
long as the float of the microseconds does not count more than there are, as for all spans up to 285
years; without leap seconds only then. Otherwise it can be up to 512 microseconds later. An end in a
leap second is taken as a clock without them shows it. -/
theorem interpolateTime_within (order : start ≤ finish) (dated : start.inRange = true)
    (dated' : finish.inRange = true)
    (forward : start.inLeapSecond = true → 0 ≤ finish.since start) :
    (∀ f : Float, finite f = false → interpolateTime start finish f = start) ∧
    (∀ f g : Float, finite f = true → finite g = true → f ≤ g →
      interpolateTime start finish f ≤ interpolateTime start finish g) ∧
    (∀ f : Float, start ≤ interpolateTime start finish f) ∧
    (∀ f : Float, interpolateTime start finish f ≤ .ofNanos (finish.toNanos + 512000)) ∧
    (microsBetween start finish ≤ 2 ^ 53 →
      countedMicros start finish ≤ microsBetween start finish) ∧
    (countedMicros start finish ≤ microsBetween start finish →
      ∀ f : Float, interpolateTime start finish f ≤ .ofNanos finish.toNanos) ∧
    (countedMicros start finish ≤ microsBetween start finish → finish.inLeapSecond = false →
      ∀ f : Float, interpolateTime start finish f ≤ finish ∧
        (interpolateTime start finish f).inRange = true) ∧
    (start.inLeapSecond = false → finish.inLeapSecond = false →
      (∀ f : Float, interpolateTime start finish f ≤ finish) →
      countedMicros start finish ≤ microsBetween start finish) := by
  have forward : 0 ≤ finish.since start := by
    cases leap : start.inLeapSecond with
    | true => exact forward leap
    | false => exact Instant.since_nonneg order leap
  have whole := microsBetween_mul_le forward
  have exactly (count : countedMicros start finish ≤ microsBetween start finish) (f : Float) :
      interpolateTime start finish f ≤ .ofNanos finish.toNanos := by
    have := interpolateTime_le_add (n := 0) forward order le_rfl (by omega) f
    rwa [add_zero] at this
  refine ⟨fun f hf => ?_, fun f g hf hg le => ?_, start_le_interpolateTime forward, fun f => ?_,
    countedMicros_le_of_near forward, exactly, fun count regular f => ?_,
    fun regular regular' within => countedMicros_le_of_within regular regular' forward (within _)⟩
  · rw [interpolateTime_congr (unitFraction_of_not_finite hf), interpolateTime_zero forward]
  · exact interpolateTime_mono forward hf hg ((le_iff hf hg).mp le)
  · have := countedMicros_le forward
    exact interpolateTime_le_add forward order (by decide) (by omega) f
  · have notBefore := start_le_interpolateTime forward f
    have notAfter := exactly count f
    rw [Instant.ofNanos_toNanos regular] at notAfter
    simp only [Instant.inRange, Bool.and_eq_true, decide_eq_true_eq] at dated dated' ⊢
    exact ⟨notAfter, Instant.le_trans dated.1 notBefore, Instant.le_trans notAfter dated'.2⟩

/-- Half a second into the leap second at the end of 2016. -/
def newYearsLeap : Instant := { second := 1483228799, nano := 1500000000 }

/-- 2017-01-01T00:00:01.200000001Z. -/
def afterLeap : Instant := { second := 1483228801, nano := 200000001 }

theorem interpolateTime_within_overLeap :
    newYearsLeap ≤ afterLeap ∧ newYearsLeap.inRange = true ∧ afterLeap.inRange = true ∧
    0 ≤ afterLeap.since newYearsLeap ∧
    ∀ f : Float, newYearsLeap ≤ interpolateTime newYearsLeap afterLeap f ∧
      interpolateTime newYearsLeap afterLeap f ≤ afterLeap ∧
      (interpolateTime newYearsLeap afterLeap f).inRange = true := by
  have order : newYearsLeap ≤ afterLeap := by decide
  have dated : newYearsLeap.inRange = true := by decide
  have dated' : afterLeap.inRange = true := by decide
  have forward : 0 ≤ afterLeap.since newYearsLeap := by decide
  obtain ⟨-, -, notBefore, -, near, -, within, -⟩ :=
    interpolateTime_within order dated dated' fun _ => forward
  have count := near (by decide)
  exact ⟨order, dated, dated', forward, fun f => ⟨notBefore f, within count (by decide) f⟩⟩

/-- The `2 ^ 62 + 513` microseconds from the epoch to this instant are 511 more as a float. -/
def farEnd : Instant := .ofNanos ((2 ^ 62 + 513) * 1000)

/-- The last nanosecond of the last day that has a date. -/
def lastDayEnd : Instant := { second := 8210266876799, nano := 999999999 }

/-- The `2 ^ 53 + 3` microseconds from this instant to that one are one more as a float. -/
def beforeLastDayEnd : Instant := .ofNanos (lastDayEnd.toNanos - (2 ^ 53 + 3) * 1000)

/-- A time at the end of so long a span is after the end, and can be one without a date. -/
theorem interpolateTime_pastEnd :
    Instant.epoch ≤ farEnd ∧ Instant.epoch.inRange = true ∧ farEnd.inRange = true ∧
    ¬ interpolateTime .epoch farEnd (1 : Float) ≤ farEnd ∧
    interpolateTime .epoch farEnd (1 : Float) = farEnd.shift 511000 ∧
    beforeLastDayEnd ≤ lastDayEnd ∧ beforeLastDayEnd.inRange = true ∧ lastDayEnd.inRange = true ∧
    (interpolateTime beforeLastDayEnd lastDayEnd (1 : Float)).inRange = false := by
  decide

/-- A time can be past an end in a leap second and before a start in one. -/
example :
    newYearsLeap < interpolateTime { second := 1483228798, nano := 0 } newYearsLeap (1 : Float) ∧
    interpolateTime newYearsLeap { second := 1483228800, nano := 0 } (1 : Float) <
      newYearsLeap := by
  decide

end Geotrack
