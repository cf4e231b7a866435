import Geotrack.Proofs.Number.Binary64

/-!
# Largest numbers

Floats other than NaN are ordered as their values, with the infinities at both ends. The larger of
two numbers is a number where one of them is, so that the largest of many is one that none of them
exceeds: `isLargest_foldl_max`.
-/

namespace Geotrack.Binary64

open Float.Model
open Float.Model.UnpackedFloat (Sign)

variable {x y acc largest : Float} {xs : List Float}

/-- A value that is out of the reach of finite floats for the infinities. -/
def bounded (x : Float) : ℚ :=
  match x.toModel.unpack with
  | .infinity s => signFactor s * 2 ^ (1024 : ℤ)
  | _ => value x

theorem bounded_of_finite (hx : finite x = true) : bounded x = value x := by
  rw [finite_iff] at hx
  unfold bounded
  cases h : x.toModel.unpack with
  | infinity s => rw [h] at hx; cases hx
  | _ => rfl

/-- Only infinities and NaN are not finite. -/
theorem exists_infinity (hx : x.toModel.unpack ≠ .notANumber) (h : ¬ finite x = true) :
    ∃ s, x.toModel.unpack = .infinity s ∧ bounded x = signFactor s * 2 ^ (1024 : ℤ) := by
  rw [finite_iff] at h
  unfold bounded
  cases hu : x.toModel.unpack with
  | infinity s => exact ⟨s, rfl, rfl⟩
  | notANumber => exact absurd hu hx
  | zero s => exact absurd (by rw [hu]; rfl) h
  | finite s m e hm => exact absurd (by rw [hu]; rfl) h

theorem lt_iff_bounded (hx : x.toModel.unpack ≠ .notANumber) (hy : y.toModel.unpack ≠ .notANumber) :
    x < y ↔ bounded x < bounded y := by
  have ends (u : UnpackedFloat) (h : u.isFinite = true) :
      (UnpackedFloat.infinity .negative).compare u = some .lt ∧
      (UnpackedFloat.infinity .positive).compare u = some .gt ∧
      u.compare (.infinity .positive) = some .lt ∧ u.compare (.infinity .negative) = some .gt := by
    cases u <;> simp_all [UnpackedFloat.compare, UnpackedFloat.isFinite]
  have reach := abs_lt.mp (abs_value_lt x)
  have reach' := abs_lt.mp (abs_value_lt y)
  have unit := two_zpow_pos 1024
  by_cases fx : finite x = true <;> by_cases fy : finite y = true
  · rw [lt_iff fx fy, bounded_of_finite fx, bounded_of_finite fy]
  · obtain ⟨s, hs, hb⟩ := exists_infinity hy fy
    obtain ⟨-, -, above, below⟩ := ends _ (finite_iff.mp fx)
    rw [lt_iff_compare, bounded_of_finite fx, hs, hb]
    cases s with
    | positive => simpa [above, signFactor] using reach.2
    | negative => simpa [below, signFactor] using reach.1.le
  · obtain ⟨s, hs, hb⟩ := exists_infinity hx fx
    obtain ⟨below, above, -⟩ := ends _ (finite_iff.mp fy)
    rw [lt_iff_compare, bounded_of_finite fy, hs, hb]
    cases s with
    | positive => simpa [above, signFactor] using reach'.2.le
    | negative => simpa [below, signFactor] using reach'.1
  · obtain ⟨s, hs, hb⟩ := exists_infinity hx fx
    obtain ⟨s', hs', hb'⟩ := exists_infinity hy fy
    rw [lt_iff_compare, hs, hs', hb, hb']
    have signs : compare Sign.negative Sign.positive = .lt := rfl
    cases s <;> cases s' <;> simp [UnpackedFloat.compare, signFactor, signs]

theorem not_nan_of_lt (h : x < y) : x.toModel.unpack ≠ .notANumber ∧
    y.toModel.unpack ≠ .notANumber := by
  rw [lt_iff_compare] at h
  constructor
  · intro hx
    rw [hx] at h
    cases h
  · intro hy
    rw [hy] at h
    cases hx : x.toModel.unpack <;> rw [hx] at h <;> cases h

theorem eq_self_of_not_nan (hx : x.toModel.unpack ≠ .notANumber) : Scalar.eq x x = true := by
  change (x.toModel.unpack.compare x.toModel.unpack == some .eq) = true
  cases hu : x.toModel.unpack with
  | notANumber => exact absurd hu hx
  | zero s => rfl
  | infinity s => cases s <;> rfl
  | finite s m e hm => cases s <;> simp [UnpackedFloat.compare]

/-- Whether a number is one of a list that none of them exceeds. -/
structure IsLargest (xs : List Float) (largest : Float) : Prop where
  mem : largest ∈ xs
  not_lt : ∀ x ∈ xs, ¬ largest < x

theorem IsLargest.perm {ys : List Float} (h : IsLargest xs largest) (same : xs.Perm ys) :
    IsLargest ys largest :=
  ⟨same.mem_iff.mp h.mem, fun x hx => h.not_lt x (same.mem_iff.mpr hx)⟩

/-- What is not exceeded by the larger of two numbers is exceeded by neither. -/
theorem not_lt_of_not_lt_max (hacc : acc.toModel.unpack ≠ .notANumber)
    (hl : largest.toModel.unpack ≠ .notANumber) (h : ¬ largest < Scalar.max acc x) :
    ¬ largest < acc ∧ ¬ largest < x := by
  rw [Scalar.max, eq_self_of_not_nan hacc, Bool.not_true, if_neg (by decide)] at h
  split at h
  case isTrue lt =>
    obtain ⟨-, hx⟩ := not_nan_of_lt (of_decide_eq_true lt)
    have := (lt_iff_bounded hacc hx).mp (of_decide_eq_true lt)
    rw [lt_iff_bounded hl hx] at *
    exact ⟨fun h' => h (((lt_iff_bounded hl hacc).mp h').trans this), h⟩
  case isFalse ge =>
    refine ⟨h, fun lt => ?_⟩
    obtain ⟨-, hx⟩ := not_nan_of_lt lt
    have ge : ¬ acc < x := fun lt => ge (decide_eq_true lt)
    rw [lt_iff_bounded hl hx] at lt
    rw [lt_iff_bounded hacc hx] at ge
    rw [lt_iff_bounded hl hacc] at h
    linarith

theorem max_mem (hacc : acc.toModel.unpack ≠ .notANumber) :
    Scalar.max acc x = acc ∨ Scalar.max acc x = x ∧ acc < x := by
  rw [Scalar.max, eq_self_of_not_nan hacc, Bool.not_true, if_neg (by decide)]
  split
  case isTrue lt => exact .inr ⟨rfl, of_decide_eq_true lt⟩
  case isFalse => exact .inl rfl

/-- The largest of some numbers is found by taking the larger of two again and again. -/
theorem isLargest_foldl_max (hacc : acc.toModel.unpack ≠ .notANumber) :
    (xs.foldl Scalar.max acc).toModel.unpack ≠ .notANumber ∧
    IsLargest (acc :: xs) (xs.foldl Scalar.max acc) := by
  induction xs generalizing acc with
  | nil =>
    refine ⟨hacc, List.mem_cons_self, fun x hx => ?_⟩
    obtain rfl := List.mem_singleton.mp hx
    exact fun h => not_lt_of_lt h h
  | cons x xs ih =>
    have number : (Scalar.max acc x).toModel.unpack ≠ .notANumber := by
      rcases max_mem (x := x) hacc with h | ⟨h, lt⟩ <;> rw [h]
      · exact hacc
      · exact (not_nan_of_lt lt).2
    obtain ⟨number', mem, not_lt⟩ := ih number
    refine ⟨number', ?_, fun y hy => ?_⟩
    · rcases List.mem_cons.mp mem with h | h
      · rw [List.foldl_cons, h]
        rcases max_mem (x := x) hacc with h | ⟨h, -⟩ <;> simp [h]
      · exact List.mem_cons_of_mem _ (List.mem_cons_of_mem _ h)
    · have both := not_lt_of_not_lt_max hacc number' (not_lt _ List.mem_cons_self)
      rcases List.mem_cons.mp hy with rfl | hy
      · exact both.1
      · rcases List.mem_cons.mp hy with rfl | hy
        · exact both.2
        · exact not_lt y (List.mem_cons_of_mem _ hy)

end Geotrack.Binary64
