import Geotrack.Proofs.Number.Error
import Geotrack.Proofs.Number.Largest
import Geotrack.Proofs.Number.Share

/-!
# Products cut off to whole numbers

A product that is too large for 64 bits, infinite ones among them, is cut off at the largest number
that they hold. So the whole part of a product grows with a factor that is not negative, however
large it is: `truncateInt64_mul_mono`.
-/

namespace Geotrack.Binary64

open Float.Model
open Float.Model.UnpackedFloat (Sign)

variable {c g h x y : Float}

theorem truncateInt64_le (x : Float) : truncateInt64 x ≤ int64Range.2 := by
  unfold truncateInt64
  split
  · exact max_le (by decide) (min_le_right _ _)
  · split
    · decide
    · split
      · exact le_rfl
      · decide

/-- A number that is not negative is cut off at the whole number below it. -/
theorem truncateInt64_eq_floor (hx : finite x = true) (h0 : 0 ≤ value x) :
    truncateInt64 x = clampInt64 ⌊value x⌋ := by
  obtain ⟨r, hr⟩ := Option.isSome_iff_exists.mp hx
  have hvalue := ofFloat?_value hr
  have nonneg : 0 ≤ r.mantissa := r.mantissa_nonneg_iff.mpr (hvalue ▸ h0)
  rw [truncateInt64, hr]
  dsimp only
  rw [if_pos nonneg, r.floor_eq, hvalue]

theorem truncateInt64_mono (hx : finite x = true) (hy : finite y = true) (h0 : 0 ≤ value x)
    (h : value x ≤ value y) : truncateInt64 x ≤ truncateInt64 y := by
  rw [truncateInt64_eq_floor hx h0, truncateInt64_eq_floor hy (h0.trans h)]
  exact clampInt64_mono (Int.floor_mono h)

theorem unpack_of_pos (hx : finite x = false) (pos : 0 < x) :
    x.toModel.unpack = .infinity .positive := by
  have hside := zero_lt_iff.mp pos
  have hx : ¬ x.toModel.unpack.isFinite = true := by rw [← finite_iff, hx]; decide
  rw [side] at hside
  cases hu : x.toModel.unpack with
  | infinity s =>
    rw [hu] at hside
    rw [Option.some.inj hside]
  | finite s m e hm => rw [hu] at hx; exact absurd rfl hx
  | zero s => rw [hu] at hx; exact absurd rfl hx
  | notANumber => rw [hu] at hside; cases hside

theorem truncateInt64_of_pos (hx : finite x = false) (pos : 0 < x) :
    truncateInt64 x = int64Range.2 := by
  have hnone : Scaled.ofFloat? x = none :=
    Option.not_isSome_iff_eq_none.mp (Bool.eq_false_iff.mp hx)
  have hnan : x.isNaN = false := by
    change x.toModel.unpack.isNaN = false
    rw [unpack_of_pos hx pos]
    rfl
  rw [truncateInt64, hnone]
  dsimp only
  rw [hnan, if_neg Bool.false_ne_true, if_pos pos]

/-- What is not negative is a finite number or infinity. -/
theorem pos_of_nonneg (h0 : 0 ≤ h) (hh : finite h = false) : 0 < h := by
  have hh : ¬ h.toModel.unpack.isFinite = true := by rw [← finite_iff, hh]; decide
  rw [le_iff_compare, unpack_zero_float] at h0
  rw [zero_lt_iff, side]
  cases hu : h.toModel.unpack with
  | infinity s =>
    rw [hu] at h0
    cases s with
    | positive => rfl
    | negative => simp [UnpackedFloat.compare] at h0
  | finite s m e hm => rw [hu] at hh; exact absurd rfl hh
  | zero s => rw [hu] at hh; exact absurd rfl hh
  | notANumber => rw [hu] at h0; simp [UnpackedFloat.compare] at h0

/-- Products of numbers of one value are of one value. -/
theorem mul_congr_value (hg : finite g = true) (hh : finite h = true) (hc : finite c = true)
    (same : value g = value h) (hx : finite (h * c) = true) :
    finite (g * c) = true ∧ value (g * c) = value (h * c) := by
  rcases same_or_zero same with hunpack | ⟨hg0, hh0⟩
  · have : g * c = h * c := congrArg (fun u => Float.ofModel (Float.Model.pack
      (UnpackedFloat.mul .binary64 u c.toModel.unpack))) hunpack
    rw [this]
    exact ⟨hx, rfl⟩
  · have left := mul_rounded hg hc
    have right := mul_rounded hh hc
    rw [hg0, zero_mul] at left
    rw [hh0, zero_mul] at right
    have hle : |(0 : ℚ)| ≤ |value c| := by simp
    obtain ⟨finite_left, value_left⟩ := left.exact onGrid_zero hle
    exact ⟨finite_left, value_left.trans (right.exact onGrid_zero hle).2.symm⟩

section Product

variable (c0 : 0 < value c) (h0 : 0 ≤ h)
include c0 h0

/-- An infinite number that is not negative stays so in a product with a positive one. -/
theorem unpack_mul_of_not_finite (hc : finite c = true) (hh : finite h = false) :
    (h * c).toModel.unpack = .infinity .positive := by
  have product : (h * c).toModel.unpack = overflow
      (UnpackedFloat.mul .binary64 h.toModel.unpack c.toModel.unpack) :=
    unpack_ofModel_pack (mul_canonical (canonical_unpack h) (canonical_unpack c))
  have hside := zero_lt_iff.mp ((lt_iff finite_zero hc).mpr (value_zero.trans_lt c0))
  rw [finite_iff] at hc
  rw [product, unpack_of_pos hh (pos_of_nonneg h0 hh)]
  rw [side] at hside
  cases hu : c.toModel.unpack with
  | finite s m e hm =>
    rw [hu] at hside
    obtain rfl := Option.some.inj hside
    rfl
  | zero s => rw [hu] at hside; cases hside
  | infinity s => rw [hu] at hc; cases hc
  | notANumber => rw [hu] at hc; cases hc

/-- A product of numbers that are not negative can only be too large. -/
theorem mul_pos_of_not_finite (hc : finite c = true) (hx : finite (h * c) = false) :
    0 < h * c := by
  cases hh : finite h with
  | true =>
    have hx : ¬ finite (h * c) = true := by rw [hx]; decide
    have rounded := mul_rounded hh hc
    obtain ⟨s, hs, -⟩ := exists_infinity rounded.ne_nan hx
    have hside : side (h * c) = some s := by rw [side, hs]; rfl
    have sign := rounded.pos_of_side hside
    have nonneg : 0 ≤ value h * value c :=
      mul_nonneg (value_zero ▸ (le_iff finite_zero hh).mp h0) c0.le
    rw [zero_lt_iff, hside]
    cases s with
    | positive => rfl
    | negative =>
      simp only [signFactor] at sign
      linarith
  | false =>
    rw [zero_lt_iff, side, unpack_mul_of_not_finite c0 h0 hc hh]
    rfl

/-- The whole part of a product grows with a factor that is not negative. -/
theorem truncateInt64_mul_mono (hc : finite c = true) (g0 : 0 ≤ g) (hgh : g ≤ h) :
    truncateInt64 (g * c) ≤ truncateInt64 (h * c) := by
  cases hx : finite (h * c) with
  | false =>
    rw [truncateInt64_of_pos hx (mul_pos_of_not_finite c0 h0 hc hx)]
    exact truncateInt64_le _
  | true =>
    have hh : finite h = true := by
      by_contra hh
      rw [finite_iff, unpack_mul_of_not_finite c0 h0 hc (Bool.eq_false_iff.mpr hh)] at hx
      cases hx
    have hg := finite_of_between finite_zero hh g0 hgh
    have nonneg : 0 ≤ value g := value_zero ▸ (le_iff finite_zero hg).mp g0
    have hle := (le_iff hg hh).mp hgh
    have right := mul_rounded hh hc
    obtain ⟨finite_g, part⟩ : finite (g * c) = true ∧ PartOf (value (g * c)) (value (h * c)) := by
      refine (mul_rounded hg hc).partOf right hx
        (.inl ⟨mul_nonneg nonneg c0.le, mul_le_mul_of_nonneg_right hle c0.le⟩) fun heq => ?_
      exact mul_congr_value hg hh hc (mul_right_cancel₀ c0.ne' heq) hx
    obtain ⟨low, high⟩ :=
      part.of_nonneg ((right.nearest hx).nonneg (mul_nonneg (nonneg.trans hle) c0.le))
    exact truncateInt64_mono finite_g hx low high

end Product

end Geotrack.Binary64
