import Geotrack.Proofs.Number.Error
import Geotrack.Proofs.Number.Share

/-!
# Gaps between floats

The gap between two floats is their rounded difference without its sign. It is the same in both
directions (`gap_comm`), and whether it is below a bound tells how far apart the floats are, exactly
up to half the worth of the bound's last digit: `abs_sub_le_of_gap_lt`, `le_abs_sub_of_not_gap_lt`.
-/

namespace Geotrack.Binary64

open Float.Model
open Float.Model.UnpackedFloat (Sign)

variable {S : Format} {u v : UnpackedFloat} {a b x t : Float}

/-- The rounded difference of two floats without its sign. -/
def gap (a b : Float) : Float := Scalar.abs (a - b)

/-! ### Rounding across a bound -/

section Bound

variable {y z : ℚ} {k e : ℤ}

/-- A number of the grid that is below one with all its digits is below it by the last of them. -/
theorem OnGrid.le_sub_one (hy : OnGrid y) (full : 2 ^ 52 < k) (he : -1074 ≤ e)
    (hlt : y < k * 2 ^ e) : y ≤ (k - 1) * 2 ^ e := by
  have unit := two_zpow_pos e
  rcases hy.units_or_le he with ⟨j, rfl⟩ | ⟨-, small⟩
  · have hjk : j < k := by exact_mod_cast lt_of_mul_lt_mul_right hlt unit.le
    have hle : (j : ℚ) ≤ k - 1 := by exact_mod_cast Int.le_sub_one_of_lt hjk
    gcongr
  · have hk : (2 : ℚ) ^ (52 : ℤ) ≤ k - 1 := by exact_mod_cast Int.le_sub_one_of_lt full
    calc y ≤ 2 ^ (e + 52) := (le_abs_self y).trans small
      _ = 2 ^ (52 : ℤ) * 2 ^ e := by rw [add_comm, two_zpow_add]
      _ ≤ (k - 1) * 2 ^ e := by gcongr

namespace Nearest

variable {r : ℚ} (full : 2 ^ 52 < k) (hk : k ≤ 2 ^ 53) (he : -1074 ≤ e)
include full hk he

/-- What is rounded to less than a bound is less than it by half its last digit. -/
theorem le_of_lt_bound (h : Nearest r y) (hlt : y < k * 2 ^ e) : r ≤ (k - 1 / 2) * 2 ^ e := by
  have unit := two_zpow_pos e
  have grid : OnGrid (k * 2 ^ e) := ⟨k, e, by rw [abs_le]; omega, he, rfl⟩
  by_contra hgt
  rw [not_le] at hgt
  have below := h.onGrid.le_sub_one full he hlt
  have hr : r < k * 2 ^ e := lt_of_not_ge fun hge => absurd (h.ge_of_ge grid hge) (not_le.mpr hlt)
  have near := h.least _ grid
  rw [abs_of_nonneg (by linarith), abs_of_neg (by linarith)] at near
  linarith

/-- What is rounded to a bound or more is less than it by half its last digit at most. -/
theorem ge_of_ge_bound (h : Nearest r y) (hge : k * 2 ^ e ≤ y) : (k - 1 / 2) * 2 ^ e ≤ r := by
  have unit := two_zpow_pos e
  have grid : OnGrid ((k - 1) * 2 ^ e) :=
    ⟨k - 1, e, by rw [abs_le]; omega, he, by push_cast; ring⟩
  by_contra hlt
  rw [not_le] at hlt
  have hr : (k - 1) * 2 ^ e < r := lt_of_not_ge fun hle => by
    have := h.le_of_le grid hle
    linarith
  have near := h.least _ grid
  rw [abs_of_neg (by linarith), abs_of_pos (by linarith)] at near
  linarith

theorem abs_le_of_abs_lt_bound (h : Nearest r y) (hlt : |y| < k * 2 ^ e) :
    |r| ≤ (k - 1 / 2) * 2 ^ e := by
  obtain ⟨hneg, hpos⟩ := abs_lt.mp hlt
  refine abs_le'.mpr ⟨h.le_of_lt_bound full hk he hpos, ?_⟩
  exact h.neg.le_of_lt_bound full hk he (by linarith)

theorem le_abs_of_le_abs_bound (h : Nearest r y) (hge : k * 2 ^ e ≤ |y|) :
    (k - 1 / 2) * 2 ^ e ≤ |r| := by
  rcases le_abs.mp hge with hpos | hneg
  · exact (h.ge_of_ge_bound full hk he hpos).trans (le_abs_self r)
  · exact (h.neg.ge_of_ge_bound full hk he hneg).trans (neg_le_abs r)

end Nearest

end Bound

/-! ### Floats without their signs -/

/-- A number with its sign left out. -/
def unsigned : UnpackedFloat → UnpackedFloat
  | .finite _ m e hm => .finite .positive m e hm
  | .zero _ => .zero .positive
  | .infinity _ => .infinity .positive
  | .notANumber => .notANumber

theorem isFinite_unsigned (u : UnpackedFloat) : (unsigned u).isFinite = u.isFinite := by
  cases u <;> rfl

theorem canonical_unsigned (hu : Canonical u) : Canonical (unsigned u) := by
  cases u with
  | finite s m e hm => exact hu
  | _ => trivial

theorem value_unsigned (u : UnpackedFloat) : unpackedValue (unsigned u) = |unpackedValue u| := by
  cases u with
  | finite s m e hm =>
    rw [unsigned, unpackedValue, unpackedValue, abs_mul, abs_signFactor,
      abs_of_pos (magnitude_pos hm e)]
    rfl
  | _ => exact abs_zero.symm

theorem unsigned_overflow (u : UnpackedFloat) : unsigned (overflow u) = overflow (unsigned u) := by
  cases u with
  | finite s m e hm =>
    rw [overflow, unsigned, overflow]
    by_cases large : 971 < e
    · rw [if_pos large, if_pos large, unsigned]
    · rw [if_neg large, if_neg large, unsigned]
  | _ => rfl

theorem unsigned_round (s s' : Sign) (m : ℕ) (e : ℤ) :
    unsigned (UnpackedFloat.round S s m e) = unsigned (UnpackedFloat.round S s' m e) := by
  simp only [UnpackedFloat.round, UnpackedFloat.roundWithAccuracy]
  split <;> rfl

theorem unsigned_normalize_neg (k e : ℤ) (s : Sign) :
    unsigned (UnpackedFloat.normalize S (-k) e s) = unsigned (UnpackedFloat.normalize S k e s) := by
  unfold UnpackedFloat.normalize
  rcases lt_trichotomy k 0 with h | rfl | h
  · rw [Int.compare_eq_gt.mpr (by omega), Int.compare_eq_lt.mpr h]
    exact unsigned_round _ _ _ _
  · rfl
  · rw [Int.compare_eq_lt.mpr (by omega), Int.compare_eq_gt.mpr h, neg_neg]
    exact unsigned_round _ _ _ _

theorem unsigned_sub_comm (u v : UnpackedFloat) :
    unsigned (UnpackedFloat.sub S u v) = unsigned (UnpackedFloat.sub S v u) := by
  match u, v with
  | .finite s m e _, .finite s' m' e' _ =>
    simp only [UnpackedFloat.sub]
    rw [← unsigned_normalize_neg, neg_sub, min_comm]
  | .infinity s, .infinity s' => cases s <;> cases s' <;> rfl
  | .zero s, .zero s' => cases s <;> cases s' <;> rfl
  | .notANumber, v => cases v <;> rfl
  | .infinity _, .notANumber | .zero _, .notANumber | .finite _ _ _ _, .notANumber => rfl
  | .infinity _, .zero _ | .infinity _, .finite _ _ _ _ => rfl
  | .zero _, .infinity _ | .finite _ _ _ _, .infinity _ => rfl
  | .zero _, .finite _ _ _ _ | .finite _ _ _ _, .zero _ => rfl

theorem unpack_neg (x : Float) : (-x).toModel.unpack = x.toModel.unpack.neg := by
  have packed : (-x).toModel.unpack = overflow x.toModel.unpack.neg :=
    unpack_ofModel_pack (canonical_unpack x).neg
  rw [packed]
  cases h : x.toModel.unpack with
  | finite s m e hm =>
    obtain ⟨-, he, -⟩ := unpack_finite h
    rw [UnpackedFloat.neg, overflow, if_neg (not_lt.mpr he)]
  | _ => rfl

/-- The absolute value of a number, `-0` apart, is the number without its sign. -/
theorem compare_abs (x t : Float) : (Scalar.abs x).toModel.unpack.compare t.toModel.unpack =
    (unsigned x.toModel.unpack).compare t.toModel.unpack := by
  by_cases below : x < 0
  · have abs : Scalar.abs x = -x := if_pos (decide_eq_true below)
    rw [abs, unpack_neg]
    rw [lt_zero_iff, side] at below
    cases hx : x.toModel.unpack with
    | finite s | infinity s =>
      rw [hx] at below
      obtain rfl := Option.some.inj below
      rfl
    | _ => rw [hx] at below; cases below
  · have abs : Scalar.abs x = x := if_neg fun h => below (of_decide_eq_true h)
    rw [abs]
    rw [lt_zero_iff, side] at below
    cases hx : x.toModel.unpack with
    | finite s | infinity s =>
      cases s with
      | positive => rfl
      | negative => rw [hx] at below; exact absurd rfl below
    | zero s =>
      cases t.toModel.unpack with
      | infinity s' | finite s' => cases s' <;> rfl
      | _ => rfl
    | notANumber => rfl

theorem abs_lt_iff_compare : Scalar.lt (Scalar.abs x) t = true ↔
    (unsigned x.toModel.unpack).compare t.toModel.unpack = some .lt := by
  rw [← compare_abs, ← lt_iff_compare]
  exact decide_eq_true_iff

theorem abs_lt_iff (ht : finite t = true) :
    Scalar.lt (Scalar.abs x) t = true ↔ finite x = true ∧ |value x| < value t := by
  rw [finite_iff] at ht
  rw [abs_lt_iff_compare, finite_iff, value, value]
  have hcx := canonical_unpack x
  have hct := canonical_unpack t
  generalize x.toModel.unpack = u at *
  generalize t.toModel.unpack = v at *
  cases hu : u.isFinite with
  | true =>
    rw [compare_eq (canonical_unsigned hcx) hct (isFinite_unsigned u ▸ hu) ht, value_unsigned,
      Option.some_inj, compare_lt_iff_lt, eq_self, true_and]
  | false =>
    cases u <;> cases v <;>
      simp_all [UnpackedFloat.compare, UnpackedFloat.isFinite, unsigned]

/-! ### Gaps -/

theorem gap_comm (a b t : Float) : Scalar.lt (gap a b) t = Scalar.lt (gap b a) t := by
  have packed (a b : Float) : (a - b).toModel.unpack =
      overflow (UnpackedFloat.sub .binary64 a.toModel.unpack b.toModel.unpack) :=
    unpack_ofModel_pack (sub_canonical (canonical_unpack a) (canonical_unpack b))
  rw [Bool.eq_iff_iff, gap, gap, abs_lt_iff_compare, abs_lt_iff_compare, packed, packed,
    unsigned_overflow, unsigned_overflow, unsigned_sub_comm]

theorem finite_of_sub (h : finite (a - b) = true) : finite a = true ∧ finite b = true := by
  have hsub := finite_ofModel (sub_canonical (canonical_unpack a) (canonical_unpack b)) h
  rw [finite_iff, finite_iff]
  generalize a.toModel.unpack = u at *
  generalize b.toModel.unpack = v at *
  cases u <;> cases v <;> simp only [UnpackedFloat.sub] at hsub <;>
    first | exact ⟨rfl, rfl⟩ | cases hsub | split at hsub <;> cases hsub

section Bound

variable {k e : ℤ} (full : 2 ^ 52 < k) (hk : k ≤ 2 ^ 53) (he : -1074 ≤ e) (ht : finite t = true)
  (bound : value t = k * 2 ^ e)
include full hk he ht bound

theorem abs_sub_le_of_gap_lt (h : Scalar.lt (gap a b) t = true) :
    (finite a = true ∧ finite b = true) ∧ |value a - value b| ≤ (k - 1 / 2) * 2 ^ e := by
  obtain ⟨hfinite, hlt⟩ := (abs_lt_iff ht).mp h
  obtain ⟨ha, hb⟩ := finite_of_sub hfinite
  have near := (sub_rounded ha hb).nearest hfinite
  exact ⟨⟨ha, hb⟩, near.abs_le_of_abs_lt_bound full hk he (bound ▸ hlt)⟩

theorem le_abs_sub_of_not_gap_lt (ha : finite a = true) (hb : finite b = true)
    (h : Scalar.lt (gap a b) t = false) : (k - 1 / 2) * 2 ^ e ≤ |value a - value b| := by
  have unit := two_zpow_pos e
  have rounded := sub_rounded ha hb
  by_cases hfinite : finite (a - b) = true
  · have hge : k * 2 ^ e ≤ |value (a - b)| := by
      rw [← bound, ← not_lt]
      intro hlt
      rw [gap, (abs_lt_iff ht).mpr ⟨hfinite, hlt⟩] at h
      cases h
    exact (rounded.nearest hfinite).le_abs_of_le_abs_bound full hk he hge
  · -- a difference that overflows is larger than any float
    have large : |value t| < |value a - value b| :=
      lt_of_not_ge fun hle => hfinite (rounded.finite_of_abs_le hle)
    have : value t ≤ |value t| := le_abs_self _
    rw [bound] at this large
    linarith

end Bound

end Geotrack.Binary64
