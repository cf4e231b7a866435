import Geotrack.Number.Scalar
import Geotrack.Proofs.Number.Arithmetic
import Geotrack.Proofs.Number.Scaled

/-!
# Values of binary64 numbers

A finite `Float` has a value, which its bits hold in canonical form. Comparisons of finite numbers
compare the values, and the arithmetic of finite numbers is `Rounded` arithmetic of the values: the
result is a nearest number of the grid, or infinite where that is too large.
-/

namespace Geotrack.Binary64

open Float.Model Float.Model.UnpackedFloat

/-! ### Packing -/

section Pack

variable {b : BitVec Format.binary64.numBits} {u : UnpackedFloat} {s : Sign} {m : ℕ} {e : ℤ}
  {hm : 0 < m}

theorem unpackMantissa_toNat (b : BitVec Format.binary64.numBits) :
    (unpackMantissa b).toNat = b.toNat % 2 ^ 52 := by
  simp [unpackMantissa]

theorem unpackExponent_toNat (b : BitVec Format.binary64.numBits) :
    (unpackExponent b).toNat = b.toNat / 2 ^ 52 % 2 ^ 11 := by
  simp [unpackExponent, Nat.shiftRight_eq_div_pow]

theorem unpackSign_toNat (b : BitVec Format.binary64.numBits) :
    (unpackSign b).toNat = b.toNat / 2 ^ 63 := by
  have : b.toNat < 2 ^ 64 := b.isLt
  simp [unpackSign, Nat.shiftRight_eq_div_pow]
  omega

theorem implicitBit_toNat (v : BitVec 52) : (1#1 ++ v).toNat = 2 ^ 52 + v.toNat := by
  rw [BitVec.toNat_append, ← Nat.shiftLeft_add_eq_or_of_lt v.isLt]
  simp [Nat.shiftLeft_eq]

/-- The sign bit. -/
def signBit : Sign → ℕ
  | .negative => 1
  | .positive => 0

theorem signBit_ofBitVec (v : BitVec 1) : signBit (Sign.ofBitVec v) = v.toNat := by
  obtain rfl | rfl := BitVec.eq_zero_or_eq_one v <;> rfl

/-- The bits of a finite number give its canonical form. Its exponent and mantissa make up one whole
number, which grows with the magnitude. -/
theorem unpack_finite (h : unpack .binary64 b = .finite s m e hm) :
    Canonical (.finite s m e hm) ∧ e ≤ 971 ∧
      (b.toNat : ℤ) = signBit s * 2 ^ 63 + ((e + 1074) * 2 ^ 52 + m) := by
  have hb : b.toNat < 2 ^ 64 := b.isLt
  have mantissa := unpackMantissa_toNat b
  have exponent := unpackExponent_toNat b
  have sign := unpackSign_toNat b
  simp only [UnpackedFloat.unpack] at h
  split at h
  · split at h <;> cases h
  rename_i hinf
  have hinf : (unpackExponent b).toNat ≠ 2047 := fun h => hinf (BitVec.eq_of_toNat_eq h)
  split at h
  · rename_i hexp
    split at h
    · cases h
    · rename_i hmant
      have hm0 : (unpackMantissa b).toNat ≠ 0 := fun h => hmant (BitVec.eq_of_toNat_eq h)
      have hlog : (unpackMantissa b).toNat.log2 < 52 :=
        (Nat.log2_lt hm0).mpr (unpackMantissa b).isLt
      injection h with hs hm' he
      subst hs hm' he
      rw [hexp] at exponent ⊢
      simp only [Canonical, signBit_ofBitVec, Format.exponentBias]
      simp only [BitVec.toNat_ofNat, Nat.reducePow, Nat.zero_mod, Nat.cast_zero,
        Nat.add_one_sub_one, Nat.cast_ofNat, Int.reduceAdd, zero_sub, Int.reduceNeg] at exponent ⊢
      omega
  · rename_i hexp
    have hexp0 : (unpackExponent b).toNat ≠ 0 := fun h => hexp (BitVec.eq_of_toNat_eq h)
    have hfull := implicitBit_toNat (unpackMantissa b)
    have hmlt := (unpackMantissa b).isLt
    have hlog : (1#1 ++ unpackMantissa b).toNat.log2 = 52 :=
      (Nat.log2_eq_iff (by omega)).mpr ⟨by omega, by omega⟩
    injection h with hs hm' he
    subst hs hm' he
    simp only [Canonical, signBit_ofBitVec, Format.exponentBias, hlog]
    simp only [Nat.add_one_sub_one, Nat.reducePow, Nat.cast_ofNat, Int.reduceAdd,
      add_sub_cancel_left, Int.reduceNeg, left_eq_sup, neg_le_sub_iff_le_add, tsub_le_iff_right]
    omega

theorem unpack_zero (h : UnpackedFloat.unpack .binary64 b = .zero s) :
    b.toNat = signBit s * 2 ^ 63 := by
  have hb : b.toNat < 2 ^ 64 := b.isLt
  have mantissa := unpackMantissa_toNat b
  have exponent := unpackExponent_toNat b
  have sign := unpackSign_toNat b
  simp only [UnpackedFloat.unpack] at h
  split at h
  · split at h <;> cases h
  split at h
  · rename_i hexp
    split at h
    · rename_i hmant
      injection h with hs
      subst hs
      rw [hexp] at exponent
      rw [hmant] at mantissa
      rw [signBit_ofBitVec]
      simp only [BitVec.toNat_ofNat, Nat.reducePow, Nat.zero_mod] at exponent mantissa
      omega
    · cases h
  · cases h

/-- An exponent too large for the format makes a number infinite. -/
def overflow : UnpackedFloat → UnpackedFloat
  | .finite s m e h => if 971 < e then .infinity s else .finite s m e h
  | u => u

theorem unpack_packComponents_normal (s : Sign) {k n : ℕ} (hk : k < 2046) (hn : n < 2 ^ 52) :
    UnpackedFloat.unpack .binary64 (packComponents .binary64 s (BitVec.ofNat _ (k + 1))
      (BitVec.ofNat _ (2 ^ 52 + n))) = .finite s (2 ^ 52 + n) (k - 1074)
        (Nat.add_pos_left (Nat.two_pow_pos 52) n) := by
  have exponent : (BitVec.ofNat 11 (k + 1)).toNat = k + 1 := by
    rw [BitVec.toNat_ofNat]
    exact Nat.mod_eq_of_lt (by omega)
  have mantissa : (BitVec.ofNat 52 (2 ^ 52 + n)).toNat = n := by
    rw [BitVec.toNat_ofNat, Nat.add_mod_left]
    exact Nat.mod_eq_of_lt hn
  have finite : BitVec.ofNat 11 (k + 1) ≠ -1#11 := fun h => by
    have := congrArg BitVec.toNat h
    rw [exponent] at this
    simp only [BitVec.reduceNeg, BitVec.toNat_ofNat, Nat.reducePow, Nat.mod_succ] at this
    omega
  have normal : BitVec.ofNat 11 (k + 1) ≠ 0#11 := fun h => by
    have := congrArg BitVec.toNat h
    rw [exponent] at this
    simp at this
  simp only [UnpackedFloat.unpack, unpackExponent_packComponents, unpackMantissa_packComponents,
    unpackSign_packComponents, Sign.ofBitVec_toBitVec, finite, normal, if_false,
    implicitBit_toNat, mantissa, exponent, Format.exponentBias]
  congr 1
  simp only [Nat.cast_add, Nat.cast_one, Nat.add_one_sub_one, Nat.reducePow, Nat.cast_ofNat,
    Int.reduceAdd]
  omega

theorem unpack_packComponents_subnormal (s : Sign) {n : ℕ} (h0 : 0 < n) (hn : n < 2 ^ 52) :
    UnpackedFloat.unpack .binary64 (packComponents .binary64 s 0#_ (BitVec.ofNat _ n)) =
      .finite s n (-1074) h0 := by
  have mantissa : (BitVec.ofNat 52 n).toNat = n := by
    rw [BitVec.toNat_ofNat]
    exact Nat.mod_eq_of_lt hn
  have nonzero : BitVec.ofNat 52 n ≠ 0#52 := fun h => by
    have := congrArg BitVec.toNat h
    rw [mantissa] at this
    simp only [BitVec.toNat_ofNat, Nat.reducePow, Nat.zero_mod] at this
    omega
  simp [UnpackedFloat.unpack, nonzero, mantissa, Format.exponentBias]

theorem unpack_pack (h : Canonical u) :
    UnpackedFloat.unpack .binary64 (UnpackedFloat.pack .binary64 u) = overflow u := by
  cases u with
  | infinity s => simp [UnpackedFloat.pack, packedInfinity, UnpackedFloat.unpack, overflow]
  | notANumber => exact unpack_packedNaN
  | zero s => exact unpack_packedZero
  | finite s m e hm =>
    obtain ⟨hlog, he, hfull⟩ := log2_le_of_canonical h
    have bias : Format.binary64.exponentBias = 1023 := rfl
    simp only [UnpackedFloat.pack, bias, overflow, Format.mantissaBits]
    split
    case isTrue hlarge =>
      have hlarge : 971 < e := by
        simp only [Nat.reducePow, Nat.cast_ofNat] at hlarge
        omega
      rw [if_pos hlarge]
      simp [packedInfinity, UnpackedFloat.unpack]
    case isFalse hlarge =>
      have hlarge : ¬ 971 < e := by
        simp only [Nat.reducePow, Nat.cast_ofNat, not_le] at hlarge
        omega
      rw [if_neg hlarge]
      split
      case isTrue hnormal =>
        obtain ⟨lower, upper⟩ := (Nat.log2_eq_iff hm.ne').mp (show m.log2 = 52 by omega)
        obtain ⟨n, rfl⟩ := Nat.exists_eq_add_of_le lower
        obtain ⟨k, hk⟩ : ∃ k : ℕ, e = k - 1074 := ⟨(e + 1074).toNat, by omega⟩
        have biased : (e + (1023 : ℕ) + (52 : ℕ)).toNat = k + 1 := by omega
        subst hk
        rw [biased]
        exact unpack_packComponents_normal s (by omega) (by omega)
      case isFalse hnormal =>
        have hlt : m < 2 ^ 52 := (Nat.log2_lt hm.ne').mp (by omega)
        obtain rfl : e = -1074 := by omega
        exact unpack_packComponents_subnormal s hm hlt

end Pack

/-! ### Comparison -/

section Compare

variable {m n : ℕ} {e t : ℤ} {s s' : Sign} {hm : 0 < m} {hn : 0 < n} {u v : UnpackedFloat}

/-- Canonical magnitudes are ordered by their exponents first. -/
theorem magnitude_lt (h : Canonical (.finite s m e hm)) (h' : Canonical (.finite s' n t hn))
    (hlt : e < t ∨ e = t ∧ m < n) : (m * 2 ^ e : ℚ) < n * 2 ^ t := by
  obtain hlt | ⟨rfl, hlt⟩ := hlt
  · obtain ⟨-, he, -⟩ := log2_le_of_canonical h
    obtain ⟨-, -, hfull⟩ := log2_le_of_canonical h'
    have hlog : n.log2 = 52 := hfull.resolve_left (by omega)
    have hmlt : (m : ℚ) < 2 ^ 53 := by exact_mod_cast lt_of_canonical h
    have hnge : (2 : ℚ) ^ 52 ≤ n := by exact_mod_cast hlog ▸ Nat.log2_self_le hn.ne'
    calc (m * 2 ^ e : ℚ) < 2 ^ 53 * 2 ^ e := by gcongr
      _ = 2 ^ 52 * 2 ^ (e + 1) := by rw [two_zpow_add]; ring
      _ ≤ n * 2 ^ t := by
        gcongr
        · exact one_le_two
        · omega
  · have : (m : ℚ) < n := by exact_mod_cast hlt
    gcongr

theorem compare_magnitude (h : Canonical (.finite s m e hm)) (h' : Canonical (.finite s' n t hn)) :
    (compare e t).then (compare m n) = compare (m * 2 ^ e : ℚ) (n * 2 ^ t) := by
  rcases lt_trichotomy e t with he | rfl | he
  · rw [compare_lt_iff_lt.mpr he, compare_lt_iff_lt.mpr (magnitude_lt h h' (.inl he))]
    rfl
  · rcases lt_trichotomy m n with hmn | rfl | hmn
    · rw [compare_lt_iff_lt.mpr hmn, compare_lt_iff_lt.mpr (magnitude_lt h h' (.inr ⟨rfl, hmn⟩))]
      simp
    · simp
    · rw [compare_gt_iff_gt.mpr hmn, compare_gt_iff_gt.mpr (magnitude_lt h' h (.inr ⟨rfl, hmn⟩))]
      simp
  · rw [compare_gt_iff_gt.mpr he, compare_gt_iff_gt.mpr (magnitude_lt h' h (.inl he))]
    rfl

theorem magnitude_pos (hm : 0 < m) (e : ℤ) : (0 : ℚ) < m * 2 ^ e :=
  mul_pos (Nat.cast_pos.mpr hm) (two_zpow_pos e)

theorem compare_neg (x y : ℚ) : compare (-x) (-y) = (compare x y).swap := by
  rcases lt_trichotomy x y with h | rfl | h
  · rw [compare_lt_iff_lt.mpr h, compare_gt_iff_gt.mpr (neg_lt_neg h)]
    rfl
  · simp
  · rw [compare_gt_iff_gt.mpr h, compare_lt_iff_lt.mpr (neg_lt_neg h)]
    rfl

theorem compare_eq (hu : Canonical u) (hv : Canonical v) (fu : u.isFinite = true)
    (fv : v.isFinite = true) :
    u.compare v = some (compare (unpackedValue u) (unpackedValue v)) := by
  have pos {m : ℕ} (hm : 0 < m) (e : ℤ) : (0 : ℚ) < signFactor .positive * (m * 2 ^ e) := by
    simpa [signFactor] using magnitude_pos hm e
  have neg {m : ℕ} (hm : 0 < m) (e : ℤ) : signFactor .negative * (m * 2 ^ e) < (0 : ℚ) := by
    simpa [signFactor] using magnitude_pos hm e
  cases u with
  | infinity s => cases fu
  | notANumber => cases fu
  | zero s =>
    cases v with
    | infinity s' => cases fv
    | notANumber => cases fv
    | zero s' => rfl
    | finite s' n t hn =>
      cases s' with
      | positive => exact congrArg some (compare_lt_iff_lt.mpr (pos hn t)).symm
      | negative => exact congrArg some (compare_gt_iff_gt.mpr (neg hn t)).symm
  | finite s m e hm =>
    cases v with
    | infinity s' => cases fv
    | notANumber => cases fv
    | zero s' =>
      cases s with
      | positive => exact congrArg some (compare_gt_iff_gt.mpr (pos hm e)).symm
      | negative => exact congrArg some (compare_lt_iff_lt.mpr (neg hm e)).symm
    | finite s' n t hn =>
      cases s <;> cases s'
      case negative.positive =>
        exact congrArg some (compare_lt_iff_lt.mpr ((neg hm e).trans (pos hn t))).symm
      case positive.negative =>
        exact congrArg some (compare_gt_iff_gt.mpr ((neg hn t).trans (pos hm e))).symm
      case positive.positive =>
        simp [UnpackedFloat.compare, unpackedValue, signFactor, compare_magnitude hu hv]
      case negative.negative =>
        simp [UnpackedFloat.compare, unpackedValue, signFactor, compare_magnitude hu hv,
          compare_neg]

theorem compare_swap (u v : UnpackedFloat) : v.compare u = (u.compare v).map Ordering.swap := by
  rcases u with (_ | _) | _ | (_ | _) | ⟨_ | _, m, e, _⟩ <;>
    rcases v with (_ | _) | _ | (_ | _) | ⟨_ | _, n, t, _⟩ <;>
    first
    | rfl
    | simp only [UnpackedFloat.compare, Ordering.swap_then, Option.map_some, Int.compare_swap,
        Nat.compare_swap]

end Compare

/-! ### Floats -/

/-- The value of a finite float; zero for the others. -/
def value (x : Float) : ℚ := unpackedValue x.toModel.unpack

section Value

variable {x y : Float}

theorem finite_iff : finite x = true ↔ x.toModel.unpack.isFinite = true := by
  unfold finite Scaled.ofFloat?
  cases x.toModel.unpack <;> simp [UnpackedFloat.isFinite]

theorem canonical_unpack (x : Float) : Canonical x.toModel.unpack := by
  cases h : x.toModel.unpack with
  | finite s m e hm => exact (unpack_finite h).1
  | _ => trivial

theorem onGrid_value (x : Float) : OnGrid (value x) := (canonical_unpack x).onGrid

theorem ofFloat?_value {s : Scaled} (h : Scaled.ofFloat? x = some s) : s.value = value x := by
  unfold Scaled.ofFloat? at h
  unfold value
  cases hx : x.toModel.unpack with
  | finite t m e hm =>
    rw [hx] at h
    obtain rfl := Option.some.inj h
    rw [unpackedValue, ← mul_assoc, signFactor_mul_natCast, Scaled.value]
  | zero t =>
    rw [hx] at h
    obtain rfl := Option.some.inj h
    simp [unpackedValue, Scaled.value]
  | _ =>
    rw [hx] at h
    cases h

theorem compare_value (hx : finite x = true) (hy : finite y = true) :
    x.toModel.unpack.compare y.toModel.unpack = some (compare (value x) (value y)) :=
  compare_eq (canonical_unpack x) (canonical_unpack y) (finite_iff.mp hx) (finite_iff.mp hy)

theorem lt_iff_compare : x < y ↔ x.toModel.unpack.compare y.toModel.unpack = some .lt := by
  change decide ((x.toModel.unpack.compare y.toModel.unpack == some .lt) = true) = true ↔ _
  rw [decide_eq_true_iff, beq_iff_eq]

theorem le_iff_compare :
    x ≤ y ↔ (x.toModel.unpack.compare y.toModel.unpack).any (·.isLE) = true := by
  change decide (((x.toModel.unpack.compare y.toModel.unpack).any (·.isLE)) = true) = true ↔ _
  rw [decide_eq_true_iff]

theorem not_le_of_lt (h : x < y) : ¬ y ≤ x := by
  rw [lt_iff_compare] at h
  rw [le_iff_compare, compare_swap, h]
  decide

theorem not_lt_of_lt (h : x < y) : ¬ y < x := by
  rw [lt_iff_compare] at h
  rw [lt_iff_compare, compare_swap, h]
  decide

theorem lt_iff (hx : finite x = true) (hy : finite y = true) : x < y ↔ value x < value y := by
  rw [lt_iff_compare, compare_value hx hy, ← compare_lt_iff_lt, Option.some_inj]

theorem le_iff (hx : finite x = true) (hy : finite y = true) : x ≤ y ↔ value x ≤ value y := by
  rw [le_iff_compare, compare_value hx hy, ← compare_le_iff_le]
  simp [Ordering.isLE_iff_ne_gt]

theorem beq_iff (hx : finite x = true) (hy : finite y = true) :
    (x == y) = true ↔ value x = value y := by
  change (x.toModel.unpack.compare y.toModel.unpack == some .eq) = true ↔ _
  rw [compare_value hx hy, ← compare_eq_iff_eq]
  simp

theorem scalar_lt_eq (hx : finite x = true) (hy : finite y = true) :
    Scalar.lt x y = decide (value x < value y) :=
  decide_eq_decide.mpr (lt_iff hx hy)

theorem scalar_le_eq (hx : finite x = true) (hy : finite y = true) :
    Scalar.le x y = decide (value x ≤ value y) :=
  decide_eq_decide.mpr (le_iff hx hy)

theorem scalar_eq_eq (hx : finite x = true) (hy : finite y = true) :
    Scalar.eq x y = decide (value x = value y) := by
  rw [Bool.eq_iff_iff, decide_eq_true_iff]
  exact beq_iff hx hy

end Value

theorem unpack_zero_float : (0 : Float).toModel.unpack = .zero .positive := by
  rfl

theorem finite_zero : finite 0 = true := rfl

theorem value_zero : value 0 = 0 := by rw [value, unpack_zero_float]; rfl

theorem abs_signFactor (s : Sign) : |signFactor s| = 1 := by
  cases s <;> simp [signFactor]

theorem abs_value_lt (x : Float) : |value x| < 2 ^ (1024 : ℤ) := by
  cases h : x.toModel.unpack with
  | finite s m e hm =>
    obtain ⟨canonical, he, -⟩ := unpack_finite h
    have hlt : (m : ℚ) < 2 ^ 53 := by exact_mod_cast lt_of_canonical canonical
    rw [value, h, unpackedValue, abs_mul, abs_signFactor, one_mul, abs_of_pos (magnitude_pos hm e)]
    calc (m * 2 ^ e : ℚ) < 2 ^ 53 * 2 ^ e := by gcongr
      _ ≤ 2 ^ 53 * 2 ^ (971 : ℤ) := by
        gcongr
        exact one_le_two
      _ = 2 ^ (53 + 971 : ℤ) := (two_zpow_add 53 971).symm
      _ = 2 ^ (1024 : ℤ) := by norm_num
  | _ =>
    simp only [value, h, unpackedValue, abs_zero]
    exact two_zpow_pos _

/-! ### Rounded results -/

/-- Whether a float is the rounded form of a number: a nearest number of the grid, or infinite where
that is too large. -/
def Rounded (x : ℚ) (f : Float) : Prop :=
  ∃ u, RoundsTo x u ∧ f.toModel.unpack = overflow u

section Rounded

variable {x y z : ℚ} {a b f g : Float}

theorem unpack_ofModel_pack {u : UnpackedFloat} (h : Canonical u) :
    (Float.ofModel (Float.Model.pack u)).toModel.unpack = overflow u := unpack_pack h

theorem RoundsTo.rounded {u : UnpackedFloat} (h : RoundsTo x u) :
    Rounded x (Float.ofModel (Float.Model.pack u)) :=
  ⟨u, h, unpack_ofModel_pack h.canonical⟩

theorem sub_rounded (ha : finite a = true) (hb : finite b = true) :
    Rounded (value a - value b) (a - b) :=
  (sub_rounds (canonical_unpack a) (canonical_unpack b) (finite_iff.mp ha)
    (finite_iff.mp hb)).rounded

theorem mul_rounded (ha : finite a = true) (hb : finite b = true) :
    Rounded (value a * value b) (a * b) :=
  (mul_rounds (canonical_unpack a) (canonical_unpack b) (finite_iff.mp ha)
    (finite_iff.mp hb)).rounded

theorem div_rounded (ha : finite a = true) (hb : finite b = true) (h0 : value b ≠ 0) :
    Rounded (value a / value b) (a / b) :=
  (div_rounds (canonical_unpack a) (canonical_unpack b) (finite_iff.mp ha)
    (finite_iff.mp hb) h0).rounded

namespace Rounded

theorem nearest (h : Rounded x f) (hf : finite f = true) : Nearest x (value f) := by
  obtain ⟨u, hu, hfu⟩ := h
  rw [finite_iff, hfu] at hf
  have same : overflow u = u := by
    cases u with
    | finite s m e hm =>
      simp only [overflow] at hf ⊢
      split
      case isTrue hlarge => rw [if_pos hlarge] at hf; cases hf
      case isFalse => rfl
    | _ => rfl
  rw [value, hfu, same]
  exact hu.nearest

/-- A number in canonical form that is small enough does not become infinite. -/
theorem isFinite_overflow {u : UnpackedFloat} (hu : RoundsTo x u)
    (below : |unpackedValue u| < 2 ^ (1024 : ℤ)) : (overflow u).isFinite = true := by
  cases u with
  | finite s m e hm =>
    obtain ⟨-, -, hfull⟩ := log2_le_of_canonical hu.canonical
    have hlarge : ¬ 971 < e := by
      intro hlt
      have hlog : m.log2 = 52 := hfull.resolve_left (by omega)
      have full : (2 : ℚ) ^ 52 ≤ m := by exact_mod_cast hlog ▸ Nat.log2_self_le hm.ne'
      have : (2 : ℚ) ^ (1024 : ℤ) ≤ |unpackedValue (.finite s m e hm)| := by
        rw [unpackedValue, abs_mul, abs_signFactor, one_mul, abs_of_pos (magnitude_pos hm e)]
        calc (2 : ℚ) ^ (1024 : ℤ) = 2 ^ (52 + 972 : ℤ) := by norm_num
          _ = 2 ^ 52 * 2 ^ (972 : ℤ) := two_zpow_add 52 972
          _ ≤ m * 2 ^ e :=
            mul_le_mul full (two_zpow_mono (by omega)) (two_zpow_pos _).le (Nat.cast_nonneg m)
      linarith
    rw [overflow, if_neg hlarge]
    rfl
  | zero s => rfl
  | _ => cases hu.isFinite

/-- A rounded form is finite where it is not larger than a finite float. -/
theorem finite_of_abs_le (h : Rounded x f) (hle : |x| ≤ |value a|) :
    finite f = true := by
  obtain ⟨u, hu, hfu⟩ := h
  have grid : OnGrid |value a| := by
    rcases abs_choice (value a) with h | h <;> rw [h]
    exacts [onGrid_value a, (onGrid_value a).neg]
  rw [finite_iff, hfu]
  refine isFinite_overflow hu (lt_of_le_of_lt ?_ (abs_value_lt a))
  exact abs_le.mpr ⟨hu.nearest.ge_of_ge grid.neg (abs_le.mp hle).1,
    hu.nearest.le_of_le grid (abs_le.mp hle).2⟩

end Rounded

end Rounded

/-! ### Sides of zero -/

/-- The side of zero that a number lies on, where it lies on one: neither zero nor NaN does. -/
def unpackedSide : UnpackedFloat → Option Sign
  | .infinity s | .finite s _ _ _ => some s
  | _ => none

/-- The side of zero that a float lies on, where it lies on one. -/
def side (x : Float) : Option Sign := unpackedSide x.toModel.unpack

section Side

variable {u v : UnpackedFloat} {s : Sign} {a b f : Float} {x z : ℚ}

theorem zero_lt_iff : 0 < a ↔ side a = some .positive := by
  rw [lt_iff_compare, unpack_zero_float, side]
  cases a.toModel.unpack with
  | infinity s | finite s => cases s <;> simp [UnpackedFloat.compare, unpackedSide]
  | _ => simp [UnpackedFloat.compare, unpackedSide]

theorem lt_zero_iff : a < 0 ↔ side a = some .negative := by
  rw [lt_iff_compare, unpack_zero_float, side]
  cases a.toModel.unpack with
  | infinity s | finite s => cases s <;> simp [UnpackedFloat.compare, unpackedSide]
  | _ => simp [UnpackedFloat.compare, unpackedSide]

theorem unpackedSide_overflow (u : UnpackedFloat) : unpackedSide (overflow u) = unpackedSide u := by
  cases u with
  | finite s m e hm =>
    rw [overflow]
    split <;> rfl
  | _ => rfl

theorem unpackedSide_of_pos (h : 0 < signFactor s * unpackedValue u) : unpackedSide u = some s := by
  cases u with
  | finite t m e hm =>
    have := magnitude_pos hm e
    cases s <;> cases t <;> simp only [unpackedValue, signFactor] at h <;>
      first
      | rfl
      | linarith
  | _ => simp [unpackedValue] at h

theorem pos_of_unpackedSide (hu : u.isFinite = true) (h : unpackedSide u = some s) :
    0 < signFactor s * unpackedValue u := by
  cases u with
  | finite t m e hm =>
    obtain rfl := Option.some.inj h
    have := magnitude_pos hm e
    cases t <;> simpa [unpackedValue, signFactor] using this
  | zero => cases h
  | _ => cases hu

theorem RoundsTo.pos_of_side (hu : RoundsTo x u) (h : unpackedSide u = some s) :
    0 < signFactor s * x := by
  have pos := pos_of_unpackedSide hu.isFinite h
  have same := hu.nearest.sign_pos fun h0 => by simp [h0] at pos
  have : 0 < (signFactor s * x) * (unpackedValue u) ^ 2 := by
    calc 0 < signFactor s * unpackedValue u * (x * unpackedValue u) := mul_pos pos same
      _ = _ := by ring
  exact pos_of_mul_pos_left this (sq_nonneg _)

/-- The side that a rounded form lies on is that of the number. -/
theorem Rounded.pos_of_side (hf : Rounded x f) (h : side f = some s) : 0 < signFactor s * x := by
  obtain ⟨u, hu, hfu⟩ := hf
  rw [side, hfu, unpackedSide_overflow] at h
  exact hu.pos_of_side h

/-- A rounded form lies on a side where the number is beyond one of the grid on that side. -/
theorem Rounded.side_eq (hf : Rounded x f) (hz : OnGrid z) (h : 0 < signFactor s * z)
    (hle : signFactor s * z ≤ signFactor s * x) : side f = some s := by
  obtain ⟨u, hu, hfu⟩ := hf
  rw [side, hfu, unpackedSide_overflow]
  apply unpackedSide_of_pos
  have near := hu.nearest.signFactor_mul s
  refine h.trans_le (near.ge_of_ge ?_ hle)
  cases s with
  | negative => simpa [signFactor] using hz.neg
  | positive => simpa [signFactor] using hz

/-! ### Sides of results -/

theorem side_of_pack (h : Canonical u) :
    side (Float.ofModel (Float.Model.pack u)) = unpackedSide u := by
  rw [side, unpack_ofModel_pack h, unpackedSide_overflow]

theorem mul_canonical (hu : Canonical u) (hv : Canonical v) :
    Canonical (UnpackedFloat.mul .binary64 u v) := by
  cases hfu : u.isFinite <;> cases hfv : v.isFinite
  case true.true => exact (mul_rounds hu hv hfu hfv).canonical
  all_goals cases u <;> cases v <;> trivial

theorem sub_canonical (hu : Canonical u) (hv : Canonical v) :
    Canonical (UnpackedFloat.sub .binary64 u v) := by
  cases hfu : u.isFinite <;> cases hfv : v.isFinite
  case true.true => exact (sub_rounds hu hv hfu hfv).canonical
  all_goals
    cases u <;> cases v <;> simp only [UnpackedFloat.sub] <;> first | trivial | split <;> trivial

theorem roundWithAccuracy_side {S : Format} {t : Sign} {m : ℕ} {e : ℤ} {accuracy : Accuracy}
    (h : unpackedSide (roundWithAccuracy S t m e accuracy) = some s) : t = s := by
  unfold roundWithAccuracy at h
  simp only at h
  split at h
  · cases h
  · exact Option.some.inj h

theorem unpackedSide_mul (h : unpackedSide (UnpackedFloat.mul .binary64 u v) = some s) :
    ∃ t t', unpackedSide u = some t ∧ unpackedSide v = some t' ∧ t * t' = s := by
  match u, v, h with
  | .infinity t, .infinity t', h | .infinity t, .finite t' _ _ _, h
  | .finite t _ _ _, .infinity t', h => exact ⟨t, t', rfl, rfl, Option.some.inj h⟩
  | .finite t _ _ _, .finite t' _ _ _, h => exact ⟨t, t', rfl, rfl, roundWithAccuracy_side h⟩
  | .zero _, .zero _, h | .zero _, .infinity _, h | .zero _, .finite _ _ _ _, h
  | .infinity _, .zero _, h | .finite _ _ _ _, .zero _, h | .notANumber, _, h => cases h
  | .zero _, .notANumber, h => cases h
  | .infinity _, .notANumber, h => cases h
  | .finite _ _ _ _, .notANumber, h => cases h

theorem side_mul (h : side (a * b) = some s) :
    ∃ t t', side a = some t ∧ side b = some t' ∧ t * t' = s := by
  have packed : side (a * b) = _ :=
    side_of_pack (mul_canonical (canonical_unpack a) (canonical_unpack b))
  exact unpackedSide_mul (packed ▸ h)

theorem unpackedSide_sub (hu : Canonical u) (hv : Canonical v)
    (h : unpackedSide (UnpackedFloat.sub .binary64 u v) = some s) :
    unpackedSide u = some s ∨ unpackedSide v = some (-s) := by
  cases hfu : u.isFinite with
  | true =>
    cases hfv : v.isFinite with
    | true =>
      have pos := (sub_rounds hu hv hfu hfv).pos_of_side h
      rw [mul_sub] at pos
      by_cases hpos : 0 < signFactor s * unpackedValue u
      · exact .inl (unpackedSide_of_pos hpos)
      · refine .inr (unpackedSide_of_pos ?_)
        rw [signFactor_neg]
        linarith
    | false =>
      cases v with
      | infinity t =>
        obtain rfl : -t = s := by cases u <;> cases hfu <;> exact Option.some.inj h
        exact .inr (by cases t <;> rfl)
      | notANumber => cases u <;> cases h
      | zero t => cases hfv
      | finite t n f hn => cases hfv
  | false =>
    cases u with
    | infinity t =>
      cases v with
      | infinity t' =>
        simp only [UnpackedFloat.sub] at h
        split at h
        · exact .inl h
        · cases h
      | notANumber => cases h
      | zero t' => exact .inl h
      | finite t' n f hn => exact .inl h
    | notANumber => cases v <;> cases h
    | zero t => cases hfu
    | finite t m e hm => cases hfu

theorem side_sub (h : side (a - b) = some s) : side a = some s ∨ side b = some (-s) := by
  have packed : side (a - b) = _ :=
    side_of_pack (sub_canonical (canonical_unpack a) (canonical_unpack b))
  exact unpackedSide_sub (canonical_unpack a) (canonical_unpack b) (packed ▸ h)

end Side

end Geotrack.Binary64
