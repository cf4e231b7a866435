import Geotrack.Proofs.Number.Binary64

/-!
# Monotone operations

Division and multiplication by a number that is not negative keep the order of finite floats, and so
does rounding to whole numbers. The total order of floats is the order of values where these are
finite.
-/

namespace Geotrack.Binary64

open Float.Model
open Float.Model.UnpackedFloat (Sign)

variable {a b c f g x y : Float} {u v : UnpackedFloat} {s s' : Sign} {m n : ℕ} {e t : ℤ}

/-! ### The total order -/

/-- The whole number that the bits of a finite float hold besides the sign. -/
def code : UnpackedFloat → ℤ
  | .finite _ m e _ => (e + 1074) * 2 ^ 52 + m
  | _ => 0

/-- A number without its sign. -/
def magnitude : UnpackedFloat → ℚ
  | .finite _ m e _ => m * 2 ^ e
  | _ => 0

theorem code_nonneg (hu : Canonical u) : 0 ≤ code u := by
  cases u with
  | finite s m e hm =>
    have := log2_le_of_canonical hu
    simp only [code]
    omega
  | _ => exact le_rfl

theorem magnitude_nonneg (u : UnpackedFloat) : 0 ≤ magnitude u := by
  cases u with
  | finite s m e hm => exact (magnitude_pos hm e).le
  | _ => exact le_rfl

/-- Magnitudes are in the order of their codes. -/
theorem magnitude_le_of_code_le (hu : Canonical u) (hv : Canonical v) (hfu : u.isFinite = true)
    (hfv : v.isFinite = true) (h : code u ≤ code v) : magnitude u ≤ magnitude v := by
  match u, v with
  | .zero _, v => exact magnitude_nonneg v
  | .finite s m e hm, .zero _ =>
    have := (log2_le_of_canonical hu).2.1
    simp only [code] at h
    omega
  | .finite s m e hm, .finite s' n t hn =>
    have hmlt := lt_of_canonical hu
    have hnlt := lt_of_canonical hv
    obtain ⟨-, he, hfull⟩ := log2_le_of_canonical hu
    obtain ⟨-, ht, hfull'⟩ := log2_le_of_canonical hv
    have hm52 : m.log2 = 52 → 2 ^ 52 ≤ m := fun h => h ▸ Nat.log2_self_le hm.ne'
    simp only [code] at h
    by_cases hlt : e < t ∨ e = t ∧ m < n
    · exact (magnitude_lt hu hv hlt).le
    · have : e = t ∧ m = n := by omega
      rw [magnitude, magnitude, this.1, this.2]

/-- The total order goes by the code, or against it where the sign is negative. -/
theorem totalKey_eq (hx : finite x = true) :
    totalKey x = code x.toModel.unpack ∧ value x = magnitude x.toModel.unpack ∨
      totalKey x = -1 - code x.toModel.unpack ∧ value x = -magnitude x.toModel.unpack := by
  have hbits : ∃ s, (x.toBits.toNat : ℤ) = signBit s * 2 ^ 63 + code x.toModel.unpack ∧
      code x.toModel.unpack < 2 ^ 63 ∧
      value x = signFactor s * magnitude x.toModel.unpack := by
    rw [finite_iff] at hx
    rw [value]
    cases hu : x.toModel.unpack with
    | finite s m e hm =>
      obtain ⟨hc, he, hb⟩ := unpack_finite hu
      have := lt_of_canonical hc
      refine ⟨s, hb, ?_, rfl⟩
      simp only [code]
      omega
    | zero s =>
      have hb : x.toBits.toNat = signBit s * 2 ^ 63 := unpack_zero hu
      refine ⟨s, ?_, by norm_num [code], (mul_zero _).symm⟩
      rw [hb, show code (.zero s) = 0 from rfl, add_zero, Nat.cast_mul, Nat.cast_pow,
        Nat.cast_ofNat]
    | infinity s => rw [hu] at hx; cases hx
    | notANumber => rw [hu] at hx; cases hx
  have hcode := code_nonneg (canonical_unpack x)
  obtain ⟨s, hb, hlt, hv⟩ := hbits
  have hkey : totalKey x = if (x.toBits.toNat : ℤ) < 2 ^ 63 then (x.toBits.toNat : ℤ)
    else 2 ^ 63 - 1 - x.toBits.toNat := rfl
  cases s with
  | positive =>
    rw [show signBit .positive = 0 from rfl] at hb
    left
    rw [hkey, if_pos (by omega), hv]
    exact ⟨by omega, one_mul _⟩
  | negative =>
    rw [show signBit .negative = 1 from rfl] at hb
    right
    rw [hkey, if_neg (by omega), hv]
    exact ⟨by omega, neg_one_mul _⟩

theorem value_le_of_totalKey (hx : finite x = true) (hy : finite y = true)
    (h : totalKey x ≤ totalKey y) : value x ≤ value y := by
  have hcx := canonical_unpack x
  have hcy := canonical_unpack y
  have hx' := finite_iff.mp hx
  have hy' := finite_iff.mp hy
  have := code_nonneg hcx
  have := code_nonneg hcy
  have := magnitude_nonneg x.toModel.unpack
  have := magnitude_nonneg y.toModel.unpack
  rcases totalKey_eq hx with ⟨kx, vx⟩ | ⟨kx, vx⟩ <;>
    rcases totalKey_eq hy with ⟨ky, vy⟩ | ⟨ky, vy⟩ <;> rw [vx, vy]
  · exact magnitude_le_of_code_le hcx hcy hx' hy' (by omega)
  · omega
  · linarith
  · exact neg_le_neg (magnitude_le_of_code_le hcy hcx hy' hx' (by omega))

/-! ### Equal values -/

/-- Floats of one value other than zero are the same. -/
theorem unpack_eq_of_value_eq (h : value x = value y) (h0 : value x ≠ 0) :
    x.toModel.unpack = y.toModel.unpack := by
  have hcx := canonical_unpack x
  have hcy := canonical_unpack y
  rw [value, value] at h
  rw [value] at h0
  cases hx : x.toModel.unpack with
  | finite s m e hm =>
    rw [hx] at hcx h h0
    cases hy : y.toModel.unpack with
    | finite s' n t hn =>
      rw [hy] at hcy h
      simp only [unpackedValue] at h
      have hs : s = s' := by
        have := magnitude_pos hm e
        have := magnitude_pos hn t
        cases s <;> cases s' <;> simp only [signFactor] at h <;> first | rfl | linarith
      subst hs
      have hmag : (m * 2 ^ e : ℚ) = n * 2 ^ t := by
        cases s <;> simpa [signFactor] using h
      have hlt : ¬ (e < t ∨ e = t ∧ m < n) := fun hlt => (magnitude_lt hcx hcy hlt).ne hmag
      have hgt : ¬ (t < e ∨ t = e ∧ n < m) := fun hgt => (magnitude_lt hcy hcx hgt).ne' hmag
      obtain rfl : e = t := by omega
      obtain rfl : m = n := by omega
      rfl
    | _ => rw [hy] at h; exact absurd h h0
  | _ => rw [hx] at h0; exact absurd rfl h0

/-! ### Products and quotients -/

/-- Multiplication by a number that is not negative keeps order. -/
theorem mul_value_mono (ha : finite a = true) (hf : finite f = true) (hg : finite g = true)
    (haf : finite (a * f) = true) (hag : finite (a * g) = true) (h0 : 0 ≤ value a)
    (h : value f ≤ value g) : value (a * f) ≤ value (a * g) := by
  have near := (mul_rounded ha hf).nearest haf
  have near' := (mul_rounded ha hg).nearest hag
  obtain hlt | heq := (mul_le_mul_of_nonneg_left h h0).lt_or_eq
  · exact near.mono near' hlt
  by_cases hzero : value a * value f = 0
  · rw [near.eq_of_onGrid (hzero ▸ onGrid_zero),
      near'.eq_of_onGrid (heq ▸ hzero ▸ onGrid_zero), heq]
  · obtain ⟨ha0, hf0⟩ := mul_ne_zero_iff.mp hzero
    have : a * f = a * g := congrArg (fun u => Float.ofModel (Float.Model.pack
      (UnpackedFloat.mul .binary64 a.toModel.unpack u)))
      (unpack_eq_of_value_eq (mul_left_cancel₀ ha0 heq) hf0)
    rw [this]

/-- Division by a positive number keeps order. -/
theorem div_value_mono (ha : finite a = true) (hf : finite f = true) (hg : finite g = true)
    (hfa : finite (f / a) = true) (hga : finite (g / a) = true) (h0 : 0 < value a)
    (h : value f ≤ value g) : value (f / a) ≤ value (g / a) := by
  have near := (div_rounded hf ha h0.ne').nearest hfa
  have near' := (div_rounded hg ha h0.ne').nearest hga
  obtain hlt | heq := (div_le_div_of_nonneg_right h h0.le).lt_or_eq
  · exact near.mono near' hlt
  have hfg : value f = value g := (div_left_inj' h0.ne').mp heq
  by_cases hzero : value f = 0
  · have hf' := near.eq_of_onGrid (by rw [hzero, zero_div]; exact onGrid_zero)
    have hg' := near'.eq_of_onGrid (by rw [← hfg, hzero, zero_div]; exact onGrid_zero)
    rw [hf', hg', heq]
  · have : f / a = g / a := congrArg (fun u => Float.ofModel (Float.Model.pack
      (UnpackedFloat.div .binary64 u a.toModel.unpack))) (unpack_eq_of_value_eq hfg hzero)
    rw [this]

/-- A quotient by a finite number is finite only for a finite number. -/
theorem finite_of_div (h : finite (f / a) = true) (ha : finite a = true) : finite f = true := by
  by_contra hf
  rw [finite_iff, Bool.not_eq_true] at hf
  rw [finite_iff] at ha
  have quotient : Canonical (UnpackedFloat.div .binary64 f.toModel.unpack a.toModel.unpack) ∧
      (overflow (UnpackedFloat.div .binary64 f.toModel.unpack a.toModel.unpack)).isFinite =
        false := by
    generalize f.toModel.unpack = u at hf
    generalize a.toModel.unpack = v at ha
    cases u <;> cases v <;>
      simp_all [UnpackedFloat.isFinite, UnpackedFloat.div, overflow, Canonical]
  have packed : (f / a).toModel.unpack = _ := unpack_ofModel_pack quotient.1
  rw [finite_iff, packed, quotient.2] at h
  cases h

/-! ### Whole numbers -/

theorem value_one : finite (Float.ofBits 0x3FF0000000000000) = true ∧
    value (Float.ofBits 0x3FF0000000000000) = 1 := by
  decide +kernel

theorem finite_scalar_zero : finite (Scalar.zero : Float) = true := rfl

theorem value_scalar_zero : value (Scalar.zero : Float) = 0 := value_zero

theorem finite_scalar_one : finite (Scalar.one : Float) = true := rfl

theorem value_scalar_one : value (Scalar.one : Float) = 1 := value_one.2

theorem onGrid_natCast {n : ℕ} (hn : n ≤ 2 ^ 53) : OnGrid n :=
  ⟨n, 0, by rw [Nat.abs_cast]; exact_mod_cast hn, by norm_num, by simp⟩

theorem Rounded.finite_of_natCast {n : ℕ} (h : Rounded n f) (hn : n ≤ 2 ^ 63) :
    finite f = true := by
  have large : (2 : ℚ) ^ 63 ≤ value 1e19 := by decide +kernel
  refine h.finite_of_abs_le (a := 1e19) ?_
  have hn : (n : ℚ) ≤ 2 ^ 63 := by exact_mod_cast hn
  rw [Nat.abs_cast]
  exact (hn.trans large).trans (le_abs_self _)

theorem ofScientific_eq (hn : n ≠ 0) : UnpackedFloat.ofScientific .binary64 n 0 =
    UnpackedFloat.roundWithAccuracy .binary64 .positive (n <<< 53 * 10 ^ 0) (-53 + 0) .exact := by
  have h1 : ¬ (0 : ℤ) > 2 ^ Format.binary64.exponentBits := by norm_num
  have h2 : ¬ (0 : ℤ) < -((2 ^ Format.binary64.exponentBits : ℤ) + n.log2) := by norm_num
  rw [UnpackedFloat.ofScientific, dif_neg hn, if_neg h1, if_neg h2, if_pos le_rfl]
  rfl

theorem ofScientific_rounds (hn : 2 ^ 53 ≤ n) :
    RoundsTo n (UnpackedFloat.ofScientific .binary64 n 0) := by
  have hn0 : n ≠ 0 := by omega
  have hlog : 53 ≤ n.log2 := (Nat.le_log2 hn0).mpr hn
  suffices h : RoundsTo (signFactor .positive * n)
      (UnpackedFloat.roundWithAccuracy .binary64 .positive (n <<< 53) (-53) .exact) by
    rwa [ofScientific_eq hn0, pow_zero, mul_one, add_zero, ← one_mul (n : ℚ)]
  refine roundWithAccuracy_rounds .positive (Nat.cast_nonneg n) ?_ ?_
  · rw [exact_eq_extended, Nat.shiftLeft_eq]
    norm_num
  · rw [log2_shiftLeft hn0]
    omega

theorem ofNat_rounded (n : ℕ) : Rounded n (Float.ofNat n) := by
  change Rounded n (Float.ofScientific n false 0)
  rw [Float.ofScientific]
  split
  case isTrue h =>
    -- a number of 53 digits is exact, and so is its product with one
    have exact : Rounded n n.toUInt64.toFloat := by
      have hn : n.toUInt64.toNat = n := Nat.mod_eq_of_lt (by omega)
      have := (normalize_rounds n.toUInt64.toNat 0 .positive).rounded
      rw [zpow_zero, mul_one] at this
      rw [show (n : ℚ) = ((n.toUInt64.toNat : ℤ) : ℚ) by rw [hn, Int.cast_natCast]]
      exact this
    have hfinite := exact.finite_of_natCast (by omega)
    have hvalue := (exact.nearest hfinite).eq_of_onGrid (onGrid_natCast (by omega))
    have := mul_rounded hfinite value_one.1
    rwa [hvalue, value_one.2, mul_one] at this
  case isFalse h => exact (ofScientific_rounds (by omega)).rounded

/-- A count that 64 bits hold is a finite float. -/
theorem ofInt_nonneg {k : ℤ} (h0 : 0 ≤ k) (hk : k ≤ 2 ^ 63) :
    finite (Float.ofInt k) = true ∧ 0 ≤ value (Float.ofInt k) := by
  obtain ⟨n, rfl⟩ := Int.eq_ofNat_of_zero_le h0
  have hfinite := (ofNat_rounded n).finite_of_natCast (by omega)
  exact ⟨hfinite, ((ofNat_rounded n).nearest hfinite).nonneg (Nat.cast_nonneg n)⟩

theorem clampInt64_mono {j k : ℤ} (h : j ≤ k) : clampInt64 j ≤ clampInt64 k :=
  max_le_max_left _ (min_le_min_right _ h)

theorem clampInt64_nonneg {k : ℤ} (h : 0 ≤ k) : 0 ≤ clampInt64 k :=
  clampInt64_mono h

theorem roundInt64_eq {r : Scaled} (h : Scaled.ofFloat? x = some r) :
    roundInt64 x = clampInt64 r.roundHalfAway := by
  rw [roundInt64, h]

theorem roundInt64_mono (hx : finite x = true) (hy : finite y = true) (h : value x ≤ value y) :
    roundInt64 x ≤ roundInt64 y := by
  obtain ⟨r, hr⟩ := Option.isSome_iff_exists.mp hx
  obtain ⟨q, hq⟩ := Option.isSome_iff_exists.mp hy
  rw [roundInt64_eq hr, roundInt64_eq hq]
  refine clampInt64_mono (r.roundHalfAway_mono q ?_)
  rwa [ofFloat?_value hr, ofFloat?_value hq]

theorem roundInt64_zero : roundInt64 0 = 0 := rfl

end Geotrack.Binary64
