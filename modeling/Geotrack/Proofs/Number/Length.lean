import Geotrack.Proofs.Number.Binary64

/-!
# Roots and lengths

A rounded root is not zero where the number is at least the square of the smallest unit of the grid.
So the length of a vector is zero just where both its coordinates are, and the distance between two
points of the plane just where they are the same: `hypotenuse_eq_zero_iff`.
-/

namespace Geotrack.Binary64

open Float.Model Float.Model.UnpackedFloat

/-! ### Roots -/

section Root

variable {m : ℕ} {e t : ℤ}

theorem extended_above (n : ℕ) :
    extended (n + 1 / 4) = ⟨n, false, true⟩ ∧ extended (n + 3 / 4) = ⟨n, true, true⟩ := by
  have floor {q : ℚ} {k : ℕ} (h : (k : ℚ) ≤ q) (h' : q < k + 1) : ⌊q⌋₊ = k :=
    (Nat.floor_eq_iff ((Nat.cast_nonneg k).trans h)).mpr ⟨h, h'⟩
  have first : ⌊2 * ((n : ℚ) + 1 / 4)⌋₊ = 2 * n :=
    floor (by push_cast; linarith) (by push_cast; linarith)
  have second : ⌊2 * ((n : ℚ) + 3 / 4)⌋₊ = 2 * n + 1 :=
    floor (by push_cast; linarith) (by push_cast; linarith)
  constructor
  · have odd : ¬ 2 * n % 2 = 1 := by omega
    have part : ((2 * n : ℕ) : ℚ) ≠ 2 * (n + 1 / 4) := by push_cast; linarith
    simp only [extended, first, floor (k := n) (q := n + 1 / 4) (by linarith) (by linarith), odd,
      part, decide_false, decide_true, ne_eq, not_false_eq_true]
  · have odd : (2 * n + 1) % 2 = 1 := by omega
    have part : ((2 * n + 1 : ℕ) : ℚ) ≠ 2 * (n + 3 / 4) := by push_cast; linarith
    simp only [extended, second, floor (k := n) (q := n + 3 / 4) (by linarith) (by linarith), odd,
      part, decide_true, ne_eq, not_false_eq_true]

/-- How exact a whole root is. -/
def rootAccuracy (n : ℕ) : Accuracy :=
  if n - n.sqrt * n.sqrt = 0 then .exact
  else .inexact (if n - n.sqrt * n.sqrt ≤ n.sqrt then .lt else .gt)

/-- A whole root together with what is known of its remainder is that of a number not below it. -/
theorem exists_extended_root (n : ℕ) : ∃ q : ℚ, (n.sqrt : ℚ) ≤ q ∧
    ExtendedMantissa.ofMantissaAndAccuracy n.sqrt (rootAccuracy n) = extended q := by
  unfold rootAccuracy
  split
  · exact ⟨n.sqrt, le_rfl, exact_eq_extended _⟩
  · split
    · exact ⟨n.sqrt + 1 / 4, by linarith, (extended_above _).1.symm⟩
    · exact ⟨n.sqrt + 3 / 4, by linarith, (extended_above _).2.symm⟩

theorem two_pow_le_sqrt {n k : ℕ} (h : 2 ^ (2 * k) ≤ n) : 2 ^ k ≤ n.sqrt := by
  rw [Nat.le_sqrt, ← pow_add, ← two_mul]
  exact h

/-- The root of a number of at least the square of the smallest unit is at least that unit. -/
theorem smallest_le_sqrt {n : ℕ} {t : ℤ} (hn : 0 < n)
    (h : (2 : ℚ) ^ (-2148 : ℤ) ≤ n * 2 ^ (2 * t)) : (2 : ℚ) ^ (-1074 : ℤ) ≤ n.sqrt * 2 ^ t := by
  rcases le_total t (-1074) with hlow | hhigh
  · have whole : 2 ^ (2 * (-1074 - t).toNat) ≤ n := by
      have : (2 : ℚ) ^ (2 * (-1074 - t).toNat) ≤ n := by
        refine le_of_mul_le_mul_right ?_ (two_zpow_pos (2 * t))
        calc (2 : ℚ) ^ (2 * (-1074 - t).toNat) * 2 ^ (2 * t) = 2 ^ (-2148 : ℤ) := by
              rw [← zpow_natCast, ← two_zpow_add]
              congr 1
              push_cast
              omega
          _ ≤ n * 2 ^ (2 * t) := h
      exact_mod_cast this
    calc (2 : ℚ) ^ (-1074 : ℤ) = (2 ^ (-1074 - t).toNat : ℕ) * 2 ^ t := two_zpow_eq hlow
      _ ≤ n.sqrt * 2 ^ t := by
        gcongr
        exact two_pow_le_sqrt whole
  · have one : (1 : ℚ) ≤ n.sqrt := by exact_mod_cast Nat.sqrt_pos.mpr hn
    calc (2 : ℚ) ^ (-1074 : ℤ) ≤ 2 ^ t := two_zpow_mono hhigh
      _ ≤ n.sqrt * 2 ^ t := le_mul_of_one_le_left (two_zpow_pos t).le one

/-- The rounded root of a number that is not too small is that of a number of which the same holds
of one at least. -/
theorem sqrtCore_rounds (hm : 0 < m) (h : (2 : ℚ) ^ (-2148 : ℤ) ≤ m * 2 ^ e) :
    ∃ x : ℚ, (2 : ℚ) ^ (-1074 : ℤ) ≤ x ∧
      RoundsTo x (roundWithAccuracy .binary64 .positive (sqrtCore .binary64 m e).1
        (sqrtCore .binary64 m e).2.1 (sqrtCore .binary64 m e).2.2) := by
  obtain ⟨t, ht⟩ : ∃ t, t = min (e / 2)
      (Format.binary64.targetExponent ((totalExponent m e + 1) / 2)) := ⟨_, rfl⟩
  obtain ⟨n, hn⟩ : ∃ n, n = m <<< (e - 2 * t).toNat := ⟨_, rfl⟩
  have core : sqrtCore .binary64 m e = (n.sqrt, t, rootAccuracy n) := by
    subst hn ht
    rfl
  simp only [Format.targetExponent, totalExponent, Format.mantissaBits, Format.minExponent] at ht
  norm_num at ht
  rw [Nat.shiftLeft_eq] at hn
  have digits : t ≤ -1074 ∨ 52 ≤ n.sqrt.log2 := by
    refine or_iff_not_imp_left.mpr fun hlarge => ?_
    have enough : 2 * 52 ≤ m.log2 + (e - 2 * t).toNat := by omega
    have full : 2 ^ 52 ≤ n.sqrt := by
      refine two_pow_le_sqrt ((Nat.pow_le_pow_right two_pos enough).trans ?_)
      rw [hn, pow_add]
      exact Nat.mul_le_mul_right _ (Nat.log2_self_le hm.ne')
    exact (Nat.le_log2 (by omega)).mpr full
  have units : (2 : ℚ) ^ (-1074 : ℤ) ≤ n.sqrt * 2 ^ t := by
    have hpos : 0 < n := hn ▸ Nat.mul_pos hm (by positivity)
    refine smallest_le_sqrt hpos (h.trans_eq ?_)
    rw [hn, two_zpow_eq (t := 2 * t) (e := e) (by omega)]
    push_cast
    ring
  obtain ⟨q, hq, hextended⟩ := exists_extended_root n
  have scaled : q * 2 ^ t * 2 ^ (-t) = q := by
    rw [mul_assoc, ← two_zpow_add, add_neg_cancel, zpow_zero, mul_one]
  have hq0 : 0 ≤ q := (Nat.cast_nonneg _).trans hq
  refine ⟨q * 2 ^ t, units.trans (mul_le_mul_of_nonneg_right hq (two_zpow_pos t).le), ?_⟩
  rw [core]
  have rounds := roundWithAccuracy_rounds .positive (mul_nonneg hq0 (two_zpow_pos t).le)
    (scaled ▸ hextended) (by omega)
  rwa [signFactor, one_mul] at rounds

end Root

/-! ### Vectors -/

section Vector

variable {a b x y : Float}

theorem onGrid_smallest : OnGrid (2 ^ (-1074 : ℤ)) := ⟨1, -1074, by norm_num, le_rfl, by norm_num⟩

theorem OnGrid.units {z : ℚ} (h : OnGrid z) : ∃ k : ℤ, z = k * 2 ^ (-1074 : ℤ) :=
  (h.units_or_le le_rfl).resolve_right fun hlt => lt_irrefl _ hlt.1

/-- Whole numbers of units are apart by a unit at least. -/
theorem le_sub_of_units {j k : ℤ} (h : (j : ℚ) * 2 ^ (-1074 : ℤ) < k * 2 ^ (-1074 : ℤ)) :
    (2 : ℚ) ^ (-1074 : ℤ) ≤ k * 2 ^ (-1074 : ℤ) - j * 2 ^ (-1074 : ℤ) := by
  have hlt : j < k := by exact_mod_cast lt_of_mul_lt_mul_right h (two_zpow_pos _).le
  have one : (1 : ℚ) ≤ k - j := by exact_mod_cast Int.sub_pos_of_lt hlt
  rw [← sub_mul]
  exact le_mul_of_one_le_left (two_zpow_pos _).le one

/-- The difference of different finite numbers is not zero. -/
theorem sub_side (ha : finite a = true) (hb : finite b = true) (h : value a ≠ value b) :
    ∃ s, side (a - b) = some s := by
  have rounded := sub_rounded ha hb
  obtain ⟨j, hj⟩ := (onGrid_value a).units
  obtain ⟨k, hk⟩ := (onGrid_value b).units
  have smallest := two_zpow_pos (-1074)
  rw [hj, hk] at rounded h
  rcases h.lt_or_gt with hlt | hgt
  · refine ⟨.negative, rounded.side_eq onGrid_smallest.neg ?_ ?_⟩ <;> rw [signFactor]
    · linarith
    · linarith [le_sub_of_units hlt]
  · refine ⟨.positive, rounded.side_eq onGrid_smallest ?_ ?_⟩ <;> rw [signFactor]
    · linarith
    · linarith [le_sub_of_units hgt]

theorem side_eq_none_of_sub (ha : finite a = true) (hb : finite b = true)
    (h : value a = value b) : side (a - b) = none := by
  have rounded := sub_rounded ha hb
  rw [h, sub_self] at rounded
  obtain ⟨u, hu, hfu⟩ := rounded
  rw [side, hfu, unpackedSide_overflow]
  by_contra hne
  obtain ⟨s, hs⟩ := Option.ne_none_iff_exists'.mp hne
  simpa using hu.pos_of_side hs

/-- A rounded number is a number. -/
theorem Rounded.ne_nan {r : ℚ} (h : Rounded r x) : x.toModel.unpack ≠ .notANumber := by
  obtain ⟨u, hu, hx⟩ := h
  have hfinite := hu.isFinite
  rw [hx]
  cases u with
  | finite s m e hm =>
    rw [overflow]
    split <;> simp
  | _ => simp_all [overflow, UnpackedFloat.isFinite]

theorem beq_zero_iff (hx : x.toModel.unpack ≠ .notANumber) : (x == 0) = true ↔ side x = none := by
  change (x.toModel.unpack.compare (0 : Float).toModel.unpack == some .eq) = true ↔ _
  rw [unpack_zero_float, side]
  cases h : x.toModel.unpack with
  | infinity s | finite s => cases s <;> simp [UnpackedFloat.compare, unpackedSide]
  | zero s => simp [UnpackedFloat.compare, unpackedSide]
  | notANumber => exact absurd h hx

theorem value_eq_zero_of_side (h : side x = none) : value x = 0 := by
  rw [side] at h
  rw [value]
  cases hu : x.toModel.unpack with
  | infinity s | finite s => rw [hu] at h; cases h
  | _ => rfl

/-- The square of a finite number on a side of zero has a root on the grid. -/
theorem sq_le_of_side (h : side x ≠ none) (hx : finite x = true) :
    (2 : ℚ) ^ (-2148 : ℤ) ≤ value x * value x := by
  obtain ⟨s, hs⟩ := Option.ne_none_iff_exists'.mp h
  obtain ⟨k, hk⟩ := (onGrid_value x).units
  have hk0 : k ≠ 0 := by
    rintro rfl
    have pos := pos_of_unpackedSide (finite_iff.mp hx) hs
    rw [← value, hk] at pos
    simp at pos
  have one : (1 : ℚ) ≤ k * k := by exact_mod_cast Int.add_one_le_of_lt (mul_self_pos.mpr hk0)
  calc (2 : ℚ) ^ (-2148 : ℤ) ≤ k * k * 2 ^ (-2148 : ℤ) :=
        le_mul_of_one_le_left (two_zpow_pos _).le one
    _ = value x * value x := by
      rw [hk, show (-2148 : ℤ) = -1074 + -1074 by norm_num, two_zpow_add]
      ring

/-- A number that is neither finite nor a NaN is infinite. -/
theorem isInf_of_not_finite (hx : x.toModel.unpack ≠ .notANumber)
    (h : Scaled.ofFloat? x = none) : x.isInf = true ∧ side x ≠ none := by
  change x.toModel.unpack.isInf = true ∧ _
  unfold Scaled.ofFloat? at h
  rw [side]
  cases hu : x.toModel.unpack with
  | infinity s => exact ⟨rfl, Option.some_ne_none s⟩
  | notANumber => exact absurd hu hx
  | _ => rw [hu] at h; cases h

theorem sqrt_of_value_zero {s : Scaled} (h : s.value = 0) : s.sqrt = 0 := by
  rw [Scaled.sqrt, if_pos]
  by_contra hlt
  have : (0 : ℚ) < s.mantissa := by exact_mod_cast not_le.mp hlt
  exact (mul_pos this (two_zpow_pos s.exponent)).ne' h

theorem sqrt_side {s : Scaled} (h : (2 : ℚ) ^ (-2148 : ℤ) ≤ s.value) :
    side s.sqrt = some .positive := by
  have hm : 0 < s.mantissa := by
    have hpos : 0 < s.value := (two_zpow_pos _).trans_le h
    rw [Scaled.value, mul_pos_iff_of_pos_right (two_zpow_pos _)] at hpos
    exact_mod_cast hpos
  have hvalue : s.value = s.mantissa.toNat * 2 ^ s.exponent := by
    rw [Scaled.value, ← Int.cast_natCast, Int.toNat_of_nonneg hm.le]
  obtain ⟨x, hx, rounds⟩ := sqrtCore_rounds (m := s.mantissa.toNat) (by omega) (hvalue ▸ h)
  rw [Scaled.sqrt, if_neg (not_le.mpr hm)]
  exact rounds.rounded.side_eq onGrid_smallest (by rw [signFactor, one_mul]; exact two_zpow_pos _)
    (by rwa [signFactor, one_mul, one_mul])

/-- The length of a vector is zero where both coordinates are. -/
theorem hypotenuse_eq_zero_iff (hx : x.toModel.unpack ≠ .notANumber)
    (hy : y.toModel.unpack ≠ .notANumber) :
    (hypotenuse x y == 0) = true ↔ side x = none ∧ side y = none := by
  have infinite : ((1 / 0 : Float) == 0) = false := rfl
  rw [hypotenuse]
  cases ha : Scaled.ofFloat? x with
  | none =>
    obtain ⟨hinf, hside⟩ := isInf_of_not_finite hx ha
    simp [hinf, infinite, hside]
  | some a =>
    cases hb : Scaled.ofFloat? y with
    | none =>
      obtain ⟨hinf, hside⟩ := isInf_of_not_finite hy hb
      simp [hinf, infinite, hside]
    | some b =>
      have fx : finite x = true := Option.isSome_iff_exists.mpr ⟨a, ha⟩
      have fy : finite y = true := Option.isSome_iff_exists.mpr ⟨b, hb⟩
      have hvalue : ((a.mul a).add (b.mul b)).value = value x * value x + value y * value y := by
        rw [Scaled.value_add, Scaled.value_mul, Scaled.value_mul, ofFloat?_value ha,
          ofFloat?_value hb]
      dsimp only
      constructor
      · intro hzero
        by_contra hnot
        have large : (2 : ℚ) ^ (-2148 : ℤ) ≤ ((a.mul a).add (b.mul b)).value := by
          rw [hvalue]
          have squareX := mul_self_nonneg (value x)
          have squareY := mul_self_nonneg (value y)
          rcases not_and_or.mp hnot with h | h
          · linarith [sq_le_of_side h fx]
          · linarith [sq_le_of_side h fy]
        have positive := sqrt_side large
        rw [side] at positive
        rw [beq_zero_iff (fun hnan => by rw [hnan] at positive; cases positive), side,
          positive] at hzero
        cases hzero
      · rintro ⟨h, h'⟩
        rw [sqrt_of_value_zero (by rw [hvalue, value_eq_zero_of_side h, value_eq_zero_of_side h',
          mul_zero, add_zero])]
        rfl

end Vector

end Geotrack.Binary64
