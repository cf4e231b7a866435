import Geotrack.Proofs.Number.Error
import Geotrack.Proofs.Plane.Contacts
import Geotrack.Track.Trajectory

/-!
# Percentiles of speeds

The nearest-rank percentile is the least value that so many percent of the values are not above. The
rank is taken of a quotient and a product of floats, each off by at most one part in `2 ^ 53`: the
speed found is the percentile of a percentage that is off by less than one part in `2 ^ 51`, and of
the percentage itself unless that much moves the rank over a whole number.
-/

namespace Geotrack

open Scalar (sortKeyLe)

/-! ### Smallest values -/

section Sorted

variable {K : Type} [Scalar K] {j k : ℕ} {values : List K} {v w : K} {p : ℚ}

/-- Whether a value is the `k`-th smallest: fewer than `k` values are below it, and at least `k` are
not above it. -/
structure IsSmallest (k : ℕ) (values : List K) (v : K) : Prop where
  mem : v ∈ values
  below : values.countP (fun w => !sortKeyLe v w) < k
  upTo : k ≤ values.countP fun w => sortKeyLe w v

/-- The rank of an exact percentage among `n` values. -/
def nearestRank (p : ℚ) (n : ℕ) : ℕ := max 1 ⌈p * n / 100⌉₊

/-- Whether a value is the nearest-rank percentile: the least value that so many percent of the
values are not above. -/
structure IsPercentile (p : ℚ) (values : List K) (v : K) : Prop where
  smallest : IsSmallest (nearestRank p values.length) values v
  enough : p * values.length / 100 ≤ values.countP fun w => sortKeyLe w v
  least : ∀ w ∈ values, p * values.length / 100 ≤ (values.countP fun u => sortKeyLe u w) →
    sortKeyLe v w = true

/-- Whether all values of a list are different in order. -/
def AllDifferent (values : List K) : Prop :=
  values.Pairwise fun v w => ¬ (sortKeyLe v w = true ∧ sortKeyLe w v = true)

variable [Scalar.Sorts K]

theorem sortKeyLe_self (v : K) : sortKeyLe v v = true := (Scalar.Sorts.total v v).elim id id

/-- Values that are all different have at most one not above `v` that is not below it. -/
theorem countP_le_add_one (distinct : AllDifferent values) :
    (values.countP fun w => sortKeyLe w v) ≤ (values.countP fun w => !sortKeyLe v w) + 1 := by
  induction distinct with
  | nil => simp
  | @cons a rest others _ ih =>
    rw [List.countP_cons, List.countP_cons]
    by_cases same : sortKeyLe a v = true ∧ sortKeyLe v a = true
    · have below : (rest.countP fun w => sortKeyLe w v) ≤ rest.countP fun w => !sortKeyLe v w := by
        refine List.countP_mono_left fun w hw hwv => ?_
        simp only [Bool.not_eq_eq_eq_not, Bool.not_true, Bool.eq_false_iff]
        exact fun hvw => others w hw
          ⟨Scalar.Sorts.trans a v w same.1 hvw, Scalar.Sorts.trans w v a hwv same.2⟩
      simp only [same, if_true, Bool.not_true]
      simpa using below
    · have below : sortKeyLe a v = true → (!sortKeyLe v a) = true := by
        cases hva : sortKeyLe v a
        · exact fun _ => rfl
        · exact fun hav => absurd ⟨hav, hva⟩ same
      split
      case isTrue hav =>
        rw [if_pos (below hav)]
        omega
      case isFalse => omega

/-- Where all values are different, one has one rank. -/
theorem IsSmallest.unique (distinct : AllDifferent values) (h : IsSmallest j values v)
    (h' : IsSmallest k values v) : j = k := by
  have := countP_le_add_one (v := v) distinct
  have := h.below
  have := h.upTo
  have := h'.below
  have := h'.upTo
  omega

theorem IsSmallest.isPercentile (h : IsSmallest (nearestRank p values.length) values v) :
    IsPercentile p values v where
  smallest := h
  enough := Nat.ceil_le.mp ((le_max_right _ _).trans h.upTo)
  least w hw enough := by
    by_contra above
    -- what is not above `w` is below `v`
    have fewer : (values.countP fun u => sortKeyLe u w) ≤
        values.countP fun u => !sortKeyLe v u := by
      refine List.countP_mono_left fun u _ hu => ?_
      simp only [Bool.not_eq_eq_eq_not, Bool.not_true, Bool.eq_false_iff]
      exact fun hvu => above (Scalar.Sorts.trans v u w hvu hu)
    have one : 1 ≤ values.countP fun u => sortKeyLe u w :=
      List.countP_pos_iff.mpr ⟨w, hw, sortKeyLe_self w⟩
    have rank : nearestRank p values.length ≤ values.countP fun u => sortKeyLe u w :=
      max_le one (Nat.ceil_le.mpr enough)
    have := h.below
    omega

theorem sorted_mergeSort (values : List K) :
    (values.mergeSort sortKeyLe).Pairwise (sortKeyLe · · = true) :=
  List.pairwise_mergeSort Scalar.Sorts.trans
    (fun a b => Bool.or_eq_true_iff.mpr (Scalar.Sorts.total a b)) values

/-- What is at a position of the sorted values has as many of them before it. -/
theorem isSmallest_of_sorted {i : ℕ} (h : (values.mergeSort sortKeyLe)[i]? = some v) :
    IsSmallest (i + 1) values v := by
  obtain ⟨hi, hv⟩ := List.getElem?_eq_some_iff.mp h
  have perm := List.mergeSort_perm values sortKeyLe
  have sorted := sorted_mergeSort values
  obtain ⟨before, after, split, count⟩ :
      ∃ before after, values.mergeSort sortKeyLe = before ++ v :: after ∧ before.length = i :=
    ⟨_, _, by rw [← hv, ← List.drop_eq_getElem_cons hi, List.take_append_drop],
      List.length_take_of_le hi.le⟩
  rw [split, List.pairwise_append, List.pairwise_cons] at sorted
  obtain ⟨-, ⟨later, -⟩, earlier⟩ := sorted
  have self := sortKeyLe_self v
  refine ⟨perm.mem_iff.mp (split ▸ List.mem_append_right _ List.mem_cons_self), ?_, ?_⟩
  · have none : after.countP (fun w => !sortKeyLe v w) = 0 :=
      List.countP_eq_zero.mpr fun w hw => by simp [later w hw]
    have some : before.countP (fun w => !sortKeyLe v w) ≤ before.length := List.countP_le_length
    rw [← perm.countP_eq, split, List.countP_append, List.countP_cons_of_neg (by simp [self]), none]
    omega
  · have all : (before.countP fun w => sortKeyLe w v) = before.length :=
      List.countP_eq_length.mpr fun w hw => earlier w hw v List.mem_cons_self
    rw [← perm.countP_eq, split, List.countP_append, List.countP_cons, if_pos self, all]
    omega

end Sorted

/-! ### Ranks -/

open Binary64

namespace Trajectory

/-- The percentage of `n` values as floats count it, which is rounded up to the rank. -/
def floatRank (p : Float) (n : ℕ) : Float := p / Scalar.ofInt 100 * Scalar.ofInt n

/-- Whether no whole number is so close to the percentage of `n` values that the rank could be
wrong, or the percentage is that number and its quotient is not rounded up. -/
def IsClear (p : Float) (n : ℕ) : Prop :=
  ∀ j : ℕ, |value p * n / 100 - j| ≤ value p * n / 100 / 2 ^ 51 →
    value p * n / 100 = j ∧ value (p / Scalar.ofInt 100) ≤ value p / 100

variable {p p' : Float} {n : ℕ}

/-- Whether a float is a percentage. -/
structure IsPercentage (p : Float) : Prop where
  finite : finite p = true
  nonneg : 0 ≤ value p
  le : value p ≤ 100

theorem value_hundred : Binary64.finite (Scalar.ofInt 100 : Float) = true ∧
    value (Scalar.ofInt 100) = 100 := by
  exact_mod_cast scalar_ofInt_natCast (n := 100) (by norm_num)

theorem isPercentage_zero : IsPercentage 0 :=
  ⟨finite_zero, value_zero.ge, by rw [value_zero]; norm_num⟩

theorem IsPercentage.of_le (hp : IsPercentage p) (le : p ≤ p') (high : p' ≤ 100) :
    IsPercentage p' ∧ value p ≤ value p' := by
  have finite_p' := finite_of_between hp.finite value_hundred.1 le high
  have le := (le_iff hp.finite finite_p').mp le
  have high := (le_iff finite_p' value_hundred.1).mp high
  rw [value_hundred.2] at high
  exact ⟨⟨finite_p', hp.nonneg.trans le, high⟩, le⟩

/-- What two roundings are off by. -/
theorem twice_rounded {x y z c : ℚ} (hc : 0 ≤ c) (first : |x - y| ≤ x / 2 ^ 53)
    (second : |y * c - z| ≤ y * c / 2 ^ 53) : |z - x * c| ≤ x * c / 2 ^ 51 := by
  have scaled : |x * c - y * c| ≤ x * c / 2 ^ 53 := by
    rw [← sub_mul, abs_mul, abs_of_nonneg hc, mul_div_right_comm]
    exact mul_le_mul_of_nonneg_right first hc
  rw [abs_le] at *
  constructor <;> linarith

theorem rank_of_le_one {x : ℚ} (h : x ≤ 1) : max 1 ⌈x⌉₊ = 1 :=
  max_eq_left (Nat.ceil_le.mpr (by exact_mod_cast h))

section Rank

variable (hp : IsPercentage p) (hn : n ≤ 2 ^ 53)
include hp

theorem part_nearest : finite (p / Scalar.ofInt 100) = true ∧
    Binary64.Nearest (value p / 100) (value (p / Scalar.ofInt 100)) := by
  obtain ⟨finite_hundred, value_hundred⟩ := value_hundred
  have part := div_rounded hp.finite finite_hundred (by rw [value_hundred]; norm_num)
  rw [value_hundred] at part
  have finite_part : finite (p / Scalar.ofInt 100) = true := by
    refine part.finite_of_abs_le (a := p) ?_
    rw [abs_div]
    exact div_le_self (abs_nonneg _) (by norm_num)
  exact ⟨finite_part, part.nearest finite_part⟩

theorem part_bounds : 0 ≤ value (p / Scalar.ofInt 100) ∧ value (p / Scalar.ofInt 100) ≤ 1 := by
  have near := (part_nearest hp).2
  have low := hp.nonneg
  have high := hp.le
  exact ⟨near.nonneg (by positivity),
    near.le_of_le (by exact_mod_cast onGrid_natCast (n := 1) (by norm_num)) (by linarith)⟩

theorem share_le (n : ℕ) : value p * n / 100 ≤ n := by
  have := mul_le_mul_of_nonneg_right hp.le (Nat.cast_nonneg n)
  linarith

include hn

theorem floatRank_nearest : finite (floatRank p n) = true ∧
    Binary64.Nearest (value (p / Scalar.ofInt 100) * n) (value (floatRank p n)) := by
  obtain ⟨low, high⟩ := part_bounds hp
  obtain ⟨finite_count, count⟩ := scalar_ofInt_natCast hn
  have product := mul_rounded (part_nearest hp).1 finite_count
  rw [count] at product
  have finite_product : finite (floatRank p n) = true := by
    refine product.finite_of_abs_le (a := Scalar.ofInt n) ?_
    rw [count, abs_mul, abs_of_nonneg low]
    exact mul_le_of_le_one_left (abs_nonneg _) high
  exact ⟨finite_product, product.nearest finite_product⟩

theorem floatRank_le : value (floatRank p n) ≤ n :=
  (floatRank_nearest hp hn).2.le_of_le (onGrid_natCast hn)
    (mul_le_of_le_one_left (Nat.cast_nonneg n) (part_bounds hp).2)

theorem floatRank_nonneg : 0 ≤ value (floatRank p n) :=
  (floatRank_nearest hp hn).2.nonneg (mul_nonneg (part_bounds hp).1 (Nat.cast_nonneg n))

theorem rank_eq : rank p n = max 1 ⌈value (floatRank p n)⌉₊ := by
  have high := floatRank_le hp hn
  have whole : ⌈value (floatRank p n)⌉₊ ≤ n := Nat.ceil_le.mpr high
  have small : (n : ℚ) ≤ 2 ^ 63 := by exact_mod_cast hn.trans (by norm_num)
  have up := ceilNat_eq (floatRank_nearest hp hn).1 (high.trans small)
  change max 1 (min n (ceilNat (floatRank p n))) = _
  rw [up, min_eq_right whole]

/-- The percentage of the values is off by less than one part in `2 ^ 51`, unless it is at most
one. -/
theorem floatRank_near (h1 : 1 ≤ n) :
    |value (floatRank p n) - value p * n / 100| ≤ value p * n / 100 / 2 ^ 51 ∨
    value (floatRank p n) ≤ 1 ∧ value p * n / 100 ≤ 1 := by
  have near := (part_nearest hp).2
  have near' := (floatRank_nearest hp hn).2
  have one : (1 : ℚ) ≤ n := by exact_mod_cast h1
  have onGrid : OnGrid ((2 : ℚ) ^ (-1022 : ℤ)) := ⟨1, -1022, by norm_num, by norm_num, by norm_num⟩
  have whole : value p * n / 100 = value p / 100 * n := by ring
  have low : 0 ≤ value p / 100 := by linarith [hp.nonneg]
  have low' := (part_bounds hp).1
  rw [whole]
  -- below `2 ^ -1022` the quotient has not all its digits
  rcases le_or_gt ((2 : ℚ) ^ (-1022 : ℤ)) (value p / 100) with normal | tiny
  · left
    have first := near.abs_sub_le_part (normal.trans (le_abs_self _))
    have part : 2 ^ (-1022 : ℤ) ≤ value (p / Scalar.ofInt 100) := near.ge_of_ge onGrid normal
    have product := part.trans (le_mul_of_one_le_right low' one)
    have second := near'.abs_sub_le_part (product.trans (le_abs_self _))
    rw [abs_of_nonneg low] at first
    rw [abs_of_nonneg (mul_nonneg low' (Nat.cast_nonneg n))] at second
    exact twice_rounded (Nat.cast_nonneg n) first second
  · right
    have count : (2 : ℚ) ^ (-1022 : ℤ) * n ≤ 1 := by
      have : (n : ℚ) ≤ 2 ^ (53 : ℤ) := by exact_mod_cast hn
      calc (2 : ℚ) ^ (-1022 : ℤ) * n ≤ 2 ^ (-1022 : ℤ) * 2 ^ (53 : ℤ) := by gcongr
        _ ≤ 1 := by
          rw [← two_zpow_add]
          exact (two_zpow_mono (by norm_num : (-1022 + 53 : ℤ) ≤ 0)).trans_eq (zpow_zero 2)
    have part : value (p / Scalar.ofInt 100) ≤ 2 ^ (-1022 : ℤ) := near.le_of_le onGrid tiny.le
    constructor
    · refine near'.le_of_le (by exact_mod_cast onGrid_natCast (n := 1) (by norm_num)) ?_
      exact (mul_le_mul_of_nonneg_right part (Nat.cast_nonneg n)).trans count
    · exact (mul_le_mul_of_nonneg_right tiny.le (Nat.cast_nonneg n)).trans count

/-- The rank is that of a percentage almost the same. -/
theorem exists_percentage (h1 : 1 ≤ n) :
    ∃ q : ℚ, |q - value p| ≤ value p / 2 ^ 51 ∧ 0 ≤ q ∧ q ≤ 100 ∧ rank p n = nearestRank q n := by
  have count : (0 : ℚ) < n := by exact_mod_cast h1
  have low := hp.nonneg
  have nonneg := floatRank_nonneg hp hn
  rw [rank_eq hp hn]
  rcases floatRank_near hp hn h1 with near | ⟨one, one'⟩
  · refine ⟨value (floatRank p n) * 100 / n, ?_, by positivity, ?_, ?_⟩
    · have scaled : value (floatRank p n) * 100 / n - value p =
          (value (floatRank p n) - value p * n / 100) * (100 / n) := by field_simp
      rw [scaled, abs_mul, abs_of_pos (by positivity : (0 : ℚ) < 100 / n)]
      calc |value (floatRank p n) - value p * n / 100| * (100 / n)
          ≤ value p * n / 100 / 2 ^ 51 * (100 / n) := by gcongr
        _ = value p / 2 ^ 51 := by field_simp
    · rw [div_le_iff₀ count]
      linarith [floatRank_le hp hn]
    · rw [nearestRank]
      congr 2
      field_simp
  · refine ⟨value p, ?_, low, hp.le, ?_⟩
    · rw [sub_self, abs_zero]
      positivity
    · rw [nearestRank, rank_of_le_one one, rank_of_le_one one']

/-- The rank is off by at most one. -/
theorem rank_near (h1 : 1 ≤ n) (hn' : n ≤ 2 ^ 51) :
    rank p n ≤ nearestRank (value p) n + 1 ∧ nearestRank (value p) n ≤ rank p n + 1 := by
  have low := hp.nonneg
  have nonneg := floatRank_nonneg hp hn
  have nonneg' : 0 ≤ value p * n / 100 := by positivity
  have near : |value (floatRank p n) - value p * n / 100| ≤ 1 := by
    rcases floatRank_near hp hn h1 with near | ⟨one, one'⟩
    · have count : (n : ℚ) ≤ 2 ^ 51 := by exact_mod_cast hn'
      refine near.trans ?_
      rw [div_le_one (by positivity)]
      exact (share_le hp n).trans count
    · rw [abs_le]
      constructor <;> linarith
  rw [abs_le] at near
  have up {x y : ℚ} (h : x ≤ y + 1) : max 1 ⌈x⌉₊ ≤ max 1 ⌈y⌉₊ + 1 := by
    have : ⌈x⌉₊ ≤ ⌈y⌉₊ + 1 := Nat.ceil_le.mpr (by push_cast; linarith [Nat.le_ceil y])
    omega
  rw [rank_eq hp hn, nearestRank]
  exact ⟨up (by linarith), up (by linarith)⟩

/-- Where the rank is clear it is exact. -/
theorem rank_eq_nearestRank (h1 : 1 ≤ n) (clear : IsClear p n) :
    rank p n = nearestRank (value p) n := by
  rw [rank_eq hp hn, nearestRank]
  rcases floatRank_near hp hn h1 with near | ⟨one, one'⟩
  · rw [abs_le] at near
    have below : value p * n / 100 ≤ ⌈value (floatRank p n)⌉₊ := by
      have up := Nat.le_ceil (value (floatRank p n))
      by_contra above
      refine above (clear _ ?_).1.le
      rw [abs_of_pos (by linarith)]
      linarith
    have above : value (floatRank p n) ≤ ⌈value p * n / 100⌉₊ := by
      have up := Nat.le_ceil (value p * n / 100)
      by_contra below
      obtain ⟨whole, part⟩ := clear ⌈value p * n / 100⌉₊ (by
        rw [abs_of_nonpos (by linarith)]
        linarith)
      have count : ⌈value p * n / 100⌉₊ ≤ n := Nat.ceil_le.mpr (share_le hp n)
      refine below ((floatRank_nearest hp hn).2.le_of_le (onGrid_natCast (count.trans hn)) ?_)
      calc value (p / Scalar.ofInt 100) * n ≤ value p / 100 * n := by gcongr
        _ = value p * n / 100 := by ring
        _ ≤ _ := up
    rw [le_antisymm (Nat.ceil_le.mpr above) (Nat.ceil_le.mpr below)]
  · rw [rank_of_le_one one, rank_of_le_one one']

end Rank

theorem rank_mono (hp : IsPercentage p) (hp' : IsPercentage p') (hn : n ≤ 2 ^ 53)
    (h : value p ≤ value p') : rank p n ≤ rank p' n := by
  obtain ⟨finite_hundred, value_hundred⟩ := value_hundred
  obtain ⟨finite_count, count⟩ := scalar_ofInt_natCast hn
  have nonneg : 0 ≤ value (Scalar.ofInt n : Float) := count ▸ Nat.cast_nonneg n
  have part : value (p / Scalar.ofInt 100) ≤ value (p' / Scalar.ofInt 100) :=
    div_value_mono finite_hundred hp.finite hp'.finite (part_nearest hp).1 (part_nearest hp').1
      (by rw [value_hundred]; norm_num) h
  have swap (p : Float) : floatRank p n = Scalar.ofInt n * (p / Scalar.ofInt 100) :=
    float_mul_comm _ _
  have product : value (floatRank p n) ≤ value (floatRank p' n) := by
    rw [swap p, swap p']
    exact mul_value_mono finite_count (part_nearest hp).1 (part_nearest hp').1
      (swap p ▸ (floatRank_nearest hp hn).1) (swap p' ▸ (floatRank_nearest hp' hn).1) nonneg part
  rw [rank_eq hp hn, rank_eq hp' hn]
  exact max_le_max_left 1 (Nat.ceil_le_ceil product)

/-! ### Speeds -/

variable {t : Trajectory Float} {v w : Float}

theorem rank_bounds (p : Float) (h1 : 1 ≤ n) : 1 ≤ rank p n ∧ rank p n ≤ n :=
  ⟨le_max_left _ _, max_le h1 (min_le_left _ _)⟩

theorem length_speeds : t.speeds.length = t.legs.length := List.length_map _

theorem speedPercentile_eq_ok_iff (legs : t.legs ≠ []) (hp : IsPercentage p) :
    t.speedPercentile p = .ok v ↔
      (t.speeds.mergeSort sortKeyLe)[rank p t.legs.length - 1]? = some v := by
  have allowed : (Scalar.le Scalar.zero p && Scalar.le p (Scalar.ofInt 100)) = true := by
    rw [scalar_le_eq finite_scalar_zero hp.finite, scalar_le_eq hp.finite value_hundred.1,
      value_scalar_zero, value_hundred.2]
    exact Bool.and_eq_true_iff.mpr ⟨decide_eq_true hp.nonneg, decide_eq_true hp.le⟩
  have count : (t.speeds.mergeSort sortKeyLe).length = t.legs.length := by
    rw [List.length_mergeSort, length_speeds]
  have inside := rank_bounds p (List.length_pos_iff.mpr legs)
  rw [speedPercentile, allowed, Bool.not_true, if_neg (by decide)]
  dsimp only
  rw [count, List.getElem?_eq_getElem (by omega)]
  simp

/-- The speed of a percentage is that at its rank. -/
theorem speedPercentile_isSmallest (legs : t.legs ≠ []) (hp : IsPercentage p) :
    ∃ v, t.speedPercentile p = .ok v ∧
      IsSmallest (rank p t.legs.length) t.speeds v := by
  have inside := rank_bounds p (List.length_pos_iff.mpr legs)
  obtain ⟨v, hv⟩ : ∃ v,
      (t.speeds.mergeSort sortKeyLe)[rank p t.legs.length - 1]? = some v := by
    refine ⟨_, List.getElem?_eq_getElem ?_⟩
    rw [List.length_mergeSort, length_speeds]
    omega
  have smallest := isSmallest_of_sorted hv
  rw [Nat.sub_add_cancel inside.1] at smallest
  exact ⟨v, (speedPercentile_eq_ok_iff legs hp).mpr hv, smallest⟩

/-- A larger percentage makes a speed that is not less. -/
theorem speedPercentile_mono (legs : t.legs ≠ []) (few : t.legs.length ≤ 2 ^ 53)
    (hp : IsPercentage p) (hp' : IsPercentage p') (le : value p ≤ value p')
    (h : t.speedPercentile p = .ok v) (h' : t.speedPercentile p' = .ok w) :
    sortKeyLe v w = true := by
  rw [speedPercentile_eq_ok_iff legs hp, List.getElem?_eq_some_iff] at h
  rw [speedPercentile_eq_ok_iff legs hp', List.getElem?_eq_some_iff] at h'
  obtain ⟨hi, rfl⟩ := h
  obtain ⟨hj, rfl⟩ := h'
  have sorted := sorted_mergeSort t.speeds
  rcases (Nat.sub_le_sub_right (rank_mono hp hp' few le) 1).lt_or_eq with lt | eq
  · exact List.pairwise_iff_getElem.mp sorted _ _ hi hj lt
  · simp only [eq]
    exact sortKeyLe_self _

theorem isClear_zero (hp : IsPercentage p) (h0 : value p = 0) : IsClear p n := by
  intro j near
  rw [h0] at near ⊢
  simp only [zero_mul, zero_div, zero_sub, abs_neg, Nat.abs_cast] at near ⊢
  refine ⟨le_antisymm (Nat.cast_nonneg j) near, ?_⟩
  exact (part_nearest hp).2.nonpos (by rw [h0, zero_div])

theorem isClear_hundred (hp : IsPercentage p) (h100 : value p = 100) (few : n < 2 ^ 51) :
    IsClear p n := by
  have whole : value p * n / 100 = n := by rw [h100]; ring
  intro j near
  rw [whole] at near ⊢
  have apart : |(n : ℚ) - j| < 1 := by
    refine near.trans_lt ((div_lt_one (by positivity)).mpr ?_)
    exact_mod_cast few
  have same : (n : ℤ) = j := by
    rw [← sub_eq_zero, ← Int.abs_lt_one_iff]
    exact_mod_cast apart
  refine ⟨by exact_mod_cast same, ?_⟩
  rw [h100]
  exact (part_bounds hp).2.trans (by norm_num)

/-- There is a speed for every percentage: that of a rank among the legs. For fewer than `2 ^ 51`
legs the rank is off by at most one. The speed is the percentile of a percentage off by at most one
part in `2 ^ 51`, and of the percentage itself where the rank is clear, as it is for 0 and 100,
which make the least and the greatest speed. A larger percentage makes a speed that is not less. -/
theorem speedPercentile_nearest (legs : t.legs ≠ []) (low : 0 ≤ p) (high : p ≤ 100) :
    ∃ v, t.speedPercentile p = .ok v ∧
      ∃ k, 1 ≤ k ∧ k ≤ t.legs.length ∧ IsSmallest k t.speeds v ∧
      (t.legs.length < 2 ^ 51 →
        (k ≤ nearestRank (value p) t.legs.length + 1 ∧
          nearestRank (value p) t.legs.length ≤ k + 1) ∧
        (∃ q : ℚ, |q - value p| ≤ value p / 2 ^ 51 ∧ 0 ≤ q ∧ q ≤ 100 ∧
          IsPercentile q t.speeds v) ∧
        (IsClear p t.legs.length → IsPercentile (value p) t.speeds v) ∧
        (value p = 0 → ∀ w ∈ t.speeds, sortKeyLe v w = true) ∧
        (value p = 100 → ∀ w ∈ t.speeds, sortKeyLe w v = true) ∧
        ∀ p' w, p ≤ p' → p' ≤ 100 → t.speedPercentile p' = .ok w →
          sortKeyLe v w = true) := by
  have hp := (isPercentage_zero.of_le low high).1
  have h1 : 1 ≤ t.legs.length := List.length_pos_iff.mpr legs
  obtain ⟨v, hv, smallest⟩ := speedPercentile_isSmallest legs hp
  have percentile {q : ℚ} (h : rank p t.legs.length = nearestRank q t.legs.length) :
      IsPercentile q t.speeds v := by
    rw [h, ← length_speeds] at smallest
    exact smallest.isPercentile
  refine ⟨v, hv, _, (rank_bounds p h1).1, (rank_bounds p h1).2, smallest, fun few => ?_⟩
  have hn : t.legs.length ≤ 2 ^ 53 := by omega
  have exact (clear : IsClear p t.legs.length) :
      IsPercentile (value p) t.speeds v :=
    percentile (rank_eq_nearestRank hp hn h1 clear)
  refine ⟨rank_near hp hn h1 few.le, ?_, exact, fun h0 w hw => ?_, fun h100 => ?_,
    fun p' w le high' hw => ?_⟩
  · obtain ⟨q, near, nonneg, most, hq⟩ := exists_percentage hp hn h1
    exact ⟨q, near, nonneg, most, percentile hq⟩
  · refine (exact (isClear_zero hp h0)).least w hw ?_
    rw [h0, zero_mul, zero_div]
    exact Nat.cast_nonneg _
  · have all := (exact (isClear_hundred hp h100 few)).enough
    rw [h100, mul_div_cancel_left₀ _ (by norm_num : (100 : ℚ) ≠ 0), Nat.cast_le] at all
    exact List.countP_eq_length.mp (le_antisymm List.countP_le_length all)
  · obtain ⟨hp', le⟩ := hp.of_le le high'
    exact speedPercentile_mono legs hn hp hp' le hv hw

/-- A track that goes north, each degree slower than the one before. -/
def slowingTrack : Trajectory Float :=
  build .nil [⟨⟨0, 0⟩, .ofNanos 0⟩, ⟨⟨0, 1⟩, .ofNanos 3600000000000⟩,
    ⟨⟨0, 2⟩, .ofNanos 10800000000000⟩, ⟨⟨0, 3⟩, .ofNanos 25200000000000⟩]

theorem value_fifty : value 50 = 50 := by
  exact_mod_cast (scalar_ofInt_natCast (n := 50) (by norm_num)).2

theorem speedPercentile_nearest_middle :
    slowingTrack.legs ≠ [] ∧ (0 : Float) ≤ 50 ∧ (50 : Float) ≤ 100 ∧
    ∃ v, slowingTrack.speedPercentile 50 = .ok v ∧
      IsPercentile 50 slowingTrack.speeds v := by
  have count : slowingTrack.legs.length = 3 := by cbv
  have legs : slowingTrack.legs ≠ [] := List.length_pos_iff.mp (by omega)
  have low : (0 : Float) ≤ 50 := by decide
  have high : (50 : Float) ≤ 100 := by decide
  have clear : IsClear 50 slowingTrack.legs.length := by
    intro j near
    rw [count, value_fifty, abs_le] at near
    norm_num at near
    rcases Nat.lt_or_ge j 2 with less | more
    · have : (j : ℚ) ≤ 1 := by exact_mod_cast Nat.lt_succ_iff.mp less
      linarith
    · have : (2 : ℚ) ≤ j := by exact_mod_cast more
      linarith
  obtain ⟨v, hv, k, -, -, -, few⟩ := speedPercentile_nearest legs low high
  have exact := (few (by omega)).2.2.1 clear
  rw [value_fifty] at exact
  exact ⟨legs, low, high, v, hv, exact⟩

/-- Of 25 speeds the 28th percentile is the 7th. The quotient is rounded up, and the 8th is
found. -/
theorem speedPercentile_offRank :
    rank (28 : Float) 25 = 8 ∧ nearestRank (value 28) 25 = 7 ∧
    ∀ t : Trajectory Float, t.legs.length = 25 → AllDifferent t.speeds →
      ∃ v, t.speedPercentile 28 = .ok v ∧ IsSmallest 8 t.speeds v ∧
        ¬ IsPercentile (value 28) t.speeds v := by
  have found : rank (28 : Float) 25 = 8 := by decide
  have meant : nearestRank (value 28) 25 = 7 := by
    have : value 28 = 28 := by exact_mod_cast (scalar_ofInt_natCast (n := 28) (by norm_num)).2
    rw [nearestRank, this]
    norm_num
  refine ⟨found, meant, fun t count distinct => ?_⟩
  have hp := (isPercentage_zero.of_le (by decide : (0 : Float) ≤ 28) (by decide)).1
  have legs : t.legs ≠ [] := List.length_pos_iff.mp (by omega)
  obtain ⟨v, hv, smallest⟩ := speedPercentile_isSmallest legs hp
  rw [count, found] at smallest
  refine ⟨v, hv, smallest, fun percentile => ?_⟩
  have other := percentile.smallest
  rw [length_speeds, count, meant] at other
  have := other.unique distinct smallest
  omega

end Trajectory

end Geotrack
