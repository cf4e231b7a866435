import Geotrack.Proofs.Number.Length
import Geotrack.Proofs.Number.Monotone

/-!
# Shares of a length

The share of a vector that another one covers is the quotient of two sums of products. Where each
coordinate of the one lies between zero and that of the other, the rounded quotient lies between
zero and one or is NaN: `isShare_of_parts`.
-/

namespace Geotrack.Binary64

open Float.Model
open Float.Model.UnpackedFloat (Sign decreaseExponent)

variable {a b c d : Float} {u v : UnpackedFloat} {x y : ℚ}

/-! ### Sums -/

theorem add_rounds (hu : Canonical u) (hv : Canonical v) (fu : u.isFinite = true)
    (fv : v.isFinite = true) :
    RoundsTo (unpackedValue u + unpackedValue v) (UnpackedFloat.add .binary64 u v) := by
  match u, v with
  | .zero s, .zero s' =>
    rw [show unpackedValue (.zero s) + unpackedValue (.zero s') = 0 from add_zero 0,
      UnpackedFloat.add]
    split <;> exact ⟨rfl, trivial, .self onGrid_zero⟩
  | .zero s, .finite s' m' e' hm' =>
    rw [show unpackedValue (.zero s) = 0 from rfl, zero_add]
    exact hv.rounds rfl
  | .finite s m e hm, .zero s' =>
    rw [show unpackedValue (.zero s') = 0 from rfl, add_zero]
    exact hu.rounds rfl
  | .finite s m e hm, .finite s' m' e' hm' =>
    have := normalize_rounds (s.apply (decreaseExponent m e (min e e')).1 +
      s'.apply (decreaseExponent m' e' (min e e')).1) (min e e') .positive
    rwa [Int.cast_add, add_mul, apply_decreaseExponent s m (min_le_left e e'),
      apply_decreaseExponent s' m' (min_le_right e e')] at this

theorem add_rounded (ha : finite a = true) (hb : finite b = true) :
    Rounded (value a + value b) (a + b) :=
  (add_rounds (canonical_unpack a) (canonical_unpack b) (finite_iff.mp ha)
    (finite_iff.mp hb)).rounded

theorem add_canonical (hu : Canonical u) (hv : Canonical v) :
    Canonical (UnpackedFloat.add .binary64 u v) := by
  cases hfu : u.isFinite <;> cases hfv : v.isFinite
  case true.true => exact (add_rounds hu hv hfu hfv).canonical
  all_goals
    cases u <;> cases v <;> simp only [UnpackedFloat.add] <;> first | trivial | split <;> trivial

/-! ### Finite results -/

theorem finite_ofModel (hu : Canonical u) (h : finite (.ofModel (.pack u)) = true) :
    u.isFinite = true := by
  rw [finite_iff, unpack_ofModel_pack hu] at h
  cases u <;> simp_all [overflow, UnpackedFloat.isFinite]

theorem finite_of_add (h : finite (a + b) = true) : finite a = true ∧ finite b = true := by
  have hadd := finite_ofModel (add_canonical (canonical_unpack a) (canonical_unpack b)) h
  rw [finite_iff, finite_iff]
  generalize a.toModel.unpack = u at *
  generalize b.toModel.unpack = v at *
  cases u <;> cases v <;> simp only [UnpackedFloat.add] at hadd <;>
    first | exact ⟨rfl, rfl⟩ | cases hadd | split at hadd <;> cases hadd

theorem finite_of_mul_self (h : finite (a * a) = true) : finite a = true := by
  have hmul := finite_ofModel (mul_canonical (canonical_unpack a) (canonical_unpack a)) h
  rw [finite_iff]
  generalize a.toModel.unpack = u at *
  cases u <;> simp_all [UnpackedFloat.mul, UnpackedFloat.isFinite]

/-! ### Parts of numbers -/

/-- Whether a number lies between zero and another one. -/
def PartOf (x y : ℚ) : Prop := 0 ≤ x ∧ x ≤ y ∨ y ≤ x ∧ x ≤ 0

theorem PartOf.of_nonneg (h : PartOf x y) (hy : 0 ≤ y) : 0 ≤ x ∧ x ≤ y := by
  rcases h with h | ⟨h, h0⟩
  · exact h
  · exact ⟨hy.trans h, h0.trans hy⟩

theorem PartOf.abs_le (h : PartOf x y) : |x| ≤ |y| := by
  rcases h with ⟨h0, h⟩ | ⟨h, h0⟩
  · rwa [abs_of_nonneg h0, abs_of_nonneg (h0.trans h)]
  · rw [abs_of_nonpos h0, abs_of_nonpos (h.trans h0)]
    exact neg_le_neg h

theorem Nearest.partOf {x' y' : ℚ} (hx : Nearest x x') (hy : Nearest y y') (h : PartOf x y)
    (hne : x ≠ y) : PartOf x' y' := by
  rcases h with ⟨h0, h⟩ | ⟨h, h0⟩
  · exact .inl ⟨hx.nonneg h0, hx.mono hy (h.lt_of_ne hne)⟩
  · exact .inr ⟨hy.mono hx (h.lt_of_ne hne.symm), hx.nonpos h0⟩

namespace Rounded

variable {f g : Float}

/-- A number of the grid that is not too large is not changed by rounding. -/
theorem exact (h : Rounded x f) (hx : OnGrid x) (hle : |x| ≤ |value c|) :
    finite f = true ∧ value f = x :=
  have hf := h.finite_of_abs_le hle
  ⟨hf, (h.nearest hf).eq_of_onGrid hx⟩

/-- The rounded form of a part of a number is a part of its rounded form, if the rounded forms of
equal numbers are equal. -/
theorem partOf (hf : Rounded x f) (hg : Rounded y g) (finite_g : finite g = true)
    (h : PartOf x y) (same : x = y → finite f = true ∧ value f = value g)
    : finite f = true ∧ PartOf (value f) (value g) := by
  by_cases hxy : x = y
  · obtain ⟨finite_f, heq⟩ := same hxy
    refine ⟨finite_f, ?_⟩
    rw [heq]
    exact (le_total 0 (value g)).imp (⟨·, le_rfl⟩) (⟨le_rfl, ·⟩)
  · have near := hg.nearest finite_g
    have finite_f : finite f = true := by
      obtain ⟨u, hu, hfu⟩ := hf
      have part := hu.nearest.partOf near h hxy
      rw [finite_iff, hfu]
      exact isFinite_overflow hu (part.abs_le.trans_lt (abs_value_lt g))
    exact ⟨finite_f, (hf.nearest finite_f).partOf near h hxy⟩

end Rounded

/-- Two floats of equal values are the same, or zero. -/
theorem same_or_zero (h : value a = value b) :
    a.toModel.unpack = b.toModel.unpack ∨ value a = 0 ∧ value b = 0 := by
  by_cases h0 : value a = 0
  · exact .inr ⟨h0, h ▸ h0⟩
  · exact .inl (unpack_eq_of_value_eq h h0)

section Parts

variable (ha : finite a = true) (hb : finite b = true)
include ha hb

theorem sub_partOf (hc : finite c = true) (h : finite (b - c) = true)
    (part : PartOf (value a - value c) (value b - value c)) :
    finite (a - c) = true ∧ PartOf (value (a - c)) (value (b - c)) := by
  have left := sub_rounded ha hc
  have right := sub_rounded hb hc
  refine left.partOf right h part fun heq => ?_
  rcases same_or_zero (sub_left_inj.mp heq) with same | ⟨ha0, hb0⟩
  · have : a - c = b - c := congrArg (fun u => Float.ofModel (Float.Model.pack
      (UnpackedFloat.sub .binary64 u c.toModel.unpack))) same
    rw [this]
    exact ⟨h, rfl⟩
  · rw [ha0, zero_sub] at left
    rw [hb0, zero_sub] at right
    have hle : |-value c| ≤ |value c| := (abs_neg _).le
    obtain ⟨finite_left, value_left⟩ := left.exact (onGrid_value c).neg hle
    exact ⟨finite_left, value_left.trans (right.exact (onGrid_value c).neg hle).2.symm⟩

/-- The product of a number and a part of it is a part of its square. -/
theorem mul_partOf (h : finite (b * b) = true) (part : PartOf (value a) (value b)) :
    finite (a * b) = true ∧ 0 ≤ value (a * b) ∧ value (a * b) ≤ value (b * b) := by
  have left := mul_rounded ha hb
  have right := mul_rounded hb hb
  have within : PartOf (value a * value b) (value b * value b) := by
    rcases part with ⟨h0, hle⟩ | ⟨hle, h0⟩
    · exact .inl ⟨mul_nonneg h0 (h0.trans hle), mul_le_mul_of_nonneg_right hle (h0.trans hle)⟩
    · exact .inl ⟨mul_nonneg_of_nonpos_of_nonpos h0 (hle.trans h0),
        mul_le_mul_of_nonpos_right hle (hle.trans h0)⟩
  have square := (right.nearest h).nonneg (mul_self_nonneg _)
  refine (left.partOf right h within fun heq => ?_).imp_right (·.of_nonneg square)
  by_cases hb0 : value b = 0
  · rw [hb0, mul_zero] at left right
    have hle : |(0 : ℚ)| ≤ |value b| := by simp
    obtain ⟨finite_left, value_left⟩ := left.exact onGrid_zero hle
    exact ⟨finite_left, value_left.trans (right.exact onGrid_zero hle).2.symm⟩
  · have : a * b = b * b := congrArg (fun u => Float.ofModel (Float.Model.pack
      (UnpackedFloat.mul .binary64 u b.toModel.unpack)))
      (unpack_eq_of_value_eq (mul_right_cancel₀ hb0 heq) (mul_right_cancel₀ hb0 heq ▸ hb0))
    rw [this]
    exact ⟨h, rfl⟩

theorem add_of_zero (h0 : value a = 0) : finite (a + b) = true ∧ value (a + b) = value b := by
  have := add_rounded ha hb
  rw [h0, zero_add] at this
  exact this.exact (onGrid_value b) le_rfl

theorem add_of_zero' (h0 : value b = 0) : finite (a + b) = true ∧ value (a + b) = value a := by
  have := add_rounded ha hb
  rw [h0, add_zero] at this
  exact this.exact (onGrid_value a) le_rfl

end Parts

/-- The sum of parts is a part of the sum, where none is negative. -/
theorem add_partOf {a' b' : Float} (ha : finite a = true) (ha' : finite a' = true)
    (hb : finite b = true) (hb' : finite b' = true) (h : finite (a' + b') = true)
    (hpos : 0 ≤ value a) (hpos' : 0 ≤ value b) (hle : value a ≤ value a')
    (hle' : value b ≤ value b') :
    finite (a + b) = true ∧ 0 ≤ value (a + b) ∧ value (a + b) ≤ value (a' + b') := by
  have right := add_rounded ha' hb'
  have whole := (right.nearest h).nonneg (add_nonneg (hpos.trans hle) (hpos'.trans hle'))
  refine ((add_rounded ha hb).partOf right h
    (.inl ⟨add_nonneg hpos hpos', add_le_add hle hle'⟩) fun heq => ?_).imp_right (·.of_nonneg whole)
  have heqa : value a = value a' := by linarith
  have heqb : value b = value b' := by linarith
  rcases same_or_zero heqa with samea | ⟨ha0, ha0'⟩
  · rcases same_or_zero heqb with sameb | ⟨hb0, hb0'⟩
    · have : a + b = a' + b' := by
        change Float.ofModel (Float.Model.pack
          (UnpackedFloat.add .binary64 a.toModel.unpack b.toModel.unpack)) = _
        rw [samea, sameb]
        rfl
      rw [this]
      exact ⟨h, rfl⟩
    · obtain ⟨finite_left, value_left⟩ := add_of_zero' ha hb hb0
      exact ⟨finite_left, value_left.trans (heqa.trans (add_of_zero' ha' hb' hb0').2.symm)⟩
  · obtain ⟨finite_left, value_left⟩ := add_of_zero ha hb ha0
    exact ⟨finite_left, value_left.trans (heqb.trans (add_of_zero ha' hb' ha0').2.symm)⟩

/-! ### Shares -/

/-- Whether a float is a number from zero to one, or NaN. -/
def IsShare (t : Float) : Prop :=
  t.toModel.unpack = .notANumber ∨ finite t = true ∧ 0 ≤ value t ∧ value t ≤ 1

theorem IsShare.not_lt {t : Float} (h : IsShare t) :
    Scalar.lt t Scalar.zero = false ∧ Scalar.lt Scalar.one t = false := by
  rcases h with hnan | ⟨hfinite, h0, h1⟩
  · have not_lt (x : Float) : ¬ t < x ∧ ¬ x < t := by
      rw [lt_iff_compare, lt_iff_compare, hnan]
      cases x.toModel.unpack <;> simp [UnpackedFloat.compare]
    exact ⟨decide_eq_false (not_lt _).1, decide_eq_false (not_lt _).2⟩
  · rw [scalar_lt_eq hfinite finite_scalar_zero, scalar_lt_eq finite_scalar_one hfinite,
      value_scalar_zero, value_scalar_one]
    exact ⟨decide_eq_false h0.not_gt, decide_eq_false h1.not_gt⟩

theorem isShare_ofModel (h : u = .notANumber ∨ ∃ s, u = .zero s) :
    IsShare (.ofModel (.pack u)) := by
  have canonical : Canonical u := by
    rcases h with rfl | ⟨s, rfl⟩ <;> trivial
  have unpacked := unpack_ofModel_pack canonical
  rcases h with rfl | ⟨s, rfl⟩
  · exact .inl unpacked
  · refine .inr ⟨?_, ?_⟩
    · rw [finite_iff, unpacked]
      rfl
    · rw [value, unpacked]
      exact ⟨le_rfl, zero_le_one⟩

/-- The quotient by a number that is not finite is zero or NaN. -/
theorem isShare_div_of_not_finite (hb : finite b = false) : IsShare (a / b) := by
  have hb : b.toModel.unpack.isFinite = false := by
    rw [← Bool.not_eq_true, finite_iff] at hb
    exact Bool.not_eq_true _ |>.mp hb
  refine isShare_ofModel ?_
  generalize a.toModel.unpack = u
  generalize b.toModel.unpack = v at hb
  cases u <;> cases v <;> simp_all [UnpackedFloat.div, UnpackedFloat.isFinite]

theorem unpack_of_value_zero (ha : finite a = true) (h0 : value a = 0) :
    ∃ s, a.toModel.unpack = .zero s := by
  rw [finite_iff] at ha
  rw [value] at h0
  cases hu : a.toModel.unpack with
  | zero s => exact ⟨s, rfl⟩
  | finite s m e hm =>
    rw [hu, unpackedValue] at h0
    have := magnitude_pos hm e
    cases s <;> simp only [signFactor] at h0 <;> linarith
  | _ => rw [hu] at ha; cases ha

/-- The quotient of a part by the whole is a share. -/
theorem isShare_div (ha : finite a = true) (hb : finite b = true) (h0 : 0 ≤ value a)
    (hle : value a ≤ value b) : IsShare (a / b) := by
  rcases (h0.trans hle).eq_or_lt with hb0 | hpos
  · obtain ⟨s, hs⟩ := unpack_of_value_zero ha (le_antisymm (hb0 ▸ hle) h0)
    obtain ⟨t, ht⟩ := unpack_of_value_zero hb hb0.symm
    refine isShare_ofModel (.inl ?_)
    rw [hs, ht]
    rfl
  · right
    have rounded := div_rounded ha hb hpos.ne'
    have hle1 : |value a / value b| ≤ |value (Scalar.one : Float)| := by
      rw [value_scalar_one, abs_of_nonneg (div_nonneg h0 hpos.le), abs_one]
      exact div_le_one_of_le₀ hle hpos.le
    have hfinite := rounded.finite_of_abs_le hle1
    have near := rounded.nearest hfinite
    refine ⟨hfinite, near.nonneg (div_nonneg h0 hpos.le), ?_⟩
    exact near.le_of_le (value_scalar_one ▸ onGrid_value _) (div_le_one_of_le₀ hle hpos.le)

/-- Where `p` lies between `s` and `f`, and `p'` between `s'` and `f'`, the share of the way from
`(s, s')` to `(f, f')` that a perpendicular from `(p, p')` cuts off is a share. -/
theorem isShare_of_parts {s p f s' p' f' : Float} (hs : finite s = true) (hp : finite p = true)
    (hf : finite f = true) (hs' : finite s' = true) (hp' : finite p' = true)
    (hf' : finite f' = true) (part : PartOf (value p - value s) (value f - value s))
    (part' : PartOf (value p' - value s') (value f' - value s')) :
    IsShare (((p - s) * (f - s) + (p' - s') * (f' - s')) /
      ((f - s) * (f - s) + (f' - s') * (f' - s'))) := by
  cases h : finite ((f - s) * (f - s) + (f' - s') * (f' - s')) with
  | false => exact isShare_div_of_not_finite h
  | true =>
    obtain ⟨square, square'⟩ := finite_of_add h
    have length := finite_of_mul_self square
    have length' := finite_of_mul_self square'
    obtain ⟨hps, part⟩ := sub_partOf hp hf hs length part
    obtain ⟨hps', part'⟩ := sub_partOf hp' hf' hs' length' part'
    obtain ⟨product, lower, upper⟩ := mul_partOf hps length square part
    obtain ⟨product', lower', upper'⟩ := mul_partOf hps' length' square' part'
    obtain ⟨sum, lower, upper⟩ :=
      add_partOf product square product' square' h lower lower' upper upper'
    exact isShare_div sum h lower upper

end Geotrack.Binary64
