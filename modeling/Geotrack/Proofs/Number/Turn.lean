import Geotrack.Proofs.Number.Binary64

/-!
# Turns of three points

The turn of three points is the sign of a difference of two products. Where the products have
opposite signs the rounded difference never has the wrong sign, and it has the right one unless both
products are rounded to zero: `turn_ne_toward` and `turn_eq_toward`.
-/

namespace Geotrack.Binary64

open Float.Model
open Float.Model.UnpackedFloat (Sign)

/-- The turn for a determinant on a side of zero. -/
def toward : Sign → Turn
  | .negative => .right
  | .positive => .left

variable {a b px py qx qy rx ry : Float} {s t : Sign}

/-! ### Products of differences -/

/-- The rounded product of two differences lies on the side of the exact one. -/
theorem product_pos_of_side (hpx : finite px = true) (hrx : finite rx = true)
    (hqy : finite qy = true) (hry : finite ry = true)
    (h : side ((px - rx) * (qy - ry)) = some s) :
    0 < signFactor s * ((value px - value rx) * (value qy - value ry)) := by
  obtain ⟨t, t', ht, ht', rfl⟩ := side_mul h
  have left := (sub_rounded hpx hrx).pos_of_side ht
  have right := (sub_rounded hqy hry).pos_of_side ht'
  rw [signFactor_mul, mul_mul_mul_comm]
  exact mul_pos left right

/-- The side of a number tells on which side it is not. -/
theorem eq_of_signFactor {x : ℚ} (ht : 0 < signFactor t * x) (hs : 0 ≤ signFactor s * x) :
    t = s := by
  cases s <;> cases t <;> simp only [signFactor] at ht hs <;> first | rfl | linarith

theorem exists_side (h0 : value a ≠ 0) : ∃ s, side a = some s := by
  rw [side, value] at *
  cases hu : a.toModel.unpack with
  | finite s m e hm => exact ⟨s, rfl⟩
  | infinity s => exact ⟨s, rfl⟩
  | _ => rw [hu] at h0; exact absurd rfl h0

/-- A finite product is rounded to zero, or lies on the side of the exact one. -/
theorem product_cases (hpx : finite px = true) (hrx : finite rx = true) (hqy : finite qy = true)
    (hry : finite ry = true) (h : finite ((px - rx) * (qy - ry)) = true)
    (hs : 0 ≤ signFactor s * ((value px - value rx) * (value qy - value ry))) :
    value ((px - rx) * (qy - ry)) = 0 ∨ 0 < signFactor s * value ((px - rx) * (qy - ry)) ∧
      0 < signFactor s * ((value px - value rx) * (value qy - value ry)) := by
  refine or_iff_not_imp_left.mpr fun h0 => ?_
  obtain ⟨t, ht⟩ := exists_side h0
  have exact := product_pos_of_side hpx hrx hqy hry ht
  obtain rfl := eq_of_signFactor exact hs
  exact ⟨pos_of_unpackedSide (finite_iff.mp h) ht, exact⟩

/-! ### Turns -/

theorem signTurn_eq_toward_iff : signTurn a = toward s ↔ side a = some s := by
  rw [signTurn]
  by_cases hneg : a < 0
  · rw [if_pos hneg, lt_zero_iff.mp hneg]
    cases s <;> simp [toward]
  · rw [if_neg hneg]
    rw [lt_zero_iff] at hneg
    by_cases hpos : 0 < a
    · rw [if_pos hpos, zero_lt_iff.mp hpos]
      cases s <;> simp [toward]
    · rw [if_neg hpos]
      rw [zero_lt_iff] at hpos
      cases s <;> simp_all [toward]

theorem ofSign_compare_eq_toward_iff {x : ℚ} :
    Turn.ofSign (compare x 0) = toward s ↔ 0 < signFactor s * x := by
  rcases lt_trichotomy x 0 with h | rfl | h
  · rw [compare_lt_iff_lt.mpr h]
    cases s <;> simp [Turn.ofSign, toward, signFactor, h, h.le]
  · cases s <;> simp [Turn.ofSign, toward]
  · rw [compare_gt_iff_gt.mpr h]
    cases s <;> simp [Turn.ofSign, toward, signFactor, h, h.le]

/-- The difference of products that the turn is the sign of. -/
def determinant (px py qx qy rx ry : Float) : ℚ :=
  (value px - value rx) * (value qy - value ry) - (value py - value ry) * (value qx - value rx)

theorem exactTurn_eq {a b c d e f : Scaled} (ha : Scaled.ofFloat? px = some a)
    (hb : Scaled.ofFloat? py = some b) (hc : Scaled.ofFloat? qx = some c)
    (hd : Scaled.ofFloat? qy = some d) (he : Scaled.ofFloat? rx = some e)
    (hf : Scaled.ofFloat? ry = some f) :
    exactTurn a b c d e f = .ofSign (compare (determinant px py qx qy rx ry) 0) := by
  simp only [exactTurn, Scaled.sign_eq, Scaled.value_sub, Scaled.value_mul, determinant,
    ofFloat?_value ha, ofFloat?_value hb, ofFloat?_value hc, ofFloat?_value hd, ofFloat?_value he,
    ofFloat?_value hf]

/-- The turn is that of the rounded determinant or that of the exact one, and there is none where a
product is not finite. -/
theorem turn_cases (hpx : finite px = true) (hpy : finite py = true) (hqx : finite qx = true)
    (hqy : finite qy = true) (hrx : finite rx = true) (hry : finite ry = true) :
    turn px py qx qy rx ry = signTurn ((px - rx) * (qy - ry) - (py - ry) * (qx - rx)) ∨
    (finite ((px - rx) * (qy - ry)) && finite ((py - ry) * (qx - rx))) = false ∧
      turn px py qx qy rx ry = .straight ∨
    turn px py qx qy rx ry = .ofSign (compare (determinant px py qx qy rx ry) 0) := by
  obtain ⟨a, ha⟩ := Option.isSome_iff_exists.mp hpx
  obtain ⟨b, hb⟩ := Option.isSome_iff_exists.mp hpy
  obtain ⟨c, hc⟩ := Option.isSome_iff_exists.mp hqx
  obtain ⟨d, hd⟩ := Option.isSome_iff_exists.mp hqy
  obtain ⟨e, he⟩ := Option.isSome_iff_exists.mp hrx
  obtain ⟨f, hf⟩ := Option.isSome_iff_exists.mp hry
  simp only [turn]
  split
  case isTrue => exact .inl rfl
  case isFalse =>
    split
    case isTrue h => exact .inr (.inl ⟨by simpa only [Bool.not_eq_true'] using h, rfl⟩)
    case isFalse =>
      refine .inr (.inr ?_)
      simp only [ha, hb, hc, hd, he, hf, exactTurn_eq ha hb hc hd he hf]

/-- Whether the two products of a turn are finite and not both rounded to zero. -/
def Resolved (px py qx qy rx ry : Float) : Prop :=
  finite ((px - rx) * (qy - ry)) = true ∧ finite ((py - ry) * (qx - rx)) = true ∧
    (value ((px - rx) * (qy - ry)) ≠ 0 ∨ value ((py - ry) * (qx - rx)) ≠ 0)

instance : Decidable (Resolved px py qx qy rx ry) := inferInstanceAs (Decidable (_ ∧ _ ∧ _))

section Opposite

variable (hpx : finite px = true) (hpy : finite py = true) (hqx : finite qx = true)
  (hqy : finite qy = true) (hrx : finite rx = true) (hry : finite ry = true)
include hpx hpy hqx hqy hrx hry

/-- A turn is not to a side that both products speak against. -/
theorem turn_ne_toward
    (hleft : signFactor s * ((value px - value rx) * (value qy - value ry)) ≤ 0)
    (hright : 0 ≤ signFactor s * ((value py - value ry) * (value qx - value rx))) :
    turn px py qx qy rx ry ≠ toward s := by
  rcases turn_cases hpx hpy hqx hqy hrx hry with h | ⟨-, h⟩ | h <;> rw [h]
  · rw [ne_eq, signTurn_eq_toward_iff]
    intro hside
    rcases side_sub hside with h | h
    · exact hleft.not_gt (product_pos_of_side hpx hrx hqy hry h)
    · have := product_pos_of_side hpy hry hqx hrx h
      rw [signFactor_neg] at this
      linarith
  · cases s <;> decide
  · rw [ne_eq, ofSign_compare_eq_toward_iff, determinant, mul_sub]
    linarith

/-- A turn is to the side that both products speak for, if they are large enough to tell. -/
theorem turn_eq_toward (resolved : Resolved px py qx qy rx ry)
    (hleft : 0 ≤ signFactor s * ((value px - value rx) * (value qy - value ry)))
    (hright : signFactor s * ((value py - value ry) * (value qx - value rx)) ≤ 0) :
    turn px py qx qy rx ry = toward s := by
  obtain ⟨fl, fr, hne⟩ := resolved
  have left := product_cases hpx hrx hqy hry fl hleft
  have right := product_cases hpy hry hqx hrx fr
    (show 0 ≤ signFactor (-s) * _ by rw [signFactor_neg]; linarith)
  rw [signFactor_neg] at right
  rcases turn_cases hpx hpy hqx hqy hrx hry with h | ⟨hfalse, -⟩ | h
  · have rounded := sub_rounded fl fr
    rw [h, signTurn_eq_toward_iff]
    rcases left with l0 | ⟨lpos, -⟩
    · rcases right with r0 | ⟨rneg, -⟩
      · exact absurd hne (by simp [l0, r0])
      · exact rounded.side_eq (onGrid_value _).neg (by linarith) (by rw [l0, zero_sub])
    · refine rounded.side_eq (onGrid_value _) lpos ?_
      rcases right with r0 | ⟨rneg, -⟩
      · rw [r0, sub_zero]
      · linarith
  · rw [fl, fr] at hfalse
    cases hfalse
  · rw [h, ofSign_compare_eq_toward_iff, determinant, mul_sub]
    rcases left with l0 | ⟨-, lpos⟩
    · rcases right with r0 | ⟨-, rneg⟩
      · exact absurd hne (by simp [l0, r0])
      · linarith
    · linarith

end Opposite

end Geotrack.Binary64
