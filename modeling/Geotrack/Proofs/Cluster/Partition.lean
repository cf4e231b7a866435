import Geotrack.Proofs.Cluster.Growth
import Mathlib.Data.Set.Card

/-!
# Clusters are the linked parts of the core points

`IsPartition` says what labels have to be, without a word on how they are found: noise is what is
neither a core point nor near one, and two core points share a label when a chain of core points
joins them. `numbers_isPartition` says that the numbers of a census are so, whatever is near what as
long as it is mutual.
-/

namespace Geotrack.Density

section Spec

variable {α : Type} (near : α → α → Bool) (minSize : Nat) (points : List (Option α))

/-- Whether the point at `q` lies in the neighbourhood of the one at `p`. -/
def InReach (p q : Nat) : Prop :=
  ∃ a b, points[p]? = some (some a) ∧ points[q]? = some (some b) ∧ near a b = true

/-- A core point has at least `minSize` points in its neighbourhood. -/
def Core (p : Nat) : Prop :=
  p < points.length ∧ minSize ≤ {q | InReach near points p q}.ncard

/-- One link of a chain of core points. -/
def CoreLink (p q : Nat) : Prop :=
  Core near minSize points p ∧ Core near minSize points q ∧ InReach near points p q

/-- Labels that tell the clusters of some points apart. -/
structure IsPartition (labels : List Int) : Prop where
  length_eq : labels.length = points.length
  zero_notMem : 0 ∉ labels
  noise_iff : ∀ p < points.length, labels[p]? = some (-1) ↔
    ¬ Core near minSize points p ∧ ∀ q, Core near minSize points q → ¬ InReach near points q p
  core_iff : ∀ p q, Core near minSize points p → Core near minSize points q →
    (labels[p]? = labels[q]? ↔ Relation.ReflTransGen (CoreLink near minSize points) p q)

end Spec

variable {α : Type} {near : α → α → Bool} {minSize : Nat} {points : List (Option α)}

theorem mem_reach {p q : Fin points.toArray.size} :
    q ∈ reach near points p ↔ InReach near points p q := by
  have hp : p.val < points.length := by simpa using p.isLt
  have hq : q.val < points.length := by simpa using q.isLt
  have ep : points.toArray.toVector[p] = points[p.val] := by simp
  have eq : points.toArray.toVector[q] = points[q.val] := by simp
  simp only [reach, neighboursBy, InReach, ep, List.getElem?_eq_getElem hp,
    List.getElem?_eq_getElem hq, Option.some.injEq]
  cases hpp : points[p.val] with
  | none => simp
  | some a =>
    cases hqq : points[q.val] with
    | none => simp [List.mem_filter, hqq]
    | some b => simp [List.mem_filter, hqq]

theorem reach_symm (symm : ∀ a b, near a b = near b a) (p q : Fin points.toArray.size)
    (h : q ∈ reach near points p) : p ∈ reach near points q := by
  obtain ⟨a, b, ha, hb, hab⟩ := mem_reach.mp h
  exact mem_reach.mpr ⟨b, a, hb, ha, symm a b ▸ hab⟩

theorem InReach.lt {p q : Nat} (h : InReach near points p q) : q < points.length := by
  obtain ⟨a, b, _, hb, _⟩ := h
  exact (List.getElem?_eq_some_iff.mp hb).1

theorem ncard_inReach (p : Fin points.toArray.size) :
    {q | InReach near points p q}.ncard = (reach near points p).length := by
  have nodup : (reach near points p).Nodup := by
    unfold reach neighboursBy
    cases points.toArray.toVector[p] with
    | none => exact List.nodup_nil
    | some a => exact (List.nodup_finRange _).filter _
  have image : {q | InReach near points p q} = Fin.val '' {q | q ∈ reach near points p} := by
    ext q
    constructor
    · intro h
      have hq : q < points.toArray.size := by simpa using h.lt
      exact ⟨⟨q, hq⟩, mem_reach.mpr h, rfl⟩
    · rintro ⟨r, hr, rfl⟩
      exact mem_reach.mp hr
  rw [image, Set.ncard_image_of_injective _ Fin.val_injective, ← List.toFinset_card_of_nodup nodup,
    ← Set.ncard_coe_finset, List.coe_toFinset]

theorem core_iff_isCore {p : Fin points.toArray.size} :
    Core near minSize points p ↔ (reach near points).IsCore minSize p := by
  rw [Core, ncard_inReach]
  exact and_iff_right (by simpa using p.isLt)

/-- A core point is one of the points that `labels` looks at. -/
theorem Core.exists_fin {p : Nat} (h : Core near minSize points p) :
    ∃ i : Fin points.toArray.size, i.val = p ∧ (reach near points).IsCore minSize i := by
  have hp : p < points.toArray.size := by simpa using h.1
  exact ⟨⟨p, hp⟩, rfl, core_iff_isCore.mp h⟩

theorem linked_iff_chain {i j : Fin points.toArray.size} :
    (reach near points).Linked minSize i j ↔
      Relation.ReflTransGen (CoreLink near minSize points) i j := by
  constructor
  · intro h
    refine h.lift Fin.val fun a b => ?_
    rintro ⟨ha, hb, hab⟩
    exact ⟨core_iff_isCore.mpr ha, core_iff_isCore.mpr hb, mem_reach.mp hab⟩
  · intro h
    generalize hj : j.val = k at h
    induction h generalizing j with
    | refl => rw [Fin.ext hj]; exact .refl
    | tail _ step ih =>
      obtain ⟨b, rfl, hb⟩ := step.1.exists_fin
      subst hj
      exact (ih rfl).tail ⟨hb, core_iff_isCore.mp step.2.1, mem_reach.mpr step.2.2⟩

/-! ### The numbers of a finished census -/

/-- The census of some points. -/
abbrev finished (near : α → α → Bool) (minSize : Nat) (points : List (Option α)) :
    Census points.toArray.size :=
  (Census.run (reach near points) minSize).1

/-- The labels of some points where there is no largest label. -/
def numbers (near : α → α → Bool) (minSize : Nat) (points : List (Option α)) : List Int :=
  (finished near minSize points).marks.toList.map Mark.label

theorem numbers_getElem? (i : Fin points.toArray.size) :
    (numbers near minSize points)[i.val]? =
      some ((finished near minSize points).markOf i).label := by
  simp only [numbers, List.getElem?_map, Vector.getElem?_toList]
  rw [Vector.getElem?_eq_getElem i.isLt]
  rfl

@[simp] theorem length_numbers : (numbers near minSize points).length = points.length := by
  simp [numbers]

theorem mem_numbers {l : Int} (h : l ∈ numbers near minSize points) :
    ∃ i : Fin points.toArray.size, l = ((finished near minSize points).markOf i).label := by
  simp only [numbers, List.mem_map, Vector.mem_toList_iff] at h
  obtain ⟨m, hm, rfl⟩ := h
  obtain ⟨i, hi, rfl⟩ := Vector.getElem_of_mem hm
  exact ⟨⟨i, hi⟩, rfl⟩

theorem Mark.label_eq_neg_one {m : Mark} : m.label = -1 ↔ m = .noise := by
  cases m with
  | unvisited => simp [Mark.label]
  | noise => simp [Mark.label]
  | cluster c => simp only [Mark.label, reduceCtorEq]

theorem numbers_isPartition (symm : ∀ a b, near a b = near b a) :
    IsPartition near minSize points (numbers near minSize points) := by
  obtain ⟨settled, visited⟩ := @Census.settled_run _ (reach near points) minSize (reach_symm symm)
  refine ⟨length_numbers, ?_, ?_, ?_⟩
  · intro h
    obtain ⟨i, hi⟩ := mem_numbers h
    cases hm : (finished near minSize points).markOf i with
    | unvisited => exact visited i hm
    | noise => rw [hm] at hi; cases hi
    | cluster c =>
      have := settled.bounds i c hm
      rw [hm, Mark.label] at hi
      omega
  · intro p hp
    obtain ⟨i, rfl⟩ : ∃ i : Fin points.toArray.size, i.val = p := ⟨⟨p, by simpa using hp⟩, rfl⟩
    rw [numbers_getElem?, Option.some.injEq, Mark.label_eq_neg_one, settled.noise_iff visited,
      core_iff_isCore]
    refine and_congr_right fun _ => ⟨fun h q core near => ?_, fun h q core near => ?_⟩
    · obtain ⟨j, rfl, corej⟩ := core.exists_fin
      exact h j corej (mem_reach.mpr near)
    · exact h q (core_iff_isCore.mpr core) (mem_reach.mp near)
  · intro p q corep coreq
    obtain ⟨i, rfl, corei⟩ := corep.exists_fin
    obtain ⟨j, rfl, corej⟩ := coreq.exists_fin
    obtain ⟨c, hc⟩ := settled.exists_cluster (visited i) corei
    obtain ⟨d, hd⟩ := settled.exists_cluster (visited j) corej
    rw [numbers_getElem?, numbers_getElem?, ← linked_iff_chain,
      ← settled.marks_eq_iff visited corei corej, hc, hd]
    simp [Mark.label]

end Geotrack.Density
