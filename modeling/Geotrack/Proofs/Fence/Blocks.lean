import Mathlib.Algebra.Ring.Parity
import Geotrack.Proofs.Fence.Index
import Geotrack.Proofs.Geodesy.Along
import Geotrack.Proofs.Plane.Contacts
import Geotrack.Proofs.Track.Order

/-!
# Blocks of crossings

The crossings of an analysis are those of each leg and each fence alone, one block after the other.
A block does not depend on what else is analysed, is empty or odd, and goes along its leg:
`crossings_blocks`.
-/

namespace Geotrack

open Binary64

variable {K : Type} [Scalar K]

namespace Crossing

/-- A crossing without the regions of the ends of its leg. -/
def unplaced (c : Crossing K) : Crossing K := { c with startRegions := [], finishRegions := [] }

end Crossing

namespace Leg

variable (leg : Leg K) (subject : Uuid) (fence : Fence K) (regions others : List (Region K))

/-- The crossings of one fence by one leg. -/
def block : List (Crossing K) := Geotrack.crossings [fence] regions [leg.alone subject]

theorem block_eq (h : leg.start.time ≤ leg.finish.time) :
    leg.block subject fence regions = leg.crossings subject fence (.ofRegions regions) := by
  simp only [block, Geotrack.crossings, List.flatMap_cons, List.flatMap_nil, alone_legs h,
    List.append_nil]
  rfl

/-- Other regions change nothing but where the leg starts and ends. -/
theorem crossings_unplaced :
    (leg.crossings subject fence (.ofRegions regions)).map Crossing.unplaced =
      (leg.crossings subject fence (.ofRegions others)).map Crossing.unplaced := by
  simp [crossings, Crossing.unplaced]

/-- A leg crosses a boundary in no points or in an odd number of them. -/
theorem crossingPoints_odd (boundary : Boundary K) :
    leg.crossingPoints boundary = [] ∨ Odd (leg.crossingPoints boundary).length := by
  simp only [crossingPoints]
  split
  case isTrue => exact .inl rfl
  case isFalse h => exact .inr (Nat.odd_iff.mpr (by omega))

end Leg

/-- Whether the index tells the regions of a point. -/
def Placed (regions : List (Region Float)) (p : Point Float) : Prop :=
  p.IsFinite ∧ (∀ r ∈ regions, r.Sound) ∧ ∀ r ∈ regions, r.Tells p

/-- The crossings of one fence by one leg: none or an odd number of them, at the points where the
leg crosses the boundary, each with what it tells of the subject, the leg, the fence and the
regions, in the order in which the leg comes to them. -/
structure Along (regions : List (Region Float)) (subject : Uuid) (leg : Leg Float)
    (fence : Fence Float) (block : List (Crossing Float)) : Prop where
  odd : block = [] ∨ Odd block.length
  points : block.map (·.fix.point) = leg.crossingPoints fence.boundary
  told : ∀ c ∈ block, c.subject = subject ∧ c.speed = leg.speed ∧ c.heading = leg.heading ∧
    c.fenceId = fence.id ∧ c.fenceName = fence.name ∧ c.level = fence.level
  start : Placed regions leg.start.point → ∀ c ∈ block, ∀ id,
    id ∈ c.startRegions ↔ ∃ r ∈ regions, r.contains leg.start.point = true ∧ r.id = id
  finish : Placed regions leg.finish.point → ∀ c ∈ block, ∀ id,
    id ∈ c.finishRegions ↔ ∃ r ∈ regions, r.contains leg.finish.point = true ∧ r.id = id
  forward : block.Pairwise fun c d => finite c.fraction = true → finite d.fraction = true →
    c.fraction ≤ d.fraction ∧ (0 ≤ leg.elapsed → c.fix.time ≤ d.fix.time)

theorem along_crossings (regions : List (Region Float)) (subject : Uuid) (leg : Leg Float)
    (fence : Fence Float) :
    Along regions subject leg fence (leg.crossings subject fence (.ofRegions regions)) where
  odd := by
    rw [Leg.crossings, List.length_map, List.map_eq_nil_iff]
    exact leg.crossingPoints_odd fence.boundary
  points := by
    rw [Leg.crossings, List.map_map]
    exact List.map_id _
  told c hc := by
    obtain ⟨p, -, rfl⟩ := List.mem_map.mp hc
    exact ⟨rfl, rfl, rfl, rfl, rfl, rfl⟩
  start placed c hc := by
    obtain ⟨p, -, rfl⟩ := List.mem_map.mp hc
    exact fun _ => mem_containing placed.1 placed.2.1 placed.2.2
  finish placed c hc := by
    obtain ⟨p, -, rfl⟩ := List.mem_map.mp hc
    exact fun _ => mem_containing placed.1 placed.2.1 placed.2.2
  forward := by
    refine List.pairwise_map.mpr ((leg.crossingPoints_ordered fence.boundary).imp ?_)
    intro p q hpq hp hq
    have hle := fractionAlong_mono hpq hp hq
    exact ⟨(le_iff hp hq).mpr hle, fun h0 => interpolateTime_mono h0 hp hq hle⟩

/-- The crossings of an analysis are those of every leg and fence alone. They are odd in number or
none, they go along the leg, and regions only tell where the leg starts and ends. -/
theorem crossings_blocks (fences : List (Fence Float)) (regions : List (Region Float))
    (trajectories : List (Trajectory Float)) :
    crossings fences regions trajectories =
      (trajectories.flatMap fun t => t.legs.flatMap fun leg =>
        fences.flatMap fun fence => leg.block t.subject fence regions) ∧
    ∀ t ∈ trajectories, ∀ leg ∈ t.legs, ∀ fence ∈ fences,
      Along regions t.subject leg fence (leg.block t.subject fence regions) ∧
      (leg.start.time.inLeapSecond = false → 0 ≤ leg.elapsed) ∧
      ∀ others : List (Region Float),
        (leg.block t.subject fence others).map Crossing.unplaced =
          (leg.block t.subject fence regions).map Crossing.unplaced := by
  constructor
  · refine List.flatMap_congr fun t _ => List.flatMap_congr fun leg hleg =>
      List.flatMap_congr fun fence _ => ?_
    rw [leg.block_eq t.subject fence regions (Leg.start_le_finish t.ordered leg hleg)]
  · intro t _ leg hleg fence _
    have order := Leg.start_le_finish t.ordered leg hleg
    refine ⟨?_, Instant.since_nonneg order, fun others => ?_⟩
    · rw [leg.block_eq t.subject fence regions order]
      exact along_crossings regions t.subject leg fence
    · rw [leg.block_eq t.subject fence regions order, leg.block_eq t.subject fence others order]
      exact leg.crossings_unplaced t.subject fence others regions

/-- A fence along a parallel in the north. -/
def northFence : Fence Float := ⟨"fence", "Fence", [[⟨-1, 2⟩, ⟨1, 2⟩]], .warning⟩

/-- A leg of an hour from the origin to the north. -/
def northLeg : Leg Float := ⟨⟨⟨0, 0⟩, .epoch⟩, ⟨⟨0, 4⟩, .ofNanos 3600000000000⟩⟩

/-- The last fifth of a leap second, and the second after it. -/
def acrossLeap : Instant × Instant :=
  (⟨86399, 1800000000, by decide⟩, .ofNanos 86400000000000)

/-- The crossing of a fence does not name a region that contains the start of its leg, where the
index misses it; and the time from within a leap second to the next second is negative, so that a
larger fraction of the way is an earlier time. -/
theorem northLeg_misses_region_and_acrossLeap_turns_back :
    ((∀ r ∈ cornerRegions 1e-200, r.contains northLeg.start.point = true) ∧
      (cornerRegions 1e-200).map (·.id) = ["one", "two"] ∧
      (northLeg.block .nil northFence (cornerRegions 1e-200)).map (·.startRegions) = [["two"]]) ∧
    acrossLeap.1 ≤ acrossLeap.2 ∧ acrossLeap.2.since acrossLeap.1 < 0 ∧
      interpolateTime acrossLeap.1 acrossLeap.2 (0.5 : Float) <
        interpolateTime acrossLeap.1 acrossLeap.2 (0.25 : Float) := by
  refine ⟨⟨by decide +kernel, by decide, ?_⟩, by decide +kernel, by decide, by decide +kernel⟩
  rw [northLeg.block_eq .nil northFence _ (by decide +kernel)]
  decide +kernel

end Geotrack
