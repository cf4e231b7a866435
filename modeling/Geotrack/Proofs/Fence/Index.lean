import Geotrack.Fence.Region
import Geotrack.Proofs.Plane.Outside

/-!
# The index of regions

The index looks into a region only where the box around its outer rings holds the point. A point
outside the box lies beside all the rings, so that no region is lost: `containing_eq`.
-/

namespace Geotrack

open Binary64

variable {p q : Point Float} {b : Box Float} {points : List (Point Float)}

/-! ### Boxes -/

namespace Box

/-- Whether a box has finite bounds that a point is within. -/
structure Bounds (b : Box Float) (p : Point Float) : Prop where
  west : value b.west ≤ value p.longitude
  south : value b.south ≤ value p.latitude
  east : value p.longitude ≤ value b.east
  north : value p.latitude ≤ value b.north

/-- Whether all bounds of a box are finite. -/
structure IsFinite (b : Box Float) : Prop where
  west : finite b.west = true
  south : finite b.south = true
  east : finite b.east = true
  north : finite b.north = true

theorem holds_iff (hb : b.IsFinite) (hp : p.IsFinite) : b.holds p = true ↔ b.Bounds p := by
  simp only [holds, scalar_le_eq hb.west hp.1, scalar_le_eq hb.south hp.2,
    scalar_le_eq hp.1 hb.east,
    scalar_le_eq hp.2 hb.north, Bool.and_eq_true, decide_eq_true_eq]
  exact ⟨fun ⟨⟨⟨hw, hs⟩, he⟩, hn⟩ => ⟨hw, hs, he, hn⟩, fun ⟨hw, hs, he, hn⟩ => ⟨⟨⟨hw, hs⟩, he⟩, hn⟩⟩

theorem include_finite (hb : b.IsFinite) (hp : p.IsFinite) : (b.include p).IsFinite := by
  obtain ⟨hw, hs, he, hn⟩ := hb
  obtain ⟨hx, hy⟩ := hp
  unfold Box.include
  constructor <;> dsimp only <;> split <;> first | assumption | split <;> assumption

/-- Two bounds with one more number between them. -/
theorem stretch {west east x : Float} (hw : finite west = true) (he : finite east = true)
    (hx : finite x = true) (hle : value west ≤ value east) {bounds : Float × Float}
    (hbounds : bounds = if Scalar.lt east x then (west, x)
      else if Scalar.lt x west then (x, east) else (west, east)) :
    (value bounds.1 ≤ value x ∧ value x ≤ value bounds.2) ∧
      value bounds.1 ≤ value west ∧ value east ≤ value bounds.2 := by
  simp only [scalar_lt_eq he hx, scalar_lt_eq hx hw, decide_eq_true_eq] at hbounds
  subst hbounds
  split
  case isTrue h => exact ⟨⟨hle.trans h.le, le_rfl⟩, le_rfl, h.le⟩
  case isFalse h =>
    split
    case isTrue h' => exact ⟨⟨le_rfl, h'.le.trans hle⟩, h'.le, le_rfl⟩
    case isFalse h' => exact ⟨⟨not_lt.mp h', not_lt.mp h⟩, le_rfl, le_rfl⟩

/-- A box with one more point bounds that point and all that it has bounded before. -/
theorem include_bounds (hb : b.IsFinite) (hp : p.IsFinite) (hq : b.Bounds q) :
    (b.include p).Bounds p ∧ ∀ r, b.Bounds r → (b.include p).Bounds r := by
  obtain ⟨⟨hw, he⟩, hw', he'⟩ := stretch hb.west hb.east hp.1 (hq.west.trans hq.east) rfl
  obtain ⟨⟨hs, hn⟩, hs', hn'⟩ := stretch hb.south hb.north hp.2 (hq.south.trans hq.north) rfl
  exact ⟨⟨hw, hs, he, hn⟩, fun r hr => ⟨hw'.trans hr.west, hs'.trans hr.south, hr.east.trans he',
    hr.north.trans hn'⟩⟩

theorem foldl_include (hb : b.IsFinite) (hq : b.Bounds q) (hfinite : ∀ p ∈ points, p.IsFinite) :
    (points.foldl Box.include b).IsFinite ∧
      ∀ r, b.Bounds r ∨ r ∈ points → (points.foldl Box.include b).Bounds r := by
  induction points generalizing b q with
  | nil => exact ⟨hb, by simp⟩
  | cons p points ih =>
    obtain ⟨hp, hfinite⟩ := List.forall_mem_cons.mp hfinite
    obtain ⟨hself, hothers⟩ := include_bounds hb hp hq
    obtain ⟨hfin, hbounds⟩ := ih (include_finite hb hp) hself hfinite
    refine ⟨hfin, fun r hr => hbounds r ?_⟩
    rcases hr with hr | hr
    · exact .inl (hothers r hr)
    · rcases List.mem_cons.mp hr with rfl | hr
      · exact .inl hself
      · exact .inr hr

/-- The box around points is finite and bounds them. -/
theorem around_bounds (hne : points ≠ []) (hfinite : ∀ p ∈ points, p.IsFinite) :
    (Box.around points).IsFinite ∧ ∀ p ∈ points, (Box.around points).Bounds p := by
  match points, hne with
  | p :: rest, _ =>
    obtain ⟨hp, hrest⟩ := List.forall_mem_cons.mp hfinite
    have hself : (⟨p.longitude, p.latitude, p.longitude, p.latitude⟩ : Box Float).Bounds p :=
      ⟨le_rfl, le_rfl, le_rfl, le_rfl⟩
    have hpoint : (⟨p.longitude, p.latitude, p.longitude, p.latitude⟩ : Box Float).IsFinite :=
      ⟨hp.1, hp.2, hp.1, hp.2⟩
    obtain ⟨hfin, hbounds⟩ := foldl_include hpoint hself hrest
    refine ⟨hfin, fun r hr => hbounds r ?_⟩
    rcases List.mem_cons.mp hr with rfl | hr
    · exact .inl hself
    · exact .inr hr

/-- A point outside the box around points lies beside them. -/
theorem beside_of_not_holds (hp : p.IsFinite) (hfinite : ∀ q ∈ points, q.IsFinite)
    (h : (Box.around points).holds p = false) : p.Beside points := by
  obtain rfl | hne := eq_or_ne points []
  · simp [Point.Beside]
  obtain ⟨hfin, hbounds⟩ := around_bounds hne hfinite
  have hout : ¬ (Box.around points).Bounds p := fun hin => by
    rw [(holds_iff hfin hp).mpr hin] at h
    cases h
  by_contra hnot
  simp only [Point.Beside, not_or] at hnot
  obtain ⟨hwest, heast, hsouth, hnorth⟩ := hnot
  refine hout ⟨?_, ?_, ?_, ?_⟩ <;> by_contra hlt <;> rw [not_le] at hlt
  · exact hwest fun q hq => hlt.trans_le (hbounds q hq).west
  · exact hsouth fun q hq => hlt.trans_le (hbounds q hq).south
  · exact heast fun q hq => (hbounds q hq).east.trans_lt hlt
  · exact hnorth fun q hq => (hbounds q hq).north.trans_lt hlt

end Box

/-! ### Regions -/

namespace Region

/-- Whether the outer rings of a region are closed rings through finite points. -/
def Sound (r : Region Float) : Prop :=
  ∀ g ∈ r.area, g.outer.closed = g.outer ∧ ∀ q ∈ g.outer, q.IsFinite

/-- Whether no edge of the outer rings that lies east of a point is too near to it, or too large,
for its turn to tell the side of the point. -/
def Tells (r : Region Float) (p : Point Float) : Prop :=
  ∀ g ∈ r.area, ∀ e ∈ g.outer.edges, e.EastOf p → e.Spans p → e.Tells p

instance (r : Region Float) : Decidable r.Sound :=
  inferInstanceAs (Decidable (∀ g ∈ r.area, g.outer.closed = g.outer ∧ ∀ q ∈ g.outer, q.IsFinite))

instance (r : Region Float) : Decidable (r.Tells p) :=
  inferInstanceAs (Decidable
    (∀ g ∈ r.area, ∀ e ∈ g.outer.edges, e.EastOf p → e.Spans p → e.Tells p))

/-- A region does not contain a point outside its box. -/
theorem contains_eq_false {r : Region Float} (hp : p.IsFinite) (hr : r.Sound) (htells : r.Tells p)
    (h : (Box.around (r.area.flatMap (·.outer))).holds p = false) : r.contains p = false := by
  have hbeside := Box.beside_of_not_holds hp (fun q hq => by
    obtain ⟨g, hg, hq⟩ := List.mem_flatMap.mp hq
    exact (hr g hg).2 q hq) h
  rw [contains, List.any_eq_false]
  intro g hg
  have hring := Ring.place_of_beside hp (hr g hg).2 (hr g hg).1 (htells g hg) <| by
    have sub : ∀ q ∈ g.outer, q ∈ r.area.flatMap (·.outer) := fun q hq =>
      List.mem_flatMap.mpr ⟨g, hg, hq⟩
    exact hbeside.imp (fun h q hq => h q (sub q hq)) (.imp (fun h q hq => h q (sub q hq))
      (.imp (fun h q hq => h q (sub q hq)) fun h q hq => h q (sub q hq)))
  rw [Polygon.contains, Polygon.place]
  cases hplace : Ring.place g.outer p with
  | inside => exact absurd hplace hring
  | outside => simp
  | border => simp

/-- Whether the index finds a region at a point. -/
def found (r : Region Float) (p : Point Float) : Bool :=
  (Box.around (r.area.flatMap (·.outer))).holds p && r.contains p

/-- What is found is what contains the point, as long as the turns toward the point tell its
side. -/
theorem found_eq_contains {r : Region Float} (hp : p.IsFinite) (sound : r.Sound)
    (tells : r.Tells p) : r.found p = r.contains p := by
  unfold found
  cases hbox : (Box.around (r.area.flatMap (·.outer))).holds p with
  | true => exact Bool.true_and _
  | false => rw [contains_eq_false hp sound tells hbox, Bool.and_false]

end Region

/-! ### Names -/

theorem Directory.mem_names_put {α : Type} {name n : String} {value : α} {entries : Directory α} :
    n ∈ names (put name value entries) ↔ n = name ∨ n ∈ names entries := by
  induction entries with
  | nil => simp [put, names]
  | cons e rest ih =>
    obtain ⟨m, v⟩ := e
    unfold put
    split
    · simp [names]
    · split
      · rename_i h
        simp [names, h]
      · simp only [names, List.map_cons, List.mem_cons] at ih ⊢
        rw [ih, or_left_comm]

theorem Directory.put_ordered {α : Type} {entries : Directory α} (name : String) (value : α)
    (ordered : (names entries).Pairwise (· < ·)) :
    (names (put name value entries)).Pairwise (· < ·) := by
  induction entries with
  | nil => simp [put, names]
  | cons e rest ih =>
    obtain ⟨n, v⟩ := e
    obtain ⟨first, rest_ordered⟩ := List.pairwise_cons.mp ordered
    unfold put
    split
    case isTrue before =>
      exact List.pairwise_cons.mpr ⟨List.forall_mem_cons.mpr
        ⟨before, fun m hm => lt_trans before (first m hm)⟩, ordered⟩
    case isFalse notBefore =>
      split
      case isTrue same => exact same ▸ ordered
      case isFalse differs =>
        refine List.pairwise_cons.mpr ⟨fun m hm => ?_, ih rest_ordered⟩
        rcases mem_names_put.mp hm with rfl | hm
        · exact lt_of_le_of_ne (not_lt.mp notBefore) (Ne.symm differs)
        · exact first m hm

theorem mem_sortedNames {name : String} {names : List String} :
    name ∈ sortedNames names ↔ name ∈ names := by
  have hfold (entries : Directory Unit) :
      name ∈ Directory.names (Directory.putAll entries (names.map (·, ()))) ↔
        name ∈ Directory.names entries ∨ name ∈ names := by
    induction names generalizing entries with
    | nil => simp [Directory.putAll]
    | cons n names ih =>
      simp only [Directory.putAll, List.map_cons, List.foldl_cons] at ih ⊢
      rw [ih, Directory.mem_names_put, List.mem_cons, or_assoc, or_left_comm]
  rw [sortedNames, Directory.ofList, hfold]
  simp [Directory.names]

theorem sortedNames_ordered (names : List String) : (sortedNames names).Pairwise (· < ·) := by
  have hfold (entries : Directory Unit) (ordered : (Directory.names entries).Pairwise (· < ·)) :
      (Directory.names (Directory.putAll entries (names.map (·, ())))).Pairwise (· < ·) := by
    induction names generalizing entries with
    | nil => exact ordered
    | cons n names ih => exact ih _ (Directory.put_ordered n () ordered)
  exact hfold [] List.Pairwise.nil

/-! ### The index -/

theorem containing_eq_found (regions : List (Region Float)) (p : Point Float) :
    (RegionIndex.ofRegions regions).containing p =
      sortedNames ((regions.filter (·.found p)).map (·.id)) := by
  rw [RegionIndex.containing, RegionIndex.ofRegions, List.filter_map, List.map_map]
  rfl

theorem mem_containing_iff {regions : List (Region Float)} {id : String} :
    id ∈ (RegionIndex.ofRegions regions).containing p ↔
      ∃ r ∈ regions, r.found p = true ∧ r.id = id := by
  rw [containing_eq_found, mem_sortedNames]
  simp [and_assoc]

section Index

variable {regions : List (Region Float)} (hp : p.IsFinite) (sound : ∀ r ∈ regions, r.Sound)
  (tells : ∀ r ∈ regions, r.Tells p)
include hp sound tells

/-- A look into the boxes first does not leave out any region. -/
theorem containing_eq_scan : (RegionIndex.ofRegions regions).containing p =
    sortedNames ((regions.filter (·.contains p)).map (·.id)) := by
  rw [containing_eq_found]
  congr 2
  exact List.filter_congr fun r hr => Region.found_eq_contains hp (sound r hr) (tells r hr)

theorem mem_containing {id : String} : id ∈ (RegionIndex.ofRegions regions).containing p ↔
    ∃ r ∈ regions, r.contains p = true ∧ r.id = id := by
  rw [containing_eq_scan hp sound tells, mem_sortedNames]
  simp [and_assoc]

end Index

/-- The index finds the regions that contain a point, as long as the turns toward the point tell its
side. -/
theorem containing_eq (regions : List (Region Float)) (p : Point Float) (hp : p.IsFinite)
    (sound : ∀ r ∈ regions, r.Sound) (tells : ∀ r ∈ regions, r.Tells p) :
    (RegionIndex.ofRegions regions).containing p =
      sortedNames ((regions.filter (·.contains p)).map (·.id)) ∧
    ∀ id, id ∈ (RegionIndex.ofRegions regions).containing p ↔
      ∃ r ∈ regions, r.contains p = true ∧ r.id = id :=
  ⟨containing_eq_scan hp sound tells, fun _ => mem_containing hp sound tells⟩

/-- A ring east of the origin with two corners that may be very near or very far. -/
def cornerRing (x : Float) : Path Float := [⟨x, -x⟩, ⟨x, x⟩, ⟨1, 1⟩, ⟨1, -1⟩, ⟨x, -x⟩]

/-- A region within the ring, and one with a triangle in the west besides. -/
def cornerRegions (x : Float) : List (Region Float) :=
  [⟨"one", "East", [⟨cornerRing x, []⟩]⟩,
    ⟨"two", "East and west", [⟨cornerRing x, []⟩, ⟨[⟨-3, -3⟩, ⟨-2, -3⟩, ⟨-2, -2⟩, ⟨-3, -3⟩], []⟩]⟩]

/-- One point is in no region, one in both and one in the triangle. -/
theorem containing_eq_cornerRegions :
    (∀ p ∈ [(⟨0, 0⟩ : Point Float), ⟨1.5, 0⟩, ⟨-2.25, -2.75⟩], p.IsFinite ∧
      (∀ r ∈ cornerRegions 2, r.Sound) ∧ (∀ r ∈ cornerRegions 2, r.Tells p) ∧
      (RegionIndex.ofRegions (cornerRegions 2)).containing p =
        sortedNames (((cornerRegions 2).filter (·.contains p)).map (·.id))) ∧
    (RegionIndex.ofRegions (cornerRegions 2)).containing ⟨0, 0⟩ = [] ∧
    (RegionIndex.ofRegions (cornerRegions 2)).containing ⟨1.5, 0⟩ = ["one", "two"] ∧
    (RegionIndex.ofRegions (cornerRegions 2)).containing ⟨-2.25, -2.75⟩ = ["two"] := by
  have sound : ∀ r ∈ cornerRegions 2, r.Sound := by decide +kernel
  have asked : ∀ p ∈ [(⟨0, 0⟩ : Point Float), ⟨1.5, 0⟩, ⟨-2.25, -2.75⟩],
      p.IsFinite ∧ ∀ r ∈ cornerRegions 2, r.Tells p := by decide +kernel
  have scanned (p) (hp : p ∈ [(⟨0, 0⟩ : Point Float), ⟨1.5, 0⟩, ⟨-2.25, -2.75⟩]) :=
    (containing_eq (cornerRegions 2) p (asked p hp).1 sound (asked p hp).2).1
  refine ⟨fun p hp => ⟨(asked p hp).1, sound, (asked p hp).2, scanned p hp⟩, ?_, ?_, ?_⟩
  · rw [scanned _ (by simp)]
    decide +kernel
  · rw [scanned _ (by simp)]
    decide +kernel
  · rw [scanned _ (by simp)]
    decide +kernel

/-- Where the products of a turn vanish or overflow, the winding number takes a point outside the
box for one inside. The index looks into one of two regions that contain it so, and not into the
other. -/
theorem containing_cornerRegions_misses :
    (∀ r ∈ cornerRegions 1e-200 ++ cornerRegions 1e200, r.Sound ∧ r.contains ⟨0, 0⟩ = true) ∧
      (cornerRegions 1e-200).map (·.id) = ["one", "two"] ∧
      (RegionIndex.ofRegions (cornerRegions 1e-200)).containing ⟨0, 0⟩ = ["two"] ∧
      (RegionIndex.ofRegions (cornerRegions 1e200)).containing ⟨0, 0⟩ = ["two"] := by
  decide +kernel

end Geotrack
