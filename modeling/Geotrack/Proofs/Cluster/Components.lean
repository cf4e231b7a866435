import Geotrack.Proofs.Cluster.Unlocated
import Geotrack.Proofs.Number.Error

/-!
# One record for each connected part

With a least size of one every located point is a core point, so that the clusters are the connected
parts of the located points: `labels_eq_iff_linked`. Reduced alerts then count every located alert
once, lie apart from each other, and each located alert is linked to exactly one of them:
`reduceBy_components`, for any symmetric distance that is zero from a place to itself.
-/

namespace Geotrack

namespace Density

variable {α : Type} {near : α → α → Bool} {points : List (Option α)} {overflow : Overflow}
  {ls : List Int32}

/-- Whether a chain of points leads from one to another, each near the one before. -/
def Linked (near : α → α → Bool) (points : List (Option α)) : Nat → Nat → Prop :=
  Relation.ReflTransGen (InReach near points)

section Single

variable (self : ∀ a, some a ∈ points → near a a = true)
include self

/-- With a least size of one the core points are the located ones. -/
theorem core_one_iff {p : Nat} : Core near 1 points p ↔ ∃ a, points[p]? = some (some a) := by
  constructor
  · rintro ⟨-, many⟩
    obtain ⟨q, a, -, ha, -⟩ := Set.nonempty_of_ncard_ne_zero (Nat.ne_zero_of_lt many)
    exact ⟨a, ha⟩
  · rintro ⟨a, ha⟩
    have finite : {q | InReach near points p q}.Finite :=
      (Set.finite_lt_nat points.length).subset fun q hq => hq.lt
    have near_self : InReach near points p p := ⟨a, a, ha, ha, self a (List.mem_of_getElem? ha)⟩
    exact ⟨near_self.lt, (Set.ncard_pos finite).mpr ⟨p, near_self⟩⟩

theorem coreLink_one_iff {p q : Nat} : CoreLink near 1 points p q ↔ InReach near points p q := by
  refine ⟨fun h => h.2.2, fun h => ⟨?_, ?_, h⟩⟩
  · obtain ⟨a, -, ha, -⟩ := h
    exact (core_one_iff self).mpr ⟨a, ha⟩
  · obtain ⟨-, b, -, hb, -⟩ := h
    exact (core_one_iff self).mpr ⟨b, hb⟩

/-- Where no point is near another, each located point leads a cluster. -/
theorem leads_one_of_apart (apart : ∀ p q, InReach near points p q → p = q) :
    leads near 1 points = {p | ∃ a, points[p]? = some (some a)} := by
  ext p
  refine ⟨fun h => (core_one_iff self).mp h.1, fun h => ⟨(core_one_iff self).mpr h, ?_⟩⟩
  intro q hqp chain
  have same : q = p := by
    clear hqp h
    induction chain with
    | refl => rfl
    | tail _ link ih => exact ih.trans (apart _ _ link.2.2)
  exact absurd hqp (same ▸ Nat.lt_irrefl q)

/-- Located points share a label exactly when they are linked. -/
theorem labels_eq_iff_linked (symm : ∀ a b, near a b = near b a)
    (same : ls.map Int32.toInt = numbers near 1 points) {p q : Nat} {a b : α}
    (hp : points[p]? = some (some a)) (hq : points[q]? = some (some b)) :
    ls[p]? = ls[q]? ↔ Linked near points p q := by
  have links : CoreLink near 1 points = InReach near points := by
    ext p q
    exact coreLink_one_iff self
  have values : ls[p]? = ls[q]? ↔ (numbers near 1 points)[p]? = (numbers near 1 points)[q]? := by
    rw [← same, List.getElem?_map, List.getElem?_map]
    exact (Option.map_injective fun _ _ => Int32.toInt_inj.mp).eq_iff.symm
  rw [values, Linked, ← links]
  exact (numbers_isPartition symm).core_iff p q ((core_one_iff self).mpr ⟨a, hp⟩)
    ((core_one_iff self).mpr ⟨b, hq⟩)

/-- A located point has a positive label. -/
theorem exists_label_pos (symm : ∀ a b, near a b = near b a)
    (same : ls.map Int32.toInt = numbers near 1 points) {p : Nat} {a : α}
    (hp : points[p]? = some (some a)) : ∃ l : Int32, 0 < l ∧ ls[p]? = some l := by
  obtain ⟨m, positive, hm⟩ := ((core_one_iff self).mpr ⟨a, hp⟩).exists_label symm
  rw [← same, List.getElem?_map, Option.map_eq_some_iff] at hm
  obtain ⟨l, hl, rfl⟩ := hm
  exact ⟨l, Int32.lt_iff_toInt_lt.mpr (by rwa [Int32.toInt_zero]), hl⟩

/-- The points with a positive label are the located ones. -/
theorem label_pos_iff (symm : ∀ a b, near a b = near b a)
    (found : labels overflow near 1 points = some ls)
    (same : ls.map Int32.toInt = numbers near 1 points) {p : Nat} {l : Int32}
    (hl : ls[p]? = some l) : 0 < l ↔ ∃ a, points[p]? = some (some a) := by
  constructor
  · intro positive
    have hp : p < points.length := length_labels found ▸ (List.getElem?_eq_some_iff.mp hl).1
    cases place : points[p] with
    | some a => exact ⟨a, by rw [List.getElem?_eq_getElem hp, place]⟩
    | none =>
      have noise := label_unlocated Nat.one_pos found
        (by rw [List.getElem?_eq_getElem hp, place])
      rw [hl, Option.some.injEq] at noise
      rw [noise] at positive
      exact absurd positive (by decide)
  · rintro ⟨a, ha⟩
    obtain ⟨m, positive, hm⟩ := exists_label_pos self symm same ha
    rw [hl, Option.some.injEq] at hm
    exact hm ▸ positive

end Single

end Density

namespace Alert

variable {alerts : List Alert} {labels : List Int32}

/-- The number of alerts leaves a record at its place. -/
theorem point?_put_sizeField (number : Json) (alert : Alert) :
    point? (Directory.put sizeField number alert) = point? alert := by
  simp [point?, sizeField, Directory.find?_put]

theorem coordinate?_finite {v : Json} {x : Float} (h : coordinate? v = some x) :
    Binary64.finite x = true := by
  have kept {y : Option Float} (h : (y.bind fun x => if Binary64.finite x then some x else none) =
      some x) : Binary64.finite x = true := by
    obtain ⟨y, -, hy⟩ := Option.bind_eq_some_iff.mp h
    obtain ⟨finite, hyx⟩ := Option.ite_none_right_eq_some.mp hy
    exact Option.some.inj hyx ▸ finite
  unfold coordinate? at h
  split at h
  · exact kept h
  · exact kept h

theorem point?_finite {alert : Alert} {p : Point Float} (h : point? alert = some p) :
    Binary64.finite p.longitude = true ∧ Binary64.finite p.latitude = true := by
  simp only [point?, bind, Option.bind_eq_some_iff] at h
  obtain ⟨_, -, latitude, hlatitude, _, -, longitude, hlongitude, hp⟩ := h
  cases hp
  exact ⟨coordinate?_finite hlongitude, coordinate?_finite hlatitude⟩

/-- The places of alerts. -/
def places (alerts : List Alert) : List (Option (Point Float)) :=
  (alerts.map normalize).map point?

/-- The reduction of alerts under a distance. -/
def reduceBy (overflow : Density.Overflow) (distance : Point Float → Point Float → Float)
    (alerts : List Alert) (radiusKm : Float) (minSize : Nat) :
    Except AlertError (Option (List Alert)) :=
  if !Binary64.finite radiusKm || radiusKm ≤ 0 then .error (.invalidRadius radiusKm)
  else
    .ok ((Density.labels overflow (Density.closerThan distance radiusKm) minSize
      (places alerts)).map (recordsUnder alerts))

/-- Whether two records lie at places that are not closer to each other than a radius. -/
def Apart (distance : Point Float → Point Float → Float) (radiusKm : Float) (a b : Alert) : Prop :=
  ∃ p q, point? a = some p ∧ point? b = some q ∧ ¬ distance p q < radiusKm

theorem reduce_eq_reduceBy (overflow : Density.Overflow) (alerts : List Alert) (radiusKm : Float)
    (minSize : Nat) : reduce overflow alerts radiusKm minSize =
      reduceBy overflow distanceKm alerts radiusKm minSize := rfl

theorem located_iff {i : Nat} {alert : Alert} (hi : alerts[i]? = some alert) :
    Located alert ↔ ∃ p, (places alerts)[i]? = some (some p) := by
  simp [places, hi, Located, Option.isSome_iff_exists]

/-- A positive label stands for the first time somewhere. -/
theorem exists_isFirst {i : Nat} {l : Int32} (hl : labels[i]? = some l) (positive : 0 < l) :
    ∃ p, IsFirst labels p ∧ labels[p]? = some l := by
  have some : ∃ p : Nat, labels[p]? = some l := ⟨i, hl⟩
  classical
  exact ⟨Nat.find some, ⟨l, Nat.find_spec some, positive, fun j hj => Nat.find_min some hj⟩,
    Nat.find_spec some⟩

/-- A label stands for the first time at one position. -/
theorem IsFirst.eq_of_label {p q : Nat} (hp : IsFirst labels p) (hq : IsFirst labels q)
    (same : labels[p]? = labels[q]?) : p = q := by
  obtain ⟨l, hl, -, beforep⟩ := hp
  obtain ⟨m, hm, -, beforeq⟩ := hq
  rcases Nat.lt_trichotomy p q with h | h | h
  · exact absurd (same.trans hm) (beforeq p h)
  · exact h
  · exact absurd (same.symm.trans hl) (beforep q h)

/-- A record lies at the place of the alert that it stands for. -/
theorem StandsAt.place {i : Nat} {record : Alert} {p : Point Float}
    (stands : StandsAt alerts labels i record) (hp : (places alerts)[i]? = some (some p)) :
    point? record = some p := by
  obtain ⟨alert, -, halert, -, rfl⟩ := stands
  rw [point?_put_sizeField]
  simpa [places, halert] using hp

theorem length_places (alerts : List Alert) : (places alerts).length = alerts.length := by
  simp [places]

section Single

variable {overflow : Density.Overflow} {distance : Point Float → Point Float → Float}
  {radiusKm : Float}
  (symm : ∀ a b, Density.closerThan distance radiusKm a b =
    Density.closerThan distance radiusKm b a)
  (self : ∀ a, some a ∈ places alerts → Density.closerThan distance radiusKm a a = true)
  (found : Density.labels overflow (Density.closerThan distance radiusKm) 1 (places alerts) =
    some labels)
  (same : labels.map Int32.toInt =
    Density.numbers (Density.closerThan distance radiusKm) 1 (places alerts))
include symm self found same

/-- The alerts with a positive label are the located ones. -/
theorem countP_labels : labels.countP (0 < ·) = alerts.countP (Located ·) := by
  have whole := (Density.length_labels found).trans (length_places alerts)
  have both : List.Forall₂ (fun l alert => 0 < l ↔ Located alert) labels alerts := by
    refine List.forall₂_iff_get.mpr ⟨whole, fun i hl ha => ?_⟩
    rw [List.get_eq_getElem, List.get_eq_getElem, located_iff (List.getElem?_eq_getElem ha)]
    exact Density.label_pos_iff self symm found same (List.getElem?_eq_getElem hl)
  rw [List.countP_eq_length_filter, List.countP_eq_length_filter]
  refine (List.rel_filter (R := fun l alert => 0 < l ↔ Located alert) ?_ both).length_eq
  intro l alert h
  simpa using h

/-- The alert at a first position is located. -/
theorem exists_place {i : Nat} (first : IsFirst labels i) :
    ∃ p, (places alerts)[i]? = some (some p) := by
  obtain ⟨l, hl, positive, -⟩ := first
  exact (Density.label_pos_iff self symm found same hl).mp positive

/-- Different records lie apart: those of alerts that are near each other have one label. -/
theorem records_apart : (recordsUnder alerts labels).Pairwise (Apart distance radiusKm) := by
  have whole := (Density.length_labels found).trans (length_places alerts)
  rw [recordsUnder_eq whole, List.pairwise_filterMap]
  refine firsts_increasing.imp_of_mem fun {i j} hi hj hij a ha b hb => ?_
  obtain ⟨a', ha', standsa, -⟩ := representative?_members whole hi
  obtain ⟨b', hb', standsb, -⟩ := representative?_members whole hj
  obtain rfl : a' = a := Option.some.inj (ha'.symm.trans ha)
  obtain rfl : b' = b := Option.some.inj (hb'.symm.trans hb)
  obtain ⟨p, hp⟩ := exists_place symm self found same (mem_firsts.mp hi)
  obtain ⟨q, hq⟩ := exists_place symm self found same (mem_firsts.mp hj)
  refine ⟨p, q, standsa.place hp, standsb.place hq, fun near => ?_⟩
  have link : Density.Linked (Density.closerThan distance radiusKm) (places alerts) i j :=
    .single ⟨p, q, hp, hq, by simpa [Density.closerThan] using near⟩
  exact hij.ne (IsFirst.eq_of_label (mem_firsts.mp hi) (mem_firsts.mp hj)
    ((Density.labels_eq_iff_linked self symm same hp hq).mpr link))

/-- A located alert is linked to the alert at one first position. -/
theorem existsUnique_linked {i : Nat} {p : Point Float} (hp : (places alerts)[i]? = some (some p)) :
    ∃! k, k ∈ firsts labels ∧
      Density.Linked (Density.closerThan distance radiusKm) (places alerts) i k := by
  obtain ⟨l, positive, hl⟩ := Density.exists_label_pos self symm same hp
  obtain ⟨k, first, hk⟩ := exists_isFirst hl positive
  obtain ⟨q, hq⟩ := exists_place symm self found same first
  refine ⟨k, ⟨mem_firsts.mpr first, ?_⟩, ?_⟩
  · exact (Density.labels_eq_iff_linked self symm same hp hq).mp (hl.trans hk.symm)
  · rintro k' ⟨hk', link⟩
    obtain ⟨q', hq'⟩ := exists_place symm self found same (mem_firsts.mp hk')
    refine IsFirst.eq_of_label (mem_firsts.mp hk') first ?_
    rw [hk, ← hl]
    exact ((Density.labels_eq_iff_linked self symm same hp hq').mpr link).symm

end Single

/-- Under a distance that may be any symmetric function that is zero from a place to itself, and as
long as there are fewer clusters than positive labels, alerts reduced with a least size of one count
every located alert once, no two of them lie closer than the radius, and a chain of alerts closer
than the radius leads from each located alert to exactly one. -/
theorem reduceBy_components (overflow : Density.Overflow)
    (distance : Point Float → Point Float → Float)
    (symm : ∀ a b, distance a b = distance b a)
    (self : ∀ a : Point Float, Binary64.finite a.longitude = true →
      Binary64.finite a.latitude = true → distance a a = 0)
    (alerts : List Alert) (radiusKm : Float) (finite : Binary64.finite radiusKm = true)
    (positive : 0 < radiusKm)
    (few : (Density.leads (Density.closerThan distance radiusKm) 1 (places alerts)).ncard <
      2 ^ 31) :
    (∀ minSize, reduce overflow alerts radiusKm minSize =
      reduceBy overflow distanceKm alerts radiusKm minSize) ∧
    ∃ (labels : List Int32) (positions : List Nat) (records : List Alert),
      Density.labels overflow (Density.closerThan distance radiusKm) 1 (places alerts) =
        some labels ∧
      reduceBy overflow distance alerts radiusKm 1 = .ok (some records) ∧
      positions.Pairwise (· < ·) ∧
      List.Forall₂ (StandsAt alerts labels) positions records ∧
      (records.map size).sum = alerts.countP (Located ·) ∧
      records.Pairwise (Apart distance radiusKm) ∧
      ∀ i alert, alerts[i]? = some alert → Located alert →
        ∃! k, k ∈ positions ∧
          Density.Linked (Density.closerThan distance radiusKm) (places alerts) i k := by
  have both := Density.closerThan_comm symm radiusKm
  have near_self : ∀ a, some a ∈ places alerts →
      Density.closerThan distance radiusKm a a = true := by
    intro a ha
    obtain ⟨alert, -, hplace⟩ := List.mem_map.mp ha
    obtain ⟨longitude, latitude⟩ := point?_finite hplace
    simpa [Density.closerThan, self a longitude latitude] using positive
  rw [← Density.count_eq_ncard_leads both] at few
  obtain ⟨labels, found, same⟩ := Density.exists_labels overflow few
  have whole := (Density.length_labels found).trans (length_places alerts)
  refine ⟨fun minSize => reduce_eq_reduceBy overflow alerts radiusKm minSize, labels, firsts labels,
    recordsUnder alerts labels, found, ?_, firsts_increasing, recordsUnder_stand whole, ?_,
    records_apart both near_self found same, ?_⟩
  · simp [reduceBy, finite, Binary64.not_le_of_lt positive, found]
  · rw [sum_size_recordsUnder whole, countP_labels both near_self found same]
  · intro i alert hi located
    obtain ⟨p, hp⟩ := (located_iff hi).mp located
    exact existsUnique_linked both near_self found same hp

/-- The length of a degree along a meridian. -/
def kmPerDegree : Float := earthRadiusKm * Scalar.degree

/-- The distance of places on one meridian. -/
def meridianKm (a b : Point Float) : Float :=
  if a.latitude < b.latitude then (b.latitude - a.latitude) * kmPerDegree
  else if b.latitude < a.latitude then (a.latitude - b.latitude) * kmPerDegree
  else 0

theorem meridianKm_comm (a b : Point Float) : meridianKm a b = meridianKm b a := by
  unfold meridianKm
  by_cases hab : a.latitude < b.latitude
  · rw [if_pos hab, if_neg (Binary64.not_lt_of_lt hab), if_pos hab]
  · by_cases hba : b.latitude < a.latitude
    · rw [if_neg hab, if_pos hba, if_pos hba]
    · rw [if_neg hab, if_neg hba, if_neg hba, if_neg hab]

theorem meridianKm_self (a : Point Float) : meridianKm a a = 0 := by
  have same : ¬ a.latitude < a.latitude := fun h => Binary64.not_lt_of_lt h h
  rw [meridianKm, if_neg same, if_neg same]

/-- Alerts on one meridian, two of them a kilometer apart, and one without a longitude. -/
def northward : List Alert :=
  [[("lat", .integer 0), ("long", .integer 36)], [("lat", .integer 5)],
    [("lat", .real 0.01), ("long", .integer 36)], [("lat", .integer 5), ("long", .integer 36)]]

theorem reduceBy_components_northward :
    (∀ a b, meridianKm a b = meridianKm b a) ∧
    (∀ a : Point Float, Binary64.finite a.longitude = true →
      Binary64.finite a.latitude = true → meridianKm a a = 0) ∧
    Binary64.finite 4 = true ∧ (0 : Float) < 4 ∧
    (Density.leads (Density.closerThan meridianKm 4) 1 (places northward)).ncard < 2 ^ 31 ∧
    ∃ (positions : List Nat) (records : List Alert),
      reduceBy .stops meridianKm northward 4 1 = .ok (some records) ∧
      (records.map size).sum = northward.countP (Located ·) ∧
      records.Pairwise (Apart meridianKm 4) ∧
      ∀ i alert, northward[i]? = some alert → Located alert → ∃! k, k ∈ positions ∧
        Density.Linked (Density.closerThan meridianKm 4) (places northward) i k := by
  have self : ∀ a : Point Float, Binary64.finite a.longitude = true →
      Binary64.finite a.latitude = true → meridianKm a a = 0 := fun a _ _ => meridianKm_self a
  have finite : Binary64.finite 4 = true := by decide +kernel
  have positive : (0 : Float) < 4 := by decide +kernel
  have few := Density.ncard_leads_lt (Density.closerThan meridianKm 4) 1 (places northward)
    (by decide)
  obtain ⟨-, _, positions, records, -, returned, -, -, sizes, apart, linked⟩ :=
    reduceBy_components .stops meridianKm meridianKm_comm self northward 4 finite positive few
  exact ⟨meridianKm_comm, self, finite, positive, few, positions, records, returned, sizes, apart,
    linked⟩

/-- Places are ten kilometers apart unless they have the same latitude. -/
noncomputable def latitudeKm (a b : Point Float) : Float :=
  if Binary64.value a.latitude = Binary64.value b.latitude then 0 else 10

theorem latitudeKm_comm (a b : Point Float) : latitudeKm a b = latitudeKm b a := by
  simp only [latitudeKm, eq_comm]

theorem latitudeKm_self (a : Point Float) : latitudeKm a a = 0 := if_pos rfl

theorem closerThan_latitudeKm_iff {a b : Point Float} :
    Density.closerThan latitudeKm 4 a b = true ↔
      Binary64.value a.latitude = Binary64.value b.latitude := by
  have near : decide ((0 : Float) < 4) = true := by decide +kernel
  have far : decide ((10 : Float) < 4) = false := by decide +kernel
  rw [Density.closerThan, latitudeKm]
  split
  · rename_i same
    exact ⟨fun _ => same, fun _ => near⟩
  · rename_i other
    exact ⟨fun h => absurd (far.symm.trans h) Bool.false_ne_true, fun h => absurd h other⟩

/-- Alerts at the latitudes 0, 1, 2 and so on, which may be any numbers. -/
def scattered (n : Nat) : List Alert :=
  (List.range n).map fun (i : Nat) => [("latitude", .integer i), ("longitude", .integer 0)]

/-- A whole number that a float holds is read as it is. -/
theorem coordinate?_integer {k : ℤ} (low : 0 ≤ k) (high : k ≤ 2 ^ 53) :
    coordinate? (.integer k) = some (Float.ofInt k) := by
  obtain ⟨n, rfl⟩ := Int.eq_ofNat_of_zero_le low
  have finite : Binary64.finite (Float.ofInt n) = true :=
    (Binary64.scalar_ofInt_natCast (by exact_mod_cast high)).1
  have top : twoTo 64 = 2 ^ 64 := rfl
  have range : -(twoTo 63 : Int) ≤ n ∧ (n : Int) < twoTo 64 :=
    ⟨(Int.neg_nonpos_of_nonneg (Int.natCast_nonneg _)).trans low, by
      rw [top]
      omega⟩
  simp only [coordinate?, Json.float?, if_pos range, Option.bind_eq_bind, Option.bind_some, finite,
    if_true]

theorem point?_full {v w : Json} {latitude longitude : Float}
    (hv : coordinate? v = some latitude) (hw : coordinate? w = some longitude) :
    point? (normalize [("latitude", v), ("longitude", w)]) = some ⟨longitude, latitude⟩ := by
  have full : normalize [("latitude", v), ("longitude", w)] =
      [("latitude", v), ("longitude", w)] := by
    simp [normalize, rename, Directory.find?_cons]
  simp [full, point?, Directory.find?_cons, hv, hw]

theorem getElem?_places_scattered {n p : Nat} (few : n ≤ 2 ^ 53) :
    (places (scattered n))[p]? =
      if p < n then some (some ⟨Float.ofInt 0, Float.ofInt p⟩) else none := by
  simp only [places, scattered, List.getElem?_map]
  by_cases hp : p < n
  · rw [List.getElem?_range hp, if_pos hp, Option.map_some, Option.map_some, Option.map_some,
      point?_full (coordinate?_integer (Int.natCast_nonneg p) (by omega))
        (coordinate?_integer (le_refl 0) (by positivity))]
  · rw [List.getElem?_eq_none (by simpa using hp), if_neg hp]
    rfl

theorem leads_scattered {n : Nat} (few : n ≤ 2 ^ 53) :
    Density.leads (Density.closerThan latitudeKm 4) 1 (places (scattered n)) = Set.Iio n := by
  rw [Density.leads_one_of_apart]
  · ext p
    simp [getElem?_places_scattered few]
  · exact fun a _ => closerThan_latitudeKm_iff.mpr rfl
  · rintro p q ⟨a, b, ha, hb, near⟩
    rw [getElem?_places_scattered few] at ha hb
    split at ha
    · split at hb
      · cases ha
        cases hb
        have same := closerThan_latitudeKm_iff.mp near
        rw [Binary64.value_ofInt_eq (Int.natCast_nonneg p) (by omega),
          Binary64.value_ofInt_eq (Int.natCast_nonneg q) (by omega)] at same
        exact_mod_cast same
      · cases hb
    · cases ha

theorem reduceBy_scattered {n : Nat} (few : n ≤ 2 ^ 53) (many : 2 ^ 31 ≤ n) :
    reduceBy .stops latitudeKm (scattered n) 4 1 = .ok none := by
  have none : Density.labels .stops (Density.closerThan latitudeKm 4) 1 (places (scattered n)) =
      none := by
    refine Density.labels_stops_eq_none ?_
    rwa [Density.count_eq_ncard_leads (Density.closerThan_comm latitudeKm_comm 4),
      leads_scattered few, Set.ncard_Iio_nat]
  have valid : (!Binary64.finite 4 || decide ((4 : Float) ≤ 0)) = false := by decide +kernel
  rw [reduceBy, if_neg (by rw [valid]; decide), none]
  rfl

/-- An alert whose short name for the latitude stands for none and replaces the one it has. -/
def overwritten : Alert :=
  [("lat", .text "n/a"), ("latitude", .integer 36), ("longitude", .integer 36)]

/-- More alerts apart from each other than positive labels are not reduced where the count stops the
program. An alert with coordinates counts for nothing if its short names replace them by others that
are not usable. -/
theorem reduceBy_not_components :
    (¬ ∀ (overflow : Density.Overflow) (distance : Point Float → Point Float → Float),
      (∀ a b, distance a b = distance b a) → (∀ a, distance a a = 0) →
      ∀ (alerts : List Alert) (radiusKm : Float), Binary64.finite radiusKm = true →
      0 < radiusKm → ∃ records, reduceBy overflow distance alerts radiusKm 1 = .ok (some records)) ∧
    ¬ ∀ (overflow : Density.Overflow) (distance : Point Float → Point Float → Float),
      (∀ a b, distance a b = distance b a) → (∀ a, distance a a = 0) →
      ∀ (alerts : List Alert) (radiusKm : Float) (records : List Alert),
      Binary64.finite radiusKm = true → 0 < radiusKm →
      reduceBy overflow distance alerts radiusKm 1 = .ok (some records) →
      (records.map size).sum = alerts.countP fun alert => (point? alert).isSome := by
  have finite : Binary64.finite 4 = true := by decide +kernel
  have positive : (0 : Float) < 4 := by decide +kernel
  constructor
  · intro h
    obtain ⟨records, returned⟩ := h .stops latitudeKm latitudeKm_comm latitudeKm_self
      (scattered (2 ^ 31)) 4 finite positive
    rw [reduceBy_scattered (by omega) (Nat.le_refl _)] at returned
    cases returned
  · intro h
    have both := Density.closerThan_comm latitudeKm_comm 4
    obtain ⟨labels, found, same⟩ := Density.exists_labels_of_few .stops
      (Density.closerThan latitudeKm 4) 1 (places [overwritten]) (by decide)
    have returned : reduceBy .stops latitudeKm [overwritten] 4 1 =
        .ok (some (recordsUnder [overwritten] labels)) := by
      simp [reduceBy, finite, Binary64.not_le_of_lt positive, found]
    have sizes := h .stops latitudeKm latitudeKm_comm latitudeKm_self [overwritten] 4 _ finite
      positive returned
    have near_self : ∀ a, some a ∈ places [overwritten] →
        Density.closerThan latitudeKm 4 a a = true := fun a _ => closerThan_latitudeKm_iff.mpr rfl
    rw [sum_size_recordsUnder ((Density.length_labels found).trans (length_places _)),
      countP_labels both near_self found same] at sizes
    exact absurd sizes (by decide +kernel)

end Alert

end Geotrack
