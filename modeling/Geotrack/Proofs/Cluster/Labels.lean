import Geotrack.Proofs.Cluster.Numbering
import Geotrack.Proofs.Cluster.Walk
import Mathlib.Order.Interval.Set.Nat

/-!
# Labels of 32 bits

The labels of points are the numbers of their census as long as there are fewer clusters than
positive labels (`exists_labels`), which `leads` count: `labels_isPartition` and
`labels_isNumbering`. Past that a program that stops at an overflow has no labels at all
(`labels_stops_eq_none`).
-/

namespace Geotrack.Density

variable {α : Type} {near : α → α → Bool} {minSize : Nat} {points : List (Option α)}

theorem toInt_toScan (few : Census.count (reach near points) minSize < 2 ^ 31) :
    (finished near minSize points).toScan.labels.toList.map Int32.toInt =
      numbers near minSize points := by
  have counted := Census.counted_run (reach near points) minSize
  simp only [Census.toScan, Vector.toList_map, List.map_map, numbers]
  refine List.map_congr_left fun m hm => ?_
  obtain ⟨i, hi, rfl⟩ := Vector.getElem_of_mem (Vector.mem_toList_iff.mp hm)
  have range : -2 ^ 31 ≤ ((finished near minSize points).markOf ⟨i, hi⟩).label ∧
      ((finished near minSize points).markOf ⟨i, hi⟩).label < 2 ^ 31 := by
    cases hmark : (finished near minSize points).markOf ⟨i, hi⟩ with
    | unvisited => decide
    | noise => decide
    | cluster c =>
      have last := Nat.lt_of_le_of_lt (counted ⟨i, hi⟩ c hmark).2 few
      rw [Mark.label]
      omega
  exact Int32.toInt_ofInt_of_le range.1 range.2

theorem length_labels {overflow : Overflow} {ls : List Int32}
    (h : labels overflow near minSize points = some ls) : ls.length = points.length := by
  obtain ⟨state, -, rfl⟩ := Option.map_eq_some_iff.mp h
  simp

/-- The labels are the numbers of the census if its clusters can be counted. -/
theorem exists_labels (overflow : Overflow)
    (few : Census.count (reach near points) minSize < 2 ^ 31) :
    ∃ ls, labels overflow near minSize points = some ls ∧
      ls.map Int32.toInt = numbers near minSize points := by
  refine ⟨_, ?_, toInt_toScan few⟩
  rw [labels, Census.run_toScan overflow few]
  rfl

theorem labels_stops_eq_none (many : 2 ^ 31 ≤ Census.count (reach near points) minSize) :
    labels .stops near minSize points = none := by
  rw [labels, Census.run_overflow many]
  rfl

/-- There are no more clusters than points. -/
theorem exists_labels_of_few (overflow : Overflow) (near : α → α → Bool) (minSize : Nat)
    (points : List (Option α)) (few : points.length < 2 ^ 31) :
    ∃ ls, labels overflow near minSize points = some ls ∧
      ls.map Int32.toInt = numbers near minSize points :=
  exists_labels overflow
    ((Census.count_le (reach near points) minSize).trans_lt (by simpa using few))

/-- Unlocated points are clusters by themselves where a cluster needs no points. -/
theorem leads_unlocated (near : α → α → Bool) (n : Nat) :
    leads near 0 (List.replicate n (none : Option α)) = Set.Iio n := by
  have unlinked {p q : Nat} : ¬ CoreLink near 0 (List.replicate n none) p q := by
    rintro ⟨-, -, a, -, ha, -⟩
    rw [List.getElem?_replicate] at ha
    split at ha <;> cases ha
  ext p
  constructor
  · intro hp
    simpa using leads_subset hp
  · intro hp
    refine ⟨⟨by simpa using hp, Nat.zero_le _⟩, fun q hqp chain => ?_⟩
    rcases Relation.ReflTransGen.cases_head chain with rfl | ⟨_, link, -⟩
    · exact absurd hqp (Nat.lt_irrefl q)
    · exact unlinked link

theorem labels_unlocated (symm : ∀ a b, near a b = near b a) {n : Nat} (many : 2 ^ 31 ≤ n) :
    labels .stops near 0 (List.replicate n (none : Option α)) = none := by
  refine labels_stops_eq_none ?_
  rwa [count_eq_ncard_leads symm, leads_unlocated, Set.ncard_Iio_nat]

/-! ### Labels under a distance -/

theorem closerThan_comm {distance : α → α → Float} (symm : ∀ a b, distance a b = distance b a)
    (eps : Float) (a b : α) : closerThan distance eps a b = closerThan distance eps b a := by
  rw [closerThan, closerThan, symm]

/-- The clusters of points under a distance that may be any symmetric function, as long as there are
fewer of them than positive labels: noise is what no core point reaches, and core points share a
label exactly when a chain of core points joins them. -/
theorem labels_isPartition (overflow : Overflow) (distance : α → α → Float)
    (symm : ∀ a b, distance a b = distance b a) (eps : Float) (minSize : Nat)
    (points : List (Option α))
    (few : (leads (closerThan distance eps) minSize points).ncard < 2 ^ 31) :
    ∃ ls, labels overflow (closerThan distance eps) minSize points = some ls ∧
      IsPartition (closerThan distance eps) minSize points (ls.map Int32.toInt) := by
  have comm := closerThan_comm symm eps
  rw [← count_eq_ncard_leads comm] at few
  obtain ⟨ls, found, same⟩ := exists_labels overflow few
  exact ⟨ls, found, same ▸ numbers_isPartition comm⟩

theorem gap_comm (a b : Nat) : gap a b = gap b a := by rw [gap, gap, max_comm, min_comm]

/-- There are no more leads than points. -/
theorem ncard_leads_lt (near : α → α → Bool) (minSize : Nat) (points : List (Option α))
    (few : points.length < 2 ^ 31) :
    (leads near minSize points).ncard < 2 ^ 31 := by
  have fewer : (leads near minSize points).ncard ≤ (Set.Iio points.length).ncard :=
    Set.ncard_le_ncard leads_subset (Set.finite_Iio _)
  rw [Set.ncard_Iio_nat] at fewer
  omega

/-- Three places in a row of which the middle one alone is a core point, one far off, and one point
without a place. -/
theorem labels_isPartition_line :
    (∀ a b, gap a b = gap b a) ∧
      (leads (closerThan gap 2) 3 [some 0, some 1, none, some 2, some 9]).ncard < 2 ^ 31 ∧
      ∃ ls, labels .stops (closerThan gap 2) 3 [some 0, some 1, none, some 2, some 9] = some ls ∧
        IsPartition (closerThan gap 2) 3 [some 0, some 1, none, some 2, some 9]
          (ls.map Int32.toInt) := by
  have few := ncard_leads_lt (closerThan gap 2) 3 [some 0, some 1, none, some 2, some 9] (by decide)
  exact ⟨gap_comm, few, labels_isPartition .stops gap gap_comm 2 3 _ few⟩

/-- Whether the points at `p` and at `q` have places that are at most `eps` apart. -/
def Within (distance : α → α → Float) (eps : Float) (points : List (Option α)) (p q : Nat) : Prop :=
  ∃ a b, points[p]? = some (some a) ∧ points[q]? = some (some b) ∧ distance a b ≤ eps

theorem core_iff_le_length {p : Nat} (hp : p < points.toArray.size) :
    Core near minSize points p ↔ minSize ≤ (reach near points ⟨p, hp⟩).length :=
  core_iff_isCore (p := ⟨p, hp⟩)

/-- More unlocated points than positive labels, each a cluster by itself, have no labels where the
count stops the program. Two places at the distance `eps` from each other are two clusters. -/
theorem labels_not_isPartition :
    (¬ ∀ (overflow : Overflow) (distance : Nat → Nat → Float),
      (∀ a b, distance a b = distance b a) → ∀ (eps : Float) (minSize : Nat)
      (points : List (Option Nat)),
      ∃ ls, labels overflow (closerThan distance eps) minSize points = some ls ∧
        IsPartition (closerThan distance eps) minSize points (ls.map Int32.toInt)) ∧
    ¬ ∀ (overflow : Overflow) (distance : Nat → Nat → Float),
      (∀ a b, distance a b = distance b a) → ∀ (eps : Float) (minSize : Nat)
      (points : List (Option Nat)) (ls : List Int32),
      labels overflow (closerThan distance eps) minSize points = some ls →
      ∀ p q, Core (closerThan distance eps) minSize points p →
        Core (closerThan distance eps) minSize points q →
        Relation.ReflTransGen (fun p q => Core (closerThan distance eps) minSize points p ∧
          Core (closerThan distance eps) minSize points q ∧ Within distance eps points p q) p q →
        ls[p]? = ls[q]? := by
  constructor
  · intro h
    obtain ⟨ls, found, -⟩ := h .stops gap gap_comm 1 0 (List.replicate (2 ^ 31) none)
    rw [labels_unlocated (closerThan_comm gap_comm 1) (Nat.le_refl _)] at found
    cases found
  · intro h
    have walk : walkOver .stops (closerThan gap 1) 1 [some 0, some 1] 6 =
        .ok ⟨[1, 2], [1, 0], 2, 2, [1], 1⟩ := by decide +kernel
    have found := labels_eq_of_walkOver (by decide) walk (by decide)
    have first : Core (closerThan gap 1) 1 [some 0, some 1] 0 :=
      (core_iff_le_length (by decide)).mpr (by decide +kernel)
    have second : Core (closerThan gap 1) 1 [some 0, some 1] 1 :=
      (core_iff_le_length (by decide)).mpr (by decide +kernel)
    have same := h .stops gap gap_comm 1 1 [some 0, some 1] _ found 0 1 first second
      (.single ⟨first, second, 0, 1, rfl, rfl, by decide +kernel⟩)
    exact absurd same (by decide)

/-- The clusters of points under a distance that may be any symmetric function are numbered from 1
by their first core points, as long as there are fewer of them than positive labels, and a border
point has the least number of those that reach it. -/
theorem labels_isNumbering (overflow : Overflow) (distance : α → α → Float)
    (symm : ∀ a b, distance a b = distance b a) (eps : Float) (minSize : Nat)
    (points : List (Option α))
    (few : (leads (closerThan distance eps) minSize points).ncard < 2 ^ 31) :
    ∃ ls, labels overflow (closerThan distance eps) minSize points = some ls ∧
      IsNumbering (closerThan distance eps) minSize points (ls.map Int32.toInt) := by
  have comm := closerThan_comm symm eps
  rw [← count_eq_ncard_leads comm] at few
  obtain ⟨ls, found, same⟩ := exists_labels overflow few
  exact ⟨ls, found, same ▸ numbers_isNumbering comm⟩

/-- Places in a row: the first of them is a border point between two clusters of four. -/
def row : List (Option Nat) :=
  [some 10, some 14, some 13, some 12, none, some 6, some 7, some 8]

theorem labels_isNumbering_between :
    (∀ a b, gap a b = gap b a) ∧ (leads (closerThan gap 3) 4 row).ncard < 2 ^ 31 ∧
      ∃ ls, labels .wraps (closerThan gap 3) 4 row = some ls ∧
        IsNumbering (closerThan gap 3) 4 row (ls.map Int32.toInt) := by
  have few := ncard_leads_lt (closerThan gap 3) 4 row (by decide)
  exact ⟨gap_comm, few, labels_isNumbering .wraps gap gap_comm 3 4 row few⟩

/-- Places in a row: the fifth of them is near a core point of the second cluster alone, and at the
distance 10 from a core point of the first. -/
def brink : List (Option Nat) :=
  [some 6, some 3, some 1, some 0, some 16, some 21, some 28, some 29]

/-- More unlocated points than positive labels, each a cluster by itself, have no labels where the
count stops the program. A border point at the distance `eps` from a cluster may have a larger
number. -/
theorem labels_not_isNumbering :
    (¬ ∀ (overflow : Overflow) (distance : Nat → Nat → Float),
      (∀ a b, distance a b = distance b a) → ∀ (eps : Float) (minSize : Nat)
      (points : List (Option Nat)),
      ∃ ls, labels overflow (closerThan distance eps) minSize points = some ls ∧
        IsNumbering (closerThan distance eps) minSize points (ls.map Int32.toInt)) ∧
    ¬ ∀ (overflow : Overflow) (distance : Nat → Nat → Float),
      (∀ a b, distance a b = distance b a) → ∀ (eps : Float) (minSize : Nat)
      (points : List (Option Nat)) (ls : List Int32),
      labels overflow (closerThan distance eps) minSize points = some ls →
      ∀ p q l m, ls[p]? = some l → 0 < l → ¬ Core (closerThan distance eps) minSize points p →
        Core (closerThan distance eps) minSize points q → Within distance eps points q p →
        ls[q]? = some m → l ≤ m := by
  constructor
  · intro h
    obtain ⟨ls, found, -⟩ := h .stops gap gap_comm 1 0 (List.replicate (2 ^ 31) none)
    rw [labels_unlocated (closerThan_comm gap_comm 1) (Nat.le_refl _)] at found
    cases found
  · intro h
    have walk : walkOver .stops (closerThan gap 10) 4 brink 72 =
        .ok ⟨[1, 1, 1, 1, 2, 2, 2, 2], [7, 6, 5, 4, 3, 2, 1, 0], 2, 8, [4, 5, 6, 7], 4⟩ := by
      decide +kernel
    have found := labels_eq_of_walkOver (by decide) walk (by decide)
    have border : ¬ Core (closerThan gap 10) 4 brink 4 := fun core =>
      absurd ((core_iff_le_length (by decide)).mp core) (by decide +kernel)
    have core : Core (closerThan gap 10) 4 brink 0 :=
      (core_iff_le_length (by decide)).mpr (by decide +kernel)
    have least := h .stops gap gap_comm 10 4 brink _ found 4 0 2 1 rfl (by decide) border core
      ⟨6, 16, rfl, rfl, by decide +kernel⟩ rfl
    exact absurd least (by decide)

end Geotrack.Density
