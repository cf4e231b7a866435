import Geotrack.Analysis.Run
import Geotrack.Proofs.Number.Largest
import Geotrack.Proofs.Track.Kept
import Mathlib.Order.Bounds.Basic

/-!
# Verdicts on immobility

The newest fixes of a trajectory make one cluster for every number of them. A subject is immobile by
those whose fixes keep near their middle and span more than the time asked for. What is reported is
the largest such cluster, whatever the smaller ones are like: `findings_immobility`.
-/

namespace Geotrack

open Binary64

variable {t : Trajectory Float} {s : ImmobilitySettings} {radius : Float} {k n : Nat}
  {m m' : ClusterMeasures Float}

/-! ### Clusters -/

/-- The measures of the `k` newest fixes of a trajectory. -/
structure ClusterMeasures.Measures (t : Trajectory Float) (radius : Float) (k : Nat)
    (m : ClusterMeasures Float) : Prop where
  pos : 1 ≤ k
  le : k ≤ t.fixes.length
  centroid : centroid? ((t.tail k).fixes.reverse.map (·.point)) = some m.centroid
  count : m.count = k
  inside : m.inside = (t.tail k).fixes.countP fun fix =>
    Scalar.le (distanceMeters m.centroid fix.point) radius
  farthest : IsLargest
    (0 :: (t.tail k).fixes.map fun fix => distanceMeters m.centroid fix.point) m.radiusMeters
  seconds : m.seconds = (t.tail k).timespanSeconds

namespace ClusterMeasures

theorem take_reverse_fixes : t.fixes.reverse.take k = (t.tail k).fixes.reverse :=
  List.take_reverse

theorem exists_measures (radius : Float) (pos : 1 ≤ k) (le : k ≤ t.fixes.length) :
    ∃ m, of? (t.fixes.reverse.take k) radius = some m ∧ Measures t radius k m := by
  have count : (t.tail k).fixes.length = k := (t.length_tail k).trans (Nat.min_eq_left le)
  have some_fix : (t.tail k).fixes ≠ [] := List.length_pos_iff.mp (by omega)
  obtain ⟨c, hc⟩ : ∃ c, centroid? ((t.tail k).fixes.reverse.map (·.point)) = some c := by
    cases h : (t.tail k).fixes.reverse.map (·.point) with
    | nil => simp [some_fix] at h
    | cons p rest => exact ⟨_, rfl⟩
  obtain ⟨oldest, ho⟩ := Option.ne_none_iff_exists'.mp (mt List.head?_eq_none_iff.mp some_fix)
  obtain ⟨newest, hn⟩ := Option.ne_none_iff_exists'.mp (mt List.getLast?_eq_none_iff.mp some_fix)
  refine ⟨_, by
    rw [take_reverse_fixes, of?, hc, List.head?_reverse, hn, List.getLast?_reverse, ho]
    rfl, pos, le, hc, ?_, ?_, ?_, ?_⟩
  · rw [List.length_reverse, count]
  · rw [← List.countP_eq_length_filter, List.countP_map, List.countP_reverse]
    rfl
  · have zero : (Scalar.zero : Float).toModel.unpack ≠ .notANumber := by
      rw [show (Scalar.zero : Float) = 0 from rfl, unpack_zero_float]
      simp
    rw [List.map_reverse]
    exact (isLargest_foldl_max zero).2.perm ((List.reverse_perm _).cons _)
  · rw [Trajectory.timespanSeconds, ho, hn]

theorem Measures.same (h : Measures t radius k m) (h' : Measures t radius k m') :
    m.share = m'.share ∧ m.seconds = m'.seconds := by
  have centroid : m.centroid = m'.centroid := Option.some.inj (h.centroid.symm.trans h'.centroid)
  refine ⟨?_, h.seconds.trans h'.seconds.symm⟩
  rw [share, share, h.inside, h'.inside, h.count, h'.count, centroid]

end ClusterMeasures

/-! ### Immobility -/

/-- Whether the `k` newest fixes show a subject immobile: enough of them are within the radius of
their middle, and they span more than the time asked for. -/
def ImmobilitySettings.Immobile (s : ImmobilitySettings) (t : Trajectory Float) (k : Nat) : Prop :=
  ∃ m, ClusterMeasures.Measures t s.radiusMeters k m ∧ s.share ≤ m.share ∧ s.seconds < m.seconds

namespace ImmobilitySettings

/-- What is last of what the numbers below a bound give is given by the greatest that gives any. -/
theorem getLast?_filterMap_range {α : Type} {f : Nat → Option α} {a : α}
    (h : ((List.range n).filterMap f).getLast? = some a) :
    ∃ i, i < n ∧ f i = some a ∧ ∀ j, i < j → j < n → f j = none := by
  induction n with
  | zero => simp at h
  | succ n ih =>
    rw [List.range_succ, List.filterMap_append, List.getLast?_append] at h
    cases hn : f n with
    | none =>
      simp only [List.filterMap_cons, hn, List.filterMap_nil, List.getLast?_nil,
        Option.none_or] at h
      obtain ⟨i, hi, ha, later⟩ := ih h
      refine ⟨i, by omega, ha, fun j hij hj => ?_⟩
      rcases Nat.lt_succ_iff_lt_or_eq.mp hj with hj | rfl
      · exact later j hij hj
      · exact hn
    | some b =>
      simp only [List.filterMap_cons, hn, List.filterMap_nil, List.getLast?_singleton,
        Option.some_or] at h
      exact ⟨n, by omega, hn.trans h, fun j hij hj => by omega⟩

/-- The measures of the newest fixes if they show immobility. -/
def immobile? (s : ImmobilitySettings) (t : Trajectory Float) (k : Nat) :
    Option (ClusterMeasures Float) :=
  (ClusterMeasures.of? (t.fixes.reverse.take (k + 1)) s.radiusMeters).filter s.admits

theorem cluster?_eq (s : ImmobilitySettings) (t : Trajectory Float) :
    s.cluster? t.fixes.reverse =
      ((List.range t.fixes.length).filterMap (s.immobile? t)).getLast? := by
  rw [cluster?, List.length_reverse, List.filterMap_map, List.filter_filterMap]
  rfl

theorem immobile?_cases (h : k < t.fixes.length) :
    (∃ m, s.immobile? t k = some m ∧ ClusterMeasures.Measures t s.radiusMeters (k + 1) m ∧
      s.Immobile t (k + 1)) ∨ (s.immobile? t k = none ∧ ¬ s.Immobile t (k + 1)) := by
  obtain ⟨m, hm, measures⟩ :=
    ClusterMeasures.exists_measures s.radiusMeters (Nat.le_add_left 1 k) h
  have admits : s.admits m = true ↔ s.share ≤ m.share ∧ s.seconds < m.seconds := by
    simp [ImmobilitySettings.admits]
  by_cases admitted : s.admits m = true
  · refine .inl ⟨m, ?_, measures, m, measures, admits.mp admitted⟩
    rw [immobile?, hm, Option.filter_some, if_pos admitted]
  · refine .inr ⟨by rw [immobile?, hm, Option.filter_some, if_neg admitted], ?_⟩
    rintro ⟨m', measures', enough⟩
    obtain ⟨share, seconds⟩ := measures.same measures'
    exact admitted (admits.mpr (by rwa [share, seconds]))

/-- The cluster that is reported is the largest that shows immobility. -/
theorem cluster?_eq_some (h : s.cluster? t.fixes.reverse = some m) :
    ∃ k, IsGreatest {k | s.Immobile t k} k ∧ ClusterMeasures.Measures t s.radiusMeters k m := by
  rw [cluster?_eq] at h
  obtain ⟨i, hi, hm, later⟩ := getLast?_filterMap_range h
  rcases immobile?_cases (s := s) hi with ⟨m', hm', measures, immobile⟩ | ⟨none, -⟩
  · obtain rfl := Option.some.inj (hm.symm.trans hm')
    refine ⟨i + 1, ⟨immobile, ?_⟩, measures⟩
    rintro k ⟨other, measures', enough⟩
    by_contra above
    obtain ⟨j, rfl⟩ := Nat.exists_eq_add_of_le' measures'.pos
    have hj : j < t.fixes.length := measures'.le
    rcases immobile?_cases (s := s) hj with ⟨_, some, -⟩ | ⟨-, not⟩
    · rw [later j (by omega) hj] at some
      cases some
    · exact not ⟨other, measures', enough⟩
  · rw [none] at hm
    cases hm

theorem cluster?_eq_none_iff : s.cluster? t.fixes.reverse = none ↔ ∀ k, ¬ s.Immobile t k := by
  rw [cluster?_eq, List.getLast?_eq_none_iff, List.filterMap_eq_nil_iff]
  constructor
  · rintro h k ⟨m, measures, enough⟩
    obtain ⟨j, rfl⟩ := Nat.exists_eq_add_of_le' measures.pos
    rcases immobile?_cases (s := s) measures.le with ⟨_, some, -⟩ | ⟨-, not⟩
    · rw [h j (List.mem_range.mpr measures.le)] at some
      cases some
    · exact not ⟨m, measures, enough⟩
  · intro h i hi
    rcases immobile?_cases (s := s) (List.mem_range.mp hi) with ⟨_, -, -, immobile⟩ | ⟨none, -⟩
    · exact absurd immobile (h _)
    · exact none

end ImmobilitySettings

/-! ### Findings -/

/-- Whether a finding is about a cluster: it lies at the middle and tells the measures. -/
structure Finding.TellsCluster (f : Finding) (m : ClusterMeasures Float) : Prop where
  points : f.points = [m.centroid]
  share : Directory.find? "probability_value" f.values = some (.ofFloat m.share)
  radius : Directory.find? "cluster_radius" f.values = some (.ofFloat m.radiusMeters)
  inside : Directory.find? "cluster_fix_count" f.values = some (.integer m.inside)
  count : Directory.find? "total_fix_count" f.values = some (.integer m.count)
  seconds : Directory.find? "immobility_time" f.values = some (.integer m.seconds)

theorem immobileFinding_tells (subject : Subject) (analyzer : AnalyzerReference)
    (newest : Fix Float) (m : ClusterMeasures Float) :
    (immobileFinding subject analyzer newest m).TellsCluster m := by
  constructor
  · rfl
  all_goals simp [immobileFinding, Directory.ofList, Directory.putAll, Directory.find?_put]

namespace Analyzer

variable {a : Analyzer} {newest : Fix Float}

/-- An immobility analysis makes one finding of a trajectory that spans the time asked for. Its time
is that of the newest fix. It is critical exactly if some number of newest fixes shows immobility,
and then tells the measures of the greatest such number of them; else it is fine and at the newest
fix. Of any other trajectory there is too little to tell. -/
theorem findings_immobility (task : a.task = .immobility s) :
    (t.fixes = [] → a.findings t = .ofExcept (.error (.shortage .noFixesToTest))) ∧
    (t.fixes ≠ [] → t.timespanSeconds < s.seconds →
      a.findings t = .ofExcept (.error (.shortage (.shortTimespan t.timespanSeconds s.seconds)))) ∧
    ∀ newest, t.fixes.getLast? = some newest → s.seconds ≤ t.timespanSeconds →
      ∃ f, a.findings t = .ofExcept (.ok [f]) ∧ f.time = newest.time ∧
        (f.level = .critical ↔ ∃ k, s.Immobile t k) ∧
        (f.level = .critical → ∃ k m, IsGreatest {k | s.Immobile t k} k ∧
          ClusterMeasures.Measures t s.radiusMeters k m ∧ f.TellsCluster m) ∧
        (f.level ≠ .critical → f.level = .ok ∧ f.points = [newest.point] ∧ f.values = []) := by
  have analysis : a.findings t = .ofExcept (immobilityFindings a.subject a.reference s t) := by
    rw [findings, task]
  refine ⟨fun none => ?_, fun some short => ?_, fun newest hn enough => ?_⟩
  · rw [analysis, immobilityFindings, none]
    rfl
  · obtain ⟨newest, hn⟩ :=
      Option.ne_none_iff_exists'.mp (mt List.getLast?_eq_none_iff.mp some)
    rw [analysis, immobilityFindings, hn]
    dsimp only
    rw [if_pos short]
  · rw [analysis, immobilityFindings, hn]
    dsimp only
    rw [if_neg (by omega)]
    cases h : s.cluster? t.fixes.reverse with
    | none =>
      have moving := ImmobilitySettings.cluster?_eq_none_iff.mp h
      exact ⟨_, rfl, rfl, ⟨(nomatch ·), fun ⟨k, hk⟩ => absurd hk (moving k)⟩, (nomatch ·),
        fun _ => ⟨rfl, rfl, rfl⟩⟩
    | some m =>
      obtain ⟨k, greatest, measures⟩ := ImmobilitySettings.cluster?_eq_some h
      exact ⟨_, rfl, rfl, ⟨fun _ => ⟨k, greatest.1⟩, fun _ => rfl⟩,
        fun _ => ⟨k, m, greatest, measures, immobileFinding_tells _ _ _ _⟩,
        fun fine => absurd rfl fine⟩

/-- An active subject that is tested for five hours of immobility. -/
def restWatch : Analyzer where
  subject := { id := .nil, name := "Tembo" }
  config := { id := .nil, name := "rest", settings := .immobility {} }
  task := .immobility {}
  active := Eq.refl true
  kind_eq := rfl

/-- A track that stays at one place for some hours. -/
def resting (place : Point Float) (hours : Nat) : List (Fix Float) :=
  (List.range (hours + 1)).map fun i => ⟨place, .ofNanos (i * 3600000000000)⟩

def fiveHours : Trajectory Float where
  subject := .nil
  fixes := resting ⟨36.8, -1.3⟩ 5
  ordered := by decide

def sixHours : Trajectory Float where
  subject := .nil
  fixes := resting ⟨36.75, -1.25⟩ 6
  ordered := by decide

/-- What is asked for of a subject that may roam: that it is heard of for more than five hours. -/
def anywhere : ImmobilitySettings := { share := 0 }

def roamWatch : Analyzer where
  subject := restWatch.subject
  config := { restWatch.config with settings := .immobility anywhere }
  task := .immobility anywhere
  active := Eq.refl true
  kind_eq := rfl

/-- All seven fixes of six hours show it, and there are no more. -/
theorem sixHours_immobile : IsGreatest {k | anywhere.Immobile sixHours k} 7 := by
  obtain ⟨m, -, measures⟩ := ClusterMeasures.exists_measures (t := sixHours) anywhere.radiusMeters
    (by decide : 1 ≤ 7) (by decide)
  have some_share : ∀ i ≤ 7,
      anywhere.share ≤ (Scalar.ofInt (i : Nat) / Scalar.ofInt 7 : Float) := by
    decide +kernel
  have inside : m.inside ≤ 7 := by
    rw [measures.inside]
    exact List.countP_le_length
  have share : anywhere.share ≤ m.share := by
    rw [ClusterMeasures.share, measures.count]
    exact some_share m.inside inside
  have seconds : m.seconds = 21600 := measures.seconds
  refine ⟨⟨m, measures, share, ?_⟩, ?_⟩
  · rw [seconds]
    decide
  · rintro k ⟨other, measures', -⟩
    exact measures'.le

/-- Five hours are enough to test, and not long enough to be immobile. Of six hours the measures of
all fixes are told. -/
theorem findings_immobility_fiveHours :
    (restWatch.task = .immobility {} ∧ fiveHours.timespanSeconds = 18000 ∧
      ∃ f, restWatch.findings fiveHours = .ofExcept (.ok [f]) ∧ f.time = .ofNanos 18000000000000 ∧
        f.level = .ok ∧ f.points = [⟨36.8, -1.3⟩] ∧ f.values = []) ∧
    (roamWatch.task = .immobility anywhere ∧ sixHours.timespanSeconds = 21600 ∧
      ∃ f m, roamWatch.findings sixHours = .ofExcept (.ok [f]) ∧
        f.time = .ofNanos 21600000000000 ∧ f.level = .critical ∧
        ClusterMeasures.Measures sixHours anywhere.radiusMeters 7 m ∧ f.TellsCluster m ∧
        m.seconds = 21600 ∧ m.centroid = ⟨36.75, -1.25⟩) := by
  constructor
  · have task : restWatch.task = .immobility {} := rfl
    have newest : fiveHours.fixes.getLast? = some ⟨⟨36.8, -1.3⟩, .ofNanos 18000000000000⟩ := rfl
    have span : fiveHours.timespanSeconds = 18000 := rfl
    have moving : ∀ k, ¬ ({} : ImmobilitySettings).Immobile fiveHours k := by
      rintro k ⟨m, measures, -, longer⟩
      have spans : ∀ k ≤ 6, (fiveHours.tail k).timespanSeconds ≤ 18000 := by decide
      have := spans k (measures.le.trans (by decide))
      rw [measures.seconds] at longer
      exact absurd longer (not_lt.mpr this)
    obtain ⟨f, hf, time, critical, -, fine⟩ :=
      (findings_immobility (t := fiveHours) task).2.2 _ newest span.ge
    obtain ⟨level, points, values⟩ :=
      fine fun h => (critical.mp h).elim fun k immobile => moving k immobile
    exact ⟨task, span, f, hf, time, level, points, values⟩
  · have task : roamWatch.task = .immobility anywhere := rfl
    have newest : sixHours.fixes.getLast? = some ⟨⟨36.75, -1.25⟩, .ofNanos 21600000000000⟩ := rfl
    have span : sixHours.timespanSeconds = 21600 := rfl
    obtain ⟨f, hf, time, critical, told, -⟩ :=
      (findings_immobility (t := sixHours) task).2.2 _ newest (by rw [span]; decide)
    have level : f.level = .critical := critical.mpr ⟨7, sixHours_immobile.1⟩
    obtain ⟨k, m, greatest, measures, tells⟩ := told level
    obtain rfl : k = 7 := greatest.unique sixHours_immobile
    have middle : centroid? ((sixHours.tail 7).fixes.reverse.map (·.point)) =
        some ⟨36.75, -1.25⟩ := by decide +kernel
    exact ⟨task, span, f, m, hf, time, level, measures, tells, measures.seconds,
      Option.some.inj (measures.centroid.symm.trans middle)⟩

end Analyzer

end Geotrack
