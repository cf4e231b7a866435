import Geotrack.Proofs.Cluster.Partition
import Mathlib.Order.Lattice.Nat

/-!
# The numbers of clusters

A run visits the points in order, and each cluster starts from the first of its core points: what
lies before it has been visited, so that a core point there is in an earlier cluster. `Numbered`
says where this stands when some points are still to be visited; a visit keeps it
(`Numbered.visit`). A border point belongs to the first cluster that reaches it, which is that of
the least number. `numbers_isNumbering` says so of the points of a list, and `count_eq_ncard_leads`
counts the clusters without a word on how they are found.
-/

namespace Geotrack.Density

section Spec

variable {α : Type} (near : α → α → Bool) (minSize : Nat) (points : List (Option α))

/-- The core points under a label. -/
def coresOf (labels : List Int) (l : Int) : Set Nat :=
  {p | Core near minSize points p ∧ labels[p]? = some l}

/-- The labels of the core points that a point is near. -/
def labelsAround (labels : List Int) (p : Nat) : Set Int :=
  {l | ∃ q, Core near minSize points q ∧ InReach near points q p ∧ labels[q]? = some l}

/-- Labels that number the clusters of some points by their first core points. -/
structure IsNumbering (labels : List Int) : Prop where
  /-- The positive labels are the numbers from 1 to that of the clusters. -/
  positive : ∃ clusters : Nat, ∀ l : Int, 0 < l → (l ∈ labels ↔ l ≤ clusters)
  exists_first : ∀ l ∈ labels, 0 < l → ∃ p, IsLeast (coresOf near minSize points labels l) p
  first_lt_iff : ∀ l m p q, IsLeast (coresOf near minSize points labels l) p →
    IsLeast (coresOf near minSize points labels m) q → (p < q ↔ l < m)
  border : ∀ p l, labels[p]? = some l → 0 < l → ¬ Core near minSize points p →
    IsLeast (labelsAround near minSize points labels p) l

/-- The first core points of the clusters: no chain leads to one from an earlier point. -/
def leads : Set Nat :=
  {p | Core near minSize points p ∧
    ∀ q < p, ¬ Relation.ReflTransGen (CoreLink near minSize points) q p}

end Spec

/-! ### Numbers in a census -/

namespace Census

variable {n : Nat} {neighbours : Neighbours n} {minSize : Nat} {s : Census n} {k : Nat} {p : Fin n}
  {rest : List (Fin n)}

/-- Where the numbers of clusters stand when the points of `rest` are still to be visited. -/
structure Numbered (neighbours : Neighbours n) (minSize : Nat) (s : Census n) (k : Nat)
    (rest : List (Fin n)) : Prop where
  settled : Settled neighbours minSize (s, k)
  visited : ∀ q, q ∉ rest → s.markOf q ≠ .unvisited
  /-- Every number has been given to a core point that lies before the rest. -/
  given : ∀ c, 1 ≤ c → c ≤ k → ∃ r, neighbours.IsCore minSize r ∧ s.markOf r = .cluster c ∧
    ∀ q ∈ rest, r < q
  /-- A core point has none of the numbers up to its own all behind it. -/
  ordered : ∀ q d, neighbours.IsCore minSize q → s.markOf q = .cluster d → ∀ c, 1 ≤ c → c ≤ d →
    ∃ r ≤ q, neighbours.IsCore minSize r ∧ s.markOf r = .cluster c
  /-- What is near a core point has no larger number. -/
  least : ∀ r q c d, neighbours.IsCore minSize r → s.markOf r = .cluster c → q ∈ neighbours r →
    s.markOf q = .cluster d → d ≤ c

theorem Numbered.of_marks {t : Census n} (h : Numbered neighbours minSize s k rest)
    (e : t.marks = s.marks) : Numbered neighbours minSize t k rest := by
  obtain ⟨marks, asked⟩ := t
  obtain rfl : marks = s.marks := e
  exact ⟨h.settled.of_marks rfl, h.visited, h.given, h.ordered, h.least⟩

theorem Numbered.visited_of_ne {q : Fin n} (h : Numbered neighbours minSize s k (p :: rest))
    (hq : q ∉ rest) (hqp : q ≠ p) : s.markOf q ≠ .unvisited :=
  h.visited q fun hmem => (List.mem_cons.mp hmem).elim hqp hq

theorem numbered_start (rest : List (Fin n)) (all : ∀ q, q ∈ rest) :
    Numbered neighbours minSize (start n) 0 rest := by
  refine ⟨settled_start, fun q hq => absurd (all q) hq, fun c hc hk => by omega, ?_, ?_⟩
  all_goals intros; simp_all

/-- Noise has no part in the numbers. -/
theorem Numbered.markNoise (h : Numbered neighbours minSize s k (p :: rest))
    (free : s.markOf p = .unvisited) (few : ¬ neighbours.IsCore minSize p) :
    Numbered neighbours minSize (s.mark p .noise) k rest := by
  have same : ∀ {q : Fin n} {c}, (s.mark p .noise).markOf q = .cluster c ↔
      s.markOf q = .cluster c := markNoise_iff free
  refine ⟨h.settled.markNoise free few, ?_, ?_, ?_, ?_⟩
  · intro q hq
    rw [markOf_mark]
    split
    · exact fun e => nomatch e
    · rename_i hpq
      exact h.visited_of_ne hq fun e => hpq e.symm
  · intro c hc hk
    obtain ⟨r, core, hr, before⟩ := h.given c hc hk
    exact ⟨r, core, same.mpr hr, fun q hq => before q (List.mem_cons_of_mem p hq)⟩
  · simpa only [same] using h.ordered
  · simpa only [same] using h.least

/-- A core point without a cluster has not been visited, so that it does not lie before the rest. -/
theorem Numbered.le_of_free {q : Fin n} (increasing : (p :: rest).Pairwise (· < ·))
    (h : Numbered neighbours minSize s k (p :: rest)) (core : neighbours.IsCore minSize q)
    (free : ∀ c, s.markOf q ≠ .cluster c) : p ≤ q := by
  have hmem : q ∈ p :: rest := by
    by_contra hmem
    obtain ⟨c, hc⟩ := h.settled.exists_cluster (h.visited q hmem) core
    exact free c hc
  rcases List.mem_cons.mp hmem with rfl | hmem
  · exact Fin.le_refl q
  · exact Fin.le_of_lt ((List.pairwise_cons.mp increasing).1 q hmem)

/-- A cluster that grows from the next point has the next number. -/
theorem Numbered.seed (symm : ∀ p q, q ∈ neighbours p → p ∈ neighbours q)
    (increasing : (p :: rest).Pairwise (· < ·))
    (h : Numbered neighbours minSize s k (p :: rest)) (free : s.markOf p = .unvisited)
    (core : neighbours.IsCore minSize p) :
    Numbered neighbours minSize (growFrom neighbours minSize (k + 1) s p) (k + 1) rest := by
  obtain ⟨after, -⟩ := List.pairwise_cons.mp increasing
  have settled : Settled neighbours minSize (growFrom neighbours minSize (k + 1) s p, k + 1) :=
    Growing.grow symm (Nat.le_add_left 1 k) ((h.settled.seed symm free core).of_marks rfl)
  have self := markOf_growFrom_self neighbours minSize (k + 1) s p
  generalize ht : growFrom neighbours minSize (k + 1) s p = t at settled self ⊢
  -- a point keeps its mark, or it joins the new cluster
  have joined : ∀ q, t.markOf q = s.markOf q ∨
      (∀ c, s.markOf q ≠ .cluster c) ∧ t.markOf q = .cluster (k + 1) := by
    intro q
    by_cases hqp : q = p
    · subst hqp
      exact .inr ⟨fun c hc => (by rw [free] at hc; cases hc), self⟩
    · rw [← ht]
      exact (markOf_growFrom neighbours minSize (k + 1) s hqp).imp_right fun hq => ⟨hq.1, hq.2.1⟩
  have stays : ∀ {q c}, s.markOf q = .cluster c → t.markOf q = .cluster c := by
    intro q c hq
    rcases joined q with same | ⟨free', -⟩
    · rw [same, hq]
    · exact absurd hq (free' c)
  have old : ∀ {q d}, t.markOf q = .cluster d → s.markOf q = .cluster d ∨
      (∀ c, s.markOf q ≠ .cluster c) ∧ d = k + 1 := by
    intro q d hq
    rcases joined q with same | ⟨free', new⟩
    · exact .inl (same ▸ hq)
    · exact .inr ⟨free', by rw [new] at hq; injection hq with hq; exact hq.symm⟩
  have given : ∀ c, 1 ≤ c → c ≤ k + 1 → ∃ r ≤ p, neighbours.IsCore minSize r ∧
      t.markOf r = .cluster c := by
    intro c hc hk
    rcases Nat.lt_or_eq_of_le hk with hlt | rfl
    · obtain ⟨r, corer, hr, before⟩ := h.given c hc (Nat.le_of_lt_succ hlt)
      exact ⟨r, Fin.le_of_lt (before p List.mem_cons_self), corer, stays hr⟩
    · exact ⟨p, Fin.le_refl p, core, self⟩
  refine ⟨settled, ?_, ?_, ?_, ?_⟩
  · intro q hq
    rcases joined q with same | ⟨-, new⟩
    · rw [same]
      refine h.visited_of_ne hq ?_
      rintro rfl
      rw [self, free] at same
      cases same
    · rw [new]
      exact fun e => nomatch e
  · intro c hc hk
    obtain ⟨r, hrp, corer, hr⟩ := given c hc hk
    exact ⟨r, corer, hr, fun q hq => Fin.lt_of_le_of_lt hrp (after q hq)⟩
  · intro q d coreq hq c hc hd
    rcases old hq with hq' | ⟨free', rfl⟩
    · obtain ⟨r, hrq, corer, hr⟩ := h.ordered q d coreq hq' c hc hd
      exact ⟨r, hrq, corer, stays hr⟩
    · obtain ⟨r, hrp, corer, hr⟩ := given c hc hd
      exact ⟨r, Fin.le_trans hrp (h.le_of_free increasing coreq free'), corer, hr⟩
  · intro r q c d corer hr near hq
    rcases old hr with hr' | ⟨-, rfl⟩
    · -- what is near an old core point has been clustered with it or before
      rcases h.settled.closed r c hr' corer q near with ⟨e, he⟩ | ⟨-, hnone⟩
      · have := h.least r q c e corer hr' near he
        rw [stays he] at hq
        injection hq with hq
        omega
      · cases hnone
    · exact (settled.bounds q d hq).2

theorem Numbered.visit (symm : ∀ p q, q ∈ neighbours p → p ∈ neighbours q)
    (increasing : (p :: rest).Pairwise (· < ·))
    (h : Numbered neighbours minSize s k (p :: rest)) :
    Numbered neighbours minSize (Census.visit neighbours minSize (s, k) p).1
      (Census.visit neighbours minSize (s, k) p).2 rest := by
  rw [visit_eq]
  split
  · rename_i free
    split
    · rename_i few
      exact (h.markNoise free (Nat.not_le.mpr few)).of_marks rfl
    · rename_i many
      exact h.seed symm increasing free (Nat.not_lt.mp many)
  · rename_i done
    refine ⟨h.settled, ?_, ?_, h.ordered, h.least⟩
    · intro q hq
      by_cases hqp : q = p
      · exact hqp ▸ done
      · exact h.visited_of_ne hq hqp
    · intro c hc hk
      obtain ⟨r, core, hr, before⟩ := h.given c hc hk
      exact ⟨r, core, hr, fun q hq => before q (List.mem_cons_of_mem p hq)⟩

theorem numbered_run (symm : ∀ p q, q ∈ neighbours p → p ∈ neighbours q) :
    Numbered neighbours minSize (run neighbours minSize).1 (run neighbours minSize).2 [] := by
  suffices h : ∀ (ps : List (Fin n)) (state : Census n × Nat), ps.Pairwise (· < ·) →
      Numbered neighbours minSize state.1 state.2 ps →
      Numbered neighbours minSize (ps.foldl (Census.visit neighbours minSize) state).1
        (ps.foldl (Census.visit neighbours minSize) state).2 [] from
    h (List.finRange n) (start n, 0) (List.pairwise_lt_finRange n)
      (numbered_start _ List.mem_finRange)
  intro ps
  induction ps with
  | nil => exact fun state _ h => h
  | cons p ps ih =>
    intro state increasing h
    exact ih _ (List.pairwise_cons.mp increasing).2 (h.visit symm increasing)

end Census

/-! ### Numbers of points -/

variable {α : Type} {near : α → α → Bool} {minSize : Nat} {points : List (Option α)}

theorem numbers_eq_iff {i : Fin points.toArray.size} {c : Nat} (positive : 0 < c) :
    (numbers near minSize points)[i.val]? = some (c : Int) ↔
      (finished near minSize points).markOf i = .cluster c := by
  rw [numbers_getElem?, Option.some.injEq]
  cases (finished near minSize points).markOf i with
  | unvisited => simp [Mark.label]; omega
  | noise => simp [Mark.label]
  | cluster d => simp [Mark.label]

/-- A positive label is the number of a cluster. -/
theorem exists_cluster_of_numbers {p : Nat} {l : Int}
    (h : (numbers near minSize points)[p]? = some l) (positive : 0 < l) :
    ∃ (i : Fin points.toArray.size) (c : Nat), i.val = p ∧ l = c ∧ 0 < c ∧
      (finished near minSize points).markOf i = .cluster c := by
  obtain ⟨hp, -⟩ := List.getElem?_eq_some_iff.mp h
  obtain ⟨c, rfl⟩ := Int.eq_ofNat_of_zero_le (Int.le_of_lt positive)
  have hc : 0 < c := by exact_mod_cast positive
  refine ⟨⟨p, by simpa using hp⟩, c, rfl, rfl, hc, ?_⟩
  exact (numbers_eq_iff hc).mp h

/-- A core point is in a cluster. -/
theorem Core.exists_cluster (symm : ∀ a b, near a b = near b a) {p : Nat}
    (h : Core near minSize points p) :
    ∃ (i : Fin points.toArray.size) (c : Nat), i.val = p ∧ 0 < c ∧
      (reach near points).IsCore minSize i ∧
      (finished near minSize points).markOf i = .cluster c := by
  obtain ⟨i, rfl, core⟩ := h.exists_fin
  obtain ⟨settled, visited⟩ := @Census.settled_run _ (reach near points) minSize (reach_symm symm)
  obtain ⟨c, hc⟩ := settled.exists_cluster (visited i) core
  exact ⟨i, c, rfl, (settled.bounds i c hc).1, core, hc⟩

/-- A core point has a positive label. -/
theorem Core.exists_label (symm : ∀ a b, near a b = near b a) {p : Nat}
    (h : Core near minSize points p) :
    ∃ l, 0 < l ∧ (numbers near minSize points)[p]? = some l := by
  obtain ⟨i, c, rfl, positive, -, hc⟩ := h.exists_cluster symm
  exact ⟨c, by exact_mod_cast positive, (numbers_eq_iff positive).mpr hc⟩

/-- The positive numbers are those up to the count of clusters. -/
theorem mem_numbers_iff (symm : ∀ a b, near a b = near b a) {l : Int} (positive : 0 < l) :
    l ∈ numbers near minSize points ↔ l ≤ Census.count (reach near points) minSize := by
  have numbered := @Census.numbered_run _ (reach near points) minSize (reach_symm symm)
  constructor
  · intro hl
    obtain ⟨p, hp⟩ := List.mem_iff_getElem?.mp hl
    obtain ⟨i, c, -, rfl, -, hc⟩ := exists_cluster_of_numbers hp positive
    exact_mod_cast (numbered.settled.bounds i c hc).2
  · intro hl
    obtain ⟨c, rfl⟩ := Int.eq_ofNat_of_zero_le (Int.le_of_lt positive)
    have hc : 0 < c := by exact_mod_cast positive
    obtain ⟨r, -, hr, -⟩ := numbered.given c hc (by exact_mod_cast hl)
    exact List.mem_of_getElem? ((numbers_eq_iff hc).mpr hr)

theorem numbers_isNumbering (symm : ∀ a b, near a b = near b a) :
    IsNumbering near minSize points (numbers near minSize points) := by
  have numbered := @Census.numbered_run _ (reach near points) minSize (reach_symm symm)
  have core {p : Nat} {l : Int} (corep : Core near minSize points p)
      (hl : (numbers near minSize points)[p]? = some l) :
      ∃ (i : Fin points.toArray.size) (c : Nat), i.val = p ∧ l = c ∧ 0 < c ∧
        (reach near points).IsCore minSize i ∧
        (finished near minSize points).markOf i = .cluster c := by
    obtain ⟨i, c, rfl, positive, corei, hc⟩ := corep.exists_cluster symm
    rw [(numbers_eq_iff positive).mpr hc] at hl
    exact ⟨i, c, rfl, (Option.some.inj hl).symm, positive, corei, hc⟩
  refine ⟨⟨_, fun l => mem_numbers_iff symm⟩, ?_, ?_, ?_⟩
  · intro l hl positive
    obtain ⟨p, hp⟩ := List.mem_iff_getElem?.mp hl
    obtain ⟨i, c, -, rfl, hc, hi⟩ := exists_cluster_of_numbers hp positive
    obtain ⟨r, corer, hr, -⟩ := numbered.given c hc (numbered.settled.bounds i c hi).2
    have some : (coresOf near minSize points (numbers near minSize points) c).Nonempty :=
      ⟨r, core_iff_isCore.mpr corer, (numbers_eq_iff hc).mpr hr⟩
    exact ⟨_, Nat.sInf_mem some, fun q hq => Nat.sInf_le hq⟩
  · have mono {l m : Int} {p q : Nat}
        (hp : IsLeast (coresOf near minSize points (numbers near minSize points) l) p)
        (hq : IsLeast (coresOf near minSize points (numbers near minSize points) m) q)
        (hlm : l ≤ m) : p ≤ q := by
      obtain ⟨-, c, -, rfl, hc, -⟩ := core hp.1.1 hp.1.2
      obtain ⟨j, d, rfl, rfl, -, corej, hj⟩ := core hq.1.1 hq.1.2
      obtain ⟨r, hrj, corer, hr⟩ := numbered.ordered j d corej hj c hc (by exact_mod_cast hlm)
      have first : p ≤ r.val := hp.2 ⟨core_iff_isCore.mpr corer, (numbers_eq_iff hc).mpr hr⟩
      exact first.trans hrj
    intro l m p q hp hq
    refine ⟨fun hpq => ?_, fun hlm => ?_⟩
    · by_contra hml
      exact absurd (mono hq hp (Int.not_lt.mp hml)) (Nat.not_le.mpr hpq)
    · refine Nat.lt_of_le_of_ne (mono hp hq hlm.le) ?_
      rintro rfl
      have : some l = some m := hp.1.2.symm.trans hq.1.2
      exact hlm.ne (Option.some.inj this)
  · intro p l hl positive border
    obtain ⟨i, c, rfl, rfl, hc, hi⟩ := exists_cluster_of_numbers hl positive
    refine ⟨?_, ?_⟩
    · rcases numbered.settled.support i c hi with corei | ⟨r, corer, hr, near⟩
      · exact absurd (core_iff_isCore.mpr corei) border
      · exact ⟨r, core_iff_isCore.mpr corer, mem_reach.mp near, (numbers_eq_iff hc).mpr hr⟩
    · rintro m ⟨q, coreq, near, hq⟩
      obtain ⟨j, d, rfl, rfl, -, corej, hj⟩ := core coreq hq
      exact_mod_cast numbered.least j i d c corej hj (mem_reach.mpr near) hi

theorem leads_subset : leads near minSize points ⊆ Set.Iio points.length := fun _ hp => hp.1.1

/-- A chain of core points leads to a core point only from one. -/
theorem core_of_chain {p q : Nat} (hp : Core near minSize points p)
    (chain : Relation.ReflTransGen (CoreLink near minSize points) q p) :
    Core near minSize points q := by
  rcases Relation.ReflTransGen.cases_head chain with rfl | ⟨_, link, -⟩
  · exact hp
  · exact link.1

/-- The leads are the first core points under the positive numbers. -/
theorem mem_leads_iff (symm : ∀ a b, near a b = near b a) {p : Nat} :
    p ∈ leads near minSize points ↔
      ∃ l > 0, IsLeast (coresOf near minSize points (numbers near minSize points) l) p := by
  have partition : IsPartition near minSize points (numbers near minSize points) :=
    numbers_isPartition symm
  constructor
  · rintro ⟨core, first⟩
    obtain ⟨l, positive, hl⟩ := core.exists_label symm
    refine ⟨l, positive, ⟨core, hl⟩, fun q ⟨coreq, hq⟩ => ?_⟩
    by_contra hqp
    exact first q (Nat.not_le.mp hqp) ((partition.core_iff q p coreq core).mp (hq.trans hl.symm))
  · rintro ⟨l, -, ⟨core, hl⟩, least⟩
    refine ⟨core, fun q hqp chain => ?_⟩
    have coreq := core_of_chain core chain
    have hq := ((partition.core_iff q p coreq core).mpr chain).trans hl
    exact absurd (least ⟨coreq, hq⟩) (Nat.not_le.mpr hqp)

/-- A run counts one cluster for each lead. -/
theorem count_eq_ncard_leads (symm : ∀ a b, near a b = near b a) :
    Census.count (reach near points) minSize = (leads near minSize points).ncard := by
  have numbering : IsNumbering near minSize points (numbers near minSize points) :=
    numbers_isNumbering symm
  have exists_first (i : Nat) (hi : i < Census.count (reach near points) minSize) :
      ∃ p, IsLeast (coresOf near minSize points (numbers near minSize points) (i + 1 : Nat)) p := by
    have positive : (0 : Int) < (i + 1 : Nat) := by omega
    exact numbering.exists_first _ ((mem_numbers_iff symm positive).mpr (by omega)) positive
  choose first isFirst using exists_first
  refine (Set.ncard_eq_of_bijective first ?_ ?_ ?_).symm
  · intro p hp
    obtain ⟨l, positive, least⟩ := (mem_leads_iff symm).mp hp
    have few := (mem_numbers_iff symm positive).mp (List.mem_of_getElem? least.1.2)
    obtain ⟨i, rfl⟩ : ∃ i : Nat, l = (i + 1 : Nat) := ⟨l.toNat - 1, by omega⟩
    have hi : i < Census.count (reach near points) minSize := by omega
    exact ⟨i, hi, (isFirst i hi).unique least⟩
  · intro i hi
    exact (mem_leads_iff symm).mpr ⟨_, by omega, isFirst i hi⟩
  · intro i j hi hj same
    have hl := (isFirst i hi).1.2.symm.trans (same ▸ (isFirst j hj).1.2)
    have := Option.some.inj hl
    omega

end Geotrack.Density
