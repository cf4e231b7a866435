import Geotrack.Proofs.Cluster.Reduction

/-!
# Points without a place

A point without a place is near none, not even itself, so that no cluster reaches it: only its own
visit marks it. It is noise where a cluster needs points at all. Where it needs none, such a point
passes for a core point and is a cluster by itself (`label_unlocated_alone`), so that an alert
without coordinates is returned as a record of its own (`reduce_unlocated`).
-/

namespace Geotrack

namespace Density

namespace Census

variable {n : Nat} {neighbours : Neighbours n} {minSize : Nat} {s : Census n} {k : Nat}
  {p q : Fin n} {rest : List (Fin n)}

/-- A point that is near none keeps its mark when another is visited. -/
theorem markOf_visit_of_ne (apart : ∀ r, p ∉ neighbours r) (hpq : p ≠ q) :
    (visit neighbours minSize (s, k) q).1.markOf p = s.markOf p := by
  rw [visit_eq]
  split
  · split
    · exact (markOf_mark (s.ask q) q p .noise).trans (if_neg hpq.symm)
    · rcases markOf_growFrom neighbours minSize (k + 1) s hpq with same | ⟨-, -, r, near⟩
      · exact same
      · exact absurd near (apart r)
  · rfl

/-- What is known of a point that is near none, where a cluster needs no points, when the points of
`rest` are still to be visited. -/
structure Secluded (p : Fin n) (s : Census n) (k : Nat) (rest : List (Fin n)) : Prop where
  counted : s.Counted k
  told : s.markOf p = .unvisited ∧ p ∈ rest ∨
    ∃ c, s.markOf p = .cluster c ∧ ∀ q, s.markOf q = .cluster c → q = p

theorem Secluded.visit (nil : neighbours p = []) (apart : ∀ r, p ∉ neighbours r)
    (h : Secluded p s k (q :: rest)) :
    Secluded p (Census.visit neighbours 0 (s, k) q).1 (Census.visit neighbours 0 (s, k) q).2
      rest := by
  refine ⟨h.counted.visit, ?_⟩
  by_cases hpq : p = q
  · subst hpq
    rw [visit_eq]
    rcases h.told with ⟨free, -⟩ | ⟨c, hc, alone⟩
    · rw [if_pos free, if_neg (Nat.not_lt_zero _)]
      refine .inr ⟨k + 1, markOf_growFrom_self neighbours 0 (k + 1) s p, fun r hr => ?_⟩
      by_contra hrp
      rw [growFrom, nil, Census.grow, markOf_mark, if_neg (Ne.symm hrp)] at hr
      exact absurd (h.counted r (k + 1) hr).2 (by omega)
    · rw [if_neg (by simp [hc])]
      exact .inr ⟨c, hc, alone⟩
  · rw [markOf_visit_of_ne apart hpq]
    rcases h.told with ⟨free, hmem⟩ | ⟨c, hc, alone⟩
    · exact .inl ⟨free, (List.mem_cons.mp hmem).resolve_left hpq⟩
    · refine .inr ⟨c, hc, fun r hr => alone r ?_⟩
      rcases cluster_of_visit hr with old | ⟨rfl, -⟩
      · exact old
      · exact absurd (h.counted p (k + 1) hc).2 (by omega)

/-- A point that is near none is the only one of a cluster where a cluster needs no points. -/
theorem secluded_run (nil : neighbours p = []) (apart : ∀ r, p ∉ neighbours r) :
    Secluded p (run neighbours 0).1 (run neighbours 0).2 [] := by
  suffices h : ∀ (ps : List (Fin n)) (state : Census n × Nat), Secluded p state.1 state.2 ps →
      Secluded p (ps.foldl (Census.visit neighbours 0) state).1
        (ps.foldl (Census.visit neighbours 0) state).2 [] from
    h (List.finRange n) (start n, 0) ⟨counted_start, .inl ⟨markOf_start p, List.mem_finRange p⟩⟩
  intro ps
  induction ps with
  | nil => exact fun state h => h
  | cons q ps ih => exact fun state h => ih _ (h.visit nil apart)

end Census

namespace Scan

variable {n : Nat} {overflow : Overflow} {neighbours : Neighbours n} {minSize : Nat} {p q : Fin n}

/-- A growing cluster leaves the label of a point that is neither in the queue nor near any
point. -/
theorem label_grow (apart : ∀ r, p ∉ neighbours r) (number : Int32) {s t : Scan n}
    {queue : List (Fin n)} (hp : p ∉ queue) (h : s.grow neighbours minSize number queue = some t) :
    t.labelOf p = s.labelOf p := by
  revert hp
  refine Scan.grow.partial_correctness neighbours minSize number
    (fun s queue t => p ∉ queue → t.labelOf p = s.labelOf p) ?_ s queue t h
  intro grow ih s queue t h hp
  have other {q : Fin n} {l : Int32} (hq : p ≠ q) : (s.label q l).labelOf p = s.labelOf p := by
    rw [labelOf_label, if_neg (Ne.symm hq)]
  cases queue with
  | nil => rw [Option.some.inj h]
  | cons q queue =>
    obtain ⟨hpq, hp⟩ := not_or.mp (mt List.mem_cons.mpr hp)
    simp only at h
    split at h
    · exact (ih _ _ _ h hp).trans (other hpq)
    · split at h
      · refine (ih _ _ _ h ?_).trans (other hpq)
        split
        · exact fun hmem => (List.mem_append.mp hmem).elim hp (apart q)
        · exact hp
      · exact ih _ _ _ h hp

/-- Where a cluster needs points, a visit leaves a point that is near none unvisited until its own
turn, which makes it noise. -/
theorem label_visit (positive : 0 < minSize) (nil : neighbours p = [])
    (apart : ∀ r, p ∉ neighbours r) {state state' : Scan n × Int32}
    (h : Scan.visit overflow neighbours minSize state q = some state') :
    state'.1.labelOf p = if p = q ∧ state.1.labelOf p = 0 then -1 else state.1.labelOf p := by
  obtain ⟨s, k⟩ := state
  simp only [Scan.visit] at h
  split at h
  · rename_i free
    split at h
    · obtain rfl := Option.some.inj h
      change ((s.ask q).label q (-1)).labelOf p = _
      rw [labelOf_label]
      by_cases hpq : p = q
      · subst hpq
        rw [if_pos rfl, if_pos ⟨rfl, free⟩]
      · rw [if_neg (Ne.symm hpq), if_neg fun h => hpq h.1]
        rfl
    · rename_i many
      have hpq : p ≠ q := by
        rintro rfl
        rw [nil] at many
        exact many positive
      simp only [Option.bind_eq_bind, Option.bind_eq_some_iff] at h
      obtain ⟨number, -, t, grown, h⟩ := h
      obtain rfl := Option.some.inj h
      rw [if_neg fun h => hpq h.1, label_grow apart number (apart q) grown, labelOf_label,
        if_neg (Ne.symm hpq)]
      rfl
  · rename_i visited
    obtain rfl := Option.some.inj h
    rw [if_neg]
    rintro ⟨rfl, free⟩
    exact visited free

/-- Whatever the number of clusters is, a point that is near none is noise where a cluster needs
points. -/
theorem label_run (positive : 0 < minSize) (nil : neighbours p = [])
    (apart : ∀ r, p ∉ neighbours r) {state : Scan n × Int32}
    (h : Scan.run overflow neighbours minSize = some state) : state.1.labelOf p = -1 := by
  suffices main : ∀ (ps : List (Fin n)) (state state' : Scan n × Int32),
      ps.foldlM (Scan.visit overflow neighbours minSize) state = some state' →
      state.1.labelOf p = 0 ∧ p ∈ ps ∨ state.1.labelOf p = -1 → state'.1.labelOf p = -1 from
    main (List.finRange n) _ _ h (.inl ⟨by simp [Scan.start, labelOf], List.mem_finRange p⟩)
  intro ps
  induction ps with
  | nil =>
    rintro state _ h told
    obtain rfl := Option.some.inj h
    exact told.elim (fun h => absurd h.2 List.not_mem_nil) id
  | cons q ps ih =>
    intro state state' h told
    rw [List.foldlM_cons] at h
    obtain ⟨next, visited, h⟩ := Option.bind_eq_some_iff.mp h
    refine ih next state' h ?_
    rw [label_visit positive nil apart visited]
    rcases told with ⟨free, hmem⟩ | noise
    · by_cases hpq : p = q
      · exact .inr (if_pos ⟨hpq, free⟩)
      · rw [if_neg fun h => hpq h.1]
        exact .inl ⟨free, (List.mem_cons.mp hmem).resolve_left hpq⟩
    · rw [if_neg (by rintro ⟨-, free⟩; rw [noise] at free; exact absurd free (by decide))]
      exact .inr noise

end Scan

variable {α : Type} {near : α → α → Bool} {minSize : Nat} {points : List (Option α)}

/-- A point without a place is near none, and none is near it. -/
theorem reach_unlocated (near : α → α → Bool) {i : Fin points.toArray.size}
    (h : points[i.val]? = some none) :
    reach near points i = [] ∧ ∀ r, i ∉ reach near points r := by
  constructor
  · refine List.eq_nil_iff_forall_not_mem.mpr fun q hq => ?_
    obtain ⟨a, -, ha, -⟩ := mem_reach.mp hq
    rw [h] at ha
    cases ha
  · intro r hr
    obtain ⟨-, b, -, hb, -⟩ := mem_reach.mp hr
    rw [h] at hb
    cases hb

/-- A point without a place is noise where a cluster needs points. -/
theorem label_unlocated {overflow : Overflow} {ls : List Int32} (positive : 0 < minSize)
    (found : labels overflow near minSize points = some ls) {p : Nat}
    (h : points[p]? = some none) : ls[p]? = some (-1) := by
  obtain ⟨hp, -⟩ := List.getElem?_eq_some_iff.mp h
  obtain ⟨nil, apart⟩ := reach_unlocated (i := ⟨p, by simpa using hp⟩) near h
  obtain ⟨state, ran, rfl⟩ := Option.map_eq_some_iff.mp found
  rw [Vector.getElem?_toList, Vector.getElem?_eq_getElem (by simpa using hp)]
  exact congrArg some (Scan.label_run positive nil apart ran)

/-- A point without a place is the only one of a cluster where a cluster needs no points. -/
theorem label_unlocated_alone {overflow : Overflow} {ls : List Int32}
    (few : points.length < 2 ^ 31) (found : labels overflow near 0 points = some ls) {p : Nat}
    (h : points[p]? = some none) :
    ∃ l, ls[p]? = some l ∧ 0 < l ∧ ∀ q : Nat, ls[q]? = some l → q = p := by
  obtain ⟨hp, -⟩ := List.getElem?_eq_some_iff.mp h
  obtain ⟨i, rfl⟩ : ∃ i : Fin points.toArray.size, i.val = p := ⟨⟨p, by simpa using hp⟩, rfl⟩
  obtain ⟨nil, apart⟩ := reach_unlocated near h
  obtain ⟨counted, told⟩ := Census.secluded_run nil apart
  obtain ⟨c, hc, alone⟩ := told.resolve_left fun h => nomatch h.2
  have positive := (counted i c hc).1
  obtain ⟨ls', found', same⟩ := exists_labels_of_few overflow near 0 points few
  obtain rfl : ls' = ls := Option.some.inj (found'.symm.trans found)
  have number (q : Nat) (l : Int32) (hl : ls'[q]? = some l) :
      (numbers near 0 points)[q]? = some l.toInt := by rw [← same, List.getElem?_map, hl]; rfl
  have hi := (numbers_eq_iff positive).mpr hc
  rw [← same, List.getElem?_map, Option.map_eq_some_iff] at hi
  obtain ⟨l, hl, value⟩ := hi
  refine ⟨l, hl, ?_, fun q hq => ?_⟩
  · rw [Int32.lt_iff_toInt_lt, value, Int32.toInt_zero]
    exact_mod_cast positive
  · have hq := number q l hq
    rw [value] at hq
    obtain ⟨j, d, rfl, hd, -, hj⟩ := exists_cluster_of_numbers hq (by exact_mod_cast positive)
    obtain rfl : c = d := by exact_mod_cast hd
    exact congrArg Fin.val (alone j hj)

end Density

namespace Alert

/-- Whether an alert has usable coordinates. -/
def Located (alert : Alert) : Prop := (point? (normalize alert)).isSome = true

instance : DecidablePred Located := fun alert =>
  inferInstanceAs (Decidable ((point? (normalize alert)).isSome = true))

/-- A record stands for the alerts under its label, and all of these are located. -/
def StandsForLocated (alerts : List Alert) (labels : List Int32) (record : Alert) : Prop :=
  ∃ i : Nat, StandsAt alerts labels i record ∧
    ∀ j : Nat, labels[j]? = labels[i]? → ∃ alert, alerts[j]? = some alert ∧ Located alert

variable {overflow : Density.Overflow} {alerts : List Alert} {labels : List Int32}
  {radiusKm : Float} {minSize : Nat}

/-- An alert that is not located has no place. -/
theorem point?_of_unlocated {i : Nat} {alert : Alert} (hi : alerts[i]? = some alert)
    (unlocated : ¬ Located alert) : ((alerts.map normalize).map point?)[i]? = some none := by
  rw [Located, Option.not_isSome_iff_eq_none] at unlocated
  simp [hi, unlocated]

theorem reduce_ok {records : List Alert}
    (h : reduce overflow alerts radiusKm minSize = .ok (some records)) :
    ∃ labels, clusterLabels overflow alerts radiusKm minSize = some labels ∧
      records = recordsUnder alerts labels := by
  by_cases valid : Binary64.finite radiusKm = true ∧ ¬ radiusKm ≤ 0
  · rw [reduce_eq overflow alerts minSize valid.1 valid.2, Except.ok.injEq,
      Option.map_eq_some_iff] at h
    obtain ⟨labels, found, rfl⟩ := h
    exact ⟨labels, found, rfl⟩
  · rw [reduce, if_pos (by simpa [Classical.or_iff_not_imp_left] using valid)] at h
    cases h

theorem count_eq_one {i : Nat} {l : Int32} (hl : labels[i]? = some l)
    (alone : ∀ j : Nat, labels[j]? = some l → j = i) : labels.count l = 1 := by
  obtain ⟨hi, rfl⟩ := List.getElem?_eq_some_iff.mp hl
  have before : labels[i] ∉ labels.take i := by
    intro hmem
    obtain ⟨j, hj⟩ := List.mem_iff_getElem?.mp hmem
    rw [List.getElem?_take] at hj
    split at hj
    · exact absurd (alone j hj) (by omega)
    · cases hj
  have after : labels[i] ∉ labels.drop (i + 1) := by
    intro hmem
    obtain ⟨j, hj⟩ := List.mem_iff_getElem?.mp hmem
    rw [List.getElem?_drop] at hj
    exact absurd (alone _ hj) (by omega)
  calc labels.count labels[i]
      = (labels.take i ++ labels[i] :: labels.drop (i + 1)).count labels[i] := by
        rw [List.getElem_cons_drop, List.take_append_drop]
    _ = 1 := by
        rw [List.count_append, List.count_cons_self, List.count_eq_zero.mpr before,
          List.count_eq_zero.mpr after]

/-- Where a cluster needs points, a record stands for located alerts only. -/
theorem standsForLocated_of_mem (positive : 0 < minSize)
    (found : clusterLabels overflow alerts radiusKm minSize = some labels) {record : Alert}
    (h : record ∈ recordsUnder alerts labels) : StandsForLocated alerts labels record := by
  have whole := length_clusterLabels found
  obtain ⟨i, ⟨l, hl, hpos, -⟩, stands⟩ := (mem_recordsUnder whole).mp h
  refine ⟨i, stands, fun j hj => ?_⟩
  rw [hl] at hj
  obtain ⟨hj', -⟩ := List.getElem?_eq_some_iff.mp hj
  have hlt : j < alerts.length := whole ▸ hj'
  have halert : alerts[j]? = some alerts[j] := List.getElem?_eq_getElem hlt
  refine ⟨alerts[j], halert, ?_⟩
  by_contra unlocated
  have noise := Density.label_unlocated positive found (point?_of_unlocated halert unlocated)
  rw [hj, Option.some.injEq] at noise
  rw [noise] at hpos
  exact absurd hpos (by decide)

/-- Where a cluster needs no points, an alert that is not located has a record of its own. -/
theorem mem_recordsUnder_of_unlocated (few : alerts.length < 2 ^ 31)
    (found : clusterLabels overflow alerts radiusKm 0 = some labels) {alert : Alert}
    (halert : alert ∈ alerts) (unlocated : ¬ Located alert) :
    Directory.put sizeField (.integer 1) (normalize alert) ∈ recordsUnder alerts labels := by
  have whole := length_clusterLabels found
  obtain ⟨i, hi⟩ := List.mem_iff_getElem?.mp halert
  obtain ⟨l, hl, hpos, alone⟩ := Density.label_unlocated_alone (by simpa using few) found
    (point?_of_unlocated hi unlocated)
  refine (mem_recordsUnder whole).mpr ⟨i, ⟨l, hl, hpos, fun j hj hlj => ?_⟩, alert, l, hi, hl, ?_⟩
  · exact absurd (alone j hlj) (Nat.ne_of_lt hj)
  · rw [count_eq_one hl alone, Nat.cast_one]

/-- Where a cluster needs points, a point without a place is noise, and reduced alerts neither count
nor return one that is not located. Where it needs none, each of fewer than `2 ^ 31` points without
a place is a cluster by itself, and each alert that is not located is returned as a record that
counts one. Fewer than `2 ^ 31` points have labels. -/
theorem reduce_unlocated (overflow : Density.Overflow) (minSize : Nat) :
    (∀ (α : Type) (near : α → α → Bool) (points : List (Option α)),
      (points.length < 2 ^ 31 → ∃ ls, Density.labels overflow near minSize points = some ls) ∧
      ∀ (ls : List Int32) (p : Nat), Density.labels overflow near minSize points = some ls →
        points[p]? = some none →
        (0 < minSize → ls[p]? = some (-1)) ∧
        (minSize = 0 → points.length < 2 ^ 31 → ∃ l, ls[p]? = some l ∧ 0 < l ∧
          ∀ q : Nat, ls[q]? = some l → q = p)) ∧
    ∀ (alerts : List Alert) (radiusKm : Float) (records : List Alert),
      reduce overflow alerts radiusKm minSize = .ok (some records) →
      (0 < minSize → ∃ labels, clusterLabels overflow alerts radiusKm minSize = some labels ∧
        ∀ record ∈ records, StandsForLocated alerts labels record) ∧
      (minSize = 0 → alerts.length < 2 ^ 31 → ∀ alert ∈ alerts, ¬ Located alert →
        Directory.put sizeField (.integer 1) (normalize alert) ∈ records) := by
  refine ⟨fun α near points => ⟨fun few => ?_, fun ls p found hp => ⟨fun positive => ?_, ?_⟩⟩,
    fun alerts radiusKm records returned => ?_⟩
  · obtain ⟨ls, found, -⟩ := Density.exists_labels_of_few overflow near minSize points few
    exact ⟨ls, found⟩
  · exact Density.label_unlocated positive found hp
  · rintro rfl few
    exact Density.label_unlocated_alone few found hp
  · obtain ⟨labels, found, rfl⟩ := reduce_ok returned
    refine ⟨fun positive =>
      ⟨labels, found, fun record => standsForLocated_of_mem positive found⟩, ?_⟩
    rintro rfl few alert halert unlocated
    exact mem_recordsUnder_of_unlocated few found halert unlocated

/-- An alert with a latitude alone. -/
def placeless : Alert := [("lat", .integer 36)]

theorem placeless_unlocated : ¬ Located placeless := by decide +kernel

theorem reduce_placeless (overflow : Density.Overflow) (minSize : Nat) :
    ∃ labels, clusterLabels overflow [placeless] 4 minSize = some labels ∧
      reduce overflow [placeless] 4 minSize = .ok (some (recordsUnder [placeless] labels)) := by
  obtain ⟨labels, found, -⟩ := Density.exists_labels_of_few overflow
    (Density.closerThan distanceKm 4) minSize (([placeless].map normalize).map point?) (by decide)
  refine ⟨labels, found, ?_⟩
  rw [reduce_eq overflow [placeless] minSize (by decide +kernel) (by decide +kernel), clusterLabels,
    found]
  rfl

/-- A place and a point without one, under a size of one and of none, and an alert alone. -/
theorem reduce_unlocated_placeless :
    (∃ ls, Density.labels .stops (Density.closerThan Density.gap 2) 1 [some 4, none] = some ls ∧
      ls[1]? = some (-1 : Int32)) ∧
    (∃ (ls : List Int32) (l : Int32), Density.labels .stops (Density.closerThan Density.gap 2) 0
      [some 4, none] = some ls ∧ ls[1]? = some l ∧ 0 < l) ∧
    (∃ labels records, reduce .stops [placeless] 4 1 = .ok (some records) ∧
      ∀ record ∈ records, StandsForLocated [placeless] labels record) ∧
    ∃ records, reduce .wraps [placeless] 4 0 = .ok (some records) ∧
      Directory.put sizeField (.integer 1) (normalize placeless) ∈ records := by
  obtain ⟨exist, noise⟩ := (reduce_unlocated .stops 1).1 Nat (Density.closerThan Density.gap 2)
    [some 4, none]
  obtain ⟨exist₀, alone⟩ := (reduce_unlocated .stops 0).1 Nat (Density.closerThan Density.gap 2)
    [some 4, none]
  obtain ⟨ls, found⟩ := exist (by decide)
  obtain ⟨ls₀, found₀⟩ := exist₀ (by decide)
  obtain ⟨l, hl, positive, -⟩ := (alone ls₀ 1 found₀ rfl).2 rfl (by decide)
  obtain ⟨_, -, reduced⟩ := reduce_placeless .stops 1
  obtain ⟨_, -, reduced₀⟩ := reduce_placeless .wraps 0
  obtain ⟨labels, -, stand⟩ := ((reduce_unlocated .stops 1).2 _ 4 _ reduced).1 Nat.one_pos
  refine ⟨⟨ls, found, (noise ls 1 found rfl).1 Nat.one_pos⟩, ⟨ls₀, l, found₀, hl, positive⟩,
    ⟨labels, _, reduced, stand⟩, ⟨_, reduced₀, ?_⟩⟩
  exact ((reduce_unlocated .wraps 0).2 _ 4 _ reduced₀).2 rfl (by decide) placeless
    List.mem_cons_self placeless_unlocated

/-- Where a cluster needs no points, a point without a place is clustered and an alert without
coordinates returned. -/
theorem placeless_clustered :
    (¬ ∀ (overflow : Density.Overflow) (distance : Point Float → Point Float → Float) (eps : Float)
      (minSize : Nat) (points : List (Option (Point Float))) (ls : List Int32) (p : Nat),
      Density.labels overflow (Density.closerThan distance eps) minSize points = some ls →
      points[p]? = some none → ls[p]? = some (-1)) ∧
    ¬ ∀ (overflow : Density.Overflow) (alerts : List Alert) (radiusKm : Float) (minSize : Nat)
      (records : List Alert), reduce overflow alerts radiusKm minSize = .ok (some records) →
      ∀ record ∈ records, (point? record).isSome = true := by
  constructor
  · intro h
    obtain ⟨ls, found, -⟩ := Density.exists_labels_of_few .stops
      (Density.closerThan (fun _ _ : Point Float => 0) 1) 0 [none] (by decide)
    have noise := h .stops (fun _ _ => 0) 1 0 [none] ls 0 found rfl
    obtain ⟨l, hl, positive, -⟩ := Density.label_unlocated_alone (by decide) found
      (rfl : [(none : Option (Point Float))][0]? = some none)
    rw [noise, Option.some.injEq] at hl
    rw [← hl] at positive
    exact absurd positive (by decide)
  · intro h
    obtain ⟨labels, found, reduced⟩ := reduce_placeless .stops 0
    have returned := h .stops [placeless] 4 0 _ reduced _
      (mem_recordsUnder_of_unlocated (by decide) found List.mem_cons_self placeless_unlocated)
    exact absurd returned (by decide +kernel)

end Alert

end Geotrack
