import Mathlib.Data.List.Basic
import Mathlib.Data.List.Induction
import Mathlib.Algebra.BigOperators.Group.List.Basic
import Geotrack.Cluster.Alert
import Geotrack.Proofs.Cluster.Labels
import Geotrack.Proofs.Number.Binary64

/-!
# Reduced alerts

Each group of alerts belongs to the position at which its label stands for the first time:
`firsts` are these positions in order. `groups_eq` reads the groups off them, and
`reduce_representatives` says of a reduction that it returns the alerts at these positions, each
with the number of alerts under its label, and that no alert with a positive label is lost.
-/

namespace Geotrack.Alert

variable {α : Type} {labels : List Int32} {records : List α}

/-! ### First positions -/

/-- The positions at which a positive label stands for the first time. -/
def firsts (labels : List Int32) : List Nat :=
  (List.range labels.length).filter fun i => labels[i]?.any fun l => 0 < l ∧ l ∉ labels.take i

theorem firsts_increasing : (firsts labels).Pairwise (· < ·) :=
  List.pairwise_lt_range.filter _

theorem mem_firsts {i : Nat} :
    i ∈ firsts labels ↔ ∃ l, labels[i]? = some l ∧ 0 < l ∧ ∀ j < i, labels[j]? ≠ some l := by
  have before (l : Int32) : l ∉ labels.take i ↔ ∀ j < i, labels[j]? ≠ some l := by
    simp only [List.mem_iff_getElem?, List.getElem?_take, not_exists]
    grind
  simp only [firsts, List.mem_filter, List.mem_range, Option.any_eq_true, decide_eq_true_eq, before]
  exact ⟨fun h => h.2, fun ⟨l, hl, h⟩ => ⟨(List.getElem?_eq_some_iff.mp hl).1, l, hl, h⟩⟩

theorem firsts_concat (labels : List Int32) (l : Int32) :
    firsts (labels ++ [l]) =
      firsts labels ++ if 0 < l ∧ l ∉ labels then [labels.length] else [] := by
  unfold firsts
  rw [List.length_append, List.length_singleton, List.range_succ, List.filter_append]
  congr 1
  · refine List.filter_congr fun i hi => ?_
    have hi := List.mem_range.mp hi
    rw [List.getElem?_append_left hi, List.take_append_of_le_length (Nat.le_of_lt hi)]
  · by_cases h : 0 < l ∧ l ∉ labels <;> simp [h]

/-- The positive labels, each once, are those at the first positions. -/
theorem eraseDups_positive (labels : List Int32) :
    (labels.filter (0 < ·)).eraseDups.map some = (firsts labels).map (labels[·]?) := by
  induction labels using List.reverseRecOn with
  | nil => rfl
  | append_singleton labels l ih =>
    have old : (firsts labels).map ((labels ++ [l])[·]?) = (firsts labels).map (labels[·]?) := by
      refine List.map_congr_left fun i hi => ?_
      obtain ⟨k, hk, -⟩ := mem_firsts.mp hi
      exact List.getElem?_append_left (List.getElem?_eq_some_iff.mp hk).1
    rw [firsts_concat, List.map_append, old, List.filter_append, List.eraseDups_append,
      List.map_append, ih]
    congr 1
    by_cases positive : 0 < l
    · by_cases known : l ∈ labels <;> simp [positive, known, List.removeAll, List.eraseDups_cons]
    · simp [positive, List.removeAll]

/-! ### Groups -/

/-- The records whose label is that at a position, in order. -/
def members (records : List α) (labels : List Int32) (i : Nat) : List α :=
  ((labels.zip records).filter fun p => labels[i]? = some p.1).map (·.2)

/-- The labels that have a record. -/
theorem zip_labels : (labels.zip records).map (·.1) = labels.take records.length := by
  rw [List.zip_eq_zip_take_min, List.map_fst_zip (by simp), List.take_eq_take_iff]
  simp [Nat.min_comm]

/-- A list over the positive labels is one over their first positions. -/
theorem map_eraseDups_positive {β : Type} {f : Int32 → β} {g : Nat → β}
    (same : ∀ i l, labels[i]? = some l → g i = f l) :
    (labels.filter (0 < ·)).eraseDups.map f = (firsts labels).map g := by
  calc (labels.filter (0 < ·)).eraseDups.map f
      = ((labels.filter (0 < ·)).eraseDups.map some).filterMap (·.map f) := by
        simp [List.filterMap_map]
    _ = (firsts labels).filterMap fun i => labels[i]?.map f := by
        rw [eraseDups_positive, List.filterMap_map]
        rfl
    _ = (firsts labels).map g := by
        rw [← List.filterMap_eq_map]
        refine List.filterMap_congr fun i hi => ?_
        obtain ⟨l, hl, -⟩ := mem_firsts.mp hi
        simp [hl, same i l hl]

theorem groups_eq : groups records labels =
    (firsts (labels.take records.length)).map (members records labels) := by
  have keys : ((labels.zip records).filter fun p => 0 < p.1).map (·.1) =
      (labels.take records.length).filter (0 < ·) := by
    rw [← zip_labels, List.filter_map]
    rfl
  have under {l : Int32} (positive : 0 < l) :
      ((labels.zip records).filter fun p => 0 < p.1).filter (·.1 = l) =
        (labels.zip records).filter (·.1 = l) := by
    rw [List.filter_filter]
    refine List.filter_congr fun p _ => ?_
    by_cases h : p.1 = l <;> simp [h, positive]
  rw [← map_eraseDups_positive (f := fun l => ((labels.zip records).filter (·.1 = l)).map (·.2))]
  · simp only [groups, keys]
    refine List.map_congr_left fun l hl => ?_
    rw [under (by simpa using (List.mem_filter.mp (List.mem_eraseDups.mp hl)).2)]
  · intro i l hl
    have hl : labels[i]? = some l := by
      rw [List.getElem?_take] at hl
      split at hl
      · exact hl
      · cases hl
    simp [members, hl, eq_comm]

/-- The first record of a group is the one at the group's position. -/
theorem members_head? {i : Nat} (hi : i ∈ firsts (labels.take records.length)) :
    (members records labels i).head? = records[i]? := by
  obtain ⟨l, hl, -, before⟩ := mem_firsts.mp hi
  rw [List.getElem?_take] at hl
  split at hl
  · rename_i hn
    have zipped : (labels.zip records)[i]? = some (l, records[i]) := by
      simp [List.getElem?_zip_eq_some, hl]
    have found : (labels.zip records).find? (fun p => labels[i]? = some p.1) =
        some (l, records[i]) := by
      rw [List.find?_eq_some_iff_getElem]
      obtain ⟨hz, hp⟩ := List.getElem?_eq_some_iff.mp zipped
      refine ⟨by simpa using hl, i, hz, hp, fun j hj => ?_⟩
      have := before j hj
      grind
    rw [members, List.head?_map, List.head?_filter, found]
    simp [hn]
  · cases hl

theorem members_length {i : Nat} {l : Int32} (hl : labels[i]? = some l) :
    (members records labels i).length = (labels.take records.length).count l := by
  rw [members, List.length_map, ← zip_labels, ← List.countP_eq_length_filter, List.count,
    List.countP_map]
  exact List.countP_congr fun p _ => by simp [hl, eq_comm (a := l)]

/-- Lists under the keys of a list make up the list, when no key comes twice and none is missing. -/
theorem flatMap_filter_perm {κ : Type} [DecidableEq κ] (key : α → κ) {keys : List κ}
    {xs : List α} (once : keys.Nodup) (all : ∀ x ∈ xs, key x ∈ keys) :
    (keys.flatMap fun k => xs.filter (key · = k)).Perm xs := by
  induction keys generalizing xs with
  | nil => simpa [List.eq_nil_iff_forall_not_mem] using all
  | cons k keys ih =>
    obtain ⟨fresh, once⟩ := List.nodup_cons.mp once
    have others : (keys.flatMap fun c => (xs.filter (key · ≠ k)).filter (key · = c)) =
        keys.flatMap fun c => xs.filter (key · = c) := by
      refine List.flatMap_congr fun c hc => ?_
      have : c ≠ k := fun h => fresh (h ▸ hc)
      rw [List.filter_filter]
      exact List.filter_congr fun x _ => by grind
    have rest := @ih (xs.filter (key · ≠ k)) once fun x hx => by
      obtain ⟨hx, hk⟩ := List.mem_filter.mp hx
      exact (List.mem_cons.mp (all x hx)).resolve_left (by simpa using hk)
    rw [others] at rest
    rw [List.flatMap_cons]
    exact (rest.append_left _).trans (by simpa using List.filter_append_perm (key · = k) xs)

theorem eraseDups_nodup : ∀ keys : List Int32, keys.eraseDups.Nodup
  | [] => by simp
  | k :: keys => by
    rw [List.eraseDups_cons, List.nodup_cons]
    exact ⟨by simp, eraseDups_nodup _⟩
termination_by keys => keys.length
decreasing_by exact Nat.lt_succ_of_le (List.length_filter_le _ _)

/-- Every record with a positive label is in one group, and no other record is in any. -/
theorem groups_flatten_perm : (groups records labels).flatten.Perm
    (((labels.zip records).filter (0 < ·.1)).map (·.2)) := by
  have all := flatMap_filter_perm (Prod.fst : Int32 × α → Int32)
    (eraseDups_nodup (((labels.zip records).filter fun p => 0 < p.1).map (·.1)))
    fun p hp => List.mem_eraseDups.mpr (List.mem_map_of_mem hp)
  have flat : (groups records labels).flatten =
      ((((labels.zip records).filter fun p => 0 < p.1).map (·.1)).eraseDups.flatMap fun l =>
        ((labels.zip records).filter fun p => 0 < p.1).filter (·.1 = l)).map (·.2) := by
    simp [groups, List.flatMap_def, List.map_flatten, Function.comp_def]
  rw [flat]
  exact all.map _

/-! ### Reductions -/

/-- A positive label stands at a position and at none before it. -/
def IsFirst (labels : List Int32) (i : Nat) : Prop :=
  ∃ l, labels[i]? = some l ∧ 0 < l ∧ ∀ j < i, labels[j]? ≠ some l

/-- The labels that alerts are reduced by. -/
def clusterLabels (overflow : Density.Overflow) (alerts : List Alert) (radiusKm : Float)
    (minSize : Nat) : Option (List Int32) :=
  Density.labels overflow (Density.closerThan distanceKm radiusKm) minSize
    ((alerts.map normalize).map point?)

theorem length_clusterLabels {overflow : Density.Overflow} {alerts : List Alert} {radiusKm : Float}
    {minSize : Nat} (h : clusterLabels overflow alerts radiusKm minSize = some labels) :
    labels.length = alerts.length := by
  simpa using Density.length_labels h

/-- A record is the alert at a position with the number of alerts under its label. -/
def StandsAt (alerts : List Alert) (labels : List Int32) (i : Nat) (record : Alert) : Prop :=
  ∃ alert l, alerts[i]? = some alert ∧ labels[i]? = some l ∧
    record = Directory.put sizeField (.integer (labels.count l)) (normalize alert)

/-- The number of alerts that a record stands for. -/
def size (record : Alert) : Int :=
  match Directory.find? sizeField record with
  | some (.integer n) => n
  | _ => 0

theorem representative?_members {alerts : List Alert} (whole : labels.length = alerts.length)
    {i : Nat} (hi : i ∈ firsts labels) :
    ∃ record, representative? (members (alerts.map normalize) labels i) = some record ∧
      StandsAt alerts labels i record ∧
      size record = (members (alerts.map normalize) labels i).length := by
  have paired : labels.take (alerts.map normalize).length = labels :=
    List.take_of_length_le (by simp [whole])
  obtain ⟨l, hl, -⟩ := mem_firsts.mp hi
  obtain ⟨hi', -⟩ := List.getElem?_eq_some_iff.mp hl
  have first : (members (alerts.map normalize) labels i).head? = some (normalize alerts[i]) := by
    rw [members_head? (by rwa [paired]), List.getElem?_map, List.getElem?_eq_getElem (whole ▸ hi')]
    rfl
  have length : (members (alerts.map normalize) labels i).length = labels.count l := by
    rw [members_length hl, paired]
  refine ⟨_, by rw [representative?, first, length]; rfl, ⟨alerts[i], l, by simp, hl, rfl⟩, ?_⟩
  rw [length, size, Directory.find?_put, if_pos rfl]

theorem forall₂_filterMap {β : Type} {r : Nat → β → Prop} {f : Nat → Option β} {is : List Nat}
    (h : ∀ i ∈ is, ∃ b, f i = some b ∧ r i b) : List.Forall₂ r is (is.filterMap f) := by
  induction is with
  | nil => exact .nil
  | cons i is ih =>
    obtain ⟨⟨b, hb, hr⟩, rest⟩ := List.forall_mem_cons.mp h
    rw [List.filterMap_cons_some hb]
    exact .cons hr (ih rest)

/-- The records that alerts are reduced to under some labels. -/
def recordsUnder (alerts : List Alert) (labels : List Int32) : List Alert :=
  (groups (alerts.map normalize) labels).filterMap representative?

theorem recordsUnder_eq {alerts : List Alert} (whole : labels.length = alerts.length) :
    recordsUnder alerts labels = (firsts labels).filterMap fun i =>
      representative? (members (alerts.map normalize) labels i) := by
  have paired : labels.take (alerts.map normalize).length = labels :=
    List.take_of_length_le (by simp [whole])
  rw [recordsUnder, groups_eq, paired, List.filterMap_map]
  rfl

/-- The records are those that stand for the alerts at the first positions. -/
theorem mem_recordsUnder {alerts : List Alert} (whole : labels.length = alerts.length)
    {record : Alert} : record ∈ recordsUnder alerts labels ↔
      ∃ i, IsFirst labels i ∧ StandsAt alerts labels i record := by
  rw [recordsUnder_eq whole, List.mem_filterMap]
  refine exists_congr fun i => ?_
  rw [mem_firsts, ← IsFirst]
  refine and_congr_right fun first => ?_
  obtain ⟨record', hrecord', stands, -⟩ := representative?_members whole (mem_firsts.mpr first)
  rw [hrecord', Option.some.injEq]
  constructor
  · rintro rfl
    exact stands
  · rintro ⟨alert, l, halert, hl, rfl⟩
    obtain ⟨alert', l', halert', hl', rfl⟩ := stands
    rw [halert, Option.some.injEq] at halert'
    rw [hl, Option.some.injEq] at hl'
    rw [halert', hl']

theorem reduce_eq (overflow : Density.Overflow) (alerts : List Alert) {radiusKm : Float}
    (minSize : Nat) (finite : Binary64.finite radiusKm = true) (positive : ¬ radiusKm ≤ 0) :
    reduce overflow alerts radiusKm minSize =
      .ok ((clusterLabels overflow alerts radiusKm minSize).map (recordsUnder alerts)) := by
  rw [reduce, if_neg (by simp [finite, positive])]
  rfl

/-- The records of groups stand for as many alerts as the groups have members. -/
theorem sum_size {groups : List (List Alert)} {records : List Alert}
    (h : List.Forall₂ (fun group record => size record = group.length) groups records) :
    (records.map size).sum = groups.flatten.length := by
  induction h with
  | nil => rfl
  | cons h _ ih => simp [h, ih]

theorem length_flatten_groups (records : List Alert) (labels : List Int32) :
    (groups records labels).flatten.length = (labels.take records.length).countP (0 < ·) := by
  rw [groups_flatten_perm.length_eq, List.length_map, ← List.countP_eq_length_filter, ← zip_labels,
    List.countP_map]
  rfl

/-- The numbers of the records add up to that of the positive labels. -/
theorem sum_size_recordsUnder {alerts : List Alert} (whole : labels.length = alerts.length) :
    ((recordsUnder alerts labels).map size).sum = labels.countP (0 < ·) := by
  have paired : labels.take (alerts.map normalize).length = labels :=
    List.take_of_length_le (by simp [whole])
  have sizes := length_flatten_groups (alerts.map normalize) labels
  rw [paired] at sizes
  rw [← sizes, groups_eq, paired, recordsUnder_eq whole]
  refine sum_size (List.forall₂_map_left_iff.mpr (forall₂_filterMap fun i hi => ?_))
  obtain ⟨record, hrecord, -, number⟩ := representative?_members whole hi
  exact ⟨record, hrecord, number⟩

/-- The records stand for the alerts at the first positions. -/
theorem recordsUnder_stand {alerts : List Alert} (whole : labels.length = alerts.length) :
    List.Forall₂ (StandsAt alerts labels) (firsts labels) (recordsUnder alerts labels) := by
  rw [recordsUnder_eq whole]
  refine forall₂_filterMap fun i hi => ?_
  obtain ⟨record, hrecord, stands, -⟩ := representative?_members whole hi
  exact ⟨record, hrecord, stands⟩

end Geotrack.Alert
