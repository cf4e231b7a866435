import Geotrack.Cluster.Density
import Mathlib.Algebra.Group.Nat.Defs

/-!
# The census of clusters

A `Census` counts clusters without a largest number: its points have marks in place of labels, so
that no cluster can be taken for noise or for unvisited points, and growing a cluster always ends.
It goes over the points as a `Scan` does. The two are the same for as long as the count is a label
(`Census.run_toScan`), and past it a scan that stops there has no labels (`Census.run_overflow`).
-/

namespace Geotrack.Density

variable {n : Nat}

/-- What is known of a point. -/
inductive Mark where
  | unvisited
  | noise
  | cluster (number : Nat)
  deriving DecidableEq

/-- The label of a mark. -/
def Mark.label : Mark → Int
  | .unvisited => 0
  | .noise => -1
  | .cluster n => n

/-- The marks of all points and the points whose neighbourhood has been looked up, last first. -/
structure Census (n : Nat) where
  marks : Vector Mark n
  asked : List (Fin n)

namespace Census

def start (n : Nat) : Census n := ⟨Vector.replicate n .unvisited, []⟩

/-- The mark of a point. -/
def markOf (s : Census n) (p : Fin n) : Mark := getElem s.marks p p.isLt

def mark (s : Census n) (p : Fin n) (m : Mark) : Census n :=
  { s with marks := s.marks.set p m p.isLt }

def ask (s : Census n) (p : Fin n) : Census n := { s with asked := p :: s.asked }

/-- How many points have not been visited. -/
def unvisited (s : Census n) : Nat := s.marks.count .unvisited

theorem unvisited_mark_lt (s : Census n) (p : Fin n) (number : Nat) (h : s.markOf p = .unvisited) :
    (s.mark p (.cluster number)).unvisited < s.unvisited := by
  have hp : 0 < s.marks.count .unvisited := by
    rw [Vector.count_pos_iff, ← h]
    exact Vector.getElem_mem p.isLt
  have hn : (Mark.cluster number == Mark.unvisited) = false := rfl
  have h' : s.marks[p.val] = .unvisited := h
  simp only [unvisited, mark, Vector.count_set, h', hn, beq_self_eq_true, if_true,
    Bool.false_eq_true, if_false]
  omega

theorem unvisited_mark_eq (s : Census n) (p : Fin n) (number : Nat) (h : s.markOf p = .noise) :
    (s.mark p (.cluster number)).unvisited = s.unvisited := by
  have hn : (Mark.cluster number == Mark.unvisited) = false := rfl
  have hm : (Mark.noise == Mark.unvisited) = false := rfl
  have h' : s.marks[p.val] = .noise := h
  simp only [unvisited, mark, Vector.count_set, h', hn, hm]
  simp

@[simp] theorem unvisited_ask (s : Census n) (p : Fin n) : (s.ask p).unvisited = s.unvisited := rfl

/-- Grows a cluster over a queue of points, as `Scan.grow` does. -/
def grow (neighbours : Neighbours n) (minSize number : Nat) (s : Census n) :
    (queue : List (Fin n)) → Census n
  | [] => s
  | p :: queue =>
    match _ : s.markOf p with
    | .cluster _ => grow neighbours minSize number s queue
    | .noise => grow neighbours minSize number (s.mark p (.cluster number)) queue
    | .unvisited =>
      let near := neighbours p
      let queue := if minSize ≤ near.length then queue ++ near else queue
      grow neighbours minSize number ((s.mark p (.cluster number)).ask p) queue
termination_by queue => (s.unvisited, queue.length)
decreasing_by
  · exact Prod.Lex.right _ (by simp)
  · rw [unvisited_mark_eq s p number ‹_›]
    exact Prod.Lex.right _ (by simp)
  · exact Prod.Lex.left _ _ (by simpa using unvisited_mark_lt s p number ‹_›)

/-- Visits a point, as `Scan.visit` does. The count of clusters so far goes along. -/
def visit (neighbours : Neighbours n) (minSize : Nat) (state : Census n × Nat) (p : Fin n) :
    Census n × Nat :=
  let (s, clusters) := state
  if s.markOf p = .unvisited then
    let near := neighbours p
    let s := s.ask p
    if near.length < minSize then (s.mark p .noise, clusters)
    else
      let number := clusters + 1
      ((s.mark p (.cluster number)).grow neighbours minSize number near, number)
  else state

/-- Visits all points in order. -/
def run (neighbours : Neighbours n) (minSize : Nat) : Census n × Nat :=
  (List.finRange n).foldl (visit neighbours minSize) (start n, 0)

theorem markOf_mark (s : Census n) (p q : Fin n) (m : Mark) :
    (s.mark p m).markOf q = if p = q then m else s.markOf q := by
  by_cases h : p = q
  · subst h; simp [mark, markOf]
  · have hv : p.val ≠ q.val := fun e => h (Fin.ext e)
    simp [mark, markOf, h, Vector.getElem_set_ne p.isLt q.isLt hv]

@[simp] theorem markOf_start (q : Fin n) : (start n).markOf q = .unvisited := by
  simp [start, markOf]

section Visits

variable {neighbours : Neighbours n} {minSize : Nat} {s : Census n} {k : Nat} {p q r : Fin n}

/-- Noise has no part in the clusters. -/
theorem markNoise_iff (free : s.markOf p = .unvisited) {q : Fin n} {c : Nat} :
    (s.mark p .noise).markOf q = .cluster c ↔ s.markOf q = .cluster c := by
  rw [markOf_mark]
  split
  · rename_i e; subst e; simp [free]
  · rfl

/-- A growing cluster takes in points of the queue and of the neighbourhoods, none of them clustered
before, and leaves the marks of all others as they are. -/
theorem markOf_grow (neighbours : Neighbours n) (minSize number : Nat) (s : Census n)
    (queue : List (Fin n)) (q : Fin n) :
    (s.grow neighbours minSize number queue).markOf q = s.markOf q ∨
      (∀ c, s.markOf q ≠ .cluster c) ∧
        (s.grow neighbours minSize number queue).markOf q = .cluster number ∧
        (q ∈ queue ∨ ∃ r, q ∈ neighbours r) := by
  -- what holds after the head has been marked holds from before it
  have marked : ∀ {s t : Census n} {p : Fin n} {queue queue' : List (Fin n)} {m : Mark},
      (∀ c, s.markOf p ≠ .cluster c) → t.markOf q = (s.mark p (.cluster number)).markOf q →
      (∀ r ∈ queue', r ∈ queue ∨ r ∈ neighbours p) →
      (m = t.markOf q ∨ (∀ c, t.markOf q ≠ .cluster c) ∧ m = .cluster number ∧
        (q ∈ queue' ∨ ∃ r, q ∈ neighbours r)) →
      m = s.markOf q ∨ (∀ c, s.markOf q ≠ .cluster c) ∧ m = .cluster number ∧
        (q ∈ p :: queue ∨ ∃ r, q ∈ neighbours r) := by
    intro s t p queue queue' m free same origin h
    rw [same, markOf_mark] at h
    by_cases hpq : p = q
    · subst hpq
      rw [if_pos rfl] at h
      rcases h with h | ⟨h, -⟩
      · exact .inr ⟨free, h, .inl List.mem_cons_self⟩
      · exact absurd rfl (h number)
    · rw [if_neg hpq] at h
      refine h.imp_right fun ⟨free', hm, reached⟩ => ⟨free', hm, ?_⟩
      rcases reached with hq | hq
      · exact (origin q hq).imp (List.mem_cons_of_mem p) fun hp => ⟨p, hp⟩
      · exact .inr hq
  fun_induction Census.grow neighbours minSize number s queue with
  | case1 s => exact .inl rfl
  | case2 s p queue c hp ih =>
    exact ih.imp_right fun ⟨free, hm, reached⟩ =>
      ⟨free, hm, reached.imp_left (List.mem_cons_of_mem p)⟩
  | case3 s p queue hp ih =>
    exact marked (fun c hc => by rw [hp] at hc; cases hc) rfl (fun r hr => .inl hr) ih
  | case4 s p queue hp near queue' ih =>
    refine marked (fun c hc => by rw [hp] at hc; cases hc) rfl ?_ ih
    intro r hr
    simp only [queue', near] at hr
    split at hr
    · exact List.mem_append.mp hr
    · exact .inl hr

/-- The census after cluster `number` has grown from a point. -/
abbrev growFrom (neighbours : Neighbours n) (minSize number : Nat) (s : Census n) (p : Fin n) :
    Census n :=
  ((s.ask p).mark p (.cluster number)).grow neighbours minSize number (neighbours p)

theorem visit_eq (s : Census n) (k : Nat) (p : Fin n) :
    visit neighbours minSize (s, k) p =
      if s.markOf p = .unvisited then
        if (neighbours p).length < minSize then ((s.ask p).mark p .noise, k)
        else (growFrom neighbours minSize (k + 1) s p, k + 1)
      else (s, k) := rfl

theorem markOf_growFrom_self (neighbours : Neighbours n) (minSize number : Nat) (s : Census n)
    (p : Fin n) : (growFrom neighbours minSize number s p).markOf p = .cluster number := by
  have h := markOf_grow neighbours minSize number ((s.ask p).mark p (.cluster number))
    (neighbours p) p
  rw [markOf_mark, if_pos rfl] at h
  exact h.elim id fun h => h.2.1

/-- Of the other points a cluster takes in those that are near some point and in no cluster. -/
theorem markOf_growFrom (neighbours : Neighbours n) (minSize number : Nat) (s : Census n)
    {p q : Fin n} (hqp : q ≠ p) :
    (growFrom neighbours minSize number s p).markOf q = s.markOf q ∨
      (∀ c, s.markOf q ≠ .cluster c) ∧
        (growFrom neighbours minSize number s p).markOf q = .cluster number ∧
        ∃ r, q ∈ neighbours r := by
  have h := markOf_grow neighbours minSize number ((s.ask p).mark p (.cluster number))
    (neighbours p) q
  rw [markOf_mark, if_neg hqp.symm] at h
  exact h.imp_right fun ⟨free, joined, near⟩ =>
    ⟨free, joined, near.elim (fun near => ⟨p, near⟩) id⟩

/-- A visit counts one cluster at most. -/
theorem visit_count (neighbours : Neighbours n) (minSize : Nat) (state : Census n × Nat)
    (q : Fin n) : state.2 ≤ (visit neighbours minSize state q).2 ∧
      (visit neighbours minSize state q).2 ≤ state.2 + 1 := by
  obtain ⟨s, k⟩ := state
  rw [visit_eq]
  split
  · split
    · exact ⟨Nat.le_refl k, Nat.le_succ k⟩
    · exact ⟨Nat.le_succ k, Nat.le_refl _⟩
  · exact ⟨Nat.le_refl k, Nat.le_succ k⟩

theorem foldl_visit_count (neighbours : Neighbours n) (minSize : Nat) (ps : List (Fin n))
    (state : Census n × Nat) : state.2 ≤ (ps.foldl (visit neighbours minSize) state).2 ∧
      (ps.foldl (visit neighbours minSize) state).2 ≤ state.2 + ps.length := by
  induction ps generalizing state with
  | nil => exact ⟨Nat.le_refl _, Nat.le_refl _⟩
  | cons p ps ih =>
    have now := visit_count neighbours minSize state p
    have later := ih (visit neighbours minSize state p)
    rw [List.foldl_cons, List.length_cons]
    omega

/-- A point is in a cluster since before a visit, or in the one that the visit counts. -/
theorem cluster_of_visit {c : Nat}
    (h : (visit neighbours minSize (s, k) q).1.markOf r = .cluster c) :
    s.markOf r = .cluster c ∨ c = k + 1 ∧ (visit neighbours minSize (s, k) q).2 = k + 1 := by
  rw [visit_eq] at h ⊢
  split at h
  · rename_i free
    split at h
    · exact .inl ((markNoise_iff (s := s.ask q) free).mp h)
    · rename_i many
      rw [if_pos free, if_neg many]
      by_cases hrq : r = q
      · subst hrq
        have self := markOf_growFrom_self neighbours minSize (k + 1) s r
        exact .inr ⟨by injection h.symm.trans self, rfl⟩
      · rcases markOf_growFrom neighbours minSize (k + 1) s hrq with same | ⟨-, joined, -⟩
        · exact .inl (same ▸ h)
        · exact .inr ⟨by injection h.symm.trans joined, rfl⟩
  · exact .inl h

/-- The numbers that a count has given. -/
def Counted (s : Census n) (k : Nat) : Prop := ∀ q c, s.markOf q = .cluster c → 1 ≤ c ∧ c ≤ k

theorem counted_start : (start n).Counted 0 := fun q c hq => by rw [markOf_start] at hq; cases hq

theorem Counted.next (h : s.Counted k) : s.Counted (k + 1) := fun q c hq =>
  ⟨(h q c hq).1, Nat.le_succ_of_le (h q c hq).2⟩

theorem Counted.visit (h : s.Counted k) :
    (Census.visit neighbours minSize (s, k) q).1.Counted
      (Census.visit neighbours minSize (s, k) q).2 := by
  intro r c hr
  rcases cluster_of_visit hr with old | ⟨rfl, hk⟩
  · have given := h r c old
    have counted := (visit_count neighbours minSize (s, k) q).1
    omega
  · omega

end Visits

/-! ### The scan of a census -/

/-- The number of a count of clusters as a label. -/
abbrev number (k : Nat) : Int32 := Int32.ofNat k

theorem number_toInt {k : Nat} (few : k < 2 ^ 31) : (number k).toInt = k :=
  Int32.toInt_ofNat_of_lt few

theorem next?_number (overflow : Overflow) {k : Nat} (few : k + 1 < 2 ^ 31) :
    overflow.next? (number k) = some (number (k + 1)) := by
  have below : number k ≠ Int32.maxValue := by
    rw [Ne, ← Int32.toInt_inj, number_toInt (Nat.lt_of_succ_lt few), Int32.toInt_maxValue]
    omega
  rw [Overflow.next?, if_neg fun h => below h.2, number, number, Int32.ofNat_add]
  rfl

theorem next?_largest : Overflow.stops.next? (number (2 ^ 31 - 1)) = none := by decide

/-- The scan with the labels of the marks. -/
def toScan (s : Census n) : Scan n := ⟨s.marks.map fun m => Int32.ofInt m.label, s.asked⟩

theorem toScan_start : (start n).toScan = Scan.start n := by
  simp [toScan, start, Scan.start, Mark.label]

theorem toScan_ask (s : Census n) (p : Fin n) : (s.ask p).toScan = s.toScan.ask p := rfl

theorem toScan_mark (s : Census n) (p : Fin n) (m : Mark) :
    (s.mark p m).toScan = s.toScan.label p (Int32.ofInt m.label) := by
  simp [toScan, mark, Scan.label, Vector.map_set]

theorem toScan_cluster (s : Census n) (p : Fin n) (k : Nat) :
    (s.mark p (.cluster k)).toScan = s.toScan.label p (number k) := by
  rw [toScan_mark, Mark.label, Int32.ofInt_eq_ofNat]

theorem labelOf_toScan (s : Census n) (p : Fin n) :
    s.toScan.labelOf p = Int32.ofInt (s.markOf p).label := by
  simp [toScan, markOf, Scan.labelOf]

section Scans

variable {neighbours : Neighbours n} {minSize : Nat} {s : Census n} {k : Nat}

theorem Counted.mark (h : s.Counted k) (hk : 1 ≤ k) (p : Fin n) :
    (s.mark p (.cluster k)).Counted k := by
  intro q c hq
  rw [markOf_mark] at hq
  split at hq
  · injection hq with hq
    omega
  · exact h q c hq

/-- The label of a clustered point is neither that of noise nor that of an unvisited point. -/
theorem Counted.label_ne (h : s.Counted k) (few : k < 2 ^ 31) {p : Fin n} {c : Nat}
    (hp : s.markOf p = .cluster c) : s.toScan.labelOf p ≠ -1 ∧ s.toScan.labelOf p ≠ 0 := by
  have given := h p c hp
  have value : (number c).toInt = c := number_toInt (by omega)
  rw [labelOf_toScan, hp, Mark.label, Int32.ofInt_eq_ofNat, Ne, Ne, ← Int32.toInt_inj,
    ← Int32.toInt_inj, value]
  constructor
  · intro noise
    have : (c : Int) = -1 := noise
    omega
  · intro unvisited
    have : (c : Int) = 0 := unvisited
    omega

/-- A cluster whose number is a label grows in a scan as it does in its census. -/
theorem grow_toScan (queue : List (Fin n)) (h : s.Counted k) (hk : 1 ≤ k) (few : k < 2 ^ 31) :
    s.toScan.grow neighbours minSize (number k) queue =
      some (s.grow neighbours minSize k queue).toScan := by
  fun_induction Census.grow neighbours minSize k s queue with
  | case1 s => rw [Scan.grow]
  | case2 s p queue c hp ih =>
    obtain ⟨noise, unvisited⟩ := h.label_ne few (p := p) hp
    rw [Scan.grow, if_neg noise, if_neg unvisited, ih h]
  | case3 s p queue hp ih =>
    have noise : s.toScan.labelOf p = -1 := by rw [labelOf_toScan, hp]; rfl
    rw [Scan.grow, if_pos noise, ← toScan_cluster, ih (h.mark hk p)]
  | case4 s p queue hp near queue' ih =>
    have unvisited : s.toScan.labelOf p = 0 := by rw [labelOf_toScan, hp]; rfl
    have fresh : s.toScan.labelOf p ≠ -1 := by rw [unvisited]; decide
    rw [Scan.grow, if_neg fresh, if_pos unvisited, ← toScan_cluster, ← toScan_ask]
    exact ih (h.mark hk p)

/-- The census and the count of a state as a scan has them. -/
abbrev toState (state : Census n × Nat) : Scan n × Int32 := (state.1.toScan, number state.2)

theorem toState_start : toState (start n, 0) = (Scan.start n, 0) := by
  rw [toState, toScan_start]
  rfl

theorem visit_toScan (overflow : Overflow) (p : Fin n) (h : s.Counted k)
    (few : (visit neighbours minSize (s, k) p).2 < 2 ^ 31) :
    Scan.visit overflow neighbours minSize (toState (s, k)) p =
      some (toState (visit neighbours minSize (s, k) p)) := by
  rw [visit_eq] at few ⊢
  by_cases free : s.markOf p = .unvisited
  · have unvisited : s.toScan.labelOf p = 0 := by rw [labelOf_toScan, free]; rfl
    rw [if_pos free] at few ⊢
    by_cases small : (neighbours p).length < minSize
    · rw [if_pos small, Scan.visit, if_pos unvisited, if_pos small, toState, toScan_mark,
        toScan_ask]
      rfl
    · rw [if_neg small] at few ⊢
      have asked : (s.ask p).Counted (k + 1) := h.next
      have grown : ((s.ask p).mark p (.cluster (k + 1))).toScan.grow neighbours minSize
          (number (k + 1)) (neighbours p) = some (growFrom neighbours minSize (k + 1) s p).toScan :=
        grow_toScan (neighbours p) (asked.mark (Nat.le_add_left 1 k) p) (Nat.le_add_left 1 k) few
      rw [toScan_cluster, toScan_ask] at grown
      simp only [Scan.visit, unvisited, small, next?_number overflow few, grown, if_true, if_false,
        Option.bind_eq_bind, Option.bind_some]
      rfl
  · have visited : s.toScan.labelOf p ≠ 0 := by
      cases hp : s.markOf p with
      | unvisited => exact absurd hp free
      | noise => rw [labelOf_toScan, hp]; decide
      | cluster c =>
        rw [if_neg free] at few
        exact (h.label_ne few hp).2
    rw [if_neg free, Scan.visit, if_neg visited]

/-- A scan that stops at the largest label stops where its census counts on. -/
theorem visit_overflow (p : Fin n) (few : k < 2 ^ 31)
    (many : ¬ (visit neighbours minSize (s, k) p).2 < 2 ^ 31) :
    Scan.visit .stops neighbours minSize (toState (s, k)) p = none := by
  rw [visit_eq] at many
  split at many
  · rename_i free
    have unvisited : s.toScan.labelOf p = 0 := by rw [labelOf_toScan, free]; rfl
    split at many
    · exact absurd few many
    · rename_i small
      obtain rfl : k = 2 ^ 31 - 1 := by omega
      simp only [Scan.visit, unvisited, small, next?_largest, if_true, if_false,
        Option.bind_eq_bind, Option.bind_none]
  · exact absurd few many

theorem foldlM_toScan (overflow : Overflow) (ps : List (Fin n)) (state : Census n × Nat)
    (h : state.1.Counted state.2)
    (few : (ps.foldl (visit neighbours minSize) state).2 < 2 ^ 31) :
    ps.foldlM (Scan.visit overflow neighbours minSize) (toState state) =
      some (toState (ps.foldl (visit neighbours minSize) state)) := by
  induction ps generalizing state with
  | nil => rfl
  | cons p ps ih =>
    have now := Nat.lt_of_le_of_lt
      (foldl_visit_count neighbours minSize ps (visit neighbours minSize state p)).1 few
    rw [List.foldlM_cons, visit_toScan overflow p h now]
    exact ih (visit neighbours minSize state p) h.visit few

theorem foldlM_overflow (ps : List (Fin n)) (state : Census n × Nat)
    (h : state.1.Counted state.2) (few : state.2 < 2 ^ 31)
    (many : ¬ (ps.foldl (visit neighbours minSize) state).2 < 2 ^ 31) :
    ps.foldlM (Scan.visit .stops neighbours minSize) (toState state) = none := by
  induction ps generalizing state with
  | nil => exact absurd few many
  | cons p ps ih =>
    by_cases now : (visit neighbours minSize state p).2 < 2 ^ 31
    · rw [List.foldlM_cons, visit_toScan .stops p h now]
      exact ih (visit neighbours minSize state p) h.visit now many
    · rw [List.foldlM_cons, visit_overflow p few now]
      rfl

end Scans

theorem counted_run (neighbours : Neighbours n) (minSize : Nat) :
    (run neighbours minSize).1.Counted (run neighbours minSize).2 := by
  suffices h : ∀ (ps : List (Fin n)) (state : Census n × Nat), state.1.Counted state.2 →
      (ps.foldl (visit neighbours minSize) state).1.Counted
        (ps.foldl (visit neighbours minSize) state).2 from h _ _ counted_start
  intro ps
  induction ps with
  | nil => exact fun _ h => h
  | cons p ps ih => exact fun _ h => ih _ h.visit

/-- The clusters that a run finds, however many they are. -/
abbrev count (neighbours : Neighbours n) (minSize : Nat) : Nat := (run neighbours minSize).2

theorem count_le (neighbours : Neighbours n) (minSize : Nat) : count neighbours minSize ≤ n := by
  simpa [count, run] using (foldl_visit_count neighbours minSize (List.finRange n) (start n, 0)).2

/-- A scan whose clusters can be counted is that of its census. -/
theorem run_toScan (overflow : Overflow) {neighbours : Neighbours n} {minSize : Nat}
    (few : count neighbours minSize < 2 ^ 31) :
    Scan.run overflow neighbours minSize = some (toState (run neighbours minSize)) := by
  rw [Scan.run, ← toState_start]
  exact foldlM_toScan overflow _ _ counted_start few

/-- A scan that stops at the largest label does so when its clusters cannot be counted. -/
theorem run_overflow {neighbours : Neighbours n} {minSize : Nat}
    (many : 2 ^ 31 ≤ count neighbours minSize) :
    Scan.run .stops neighbours minSize = none := by
  rw [Scan.run, ← toState_start]
  exact foldlM_overflow _ _ counted_start (Nat.two_pow_pos 31) (Nat.not_lt.mpr many)

end Census

end Geotrack.Density
