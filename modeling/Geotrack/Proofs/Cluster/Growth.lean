import Geotrack.Proofs.Cluster.Census
import Mathlib.Logic.Relation

/-!
# What a growing cluster keeps true

A census is described by `Census.Growing`: which points are marked, which of them the queue still
owes a look, and that core points of one cluster are linked by core points. Claiming a point for the
cluster keeps it true (`Growing.claim`), so that growing a cluster empties the queue without losing
it (`Growing.grow`), and so does visiting points one after the other (`settled_run`).
-/

namespace Geotrack.Density

variable {n : Nat}

/-- A core point has at least `minSize` points in its neighbourhood. -/
def Neighbours.IsCore (neighbours : Neighbours n) (minSize : Nat) (p : Fin n) : Prop :=
  minSize ≤ (neighbours p).length

/-- Whether two core points are joined by core points, each in the neighbourhood of the one
before. -/
def Neighbours.Linked (neighbours : Neighbours n) (minSize : Nat) : Fin n → Fin n → Prop :=
  Relation.ReflTransGen fun p q =>
    neighbours.IsCore minSize p ∧ neighbours.IsCore minSize q ∧ q ∈ neighbours p

theorem Neighbours.Linked.symm {neighbours : Neighbours n} {minSize : Nat}
    (symm : ∀ p q, q ∈ neighbours p → p ∈ neighbours q) {p q : Fin n}
    (h : neighbours.Linked minSize p q) : neighbours.Linked minSize q p := by
  induction h with
  | refl => exact .refl
  | tail _ step ih => exact .head ⟨step.2.1, step.1, symm _ _ step.2.2⟩ ih

namespace Census

variable (neighbours : Neighbours n) (minSize : Nat)

/-- Where a census stands while cluster `k` grows over a queue. -/
structure Growing (s : Census n) (k : Nat) (queue : List (Fin n)) : Prop where
  /-- What was taken for noise is not a core point. -/
  noise : ∀ p : Fin n, s.markOf p = .noise → ¬ neighbours.IsCore minSize p
  bounds : ∀ (p : Fin n) c, s.markOf p = .cluster c → 1 ≤ c ∧ c ≤ k
  /-- The neighbourhood of a clustered core point is clustered, as far as it is not in the queue. -/
  closed : ∀ (p : Fin n) c, s.markOf p = .cluster c → neighbours.IsCore minSize p →
    ∀ q ∈ neighbours p, (∃ d, s.markOf q = .cluster d) ∨ (c = k ∧ q ∈ queue)
  /-- Neighbouring core points are not in two clusters. -/
  joined : ∀ (p q : Fin n) c d, s.markOf p = .cluster c → s.markOf q = .cluster d →
    neighbours.IsCore minSize p → neighbours.IsCore minSize q → q ∈ neighbours p → c = d
  /-- A point is clustered because it is a core point or near one of the same cluster. -/
  support : ∀ (p : Fin n) c, s.markOf p = .cluster c → neighbours.IsCore minSize p ∨
    ∃ r, neighbours.IsCore minSize r ∧ s.markOf r = .cluster c ∧ p ∈ neighbours r
  linked : ∀ (p q : Fin n) c, s.markOf p = .cluster c → s.markOf q = .cluster c →
    neighbours.IsCore minSize p → neighbours.IsCore minSize q → neighbours.Linked minSize p q
  queued : ∀ q ∈ queue, ∃ r, neighbours.IsCore minSize r ∧ s.markOf r = .cluster k ∧
    q ∈ neighbours r

variable {neighbours minSize} {s : Census n} {k : Nat} {p : Fin n} {queue : List (Fin n)}

theorem Growing.of_marks {t : Census n} (h : Growing neighbours minSize s k queue)
    (e : t.marks = s.marks) : Growing neighbours minSize t k queue := by
  obtain ⟨marks, asked⟩ := t
  obtain rfl : marks = s.marks := e
  exact ⟨h.noise, h.bounds, h.closed, h.joined, h.support, h.linked, h.queued⟩

/-- A point that is not clustered yet joins the growing cluster: it leaves the queue, and if it is a
core point its neighbourhood enters it. -/
theorem Growing.claim (symm : ∀ p q, q ∈ neighbours p → p ∈ neighbours q)
    (h : Growing neighbours minSize s k queue) (free : ∀ c, s.markOf p ≠ .cluster c) (hk : 1 ≤ k)
    (reached : neighbours.IsCore minSize p ∨ ∃ r, neighbours.IsCore minSize r ∧
      s.markOf r = .cluster k ∧ p ∈ neighbours r)
    (linked : neighbours.IsCore minSize p → ∀ q : Fin n, s.markOf q = .cluster k →
      neighbours.IsCore minSize q → neighbours.Linked minSize q p)
    {queue' : List (Fin n)} (keep : ∀ q ∈ queue, q ≠ p → q ∈ queue')
    (enter : neighbours.IsCore minSize p → ∀ q ∈ neighbours p, q ∈ queue')
    (origin : ∀ q ∈ queue', q ∈ queue ∨ (neighbours.IsCore minSize p ∧ q ∈ neighbours p)) :
    Growing neighbours minSize (s.mark p (.cluster k)) k queue' := by
  -- a cluster mark other than that of `p` is an old one
  have old : ∀ {q : Fin n} {c}, (s.mark p (.cluster k)).markOf q = .cluster c →
      (q = p ∧ c = k) ∨ (q ≠ p ∧ s.markOf q = .cluster c) := by
    intro q c hq
    rw [markOf_mark] at hq
    split at hq
    · rename_i e; exact .inl ⟨e.symm, by injection hq with hq; exact hq.symm⟩
    · rename_i e; exact .inr ⟨fun e' => e e'.symm, hq⟩
  have stays : ∀ {q : Fin n} {c}, s.markOf q = .cluster c →
      (s.mark p (.cluster k)).markOf q = .cluster c := by
    intro q c hq
    rw [markOf_mark, if_neg (by rintro rfl; exact free c hq), hq]
  have self : (s.mark p (.cluster k)).markOf p = .cluster k := by rw [markOf_mark, if_pos rfl]
  -- a clustered core point that has `p` in its neighbourhood belongs to the growing cluster
  have same : ∀ {q : Fin n} {c}, s.markOf q = .cluster c → neighbours.IsCore minSize q →
      p ∈ neighbours q → c = k := by
    intro q c hq core near
    rcases h.closed q c hq core p near with ⟨d, hd⟩ | ⟨e, _⟩
    · exact absurd hd (free d)
    · exact e
  refine ⟨?_, ?_, ?_, ?_, ?_, ?_, ?_⟩
  · intro q hq
    rw [markOf_mark] at hq
    split at hq
    · cases hq
    · exact h.noise q hq
  · intro q c hq
    rcases old hq with ⟨_, rfl⟩ | ⟨_, hq'⟩
    · exact ⟨hk, Nat.le_refl _⟩
    · exact h.bounds q c hq'
  · intro q c hq core r near
    rcases old hq with ⟨rfl, rfl⟩ | ⟨_, hq'⟩
    · exact .inr ⟨rfl, enter core r near⟩
    · rcases h.closed q c hq' core r near with ⟨d, hd⟩ | ⟨e, hr⟩
      · exact .inl ⟨d, stays hd⟩
      · by_cases hrp : r = p
        · exact .inl ⟨k, by rw [hrp]; exact self⟩
        · exact .inr ⟨e, keep r hr hrp⟩
  · intro q r c d hq hr coreq corer near
    rcases old hq with ⟨rfl, rfl⟩ | ⟨_, hq'⟩
    · rcases old hr with ⟨_, rfl⟩ | ⟨_, hr'⟩
      · rfl
      · exact (same hr' corer (symm _ _ near)).symm
    · rcases old hr with ⟨rfl, rfl⟩ | ⟨_, hr'⟩
      · exact same hq' coreq near
      · exact h.joined q r c d hq' hr' coreq corer near
  · intro q c hq
    rcases old hq with ⟨rfl, rfl⟩ | ⟨_, hq'⟩
    · exact reached.imp_right fun ⟨r, core, hr, near⟩ => ⟨r, core, stays hr, near⟩
    · exact (h.support q c hq').imp_right fun ⟨r, core, hr, near⟩ => ⟨r, core, stays hr, near⟩
  · intro q r c hq hr coreq corer
    rcases old hq with ⟨rfl, rfl⟩ | ⟨_, hq'⟩
    · rcases old hr with ⟨rfl, _⟩ | ⟨_, hr'⟩
      · exact .refl
      · exact (linked coreq r hr' corer).symm symm
    · rcases old hr with ⟨rfl, rfl⟩ | ⟨_, hr'⟩
      · exact linked corer q hq' coreq
      · exact h.linked q r c hq' hr' coreq corer
  · intro q hq
    rcases origin q hq with hq' | ⟨core, near⟩
    · obtain ⟨r, core, hr, near⟩ := h.queued q hq'
      exact ⟨r, core, stays hr, near⟩
    · exact ⟨p, core, self, near⟩

/-- The head of the queue, not clustered yet, is claimed; its neighbourhood joins the rest of the
queue if it is a core point. -/
theorem Growing.pop (symm : ∀ p q, q ∈ neighbours p → p ∈ neighbours q) (hk : 1 ≤ k)
    (h : Growing neighbours minSize s k (p :: queue)) (free : ∀ c, s.markOf p ≠ .cluster c) :
    Growing neighbours minSize (s.mark p (.cluster k)) k
      (if minSize ≤ (neighbours p).length then queue ++ neighbours p else queue) := by
  obtain ⟨r, corer, hr, near⟩ := h.queued p List.mem_cons_self
  have rest : ∀ q ∈ p :: queue, q ≠ p → q ∈ queue := fun q hq hqp =>
    (List.mem_cons.mp hq).resolve_left hqp
  refine h.claim symm free hk (.inr ⟨r, corer, hr, near⟩) ?_ ?_ ?_ ?_
  · intro core q hq coreq
    exact (h.linked q r k hq hr coreq corer).tail ⟨corer, core, near⟩
  · intro q hq hqp
    split
    · exact List.mem_append_left _ (rest q hq hqp)
    · exact rest q hq hqp
  · intro core q hq
    rw [if_pos (show minSize ≤ (neighbours p).length from core)]
    exact List.mem_append_right _ hq
  · intro q hq
    split at hq
    · rename_i core
      rcases List.mem_append.mp hq with hq | hq
      · exact .inl (List.mem_cons_of_mem _ hq)
      · exact .inr ⟨core, hq⟩
    · exact .inl (List.mem_cons_of_mem _ hq)

/-- Following the queue to its end leaves nothing owed. -/
theorem Growing.grow (symm : ∀ p q, q ∈ neighbours p → p ∈ neighbours q) (hk : 1 ≤ k)
    (h : Growing neighbours minSize s k queue) :
    Growing neighbours minSize (s.grow neighbours minSize k queue) k [] := by
  fun_induction Census.grow neighbours minSize k s queue with
  | case1 s => exact h
  | case2 s p queue c hp ih =>
    -- the head is clustered already, so nothing is owed for it
    refine ih ⟨h.noise, h.bounds, ?_, h.joined, h.support, h.linked,
      fun q hq => h.queued q (List.mem_cons_of_mem _ hq)⟩
    intro q d hq core r near
    rcases h.closed q d hq core r near with hr | ⟨e, hr⟩
    · exact .inl hr
    · rcases List.mem_cons.mp hr with rfl | hr
      · exact .inl ⟨c, hp⟩
      · exact .inr ⟨e, hr⟩
  | case3 s p queue hp ih =>
    have hn := h.pop symm hk (fun c hc => by rw [hp] at hc; cases hc)
    rw [if_neg (show ¬ minSize ≤ (neighbours p).length from h.noise p hp)] at hn
    exact ih hn
  | case4 s p queue hp near queue' ih =>
    have hu := h.pop symm hk (fun c hc => by rw [hp] at hc; cases hc)
    exact ih (hu.of_marks rfl)

/-- What has been visited stays so while a cluster grows. -/
theorem grow_visited {q : Fin n} (h : s.markOf q ≠ .unvisited) :
    (s.grow neighbours minSize k queue).markOf q ≠ .unvisited := by
  rcases markOf_grow neighbours minSize k s queue q with same | ⟨-, joined, -⟩
  · rwa [same]
  · rw [joined]
    exact fun e => nomatch e

/-! ### Visiting the points in order -/

/-- A census between two clusters. -/
abbrev Settled (neighbours : Neighbours n) (minSize : Nat) (state : Census n × Nat) : Prop :=
  Growing neighbours minSize state.1 state.2 []

theorem settled_start : Settled neighbours minSize (start n, 0) := by
  refine ⟨?_, ?_, ?_, ?_, ?_, ?_, ?_⟩
  all_goals intros; simp_all

theorem Growing.markNoise (h : Growing neighbours minSize s k []) (free : s.markOf p = .unvisited)
    (few : ¬ neighbours.IsCore minSize p) :
    Growing neighbours minSize (s.mark p .noise) k [] := by
  have same : ∀ {q : Fin n} {c}, (s.mark p .noise).markOf q = .cluster c ↔
      s.markOf q = .cluster c := markNoise_iff free
  refine ⟨?_, ?_, ?_, ?_, ?_, ?_, fun q hq => nomatch hq⟩
  · intro q hq
    rw [markOf_mark] at hq
    split at hq
    · rename_i e; exact e ▸ few
    · exact h.noise q hq
  · simpa only [same] using h.bounds
  · simpa only [same] using h.closed
  · simpa only [same] using h.joined
  · simpa only [same] using h.support
  · simpa only [same] using h.linked

/-- A core point that no cluster has reached seeds the next one. -/
theorem Growing.seed (symm : ∀ p q, q ∈ neighbours p → p ∈ neighbours q)
    (h : Growing neighbours minSize s k []) (free : s.markOf p = .unvisited)
    (core : neighbours.IsCore minSize p) :
    Growing neighbours minSize (s.mark p (.cluster (k + 1))) (k + 1) (neighbours p) := by
  have next : Growing neighbours minSize s (k + 1) [] := by
    refine ⟨h.noise, ?_, ?_, h.joined, h.support, h.linked, fun q hq => nomatch hq⟩
    · intro q c hq
      have := h.bounds q c hq
      omega
    · intro q c hq coreq r near
      exact (h.closed q c hq coreq r near).imp_right fun ⟨_, hr⟩ => nomatch hr
  refine next.claim symm (fun c hc => by rw [free] at hc; cases hc) (Nat.le_add_left 1 k)
    (.inl core) ?_ (fun q hq => nomatch hq) (fun _ q hq => hq) (fun q hq => .inr ⟨core, hq⟩)
  -- no point is in the new cluster yet
  intro _ q hq _
  have := h.bounds q (k + 1) hq
  omega

theorem Settled.visit (symm : ∀ p q, q ∈ neighbours p → p ∈ neighbours q) {state : Census n × Nat}
    (h : Settled neighbours minSize state) (p : Fin n) :
    Settled neighbours minSize (Census.visit neighbours minSize state p) := by
  obtain ⟨s, k⟩ := state
  rw [visit_eq]
  split
  · rename_i free
    split
    · rename_i few
      exact (h.markNoise free (Nat.not_le.mpr few)).of_marks rfl
    · rename_i many
      exact Growing.grow symm (Nat.le_add_left 1 k)
        ((h.seed symm free (Nat.not_lt.mp many)).of_marks rfl)
  · exact h

theorem visit_visited (state : Census n × Nat) (p q : Fin n)
    (h : q = p ∨ state.1.markOf q ≠ .unvisited) :
    (Census.visit neighbours minSize state p).1.markOf q ≠ .unvisited := by
  obtain ⟨s, k⟩ := state
  have claimed : ∀ m : Mark, m ≠ .unvisited → ((s.ask p).mark p m).markOf q ≠ .unvisited := by
    intro m hm
    rw [markOf_mark]
    split
    · exact hm
    · rename_i e
      exact h.resolve_left fun e' => e e'.symm
  rw [visit_eq]
  split
  · split
    · exact claimed .noise (by simp)
    · exact grow_visited (claimed (.cluster (k + 1)) (by simp))
  · rename_i done
    rcases h with rfl | h
    · exact done
    · exact h

/-- After a run every point has been visited and no cluster is still growing. -/
theorem settled_run (symm : ∀ p q, q ∈ neighbours p → p ∈ neighbours q) :
    Settled neighbours minSize (run neighbours minSize) ∧
      ∀ q : Fin n, (run neighbours minSize).1.markOf q ≠ .unvisited := by
  suffices h : ∀ (ps : List (Fin n)) (state : Census n × Nat), Settled neighbours minSize state →
      Settled neighbours minSize (ps.foldl (visit neighbours minSize) state) ∧
        ∀ q : Fin n, q ∈ ps ∨ state.1.markOf q ≠ .unvisited →
          (ps.foldl (visit neighbours minSize) state).1.markOf q ≠ .unvisited by
    obtain ⟨hs, hv⟩ := h (List.finRange n) (start n, 0) settled_start
    exact ⟨hs, fun q => hv q (.inl (List.mem_finRange q))⟩
  intro ps
  induction ps with
  | nil => intro state hs; exact ⟨hs, fun q hq => hq.resolve_left (by simp)⟩
  | cons p ps ih =>
    intro state hs
    obtain ⟨hs', hv⟩ := ih (visit neighbours minSize state p) (hs.visit symm p)
    refine ⟨hs', fun q hq => hv q ?_⟩
    by_cases hqs : q ∈ ps
    · exact .inl hqs
    · refine .inr (visit_visited state p q ?_)
      rcases hq with hq | hq
      · exact .inl ((List.mem_cons.mp hq).resolve_right hqs)
      · exact .inr hq

/-! ### A census without unvisited points -/

theorem Growing.exists_cluster (h : Growing neighbours minSize s k queue)
    (visited : s.markOf p ≠ .unvisited) (core : neighbours.IsCore minSize p) :
    ∃ c, s.markOf p = .cluster c := by
  cases hp : s.markOf p with
  | unvisited => exact absurd hp visited
  | noise => exact absurd core (h.noise p hp)
  | cluster c => exact ⟨c, rfl⟩

theorem Growing.noise_iff (h : Growing neighbours minSize s k [])
    (visited : ∀ q : Fin n, s.markOf q ≠ .unvisited) :
    s.markOf p = .noise ↔
      ¬ neighbours.IsCore minSize p ∧ ∀ q, neighbours.IsCore minSize q → p ∉ neighbours q := by
  constructor
  · intro hp
    refine ⟨h.noise p hp, fun q core near => ?_⟩
    obtain ⟨c, hc⟩ := h.exists_cluster (visited q) core
    rcases h.closed q c hc core p near with ⟨d, hd⟩ | ⟨_, hq⟩
    · rw [hp] at hd; cases hd
    · cases hq
  · rintro ⟨few, apart⟩
    cases hp : s.markOf p with
    | unvisited => exact absurd hp (visited p)
    | noise => rfl
    | cluster c =>
      rcases h.support p c hp with core | ⟨r, core, _, near⟩
      · exact absurd core few
      · exact absurd near (apart r core)

theorem Growing.marks_eq_iff (h : Growing neighbours minSize s k [])
    (visited : ∀ q : Fin n, s.markOf q ≠ .unvisited) {q : Fin n}
    (corep : neighbours.IsCore minSize p) (coreq : neighbours.IsCore minSize q) :
    s.markOf p = s.markOf q ↔ neighbours.Linked minSize p q := by
  constructor
  · intro e
    obtain ⟨c, hc⟩ := h.exists_cluster (visited p) corep
    exact h.linked p q c hc (e ▸ hc) corep coreq
  · intro link
    induction link with
    | refl => rfl
    | @tail b r _ step ih =>
      obtain ⟨c, hc⟩ := h.exists_cluster (visited b) step.1
      obtain ⟨d, hd⟩ := h.exists_cluster (visited r) step.2.1
      rw [ih step.1, hc, hd, h.joined b r c d hc hd step.1 step.2.1 step.2.2]

end Census

end Geotrack.Density
