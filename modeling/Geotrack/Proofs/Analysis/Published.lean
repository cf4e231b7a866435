import Geotrack.Proofs.Analysis.Settle

/-!
# The events of a list of findings

Where events do not depend on what is on record, those of a list of findings are added one by one to
the events published before. `foldl_posted_events` says so, and the lemmas before it say what such
additions keep.
-/

namespace Geotrack

namespace Event

/-- Published events with one more, unless events that tell the same are to be skipped and there is
one. -/
def addNew (skips : Bool) (known : List Event) (e : Event) : List Event :=
  if skips && known.any (·.same e) then known else known ++ [e]

variable (skips : Bool)

/-- Additions come after what is there and are some of what is to be added. -/
theorem exists_addAll (es known : List Event) :
    ∃ added, es.foldl (addNew skips) known = known ++ added ∧ added.Sublist es := by
  induction es generalizing known with
  | nil => exact ⟨[], (List.append_nil _).symm, .refl _⟩
  | cons e es ih =>
    obtain ⟨added, hadded, hsub⟩ := ih (addNew skips known e)
    rw [List.foldl_cons, hadded, addNew]
    split
    · exact ⟨added, rfl, hsub.cons e⟩
    · exact ⟨e :: added, by simp, hsub.cons_cons e⟩

theorem sublist_addAll (es known : List Event) : known.Sublist (es.foldl (addNew skips) known) := by
  obtain ⟨added, h, -⟩ := exists_addAll skips es known
  exact h ▸ List.sublist_append_left known added

/-- Once an event was added it is published, or one is that tells the same. -/
theorem known_addNew (known : List Event) (e : Event) :
    e ∈ addNew skips known e ∨ (skips && (addNew skips known e).any (·.same e)) = true := by
  unfold addNew
  split
  · exact .inr ‹_›
  · exact .inl (by simp)

theorem known_addAll (known : List Event) {es : List Event} {e : Event} (he : e ∈ es) :
    e ∈ es.foldl (addNew skips) known ∨
      (skips && (es.foldl (addNew skips) known).any (·.same e)) = true := by
  induction es generalizing known with
  | nil => cases he
  | cons d es ih =>
    rcases List.mem_cons.mp he with rfl | he
    · have later := (sublist_addAll skips es (addNew skips known e)).subset
      rcases known_addNew skips known e with h | h
      · exact .inl (later h)
      · simp only [Bool.and_eq_true, List.any_eq_true] at h
        obtain ⟨hs, x, hx, same⟩ := h
        refine .inr ?_
        rw [hs, Bool.true_and, List.any_eq_true]
        exact ⟨x, hs ▸ later hx, same⟩
    · exact ih _ he

/-- An event is published in its turn unless one that tells the same was published before it. -/
theorem added_or_known (before after : List Event) (e : Event) :
    e ∈ (before ++ e :: after).foldl (addNew skips) [] ∨
      ∃ x ∈ before, x ∈ (before ++ e :: after).foldl (addNew skips) [] ∧ x.same e = true := by
  rw [List.foldl_append, List.foldl_cons]
  obtain ⟨added, hadded, sub⟩ := exists_addAll skips before []
  have later :=
    (sublist_addAll skips after (addNew skips (before.foldl (addNew skips) []) e)).subset
  rw [hadded, List.nil_append] at later ⊢
  by_cases known : (skips && added.any (·.same e)) = true
  · rw [addNew, if_pos known] at later ⊢
    rw [Bool.and_eq_true, List.any_eq_true] at known
    obtain ⟨-, x, hx, same⟩ := known
    exact .inr ⟨x, sub.subset hx, later hx, same⟩
  · rw [addNew, if_neg known] at later ⊢
    exact .inl (later (by simp))

/-- Adding events anew where they are published already adds copies of published events at most. -/
theorem addAll_again_subset {es known all : List Event}
    (h : (es.foldl (addNew skips) known) ⊆ all) : es.foldl (addNew skips) all ⊆ all := by
  suffices hg : ∀ ds more, ds ⊆ es → all ⊆ more → more ⊆ all →
      ds.foldl (addNew skips) more ⊆ all from
    hg es all (List.Subset.refl _) (List.Subset.refl _) (List.Subset.refl _)
  intro ds
  induction ds with
  | nil => exact fun more _ _ hm => hm
  | cons d ds ih =>
    intro more hd ham hma
    have step : addNew skips more d ⊆ all := by
      unfold addNew
      split
      · exact hma
      · rename_i fresh
        rcases known_addAll skips known (hd List.mem_cons_self) with hk | hk
        · exact List.append_subset.mpr ⟨hma, by simpa using h hk⟩
        · simp only [Bool.and_eq_true, List.any_eq_true] at hk fresh
          obtain ⟨hs, x, hx, same⟩ := hk
          exact absurd ⟨hs, x, ham (h hx), same⟩ fresh
    exact ih _ (fun _ hx => hd (List.mem_cons_of_mem _ hx))
      (List.Subset.trans ham (sublist_addAll skips [d] more).subset) step

/-- Copies of published events change nothing about which events are new. -/
theorem addAll_sublist {known more : List Event} (hs : known.Sublist more) (hm : more ⊆ known)
    (es : List Event) :
    (es.foldl (addNew skips) known).Sublist (es.foldl (addNew skips) more) := by
  induction es generalizing known more with
  | nil => exact hs
  | cons e es ih =>
    have same : known.any (·.same e) = more.any (·.same e) := by
      rw [Bool.eq_iff_iff, List.any_eq_true, List.any_eq_true]
      exact ⟨fun ⟨x, hx, h⟩ => ⟨x, hs.subset hx, h⟩, fun ⟨x, hx, h⟩ => ⟨x, hm hx, h⟩⟩
    simp only [List.foldl_cons]
    by_cases h : (skips && more.any (·.same e)) = true
    · have hk : (skips && known.any (·.same e)) = true := by rw [same]; exact h
      rw [addNew, addNew, if_pos h, if_pos hk]
      exact ih hs hm
    · have hk : ¬(skips && known.any (·.same e)) = true := by rw [same]; exact h
      rw [addNew, addNew, if_neg h, if_neg hk]
      exact ih (hs.append (.refl _))
        (List.append_subset.mpr ⟨List.Subset.trans hm (by simp), by simp⟩)

/-- Where the first of some events are published already, adding all of them again loses none. -/
theorem addAll_again (before after known : List Event) :
    ((before ++ after).foldl (addNew skips) known).Sublist
      ((before ++ after).foldl (addNew skips) (before.foldl (addNew skips) known)) := by
  rw [List.foldl_append, List.foldl_append]
  exact addAll_sublist skips (sublist_addAll skips before _)
    (addAll_again_subset skips (List.Subset.refl _)) after

end Event

namespace Analyzer

variable {a : Analyzer}

/-- A finding whose event does not depend on the record adds it unless it is known. -/
theorem posted_events_of_steady {s : Stores} {f : Finding}
    (steady : a.event? (a.last s) f = a.event? none f) :
    (a.posted s f).events =
      (a.event? none f).toList.foldl (Event.addNew a.skipsKnownEvents) s.events := by
  rw [posted_events]
  cases he : a.event? none f with
  | none => simp [published?, steady, he]
  | some e =>
    rw [published?_of_event (steady.trans he)]
    change _ = if a.skipsKnownEvents && s.knows e then s.events else s.events ++ [e]
    split
    · exact List.append_nil _
    · rfl

theorem foldl_posted_events (steady : ∀ last f, a.event? last f = a.event? none f)
    (fs : List Finding) (s : Stores) :
    (fs.foldl a.posted s).events =
      (fs.filterMap (a.event? none)).foldl (Event.addNew a.skipsKnownEvents) s.events := by
  induction fs generalizing s with
  | nil => rfl
  | cons f fs ih =>
    rw [List.foldl_cons, ih, posted_events_of_steady (steady _ f)]
    cases he : a.event? none f with
    | none => rw [List.filterMap_cons_none he]; rfl
    | some e => rw [List.filterMap_cons_some he]; rfl

/-- Fences and features call for their events whatever is on record. -/
theorem event?_steady (h : a.task.kind = .geofence ∨ a.task.kind = .proximity)
    (last : Option Finding) (f : Finding) : a.event? last f = a.event? none f := by
  unfold event? eventKind?
  cases ht : a.task with
  | geofence fences regions => simp
  | proximity settings features => simp
  | immobility settings => simp [ht, Task.kind] at h
  | environmental settings => simp [ht, Task.kind] at h

end Analyzer

end Geotrack
