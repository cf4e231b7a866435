import Geotrack.Proofs.Analysis.Fences
import Geotrack.Proofs.Analysis.Quiet
import Geotrack.Proofs.Fence.Index
import Geotrack.Proofs.Fence.Rings

/-!
# The regions that findings name

A finding of a crossed fence names the regions where the leg ended, by way of their ids: for each id
that is found there it has the name of the first region with that id. `Analyzer.findings_regions`
says what is named, and that it is the names of the regions where the leg ended as long as none of
them shares its id.
-/

namespace Geotrack

open Binary64

/-! ### Regions found and named -/

namespace Region

variable {regions named : List (Region Float)} {r : Region Float} {p : Point Float}

/-- The text for the regions named. -/
def listing (named : List (Region Float)) : String :=
  if named.isEmpty then "Unknown region" else ",".intercalate (named.map (·.name))

/-- The regions named at a point: for each id that is found there the first region with the id. -/
def namedAt (regions : List (Region Float)) (p : Point Float) : List (Region Float) :=
  ((RegionIndex.ofRegions regions).containing p).filterMap fun id => regions.find? (·.id = id)

/-- Regions that stand for those found at a point, in order of id: each is the first one with its
id. -/
structure Named (regions : List (Region Float)) (p : Point Float) (named : List (Region Float)) :
    Prop where
  ordered : named.Pairwise fun a b => a.id < b.id
  first : ∀ r ∈ named, regions.find? (·.id = r.id) = some r
  ids : ∀ id, (∃ r ∈ named, r.id = id) ↔ ∃ r ∈ regions, r.found p = true ∧ r.id = id

/-- Looked up by their ids, regions are found in the order of the ids. -/
theorem map_id_filterMap_find? {ids : List String} (known : ∀ id ∈ ids, ∃ r ∈ regions, r.id = id) :
    (ids.filterMap fun id => regions.find? (·.id = id)).map (·.id) = ids := by
  induction ids with
  | nil => rfl
  | cons id ids ih =>
    obtain ⟨⟨r, hr, hid⟩, known⟩ := List.forall_mem_cons.mp known
    obtain ⟨q, hq⟩ : ∃ q, regions.find? (·.id = id) = some q :=
      Option.isSome_iff_exists.mp (List.find?_isSome.mpr ⟨r, hr, by simpa using hid⟩)
    have hid : q.id = id := by simpa using List.find?_some hq
    simp only [List.filterMap_cons, hq, List.map_cons, ih known, hid]

theorem named_namedAt (regions : List (Region Float)) (p : Point Float) :
    Named regions p (namedAt regions p) := by
  have ids : (namedAt regions p).map (·.id) = (RegionIndex.ofRegions regions).containing p :=
    map_id_filterMap_find? fun id hid => by
      obtain ⟨r, hr, -, rfl⟩ := mem_containing_iff.mp hid
      exact ⟨r, hr, rfl⟩
  refine ⟨?_, fun r hr => ?_, fun id => ?_⟩
  · rw [← List.pairwise_map, ids, containing_eq_found]
    exact sortedNames_ordered _
  · obtain ⟨id, -, hfind⟩ := List.mem_filterMap.mp hr
    obtain rfl : r.id = id := by simpa using List.find?_some hfind
    exact hfind
  · rw [← mem_containing_iff, ← ids, List.mem_map]

/-- Whether no other region has the id of one that is found at a point. -/
def Unshared (regions : List (Region Float)) (p : Point Float) : Prop :=
  ∀ r ∈ regions, r.found p = true → regions.filter (·.id = r.id) = [r]

namespace Unshared

variable (unshared : Unshared regions p)
include unshared

theorem eq_of_id {q : Region Float} (hr : r ∈ regions) (found : r.found p = true)
    (hq : q ∈ regions) (same : q.id = r.id) : q = r := by
  have : q ∈ regions.filter (·.id = r.id) := List.mem_filter.mpr ⟨hq, by simpa using same⟩
  rw [unshared r hr found] at this
  exact List.mem_singleton.mp this

theorem nodup_found : (regions.filter (·.found p)).Nodup := by
  refine List.nodup_iff_sublist.mpr fun r twice => ?_
  obtain ⟨hr, found⟩ := List.mem_filter.mp (twice.subset List.mem_cons_self)
  have twice := (twice.trans List.filter_sublist).filter (·.id = r.id)
  rw [unshared r hr found] at twice
  simpa using twice.length_le

end Unshared

/-- The regions named are those found, if these do not share their ids. -/
theorem Named.perm (h : Named regions p named) (unshared : Unshared regions p) :
    named.Perm (regions.filter (·.found p)) := by
  have nodup : named.Nodup := h.ordered.imp fun lt same => by
    rw [same] at lt
    exact lt_irrefl _ lt
  refine (List.perm_ext_iff_of_nodup nodup unshared.nodup_found).mpr fun r => ⟨?_, ?_⟩
  · intro hr
    obtain ⟨q, hq, found, same⟩ := (h.ids r.id).mp ⟨r, hr, rfl⟩
    obtain rfl := unshared.eq_of_id hq found (List.mem_of_find?_eq_some (h.first r hr)) same.symm
    exact List.mem_filter.mpr ⟨hq, found⟩
  · intro hr
    obtain ⟨hr, found⟩ := List.mem_filter.mp hr
    obtain ⟨q, hq, same⟩ := (h.ids r.id).mpr ⟨r, hr, found, rfl⟩
    obtain rfl := unshared.eq_of_id hr found (List.mem_of_find?_eq_some (h.first q hq)) same
    exact hq

end Region

/-- The text of a crossing names the regions named at the end of its leg. -/
theorem Crossing.regionTitle_eq {c : Crossing Float} {regions : List (Region Float)}
    {p : Point Float} (h : c.finishRegions = (RegionIndex.ofRegions regions).containing p) :
    c.regionTitle regions = Region.listing (Region.namedAt regions p) := by
  have names : (c.finishRegions.filterMap fun id => (regions.find? (·.id = id)).map (·.name)) =
      (Region.namedAt regions p).map (·.name) := by
    rw [h, Region.namedAt, List.map_filterMap]
  simp only [regionTitle, Region.listing, names, List.isEmpty_map]

/-! ### Regions of a group -/

/-- The results of checks are those of the checked. -/
theorem exists_of_mem_mapM {α β ε : Type} {check : α → Except ε β} {parts : List α}
    {results : List β} (h : parts.mapM check = .ok results) {b : β} (hb : b ∈ results) :
    ∃ a ∈ parts, check a = .ok b := by
  induction parts generalizing results with
  | nil =>
    cases h
    cases hb
  | cons a parts ih =>
    rw [List.mapM_cons] at h
    obtain ⟨first, hfirst, h⟩ := exists_ok_of_bind h
    obtain ⟨others, hothers, h⟩ := exists_ok_of_bind h
    cases h
    rcases List.mem_cons.mp hb with rfl | hb
    · exact ⟨a, List.mem_cons_self, hfirst⟩
    · obtain ⟨c, hc, hcheck⟩ := ih hothers hb
      exact ⟨c, List.mem_cons_of_mem a hc, hcheck⟩

theorem Path.closed_of_endsAtStart {ring : Path Float} (h : ring.EndsAtStart) :
    ring.closed = ring := by
  obtain ⟨first, last, hfirst, hlast, same⟩ := h
  simp [closed, hfirst, hlast, same]

/-- The region of a feature whose rings have been closed is sound. -/
theorem Region.sound_of_ofFeature {feature : Feature Float} {r : Region Float}
    (h : ofFeature feature = .ok r) (drawn : ∀ g ∈ r.area, g.Drawn) : r.Sound := by
  have area : ∃ parts, feature.shape.polygons? = some parts := by
    unfold ofFeature at h
    cases hshape : feature.shape <;> rw [hshape] at h <;> first | exact ⟨_, rfl⟩ | cases h
  obtain ⟨parts, hparts⟩ := area
  rw [ofFeature_polygons hparts] at h
  cases hfault : (parts.flatMap Polygon.rings).findSome? Path.ringFault? with
  | some fault =>
    rw [hfault] at h
    cases h
  | none =>
    rw [hfault] at h
    cases h
    intro g hg
    have hring : g.outer ∈ g.rings := List.mem_cons_self
    have through : g.outer.Through 3 := Path.through_of_fault?
      (List.findSome?_eq_none_iff.mp hfault _ (List.mem_flatMap.mpr ⟨g, hg, hring⟩))
    exact ⟨Path.closed_of_endsAtStart ((drawn g hg).endsAtStart hring through),
      fun q hq => (through.onMap q hq).1⟩

/-! ### Findings -/

/-- The legs that cross fences, one for each crossing. -/
def crossedLegs (fences : List (Fence Float)) (t : Trajectory Float) : List (Leg Float) :=
  t.legs.flatMap fun leg => fences.flatMap fun fence =>
    (leg.crossingPoints fence.boundary).map fun _ => leg

/-- The regions named among the values of a finding. -/
def regionsNamed (values : Directory Json) : Option Json := Directory.find? "contain_regions" values

/-- Each finding of a crossed fence names the regions named at the end of its leg. -/
theorem regionsNamed_geofenceFindings (subject : Subject) (analyzer : AnalyzerReference)
    (fences : List (Fence Float)) (regions : List (Region Float)) (t : Trajectory Float) :
    (geofenceFindings subject analyzer fences regions t).map (regionsNamed ·.values) =
      (crossedLegs fences t).map fun leg =>
        some (.text (Region.listing (Region.namedAt regions leg.finish.point))) := by
  simp only [geofenceFindings, crossings, crossedLegs, List.flatMap_cons, List.flatMap_nil,
    List.append_nil, List.map_map, List.map_flatMap, Leg.crossings]
  refine congrArg (t.legs.flatMap ·) (funext fun leg =>
    congrArg (fences.flatMap ·) (funext fun fence => ?_))
  refine List.map_congr_left fun q _ => ?_
  exact congrArg (some <| Json.text ·) (Crossing.regionTitle_eq rfl)

namespace Analyzer

variable {subject : Subject} {config : AnalyzerConfig} {catalog : Catalog} {a : Analyzer}

/-- A geofence analyzer looks for the fences of its groups, and names the regions of its group. -/
theorem task_of_geofence (made : geofence subject config catalog = .ok a) :
    ∃ settings fences regions, config.settings = .geofence settings ∧
      fencesOf catalog settings = .ok fences ∧ regionsOf catalog settings = .ok regions ∧
      a.task = .geofence fences regions := by
  unfold geofence at made
  split at made
  case h_2 => cases made
  case h_1 settings hsettings =>
    obtain ⟨fences, hfences, made⟩ := exists_ok_of_bind made
    obtain ⟨regions, hregions, made⟩ := exists_ok_of_bind made
    refine ⟨settings, fences, regions, hsettings, hfences, hregions, ?_⟩
    unfold forSubject at made
    split at made <;> cases made
    rfl

theorem sound_of_regionsOf {settings : GeofenceSettings} {regions : List (Region Float)}
    (made : regionsOf catalog settings = .ok regions) {r : Region Float} (hr : r ∈ regions)
    (drawn : ∀ g ∈ r.area, g.Drawn) : r.Sound := by
  obtain ⟨features, -, made⟩ := exists_ok_of_bind made
  cases hall : features.mapM Region.ofFeature with
  | error e =>
    rw [hall] at made
    cases made
  | ok all =>
    rw [hall] at made
    cases made
    obtain ⟨feature, -, hfeature⟩ := exists_of_mem_mapM hall hr
    exact Region.sound_of_ofFeature hfeature drawn

/-- A finding of a crossed fence names regions that stand for those found where the leg ended, in
order of id, or says that there are none. These are the regions found there if no other region has
their ids; and what is found is what contains the end, as long as the turns toward it tell its
side. -/
theorem findings_regions (made : geofence subject config catalog = .ok a) :
    ∃ settings fences regions, config.settings = .geofence settings ∧
      fencesOf catalog settings = .ok fences ∧ regionsOf catalog settings = .ok regions ∧
      (∀ t, ∃ found, a.findings t = .ofExcept (.ok found) ∧
        found.map (regionsNamed ·.values) = (crossedLegs fences t).map fun leg =>
          some (.text (Region.listing (Region.namedAt regions leg.finish.point)))) ∧
      ∀ p, Region.Named regions p (Region.namedAt regions p) ∧
        (Region.Unshared regions p →
          (Region.namedAt regions p).Perm (regions.filter (·.found p))) ∧
        ∀ r ∈ regions, p.IsFinite → (∀ g ∈ r.area, g.Drawn) → r.Tells p →
          r.found p = r.contains p := by
  obtain ⟨settings, fences, regions, hsettings, hfences, hregions, task⟩ := task_of_geofence made
  refine ⟨settings, fences, regions, hsettings, hfences, hregions, fun t => ?_, fun p => ?_⟩
  · refine ⟨_, ?_, regionsNamed_geofenceFindings a.subject a.reference fences regions t⟩
    rw [findings, task]
    rfl
  · have named := Region.named_namedAt regions p
    exact ⟨named, named.perm, fun r hr hp drawn tells =>
      Region.found_eq_contains hp (sound_of_regionsOf hregions hr drawn) tells⟩

/-! ### A walk through a gate -/

/-- The area between two longitudes, two degrees to one degree south. -/
def zoneArea (west east : Float) : Polygon Float :=
  .ofPaths [⟨west, -2⟩, ⟨east, -2⟩, ⟨east, -1⟩, ⟨west, -1⟩] []

def zone (id name : String) (west east : Float) : Feature Float :=
  ⟨id, name, .polygon (zoneArea west east)⟩

def zoneRegion (id name : String) (west east : Float) : Region Float :=
  ⟨id, name, [zoneArea west east]⟩

/-- A gate that the walk leads through, with zones around it. -/
def gateCatalog (zones : List (Feature Float)) : Catalog :=
  [("gates", [⟨"gate", "Gate", .path [⟨37, -2⟩, ⟨37, -1⟩]⟩]), ("zones", zones)]

def gateSettings : GeofenceSettings := { criticalGroup := "gates", regionsGroup := "zones" }

def gateConfig : AnalyzerConfig :=
  { id := .nil, name := "gate", settings := .geofence gateSettings }

def gateFence : Fence Float := ⟨"gate", "Gate", [[⟨37, -2⟩, ⟨37, -1⟩]], .critical⟩

def gateWatch (regions : List (Region Float)) : Analyzer where
  subject := parkWatch.subject
  config := gateConfig
  task := .geofence [gateFence] regions
  active := rfl
  kind_eq := rfl

def gateTrack : Trajectory Float where
  subject := .nil
  fixes := [walkLeg.start, walkLeg.finish]
  ordered := by decide

theorem fencesOf_gate (zones : List (Feature Float)) :
    fencesOf (gateCatalog zones) gateSettings = .ok [gateFence] := by
  have fences : Fence.ofFeatures [⟨"gate", "Gate", .path [⟨37, -2⟩, ⟨37, -1⟩]⟩] .critical =
      .ok [gateFence] := by decide +kernel
  change ((Fence.ofFeatures [⟨"gate", "Gate", .path [⟨37, -2⟩, ⟨37, -1⟩]⟩] .critical).mapError
    AnalysisError.geometry >>= _) = _
  rw [fences]
  rfl

theorem regionsOf_gate {zones : List (Feature Float)} {regions : List (Region Float)}
    (h : zones.mapM Region.ofFeature = .ok regions) :
    regionsOf (gateCatalog zones) gateSettings = .ok regions := by
  change (zones.mapM Region.ofFeature).mapError AnalysisError.geometry = _
  rw [h]
  rfl

theorem geofence_gate {zones : List (Feature Float)} {regions : List (Region Float)}
    (h : zones.mapM Region.ofFeature = .ok regions) :
    geofence parkWatch.subject gateConfig (gateCatalog zones) = .ok (gateWatch regions) := by
  change (fencesOf (gateCatalog zones) gateSettings >>= fun fences =>
    regionsOf (gateCatalog zones) gateSettings >>= fun regions => _) = _
  rw [fencesOf_gate, regionsOf_gate h]
  rfl

theorem crossedLegs_gate : crossedLegs [gateFence] gateTrack = [walkLeg] := by
  have points : walkLeg.crossingPoints gateFence.boundary = [⟨37, -1.5⟩] := by decide +kernel
  change (walkLeg.crossingPoints gateFence.boundary).map (fun _ => walkLeg) ++ [] ++ [] = _
  rw [points]
  rfl

/-- Two zones that meet at the gate, and one that covers both. -/
def overlappingZones : List (Feature Float) :=
  [zone "b" "East" 37 38, zone "c" "West" 36 37, zone "a" "Both" 36 38]

def overlappingRegions : List (Region Float) :=
  [zoneRegion "b" "East" 37 38, zoneRegion "c" "West" 36 37, zoneRegion "a" "Both" 36 38]

theorem findings_regions_overlapping :
    geofence parkWatch.subject gateConfig (gateCatalog overlappingZones) =
      .ok (gateWatch overlappingRegions) ∧
    (∃ found, (gateWatch overlappingRegions).findings gateTrack = .ofExcept (.ok found) ∧
      found.map (regionsNamed ·.values) = [some (.text "Both,East")]) ∧
    (Region.namedAt overlappingRegions walkLeg.finish.point).Perm
      (overlappingRegions.filter (·.contains walkLeg.finish.point)) := by
  have checked : overlappingZones.mapM Region.ofFeature = .ok overlappingRegions := by
    decide +kernel
  have text : Region.listing (Region.namedAt overlappingRegions walkLeg.finish.point) =
      "Both,East" := by decide +kernel
  have unshared : Region.Unshared overlappingRegions walkLeg.finish.point := by
    unfold Region.Unshared
    decide +kernel
  have finite : walkLeg.finish.point.IsFinite := by decide +kernel
  have tells : ∀ r ∈ overlappingRegions, r.Tells walkLeg.finish.point := by decide +kernel
  obtain ⟨settings, fences, regions, hsettings, hfences, hregions, told, told_at⟩ :=
    findings_regions (geofence_gate checked)
  obtain rfl : gateSettings = settings := AnalyzerSettings.geofence.inj hsettings
  obtain rfl : [gateFence] = fences := Except.ok.inj ((fencesOf_gate _).symm.trans hfences)
  obtain rfl : overlappingRegions = regions :=
    Except.ok.inj ((regionsOf_gate checked).symm.trans hregions)
  obtain ⟨found, hfound, values⟩ := told gateTrack
  obtain ⟨-, perm, sides⟩ := told_at walkLeg.finish.point
  refine ⟨geofence_gate checked, ⟨found, hfound, ?_⟩, (perm unshared).trans (.of_eq ?_)⟩
  · rw [values, crossedLegs_gate, List.map_singleton, text]
  · refine List.filter_congr fun r hr => sides r hr finite ?_ (tells r hr)
    simp only [overlappingRegions, List.mem_cons, List.not_mem_nil, or_false] at hr
    rcases hr with rfl | rfl | rfl <;> exact List.forall_mem_singleton.mpr ⟨_, _, rfl⟩

/-- Two zones under one id. -/
def sharedZones : List (Feature Float) := [zone "zone" "West" 36 37, zone "zone" "East" 37 38]

def sharedRegions : List (Region Float) :=
  [zoneRegion "zone" "West" 36 37, zoneRegion "zone" "East" 37 38]

/-- A walk into the east is told to be in the west where the zones share an id. -/
theorem sharedRegions_misnamed :
    ¬ ∀ (subject : Subject) (config : AnalyzerConfig) (catalog : Catalog) (a : Analyzer)
      (settings : GeofenceSettings) (fences : List (Fence Float)) (regions : List (Region Float))
      (t : Trajectory Float) (found : List Finding), geofence subject config catalog = .ok a →
      config.settings = .geofence settings → fencesOf catalog settings = .ok fences →
      regionsOf catalog settings = .ok regions → a.findings t = .ofExcept (.ok found) →
      ∃ inside : Leg Float → List (Region Float),
        (∀ leg, (inside leg).Perm (regions.filter (·.contains leg.finish.point)) ∧
          (inside leg).Pairwise fun a b => a.id ≤ b.id) ∧
        found.map (regionsNamed ·.values) = (crossedLegs fences t).map fun leg =>
          some (.text (Region.listing (inside leg))) := by
  intro h
  have checked : sharedZones.mapM Region.ofFeature = .ok sharedRegions := by decide +kernel
  obtain ⟨inside, perm, values⟩ := h parkWatch.subject gateConfig (gateCatalog sharedZones)
    (gateWatch sharedRegions) gateSettings [gateFence] sharedRegions gateTrack _
    (geofence_gate checked) rfl (fencesOf_gate _) (regionsOf_gate checked) rfl
  have east : sharedRegions.filter (·.contains walkLeg.finish.point) =
      [zoneRegion "zone" "East" 37 38] := by decide +kernel
  have text : Region.listing (Region.namedAt sharedRegions walkLeg.finish.point) = "West" := by
    decide +kernel
  have only : inside walkLeg = [zoneRegion "zone" "East" 37 38] :=
    List.perm_singleton.mp (east ▸ (perm walkLeg).1)
  rw [regionsNamed_geofenceFindings, crossedLegs_gate, List.map_singleton, List.map_singleton, text,
    only] at values
  simp [Region.listing, zoneRegion] at values

end Analyzer

end Geotrack
