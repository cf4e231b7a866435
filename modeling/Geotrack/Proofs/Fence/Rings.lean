import Geotrack.Fence.Region
import Geotrack.Proofs.Plane.Outside

/-!
# Sound rings and lines

Fences and regions look for what is wrong with an area in the same order: polygon by polygon, in a
polygon ring by ring, in a ring for a point off the map first. So they fail with the same error or
not at all, and then have the same rings: `Feature.sound_outlines`.
-/

namespace Geotrack

open Binary64

/-! ### Checks that fail with the first fault -/

section Checks

variable {α β ε δ : Type} {fault : α → Option ε}

/-- A result, unless there is a fault. -/
def unlessFault (fault : Option ε) (result : α) : Except ε α :=
  match fault with
  | some e => .error e
  | none => .ok result

theorem mapError_unlessFault (wrap : ε → δ) (fault : Option ε) (result : α) :
    (unlessFault fault result).mapError wrap = unlessFault (fault.map wrap) result := by
  cases fault <;> rfl

theorem bind_unlessFault (f : α → β) (fault : Option ε) (result : α) :
    (unlessFault fault result >>= fun a => pure (f a)) = unlessFault fault (f result) := by
  cases fault <;> rfl

/-- Parts that are checked in turn fail with the first fault of a part. -/
theorem mapM_unlessFault {check : α → Except ε β} {result : α → β}
    (h : ∀ a, check a = unlessFault (fault a) (result a)) (parts : List α) :
    parts.mapM check = unlessFault (parts.findSome? fault) (parts.map result) := by
  induction parts with
  | nil => rfl
  | cons a parts ih =>
    rw [List.mapM_cons, h, ih, List.findSome?_cons]
    cases fault a with
    | some e => rfl
    | none => cases parts.findSome? fault <;> rfl

theorem forM_unlessFault {check : α → Except ε Unit}
    (h : ∀ a, check a = unlessFault (fault a) ()) (parts : List α) :
    parts.forM check = unlessFault (parts.findSome? fault) () := by
  induction parts with
  | nil => rfl
  | cons a parts ih =>
    change (check a >>= fun _ => parts.forM check) = _
    rw [h, ih, List.findSome?_cons]
    cases fault a <;> rfl

theorem findSome?_flatMap {fault : β → Option ε} (pieces : α → List β) (parts : List α) :
    (parts.flatMap pieces).findSome? fault =
      parts.findSome? fun part => (pieces part).findSome? fault := by
  induction parts with
  | nil => rfl
  | cons a parts ih =>
    rw [List.flatMap_cons, List.findSome?_append, ih, List.findSome?_cons]
    cases (pieces a).findSome? fault <;> rfl

end Checks

/-! ### Points -/

namespace Point

section Distinct

variable {K : Type} [Scalar K] {points : List (Point K)}

theorem distinct_concat (points : List (Point K)) (p : Point K) : distinct (points ++ [p]) =
    if (distinct points).any (·.same p) then distinct points else distinct points ++ [p] := by
  simp [distinct, List.foldl_append]

theorem distinct_sublist : (distinct points).Sublist points := by
  induction points using List.reverseRecOn with
  | nil => exact List.Sublist.refl _
  | append_singleton points p ih =>
    rw [distinct_concat]
    split
    · exact ih.trans (List.sublist_append_left _ _)
    · exact ih.append_right [p]

theorem distinct_apart : (distinct points).Pairwise fun p q => p.same q = false := by
  induction points using List.reverseRecOn with
  | nil => exact List.Pairwise.nil
  | append_singleton points p ih =>
    rw [distinct_concat]
    split
    · exact ih
    · rename_i new
      refine List.pairwise_append.mpr ⟨ih, List.pairwise_singleton _ _, fun q hq r hr => ?_⟩
      obtain rfl := List.mem_singleton.mp hr
      simp only [List.any_eq_true, not_exists, not_and, Bool.not_eq_true] at new
      exact new q hq

end Distinct

variable {p : Point Float}

/-- Whether a point has a longitude and a latitude on the map. -/
def OnMap (p : Point Float) : Prop := p.IsFinite ∧
  (-180 ≤ value p.longitude ∧ value p.longitude ≤ 180) ∧
  -90 ≤ value p.latitude ∧ value p.latitude ≤ 90

theorem isValid_iff_onMap : p.isValid = true ↔ p.OnMap := by
  have west : value (Scalar.ofInt (-180) : Float) = -180 := by decide +kernel
  have east : value (Scalar.ofInt 180 : Float) = 180 := by decide +kernel
  have south : value (Scalar.ofInt (-90) : Float) = -90 := by decide +kernel
  have north : value (Scalar.ofInt 90 : Float) = 90 := by decide +kernel
  have finite : p.IsFinite ↔
      Scalar.finite p.longitude = true ∧ Scalar.finite p.latitude = true := Iff.rfl
  simp only [isValid, OnMap, Bool.and_eq_true, and_assoc, finite]
  refine and_congr_right fun hx => and_congr_right fun hy => ?_
  rw [scalar_le_eq (by decide +kernel) hx, scalar_le_eq hx (by decide +kernel),
    scalar_le_eq (by decide +kernel) hy, scalar_le_eq hy (by decide +kernel), west, east, south,
    north]
  simp only [decide_eq_true_eq]

theorem same_self (h : p.IsFinite) : p.same p = true := by
  simp [same, scalar_eq_eq h.1 h.1, scalar_eq_eq h.2 h.2]

end Point

/-! ### Faults of rings and lines -/

namespace Path

section Faults

variable {K : Type} [Scalar K]

/-- What is wrong with points some of which are to be distinct: one is not on the map, the first
such one is told, or too few are distinct. -/
def fault? (fewest : ℕ) (tooFew : ℕ → GeometryError K) (points : Path K) :
    Option (GeometryError K) :=
  match points.find? (!·.isValid) with
  | some p => some (.invalidCoordinate p)
  | none =>
    let n := (Point.distinct points).length
    if n < fewest then some (tooFew n) else none

/-- What is wrong with a ring. -/
def ringFault? (ring : Path K) : Option (GeometryError K) := ring.fault? 3 .invalidPolygon

/-- What is wrong with a line. -/
def lineFault? (line : Path K) : Option (GeometryError K) := line.fault? 2 .invalidPolyline

theorem ofPoints_eq (line : Path K) : Path.ofPoints line = unlessFault line.lineFault? line := by
  unfold Path.ofPoints validPoints lineFault? fault?
  cases line.find? (!·.isValid) with
  | some p => rfl
  | none =>
    change (if _ then _ else _) = unlessFault (if _ then _ else _) line
    split <;> rfl

end Faults

variable {path : Path Float}

/-- Whether a path leads through at least so many distinct points, and none off the map. -/
structure Through (path : Path Float) (fewest : ℕ) : Prop where
  onMap : ∀ p ∈ path, p.OnMap
  corners : ∃ corners : List (Point Float), corners.Sublist path ∧
    (corners.Pairwise fun p q => p.same q = false) ∧ fewest ≤ corners.length

/-- Whether a path ends where it starts. -/
def EndsAtStart (path : Path Float) : Prop :=
  ∃ first last, path.head? = some first ∧ path.getLast? = some last ∧ first.same last = true

theorem through_of_fault? {fewest : ℕ} {tooFew : ℕ → GeometryError Float}
    (h : path.fault? fewest tooFew = none) : path.Through fewest := by
  unfold fault? at h
  split at h
  · cases h
  · rename_i valid
    simp only [ite_eq_right_iff, reduceCtorEq, imp_false, not_lt] at h
    refine ⟨fun p hp => Point.isValid_iff_onMap.mp ?_,
      _, Point.distinct_sublist, Point.distinct_apart, h⟩
    simpa using List.find?_eq_none.mp valid p hp

/-- A closed path through finite points ends where it starts. -/
theorem endsAtStart_closed (hne : path.closed ≠ []) (finite : ∀ p ∈ path.closed, p.IsFinite) :
    path.closed.EndsAtStart := by
  cases path with
  | nil => exact absurd rfl hne
  | cons a rest =>
    obtain ⟨b, hb⟩ : ∃ b, (a :: rest).getLast? = some b := ⟨_, List.getLast?_cons⟩
    unfold closed at finite ⊢
    simp only [List.head?_cons, hb] at finite ⊢
    split
    · rename_i same
      exact ⟨a, b, rfl, hb, same⟩
    · rename_i apart
      rw [if_neg apart] at finite
      exact ⟨a, a, rfl, List.getLast?_concat, Point.same_self (finite a (by simp))⟩

end Path

/-! ### Outlines of features -/

namespace Shape

variable {K : Type} [Scalar K]

/-- The polygons of an area. -/
def polygons? : Shape K → Option (List (Polygon K))
  | .polygon p => some [p]
  | .polygons ps => some ps
  | _ => none

/-- The lines of a line or of several. -/
def lines? : Shape K → Option (List (Path K))
  | .path line => some [line]
  | .paths lines => some lines
  | _ => none

end Shape

section Outlines

variable {K : Type} [Scalar K] {feature : Feature K} {level : WarnLevel}

theorem Polygon.ofPoints_eq (ring : Path K) :
    ofPoints ring = unlessFault ring.ringFault? (.ofPaths ring []) := by
  unfold ofPoints validPoints Path.ringFault? Path.fault?
  cases ring.find? (!·.isValid) with
  | some p => rfl
  | none =>
    change (if _ then _ else _) = unlessFault (if _ then _ else _) _
    split <;> rfl

theorem Polygon.validate_eq (p : Polygon K) :
    p.validate = unlessFault (p.rings.findSome? Path.ringFault?) () := by
  refine forM_unlessFault (fun ring => ?_) p.rings
  rw [ofPoints_eq]
  cases ring.ringFault? <;> rfl

theorem Fence.boundaryOfPolygon_eq (p : Polygon K) :
    boundaryOfPolygon p = unlessFault (p.rings.findSome? Path.ringFault?) p.rings := by
  rw [boundaryOfPolygon, Polygon.validate_eq]
  cases p.rings.findSome? Path.ringFault? <;> rfl

theorem Fence.boundaryOfPath_eq (line : Path K) :
    boundaryOfPath line = unlessFault line.lineFault? [line] := by
  rw [boundaryOfPath, Path.ofPoints_eq]
  cases line.lineFault? <;> rfl

/-- The fences around an area, one for each polygon. -/
theorem Fence.ofFeature_polygons {parts : List (Polygon K)}
    (h : feature.shape.polygons? = some parts) : Fence.ofFeature feature level =
      unlessFault (((parts.flatMap Polygon.rings).findSome? Path.ringFault?).map .geometry)
        (parts.map fun p => ⟨feature.id, feature.name, p.rings, level⟩) := by
  have hboundaries : boundaries feature =
      unlessFault (((parts.flatMap Polygon.rings).findSome? Path.ringFault?).map .geometry)
        (parts.map Polygon.rings) := by
    have all : boundaries feature = (parts.mapM boundaryOfPolygon).mapError .geometry := by
      unfold boundaries
      cases hshape : feature.shape <;> simp [hshape, Shape.polygons?] at h <;> subst h <;> rfl
    rw [all, mapM_unlessFault boundaryOfPolygon_eq, mapError_unlessFault, findSome?_flatMap]
  rw [ofFeature, hboundaries, bind_unlessFault, List.map_map]
  rfl

/-- The fences along lines, one for each line. -/
theorem Fence.ofFeature_lines {lines : List (Path K)} (h : feature.shape.lines? = some lines) :
    Fence.ofFeature feature level =
      unlessFault ((lines.findSome? Path.lineFault?).map .geometry)
        (lines.map fun line => ⟨feature.id, feature.name, [line], level⟩) := by
  have hboundaries : boundaries feature =
      unlessFault ((lines.findSome? Path.lineFault?).map .geometry) (lines.map ([·])) := by
    have all : boundaries feature = (lines.mapM boundaryOfPath).mapError .geometry := by
      unfold boundaries
      cases hshape : feature.shape <;> simp [hshape, Shape.lines?] at h <;> subst h <;> rfl
    rw [all, mapM_unlessFault boundaryOfPath_eq, mapError_unlessFault]
  rw [ofFeature, hboundaries, bind_unlessFault, List.map_map]
  rfl

/-- The region of an area. -/
theorem Region.ofFeature_polygons {parts : List (Polygon K)}
    (h : feature.shape.polygons? = some parts) : Region.ofFeature feature =
      unlessFault (((parts.flatMap Polygon.rings).findSome? Path.ringFault?).map .geometry)
        ⟨feature.id, feature.name, parts⟩ := by
  have all : Region.ofFeature feature =
      (parts.forM Polygon.validate).mapError .geometry >>= fun _ =>
        pure ⟨feature.id, feature.name, parts⟩ := by
    unfold ofFeature
    cases hshape : feature.shape <;> simp [hshape, Shape.polygons?] at h <;> subst h <;> rfl
  rw [all, forM_unlessFault Polygon.validate_eq, mapError_unlessFault, bind_unlessFault,
    findSome?_flatMap]

end Outlines

/-- Whether the rings of a polygon have been closed. -/
def Polygon.Drawn (p : Polygon Float) : Prop := ∃ outer holes, p = .ofPaths outer holes

theorem Polygon.Drawn.endsAtStart {p : Polygon Float} (drawn : p.Drawn) {ring : Path Float}
    (hring : ring ∈ p.rings) (through : ring.Through 3) : ring.EndsAtStart := by
  obtain ⟨path, rfl⟩ : ∃ path, ring = Path.closed path := by
    obtain ⟨outer, holes, rfl⟩ := drawn
    rcases List.mem_cons.mp hring with rfl | hole
    · exact ⟨outer, rfl⟩
    · obtain ⟨path, -, rfl⟩ := List.mem_map.mp hole
      exact ⟨path, rfl⟩
  refine Path.endsAtStart_closed ?_ fun q hq => (through.onMap q hq).1
  rintro empty
  obtain ⟨corners, sub, -, three⟩ := through.corners
  rw [empty, List.sublist_nil] at sub
  simp [sub] at three

/-- The fences and the region of an area fail with its first fault, or have its rings. These lead
through at least three distinct points of the map, and end where they start if they have been
closed. Fences along lines have the lines, which lead through at least two distinct points of the
map. -/
theorem Feature.sound_outlines (feature : Feature Float) (level : WarnLevel) :
    (∀ parts, feature.shape.polygons? = some parts →
      (∃ fault, (parts.flatMap Polygon.rings).findSome? Path.ringFault? = some fault ∧
        Fence.ofFeature feature level = .error (.geometry fault) ∧
        Region.ofFeature feature = .error (.geometry fault)) ∨
      ∃ fences region, Fence.ofFeature feature level = .ok fences ∧
        Region.ofFeature feature = .ok region ∧
        fences = parts.map (fun p => ⟨feature.id, feature.name, p.rings, level⟩) ∧
        region = ⟨feature.id, feature.name, parts⟩ ∧
        fences.flatMap (·.boundary) = region.area.flatMap Polygon.rings ∧
        ∀ ring ∈ region.area.flatMap Polygon.rings, ring.Through 3 ∧
          ((∀ p ∈ region.area, p.Drawn) → ring.EndsAtStart)) ∧
    ∀ lines, feature.shape.lines? = some lines →
      ∀ fences, Fence.ofFeature feature level = .ok fences →
        fences = lines.map (fun line => ⟨feature.id, feature.name, [line], level⟩) ∧
        ∀ line ∈ lines, line.Through 2 := by
  refine ⟨fun parts harea => ?_, fun lines hlines fences hfences => ?_⟩
  · rw [Fence.ofFeature_polygons harea, Region.ofFeature_polygons harea]
    cases hfault : (parts.flatMap Polygon.rings).findSome? Path.ringFault? with
    | some fault => exact .inl ⟨fault, rfl, rfl, rfl⟩
    | none =>
      refine .inr ⟨_, _, rfl, rfl, rfl, rfl, List.flatMap_map .., fun ring hring => ?_⟩
      have through := Path.through_of_fault? (List.findSome?_eq_none_iff.mp hfault ring hring)
      refine ⟨through, fun drawn => ?_⟩
      obtain ⟨p, hp, hring⟩ := List.mem_flatMap.mp hring
      exact (drawn p hp).endsAtStart hring through
  · rw [Fence.ofFeature_lines hlines] at hfences
    cases hfault : lines.findSome? Path.lineFault? with
    | some fault =>
      rw [hfault] at hfences
      cases hfences
    | none =>
      rw [hfault] at hfences
      cases hfences
      exact ⟨rfl, fun line hline =>
        Path.through_of_fault? (List.findSome?_eq_none_iff.mp hfault line hline)⟩

/-- Two islands, one of them with a lake. -/
def islandParts : List (Polygon Float) :=
  [.ofPaths [⟨36, -2⟩, ⟨37, -2⟩, ⟨37, -1⟩, ⟨36, -1⟩]
      [[⟨36.4, -1.6⟩, ⟨36.6, -1.6⟩, ⟨36.5, -1.4⟩]],
    .ofPaths [⟨38, -2⟩, ⟨39, -2⟩, ⟨39, -1⟩, ⟨38, -2⟩] []]

def islands : Feature Float := ⟨"islands", "Islands", .polygons islandParts⟩

theorem Feature.sound_outlines_islands :
    ∃ fences region, Fence.ofFeature islands .critical = .ok fences ∧
      Region.ofFeature islands = .ok region ∧
      fences.flatMap (·.boundary) = region.area.flatMap Polygon.rings ∧
      ∀ ring ∈ region.area.flatMap Polygon.rings, ring.Through 3 ∧ ring.EndsAtStart := by
  have spotless : (islandParts.flatMap Polygon.rings).findSome? Path.ringFault? = none := by
    decide +kernel
  rcases (sound_outlines islands .critical).1 islandParts rfl with
    ⟨fault, hfault, -⟩ | ⟨fences, region, hfences, hregion, -, harea, same, sound⟩
  · rw [spotless] at hfault
    cases hfault
  · have drawn : ∀ p ∈ region.area, p.Drawn := by
      simp only [harea, islandParts, List.forall_mem_cons]
      exact ⟨⟨_, _, rfl⟩, ⟨_, _, rfl⟩, List.forall_mem_nil _⟩
    exact ⟨fences, region, hfences, hregion, same, fun ring hring =>
      ⟨(sound ring hring).1, (sound ring hring).2 drawn⟩⟩

end Geotrack
