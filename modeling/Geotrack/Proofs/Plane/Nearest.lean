import Mathlib.Data.List.Basic
import Geotrack.Plane.Boundary

/-!
# Parts of shapes

The point of a shape nearest to a position is the best of those of its parts: of the points that
stand by themselves and of the edges, unless an area covers the position. So what holds of the
nearest point of a part and lasts when a better one is taken holds of the shape, `nearest_of_part`,
and a shape has no nearest point only if no part has one, `nearest_eq_none_iff`.
-/

namespace Geotrack

variable {K : Type}

namespace Shape

/-- Shapes by their constructors, a collection by its members. -/
@[elab_as_elim]
theorem induction {motive : Shape K → Prop} (point : ∀ p, motive (.point p))
    (edge : ∀ e, motive (.edge e)) (path : ∀ line, motive (.path line))
    (polygon : ∀ p, motive (.polygon p)) (points : ∀ ps, motive (.points ps))
    (paths : ∀ lines, motive (.paths lines)) (polygons : ∀ ps, motive (.polygons ps))
    (box : ∀ b, motive (.box b)) (triangle : ∀ a b c, motive (.triangle a b c))
    (collection : ∀ shapes, (∀ shape ∈ shapes, motive shape) → motive (.collection shapes)) :
    ∀ shape, motive shape
  | .point p => point p
  | .edge e => edge e
  | .path line => path line
  | .polygon p => polygon p
  | .points ps => points ps
  | .paths lines => paths lines
  | .polygons ps => polygons ps
  | .box b => box b
  | .triangle a b c => triangle a b c
  | .collection shapes => collection shapes fun shape _ =>
      induction point edge path polygon points paths polygons box triangle collection shape

/-- The points that stand by themselves. -/
def spots : Shape K → List (Point K)
  | .point p => [p]
  | .points ps => ps
  | .collection shapes => allSpots shapes
  | _ => []
where
  allSpots : List (Shape K) → List (Point K)
    | [] => []
    | shape :: rest => spots shape ++ allSpots rest

@[simp] theorem spots_collection {shapes : List (Shape K)} :
    (collection shapes).spots = shapes.flatMap spots := by
  change spots.allSpots shapes = _
  induction shapes with
  | nil => rfl
  | cons shape rest ih => rw [spots.allSpots, ih, List.flatMap_cons]

end Shape

variable [Scalar K] {position : Point K} {Q : Nearest K → Prop}

namespace Nearest

/-- Whether a property holds of whatever is touched, and of the better of two when it holds of one
of them. -/
structure Lasting (position : Point K) (Q : Nearest K → Prop) : Prop where
  touching : ∀ p, Q (.touching p)
  left : ∀ a b, Q a → Q (better position a b)
  right : ∀ a b, Q b → Q (better position a b)

/-- The best so far after one more part. -/
def next (position : Point K) {α : Type} (nearest : α → Nearest K) (best : Nearest K) (part : α) :
    Nearest K :=
  match best with
  | .touching p => .touching p
  | best => better position (nearest part) best

variable {α : Type} {nearest : α → Nearest K} {parts : List α}

theorem best_eq : best position nearest parts = parts.foldl (next position nearest) .none := rfl

theorem Lasting.next_left (h : Lasting position Q) {b : Nearest K} (part : α) (hb : Q b) :
    Q (next position nearest b part) := by
  cases b with
  | touching p => exact h.touching p
  | _ => exact h.right _ _ hb

theorem Lasting.next_right (h : Lasting position Q) (b : Nearest K) {part : α}
    (hpart : Q (nearest part)) : Q (next position nearest b part) := by
  cases b with
  | touching p => exact h.touching p
  | _ => exact h.left _ _ hpart

theorem Lasting.foldl (h : Lasting position Q) {b : Nearest K}
    (hb : Q b ∨ ∃ part ∈ parts, Q (nearest part)) : Q (parts.foldl (next position nearest) b) := by
  induction parts generalizing b with
  | nil => simpa using hb
  | cons part rest ih =>
    refine ih ?_
    rcases hb with hb | ⟨p, hp, hQ⟩
    · exact .inl (h.next_left part hb)
    · rcases List.mem_cons.mp hp with rfl | hp
      · exact .inl (h.next_right b hQ)
      · exact .inr ⟨p, hp, hQ⟩

theorem Lasting.best (h : Lasting position Q) (hpart : ∃ part ∈ parts, Q (nearest part)) :
    Q (Nearest.best position nearest parts) :=
  h.foldl (.inr hpart)

theorem best_eq_none (h : ∀ part ∈ parts, nearest part = .none) :
    best position nearest parts = .none := by
  rw [best_eq]
  induction parts with
  | nil => rfl
  | cons part rest ih =>
    obtain ⟨hpart, hrest⟩ := List.forall_mem_cons.mp h
    have same : next position nearest .none part = .none := by
      simp only [next, hpart, better]
    rw [List.foldl_cons, same, ih hrest]

theorem lasting_ne_none (position : Point K) : Lasting position (· ≠ .none) where
  touching _ := by simp
  left a b ha := by
    cases a <;> cases b <;> simp_all [better]
    split <;> simp
  right a b hb := by
    cases a <;> cases b <;> simp_all [better]
    split <;> simp

/-- Whether a position is touched. -/
def IsTouching : Nearest K → Prop
  | .touching _ => True
  | _ => False

theorem lasting_isTouching (position : Point K) : Lasting position IsTouching where
  touching _ := trivial
  left a b ha := by
    cases a <;> simp_all [better, IsTouching]
  right a b hb := by
    cases a <;> cases b <;> simp_all [better, IsTouching]

end Nearest

/-- The point itself as the nearest one. -/
def Point.nearest (p position : Point K) : Nearest K :=
  if p.same position then .touching p else .apart p

theorem Point.nearest_ne_none (p position : Point K) : p.nearest position ≠ .none := by
  rw [Point.nearest]
  split <;> simp

/-- Whether an edge has a length. -/
def Edge.hasLength (e : Edge K) : Bool := !Scalar.eq (planarDistance e.start e.finish) Scalar.zero

theorem Edge.nearest_eq_none_iff {e : Edge K} :
    e.nearest position = .none ↔ e.hasLength = false := by
  rw [Edge.nearest, hasLength]
  split
  case isTrue h => simp [h]
  case isFalse h =>
    simp only [h, Bool.not_false, Bool.true_eq_false, iff_false]
    split_ifs <;> simp

namespace Shape

/-- The edges of lines and around areas. -/
def edges : Shape K → List (Edge K)
  | .edge e => [e]
  | .path line => Path.edges line
  | .paths lines => lines.flatMap Path.edges
  | .polygon p => p.rings.flatMap Path.edges
  | .polygons ps => ps.flatMap (·.rings.flatMap Path.edges)
  | .box b => Path.edges b.polygon.outer
  | .triangle a b c => [⟨a, b⟩, ⟨b, c⟩, ⟨c, a⟩]
  | .collection shapes => allEdges shapes
  | _ => []
where
  allEdges : List (Shape K) → List (Edge K)
    | [] => []
    | shape :: rest => edges shape ++ allEdges rest

/-- Whether an area of the shape covers a position. -/
def covers (position : Point K) : Shape K → Bool
  | .polygon p => p.covers position
  | .polygons ps => ps.any (·.covers position)
  | .box b => b.holds position
  | .triangle a b c => triangleCovers a b c position
  | .collection shapes => anyCovers shapes
  | _ => false
where
  anyCovers : List (Shape K) → Bool
    | [] => false
    | shape :: rest => covers position shape || anyCovers rest

variable {shapes : List (Shape K)}

@[simp] theorem edges_collection : (collection shapes).edges = shapes.flatMap edges := by
  change edges.allEdges shapes = _
  induction shapes with
  | nil => rfl
  | cons shape rest ih => rw [edges.allEdges, ih, List.flatMap_cons]

@[simp] theorem covers_collection :
    (collection shapes).covers position = shapes.any (covers position) := by
  change covers.anyCovers position shapes = _
  induction shapes with
  | nil => rfl
  | cons shape rest ih => rw [covers.anyCovers, ih, List.any_cons]

theorem nearest_collection : (collection shapes).nearest position =
    Nearest.best position (nearest · position) shapes := by
  have all (b : Nearest K) : nearest.nearestOfAll position shapes b =
      shapes.foldl (Nearest.next position (nearest · position)) b := by
    induction shapes generalizing b with
    | nil => cases b <;> rfl
    | cons shape rest ih =>
      rw [List.foldl_cons, ← ih]
      cases b with
      | touching p => cases rest <;> rfl
      | none => rfl
      | apart p => rfl
  exact all .none

theorem nearest_points (ps : List (Point K)) : (points ps).nearest position =
    Nearest.best position (Point.nearest · position) ps := rfl

end Shape

/-! ### What holds of a part -/

namespace Nearest.Lasting

variable (h : Nearest.Lasting position Q)
include h

theorem path {line : Path K} (part : ∃ e ∈ Path.edges line, Q (e.nearest position)) :
    Q (Path.nearest line position) :=
  h.best part

theorem polygon {p : Polygon K}
    (part : (∃ e ∈ p.rings.flatMap Path.edges, Q (e.nearest position)) ∨
      p.covers position = true) : Q (p.nearest position) := by
  rw [Polygon.nearest]
  split
  case isTrue => exact h.touching position
  case isFalse outside =>
    obtain ⟨e, he, hQ⟩ := part.resolve_right outside
    obtain ⟨ring, hring, he⟩ := List.mem_flatMap.mp he
    refine h.best ⟨ring, ?_, h.path ⟨e, he, hQ⟩⟩
    simpa [Polygon.rings, or_comm] using hring

end Nearest.Lasting

namespace Shape

variable {shapes : List (Shape K)}

/-- Whether something is the case of a part of a shape: of a point that stands by itself, of an
edge, or of an area that covers the position. -/
def HasPart (position : Point K) (Q : Nearest K → Prop) (shape : Shape K) : Prop :=
  (∃ p ∈ shape.spots, Q (p.nearest position)) ∨ (∃ e ∈ shape.edges, Q (e.nearest position)) ∨
    shape.covers position = true

theorem hasPart_collection : HasPart position Q (collection shapes) ↔
    ∃ shape ∈ shapes, HasPart position Q shape := by
  simp only [HasPart, spots_collection, edges_collection, covers_collection, List.mem_flatMap,
    List.any_eq_true]
  constructor
  · rintro (⟨p, ⟨shape, hshape, hp⟩, hQ⟩ | ⟨e, ⟨shape, hshape, he⟩, hQ⟩ | ⟨shape, hshape, hcovers⟩)
    · exact ⟨shape, hshape, .inl ⟨p, hp, hQ⟩⟩
    · exact ⟨shape, hshape, .inr (.inl ⟨e, he, hQ⟩)⟩
    · exact ⟨shape, hshape, .inr (.inr hcovers)⟩
  · rintro ⟨shape, hshape, ⟨p, hp, hQ⟩ | ⟨e, he, hQ⟩ | hcovers⟩
    · exact .inl ⟨p, ⟨shape, hshape, hp⟩, hQ⟩
    · exact .inr (.inl ⟨e, ⟨shape, hshape, he⟩, hQ⟩)
    · exact .inr (.inr ⟨shape, hshape, hcovers⟩)

/-- What holds of the nearest point of a part holds of that of the shape. -/
theorem nearest_of_part (h : Nearest.Lasting position Q) (shape : Shape K)
    (part : HasPart position Q shape) : Q (shape.nearest position) := by
  induction shape using Shape.induction with
  | point p =>
    change Q (p.nearest position)
    simpa [HasPart, spots, edges, covers] using part
  | edge e =>
    change Q (e.nearest position)
    simpa [HasPart, spots, edges, covers] using part
  | path line => exact h.path (by simpa [HasPart, spots, edges, covers] using part)
  | polygon p => exact h.polygon (by simpa [HasPart, spots, edges, covers] using part)
  | points ps =>
    rw [nearest_points]
    exact h.best (by simpa [HasPart, spots, edges, covers] using part)
  | paths lines =>
    obtain ⟨e, ⟨line, hline, he⟩, hQ⟩ : ∃ e, (∃ line ∈ lines, e ∈ Path.edges line) ∧
        Q (e.nearest position) := by
      simpa [HasPart, spots, edges, covers] using part
    exact h.best ⟨line, hline, h.path ⟨e, he, hQ⟩⟩
  | polygons ps =>
    simp only [HasPart, spots, edges, covers, List.not_mem_nil, false_and, exists_false, false_or,
      List.mem_flatMap, List.any_eq_true] at part
    rcases part with ⟨e, ⟨p, hp, he⟩, hQ⟩ | ⟨p, hp, hcovers⟩
    · exact h.best ⟨p, hp, h.polygon (.inl ⟨e, List.mem_flatMap.mpr he, hQ⟩)⟩
    · exact h.best ⟨p, hp, h.polygon (.inr hcovers)⟩
  | box b =>
    rw [nearest]
    split
    case isTrue => exact h.touching position
    case isFalse outside =>
      exact h.best (by simpa [HasPart, spots, edges, covers, outside] using part)
  | triangle a b c =>
    rw [nearest]
    split
    case isTrue => exact h.touching position
    case isFalse outside =>
      exact h.best (by simpa [HasPart, spots, edges, covers, outside] using part)
  | collection shapes ih =>
    obtain ⟨shape, hshape, part⟩ := hasPart_collection.mp part
    rw [nearest_collection]
    exact h.best ⟨shape, hshape, ih shape hshape part⟩

/-- Where every part has no nearest point, the shape has none. -/
theorem nearest_eq_none_of_parts (shape : Shape K) (spots : shape.spots = [])
    (edges : ∀ e ∈ shape.edges, e.nearest position = .none)
    (covers : shape.covers position = false) : shape.nearest position = .none := by
  have polygon {p : Polygon K}
      (edges : ∀ e ∈ p.rings.flatMap Path.edges, e.nearest position = .none)
      (covers : p.covers position = false) : p.nearest position = .none := by
    rw [Polygon.nearest, if_neg (by simp [covers])]
    refine Nearest.best_eq_none fun ring hring => Nearest.best_eq_none fun e he =>
      edges e (List.mem_flatMap.mpr ⟨ring, ?_, he⟩)
    simpa [Polygon.rings, or_comm] using hring
  induction shape using Shape.induction with
  | point p => cases spots
  | edge e => exact edges e List.mem_cons_self
  | path line => exact Nearest.best_eq_none edges
  | polygon p => exact polygon edges covers
  | points ps =>
    cases spots
    rfl
  | paths lines =>
    exact Nearest.best_eq_none fun line hline => Nearest.best_eq_none fun e he =>
      edges e (List.mem_flatMap.mpr ⟨line, hline, he⟩)
  | polygons ps =>
    refine Nearest.best_eq_none fun p hp => polygon (fun e he =>
      edges e (List.mem_flatMap.mpr ⟨p, hp, he⟩)) ?_
    simp only [Shape.covers, List.any_eq_false, Bool.not_eq_true] at covers
    exact covers p hp
  | box b =>
    rw [nearest, if_neg (by simpa [Shape.covers] using covers)]
    exact Nearest.best_eq_none edges
  | triangle a b c =>
    rw [nearest, if_neg (by simpa [Shape.covers] using covers)]
    exact Nearest.best_eq_none edges
  | collection shapes ih =>
    rw [spots_collection, List.flatMap_eq_nil_iff] at spots
    rw [edges_collection] at edges
    rw [covers_collection, List.any_eq_false] at covers
    rw [nearest_collection]
    exact Nearest.best_eq_none fun shape hshape => ih shape hshape (spots shape hshape)
      (fun e he => edges e (List.mem_flatMap.mpr ⟨shape, hshape, he⟩))
      (by simpa using covers shape hshape)

/-- A shape has no nearest point if no point of it stands by itself, no edge of it has a length and
no area of it covers the position, and only then. -/
theorem nearest_eq_none_iff {shape : Shape K} : shape.nearest position = .none ↔
    shape.spots = [] ∧ (∀ e ∈ shape.edges, e.hasLength = false) ∧
      shape.covers position = false := by
  constructor
  · intro none
    have no_part : ¬ HasPart position (· ≠ .none) shape := fun part =>
      nearest_of_part (Nearest.lasting_ne_none position) shape part none
    simp only [HasPart, not_or, not_exists, not_and, not_not, Bool.not_eq_true] at no_part
    obtain ⟨spots, edges, covers⟩ := no_part
    exact ⟨List.eq_nil_iff_forall_not_mem.mpr fun p hp => p.nearest_ne_none position (spots p hp),
      fun e he => Edge.nearest_eq_none_iff.mp (edges e he), covers⟩
  · rintro ⟨spots, edges, covers⟩
    exact nearest_eq_none_of_parts shape spots
      (fun e he => Edge.nearest_eq_none_iff.mpr (edges e he)) covers

theorem outline_collection : (collection shapes).outline = shapes.flatMap outline := by
  change outline.outlines shapes = _
  induction shapes with
  | nil => rfl
  | cons shape rest ih => rw [outline.outlines, ih, List.flatMap_cons]

/-- The edges of the outline are edges of the shape. -/
theorem outline_edges_subset (shape : Shape K) : Boundary.edges shape.outline ⊆ shape.edges := by
  induction shape using Shape.induction with
  | point p => exact List.nil_subset _
  | points ps => exact List.nil_subset _
  | edge e => simp [Boundary.edges, outline, edges, Path.edges]
  | path line => simp [Boundary.edges, outline, edges]
  | paths lines => exact List.Subset.refl _
  | polygon p => exact List.Subset.refl _
  | polygons ps => simp [Boundary.edges, outline, edges, List.flatMap_assoc]
  | box b => simp [Boundary.edges, outline, edges, Polygon.rings, Box.polygon, Polygon.ofPaths]
  | triangle a b c =>
    have closed : Path.closed [a, b, c] = [a, b, c] ∨ Path.closed [a, b, c] = [a, b, c, a] := by
      change (if a.same c then _ else _) = _ ∨ (if a.same c then _ else _) = _
      split
      · exact .inl rfl
      · exact .inr rfl
    rcases closed with h | h <;>
      simp [Boundary.edges, outline, edges, Polygon.rings, Polygon.ofPaths, h, Path.edges]
  | collection shapes ih =>
    rw [Boundary.edges, outline_collection, List.flatMap_assoc, edges_collection]
    intro e he
    obtain ⟨shape, hshape, he⟩ := List.mem_flatMap.mp he
    exact List.mem_flatMap.mpr ⟨shape, hshape, ih shape hshape he⟩

end Shape

end Geotrack
