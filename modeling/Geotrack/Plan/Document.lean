import Geotrack.Analysis.Json
import Geotrack.Plan.Basic
import Geotrack.Toml.Document

/-!
# Plans as documents

A plan is written as a TOML document. Every part of it may be left out. A list may stand for a
record, with the fields in order; what follows the last field is ignored.
-/

namespace Geotrack

/-- The value without what follows the first `count` items, where it is a list. -/
def Json.leading (count : Nat) : Json → Json
  | .array items => .array (items.take count)
  | v => v

def Assignment.ofJson? (v : Json) : Option Assignment := do
  let r ← v.record? ["id", "name", "is_active", "subtype", "analyzers"]
  let subject : Subject := {
    id := ← r.get? "id" Uuid.ofJson?
    name := ← r.get? "name" Json.string?
    active := ← r.getD? "is_active" true Json.bool?
    subtype := ← r.getD? "subtype" none (Json.nullable Json.string?) }
  return ⟨subject, ← r.getD? "analyzers" [] (Json.listOf? Json.string?)⟩

namespace Plan

def ofJson? (v : Json) : Option Plan := do
  let r ← v.record? ["feature_groups", "subtype_filters", "analyzers", "subjects"]
  return {
    groups := ← r.getD? "feature_groups" [] (Json.mapOf? Json.string?)
    filters := ← r.getD? "subtype_filters" [] (Json.mapOf? (TrackFilter.ofJson? ∘ Json.leading 3))
    analyzers := ← r.getD? "analyzers" [] (Json.listOf? (AnalyzerConfig.ofJson? ∘ Json.leading 7))
    assignments := ← r.getD? "subjects" [] (Json.listOf? (Assignment.ofJson? ∘ Json.leading 5)) }

/-- The plan that a document writes. -/
def parse? (document : String) : Option Plan := (Toml.parse? document).bind ofJson?

end Plan

end Geotrack
