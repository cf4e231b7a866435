/-!
# Wordings

A type of a few values has a fixed word for each of them. `Wording.ofWord?` reads exactly the words
that are written: `ofWord?_word` where no two values share a word.
-/

namespace Geotrack

class Wording (α : Type) where
  /-- All values of the type. -/
  all : List α
  word : α → String

namespace Wording

variable {α : Type} [Wording α]

/-- The value that a word stands for. -/
def ofWord? (s : String) : Option α := all.find? (word · = s)

theorem word_of_ofWord? {s : String} {a : α} (h : ofWord? s = some a) : word a = s := by
  simpa using List.find?_some h

theorem ofWord?_word (a : α) (mem : a ∈ all) (inj : ∀ b : α, word b = word a → b = a) :
    ofWord? (word a) = some a := by
  cases h : (ofWord? (word a) : Option α) with
  | none => simpa using List.find?_eq_none.1 h a mem
  | some b => rw [inj b (word_of_ofWord? h)]

end Wording

end Geotrack
