/-!
# Directories

A directory is a list of named values, sorted by name, with one value to a name, as `put` keeps it;
`find?_put` says what is found after a `put`. `find?` and `remove` serve a list in any order too,
where the first value of a name counts.
-/

namespace Geotrack

abbrev Directory (α : Type) := List (String × α)

namespace Directory

variable {α : Type}

/-- The value of a name, the first one. -/
def find? (name : String) (entries : Directory α) : Option α :=
  (List.find? (·.1 = name) entries).map (·.2)

/-- Sets the value of a name: an old value is replaced. -/
def put (name : String) (value : α) : Directory α → Directory α
  | [] => [(name, value)]
  | (n, v) :: rest =>
    if name < n then (name, value) :: (n, v) :: rest
    else if name = n then (name, value) :: rest
    else (n, v) :: put name value rest

/-- The entries without a name. -/
def remove (name : String) (entries : Directory α) : Directory α :=
  entries.filter (·.1 ≠ name)

/-- Sets the values of a list of entries one after the other. -/
def putAll (entries news : Directory α) : Directory α :=
  news.foldl (fun es (n, v) => put n v es) entries

def ofList (entries : List (String × α)) : Directory α := putAll [] entries

def names (entries : Directory α) : List String := entries.map (·.1)

@[simp] theorem find?_nil (name : String) : find? name ([] : Directory α) = none := rfl

theorem find?_cons (name n : String) (v : α) (rest : Directory α) :
    find? name ((n, v) :: rest) = if n = name then some v else find? name rest := by
  by_cases h : n = name <;> simp [find?, h]

theorem find?_put (name : String) (value : α) (entries : Directory α) (other : String) :
    find? other (put name value entries) =
      if name = other then some value else find? other entries := by
  induction entries with
  | nil => simp [put, find?_cons]
  | cons e rest ih =>
    obtain ⟨n, v⟩ := e
    unfold put
    split
    · rw [find?_cons]
    · split
      · rename_i h
        subst h
        simp only [find?_cons]
        split <;> rfl
      · rename_i h
        simp only [find?_cons, ih]
        by_cases hn : n = other
        · have : ¬ name = other := fun e => h (e.trans hn.symm)
          simp [hn, this]
        · simp [hn]

end Directory

/-- The names of a list in order, each once. -/
def sortedNames (names : List String) : List String :=
  Directory.names (Directory.ofList (names.map (·, ())))

end Geotrack
