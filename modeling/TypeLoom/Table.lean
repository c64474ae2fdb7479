/-
**Tables: values by name, in the order in which the names were first put in.**
-/

namespace TypeLoom

/-- Values by name. -/
abbrev Table (α : Type) := List (String × α)

namespace Table

variable {α : Type}

/-- The table after a name got a value: a new name comes last, a known one keeps its place. -/
def put (table : Table α) (name : String) (value : α) : Table α :=
  match table with
  | [] => [(name, value)]
  | (key, old) :: rest =>
    if key == name then (key, value) :: rest else (key, old) :: put rest name value

/-- The value of a name. -/
def get? (table : Table α) (name : String) : Option α :=
  table.lookup name

@[simp] theorem get?_nil (name : String) : get? ([] : Table α) name = none :=
  rfl

@[simp] theorem get?_cons (key name : String) (value : α) (rest : Table α) :
    get? ((key, value) :: rest) name = if name = key then some value else get? rest name := by
  by_cases same : name = key
  · simp [get?, same]
  · have different : (name == key) = false := by simpa using same
    simp [get?, List.lookup_cons, different, same]

theorem get?_put (table : Table α) (name other : String) (value : α) :
    (table.put name value).get? other = if other = name then some value else table.get? other := by
  induction table with
  | nil => simp [put]
  | cons entry rest ih =>
    obtain ⟨key, old⟩ := entry
    by_cases known : key = name
    · by_cases here : other = name <;> simp [put, known, here]
    · by_cases here : other = key
      · simp [put, known, here]
      · simp [put, known, here, ih]

end Table

end TypeLoom
