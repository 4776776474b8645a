import Templates.Text.Basic

/-! Named fields are kept in the order of their names, each name at most once. -/

namespace Templates

/-- Names with their values, in ascending order of the names. -/
abbrev Fields (α : Type) := List (Text × α)

namespace Fields

variable {α : Type}

/-- The value under a name. -/
def get? (name : Text) : Fields α → Option α
  | [] => none
  | (n, value) :: rest => if n = name then some value else get? name rest

/-- A new value takes the place of an old one of the same name. -/
def insert (name : Text) (value : α) : Fields α → Fields α
  | [] => [(name, value)]
  | (n, old) :: rest =>
    if n = name then (name, value) :: rest
    else if Text.before name n then (name, value) :: (n, old) :: rest
    else (n, old) :: insert name value rest

/-- Pairs are inserted in order, so of equal names the last one counts. -/
def insertAll (fields : Fields α) (pairs : List (Text × α)) : Fields α :=
  pairs.foldl (fun fields (name, value) => fields.insert name value) fields

/-- Fields from pairs in any order; of equal names the last one counts. -/
def ofList (pairs : List (Text × α)) : Fields α :=
  insertAll [] pairs

/-- The names in order. -/
def names (fields : Fields α) : List Text :=
  fields.map Prod.fst

/-- There is nothing to be found without fields. -/
@[simp] theorem get?_nil (name : Text) : get? name ([] : Fields α) = none := rfl

/-- A value just inserted is found under its name. -/
@[simp] theorem get?_insert_self (name : Text) (value : α) (fields : Fields α) :
    (fields.insert name value).get? name = some value := by
  -- The new pair stands where the name was, in front of a later name, or behind all earlier ones.
  induction fields with
  | nil => simp [insert, get?]
  | cons pair rest ih =>
    rcases pair with ⟨n, old⟩
    by_cases same : n = name
    · simp [insert, get?, same]
    · by_cases first : Text.before name n = true
      · simp [insert, get?, same, first]
      · simp [insert, get?, same, first, ih]

/-- Inserting leaves the values under other names alone. -/
theorem get?_insert_of_ne {name other : Text} (different : other ≠ name) (value : α)
    (fields : Fields α) : (fields.insert name value).get? other = fields.get? other := by
  -- The new pair is skipped by the search, wherever it stands.
  induction fields with
  | nil => simp [insert, get?, Ne.symm different]
  | cons pair rest ih =>
    rcases pair with ⟨n, old⟩
    by_cases same : n = name
    · subst same
      simp [insert, get?, Ne.symm different]
    · by_cases first : Text.before name n = true
      · simp [insert, get?, same, first, Ne.symm different]
      · simp [insert, get?, same, first, ih]

end Fields

end Templates
