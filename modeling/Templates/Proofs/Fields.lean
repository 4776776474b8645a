import Templates.Fields

/-!
Fields that have come about by insertions.

Their names ascend, so that there is one value under each name. Main statement: what is found under
a name is the last value that was inserted under it.
-/

namespace Templates.Fields

variable {α : Type} {fields : Fields α}

/-- Each name stands behind all smaller ones, and none stands there twice. -/
def Ascending (fields : Fields α) : Prop :=
  fields.names.Pairwise (· < ·)

/-- The last value that comes with a name. -/
def last? (name : Text) (pairs : List (Text × α)) : Option α :=
  ((pairs.filter fun pair => pair.1 = name).getLast?).map Prod.snd

/-- An insertion brings in no name but its own. -/
theorem mem_names_insert {name other : Text} {value : α}
    (listed : other ∈ (fields.insert name value).names) : other = name ∨ other ∈ fields.names := by
  induction fields with
  | nil => exact .inl (by simpa [insert, names] using listed)
  | cons pair rest ih =>
    obtain ⟨n, old⟩ := pair
    rw [insert] at listed
    split at listed
    · next same =>
      simpa [names, same] using listed
    · split at listed
      · simpa [names] using listed
      · -- The new name stands further behind.
        rcases List.mem_cons.mp listed with rfl | later
        · exact .inr List.mem_cons_self
        · exact (ih later).imp id (List.mem_cons_of_mem _)

namespace Ascending

/-- An insertion keeps names in order. -/
theorem insert (ascending : fields.Ascending) (name : Text) (value : α) :
    (fields.insert name value).Ascending := by
  induction fields with
  | nil => exact List.pairwise_singleton _ _
  | cons pair rest ih =>
    obtain ⟨n, old⟩ := pair
    obtain ⟨first, others⟩ := List.pairwise_cons.mp ascending
    rw [Fields.insert]
    split
    · next same =>
      subst same
      exact ascending
    · next other =>
      split
      · next before =>
        -- The new name is smaller than the first one, and so than all others.
        have small : name < n := of_decide_eq_true before
        refine List.pairwise_cons.mpr ⟨fun x listed => ?_, ascending⟩
        rcases List.mem_cons.mp listed with rfl | later
        · exact small
        · exact List.lt_trans small (first x later)
      · next behind =>
        have large : n < name := by
          have notSmall : ¬ name < n := fun small => behind (decide_eq_true small)
          exact (List.le_iff_lt_or_eq.mp (List.not_lt.mp notSmall)).resolve_right other
        refine List.pairwise_cons.mpr ⟨fun x listed => ?_, ih others⟩
        rcases mem_names_insert listed with rfl | old
        · exact large
        · exact first x old

/-- Insertions one after the other keep names in order. -/
theorem insertAll (ascending : fields.Ascending) (pairs : List (Text × α)) :
    (fields.insertAll pairs).Ascending := by
  induction pairs generalizing fields with
  | nil => exact ascending
  | cons pair rest ih => exact ih (ascending.insert pair.1 pair.2)

/-- The one value under a name is the last one that comes with it. -/
theorem get?_eq_last? (ascending : fields.Ascending) (name : Text) :
    fields.get? name = last? name fields := by
  induction fields with
  | nil => rfl
  | cons pair rest ih =>
    obtain ⟨n, value⟩ := pair
    obtain ⟨first, others⟩ := List.pairwise_cons.mp ascending
    rw [get?, last?]
    by_cases same : n = name
    · -- All other names are larger.
      subst same
      have none : rest.filter (fun pair => pair.1 = n) = [] := by
        rw [List.filter_eq_nil_iff]
        intro pair listed again
        have larger := first pair.1 (List.mem_map_of_mem listed)
        rw [of_decide_eq_true again] at larger
        exact List.lt_irrefl n larger
      simp [none]
    · rw [if_neg same, ih others, last?, List.filter_cons_of_neg (by simpa using same)]

end Ascending

/-- Of the values in two lists those in the second one come last. -/
theorem last?_append (name : Text) (front back : List (Text × α)) :
    last? name (front ++ back) = (last? name back).or (last? name front) := by
  rw [last?, last?, last?, List.filter_append, List.getLast?_append, Option.map_or]

/-- A value that comes last comes with its name. -/
theorem mem_of_last? {name : Text} {value : α} {pairs : List (Text × α)}
    (found : last? name pairs = some value) : (name, value) ∈ pairs := by
  obtain ⟨pair, last, rfl⟩ := Option.map_eq_some_iff.mp found
  obtain ⟨listed, same⟩ := List.mem_filter.mp (List.mem_of_getLast? last)
  rw [← of_decide_eq_true same]
  exact listed

namespace Ascending

/-- What is found under a name stands there with it. -/
theorem get?_eq_some_iff (ascending : fields.Ascending) {name : Text} {value : α} :
    fields.get? name = some value ↔ (name, value) ∈ fields := by
  constructor
  · intro found
    rw [ascending.get?_eq_last?] at found
    exact mem_of_last? found
  · intro listed
    induction fields with
    | nil => cases listed
    | cons pair rest ih =>
      obtain ⟨n, own⟩ := pair
      obtain ⟨first, others⟩ := List.pairwise_cons.mp ascending
      rw [get?]
      rcases List.mem_cons.mp listed with same | later
      · cases same
        exact if_pos rfl
      · -- The name stands further behind, and so it is not the first one.
        have larger : n < name := first name (List.mem_map_of_mem later)
        have other : n ≠ name := fun same => List.lt_irrefl n (same ▸ larger)
        rw [if_neg other]
        exact ih others later

/-- The first pair of a kind has the smallest name of all pairs of that kind. -/
theorem le_of_find? (ascending : fields.Ascending) {kind : Text × α → Bool}
    {first other : Text × α} (found : fields.find? kind = some first) (listed : other ∈ fields)
    (fits : kind other = true) : other = first ∨ first.1 < other.1 := by
  induction fields with
  | nil => cases listed
  | cons pair rest ih =>
    obtain ⟨smaller, others⟩ := List.pairwise_cons.mp ascending
    rw [List.find?_cons] at found
    cases own : kind pair with
    | true =>
      -- The first pair of all is of the kind, and its name is smaller than all others.
      rw [own] at found
      cases found
      rcases List.mem_cons.mp listed with same | later
      · exact .inl same
      · exact .inr (smaller other.1 (List.mem_map_of_mem later))
    | false =>
      rw [own] at found
      rcases List.mem_cons.mp listed with rfl | later
      · rw [own] at fits
        cases fits
      · exact ih others found later

end Ascending

/-- What is found under a name is the last value inserted under it, or else what was there. -/
theorem get?_insertAll (fields : Fields α) (pairs : List (Text × α)) (name : Text) :
    (fields.insertAll pairs).get? name = (last? name pairs).or (fields.get? name) := by
  induction pairs generalizing fields with
  | nil => rfl
  | cons pair rest ih =>
    obtain ⟨n, value⟩ := pair
    have step : fields.insertAll ((n, value) :: rest) = (fields.insert n value).insertAll rest := rfl
    rw [step, ih, ← List.singleton_append, last?_append, Option.or_assoc]
    congr 1
    -- The first pair counts if no later one has its name.
    by_cases same : n = name
    · subst same
      simp [last?]
    · simp [last?, same, get?_insert_of_ne (Ne.symm same)]

/-- What is found after insertions has been inserted, or was there before. -/
theorem mem_of_get?_insertAll {name : Text} {value : α} {pairs : List (Text × α)}
    (found : (fields.insertAll pairs).get? name = some value) :
    fields.get? name = some value ∨ (name, value) ∈ pairs := by
  rw [get?_insertAll] at found
  rcases Option.or_eq_some_iff.mp found with last | ⟨_, before⟩
  · exact .inr (mem_of_last? last)
  · exact .inl before

end Templates.Fields
