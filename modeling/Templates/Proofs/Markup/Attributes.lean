import Templates.Markup.Basic
import Templates.Proofs.Names

/-!
Attributes set on an element, one after the other.

Main statement: a name is looked up as the last one set under it, every attribute that was there
keeps its place, and new ones follow in the order in which they are set first. This tells the
element in full.
-/

namespace Templates

/-- Names are the same if they are so in small letters. -/
theorem Text.sameName_iff {left right : Text} :
    sameName left right = true ↔ asciiLower left = asciiLower right := by
  rw [sameName, decide_eq_true_eq]

namespace Markup

/-- The name in small letters, which tells attributes apart. -/
def Attribute.key (a : Attribute) : Text :=
  Text.asciiLower a.name

namespace Element

/-- The names of the attributes in small letters. -/
def keys (e : Element) : List Text :=
  e.attributes.map Attribute.key

/-- The element with attributes set one after the other. -/
def setAttributes (given : List Attribute) (e : Element) : Element :=
  given.foldl (fun e a => e.setAttribute a) e

/-- The names that are not known, each of them once. -/
def newNames (known names : List Text) : List Text :=
  (names.filter (!known.contains ·)).eraseDups

/-- How attributes that are set on an element change it. -/
structure Receives (given : List Attribute) (e after : Element) : Prop where
  name : after.name = e.name
  selfClosing : after.selfClosing = e.selfClosing
  /-- The last attribute set under a name is found, and the old one if there is none. -/
  lookup : ∀ name, after.attribute? name =
    (given.filter fun a => Text.sameName a.name name).getLast?.or (e.attribute? name)
  /-- New names come last, in the order in which they are set first. -/
  keys : after.keys = e.keys ++ newNames e.keys (given.map Attribute.key)
  /-- Where a name stands for a second time, it stays with its value. -/
  shadowed : ∀ i j, j < i → i < e.attributes.length → e.keys[j]? = e.keys[i]? →
    after.attributes[i]? = e.attributes[i]?

/-- An attribute that is put among others is found under its name, and they under theirs. -/
theorem find?_putAttribute (a : Attribute) (name : Text) (attributes : List Attribute) :
    (putAttribute a attributes).find? (fun old => Text.sameName old.name name) =
      if Text.sameName a.name name then some a
      else attributes.find? fun old => Text.sameName old.name name := by
  induction attributes with
  | nil => cases asked : Text.sameName a.name name <;> simp [putAttribute, asked]
  | cons old rest ih =>
    rw [putAttribute]
    split
    · next same =>
      -- The one whose place is taken has the same name.
      have both : Text.sameName old.name name = Text.sameName a.name name := by
        rw [Text.sameName, Text.sameName, Text.sameName_iff.mp same]
      rw [List.find?_cons, List.find?_cons, both]
      cases Text.sameName a.name name <;> rfl
    · next other =>
      rw [List.find?_cons, List.find?_cons, ih]
      cases asked : Text.sameName old.name name with
      | false => rfl
      | true =>
        have apart : ¬ Text.sameName a.name name = true := fun found =>
          other (Text.sameName_iff.mpr
            ((Text.sameName_iff.mp asked).trans (Text.sameName_iff.mp found).symm))
        exact (if_neg apart).symm

/-- A new name comes last. -/
theorem keys_putAttribute (a : Attribute) (attributes : List Attribute) :
    (putAttribute a attributes).map Attribute.key =
      if a.key ∈ attributes.map Attribute.key then attributes.map Attribute.key
      else attributes.map Attribute.key ++ [a.key] := by
  induction attributes with
  | nil => rfl
  | cons old rest ih =>
    rw [putAttribute]
    by_cases same : Text.sameName old.name a.name = true
    · have key : old.key = a.key := Text.sameName_iff.mp same
      simp [same, key]
    · have key : ¬ a.key = old.key := fun equal => same (Text.sameName_iff.mpr equal.symm)
      rw [if_neg same, List.map_cons, List.map_cons, ih]
      simp only [List.mem_cons, key, false_or]
      split <;> rfl

/-- An attribute of another name stays where it is. -/
theorem putAttribute_other {a old : Attribute} (other : old.key ≠ a.key)
    {attributes : List Attribute} {i : Nat} (there : attributes[i]? = some old) :
    (putAttribute a attributes)[i]? = some old := by
  induction attributes generalizing i with
  | nil => cases there
  | cons first rest ih =>
    rw [putAttribute]
    cases i with
    | zero =>
      obtain rfl : first = old := Option.some.inj there
      rw [if_neg fun same => other (Text.sameName_iff.mp same)]
      rfl
    | succ i =>
      split
      · exact there
      · exact ih there

/-- Behind the first attribute of the name all stay where they are. -/
theorem putAttribute_behind {a first : Attribute} (same : first.key = a.key)
    {attributes : List Attribute} {i j : Nat} (there : attributes[j]? = some first)
    (behind : j < i) : (putAttribute a attributes)[i]? = attributes[i]? := by
  induction attributes generalizing i j with
  | nil => cases there
  | cons old rest ih =>
    obtain ⟨i, rfl⟩ := Nat.exists_eq_add_one_of_ne_zero (Nat.ne_zero_of_lt behind)
    rw [putAttribute]
    split
    · rfl
    · next other =>
      cases j with
      | zero =>
        obtain rfl : old = first := Option.some.inj there
        exact absurd (Text.sameName_iff.mpr same) other
      | succ j => exact ih there (Nat.lt_of_succ_lt_succ behind)

/-- Where a name stands for a second time, the attribute stays. -/
theorem putAttribute_shadowed (a : Attribute) {attributes : List Attribute} {i j : Nat}
    (behind : j < i) (within : i < attributes.length)
    (same : (attributes.map Attribute.key)[j]? = (attributes.map Attribute.key)[i]?) :
    (putAttribute a attributes)[i]? = attributes[i]? := by
  have there := List.getElem?_eq_getElem within
  have earlier := List.getElem?_eq_getElem (Nat.lt_trans behind within)
  rw [List.getElem?_map, List.getElem?_map, there, earlier] at same
  -- Either its name is another one, or the place that is taken is in front of it.
  by_cases key : attributes[i].key = a.key
  · exact putAttribute_behind ((Option.some.inj same).trans key) earlier behind
  · exact (putAttribute_other key there).trans there.symm

/-- A name that comes last is a new one, unless it is known or has come before. -/
theorem newNames_snoc (known names : List Text) (name : Text) :
    newNames known (names ++ [name]) =
      if name ∈ known ++ newNames known names then newNames known names
      else newNames known names ++ [name] := by
  rw [newNames, List.filter_append]
  by_cases old : name ∈ known
  · simp [newNames, old]
  · rw [List.filter_cons_of_pos (by simpa using old), List.filter_nil, eraseDups_snoc]
    by_cases seen : name ∈ names <;> simp [newNames, old, seen]

/-- An element receives the attributes that are set on it one after the other. -/
theorem receives_setAttributes (given : List Attribute) (e : Element) :
    Receives given e (e.setAttributes given) := by
  -- Each attribute is set on the element with all those before it.
  induction given using List.reverseRecOn with
  | nil =>
    exact ⟨rfl, rfl, fun _ => rfl, (List.append_nil _).symm, fun _ _ _ _ _ => rfl⟩
  | append_singleton given a ih =>
    have last : e.setAttributes (given ++ [a]) = (e.setAttributes given).setAttribute a := by
      rw [setAttributes, List.foldl_append]
      rfl
    rw [last]
    refine ⟨ih.name, ih.selfClosing, fun name => ?_, ?_, fun i j behind within same => ?_⟩
    · rw [attribute?, setAttribute, find?_putAttribute, ← attribute?, ih.lookup, List.filter_append]
      cases asked : Text.sameName a.name name <;> simp [asked]
    · rw [Element.keys, setAttribute, keys_putAttribute, ← Element.keys, ih.keys, List.map_append,
        List.map_singleton, newNames_snoc]
      split
      · rfl
      · rw [List.append_assoc]
    · -- The places of the old attributes are in front, under the same names.
      have front {k : Nat} (inside : k < e.attributes.length) :
          (e.setAttributes given).keys[k]? = e.keys[k]? := by
        rw [ih.keys, List.getElem?_append_left (by rwa [Element.keys, List.length_map])]
      have count :
          (e.setAttributes given).keys.length = (e.setAttributes given).attributes.length :=
        List.length_map _
      have more : e.attributes.length ≤ (e.setAttributes given).attributes.length := by
        rw [← count, ih.keys, List.length_append, Element.keys, List.length_map]
        exact Nat.le_add_right _ _
      rw [setAttribute, putAttribute_shadowed a behind (Nat.lt_of_lt_of_le within more)]
      · exact ih.shadowed i j behind within same
      · exact ((front (Nat.lt_trans behind within)).trans same).trans (front within).symm

/-- Where a name stands for the first time, its attribute is found. -/
theorem attribute?_of_first {e : Element} {i : Nat} {a : Attribute}
    (there : e.attributes[i]? = some a) (first : ∀ j < i, e.keys[j]? ≠ e.keys[i]?) :
    e.attribute? a.name = some a := by
  obtain ⟨within, own⟩ := List.getElem?_eq_some_iff.mp there
  refine List.find?_eq_some_iff_getElem.mpr ⟨by simp [Text.sameName], i, within, own, ?_⟩
  intro j before
  rw [Bool.not_eq_true', Bool.eq_false_iff]
  intro same
  have earlier : e.attributes[j]? = some e.attributes[j] := List.getElem?_eq_getElem _
  refine first j before ?_
  rw [keys, List.getElem?_map, List.getElem?_map, there, earlier]
  exact congrArg some (Text.sameName_iff.mp same)

/-- No name is new twice, and none that is new is known. -/
theorem newNames_distinct (known names : List Text) :
    (newNames known names).Nodup ∧ ∀ name ∈ newNames known names, name ∉ known := by
  refine ⟨nodup_eraseDups _, fun name listed => ?_⟩
  simpa using (List.mem_filter.mp (List.mem_eraseDups.mp listed)).2

namespace Receives

variable {given : List Attribute} {e after other : Element}

/-- A name stands for a second time only where it did so before. -/
theorem lt_of_shadowed (receives : Receives given e after) {i j : Nat} (behind : j < i)
    (within : i < after.keys.length) (same : after.keys[j]? = after.keys[i]?) :
    i < e.attributes.length := by
  obtain ⟨distinct, unknown⟩ := newNames_distinct e.keys (given.map Attribute.key)
  have count : e.keys.length = e.attributes.length := List.length_map _
  by_contra late
  -- A name further behind is a new one, and these differ from all others.
  have beyond : e.keys.length ≤ i := by omega
  rw [receives.keys, List.length_append] at within
  rw [receives.keys, List.getElem?_append_right beyond,
    List.getElem?_eq_getElem (i := i - e.keys.length) (by omega)] at same
  by_cases early : j < e.keys.length
  · rw [List.getElem?_append_left early] at same
    exact unknown _ (List.getElem_mem _) (List.mem_of_getElem? same)
  · rw [List.getElem?_append_right (by omega),
      List.getElem?_eq_getElem (i := j - e.keys.length) (by omega)] at same
    have places := (List.Nodup.getElem_inj_iff distinct).mp (Option.some.inj same)
    omega

/-- Behind the same name in front, both have the attribute of the old element. -/
theorem eq_shadowed (receives : Receives given e after) {i j : Nat} (behind : j < i)
    (within : i < after.keys.length) (same : after.keys[j]? = after.keys[i]?) :
    after.attributes[i]? = e.attributes[i]? := by
  have old := receives.lt_of_shadowed behind within same
  have count : e.keys.length = e.attributes.length := List.length_map _
  rw [receives.keys, List.getElem?_append_left (by omega),
    List.getElem?_append_left (by omega)] at same
  exact receives.shadowed i j behind old same

/-- Where a name stands for the first time, both have what is found under it. -/
theorem eq_of_first (one : Receives given e after) (another : Receives given e other)
    (keys : after.keys = other.keys) {i : Nat} {a b : Attribute}
    (there : after.attributes[i]? = some a) (there' : other.attributes[i]? = some b)
    (key : b.key = a.key) (first : ∀ j < i, after.keys[j]? ≠ after.keys[i]?) : a = b := by
  have found := attribute?_of_first there first
  have found' := attribute?_of_first there' (keys ▸ first)
  have asked (name : Text) : Text.sameName name b.name = Text.sameName name a.name := by
    rw [Text.sameName, Text.sameName, show Text.asciiLower b.name = _ from key]
    rfl
  refine Option.some.inj ?_
  rw [← found, ← found', one.lookup, another.lookup]
  simp only [Element.attribute?, asked]

/-- The same attributes set on the same element give the same element. -/
theorem unique (one : Receives given e after) (another : Receives given e other) :
    after = other := by
  have keys : after.keys = other.keys := one.keys.trans another.keys.symm
  have attributes : after.attributes = other.attributes := by
    refine List.ext_getElem? fun i => ?_
    have named :
        after.attributes[i]?.map Attribute.key = other.attributes[i]?.map Attribute.key := by
      rw [← List.getElem?_map, ← List.getElem?_map]
      exact congrArg (·[i]?) keys
    cases there : after.attributes[i]? with
    | none =>
      rw [there] at named
      exact (Option.map_eq_none_iff.mp named.symm).symm
    | some a =>
      have within : i < after.keys.length := by
        rw [Element.keys, List.length_map]
        exact (List.getElem?_eq_some_iff.mp there).1
      by_cases shadowed : ∃ j < i, after.keys[j]? = after.keys[i]?
      · -- Both have kept what is found behind the first attribute of a name.
        obtain ⟨j, behind, same⟩ := shadowed
        rw [← there, one.eq_shadowed behind within same]
        rw [keys] at within same
        exact (another.eq_shadowed behind within same).symm
      · -- Both find the same attribute when they are asked for its name.
        rw [there] at named
        obtain ⟨b, there', key⟩ := Option.map_eq_some_iff.mp named.symm
        rw [there', one.eq_of_first another keys there there' key fun j behind same =>
          shadowed ⟨j, behind, same⟩]
  obtain ⟨name, attributes', selfClosing⟩ := after
  obtain ⟨name', attributes'', selfClosing'⟩ := other
  have names : name = name' := one.name.trans another.name.symm
  have closing : selfClosing = selfClosing' := one.selfClosing.trans another.selfClosing.symm
  rw [names, closing, show attributes' = attributes'' from attributes]

end Receives

end Element

end Markup

end Templates
