import Templates.Component.Expand
import Templates.Component.Registry
import Templates.Proofs.Fields
import Templates.Proofs.Text.Words

/-!
Which component a tag in a page stands for after components have been registered.

Tags in a page are lowered, while components are registered under tags in letters of any case, as
long as no other tag is the same letter by letter. Main statement: a component is found under every
spelling of its tag unless another registered spelling takes precedence, which is the one in small
letters or else the first one in order.
-/

namespace Templates

namespace Components

/-- Components are registered one after the other; one that is refused is left out. -/
def registerAll : List (Text × Component) → Components → Components
  | [], components => components
  | (tag, component) :: rest, components =>
    match components.register tag component with
    | .ok next => registerAll rest next
    | .error _ => registerAll rest components

/-- The components that are not refused when they are registered one after the other, with the tags
that they are registered under. -/
def accepted : List (Text × Component) → Components → List (Text × Component)
  | [], _ => []
  | (tag, component) :: rest, components =>
    match components.register tag component with
    | .ok next => (Text.trim tag, component) :: accepted rest next
    | .error _ => accepted rest components

/-- One of two spellings of a tag takes precedence over the other: it is in small letters, or else
comes before the other, which is not in small letters either. -/
def Shadows (other tag : Text) : Prop :=
  Text.asciiLower other = Text.asciiLower tag ∧ other ≠ tag ∧
    (other = Text.asciiLower tag ∨ tag ≠ Text.asciiLower tag ∧ Text.before other tag = true)

instance (other tag : Text) : Decidable (Shadows other tag) :=
  inferInstanceAs (Decidable (_ ∧ _ ∧ (_ ∨ _ ∧ _)))

variable {components next : Components} {tag : Text} {component : Component}

/-- A component is registered under its tag without blanks around it, under which there was none. -/
theorem eq_of_register (registered : components.register tag component = .ok next) :
    components.registered.get? (Text.trim tag) = none ∧
      next = { components with
        registered := components.registered.insert (Text.trim tag) component } := by
  rw [register] at registered
  split at registered
  · cases registered
  · split at registered
    · cases registered
    · rename_i free
      cases registered
      exact ⟨by simpa using free, rfl⟩

/-- Registered components stay in the order of their tags. -/
theorem ascending_registerAll (ascending : components.registered.Ascending)
    (calls : List (Text × Component)) : (registerAll calls components).registered.Ascending := by
  induction calls generalizing components with
  | nil => exact ascending
  | cons call rest ih =>
    obtain ⟨tag, component⟩ := call
    rw [registerAll]
    split
    · rename_i next registered
      obtain ⟨_, rfl⟩ := eq_of_register registered
      exact ih (ascending.insert _ _)
    · exact ih ascending

/-- A component is found under a tag exactly if it was before or has been accepted. -/
theorem get?_registerAll (calls : List (Text × Component)) (components : Components) (tag : Text)
    (component : Component) :
    (registerAll calls components).registered.get? tag = some component ↔
      components.registered.get? tag = some component ∨
        (tag, component) ∈ accepted calls components := by
  induction calls generalizing components with
  | nil => simp [registerAll, accepted]
  | cons call rest ih =>
    obtain ⟨own, new⟩ := call
    rw [registerAll, accepted]
    cases registered : components.register own new with
    | error e => exact ih components
    | ok next =>
      obtain ⟨free, rfl⟩ := eq_of_register registered
      rw [ih, List.mem_cons]
      by_cases same : tag = Text.trim own
      · -- The new component is the only one that can be found under its tag.
        subst same
        simp [free, eq_comm]
      · rw [Fields.get?_insert_of_ne same]
        simp [same]

/-- Under the small letters of a registered tag a component is found that is registered under that
tag or under one that takes precedence, and it is the latter if there is one. -/
theorem get?_asciiLower (ascending : components.registered.Ascending)
    (listed : (tag, component) ∈ components.registered) :
    ∃ first found, (first, found) ∈ components.registered ∧
      components.get? (Text.asciiLower tag) = some found ∧ (first = tag ∨ Shadows first tag) ∧
      ∀ pair ∈ components.registered, Shadows pair.1 tag → first ≠ tag := by
  rw [get?]
  cases exact : components.registered.get? (Text.asciiLower tag) with
  | some found =>
    -- The tag in small letters is registered itself.
    refine ⟨_, found, ascending.get?_eq_some_iff.mp exact, rfl, ?_, fun pair _ shadows same => ?_⟩
    · by_cases same : Text.asciiLower tag = tag
      · exact .inl same
      · exact .inr ⟨Text.asciiLower_asciiLower tag, same, .inl rfl⟩
    · obtain ⟨_, other, small | ⟨capital, _⟩⟩ := shadows
      · exact other (small.trans same)
      · exact capital same.symm
  | none =>
    -- The first spelling in order is found.
    have small : ∀ found, (Text.asciiLower tag, found) ∉ components.registered := by
      intro found listed
      rw [ascending.get?_eq_some_iff.mpr listed] at exact
      cases exact
    have spelled : Text.sameName tag (Text.asciiLower tag) = true := by simp [Text.sameName]
    obtain ⟨⟨first, found⟩, search⟩ : ∃ pair, components.registered.find?
        (fun pair => Text.sameName pair.1 (Text.asciiLower tag)) = some pair :=
      Option.isSome_iff_exists.mp (List.find?_isSome.mpr ⟨_, listed, spelled⟩)
    have same : Text.asciiLower first = Text.asciiLower tag := by
      simpa [Text.sameName] using List.find?_some search
    refine ⟨first, found, List.mem_of_find?_eq_some search, by rw [search]; rfl, ?_, ?_⟩
    · rcases ascending.le_of_find? search listed spelled with here | earlier
      · cases here
        exact .inl rfl
      · refine .inr ⟨same, fun equal => List.lt_irrefl _ (equal ▸ earlier), .inr ⟨?_, ?_⟩⟩
        · intro equal
          exact small component (equal ▸ listed)
        · exact decide_eq_true earlier
    · rintro ⟨other, value⟩ there ⟨alike, different, precedes⟩ rfl
      rcases precedes with lower | ⟨_, before⟩
      · exact small value (lower ▸ there)
      · -- No spelling comes before the first one.
        have early : other < first := of_decide_eq_true before
        have spelledOther : Text.sameName other (Text.asciiLower first) = true := by
          simpa [Text.sameName] using alike
        rcases ascending.le_of_find? search there spelledOther with here | late
        · exact different (congrArg Prod.fst here)
        · exact List.lt_irrefl _ (List.lt_trans early late)

/-- Every registered component is reachable in markup under every spelling of its tag, unless
another registered spelling takes precedence; then a component under such a spelling is found. -/
theorem resolve_accepted (calls : List (Text × Component)) (directory : Option Path)
    {tag : Text} {component : Component}
    (listed : (tag, component) ∈ accepted calls ⟨[], directory⟩)
    (expander : Expander) {e : Markup.Element}
    (spelled : Text.asciiLower e.name = expander.start ++ Text.asciiLower tag)
    (files : Files) (extension : Text) :
    ((∀ pair ∈ accepted calls ⟨[], directory⟩, ¬ Shadows pair.1 tag) →
      (registerAll calls ⟨[], directory⟩).resolve files (expander.callOf e).tag extension =
        .ok (.registered component)) ∧
    ∀ pair ∈ accepted calls ⟨[], directory⟩, Shadows pair.1 tag →
      ∃ other ∈ accepted calls ⟨[], directory⟩, Shadows other.1 tag ∧
        (registerAll calls ⟨[], directory⟩).resolve files (expander.callOf e).tag extension =
          .ok (.registered other.2) := by
  have empty : (Components.mk [] directory).registered.Ascending := .nil
  have ascending := ascending_registerAll empty calls
  -- What is registered in the end is what has been accepted.
  have known (pair : Text × Component) :
      pair ∈ (registerAll calls ⟨[], directory⟩).registered ↔
        pair ∈ accepted calls ⟨[], directory⟩ := by
    rw [← ascending.get?_eq_some_iff, get?_registerAll]
    simp
  have called : (expander.callOf e).tag = Text.asciiLower tag := by
    simp [Expander.callOf, spelled]
  obtain ⟨first, found, there, lookup, owner, precedence⟩ :=
    get?_asciiLower ascending ((known _).mpr listed)
  have resolved : (registerAll calls ⟨[], directory⟩).resolve files (expander.callOf e).tag
      extension = .ok (.registered found) := by
    rw [called, resolve, lookup]
  rw [resolved]
  constructor
  · intro free
    -- Only the tag itself can be the one that is found, and it has one component.
    obtain rfl := owner.resolve_right (free _ ((known _).mp there))
    have own := ascending.get?_eq_some_iff.mpr there
    rw [ascending.get?_eq_some_iff.mpr ((known _).mpr listed)] at own
    rw [Option.some.inj own]
  · intro pair accepted shadows
    refine ⟨(first, found), (known _).mp there, ?_, rfl⟩
    exact owner.resolve_left (precedence pair ((known _).mpr accepted) shadows)

/-- A component of some markup. -/
def plain (markup : Text) : Component :=
  .declare (.template (.inline markup)) []

/-- Three components, two of them under tags that differ in case only, and one that is refused. -/
def threeCalls : List (Text × Component) :=
  [(" UserCard ".toList, plain "u".toList), ("Card".toList, plain "c".toList),
    ("Card ".toList, plain "d".toList), ("caRD".toList, plain "e".toList)]

/-- A tag is found in letters of any case, and of the two that differ in case only the one in front
in the order of tags is. -/
theorem resolve_accepted_threeCalls :
    accepted threeCalls ⟨[], none⟩ = [("UserCard".toList, plain "u".toList),
      ("Card".toList, plain "c".toList), ("caRD".toList, plain "e".toList)] ∧
    (registerAll threeCalls ⟨[], none⟩).resolve (Memory.files [])
        ((Expander.mk "app".toList 8).callOf ⟨"APP-usercarD".toList, [], false⟩).tag "html".toList =
      .ok (.registered (plain "u".toList)) ∧
    (registerAll threeCalls ⟨[], none⟩).resolve (Memory.files [])
        ((Expander.mk "app".toList 8).callOf ⟨"app-caRD".toList, [], false⟩).tag "html".toList =
      .ok (.registered (plain "c".toList)) := by
  have all : accepted threeCalls ⟨[], none⟩ = [("UserCard".toList, plain "u".toList),
      ("Card".toList, plain "c".toList), ("caRD".toList, plain "e".toList)] := rfl
  have user := resolve_accepted threeCalls none (all ▸ List.mem_cons_self)
    ⟨"app".toList, 8⟩ (e := ⟨"APP-usercarD".toList, [], false⟩) rfl (Memory.files []) "html".toList
  have card := resolve_accepted threeCalls none
    (all ▸ List.mem_cons_of_mem _ (List.mem_cons_of_mem _ List.mem_cons_self))
    ⟨"app".toList, 8⟩ (e := ⟨"app-caRD".toList, [], false⟩) rfl (Memory.files []) "html".toList
  rw [all] at user card
  refine ⟨all, user.1 (by decide), ?_⟩
  obtain ⟨other, listed, shadows, resolved⟩ := card.2 ("Card".toList, plain "c".toList)
    (List.mem_cons_of_mem _ List.mem_cons_self) (by decide)
  -- Capital letters come before small ones.
  simp only [List.mem_cons, List.not_mem_nil, or_false] at listed
  rcases listed with rfl | rfl | rfl
  · exact absurd shadows (by decide)
  · exact resolved
  · exact absurd shadows (by decide)

/-- A component is not found under its own tag if that tag in small letters is registered too. -/
theorem resolve_small_card :
    accepted [("card".toList, plain "a".toList), ("Card".toList, plain "b".toList)] ⟨[], none⟩ =
        [("card".toList, plain "a".toList), ("Card".toList, plain "b".toList)] ∧
      (registerAll [("card".toList, plain "a".toList), ("Card".toList, plain "b".toList)]
        ⟨[], none⟩).resolve (Memory.files [])
          ((Expander.mk "app".toList 8).callOf ⟨"app-Card".toList, [], false⟩).tag "html".toList ≠
        .ok (.registered (plain "b".toList)) := by
  refine ⟨rfl, fun resolved => ?_⟩
  have found : plain "a".toList = plain "b".toList := by
    injection resolved with same
    injection same
  exact absurd (congrArg Component.template found) (by decide)

end Components

end Templates
