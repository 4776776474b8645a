import Templates.Proofs.Component.Binding
import Templates.Proofs.Component.Presented
import Templates.Proofs.Markup.Formed

/-!
Where the trees stand that are offered to a slot, if the first slot of its name is in no other slot.

It is one place of the bound markup, whatever is offered, and nothing but elements is around it.
-/

namespace Templates.Slot

open Markup

/-- Trees around a place: beside it, and with elements above it. -/
inductive Around where
  | here (left right : List Tree)
  | inside (left : List Tree) (e : Element) (inner : Around) (right : List Tree)
deriving Repr

namespace Around

/-- The trees with others put in the place. -/
def plug : Around → List Tree → List Tree
  | here left right, trees => left ++ trees ++ right
  | inside left e inner right, trees => left ++ .node (.element e) (inner.plug trees) :: right

/-- More trees around a place. -/
def beside (left : List Tree) (around : Around) (right : List Tree) : Around :=
  match around with
  | here left' right' => here (left ++ left') (right' ++ right)
  | inside left' e inner right' => inside (left ++ left') e inner (right' ++ right)

/-- More trees stand beside whatever is put in the place. -/
theorem plug_beside (left right trees : List Tree) (around : Around) :
    (beside left around right).plug trees = left ++ around.plug trees ++ right := by
  cases around <;> simp [beside, plug]

end Around

mutual

/-- The slots of a tree by their names, and whether each of them is in another slot. -/
def nesting (inside : Bool) : Tree → List (Text × Bool)
  | .node content children =>
    match slotName? content with
    | some name => (name, inside) :: nestingAll true children
    | none => nestingAll inside children

/-- The slots of a forest by their names, and whether each of them is in another slot. -/
def nestingAll (inside : Bool) : List Tree → List (Text × Bool)
  | [] => []
  | tree :: rest => nesting inside tree ++ nestingAll inside rest

end

mutual

/-- Whether only elements have trees below them. -/
def isSound : Tree → Bool
  | .node content children => (content.element?.isSome || children.isEmpty) && areSound children

/-- Whether only elements of a forest have trees below them. -/
def areSound : List Tree → Bool
  | [] => true
  | tree :: rest => isSound tree && areSound rest

end

mutual

/-- The names of the slots are those in the tree. -/
theorem names_nesting (inside : Bool) :
    ∀ tree : Tree, (nesting inside tree).map Prod.fst = slotNames tree
  | .node content children => by
    rw [nesting, slotNames]
    cases slotName? content with
    | none => exact names_nestingAll inside children
    | some name => rw [List.map_cons, names_nestingAll true children]; rfl

/-- The names of the slots are those in the forest. -/
theorem names_nestingAll (inside : Bool) :
    ∀ trees : List Tree, (nestingAll inside trees).map Prod.fst = slotNamesAll trees
  | [] => rfl
  | tree :: rest => by
    rw [nestingAll, slotNamesAll, List.map_append, names_nesting inside tree,
      names_nestingAll inside rest]

end

mutual

/-- All slots of a tree in a slot are in that slot. -/
theorem nesting_true : ∀ (tree : Tree), ∀ slot ∈ nesting true tree, slot.2 = true
  | .node content children => by
    -- Whether the node is a slot or not, everything below it is in a slot.
    rw [nesting]
    cases slotName? content with
    | none => exact nestingAll_true children
    | some name => exact List.forall_mem_cons.mpr ⟨rfl, nestingAll_true children⟩

/-- All slots of a forest in a slot are in that slot. -/
theorem nestingAll_true : ∀ (trees : List Tree), ∀ slot ∈ nestingAll true trees, slot.2 = true
  | [] => fun _ listed => nomatch listed
  | tree :: rest => by
    rw [nestingAll]
    exact List.forall_mem_append.mpr ⟨nesting_true tree, nestingAll_true rest⟩

end

section Congr

variable {offered other : Text → List Tree}

/-- Names to which the same is offered take the same. -/
theorem taken_congr {seen : List Text} {name : Text}
    (same : name ∉ seen → other name = offered name) :
    taken other seen name = taken offered seen name := by
  rw [taken, taken]
  by_cases known : name ∈ seen
  · simp [known]
  · rw [same known]

mutual

/-- A tree is filled in the same way if the same is offered to all new names in it. -/
theorem filled_congr (seen : List Text) : ∀ tree : Tree,
    (∀ name ∈ slotNames tree, name ∉ seen → other name = offered name) →
      filled other seen tree = filled offered seen tree
  | .node content children => fun same => by
    -- What is new below the node is new in front of it as well.
    rw [slotNames] at same
    have inner := filledAll_congr (seen ++ (slotName? content).toList) children
      fun name listed new => same name (List.mem_append_right _ listed) fun known =>
        new (List.mem_append_left _ known)
    rw [filled, filled, inner]
    cases named : slotName? content with
    | none => rfl
    | some name =>
      rw [Option.bind_some, Option.bind_some, taken_congr (same name (by simp [named]))]

/-- A forest is filled in the same way if the same is offered to all new names in it. -/
theorem filledAll_congr (seen : List Text) : ∀ trees : List Tree,
    (∀ name ∈ slotNamesAll trees, name ∉ seen → other name = offered name) →
      filledAll other seen trees = filledAll offered seen trees
  | [] => fun _ => rfl
  | tree :: rest => fun same => by
    rw [slotNamesAll] at same
    rw [filledAll, filledAll, filled_congr seen tree fun name listed new =>
      same name (List.mem_append_left _ listed) new,
      filledAll_congr (seen ++ slotNames tree) rest fun name listed new =>
        same name (List.mem_append_right _ listed) fun known =>
          new (List.mem_append_left _ known)]

end

mutual

/-- A tree is bound in the same way if the same is offered to all new names in it. -/
theorem bound_congr (seen : List Text) : ∀ tree : Tree,
    (∀ name ∈ slotNames tree, name ∉ seen → other name = offered name) →
      bound other seen tree = bound offered seen tree
  | .node content children => fun same => by
    rw [slotNames] at same
    rw [bound, bound]
    cases named : slotName? content with
    | none =>
      -- No name is new in front of the children that is not new below them.
      rw [boundAll_congr seen children fun name listed new =>
        same name (List.mem_append_right _ listed) new]
    | some name =>
      have inner := filledAll_congr (seen ++ [name]) children fun name listed new =>
        same name (List.mem_append_right _ listed) fun known =>
          new (List.mem_append_left _ known)
      dsimp only
      rw [taken_congr (same name (by simp [named])), inner]

/-- A forest is bound in the same way if the same is offered to all new names in it. -/
theorem boundAll_congr (seen : List Text) : ∀ trees : List Tree,
    (∀ name ∈ slotNamesAll trees, name ∉ seen → other name = offered name) →
      boundAll other seen trees = boundAll offered seen trees
  | [] => fun _ => rfl
  | tree :: rest => fun same => by
    rw [slotNamesAll] at same
    rw [boundAll, boundAll, bound_congr seen tree fun name listed new =>
      same name (List.mem_append_left _ listed) new,
      boundAll_congr (seen ++ slotNames tree) rest fun name listed new =>
        same name (List.mem_append_right _ listed) fun known =>
          new (List.mem_append_left _ known)]

end

end Congr

section Place

variable {name : Text}

mutual

/-- What is offered to a name stands at one place of a bound tree, if the first slot of the name is
in no other slot. -/
theorem exists_around (offered : Text → List Tree) (seen : List Text) (new : name ∉ seen) :
    ∀ tree : Tree, isSound tree = true → (nesting false tree).lookup name = some false →
      ∃ around : Around, ∀ other : Text → List Tree,
        (∀ wanted, wanted ≠ name → other wanted = offered wanted) → other name ≠ [] →
          bound other seen tree = around.plug (other name)
  | .node content children => fun sound first => by
    rw [isSound, Bool.and_eq_true] at sound
    rw [nesting] at first
    cases named : slotName? content with
    | some own =>
      rw [named, lookup_cons_eq_ite] at first
      by_cases same : name = own
      · -- The slot has the name, and takes all that is offered.
        subst same
        refine ⟨.here [] [], fun other _ some => ?_⟩
        have takes : taken other seen name = .some (other name) := by
          simp [taken, new, some]
        rw [bound, named]
        dsimp only
        rw [takes]
        simp [Around.plug]
      · -- Whatever is in the slot is in another one.
        rw [if_neg same] at first
        obtain ⟨_, _, split, _⟩ := List.lookup_eq_some_iff.mp first
        have inner := nestingAll_true children (name, false) (by simp [split])
        cases inner
    | none =>
      rw [named] at first
      obtain ⟨around, placed⟩ := exists_aroundAll offered seen new children sound.2 first
      cases content with
      | element e =>
        -- The place is below the element, which stays around it.
        refine ⟨.inside [] e around [], fun other agrees some => ?_⟩
        rw [bound, named]
        dsimp only
        rw [placed other agrees some]
        rfl
      | _ =>
        -- Only elements have slots below them.
        have bare : children = [] := by simpa [Content.element?] using sound.1
        rw [bare] at first
        cases first

/-- What is offered to a name stands at one place of a bound forest, if the first slot of the name
is in no other slot. -/
theorem exists_aroundAll (offered : Text → List Tree) (seen : List Text) (new : name ∉ seen) :
    ∀ trees : List Tree, areSound trees = true → (nestingAll false trees).lookup name = some false →
      ∃ around : Around, ∀ other : Text → List Tree,
        (∀ wanted, wanted ≠ name → other wanted = offered wanted) → other name ≠ [] →
          boundAll other seen trees = around.plug (other name)
  | [] => fun _ first => nomatch first
  | tree :: rest => fun sound first => by
    rw [areSound, Bool.and_eq_true] at sound
    rw [nestingAll, List.lookup_append] at first
    by_cases here : name ∈ slotNames tree
    · -- The place is in the first tree, and the name has been seen behind it.
      have own : (nesting false tree).lookup name = some false := by
        -- The first slot of the name is in the first tree, since one of its slots has the name.
        cases found : (nesting false tree).lookup name with
        | none =>
          have absent := lookup_eq_none_iff_notMem.mp found
          rw [names_nesting] at absent
          exact absurd here absent
        | some flag => rwa [found, Option.some_or] at first
      obtain ⟨around, placed⟩ := exists_around offered seen new tree sound.1 own
      refine ⟨.beside [] around (boundAll offered (seen ++ slotNames tree) rest),
        fun other agrees some => ?_⟩
      rw [boundAll, placed other agrees some, Around.plug_beside, List.nil_append,
        boundAll_congr (seen ++ slotNames tree) rest fun wanted _ unseen => agrees wanted ?_]
      rintro rfl
      exact unseen (List.mem_append_right _ here)
    · -- The first tree has no slot of the name.
      have later : (nestingAll false rest).lookup name = some false := by
        have none : (nesting false tree).lookup name = none := by
          rw [lookup_eq_none_iff_notMem, names_nesting]
          exact here
        rwa [none, Option.none_or] at first
      have new' : name ∉ seen ++ slotNames tree := by
        simp [new, here]
      obtain ⟨around, placed⟩ := exists_aroundAll offered (seen ++ slotNames tree) new' rest
        sound.2 later
      refine ⟨.beside (bound offered seen tree) around [], fun other agrees some => ?_⟩
      rw [boundAll, placed other agrees some, Around.plug_beside, List.append_nil,
        bound_congr seen tree fun wanted listed _ => agrees wanted ?_]
      rintro rfl
      exact here listed

end

end Place

section Sound

mutual

/-- Trees that are read have nothing below other nodes than elements. -/
theorem isSound_of_formed : ∀ tree : Tree, tree.Formed → isSound tree = true
  | .node .fragment _ => fun formed => formed.elim
  | .node (.text _) _ => fun formed => by rw [formed.2]; rfl
  | .node (.comment _) _ => fun formed => by rw [formed.2]; rfl
  | .node (.doctype _) _ => fun formed => by rw [formed.2.2]; rfl
  | .node (.element e) children => fun formed => by
    -- There is nothing below the element, or a text, or another forest that was read.
    have inner : areSound children = true := by
      obtain ⟨_, formed⟩ := formed
      split at formed
      · rw [formed]
        rfl
      · split at formed
        · obtain rfl | ⟨text, rfl, _⟩ := formed
          · rfl
          · rfl
        · exact areSound_of_formedAll children formed
    rw [isSound, inner]
    rfl

/-- Forests that are read have nothing below other nodes than elements. -/
theorem areSound_of_formedAll : ∀ trees : List Tree, FormedAll trees → areSound trees = true
  | [] => fun _ => rfl
  | tree :: rest => fun formed => by
    rw [areSound, isSound_of_formed tree formed.1, areSound_of_formedAll rest formed.2.2]
    rfl

end

/-- All trees of a sound forest are sound. -/
theorem areSound_iff {trees : List Tree} :
    areSound trees = true ↔ ∀ tree ∈ trees, isSound tree = true := by
  induction trees with
  | nil => simp [areSound]
  | cons tree rest ih => simp [areSound, ih]

/-- What is below a sound tree is sound. -/
theorem areSound_children {tree : Tree} (sound : isSound tree = true) :
    areSound tree.children = true := by
  obtain ⟨content, children⟩ := tree
  rw [isSound, Bool.and_eq_true] at sound
  exact sound.2

/-- Sound trees are presented as sound trees. -/
theorem areSound_presented {trees : List Tree} (sound : areSound trees = true)
    (attributes : List Attribute) (hidden : List Text) :
    areSound (presented attributes hidden trees) = true := by
  -- The template is taken away first, and then the attributes are set.
  have bare : areSound (unwrapped trees) = true := by
    unfold unwrapped
    split
    · split
      · -- Trees are left as they are or give way to what is below them.
        refine areSound_iff.mpr fun tree listed => ?_
        obtain ⟨outer, known, within⟩ := List.mem_flatMap.mp listed
        have whole := areSound_iff.mp sound outer known
        split at within
        · exact areSound_iff.mp (areSound_children whole) tree within
        · rwa [List.mem_singleton.mp within]
      · exact sound
    · exact sound
  unfold presented
  split
  · -- Attributes are set on elements, and nothing changes below them.
    refine areSound_iff.mpr fun tree listed => ?_
    obtain ⟨plain, known, rfl⟩ := List.mem_map.mp listed
    have whole := areSound_iff.mp bare plain known
    obtain ⟨content, children⟩ := plain
    cases content <;> exact whole
  · exact bare

end Sound

end Templates.Slot
