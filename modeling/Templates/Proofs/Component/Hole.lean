import Templates.Proofs.Component.Decoded

/-!
Places in forests whose nodes have numbers.

What stands in such a place can be exchanged, looked through and decoded by itself.
-/

namespace Templates

open Markup

namespace Slot.Around

/-- The elements around a place. -/
def elements : Around → List Element
  | here left right => elementsAll left ++ elementsAll right
  | inside left e inner right => elementsAll left ++ e :: (inner.elements ++ elementsAll right)

/-- An element is around the place or in it. -/
theorem mem_elementsAll_plug {around : Around} {trees : List Tree} {e : Element} :
    e ∈ elementsAll (around.plug trees) ↔ e ∈ around.elements ∨ e ∈ elementsAll trees := by
  induction around with
  | here left right =>
    simp only [plug, elements, elementsAll_append, List.mem_append]
    tauto
  | inside left own inner right ih =>
    simp only [plug, elements, elementsAll_append, elementsAll, Tree.elements, Content.element?,
      Option.toList, List.mem_append, List.mem_cons, ih]
    tauto

/-- A place in another place. -/
def within : Around → Around → Around
  | here left right, inner => beside left inner right
  | inside left e middle right, inner => inside left e (middle.within inner) right

/-- What stands in a place in another one stands in the other one with all that is around it. -/
theorem plug_within (outer inner : Around) (trees : List Tree) :
    (outer.within inner).plug trees = outer.plug (inner.plug trees) := by
  induction outer with
  | here left right => rw [within, plug_beside, plug]
  | inside left e middle right ih => rw [within, plug, plug, ih]

/-- A place in which all that is around it is decoded. -/
def decoded : Around → Around
  | here left right => here (decodedAll left) (decodedAll right)
  | inside left e inner right =>
    inside (decodedAll left) (Url.decodeElement e) inner.decoded (decodedAll right)

/-- What stands in a place is decoded with all that is around it. -/
theorem decodedAll_plug (around : Around) (trees : List Tree) :
    decodedAll (around.plug trees) = around.decoded.plug (decodedAll trees) := by
  induction around with
  | here left right => simp only [plug, decoded, decodedAll_append]
  | inside left e inner right ih =>
    rw [plug, decodedAll_append, decodedAll, Tree.decoded, ih]
    rfl

end Slot.Around

namespace Markup.Forest

/-- Forests around a place: beside it, and with elements above it. -/
inductive Hole where
  | here (left right : Forest)
  | inside (left : Forest) (id : NodeId) (e : Element) (inner : Hole) (right : Forest)
deriving Repr

namespace Hole

/-- The forest with another one put in the place. -/
def plug : Hole → Forest → Forest
  | here left right, forest => left.append (forest.append right)
  | inside left id e inner right, forest =>
    left.append (cons id (.element e) (inner.plug forest) right)

/-- The numbers around the place. -/
def ids : Hole → List NodeId
  | here left right => left.ids ++ right.ids
  | inside left id _ inner right => left.ids ++ id :: (inner.ids ++ right.ids)

/-- The trees around the place, without numbers. -/
def around : Hole → Slot.Around
  | here left right => .here left.trees right.trees
  | inside left _ e inner right => .inside left.trees e inner.around right.trees

variable {hole : Hole} {forest : Forest}

theorem trees_plug (hole : Hole) (forest : Forest) :
    (hole.plug forest).trees = hole.around.plug forest.trees := by
  induction hole with
  | here left right => simp [plug, around, Slot.Around.plug]
  | inside left id e inner right ih => simp [plug, around, Slot.Around.plug, trees, ih]

/-- The numbers of a forest are those in the place and those around it. -/
theorem ids_plug (hole : Hole) (forest : Forest) :
    (hole.plug forest).ids.Perm (hole.ids ++ forest.ids) := by
  -- Each number is counted on both sides.
  rw [List.perm_iff_count]
  intro x
  induction hole with
  | here left right =>
    simp only [plug, ids, ids_append, List.count_append]
    omega
  | inside left id e inner right ih =>
    simp only [plug, ids, ids_append, Forest.ids, List.count_append, List.count_cons] at ih ⊢
    omega

/-- What stands in a place has a node above it. -/
theorem stands_of_plug {d : Document} {parent : Option NodeId}
    (stands : (hole.plug forest).Stands d parent) : ∃ above, forest.Stands d above := by
  induction hole generalizing parent with
  | here left right => exact ⟨parent, (stands_append.mp (stands_append.mp stands).2).1⟩
  | inside left id e inner right ih => exact ih (stands_append.mp stands).2.2.1

/-- A node in the place gives way there. -/
theorem substitute_plug {old : NodeId} (absent : old ∉ hole.ids) (new forest : Forest) :
    (hole.plug forest).substitute [(old, new)] =
      hole.plug (forest.substitute [(old, new)]) := by
  induction hole with
  | here left right =>
    rw [ids, List.mem_append, not_or] at absent
    rw [plug, substitute_append, substitute_append, substitute_of_notMem absent.1,
      substitute_of_notMem absent.2, plug]
  | inside left id e inner right ih =>
    simp only [ids, List.mem_append, List.mem_cons, not_or] at absent
    obtain ⟨notLeft, other, notInner, notRight⟩ := absent
    rw [plug, substitute_append, substitute_of_notMem notLeft, substitute_single,
      if_neg (Ne.symm other), ih notInner, substitute_of_notMem notRight, plug]

/-- If nothing around the place satisfies a condition, all that does is in it. -/
theorem marked_plug {chosen : Element → Bool}
    (others : ∀ e ∈ hole.around.elements, chosen e = false) (forest : Forest) :
    (hole.plug forest).marked chosen = forest.marked chosen := by
  induction hole with
  | here left right =>
    simp only [around, Slot.Around.elements, List.forall_mem_append] at others
    rw [plug, marked_append, marked_append, marked_eq_nil others.1, marked_eq_nil others.2,
      List.append_nil, List.nil_append]
  | inside left id e inner right ih =>
    simp only [around, Slot.Around.elements, List.forall_mem_append, List.forall_mem_cons] at others
    obtain ⟨noneLeft, own, noneInner, noneRight⟩ := others
    have other : (Content.element e).chosen? chosen = none := by
      simp [Content.chosen?, Content.element?, own]
    rw [plug, marked_append, marked_eq_nil noneLeft, marked, other, ih noneInner,
      marked_eq_nil noneRight, List.append_nil]
    rfl

/-- If only nodes in the place satisfy a condition, only these are decoded. -/
theorem decodedAt_plug {chosen : NodeId → Bool} (others : ∀ id ∈ hole.ids, chosen id = false)
    (forest : Forest) :
    (hole.plug forest).decodedAt chosen = hole.plug (forest.decodedAt chosen) := by
  induction hole with
  | here left right =>
    simp only [ids, List.forall_mem_append] at others
    rw [plug, decodedAt_append, decodedAt_append, decodedAt_of_forall_not others.1,
      decodedAt_of_forall_not others.2, plug]
  | inside left id e inner right ih =>
    simp only [ids, List.forall_mem_append, List.forall_mem_cons] at others
    obtain ⟨noneLeft, own, noneInner, noneRight⟩ := others
    rw [plug, decodedAt_append, decodedAt_of_forall_not noneLeft, decodedAt, own, ih noneInner,
      decodedAt_of_forall_not noneRight, plug]
    rfl

end Hole

/-- Trees in a place stand in a place of the forest they are read from. -/
theorem exists_hole {forest : Forest} {around : Slot.Around} {trees : List Tree}
    (whole : forest.trees = around.plug trees) :
    ∃ (hole : Hole) (inner : Forest), forest = hole.plug inner ∧ hole.around = around ∧
      inner.trees = trees := by
  induction around generalizing forest with
  | here left right =>
    rw [Slot.Around.plug, List.append_assoc] at whole
    obtain ⟨first, others, rfl, leftTrees, whole⟩ := split_of_trees whole
    obtain ⟨middle, last, rfl, own, rightTrees⟩ := split_of_trees whole
    exact ⟨.here first last, middle, rfl, by rw [Hole.around, leftTrees, rightTrees], own⟩
  | inside left e inner right ih =>
    rw [Slot.Around.plug] at whole
    obtain ⟨first, others, rfl, leftTrees, whole⟩ := split_of_trees whole
    cases others with
    | nil => cases whole
    | cons id content below rest =>
      -- The place is below the element behind the first trees.
      obtain ⟨own, rightTrees⟩ := List.cons.inj whole
      injection own with element within
      subst element
      obtain ⟨hole, middle, rfl, same, trees⟩ := ih within
      exact ⟨.inside first id e hole rest, middle, rfl,
        by rw [Hole.around, leftTrees, same, rightTrees], trees⟩

end Markup.Forest

end Templates
