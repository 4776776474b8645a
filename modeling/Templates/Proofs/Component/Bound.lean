import Templates.Component.Expand
import Templates.Proofs.Markup.Forest

/-! The fragment of a tag depends on no more of the page than the tag and what is below it. -/

namespace Templates

open Markup

/-- Two pages have the same nodes and trees for some numbers, with all that is below them. -/
structure Alike (page other : Document) (ids : List NodeId) : Prop where
  node : ∀ {id}, id ∈ ids → other.nodes[id]? = page.nodes[id]?
  tree : ∀ {id}, id ∈ ids → other.tree id = page.tree id
  closed : ∀ {id}, id ∈ ids → page.children id ⊆ ids

namespace Alike

variable {page other : Document} {ids : List NodeId}

/-- Pages in which a forest stands are alike there. -/
theorem of_stands {parent : Option NodeId} {forest : Forest} (stands : forest.Stands page parent)
    (again : forest.Stands other parent) (distinct : forest.ids.Nodup) :
    Alike page other forest.ids where
  node listed := (stands.alike again distinct listed).1
  tree listed := (stands.alike again distinct listed).2
  closed listed := stands.children_subset listed

variable (alike : Alike page other ids)

include alike

/-- The contents are the same. -/
theorem content {id : NodeId} (listed : id ∈ ids) : other.content id = page.content id := by
  rw [Document.content, Document.content, alike.node listed]

/-- The children are the same. -/
theorem children {id : NodeId} (listed : id ∈ ids) : other.children id = page.children id := by
  rw [Document.children, Document.children, alike.node listed]

/-- The elements are the same. -/
theorem element? {id : NodeId} (listed : id ∈ ids) : other.element? id = page.element? id := by
  rw [Document.element?, Document.element?, alike.content listed]

/-- The same children count as more than blank text. -/
theorem meaningfulChildren {id : NodeId} (listed : id ∈ ids) :
    other.meaningfulChildren id = page.meaningfulChildren id := by
  -- The children are the same, and each of them has the same content.
  rw [Document.meaningfulChildren, Document.meaningfulChildren, alike.children listed]
  refine List.filter_congr fun child below => ?_
  rw [Document.isBlankText, Document.isBlankText, alike.content (alike.closed listed below)]

/-- A meaningful child is one of the numbers as well. -/
theorem mem_of_mem_meaningfulChildren {id child : NodeId} (listed : id ∈ ids)
    (below : child ∈ page.meaningfulChildren id) : child ∈ ids :=
  alike.closed listed (List.mem_filter.mp below).1

/-- The same copies are made for one slot. -/
theorem copyFor {nodes : List NodeId} (within : nodes ⊆ ids) (name : Text)
    (groups : Slot.Groups) (fragment : Document) :
    Slot.copyFor other name nodes groups fragment =
      Slot.copyFor page name nodes groups fragment := by
  -- Each node is copied with its tree, which is the same on both pages.
  induction nodes generalizing groups fragment with
  | nil => rfl
  | cons id rest ih =>
    have same : fragment.importNode other id = fragment.importNode page id := by
      rw [Document.importNode, Document.importNode, alike.tree (within List.mem_cons_self)]
    rw [Slot.copyFor, Slot.copyFor, same]
    exact ih (fun _ listed => within (List.mem_cons_of_mem _ listed)) _ _

/-- The same copies are made of children. -/
theorem copyChildren {nodes : List NodeId} (within : nodes ⊆ ids) (groups : Slot.Groups)
    (fragment : Document) :
    Slot.copyChildren other nodes groups fragment =
      Slot.copyChildren page nodes groups fragment := by
  -- A child is told by its tag and its attribute, and copied with its tree or with its children.
  induction nodes generalizing groups fragment with
  | nil => rfl
  | cons child rest ih =>
    have listed := within List.mem_cons_self
    have later : rest ⊆ ids := fun _ listed => within (List.mem_cons_of_mem _ listed)
    have named : other.isNamed "template" child = page.isNamed "template" child := by
      rw [Document.isNamed, Document.isNamed, alike.element? listed]
    have slot : Slot.slotOf other child = Slot.slotOf page child := by
      rw [Slot.slotOf, Slot.slotOf, Document.attribute?, Document.attribute?, alike.element? listed]
    have inner : page.meaningfulChildren child ⊆ ids := fun _ below =>
      alike.mem_of_mem_meaningfulChildren listed below
    have copy : fragment.importNode other child = fragment.importNode page child := by
      rw [Document.importNode, Document.importNode, alike.tree listed]
    rw [Slot.copyChildren, Slot.copyChildren, named, slot, alike.element? listed, copy,
      alike.meaningfulChildren listed, alike.copyFor inner]
    simp only [ih later]

end Alike

/-- The fragment of a calling tag is the same on pages that are alike below the tag. -/
theorem Expander.fragmentOf_congr {page other : Document} {ids : List NodeId}
    (alike : Alike page other ids) {tag : NodeId} (listed : tag ∈ ids)
    (attributes : List Attribute) (hidden : List Text) (fragment : Document) :
    fragmentOf other tag attributes hidden fragment =
      fragmentOf page tag attributes hidden fragment := by
  -- The page is looked at only to bind the children of the tag.
  have bound (target : Option NodeId) (fragment : Document) :
      Slot.bindChildren other tag target fragment = Slot.bindChildren page tag target fragment := by
    have within : page.meaningfulChildren tag ⊆ ids := fun _ below =>
      alike.mem_of_mem_meaningfulChildren listed below
    rw [Slot.bindChildren, Slot.bindChildren, alike.meaningfulChildren listed,
      alike.copyChildren within]
  simp only [fragmentOf, bound]

end Templates
