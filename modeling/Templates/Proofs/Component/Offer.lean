import Templates.Component.Slot
import Templates.Proofs.Markup.Parts

/-!
What the children of a calling tag offer to slots, and the copies that are made of it.

The copies are kept by the names of the slots, in the order in which these are first met.
-/

namespace Templates.Slot

open Markup

/-- Whether a tree is more than blank text. -/
def isMeaningful (tree : Tree) : Bool :=
  !tree.content.isBlankText

/-- The name of the slot that an element is for. -/
def wanted (e : Element) : Text :=
  ((e.attribute? "slot").map Attribute.text).getD []

/-- What a child of a calling tag offers, with the names of the slots it is for. A template offers
its own children, any other element itself without the attribute that names the slot, and other
nodes are for the slot without a name. -/
def offersOf : Tree → List (Text × Tree)
  | .node (.element e) children =>
    if e.isNamed "template" then
      (children.filter isMeaningful).map fun child => (wanted e, child)
    else [(wanted e, .node (.element (e.removeAttribute "slot")) children)]
  | tree => [([], tree)]

/-- A node that is no element is offered to the slot without a name. -/
theorem offersOf_of_element?_eq_none {tree : Tree} (other : tree.content.element? = none) :
    offersOf tree = [([], tree)] := by
  obtain ⟨content, children⟩ := tree
  cases content with
  | element e => cases other
  | _ => rfl

/-- What the children of a calling tag offer, in order. -/
def offers (children : List Tree) : List (Text × Tree) :=
  (children.filter isMeaningful).flatMap offersOf

/-- What is offered to the slot of a name, in order. -/
def offeredTo (name : Text) (offered : List (Text × Tree)) : List Tree :=
  (offered.filter fun offer => offer.1 = name).map Prod.snd

/-- Copies that wait for their slots, by the names of these. -/
abbrev Stock := List (Text × Forest)

namespace Stock

/-- Copies join the others for their slot. -/
def add (name : Text) (new : Forest) : Stock → Stock
  | [] => [(name, new)]
  | (other, copies) :: rest =>
    if other = name then (other, copies.append new) :: rest
    else (other, copies) :: add name new rest

/-- The topmost nodes of the copies for each slot. -/
def groups (stock : Stock) : Groups :=
  stock.map fun entry => (entry.1, entry.2.tops)

/-- All copies side by side. -/
def forest : Stock → Forest
  | [] => .nil
  | (_, copies) :: rest => copies.append (forest rest)

/-- The copies that wait for a slot. -/
def treesFor (name : Text) (stock : Stock) : List Tree :=
  ((stock.lookup name).map Forest.trees).getD []

variable {stock : Stock} {name : Text} {new : Forest}

/-- A group is joined by the topmost node of a copy. -/
theorem groups_add {id : NodeId} (single : new.tops = [id]) :
    (stock.add name new).groups = group name id stock.groups := by
  -- Both go through the names until they meet the one that is wanted.
  induction stock with
  | nil => simp [add, groups, group, single]
  | cons entry rest ih =>
    obtain ⟨other, copies⟩ := entry
    unfold groups at ih ⊢
    rw [add, List.map_cons, group]
    split
    · simp [single]
    · rw [List.map_cons, ih]

/-- The nodes of a new copy join those of the others. -/
theorem perm_ids_add (name : Text) (new : Forest) (stock : Stock) :
    (stock.add name new).forest.ids.Perm (new.append stock.forest).ids := by
  induction stock with
  | nil => simp [add, forest, Forest.ids]
  | cons entry rest ih =>
    obtain ⟨other, copies⟩ := entry
    rw [add, List.perm_iff_count]
    intro x
    have counted := List.perm_iff_count.mp ih x
    split
    all_goals
      simp only [forest, Forest.ids_append, List.count_append] at counted ⊢
      omega

/-- The copies stand if the new one and the others do. -/
theorem stands_add {d : Document} {parent : Option NodeId} :
    (stock.add name new).forest.Stands d parent ↔ (new.append stock.forest).Stands d parent := by
  induction stock with
  | nil => simp [add, forest, Forest.stands_append, Forest.Stands]
  | cons entry rest ih =>
    obtain ⟨other, copies⟩ := entry
    rw [add]
    split
    all_goals
      simp only [forest, Forest.stands_append] at ih ⊢
      tauto

/-- Copies that wait for a slot are found under its name. -/
theorem lookup_add (name : Text) (new : Forest) (stock : Stock) (wanted : Text) :
    (stock.add name new).lookup wanted =
      if wanted = name then some (((stock.lookup name).getD .nil).append new)
      else stock.lookup wanted := by
  induction stock with
  | nil => rw [add, lookup_cons_eq_ite]; rfl
  | cons entry rest ih =>
    obtain ⟨other, copies⟩ := entry
    rw [add]
    by_cases here : other = name
    · -- The copies for the name are those of the first entry.
      subst here
      rw [if_pos rfl, lookup_cons_eq_ite, lookup_cons_eq_ite, lookup_cons_eq_ite, if_pos rfl]
      split <;> rfl
    · rw [if_neg here, lookup_cons_eq_ite, lookup_cons_eq_ite, lookup_cons_eq_ite, ih,
        if_neg (Ne.symm here)]
      by_cases same : wanted = other
      · rw [if_pos same, if_pos same, if_neg (same ▸ here)]
      · rw [if_neg same, if_neg same]

/-- A name joins the others if it is new. -/
theorem names_add (name : Text) (new : Forest) (stock : Stock) :
    (stock.add name new).map Prod.fst =
      if name ∈ stock.map Prod.fst then stock.map Prod.fst else stock.map Prod.fst ++ [name] := by
  induction stock with
  | nil => rfl
  | cons entry rest ih =>
    obtain ⟨other, copies⟩ := entry
    rw [add]
    by_cases here : other = name
    · simp [here]
    · rw [if_neg here, List.map_cons, ih]
      by_cases later : name ∈ rest.map Prod.fst <;> simp [later, Ne.symm here]

/-- A stock holds copies of what is offered, and nothing for a slot to which nothing is offered. -/
structure Holds (stock : Stock) (offered : List (Text × Tree)) : Prop where
  names : (stock.map Prod.fst).Nodup
  trees : ∀ name, stock.treesFor name = offeredTo name offered
  filled : ∀ {name copies}, stock.lookup name = some copies → copies.trees ≠ []

/-- Nothing is held of no offers. -/
theorem Holds.nil : Holds [] [] where
  names := List.nodup_nil
  trees _ := rfl
  filled there := nomatch there

/-- A copy of one more tree is held behind those for the same slot. -/
theorem Holds.add {offered : List (Text × Tree)} {tree : Tree} (holds : stock.Holds offered)
    (single : new.trees = [tree]) (name : Text) :
    (stock.add name new).Holds (offered ++ [(name, tree)]) where
  names := by
    rw [names_add]
    split
    · exact holds.names
    · -- A name that is new differs from all others.
      next fresh =>
      refine List.nodup_append.mpr ⟨holds.names, by simp, fun known listed other last => ?_⟩
      rw [List.mem_singleton.mp last]
      exact ne_of_mem_of_not_mem listed fresh
  trees wanted := by
    have old := holds.trees wanted
    -- What is offered last comes last.
    unfold treesFor at old ⊢
    rw [lookup_add, offeredTo, List.filter_append, List.map_append, ← offeredTo, ← old]
    by_cases same : wanted = name
    · subst same
      cases stock.lookup wanted <;> simp [single, Forest.append]
    · simp [same, Ne.symm same]
  filled {wanted copies} there := by
    rw [lookup_add] at there
    split at there
    · cases there
      simp [single]
    · exact holds.filled there

end Stock

/-- The meaningful children of a node are those whose trees are. -/
theorem map_meaningfulChildren (page : Document) (id : NodeId) :
    (page.meaningfulChildren id).map page.tree =
      ((page.children id).map page.tree).filter isMeaningful := by
  rw [Document.meaningfulChildren, List.filter_map]
  congr 1
  refine List.filter_congr fun child _ => ?_
  rw [Function.comp, isMeaningful, Document.content_tree, Document.isBlankText]

/-- A document shows what it did while a stock of copies waits in it. -/
structure Copied (d : Document) (shown : Forest) (stock : Stock) (offered : List (Text × Tree)) :
    Prop where
  parts : d.Parts shown stock.forest .nil
  holds : stock.Holds offered

namespace Copied

variable {page d : Document} {shown : Forest} {stock : Stock} {offered : List (Text × Tree)}

/-- A document without copies. -/
theorem of_shows (shows : d.Shows shown) : Copied d shown [] [] where
  parts := .of_shows shows
  holds := .nil

/-- A new tree waits for a slot behind the others for it. -/
theorem add (copied : Copied d shown stock offered) {after : Document} {new : Forest} {tree : Tree}
    (adds : d.Adds after new) (single : new.trees = [tree]) (name : Text) :
    Copied after shown (stock.add name new) (offered ++ [(name, tree)]) where
  parts := by
    have grown := copied.parts.grow adds
    exact grown.rearrange (Stock.stands_add.mpr grown.waits) (Stock.perm_ids_add name new stock)
  holds := copied.holds.add single name

/-- Trees for one slot are copied in order. -/
theorem copyFor (copied : Copied d shown stock offered) (page : Document) (name : Text)
    (nodes : List NodeId) :
    ∃ stock' after, Slot.copyFor page name nodes stock.groups d = (Stock.groups stock', after) ∧
      Copied after shown stock' (offered ++ nodes.map fun id => (name, page.tree id)) := by
  induction nodes generalizing d stock offered with
  | nil => exact ⟨stock, d, rfl, by simpa using copied⟩
  | cons id rest ih =>
    -- The first tree is copied, and the others behind it.
    have adds := Document.Adds.importTree (page.tree id) d
    have next := copied.add adds (Forest.trees_plant _ _) name
    obtain ⟨stock', after, run, last⟩ := ih next
    refine ⟨stock', after, ?_, ?_⟩
    · rw [Stock.groups_add (by rw [Forest.tops_plant]; rfl)] at run
      exact run
    · simpa using last

section Child

variable {child : NodeId} {e : Element}

/-- A child that is no element is copied for the slot without a name. -/
theorem copyOther (copied : Copied d shown stock offered) (other : page.element? child = none)
    (rest : List NodeId) :
    ∃ stock' after, Slot.copyChildren page (child :: rest) stock.groups d =
        Slot.copyChildren page rest (Stock.groups stock') after ∧
      Copied after shown stock' (offered ++ offersOf (page.tree child)) := by
  have adds := Document.Adds.importTree (page.tree child) d
  have offer : offersOf (page.tree child) = [([], page.tree child)] :=
    offersOf_of_element?_eq_none (by rw [Document.content_tree]; exact other)
  have named := Document.isNamed_of_element?_eq_none other "template".toList
  rw [offer]
  refine ⟨_, _, ?_, copied.add adds (Forest.trees_plant _ _) []⟩
  rw [Slot.copyChildren, named, other, Stock.groups_add (by rw [Forest.tops_plant]; rfl)]
  rfl

/-- The slot that a child is for is the one that its tag wants. -/
theorem slotOf_eq (element : page.element? child = some e) : slotOf page child = wanted e := by
  rw [slotOf, Document.attribute?, element]
  rfl

/-- A child that is no element is for the slot without a name. -/
theorem slotOf_of_element?_eq_none (other : page.element? child = none) :
    slotOf page child = [] := by
  rw [slotOf, Document.attribute?, other]
  rfl

/-- The children of a template are copied for its slot. -/
theorem copyTemplate (copied : Copied d shown stock offered)
    (element : page.element? child = some e) (template : e.isNamed "template" = true)
    (read : page.tree child = .node (page.content child) ((page.children child).map page.tree))
    (rest : List NodeId) :
    ∃ stock' after, Slot.copyChildren page (child :: rest) stock.groups d =
        Slot.copyChildren page rest (Stock.groups stock') after ∧
      Copied after shown stock' (offered ++ offersOf (page.tree child)) := by
  have named : page.isNamed "template" child = true :=
    (Document.isNamed_of_element? element _).trans template
  have offer : offersOf (page.tree child) =
      (page.meaningfulChildren child).map fun id => (wanted e, page.tree id) := by
    rw [read, Document.content_of_element? element, offersOf, if_pos template,
      ← map_meaningfulChildren, List.map_map]
    rfl
  obtain ⟨stock', after, run, copied'⟩ :=
    copied.copyFor page (wanted e) (page.meaningfulChildren child)
  rw [offer]
  refine ⟨stock', after, ?_, copied'⟩
  rw [Slot.copyChildren, if_pos named, slotOf_eq element, run]

/-- Any other element is copied without the attribute that names its slot. -/
theorem copyElement (copied : Copied d shown stock offered)
    (element : page.element? child = some e) (other : ¬e.isNamed "template" = true)
    (read : page.tree child = .node (page.content child) ((page.children child).map page.tree))
    (rest : List NodeId) :
    ∃ stock' after, Slot.copyChildren page (child :: rest) stock.groups d =
        Slot.copyChildren page rest (Stock.groups stock') after ∧
      Copied after shown stock' (offered ++ offersOf (page.tree child)) := by
  rw [Document.content_of_element? element] at read
  have adds := Document.Adds.importTree (page.tree child) d
  rw [read, Forest.plant, Forest.plant] at adds
  -- The attribute is removed from the copy, which is an element with the same tag.
  have copy : (d.importNode page child).2.element? d.size = some e := by
    rw [Document.importNode, read, Document.element?, adds.stands.content]
    rfl
  have removed : (d.importNode page child).2.removeAttribute "slot" d.size =
      (d.importNode page child).2.setContent (.element (e.removeAttribute "slot")) d.size := by
    rw [Document.removeAttribute, Document.mapElement, copy]
  have named : ¬page.isNamed "template" child = true := by
    rwa [Document.isNamed_of_element? element]
  have number : (d.importNode page child).1 = d.size := rfl
  rw [read, offersOf, if_neg other]
  refine ⟨_, _, ?_, copied.add (adds.setContent (.element (e.removeAttribute "slot")))
    (by rw [Forest.trees, Forest.trees_plant, Forest.trees]) (wanted e)⟩
  rw [Slot.copyChildren, if_neg named, element]
  simp only [Option.isSome_some, if_true]
  rw [number, removed, Stock.groups_add rfl, slotOf_eq element, Document.importNode, read]

/-- A child of a calling tag is copied as what it offers. -/
theorem copyChild (copied : Copied d shown stock offered)
    (read : page.tree child = .node (page.content child) ((page.children child).map page.tree))
    (rest : List NodeId) :
    ∃ stock' after, Slot.copyChildren page (child :: rest) stock.groups d =
        Slot.copyChildren page rest (Stock.groups stock') after ∧
      Copied after shown stock' (offered ++ offersOf (page.tree child)) := by
  cases element : page.element? child with
  | none => exact copied.copyOther element rest
  | some e =>
    by_cases template : e.isNamed "template" = true
    · exact copied.copyTemplate element template read rest
    · exact copied.copyElement element template read rest

end Child

/-- The children of a calling tag are copied as what they offer. -/
theorem copyChildren (copied : Copied d shown stock offered) {nodes : List NodeId}
    (read : ∀ id ∈ nodes,
      page.tree id = .node (page.content id) ((page.children id).map page.tree)) :
    ∃ stock' after, Slot.copyChildren page nodes stock.groups d = (Stock.groups stock', after) ∧
      Copied after shown stock' (offered ++ (nodes.map page.tree).flatMap offersOf) := by
  -- Each child adds what it offers to what was offered before.
  induction nodes generalizing d stock offered with
  | nil => exact ⟨stock, d, rfl, by simpa using copied⟩
  | cons child rest ih =>
    obtain ⟨first, between, step, next⟩ := copied.copyChild (read child List.mem_cons_self) rest
    obtain ⟨last, after, run, all⟩ := ih next fun id listed =>
      read id (List.mem_cons_of_mem _ listed)
    refine ⟨last, after, step.trans run, ?_⟩
    rwa [List.map_cons, List.flatMap_cons, ← List.append_assoc]

/-- The children of a tag in a page are read as trees of their contents and children. -/
theorem reads_children {host : Forest} {tag : NodeId} (inPage : page.Shows host)
    (calling : tag ∈ host.ids) {id : NodeId} (listed : id ∈ page.meaningfulChildren tag) :
    page.tree id = .node (page.content id) ((page.children id).map page.tree) :=
  -- All children of the tag are nodes of the page.
  inPage.stands.tree_eq (List.nodup_cons.mp inPage.distinct).2
    (inPage.stands.children_subset calling (List.mem_of_mem_filter listed))

/-- What the children of a tag in a page offer is told by its tree. -/
theorem offers_children {host : Forest} {tag : NodeId} (inPage : page.Shows host)
    (calling : tag ∈ host.ids) :
    ((page.meaningfulChildren tag).map page.tree).flatMap offersOf =
      offers (page.tree tag).children := by
  have tree := inPage.stands.tree_eq (List.nodup_cons.mp inPage.distinct).2 calling
  rw [map_meaningfulChildren, ← offers, tree]
  rfl

/-- The children of a tag in a page are copied into a document, which shows what it did. -/
theorem of_tag {host : Forest} {tag : NodeId} (inPage : page.Shows host) (calling : tag ∈ host.ids)
    (shows : d.Shows shown) :
    ∃ stock after,
      Slot.copyChildren page (page.meaningfulChildren tag) [] d = (Stock.groups stock, after) ∧
        Copied after shown stock (offers (page.tree tag).children) := by
  obtain ⟨stock, after, run, copied⟩ :=
    (Copied.of_shows shows).copyChildren fun _ => reads_children inPage calling
  rw [List.nil_append, offers_children inPage calling] at copied
  exact ⟨stock, after, run, copied⟩

end Copied

end Templates.Slot
