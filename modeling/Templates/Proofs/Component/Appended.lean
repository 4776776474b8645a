import Mathlib.Data.List.Find
import Templates.Proofs.Component.Binding
import Templates.Proofs.Markup.Append
import Templates.Proofs.Names

/-!
Children of a calling tag whose component has no slots.

They are put behind everything else all the same, but still gathered by the slots they are for. Main
statement: each of them is copied once, and they stay in their order exactly if none of the names
comes back after another one.
-/

namespace Templates.Slot

open Markup

/-- The groups of copies that are made one after the other, each with the name of its slot. -/
def groupsOf (made : List (Text × NodeId)) : Groups :=
  (made.map Prod.fst).eraseDups.map fun name =>
    (name, (made.filter fun copy => copy.1 = name).map Prod.snd)

/-- A copy joins the group of its name, or is the first one of a new group. -/
theorem group_map {names : List Text} (distinct : names.Nodup) (ids : Text → List NodeId)
    {name : Text} (fresh : name ∉ names → ids name = []) (id : NodeId) :
    group name id (names.map fun other => (other, ids other)) =
      (if name ∈ names then names else names ++ [name]).map fun other =>
        (other, if other = name then ids other ++ [id] else ids other) := by
  induction names with
  | nil => simp [group, fresh]
  | cons first rest ih =>
    obtain ⟨notRest, distinctRest⟩ := List.nodup_cons.mp distinct
    rw [List.map_cons, group]
    by_cases same : first = name
    · subst same
      -- The other groups are of other names.
      have others : (rest.map fun other => (other, ids other)) =
          rest.map fun other => (other, if other = first then ids other ++ [id] else ids other) :=
        List.map_congr_left fun other listed => by
          rw [if_neg (ne_of_mem_of_not_mem listed notRest)]
      simp [others]
    · have later : name ∉ rest → ids name = [] := fun absent =>
        fresh fun listed => (List.mem_cons.mp listed).elim (fun eq => same eq.symm) absent
      have behind := ih distinctRest later
      rw [if_neg same, behind]
      by_cases listed : name ∈ rest <;> simp [listed, same, Ne.symm same]

/-- One more copy joins the groups of those before it. -/
theorem group_groupsOf (name : Text) (id : NodeId) (made : List (Text × NodeId)) :
    group name id (groupsOf made) = groupsOf (made ++ [(name, id)]) := by
  have fresh : name ∉ (made.map Prod.fst).eraseDups →
      (made.filter fun copy => copy.1 = name).map Prod.snd = [] := by
    intro absent
    rw [List.map_eq_nil_iff, List.filter_eq_nil_iff]
    intro copy listed same
    refine absent (List.mem_eraseDups.mpr (List.mem_map.mpr ⟨copy, listed, ?_⟩))
    simpa using same
  rw [groupsOf, group_map (nodup_eraseDups _) _ fresh, groupsOf, List.map_append,
    List.map_singleton, eraseDups_snoc]
  simp only [List.mem_eraseDups]
  refine List.map_congr_left fun other _ => ?_
  rw [List.filter_append, List.map_append]
  by_cases same : other = name
  · simp [same]
  · simp [same, Ne.symm same]

/-- All copies of all groups are those made, gathered by name. -/
theorem flatMap_groupsOf (made : List (Text × NodeId)) :
    (groupsOf made).flatMap Prod.snd = (gathered made).map Prod.snd := by
  rw [groupsOf, gathered, List.flatMap_map, List.map_flatMap]

/-- Copies for one slot are made in order. -/
theorem copyFor_made (page : Document) (name : Text) (nodes : List NodeId)
    (made : List (Text × NodeId)) (fragment : Document) :
    ∃ new, (copyFor page name nodes (groupsOf made) fragment).1 = groupsOf (made ++ new) ∧
      new.map Prod.fst = nodes.map fun _ => name := by
  induction nodes generalizing made fragment with
  | nil => exact ⟨[], by rw [List.append_nil]; rfl, rfl⟩
  | cons id rest ih =>
    obtain ⟨new, groups, names⟩ := ih (made ++ [(name, (fragment.importNode page id).1)])
      (fragment.importNode page id).2
    refine ⟨(name, (fragment.importNode page id).1) :: new, ?_, ?_⟩
    · have step : copyFor page name (id :: rest) (groupsOf made) fragment =
          copyFor page name rest (group name (fragment.importNode page id).1 (groupsOf made))
            (fragment.importNode page id).2 := rfl
      rw [step, group_groupsOf, groups, List.append_assoc]
      rfl
    · rw [List.map_cons, List.map_cons, names]

/-- The names of what a child offers: its own one, or that one for each child of a template. -/
theorem names_offersOf {page : Document} {child : NodeId}
    (read : page.tree child = .node (page.content child) ((page.children child).map page.tree)) :
    (offersOf (page.tree child)).map Prod.fst =
      if page.isNamed "template" child then
        (page.meaningfulChildren child).map fun _ => slotOf page child
      else [slotOf page child] := by
  cases element : page.element? child with
  | none =>
    have other : (page.tree child).content.element? = none := by
      rw [Document.content_tree]
      exact element
    rw [offersOf_of_element?_eq_none other, Document.isNamed_of_element?_eq_none element,
      Copied.slotOf_of_element?_eq_none element]
    rfl
  | some e =>
    rw [read, Document.content_of_element? element, offersOf,
      Document.isNamed_of_element? element, Copied.slotOf_eq element]
    split
    · rw [← map_meaningfulChildren, List.map_map, List.map_map]
      rfl
    · rfl

/-- Copies of children are made in order, for the slots that the children are offered to. -/
theorem copyChildren_made {page : Document} {nodes : List NodeId}
    (read : ∀ id ∈ nodes,
      page.tree id = .node (page.content id) ((page.children id).map page.tree))
    (made : List (Text × NodeId)) (fragment : Document) :
    ∃ new, (copyChildren page nodes (groupsOf made) fragment).1 = groupsOf (made ++ new) ∧
      new.map Prod.fst = ((nodes.map page.tree).flatMap offersOf).map Prod.fst := by
  induction nodes generalizing made fragment with
  | nil => exact ⟨[], by rw [List.append_nil]; rfl, rfl⟩
  | cons child rest ih =>
    have later := ih fun id listed => read id (List.mem_cons_of_mem child listed)
    have own := names_offersOf (read child List.mem_cons_self)
    rw [List.map_cons, List.flatMap_cons, List.map_append, own, copyChildren]
    by_cases template : page.isNamed "template" child = true
    · -- A template adds a copy of each of its children.
      obtain ⟨first, run, firstNames⟩ := copyFor_made page (slotOf page child)
        (page.meaningfulChildren child) made fragment
      obtain ⟨new, groups, names⟩ := later (made ++ first) (copyFor page (slotOf page child)
        (page.meaningfulChildren child) (groupsOf made) fragment).2
      refine ⟨first ++ new, ?_, by rw [if_pos template, List.map_append, firstNames, names]⟩
      rw [if_pos template, ← List.append_assoc, ← groups, ← run]
    · -- Any other child adds one copy of itself.
      have single (after : Document) : ∃ new, (copyChildren page rest (group (slotOf page child)
          (fragment.importNode page child).1 (groupsOf made)) after).1 = groupsOf (made ++ new) ∧
          new.map Prod.fst =
            [slotOf page child] ++ ((rest.map page.tree).flatMap offersOf).map Prod.fst := by
        obtain ⟨new, groups, names⟩ :=
          later (made ++ [(slotOf page child, (fragment.importNode page child).1)]) after
        refine ⟨(slotOf page child, (fragment.importNode page child).1) :: new, ?_, ?_⟩
        · rw [group_groupsOf, groups, List.append_assoc]
          rfl
        · rw [List.map_cons, names]
          rfl
      rw [if_neg template, if_neg template]
      split
      · exact single _
      · next other =>
        rw [← Copied.slotOf_of_element?_eq_none (Option.not_isSome_iff_eq_none.mp other)]
        exact single _

/-- Entries made for names are looked up by these. -/
theorem lookup_map {β : Type} (names : List Text) (value : Text → β) (name : Text) :
    (names.map fun other => (other, value other)).lookup name =
      if name ∈ names then some (value name) else none := by
  induction names with
  | nil => rfl
  | cons first rest ih =>
    rw [List.map_cons, lookup_cons_eq_ite, ih]
    by_cases same : name = first <;> simp [same]

/-- The groups of a stock are looked up as its forests are. -/
theorem lookup_groups (stock : Stock) (name : Text) :
    stock.groups.lookup name = (stock.lookup name).map Forest.tops := by
  induction stock with
  | nil => rfl
  | cons entry rest ih =>
    obtain ⟨other, copies⟩ := entry
    unfold Stock.groups at ih ⊢
    rw [List.map_cons, lookup_cons_eq_ite, lookup_cons_eq_ite, ih]
    split <;> rfl

/-- What waits for a slot stands if all copies do. -/
theorem stands_of_lookup {d : Document} {up : Option NodeId} {stock : Stock}
    (stands : stock.forest.Stands d up) (distinct : stock.forest.ids.Nodup) {name : Text}
    {copies : Forest} (there : stock.lookup name = some copies) :
    copies.Stands d up ∧ copies.ids.Nodup := by
  induction stock with
  | nil => cases there
  | cons entry rest ih =>
    obtain ⟨other, first⟩ := entry
    obtain ⟨standsFirst, standsRest⟩ := Forest.stands_append.mp stands
    rw [Stock.forest, Forest.ids_append] at distinct
    obtain ⟨distinctFirst, distinctRest, _⟩ := List.nodup_append.mp distinct
    rw [lookup_cons_eq_ite] at there
    split at there
    · obtain rfl := Option.some.inj there
      exact ⟨standsFirst, distinctFirst⟩
    · exact ih standsRest distinctRest there

/-- The copies made for a slot are those that wait for it. -/
theorem trees_of_groups {d : Document} {up : Option NodeId} {stock : Stock}
    {made : List (Text × NodeId)} (groups : stock.groups = groupsOf made)
    (stands : stock.forest.Stands d up) (distinct : stock.forest.ids.Nodup) (name : Text) :
    ((made.filter fun copy => copy.1 = name).map Prod.snd).map d.tree = stock.treesFor name := by
  have found := lookup_groups stock name
  rw [groups, groupsOf, lookup_map] at found
  simp only [List.mem_eraseDups] at found
  rw [Stock.treesFor]
  cases there : stock.lookup name with
  | none =>
    -- No copy has a name that is not looked up.
    rw [there, Option.map_none, ite_eq_right_iff] at found
    have nothing : (made.filter fun copy => copy.1 = name) = [] := by
      refine List.filter_eq_nil_iff.mpr fun copy listed same => ?_
      have named : name ∈ made.map Prod.fst :=
        List.mem_map.mpr ⟨copy, listed, by simpa using same⟩
      cases found named
    rw [nothing]
    rfl
  | some copies =>
    rw [there, Option.map_some, Option.ite_none_right_eq_some] at found
    obtain ⟨standsCopies, once⟩ := stands_of_lookup stands distinct there
    rw [Option.some.inj found.2]
    exact standsCopies.treeTo (standsCopies.length_le once)

/-- Where the children of a calling tag go without slots: into the element that has got the
attributes, or else into the first element at the top, or else to the top. -/
def home (fragment : Document) (target : Option NodeId) : NodeId :=
  let firstElement := (fragment.children Document.root).find? fun id =>
    (fragment.element? id).isSome
  (target.or firstElement).getD Document.root

/-- Copies in a document leave the place for the children of a tag where it is. -/
theorem home_congr {fragment after : Document} {component : Forest}
    (shown : fragment.Shows component) (shows : after.Shows component) (target : Option NodeId) :
    home after target = home fragment target := by
  have distinct := (List.nodup_cons.mp shown.distinct).2
  have elements :
      ∀ id ∈ component.tops, (after.element? id).isSome = (fragment.element? id).isSome := by
    intro id listed
    have same := (shown.stands.alike shows.stands distinct (Forest.mem_ids_of_mem_tops listed)).1
    rw [Document.element?, Document.element?, Document.content, Document.content, same]
  rw [home, home, shown.children, shows.children, List.find?_congr elements]

/-- The place for the children of a tag is a node that is shown. -/
theorem home_mem {fragment : Document} {component : Forest} (shown : fragment.Shows component)
    {target : Option NodeId} (valid : ∀ id ∈ target, id ∈ component.ids) :
    home fragment target ∈ Document.root :: component.ids := by
  rw [home, shown.children]
  cases target with
  | some id => exact List.mem_cons_of_mem _ (valid id rfl)
  | none =>
    cases first : component.tops.find? fun id => (fragment.element? id).isSome with
    | none => exact List.mem_cons_self
    | some id =>
      exact List.mem_cons_of_mem _ (Forest.mem_ids_of_mem_tops (List.mem_of_find?_eq_some first))

/-- The topmost copies are those of all groups. -/
theorem tops_forest (stock : Stock) : stock.forest.tops = stock.groups.flatMap Prod.snd := by
  induction stock with
  | nil => rfl
  | cons entry rest ih =>
    rw [Stock.forest, Forest.tops_append, ih]
    rfl

/-- Without slots, all copies go where the children of the calling tag do. -/
theorem bindChildren_of_no_slots {page fragment after : Document} {component : Forest}
    {tag : NodeId} {stock : Stock} (shown : fragment.Shows component)
    (none : slotNamesAll component.trees = [])
    (run : copyChildren page (page.meaningfulChildren tag) [] fragment = (stock.groups, after))
    (shows : after.Shows component) (target : Option NodeId) :
    bindChildren page tag target fragment =
      stock.forest.tops.foldl (fun d id => d.append (home fragment target) id) after := by
  have noSlots : slots component = [] := by
    rw [← names_slots] at none
    exact List.map_eq_nil_iff.mp none
  have found : after.findElements (Element.isNamed "slot") = [] := by
    rw [findElements_slots shows, noSlots]
    rfl
  rw [bindChildren, run]
  dsimp only
  rw [found]
  dsimp only
  rw [← home_congr shown shows target, tops_forest]
  rfl

/-- Without slots, the children of a calling tag are copied behind everything else where they go:
each of them once, without the attribute that names its slot, and a template as its own children.
They are gathered by the names of their slots, so that they are in their order exactly if these
names are together. -/
theorem bindChildren_appends {page fragment : Document} {host component : Forest} {tag : NodeId}
    (inPage : page.Shows host) (calling : tag ∈ host.ids) (shown : fragment.Shows component)
    (none : slotNamesAll component.trees = []) {target : Option NodeId}
    (valid : ∀ id ∈ target, id ∈ component.ids) :
    ∃ (made : List (Text × NodeId)) (copies : Forest),
      (bindChildren page tag target fragment).Shows
          (component.extendAt (home fragment target) copies) ∧
        (made.map fun copy => (copy.1, (bindChildren page tag target fragment).tree copy.2)) =
          offers (page.tree tag).children ∧
        (made.map Prod.snd).Nodup ∧ copies.tops = (gathered made).map Prod.snd ∧
        copies.tops.Perm (made.map Prod.snd) ∧
        (copies.tops = made.map Prod.snd ↔
          Together ((offers (page.tree tag).children).map Prod.fst)) := by
  obtain ⟨stock, after, run, copied⟩ := Copied.of_tag inPage calling shown
  have bound := bindChildren_of_no_slots shown none run copied.parts.shows target
  obtain ⟨shows, stands⟩ := copied.parts.append (home_mem shown valid)
  rw [← bound] at shows stands
  -- The copies are made in the order of the children, under the names that these are offered to.
  obtain ⟨made, groups, names⟩ :=
    copyChildren_made (fun _ => Copied.reads_children inPage calling) [] fragment
  rw [Copied.offers_children inPage calling] at names
  have groups : stock.groups = groupsOf made := (congrArg Prod.fst run).symm.trans groups
  have tops : stock.forest.tops = (gathered made).map Prod.snd := by
    rw [tops_forest, groups, flatMap_groupsOf]
  have perm : stock.forest.tops.Perm (made.map Prod.snd) := tops ▸ (gathered_perm made).map Prod.snd
  have distinct : stock.forest.ids.Nodup := by
    have all := (List.nodup_cons.mp copied.parts.distinct).2
    exact (List.nodup_append.mp (List.nodup_append.mp all).2.1).1
  have once : (made.map Prod.snd).Nodup :=
    perm.nodup (distinct.sublist (Forest.tops_sublist _))
  refine ⟨made, stock.forest, shows, eq_of_names ?_ fun name => ?_, once, tops, perm, ?_⟩
  · rw [List.map_map, ← names]
    rfl
  · -- Under each name wait the copies of what is offered to it.
    have waiting := trees_of_groups groups stands distinct name
    rw [copied.holds.trees name, List.map_map] at waiting
    rw [List.filter_map, List.map_map]
    exact waiting
  · rw [tops, map_gathered_eq_iff once, names]

/-- A component without slots. -/
def listTrees : List Tree :=
  [.node (.element ⟨"ul".toList, [], false⟩) []]

/-- A calling tag with a text and two children for one slot, one of them in a template. -/
def sortedTrees : List Tree :=
  [.node (.element ⟨"x-list".toList, [], false⟩)
    [.node (.text ['a']) [],
      .node (.element ⟨['b'], [.valued "slot".toList ['x']], false⟩) [],
      .node (.element ⟨"template".toList, [.valued "slot".toList ['x']], false⟩)
        [.node (.element ⟨['i'], [], false⟩) []]]]

/-- A calling tag with a child for a slot between two texts. -/
def mixedTrees : List Tree :=
  [.node (.element ⟨"x-list".toList, [], false⟩)
    [.node (.text ['a']) [],
      .node (.element ⟨['b'], [.valued "slot".toList ['x']], false⟩) [.node (.text ['1']) []],
      .node (.text ['c']) []]]

/-- Children whose names are together are copied in their order. -/
theorem bindChildren_appends_list :
    ∃ (made : List (Text × NodeId)) (copies : Forest),
      (bindChildren (.ofForest sortedTrees) 1 (some 1) (.ofForest listTrees)).Shows
          ((Forest.plant 1 listTrees).extendAt 1 copies) ∧
        made.map Prod.fst = [[], ['x'], ['x']] ∧ copies.tops = made.map Prod.snd := by
  have calling : 1 ∈ (Forest.plant 1 sortedTrees).ids := by
    rw [Forest.ids_plant]
    decide
  have inside : ∀ id ∈ some 1, id ∈ (Forest.plant 1 listTrees).ids := by
    rintro id ⟨⟩
    rw [Forest.ids_plant]
    decide
  obtain ⟨made, copies, shows, offered, -, -, -, order⟩ := bindChildren_appends
    (Document.shows_ofForest sortedTrees) calling (Document.shows_ofForest listTrees)
    (by rw [Forest.trees_plant]; decide +kernel) inside
  have names : (offers ((Document.ofForest sortedTrees).tree 1).children).map Prod.fst =
      [[], ['x'], ['x']] := by decide +kernel
  have together : Together ([(([] : Text), 0), (['x'], 1), (['x'], 2)].map Prod.fst) :=
    gathered_eq_iff.mp (by decide)
  refine ⟨made, copies, shows, ?_, order.mpr (names ▸ together)⟩
  rw [← names, ← offered, List.map_map]
  rfl

/-- A child for a slot comes behind a later text, although there are no slots. -/
theorem bindChildren_misses_order :
    let children := (offers ((Document.ofForest mixedTrees).tree 1).children).map Prod.snd
    writeAll [.node (.element ⟨"ul".toList, [], false⟩) children] =
        "<ul>a<b>1</b>c</ul>".toList ∧
      (bindChildren (.ofForest mixedTrees) 1 (some 1) (.ofForest listTrees)).markup =
        "<ul>ac<b>1</b></ul>".toList := by
  decide +kernel

end Templates.Slot
