import Templates.Proofs.Component.Around
import Templates.Proofs.Component.Session
import Templates.Proofs.Markup.RoundTrip

/-!
What is offered to a slot is kept when the calling tag gives way, if the first slot of its name is
in no other slot.
-/

namespace Templates.Markup.Forest

/-- The trees in a place are read from nodes of the forest, in order. -/
theorem Stands.exists_copies {d : Document} {parent : Option NodeId} {forest : Forest}
    {around : Slot.Around} {trees : List Tree} (stands : forest.Stands d parent)
    (distinct : forest.ids.Nodup) (whole : forest.trees = around.plug trees) :
    ∃ copies : List NodeId, copies.Sublist forest.ids ∧ copies.map d.tree = trees := by
  -- The induction goes down to the place, through the elements above it.
  induction around generalizing forest parent with
  | here left right =>
    -- The topmost nodes between those on both sides are read as the trees.
    rw [Slot.Around.plug, List.append_assoc] at whole
    obtain ⟨first, others, rfl, _, whole⟩ := split_of_trees whole
    obtain ⟨middle, last, rfl, own, _⟩ := split_of_trees whole
    have standsMiddle := (stands_append.mp (stands_append.mp stands).2).1
    rw [ids_append, ids_append, List.nodup_append, List.nodup_append] at distinct
    refine ⟨middle.tops, ?_, ?_⟩
    · rw [ids_append, ids_append]
      exact (middle.tops_sublist.trans (List.sublist_append_left _ _)).trans
        (List.sublist_append_right _ _)
    · rw [← own]
      exact standsMiddle.treeTo (standsMiddle.length_le distinct.2.1.1)
  | inside left e inner right ih =>
    rw [Slot.Around.plug] at whole
    obtain ⟨first, others, rfl, _, whole⟩ := split_of_trees whole
    cases others with
    | nil => cases whole
    | cons id content below rest =>
      -- The place is below the element behind the first trees.
      obtain ⟨own, _⟩ := List.cons.inj whole
      injection own with _ within
      have standsBelow := (stands_append.mp stands).2.2.1
      rw [ids_append, ids, List.nodup_append, List.nodup_cons, List.nodup_append] at distinct
      obtain ⟨copies, listed, read⟩ := ih standsBelow distinct.2.1.2.1 within
      refine ⟨copies, ?_, read⟩
      rw [ids_append, ids]
      exact ((listed.trans (List.sublist_append_left _ _)).cons id).trans
        (List.sublist_append_right _ _)

end Templates.Markup.Forest

namespace Templates.Expander

open Markup Slot

variable {σ : Type}

/-- A tag gives way to copies of the fragment that is bound for it. -/
theorem expandTag_runs (expander : Expander) {renderer : ComponentRenderer σ} {before after : σ}
    {page : Document} {host forest : Forest} {tag : NodeId} {e : Element} {rendered : Rendered}
    {fragment : Document} (inPage : page.Shows host) (calling : tag ∈ host.ids)
    (element : page.element? tag = some e)
    (answered : Session.Runs (renderer (expander.callOf e)) before rendered after)
    (read : Document.parse rendered.html = .ok fragment)
    (shows : (fragmentOf page tag e.attributes rendered.hidden fragment).Shows forest) :
    ∃ ids page' new, Session.Runs (expander.expandTag renderer tag page) before (ids, page') after ∧
      page'.Shows (host.substitute [(tag, new)]) ∧ new.tops = ids ∧ new.trees = forest.trees := by
  -- The copies have new numbers and no place, so that they can take that of the tag.
  obtain ⟨new, tops, trees, stands, distinct, fresh, _, same⟩ := Document.importTrees_stands
    ((fragmentOf page tag e.attributes rendered.hidden fragment).tree Document.root).children page
  have parts := (Document.Parts.of_shows inPage).grow ⟨stands, distinct, fresh, same⟩
  obtain ⟨content, below, there⟩ := Forest.find?_of_mem calling
  refine ⟨new.tops, _, new, ?_, (parts.replaceShown there).shows, rfl, ?_⟩
  · unfold Expander.expandTag
    rw [element]
    refine Session.runs_bind.mpr ⟨rendered, after, answered, Session.runs_bind.mpr
      ⟨fragment, after, runs_parsing.mpr ⟨read, rfl⟩, Session.runs_pure.mpr ⟨?_, rfl⟩⟩⟩
    rw [← tops]
  · rw [trees, shows.tree_root]
    rfl

/-- What the children of a tag offer to a slot is kept when the tag gives way, if the first slot of
that name in the presented component is in no other slot. It stands at one place of the markup,
which does not depend on it, with nothing but elements above it, and it is attached, in order. -/
theorem expandTag_keeps (expander : Expander) {e : Element} {rendered : Rendered}
    {trees : List Tree} (read : Markup.parse rendered.html = .ok trees) {name : Text}
    (first : (nestingAll false (presented e.attributes rendered.hidden trees)).lookup name =
      some false) (offered : Text → List Tree) :
    ∃ around : Around, ∀ {σ : Type} {renderer : ComponentRenderer σ} {before after : σ}
      {page : Document} {host : Forest} {tag : NodeId}, page.Shows host → tag ∈ host.ids →
      page.element? tag = some e →
      Session.Runs (renderer (expander.callOf e)) before rendered after →
      boundTo page tag name ≠ [] →
      (∀ other, other ≠ name → boundTo page tag other = offered other) →
      ∃ (ids : List NodeId) (page' : Document) (new : Forest) (copies : List NodeId),
        Session.Runs (expander.expandTag renderer tag page) before (ids, page') after ∧
        page'.Shows (host.substitute [(tag, new)]) ∧
        new.trees = around.plug (boundTo page tag name) ∧
        copies.Sublist (page'.descendants Document.root) ∧
        copies.map page'.tree = boundTo page tag name := by
  -- Only elements of markup that was read have anything below them, and the slot is found there.
  have sound := areSound_presented (areSound_of_formedAll trees (formedAll_of_parse read))
    e.attributes rendered.hidden
  obtain ⟨around, placed⟩ :=
    exists_aroundAll offered [] (List.not_mem_nil) _ sound first
  refine ⟨around, ?_⟩
  intro σ renderer before after page host tag inPage calling element answered some others
  have parsed : Document.parse rendered.html = .ok (.ofForest trees) := by
    rw [Document.parse, read]
    rfl
  obtain ⟨target, between, component, fragment, shown, component_trees⟩ :=
    fragmentOf_eq (Document.shows_ofForest trees) e.attributes rendered.hidden
  rw [Forest.trees_plant] at component_trees
  have slot : slotNamesAll component.trees ≠ [] := by
    -- The component has a slot, at least that of the name.
    intro none
    rw [component_trees, ← names_nestingAll false, List.map_eq_nil_iff] at none
    rw [none] at first
    cases first
  obtain ⟨bound, shows, bound_trees⟩ := bindChildren_shows inPage calling shown slot target
  rw [← fragment] at shows
  obtain ⟨ids, page', new, runs, shows', _, new_trees⟩ :=
    expandTag_runs expander inPage calling element answered parsed shows
  have whole : new.trees = around.plug (boundTo page tag name) := by
    rw [new_trees, bound_trees, component_trees]
    exact placed (boundTo page tag) others some
  -- What stands in the place of the tag is a part of the new page, and is visited in its order.
  have inner := Forest.sublist_ids_substitute new calling
  have distinct := (List.nodup_cons.mp shows'.distinct).2
  obtain ⟨up, stands⟩ := shows'.stands.of_substitute calling
  obtain ⟨copies, listed, copied⟩ := stands.exists_copies (distinct.sublist inner) whole
  refine ⟨ids, page', new, copies, runs, shows', whole, ?_, copied⟩
  rw [shows'.descendants]
  exact listed.trans inner

/-- A renderer that gives the same markup for every call. -/
def fixedRenderer (html : Text) : ComponentRenderer Unit := fun _ => pure ⟨html, []⟩

/-- A calling tag around a text. -/
def bodyTrees (attributes : List Attribute) : List Tree :=
  [.node (.element ⟨"x-card".toList, attributes, false⟩) [.node (.text "Body".toList) []]]

/-- A tag that is alone in its page can be expanded. -/
theorem shows_bodyTrees (attributes : List Attribute) :
    (Document.ofForest (bodyTrees attributes)).Shows (.plant 1 (bodyTrees attributes)) ∧
      1 ∈ (Forest.plant 1 (bodyTrees attributes)).ids ∧
      (Document.ofForest (bodyTrees attributes)).element? 1 =
        some ⟨"x-card".toList, attributes, false⟩ := by
  refine ⟨Document.shows_ofForest _, ?_, rfl⟩
  rw [Forest.ids_plant]
  show 1 ∈ List.range' 1 2
  decide

/-- A component with a slot behind another one. -/
def pairTrees : List Tree :=
  [.node (.element ⟨['p'], [], false⟩)
    [.node (.element ⟨"slot".toList, [.valued "name".toList ['h']], false⟩) [],
      .node (.element ⟨['b'], [], false⟩) [.node (.element ⟨"slot".toList, [], false⟩) []]]]

/-- A text goes into a slot beside another one. -/
theorem expandTag_keeps_body :
    ∃ (ids : List NodeId) (page' : Document) (copies : List NodeId),
      Session.Runs (expandTag ⟨['x'], 1⟩ (fixedRenderer (writeAll pairTrees)) 1
        (.ofForest (bodyTrees []))) () (ids, page') () ∧
      copies.Sublist (page'.descendants Document.root) ∧
      copies.map page'.tree = [.node (.text "Body".toList) []] := by
  obtain ⟨inPage, calling, element⟩ := shows_bodyTrees []
  have read : Markup.parse (writeAll pairTrees) = .ok pairTrees :=
    parse_writeAll (by decide +kernel)
  have first : (nestingAll false (presented [] [] pairTrees)).lookup [] = some false := by
    decide +kernel
  have body : boundTo (.ofForest (bodyTrees [])) 1 [] = [.node (.text "Body".toList) []] := rfl
  -- Nothing is offered to any other name.
  have others (name : Text) (other : name ≠ []) :
      boundTo (.ofForest (bodyTrees [])) 1 name = [] := by
    have offer : offers ((Document.ofForest (bodyTrees [])).tree 1).children =
        [([], .node (.text "Body".toList) [])] := rfl
    rw [boundTo, offer, offeredTo]
    simp [Ne.symm other]
  let answer : Rendered := ⟨writeAll pairTrees, []⟩
  have answered : Session.Runs (fixedRenderer answer.html
      (callOf ⟨['x'], 1⟩ ⟨"x-card".toList, [], false⟩)) () answer () := rfl
  obtain ⟨around, kept⟩ := @expandTag_keeps ⟨['x'], 1⟩ ⟨"x-card".toList, [], false⟩ answer
    pairTrees read [] first fun _ => []
  obtain ⟨ids, page', new, copies, runs, _, _, listed, copied⟩ :=
    kept inPage calling element answered (by rw [body]; exact List.cons_ne_nil _ _) others
  rw [body] at copied
  exact ⟨ids, page', copies, runs, listed, copied⟩

/-- Whether a text in a tag is lost for a slot without a name in the markup of a component. -/
def LosesBody (attributes : List Attribute) (html : Text) : Prop :=
  ∃ (trees : List Tree) (ids : List NodeId) (page' : Document),
    Markup.parse html = .ok trees ∧ [] ∈ slotNamesAll trees ∧
      boundTo (.ofForest (bodyTrees attributes)) 1 [] = [.node (.text "Body".toList) []] ∧
      Session.Runs (expandTag ⟨['x'], 1⟩ (fixedRenderer html) 1
        (.ofForest (bodyTrees attributes))) () (ids, page') () ∧
      ¬∃ copies : List NodeId, copies.Sublist (page'.descendants Document.root) ∧
        copies.map page'.tree = [.node (.text "Body".toList) []]

/-- A text is lost if its tag gives way to nothing but a comment. -/
theorem losesBody_of_comment {attributes : List Attribute} {text : Text} {trees : List Tree}
    (read : Markup.parse (writeAll trees) = .ok trees) (slot : [] ∈ slotNamesAll trees)
    (presentedSlot : slotNamesAll (presented attributes [] trees) ≠ [])
    (comment : boundAll (boundTo (.ofForest (bodyTrees attributes)) 1) []
      (presented attributes [] trees) = [.node (.comment text) []]) :
    LosesBody attributes (writeAll trees) := by
  obtain ⟨inPage, calling, element⟩ := shows_bodyTrees attributes
  have parsed : Document.parse (writeAll trees) = .ok (.ofForest trees) := by
    rw [Document.parse, read]
    rfl
  obtain ⟨target, between, component, fragment, shown, component_trees⟩ :=
    fragmentOf_eq (Document.shows_ofForest trees) attributes []
  rw [Forest.trees_plant] at component_trees
  obtain ⟨bound, shows, bound_trees⟩ :=
    bindChildren_shows inPage calling shown (component_trees ▸ presentedSlot) target
  rw [← fragment] at shows
  rw [component_trees, comment] at bound_trees
  let answer : Rendered := ⟨writeAll trees, []⟩
  have answered : Session.Runs (fixedRenderer answer.html
      (callOf ⟨['x'], 1⟩ ⟨"x-card".toList, attributes, false⟩)) () answer () := rfl
  obtain ⟨ids, page', new, runs, shows', _, new_trees⟩ :=
    expandTag_runs ⟨['x'], 1⟩ inPage calling element answered parsed shows
  refine ⟨trees, ids, page', read, slot, rfl, runs, ?_⟩
  rintro ⟨copies, listed, copied⟩
  rw [bound_trees] at new_trees
  -- All that is attached is the comment, which is read as such.
  have planted : Forest.plant 1 (bodyTrees attributes) =
      .cons 1 (.element ⟨"x-card".toList, attributes, false⟩)
        (.cons 2 (.text "Body".toList) .nil .nil) .nil := by
    simp only [bodyTrees, Forest.plant]
  obtain ⟨id, rfl⟩ : ∃ id, new = .cons id (.comment text) .nil .nil := by
    cases new with
    | nil => cases new_trees
    | cons id content children rest =>
      cases children <;> cases rest <;> cases new_trees
      exact ⟨id, rfl⟩
  rw [planted, Forest.substitute_single, if_pos rfl] at shows'
  have shows' : page'.Shows (.cons id (.comment text) .nil .nil) := shows'
  rw [shows'.descendants] at listed
  have tree : page'.tree id = .node (.comment text) [] :=
    shows'.stands.tree (List.nodup_cons.mp shows'.distinct).2
  obtain ⟨first, rfl, same⟩ := List.map_eq_singleton_iff.mp copied
  obtain rfl : first = id := List.mem_singleton.mp (listed.subset List.mem_cons_self)
  rw [tree] at same
  cases same

/-- A text is lost if an attribute of its tag names the slot for it, and if that slot is in another
one. -/
theorem expandTag_loses_body :
    LosesBody [.valued "name".toList ['x']] "<slot></slot>".toList ∧
      LosesBody [] "<slot name=\"a\"><slot></slot></slot>".toList := by
  -- The first slot is renamed by the attribute, and the second one goes with the one around it.
  let bare : Tree := .node (.element ⟨"slot".toList, [], false⟩) []
  let outer : Tree := .node (.element ⟨"slot".toList, [.valued "name".toList ['a']], false⟩) [bare]
  have alone : writeAll [bare] = "<slot></slot>".toList := by decide +kernel
  have nested : writeAll [outer] = "<slot name=\"a\"><slot></slot></slot>".toList := by
    decide +kernel
  rw [← alone, ← nested]
  exact ⟨losesBody_of_comment (parse_writeAll (by decide +kernel)) (by decide +kernel)
      (by decide +kernel) rfl,
    losesBody_of_comment (parse_writeAll (by decide +kernel)) (by decide +kernel)
      (by decide +kernel) rfl⟩

end Templates.Expander
