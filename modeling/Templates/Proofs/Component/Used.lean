import Templates.Proofs.Component.Bond
import Templates.Proofs.Component.Hole
import Templates.Proofs.Component.Kept
import Templates.Proofs.Component.Spared

/-!
A component whose tag is used once in a page, without attributes and children.

Its markup takes the place of the tag and is decoded there, and the rest of the page stays.
-/

namespace Templates

open Markup

namespace Markup.Forest

variable {d : Document} {parent : Option NodeId} {forest : Forest}

/-- Nothing is put behind a forest. -/
theorem append_nil (forest : Forest) : forest.append nil = forest := by
  induction forest with
  | nil => rfl
  | cons id content below rest _ ih => rw [append, ih]

/-- From the topmost nodes of a forest that is attached all its nodes are reached. -/
theorem Stands.reached (stands : forest.Stands d parent) (distinct : forest.ids.Nodup)
    (attached : ∀ id ∈ forest.tops, d.isAttached id = true) :
    d.reached forest.tops = forest.ids := by
  rw [Document.reached, List.filter_eq_self.mpr attached]
  exact stands.flatMap_descendants distinct

end Markup.Forest

namespace Slot

/-- Without children of the tag and without slots a fragment stays as it is. -/
theorem bindChildren_bare {page fragment : Document} {tag : NodeId}
    (childless : page.children tag = [])
    (noSlot : fragment.findElements (Element.isNamed "slot") = []) (target : Option NodeId) :
    bindChildren page tag target fragment = fragment := by
  have none : page.meaningfulChildren tag = [] := by
    rw [Document.meaningfulChildren, childless]
    rfl
  rw [bindChildren, none, copyChildren]
  dsimp only
  rw [noSlot]
  rfl

/-- Without attributes of the tag a component is presented as it is, but for a template around
it. -/
theorem presented_nil (hidden : List Text) (trees : List Tree) :
    presented [] hidden trees = unwrapped trees := by
  have same (tree : Tree) : decoratedTree [] hidden tree = tree := by
    obtain ⟨content, children⟩ := tree
    cases content <;> rfl
  rw [presented]
  split
  · rw [funext same]
    exact List.map_id _
  · rfl

end Slot

namespace Expander

/-- An element that uses the component of a tag without giving it anything. -/
structure Uses (expander : Expander) (tag : Text) (e : Element) : Prop where
  named : Text.asciiLower e.name = expander.start ++ tag
  bare : e.attributes = []

variable {σ : Type} {expander : Expander} {renderer : ComponentRenderer σ} {before after : σ}
  {tag : Text} {use : Element}

/-- Such an element is a custom tag. -/
theorem Uses.isCustom (uses : expander.Uses tag use) : expander.isCustom use = true := by
  rw [Expander.isCustom, uses.named]
  exact Text.startsWith_iff.mpr (List.prefix_append _ _)

/-- Such an element calls the component of its tag, with no attributes. -/
theorem Uses.callOf (uses : expander.Uses tag use) : expander.callOf use = ⟨tag, []⟩ := by
  have same := name_eq uses.isCustom
  rw [uses.named, List.append_cancel_left_eq] at same
  rw [Expander.callOf, Call.mk.injEq]
  exact ⟨same.symm, by rw [uses.bare]; rfl⟩

/-- A source without custom tags is expanded to itself if it is written as it is read. -/
theorem expand_static {trees : List Tree} (read : Markup.parse (writeAll trees) = .ok trees)
    (kept : expander.withoutCommented (writeAll trees) = writeAll trees)
    (noTag : ∀ e ∈ elementsAll trees, expander.isCustom e = false) :
    Session.Runs (expander.expand renderer (writeAll trees)) before (writeAll trees) before := by
  rw [expand_untagged renderer kept read noTag, ite_self]
  exact Session.runs_pure.mpr ⟨rfl, rfl⟩

/-- A tag gives way to the markup of its component as it is. -/
theorem Uses.expandTag (uses : expander.Uses tag use) {page : Document} {hole : Forest.Hole}
    {id : NodeId} (shows : page.Shows (hole.plug (.cons id (.element use) .nil .nil)))
    {rendered : Rendered} {trees : List Tree}
    (answered : Session.Runs (renderer ⟨tag, []⟩) before rendered after)
    (read : Markup.parse rendered.html = .ok trees) (whole : Slot.unwrapped trees = trees)
    (noSlot : ∀ e ∈ elementsAll trees, e.isNamed "slot" = false) :
    ∃ page' new, Session.Runs (expander.expandTag renderer id page) before
        (new.tops, page') after ∧
      page'.Shows (hole.plug new) ∧ new.trees = trees := by
  have distinct := (List.nodup_cons.mp shows.distinct).2
  have order := hole.ids_plug (.cons id (.element use) .nil .nil)
  obtain ⟨above, stands⟩ := Forest.Hole.stands_of_plug shows.stands
  have calling : id ∈ (hole.plug (.cons id (.element use) .nil .nil)).ids :=
    order.mem_iff.mpr (List.mem_append_right _ List.mem_cons_self)
  have absent : id ∉ hole.ids := by
    have apart := List.nodup_append.mp (order.nodup_iff.mp distinct)
    exact fun listed => apart.2.2 id listed id List.mem_cons_self rfl
  have element : page.element? id = some use := by
    rw [Document.element?, stands.content]
    rfl
  have parsed := (Document.parse_eq_ok read).1
  -- The tag gives nothing to the fragment, which shows the trees of the component.
  obtain ⟨target, between, component, fragment, shown, component_trees⟩ :=
    Slot.fragmentOf_eq (Document.shows_ofForest trees) [] rendered.hidden
  rw [Forest.trees_plant, Slot.presented_nil, whole] at component_trees
  have empty : between.findElements (Element.isNamed "slot") = [] := by
    rw [Document.findElements, shown.descendants, shown.stands.filter_ids]
    exact Forest.marked_eq_nil (component_trees ▸ noSlot)
  have bound : (fragmentOf page id use.attributes rendered.hidden (.ofForest trees)).Shows
      component := by
    rw [uses.bare, fragment, Slot.bindChildren_bare stands.children empty]
    exact shown
  obtain ⟨ids, page', new, runs, shows', rfl, new_trees⟩ :=
    expandTag_runs expander shows calling element (uses.callOf ▸ answered) parsed bound
  refine ⟨page', new, runs, ?_, new_trees.trans component_trees⟩
  rw [Forest.Hole.substitute_plug absent, Forest.substitute_single, if_pos rfl] at shows'
  rwa [Forest.substitute, Forest.append_nil] at shows'

/-- What stands in a place of a page is decoded, and nothing around it. -/
theorem markup_decodeUrls {page : Document} {hole : Forest.Hole} {new : Forest}
    (shows : page.Shows (hole.plug new)) :
    (page.decodeUrls new.tops).markup = writeAll (hole.around.plug (decodedAll new.trees)) := by
  have distinct := (List.nodup_cons.mp shows.distinct).2
  have order := hole.ids_plug new
  obtain ⟨_, own, apart⟩ := List.nodup_append.mp (order.nodup_iff.mp distinct)
  obtain ⟨above, stands⟩ := Forest.Hole.stands_of_plug shows.stands
  have reached : page.reached new.tops = new.ids := by
    refine stands.reached own fun id listed => shows.isAttached ?_
    exact order.mem_iff.mpr (List.mem_append_right _ (Forest.mem_ids_of_mem_tops listed))
  rw [Document.decodeUrls_eq, reached, (shows.decodedAt _).markup]
  -- The nodes that are reached are exactly those in the place.
  rw [Forest.Hole.decodedAt_plug (fun id listed => ?_), Forest.Hole.trees_plug,
    Forest.trees_decodedAt (by simp)]
  simpa using fun within => apart id listed id within rfl

/-- In a page whose only custom tag gives nothing to its component, the markup of the component takes
the place of the tag, with its addresses decoded. -/
theorem Uses.expand (uses : expander.Uses tag use) (room : 0 < expander.maxDepth)
    {around : Slot.Around}
    (page_read : Markup.parse (writeAll (around.plug [.node (.element use) []])) =
      .ok (around.plug [.node (.element use) []]))
    (kept : expander.withoutCommented (writeAll (around.plug [.node (.element use) []])) =
      writeAll (around.plug [.node (.element use) []]))
    (alone : ∀ e ∈ around.elements, expander.isCustom e = false)
    {rendered : Rendered} {trees : List Tree}
    (answered : Session.Runs (renderer ⟨tag, []⟩) before rendered after)
    (read : Markup.parse rendered.html = .ok trees) (whole : Slot.unwrapped trees = trees)
    (plain : ∀ e ∈ elementsAll trees, expander.isCustom e = false ∧ e.isNamed "slot" = false) :
    Session.Runs (expander.expand renderer (writeAll (around.plug [.node (.element use) []])))
      before (writeAll (around.plug (decodedAll trees))) after := by
  obtain ⟨hole, inner, planted, rfl, inner_trees⟩ := Forest.exists_hole
    (Forest.trees_plant 1 (around.plug [.node (.element use) []]))
  obtain ⟨id, rfl⟩ : ∃ id, inner = .cons id (.element use) .nil .nil := by
    cases inner with
    | nil => cases inner_trees
    | cons id content children rest =>
      cases children <;> cases rest <;> cases inner_trees
      exact ⟨id, rfl⟩
  have shows := Document.shows_ofForest (hole.around.plug [.node (.element use) []])
  rw [planted] at shows
  have parsed := (Document.parse_eq_ok page_read).1
  generalize Document.ofForest (hole.around.plug [.node (.element use) []]) = page at shows parsed
  obtain ⟨page', new, runs, shows', new_trees⟩ :=
    uses.expandTag shows answered read whole fun e listed => (plain e listed).2
  -- The first pass finds the tag alone, and the second one finds none.
  have first : page.findElements expander.isCustom = [id] := by
    have custom : (Content.element use).chosen? expander.isCustom = some use :=
      Content.chosen?_eq_some.mpr ⟨rfl, uses.isCustom⟩
    rw [findElements_eq shows, Forest.Hole.marked_plug alone, Forest.marked, custom]
    rfl
  have second : page'.findElements expander.isCustom = [] := by
    rw [findElements_eq shows', Forest.Hole.marked_plug alone]
    exact Forest.marked_eq_nil fun e listed => (plain e (new_trees ▸ listed)).1
  have attached : page.isAttached id = true :=
    shows.isAttached ((hole.ids_plug _).mem_iff.mpr (List.mem_append_right _ List.mem_cons_self))
  have pass : Session.Runs (expander.expandTags renderer [id] [] page) before (new.tops, page')
      after := by
    rw [expandTags, if_pos attached]
    exact Session.runs_bind.mpr ⟨_, after, runs, Session.runs_pure.mpr ⟨rfl, rfl⟩⟩
  obtain ⟨count, depth⟩ := Nat.exists_eq_add_one.mpr room
  have done : Session.Runs (expander.passes renderer expander.maxDepth [] page) before
      (new.tops, page') after := by
    rw [depth, passes_succ (first ▸ List.cons_ne_nil _ _), first]
    refine Session.runs_bind.mpr ⟨_, after, pass, ?_⟩
    rw [passes_done second]
    exact Session.runs_pure.mpr ⟨rfl, rfl⟩
  unfold Expander.expand
  rw [kept]
  dsimp only
  have among : use ∈ elementsAll (hole.around.plug [.node (.element use) []]) :=
    Slot.Around.mem_elementsAll_plug.mpr (.inr List.mem_cons_self)
  rw [if_pos (isLive_of_isCustom page_read among uses.isCustom)]
  refine Session.runs_bind.mpr ⟨page, before, runs_parsing.mpr ⟨parsed, rfl⟩, ?_⟩
  refine Session.runs_bind.mpr ⟨_, after, done, Session.runs_pure.mpr ⟨?_, rfl⟩⟩
  rw [markup_decodeUrls shows', new_trees]

end Expander

end Templates
