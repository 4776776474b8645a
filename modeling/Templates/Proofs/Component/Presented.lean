import Templates.Component.Expand
import Templates.Proofs.Component.Offer
import Templates.Proofs.Markup.Unwrap

/-!
What a component looks like when its slots are looked up.

A template around everything has been taken away by then, and the element that stands alone at the
top has got the attributes of the calling tag.
-/

namespace Templates.Slot

open Markup

/-- The tree that stands alone among blank text. -/
def lone? (trees : List Tree) : Option Tree :=
  match trees.filter isMeaningful with
  | [only] => some only
  | _ => none

/-- The trees without a template around them; blank text beside it stays. -/
def unwrapped (trees : List Tree) : List Tree :=
  match lone? trees with
  | some (.node (.element e) _) =>
    if e.isNamed "template" then
      trees.flatMap fun tree => if isMeaningful tree then tree.children else [tree]
    else trees
  | _ => trees

/-- An element with attributes set on it, except for hidden ones. -/
def decorated (attributes : List Attribute) (hidden : List Text) (e : Element) : Element :=
  attributes.foldl (fun e a =>
    if hidden.any fun name => Text.sameName name a.name then e else e.setAttribute a) e

/-- A tree whose topmost node has attributes set on it, if it is an element. -/
def decoratedTree (attributes : List Attribute) (hidden : List Text) : Tree → Tree
  | .node (.element e) children => .node (.element (decorated attributes hidden e)) children
  | tree => tree

/-- The trees of a component with the attributes of the calling tag. -/
def presented (attributes : List Attribute) (hidden : List Text) (trees : List Tree) : List Tree :=
  if (lone? (unwrapped trees)).isSome then
    (unwrapped trees).map (decoratedTree attributes hidden)
  else unwrapped trees

/-- The attributes of a calling tag are set on a topmost element. -/
theorem shows_copyAttributes {d : Document} {tag : NodeId} {left below right : Forest} {e : Element}
    (shows : d.Shows (left.append (.cons tag (.element e) below right)))
    (attributes : List Attribute) (hidden : List Text) :
    (copyAttributes tag attributes hidden d).Shows
      (left.append (.cons tag (.element (decorated attributes hidden e)) below right)) := by
  -- The attributes are set one by one, each on the element with those before it.
  induction attributes generalizing d e with
  | nil => exact shows
  | cons a rest ih =>
    have element : d.element? tag = some e := by
      rw [Document.element?, (Forest.stands_append.mp shows.stands).2.content]
      rfl
    have set : d.setAttribute a tag = d.setContent (.element (e.setAttribute a)) tag := by
      rw [Document.setAttribute, Document.mapElement, element]
    unfold copyAttributes decorated at ih ⊢
    rw [List.foldl_cons, List.foldl_cons]
    split
    · exact ih shows
    · -- An attribute that is not hidden changes nothing but the element.
      rw [set]
      exact ih (shows.setContent _)

/-- A tree is alone if all others beside it are blank. -/
theorem lone?_append {left right : List Tree} {tree : Tree}
    (blankLeft : ∀ t ∈ left, isMeaningful t = false)
    (blankRight : ∀ t ∈ right, isMeaningful t = false) (own : isMeaningful tree = true) :
    lone? (left ++ tree :: right) = some tree := by
  -- Nothing of the blank text is left when meaningful trees are picked.
  have none {trees : List Tree} (blank : ∀ t ∈ trees, isMeaningful t = false) :
      trees.filter isMeaningful = [] :=
    List.filter_eq_nil_iff.mpr fun t listed => by simp [blank t listed]
  rw [lone?, List.filter_append, List.filter_cons_of_pos own, none blankLeft, none blankRight]
  rfl

/-- The only meaningful node at the top stands between blank texts. -/
theorem split_of_lone {fragment : Document} {forest : Forest} (shows : fragment.Shows forest)
    {only : NodeId} (lone : fragment.meaningfulChildren Document.root = [only]) :
    ∃ left content below right, forest = Forest.append left (.cons only content below right) ∧
      (∀ t ∈ left.trees, isMeaningful t = false) ∧ (∀ t ∈ right.trees, isMeaningful t = false) ∧
      isMeaningful (.node content below.trees) = true := by
  -- The node is found among the topmost ones, which tells what is beside it.
  have listed : only ∈ fragment.meaningfulChildren Document.root := lone ▸ List.mem_singleton_self _
  obtain ⟨child, meaningful⟩ := List.mem_filter.mp listed
  rw [shows.children] at child
  have distinct := (List.nodup_cons.mp shows.distinct).2
  obtain ⟨content, below, there⟩ := Forest.find?_of_mem (Forest.mem_ids_of_mem_tops child)
  obtain ⟨left, right, rfl, _⟩ := Forest.split_of_mem_tops there child distinct
  have own : fragment.content only = content := (Forest.stands_append.mp shows.stands).2.content
  have single : isMeaningful (.node content below.trees) = true := by
    rw [Document.isBlankText, own] at meaningful
    exact meaningful
  -- The trees on both sides are left out when meaningful ones are looked for.
  have all := map_meaningfulChildren fragment Document.root
  rw [lone, shows.map_children, Forest.trees_append, Forest.trees, List.filter_append,
    List.filter_cons_of_pos single] at all
  have count := congrArg List.length all
  simp only [List.map_cons, List.map_nil, List.length_cons, List.length_nil,
    List.length_append] at count
  have blank {trees : List Tree} (none : (trees.filter isMeaningful).length = 0) :
      ∀ t ∈ trees, isMeaningful t = false := fun t listed => by
    simpa using List.filter_eq_nil_iff.mp (List.length_eq_zero_iff.mp none) t listed
  exact ⟨left, content, below, right, rfl, blank (by omega), blank (by omega), single⟩

/-- A tree is alone if it is read from the only meaningful node at the top. -/
theorem lone?_trees {fragment : Document} {forest : Forest} (shows : fragment.Shows forest) :
    lone? forest.trees =
      match fragment.meaningfulChildren Document.root with
      | [only] => some (fragment.tree only)
      | _ => none := by
  have all := map_meaningfulChildren fragment Document.root
  rw [shows.map_children] at all
  rw [lone?, ← all]
  rcases fragment.meaningfulChildren Document.root with _ | ⟨first, _ | _⟩ <;> rfl

/-- The element that stands alone at the top of a document. -/
def loneElement? (fragment : Document) : Option NodeId :=
  match fragment.meaningfulChildren Document.root with
  | [only] => if (fragment.element? only).isSome then some only else none
  | _ => none

/-- Nothing stands alone at the top unless it is the only meaningful node there. -/
theorem loneElement?_eq_none {fragment : Document}
    (other : ∀ only, fragment.meaningfulChildren Document.root ≠ [only]) :
    loneElement? fragment = none := by
  unfold loneElement?
  split
  · next only lone => exact absurd lone (other only)
  · rfl

/-- Only elements have attributes set on them. -/
theorem decoratedTree_of_element?_eq_none {attributes : List Attribute} {hidden : List Text}
    {tree : Tree} (other : tree.content.element? = none) :
    decoratedTree attributes hidden tree = tree := by
  obtain ⟨content, children⟩ := tree
  cases content with
  | element e => cases other
  | _ => rfl

/-- Blank text is no element. -/
theorem element?_of_blank {tree : Tree} (blank : isMeaningful tree = false) :
    tree.content.element? = none := by
  obtain ⟨content, children⟩ := tree
  cases content with
  | element e => cases blank
  | _ => rfl

/-- Blank text has no attributes set on it. -/
theorem map_decoratedTree_of_blank (attributes : List Attribute) (hidden : List Text)
    {trees : List Tree} (blank : ∀ t ∈ trees, isMeaningful t = false) :
    trees.map (decoratedTree attributes hidden) = trees := by
  have same : trees.map (decoratedTree attributes hidden) = trees.map id :=
    List.map_congr_left fun t listed =>
      decoratedTree_of_element?_eq_none (element?_of_blank (blank t listed))
  rw [same, List.map_id]

/-- Attributes are set on the element that stands alone at the top. -/
theorem shows_decorated {fragment : Document} {forest : Forest} (shows : fragment.Shows forest)
    (attributes : List Attribute) (hidden : List Text) :
    ∃ forest', (match loneElement? fragment with
        | some target => copyAttributes target attributes hidden fragment
        | none => fragment).Shows forest' ∧
      forest'.trees = if (lone? forest.trees).isSome then
        forest.trees.map (decoratedTree attributes hidden) else forest.trees := by
  by_cases lone : ∃ only, fragment.meaningfulChildren Document.root = [only]
  · obtain ⟨only, lone⟩ := lone
    obtain ⟨left, content, below, right, rfl, blankLeft, blankRight, own⟩ :=
      split_of_lone shows lone
    have element : fragment.element? only = content.element? := by
      rw [Document.element?, (Forest.stands_append.mp shows.stands).2.content]
    have target : loneElement? fragment =
        if content.element?.isSome then some only else none := by
      rw [loneElement?, lone, ← element]
    rw [target, Forest.trees_append, Forest.trees, lone?_append blankLeft blankRight own,
      List.map_append, List.map_cons, map_decoratedTree_of_blank _ _ blankLeft,
      map_decoratedTree_of_blank _ _ blankRight]
    cases content with
    | element e =>
      -- The attributes are set on the element alone, as blank text has none.
      refine ⟨_, shows_copyAttributes shows attributes hidden, ?_⟩
      rw [Forest.trees_append, Forest.trees]
      rfl
    | _ =>
      -- Text that stands alone stays as it is.
      refine ⟨_, shows, ?_⟩
      rw [Forest.trees_append, Forest.trees]
      rfl
  · -- Several nodes at the top have no attributes set on them, and neither has none.
    have other : ∀ only, fragment.meaningfulChildren Document.root ≠ [only] := fun only same =>
      lone ⟨only, same⟩
    have none : lone? forest.trees = none := by
      rw [lone?_trees shows]
      split
      · next only same => exact absurd same (other only)
      · rfl
    rw [loneElement?_eq_none other, none]
    exact ⟨forest, shows, rfl⟩

/-- Blank text stays when a template beside it is taken away. -/
theorem flatMap_of_blank {trees : List Tree} (blank : ∀ t ∈ trees, isMeaningful t = false) :
    (trees.flatMap fun tree => if isMeaningful tree then tree.children else [tree]) = trees := by
  induction trees with
  | nil => rfl
  | cons tree rest ih =>
    obtain ⟨first, blank⟩ := List.forall_mem_cons.mp blank
    rw [List.flatMap_cons, ih blank, if_neg (by simp [first])]
    rfl

/-- Blank text is not among the meaningful nodes. -/
theorem filter_tops_of_blank {d : Document} {parent : Option NodeId} {forest : Forest}
    (stands : forest.Stands d parent) (distinct : forest.ids.Nodup)
    (blank : ∀ t ∈ forest.trees, isMeaningful t = false) :
    (forest.tops.filter fun id => !d.isBlankText id) = [] := by
  -- Whether a node is blank is read off its tree.
  have trees : forest.tops.map d.tree = forest.trees :=
    stands.treeTo (stands.length_le distinct)
  refine List.filter_eq_nil_iff.mpr fun id listed => ?_
  have known := blank (d.tree id) (trees ▸ List.mem_map_of_mem listed)
  rw [isMeaningful, Document.content_tree] at known
  simpa [Document.isBlankText] using known

/-- When a node between blank texts has given way to its children, these are what is meaningful at
the top. -/
theorem meaningfulChildren_unwrap {fragment : Document} {left below right : Forest} {only : NodeId}
    {content : Content} (shows : fragment.Shows (left.append (.cons only content below right)))
    (blankLeft : ∀ t ∈ left.trees, isMeaningful t = false)
    (blankRight : ∀ t ∈ right.trees, isMeaningful t = false) :
    (fragment.replaceWith only (fragment.children only)).meaningfulChildren Document.root =
      fragment.meaningfulChildren only := by
  obtain ⟨standsLeft, standsOnly⟩ := Forest.stands_append.mp shows.stands
  have children : fragment.children only = below.tops := standsOnly.children
  have distinct := (List.nodup_cons.mp shows.distinct).2
  rw [Forest.ids_append, Forest.ids, List.nodup_append, List.nodup_cons,
    List.nodup_append] at distinct
  -- No node has got another content.
  have relinked := Document.Relinked.replaceWith only (fragment.children only) fragment
  have same (ids : List NodeId) : (ids.filter fun id =>
      !(fragment.replaceWith only (fragment.children only)).isBlankText id) =
        ids.filter fun id => !fragment.isBlankText id := by
    refine List.filter_congr fun id _ => ?_
    rw [Document.isBlankText, Document.isBlankText, relinked.content]
  rw [Document.meaningfulChildren, same, shows.unwrap.children, Document.meaningfulChildren,
    children, Forest.tops_append, Forest.tops_append, List.filter_append, List.filter_append,
    filter_tops_of_blank standsLeft distinct.1 blankLeft,
    filter_tops_of_blank standsOnly.2.2 distinct.2.1.2.2.1 blankRight, List.append_nil]
  rfl

/-- A lone template is taken away, and blank text beside it stays. -/
theorem unwrapped_template {left children right : List Tree} {e : Element}
    (blankLeft : ∀ t ∈ left, isMeaningful t = false)
    (blankRight : ∀ t ∈ right, isMeaningful t = false) (named : e.isNamed "template" = true) :
    unwrapped (left ++ .node (.element e) children :: right) = left ++ (children ++ right) := by
  have own : isMeaningful (.node (.element e) children) = true := rfl
  rw [unwrapped, lone?_append blankLeft blankRight own]
  dsimp only
  rw [if_pos named, List.flatMap_append, List.flatMap_cons, if_pos own,
    flatMap_of_blank blankLeft, flatMap_of_blank blankRight]
  rfl

/-- Trees stay as they are if none of them is a lone template. -/
theorem unwrapped_eq_self {trees : List Tree}
    (other : ∀ e children, lone? trees = some (.node (.element e) children) →
      ¬e.isNamed "template" = true) : unwrapped trees = trees := by
  unfold unwrapped
  split
  · next e children lone => exact if_neg (other e children lone)
  · rfl

/-- A lone template of a document gives way to its children before the element that stands alone is
looked for. -/
theorem attributeTarget_template {fragment : Document} {only : NodeId}
    (lone : fragment.meaningfulChildren Document.root = [only])
    (template : fragment.isNamed "template" only = true)
    (inner : (fragment.replaceWith only (fragment.children only)).meaningfulChildren
      Document.root = fragment.meaningfulChildren only) :
    attributeTarget fragment =
      (loneElement? (fragment.replaceWith only (fragment.children only)),
        fragment.replaceWith only (fragment.children only)) := by
  rw [attributeTarget, lone]
  dsimp only
  rw [if_pos template, loneElement?, inner]
  rcases fragment.meaningfulChildren only with _ | ⟨single, _ | _⟩ <;> rfl

/-- Without a lone template, a document stays as it is. -/
theorem attributeTarget_of_other {fragment : Document}
    (other : ∀ only, fragment.meaningfulChildren Document.root = [only] →
      ¬fragment.isNamed "template" only = true) :
    attributeTarget fragment = (loneElement? fragment, fragment) := by
  unfold attributeTarget
  split
  · next only lone => rw [if_neg (other only lone), loneElement?, lone]
  · next several => rw [loneElement?_eq_none several]

/-- A template around everything is taken away, and then the element that stands alone is looked
for. -/
theorem shows_unwrapped {fragment : Document} {forest : Forest} (shows : fragment.Shows forest) :
    ∃ forest', (attributeTarget fragment).2.Shows forest' ∧ forest'.trees = unwrapped forest.trees ∧
      (attributeTarget fragment).1 = loneElement? (attributeTarget fragment).2 := by
  by_cases template : ∃ only, fragment.meaningfulChildren Document.root = [only] ∧
      fragment.isNamed "template" only = true
  · obtain ⟨only, lone, template⟩ := template
    obtain ⟨left, content, below, right, rfl, blankLeft, blankRight, _⟩ := split_of_lone shows lone
    rw [attributeTarget_template lone template
      (meaningfulChildren_unwrap shows blankLeft blankRight)]
    refine ⟨_, shows.unwrap, ?_, rfl⟩
    rw [Document.isNamed, Document.element?,
      (Forest.stands_append.mp shows.stands).2.content] at template
    cases content with
    | element e =>
      rw [Forest.trees_append, Forest.trees_append, Forest.trees_append, Forest.trees,
        unwrapped_template blankLeft blankRight template]
    | _ => cases template
  · rw [attributeTarget_of_other fun only lone named => template ⟨only, lone, named⟩]
    refine ⟨forest, shows, (unwrapped_eq_self fun e children lone named => ?_).symm, rfl⟩
    -- A lone template among the trees would be one in the document.
    rw [lone?_trees shows] at lone
    split at lone
    · next only listed =>
      have own : fragment.content only = .element e := by
        rw [← Document.content_tree, Option.some.inj lone]
        rfl
      refine template ⟨only, listed, ?_⟩
      rw [Document.isNamed, Document.element?, own]
      exact named
    · cases lone

/-- The children of a calling tag are bound to the trees of a component as these are presented. -/
theorem fragmentOf_eq {fragment : Document} {forest : Forest} (shows : fragment.Shows forest)
    (attributes : List Attribute) (hidden : List Text) :
    ∃ target between forest',
      (∀ page tag, Expander.fragmentOf page tag attributes hidden fragment =
        bindChildren page tag target between) ∧
      between.Shows forest' ∧ forest'.trees = presented attributes hidden forest.trees := by
  -- The template is taken away first, and attributes are set on what stands alone then.
  obtain ⟨forest', shows', trees, target⟩ := shows_unwrapped shows
  obtain ⟨forest'', shows'', trees'⟩ := shows_decorated shows' attributes hidden
  rw [← target] at shows''
  exact ⟨(attributeTarget fragment).1, _, forest'', fun _ _ => rfl, shows'',
    by rw [trees', trees, presented]⟩

end Templates.Slot
