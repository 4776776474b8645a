import Templates.Proofs.Markup.Edit
import Templates.Proofs.Markup.Substitute

/-! A node of a standing forest gives way to a forest without a place, wherever the node is. -/

namespace Templates.Markup

/-- The topmost node of a tree is the node it is read from. -/
theorem Document.content_tree (d : Document) (id : NodeId) :
    (d.tree id).content = d.content id := by
  rw [tree]
  cases d.size <;> rfl

/-- A node that is read as an element is one. -/
theorem Document.content_of_element? {d : Document} {id : NodeId} {e : Element}
    (element : d.element? id = some e) : d.content id = .element e := by
  rw [Document.element?] at element
  cases own : d.content id with
  | element _ => rw [own] at element; cases element; rfl
  | _ => rw [own] at element; cases element

/-- An element has its own name. -/
theorem Document.isNamed_of_element? {d : Document} {id : NodeId} {e : Element}
    (element : d.element? id = some e) (name : Text) : d.isNamed name id = e.isNamed name := by
  rw [Document.isNamed, element]
  rfl

/-- What is no element has no name. -/
theorem Document.isNamed_of_element?_eq_none {d : Document} {id : NodeId}
    (other : d.element? id = none) (name : Text) : d.isNamed name id = false := by
  rw [Document.isNamed, other]
  rfl

namespace Forest

/-- A node of a standing forest is read as a tree with everything below it. -/
theorem Stands.tree_of_find? {d : Document} {parent : Option NodeId} {forest below : Forest}
    {id : NodeId} {content : Content} (stands : forest.Stands d parent)
    (distinct : forest.ids.Nodup) (there : forest.find? id = some (content, below)) :
    d.tree id = .node content below.trees ∧ d.children id = below.tops ∧
      below.Stands d (some id) ∧ below.ids.Nodup := by
  induction forest generalizing parent with
  | nil => cases there
  | cons first own inner rest ihInner ihRest =>
    by_cases same : first = id
    · -- The node is the first one.
      rw [find?, if_pos same] at there
      cases there
      subst same
      have apart := List.nodup_append.mp (List.nodup_cons.mp distinct).2
      exact ⟨stands.tree distinct, stands.children, stands.2.1, apart.1⟩
    · -- It is below the first one, or else behind it.
      rw [find?, if_neg same] at there
      obtain ⟨_, standsInner, standsRest⟩ := stands
      have apart := List.nodup_append.mp (List.nodup_cons.mp distinct).2
      obtain there | ⟨_, there⟩ := Option.or_eq_some_iff.mp there
      · exact ihInner standsInner apart.1 there
      · exact ihRest standsRest apart.2.1 there

/-- A node of a standing forest is read as a tree of its content and the trees of its children. -/
theorem Stands.tree_eq {d : Document} {parent : Option NodeId} {forest : Forest} {id : NodeId}
    (stands : forest.Stands d parent) (distinct : forest.ids.Nodup) (listed : id ∈ forest.ids) :
    d.tree id = .node (d.content id) ((d.children id).map d.tree) := by
  -- What is below the node in the forest is what is read below it.
  obtain ⟨content, below, there⟩ := find?_of_mem listed
  obtain ⟨tree, children, standsBelow, distinctBelow⟩ := stands.tree_of_find? distinct there
  have own : (d.tree id).content = d.content id := Document.content_tree d id
  have trees : below.tops.map d.tree = below.trees :=
    standsBelow.treeTo (standsBelow.length_le distinctBelow)
  rw [tree] at own
  rw [tree, children, trees, ← own]
  rfl

/-- What takes the place of a node stands there. -/
theorem Stands.of_substitute {d : Document} {parent : Option NodeId} {forest new : Forest}
    {old : NodeId} (stands : (forest.substitute [(old, new)]).Stands d parent)
    (listed : old ∈ forest.ids) : ∃ up, new.Stands d up := by
  induction forest generalizing parent with
  | nil => cases listed
  | cons id content below rest ihBelow ihRest =>
    rw [substitute_single] at stands
    by_cases same : id = old
    · rw [if_pos same] at stands
      exact ⟨parent, (stands_append.mp stands).1⟩
    · rw [if_neg same] at stands
      obtain ⟨_, standsBelow, standsRest⟩ := stands
      obtain listed | listed := List.mem_cons.mp listed
      · exact absurd listed.symm same
      · obtain listed | listed := List.mem_append.mp listed
        · exact ihBelow standsBelow listed
        · exact ihRest standsRest listed

/-- Nothing is above the topmost nodes of a forest without a place. -/
theorem Stands.parent?_of_mem_tops {d : Document} {parent : Option NodeId} {forest : Forest}
    (stands : forest.Stands d parent) {id : NodeId} (top : id ∈ forest.tops) :
    d.parent? id = parent := by
  induction forest with
  | nil => cases top
  | cons first content below rest _ ih =>
    obtain ⟨node, _, standsRest⟩ := stands
    obtain rfl | top := List.mem_cons.mp top
    · exact Document.parent?_eq node
    · exact ih standsRest top

/-- A child of a node gives way to a forest without a place: the node gets other children, and no
node besides it and the child changes. -/
theorem Stands.replaceChild {d : Document} {parent : Option NodeId} {id old : NodeId}
    {own content : Content} {kids below new : Forest} (stands : kids.Stands d (some id))
    (node : d.nodes[id]? = some ⟨own, parent, kids.tops⟩) (loose : new.Stands d none)
    (distinct : kids.ids.Nodup) (distinctNew : new.ids.Nodup) (notKids : id ∉ kids.ids)
    (notNew : id ∉ new.ids) (apart : ∀ {x}, x ∈ kids.ids → x ∉ new.ids)
    (there : kids.find? old = some (content, below)) (top : old ∈ kids.tops) :
    (kids.substitute [(old, new)]).Stands (d.replaceWith old new.tops) (some id) ∧
      (d.replaceWith old new.tops).nodes[id]? =
        some ⟨own, parent, (kids.substitute [(old, new)]).tops⟩ ∧
      (cons old content below nil).Stands (d.replaceWith old new.tops) none ∧
      (d.replaceWith old new.tops).size = d.size ∧
      ∀ x, x ≠ id → x ≠ old → x ∉ new.tops →
        (d.replaceWith old new.tops).nodes[x]? = d.nodes[x]? := by
  -- The child stands between those on its left and those on its right.
  have listed := mem_of_find? there
  obtain ⟨left, right, rfl, changed⟩ := split_of_mem_tops there top distinct
  obtain ⟨standsLeft, nodeOld, standsBelow, standsRight⟩ := stands_append.mp stands
  rw [tops_append, tops] at node
  simp only [ids_append, ids, List.nodup_append, List.nodup_cons, List.mem_append,
    List.mem_cons, not_or] at distinct notKids apart
  obtain ⟨_, ⟨⟨notBelow, notRight⟩, _, _, _⟩, leftOld⟩ := distinct
  obtain ⟨notLeftId, notOld, notBelowId, notRightId⟩ := notKids
  have notLeft : old ∉ left.ids := fun listed => leftOld old listed old (.inl rfl) rfl
  have once : old ∉ left.tops ++ right.tops := by
    rw [List.mem_append, not_or]
    exact ⟨notMem_tops notLeft, notMem_tops notRight⟩
  obtain ⟨placed, whole, gone, size, same⟩ := Document.replaceWith_loose nodeOld node loose
    distinctNew (apart (.inr (.inl rfl))) notNew (Ne.symm notOld) once
  -- All trees around and below the child stay as they are.
  have kept {up : Option NodeId} {part : Forest} (stands : part.Stands d up)
      (notId : id ∉ part.ids) (notOld : old ∉ part.ids)
      (fresh : ∀ x ∈ part.ids, x ∉ new.ids) : part.Stands (d.replaceWith old new.tops) up := by
    refine stands.congr fun x listed => same x ?_ ?_ ?_
    · exact ne_of_mem_of_not_mem listed notId
    · exact ne_of_mem_of_not_mem listed notOld
    · exact notMem_tops (fresh x listed)
  rw [changed, tops_append, tops_append, stands_append, stands_append, ← List.append_assoc]
  refine ⟨⟨?_, placed, ?_⟩, whole, ⟨gone, ?_, trivial⟩, size, same⟩
  · exact kept standsLeft notLeftId notLeft fun x listed => apart (.inl listed)
  · exact kept standsRight notRightId notRight fun x listed => apart (.inr (.inr (.inr listed)))
  · exact kept standsBelow notBelowId notBelow fun x listed => apart (.inr (.inr (.inl listed)))

/-- A node below the topmost ones gives way to a forest without a place, and no node outside of
both forests changes. -/
theorem Stands.replaceWith {d : Document} {parent : Option NodeId} {forest below new : Forest}
    {old : NodeId} {content : Content} (stands : forest.Stands d parent)
    (loose : new.Stands d none) (distinct : forest.ids.Nodup) (distinctNew : new.ids.Nodup)
    (apart : ∀ {x}, x ∈ forest.ids → x ∉ new.ids)
    (there : forest.find? old = some (content, below)) (inner : old ∉ forest.tops) :
    (forest.substitute [(old, new)]).Stands (d.replaceWith old new.tops) parent ∧
      (cons old content below nil).Stands (d.replaceWith old new.tops) none ∧
      (d.replaceWith old new.tops).size = d.size ∧
      ∀ id, id ∉ forest.ids → id ∉ new.tops →
        (d.replaceWith old new.tops).nodes[id]? = d.nodes[id]? := by
  -- The induction goes down to the node right above the one that gives way.
  induction forest generalizing parent with
  | nil => cases there
  | cons id own kids rest ihKids ihRest =>
    obtain ⟨node, standsKids, standsRest⟩ := stands
    obtain ⟨other, innerRest⟩ := List.ne_and_not_mem_of_not_mem_cons inner
    simp only [ids, List.nodup_cons, List.mem_append, not_or, List.nodup_append] at distinct
    obtain ⟨⟨notKids, notRest⟩, distinctKids, distinctRest, disjoint⟩ := distinct
    have notNew := apart List.mem_cons_self
    have kidsApart {x : NodeId} (listed : x ∈ kids.ids) : x ∉ new.ids :=
      apart (List.mem_cons_of_mem _ (List.mem_append_left _ listed))
    have restApart {x : NodeId} (listed : x ∈ rest.ids) : x ∉ new.ids :=
      apart (List.mem_cons_of_mem _ (List.mem_append_right _ listed))
    rw [find?, if_neg (Ne.symm other)] at there
    rw [substitute_single, if_neg (Ne.symm other)]
    obtain there | ⟨_, there⟩ := Option.or_eq_some_iff.mp there
    · have notOldRest : old ∉ rest.ids := fun listed =>
        disjoint old (mem_of_find? there) old listed rfl
      rw [substitute_of_notMem notOldRest]
      by_cases top : old ∈ kids.tops
      · -- The node is a child of the first one, which gets the new trees in its place.
        obtain ⟨placed, whole, gone, size, same⟩ := standsKids.replaceChild node loose
          distinctKids distinctNew notKids notNew kidsApart there top
        refine ⟨⟨whole, placed, ?_⟩, gone, size, ?_⟩
        · refine standsRest.congr fun x listed => same x ?_ ?_ (notMem_tops (restApart listed))
          · exact ne_of_mem_of_not_mem listed notRest
          · exact ne_of_mem_of_not_mem listed notOldRest
        · intro x outside notTops
          simp only [ids, List.mem_cons, List.mem_append, not_or] at outside
          exact same x outside.1 (fun eq => outside.2.1 (eq ▸ mem_of_find? there)) notTops
      · -- The node is further below, so that the first one keeps its children.
        obtain ⟨placed, gone, size, same⟩ := ihKids standsKids distinctKids kidsApart there top
        refine ⟨⟨?_, placed, ?_⟩, gone, size, ?_⟩
        · rw [same id notKids (notMem_tops notNew), tops_substitute top, node]
        · refine standsRest.congr fun x listed => same x (fun within => ?_) ?_
          · exact disjoint x within x listed rfl
          · exact notMem_tops (restApart listed)
        · intro x outside notTops
          simp only [ids, List.mem_cons, List.mem_append, not_or] at outside
          exact same x outside.2.1 notTops
    · -- The node is behind the first one, which stays with everything below it.
      have notOldKids : old ∉ kids.ids := fun listed =>
        disjoint old listed old (mem_of_find? there) rfl
      rw [substitute_of_notMem notOldKids]
      obtain ⟨placed, gone, size, same⟩ :=
        ihRest standsRest distinctRest restApart there innerRest
      refine ⟨⟨?_, ?_, placed⟩, gone, size, ?_⟩
      · rw [same id notRest (notMem_tops notNew), node]
      · refine standsKids.congr fun x listed => same x (fun within => ?_) ?_
        · exact disjoint x listed x within rfl
        · exact notMem_tops (kidsApart listed)
      · intro x outside notTops
        simp only [ids, List.mem_cons, List.mem_append, not_or] at outside
        exact same x outside.2.2 notTops

end Forest

/-- The root is read as the trees of the forest below it. -/
theorem Document.Shows.tree_root {d : Document} {forest : Forest} (shows : d.Shows forest) :
    d.tree root = .node .fragment forest.trees :=
  shows.whole.tree shows.nodup_whole

end Templates.Markup
