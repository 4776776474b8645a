import Templates.Proofs.Markup.Forest

/-! What a document is after a node has given way to others that were linked to none. -/

namespace Templates.Markup.Document

/-- A change of the link upwards is seen at that node only. -/
theorem getElem?_setParent (parent : Option NodeId) (id : NodeId) (d : Document) (other : NodeId) :
    (d.setParent parent id).nodes[other]? =
      if id = other then d.nodes[other]?.map fun node => { node with parent := parent }
      else d.nodes[other]? :=
  Array.getElem?_modify

/-- A change of the links downwards is seen at that node only. -/
theorem getElem?_mapChildren (f : List NodeId → List NodeId) (id : NodeId) (d : Document)
    (other : NodeId) :
    (d.mapChildren f id).nodes[other]? =
      if id = other then d.nodes[other]?.map fun node => { node with children := f node.children }
      else d.nodes[other]? :=
  Array.getElem?_modify

/-- A change of content is seen at that node only. -/
theorem getElem?_setContent (content : Content) (id : NodeId) (d : Document) (other : NodeId) :
    (d.setContent content id).nodes[other]? =
      if id = other then d.nodes[other]?.map fun node => { node with content := content }
      else d.nodes[other]? :=
  Array.getElem?_modify

/-- A changed link creates no node. -/
@[simp] theorem size_setParent (parent : Option NodeId) (id : NodeId) (d : Document) :
    (d.setParent parent id).size = d.size :=
  Array.size_modify

/-- Changed links create no node. -/
@[simp] theorem size_mapChildren (f : List NodeId → List NodeId) (id : NodeId) (d : Document) :
    (d.mapChildren f id).size = d.size :=
  Array.size_modify

/-- A list without something that is not in it is the same list. -/
theorem filter_ne_of_notMem {id : NodeId} {list : List NodeId} (absent : id ∉ list) :
    list.filter (· ≠ id) = list := by
  refine List.filter_eq_self.mpr fun x listed => ?_
  simpa using ne_of_mem_of_not_mem listed absent

/-- A number goes in front of the first occurrence of another. -/
theorem putBefore_append {reference child : NodeId} {front : List NodeId}
    (first : reference ∉ front) (back : List NodeId) :
    putBefore reference child (front ++ reference :: back) =
      front ++ child :: reference :: back := by
  induction front with
  | nil => simp [putBefore]
  | cons id front ih =>
    obtain ⟨different, first⟩ := List.ne_and_not_mem_of_not_mem_cons first
    rw [List.cons_append, putBefore, if_neg (Ne.symm different), ih first]
    rfl

/-- A node without a place goes in front of another one. -/
theorem insertBefore_eq {reference child parent : NodeId} {d : Document}
    (up : d.parent? reference = some parent) (loose : d.parent? child = none) :
    d.insertBefore reference child =
      (d.setParent (some parent) child).mapChildren (putBefore reference child) parent := by
  unfold insertBefore detach
  rw [up, loose]

section Place

variable {d : Document} {tag parent : NodeId} {content own : Content} {up : Option NodeId}
  {below front back : List NodeId} {new : Forest}

/-- A node without a place goes in front of another one, and no other node changes. -/
theorem insertBefore_loose {child : NodeId} {inner : Content} {kids : List NodeId}
    (node : d.nodes[tag]? = some ⟨own, some parent, below⟩)
    (linked : d.nodes[parent]? = some ⟨content, up, front ++ tag :: back⟩)
    (loose : d.nodes[child]? = some ⟨inner, none, kids⟩) (different : child ≠ parent)
    (first : tag ∉ front) :
    (d.insertBefore tag child).nodes[child]? = some ⟨inner, some parent, kids⟩ ∧
      (d.insertBefore tag child).nodes[parent]? =
        some ⟨content, up, front ++ child :: tag :: back⟩ ∧
      (d.insertBefore tag child).size = d.size ∧
      ∀ id, id ≠ parent → id ≠ child →
        (d.insertBefore tag child).nodes[id]? = d.nodes[id]? := by
  rw [insertBefore_eq (parent?_eq node) (parent?_eq loose)]
  refine ⟨?_, ?_, by simp, ?_⟩
  · -- The child is linked upwards.
    rw [getElem?_mapChildren, if_neg (Ne.symm different), getElem?_setParent, if_pos rfl, loose]
    rfl
  · -- The node above them has both as its children.
    rw [getElem?_mapChildren, if_pos rfl, getElem?_setParent, if_neg different, linked]
    rw [Option.map_some, putBefore_append first]
  · intro id notParent notChild
    rw [getElem?_mapChildren, if_neg (Ne.symm notParent), getElem?_setParent,
      if_neg (Ne.symm notChild)]

/-- A forest without a place goes in front of a node, tree by tree. -/
theorem foldl_insertBefore (node : d.nodes[tag]? = some ⟨own, some parent, below⟩)
    (linked : d.nodes[parent]? = some ⟨content, up, front ++ tag :: back⟩)
    (stands : new.Stands d none) (distinct : new.ids.Nodup) (tagFree : tag ∉ new.ids)
    (parentFree : parent ∉ new.ids) (different : tag ≠ parent) (first : tag ∉ front) :
    new.Stands (new.tops.foldl (fun d id => d.insertBefore tag id) d) (some parent) ∧
      (new.tops.foldl (fun d id => d.insertBefore tag id) d).nodes[parent]? =
        some ⟨content, up, front ++ new.tops ++ tag :: back⟩ ∧
      (new.tops.foldl (fun d id => d.insertBefore tag id) d).size = d.size ∧
      ∀ id, id ≠ parent → id ∉ new.tops →
        (new.tops.foldl (fun d id => d.insertBefore tag id) d).nodes[id]? = d.nodes[id]? := by
  -- The first tree moves by itself, and the others move behind it by induction.
  induction new generalizing d front with
  | nil => exact ⟨trivial, by simpa [Forest.tops] using linked, rfl, fun _ _ _ => rfl⟩
  | cons id inner kids rest _ ih =>
    obtain ⟨loose, standsKids, standsRest⟩ := stands
    simp only [Forest.ids, List.mem_cons, not_or, List.mem_append] at tagFree parentFree
    obtain ⟨tagOther, tagKids, tagRest⟩ := tagFree
    obtain ⟨parentOther, parentKids, parentRest⟩ := parentFree
    simp only [Forest.ids, List.nodup_cons, List.mem_append, not_or,
      List.nodup_append] at distinct
    obtain ⟨⟨notKids, notRest⟩, _, distinctRest, apart⟩ := distinct
    obtain ⟨moved, linked', size, same⟩ :=
      insertBefore_loose node linked loose (Ne.symm parentOther) first
    have node' := (same tag different tagOther).trans node
    have linked' : (d.insertBefore tag id).nodes[parent]? =
        some ⟨content, up, (front ++ [id]) ++ tag :: back⟩ := by
      rw [linked']
      simp
    have standsRest' : rest.Stands (d.insertBefore tag id) none := by
      refine standsRest.congr fun x listed => same x ?_ ?_
      · exact ne_of_mem_of_not_mem listed parentRest
      · exact ne_of_mem_of_not_mem listed notRest
    have first' : tag ∉ front ++ [id] := by
      simp [first, tagOther]
    obtain ⟨placed, whole, size', same'⟩ :=
      ih node' linked' standsRest' distinctRest tagRest parentRest first'
    rw [Forest.tops, List.foldl_cons]
    refine ⟨⟨?_, ?_, placed⟩, ?_, size'.trans size, ?_⟩
    · exact (same' id (Ne.symm parentOther) (Forest.notMem_tops notRest)).trans moved
    · -- What is below the first tree is neither moved nor linked again.
      refine standsKids.congr fun x listed => ?_
      have notParent : x ≠ parent := ne_of_mem_of_not_mem listed parentKids
      have notFirst : x ≠ id := ne_of_mem_of_not_mem listed notKids
      rw [same' x notParent (Forest.notMem_tops fun other => apart x listed x other rfl),
        same x notParent notFirst]
    · rw [whole]
      simp
    · intro x notParent listed
      obtain ⟨notFirst, listed⟩ := List.ne_and_not_mem_of_not_mem_cons listed
      rw [same' x notParent listed, same x notParent notFirst]

/-- A node leaves its place between others, and no node besides it and the one above it changes. -/
theorem detach_between (node : d.nodes[tag]? = some ⟨own, some parent, below⟩)
    (linked : d.nodes[parent]? = some ⟨content, up, front ++ tag :: back⟩)
    (different : tag ≠ parent) (once : tag ∉ front ++ back) :
    (d.detach tag).nodes[parent]? = some ⟨content, up, front ++ back⟩ ∧
      (d.detach tag).nodes[tag]? = some ⟨own, none, below⟩ ∧
      (d.detach tag).size = d.size ∧
      ∀ id, id ≠ parent → id ≠ tag → (d.detach tag).nodes[id]? = d.nodes[id]? := by
  -- The node loses its link up, and its parent the link down to it.
  have gone : d.detach tag = (d.setParent none tag).mapChildren (·.filter (· ≠ tag)) parent := by
    unfold detach
    rw [parent?_eq node]
  -- Among the children it occurs once.
  have keep : (front ++ tag :: back).filter (· ≠ tag) = front ++ back := by
    rw [List.filter_append, List.filter_cons_of_neg (by simp), ← List.filter_append,
      filter_ne_of_notMem once]
  rw [gone]
  refine ⟨?_, ?_, by simp, fun id notParent notTag => ?_⟩
  · rw [getElem?_mapChildren, if_pos rfl, getElem?_setParent, if_neg different, linked,
      Option.map_some, keep]
  · rw [getElem?_mapChildren, if_neg (Ne.symm different), getElem?_setParent, if_pos rfl, node]
    rfl
  · rw [getElem?_mapChildren, if_neg (Ne.symm notParent), getElem?_setParent,
      if_neg (Ne.symm notTag)]

/-- A node gives way to a forest without a place, and no node besides those changes. -/
theorem replaceWith_loose (node : d.nodes[tag]? = some ⟨own, some parent, below⟩)
    (linked : d.nodes[parent]? = some ⟨content, up, front ++ tag :: back⟩)
    (stands : new.Stands d none) (distinct : new.ids.Nodup) (tagFree : tag ∉ new.ids)
    (parentFree : parent ∉ new.ids) (different : tag ≠ parent) (once : tag ∉ front ++ back) :
    new.Stands (d.replaceWith tag new.tops) (some parent) ∧
      (d.replaceWith tag new.tops).nodes[parent]? =
        some ⟨content, up, front ++ new.tops ++ back⟩ ∧
      (d.replaceWith tag new.tops).nodes[tag]? = some ⟨own, none, below⟩ ∧
      (d.replaceWith tag new.tops).size = d.size ∧
      ∀ id, id ≠ parent → id ≠ tag → id ∉ new.tops →
        (d.replaceWith tag new.tops).nodes[id]? = d.nodes[id]? := by
  rw [List.mem_append, not_or] at once
  have tagTops : tag ∉ new.tops := Forest.notMem_tops tagFree
  -- The new trees go in front of the node, which loses its place only then.
  obtain ⟨placed, whole, size, same⟩ :=
    foldl_insertBefore node linked stands distinct tagFree parentFree different once.1
  unfold replaceWith
  generalize new.tops.foldl (fun d id => d.insertBefore tag id) d = moved at placed whole size same
  have once' : tag ∉ (front ++ new.tops) ++ back := by
    simp [once.1, tagTops, once.2]
  obtain ⟨linked', gone, size', others⟩ :=
    detach_between ((same tag different tagTops).trans node) whole different once'
  refine ⟨?_, linked', gone, size'.trans size, ?_⟩
  · refine placed.congr fun id listed => others id ?_ ?_
    · exact ne_of_mem_of_not_mem listed parentFree
    · exact ne_of_mem_of_not_mem listed tagFree
  · intro id notParent notTag listed
    rw [others id notParent notTag, same id notParent listed]

end Place

end Templates.Markup.Document
