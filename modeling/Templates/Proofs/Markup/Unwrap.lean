import Templates.Proofs.Markup.Replace

/-! A topmost node of a document gives way to its children, or becomes something else. -/

namespace Templates.Markup.Document

section Unwrap

variable {d : Document} {tag parent : NodeId} {content own : Content} {up : Option NodeId}
  {front back : List NodeId} {kids : Forest}

/-- A child of a node goes in front of that node. -/
theorem insertBefore_child {id : NodeId} {inner : Content} {below others : List NodeId}
    (node : d.nodes[tag]? = some ⟨own, some parent, id :: others⟩)
    (linked : d.nodes[parent]? = some ⟨content, up, front ++ tag :: back⟩)
    (child : d.nodes[id]? = some ⟨inner, some tag, below⟩) (notTag : id ≠ tag)
    (notParent : id ≠ parent) (different : tag ≠ parent) (first : tag ∉ front)
    (fresh : id ∉ others) :
    (d.insertBefore tag id).nodes[id]? = some ⟨inner, some parent, below⟩ ∧
      (d.insertBefore tag id).nodes[tag]? = some ⟨own, some parent, others⟩ ∧
      (d.insertBefore tag id).nodes[parent]? =
        some ⟨content, up, front ++ id :: tag :: back⟩ ∧
      ∀ x, x ≠ parent → x ≠ tag → x ≠ id →
        (d.insertBefore tag id).nodes[x]? = d.nodes[x]? := by
  -- The child loses its old place before it gets the new one.
  have leaves : d.detach id = (d.setParent none id).mapChildren (·.filter (· ≠ id)) tag := by
    unfold detach
    rw [parent?_eq child]
  have moves : d.insertBefore tag id =
      (((d.setParent none id).mapChildren (·.filter (· ≠ id)) tag).setParent (some parent)
        id).mapChildren (putBefore tag id) parent := by
    unfold insertBefore
    rw [parent?_eq node, leaves]
  have rest : (id :: others).filter (· ≠ id) = others := by
    rw [List.filter_cons_of_neg (by simp), filter_ne_of_notMem fresh]
  rw [moves]
  refine ⟨?_, ?_, ?_, fun x outer notTag other => ?_⟩
  · rw [getElem?_mapChildren, if_neg (Ne.symm notParent), getElem?_setParent, if_pos rfl,
      getElem?_mapChildren, if_neg (Ne.symm notTag), getElem?_setParent, if_pos rfl, child]
    rfl
  · -- The node loses one of its children.
    rw [getElem?_mapChildren, if_neg (Ne.symm different), getElem?_setParent, if_neg notTag,
      getElem?_mapChildren, if_pos rfl, getElem?_setParent, if_neg notTag, node]
    rw [Option.map_some, rest]
  · -- The node above gets one more.
    rw [getElem?_mapChildren, if_pos rfl, getElem?_setParent, if_neg notParent,
      getElem?_mapChildren, if_neg different, getElem?_setParent, if_neg notParent, linked]
    rw [Option.map_some, putBefore_append first]
  · rw [getElem?_mapChildren, if_neg (Ne.symm outer), getElem?_setParent, if_neg (Ne.symm other),
      getElem?_mapChildren, if_neg (Ne.symm notTag), getElem?_setParent, if_neg (Ne.symm other)]

/-- The children of a node go in front of that node, one by one. -/
theorem foldl_insertBefore_children
    (node : d.nodes[tag]? = some ⟨own, some parent, kids.tops⟩)
    (linked : d.nodes[parent]? = some ⟨content, up, front ++ tag :: back⟩)
    (stands : kids.Stands d (some tag)) (distinct : kids.ids.Nodup) (tagFree : tag ∉ kids.ids)
    (parentFree : parent ∉ kids.ids) (different : tag ≠ parent) (first : tag ∉ front) :
    kids.Stands (kids.tops.foldl (fun d id => d.insertBefore tag id) d) (some parent) ∧
      (kids.tops.foldl (fun d id => d.insertBefore tag id) d).nodes[tag]? =
        some ⟨own, some parent, []⟩ ∧
      (kids.tops.foldl (fun d id => d.insertBefore tag id) d).nodes[parent]? =
        some ⟨content, up, front ++ kids.tops ++ tag :: back⟩ ∧
      ∀ id, id ≠ parent → id ≠ tag → id ∉ kids.tops →
        (kids.tops.foldl (fun d id => d.insertBefore tag id) d).nodes[id]? = d.nodes[id]? := by
  -- The first child moves by itself, and the others move behind it by induction.
  induction kids generalizing d front with
  | nil => exact ⟨trivial, node, by simpa [Forest.tops] using linked, fun _ _ _ _ => rfl⟩
  | cons id inner below rest _ ih =>
    obtain ⟨child, standsBelow, standsRest⟩ := stands
    simp only [Forest.ids, List.mem_cons, not_or, List.mem_append] at tagFree parentFree
    obtain ⟨tagOther, tagBelow, tagRest⟩ := tagFree
    obtain ⟨parentOther, parentBelow, parentRest⟩ := parentFree
    simp only [Forest.ids, List.nodup_cons, List.mem_append, not_or,
      List.nodup_append] at distinct
    obtain ⟨⟨notBelow, notRest⟩, _, distinctRest, apart⟩ := distinct
    rw [Forest.tops] at node
    obtain ⟨moved, node', linked', same⟩ := insertBefore_child node linked child
      (Ne.symm tagOther) (Ne.symm parentOther) different first (Forest.notMem_tops notRest)
    have linked' : (d.insertBefore tag id).nodes[parent]? =
        some ⟨content, up, (front ++ [id]) ++ tag :: back⟩ := by
      rw [linked']
      simp
    have standsRest' : rest.Stands (d.insertBefore tag id) (some tag) := by
      refine standsRest.congr fun x listed => same x ?_ ?_ ?_
      · exact ne_of_mem_of_not_mem listed parentRest
      · exact ne_of_mem_of_not_mem listed tagRest
      · exact ne_of_mem_of_not_mem listed notRest
    have first' : tag ∉ front ++ [id] := by
      simp [first, tagOther]
    obtain ⟨placed, empty, whole, same'⟩ :=
      ih node' linked' standsRest' distinctRest tagRest parentRest first'
    rw [Forest.tops, List.foldl_cons]
    refine ⟨⟨?_, ?_, placed⟩, empty, ?_, ?_⟩
    · refine (same' id ?_ ?_ (Forest.notMem_tops notRest)).trans moved
      · exact Ne.symm parentOther
      · exact Ne.symm tagOther
    · -- What is below the first child is neither moved nor linked again.
      refine standsBelow.congr fun x listed => ?_
      have notParent : x ≠ parent := ne_of_mem_of_not_mem listed parentBelow
      have notTag : x ≠ tag := ne_of_mem_of_not_mem listed tagBelow
      have notFirst : x ≠ id := ne_of_mem_of_not_mem listed notBelow
      have notTop : x ∉ rest.tops := Forest.notMem_tops fun other => apart x listed x other rfl
      rw [same' x notParent notTag notTop, same x notParent notTag notFirst]
    · rw [whole]
      simp
    · intro x notParent notTag listed
      obtain ⟨notFirst, listed⟩ := List.ne_and_not_mem_of_not_mem_cons listed
      rw [same' x notParent notTag listed, same x notParent notTag notFirst]

/-- A topmost node gives way to its children. -/
theorem Shows.unwrap {left below right : Forest}
    (shows : d.Shows (left.append (.cons tag own below right))) :
    (d.replaceWith tag (d.children tag)).Shows (left.append (below.append right)) := by
  obtain ⟨standsLeft, node, standsBelow, standsRight⟩ := Forest.stands_append.mp shows.stands
  have linked := shows.linked
  rw [Forest.tops_append, Forest.tops] at linked
  have distinct := shows.distinct
  simp only [Forest.ids_append, Forest.ids, List.nodup_cons, List.mem_append, List.mem_cons,
    not_or, List.nodup_append] at distinct
  obtain ⟨⟨rootLeft, rootTag, rootBelow, rootRight⟩, distinctLeft,
    ⟨⟨tagBelow, tagRight⟩, distinctBelow, distinctRight, belowRight⟩, leftOther⟩ := distinct
  have tagLeft : tag ∉ left.ids := fun listed => leftOther tag listed tag (.inl rfl) rfl
  have children : d.children tag = below.tops := by
    rw [Document.children, node]
  -- The children go in front of the node, which loses its place only then.
  obtain ⟨placed, empty, whole, same⟩ := foldl_insertBefore_children node linked standsBelow
    distinctBelow tagBelow rootBelow (Ne.symm rootTag) (Forest.notMem_tops tagLeft)
  rw [children]
  unfold replaceWith
  generalize below.tops.foldl (fun d id => d.insertBefore tag id) d = moved
    at placed empty whole same
  have once : tag ∉ (left.tops ++ below.tops) ++ right.tops := by
    simp [Forest.notMem_tops tagLeft, Forest.notMem_tops tagBelow, Forest.notMem_tops tagRight]
  obtain ⟨linked', _, _, others⟩ := detach_between empty whole (Ne.symm rootTag) once
  -- The trees on both sides are not touched.
  have kept {part : Forest} (stands : part.Stands d (some root)) (noRoot : root ∉ part.ids)
      (noTag : tag ∉ part.ids) (noBelow : ∀ x ∈ part.ids, x ∉ below.ids) :
      part.Stands (moved.detach tag) (some root) := by
    refine stands.congr fun x listed => ?_
    have notRoot : x ≠ root := ne_of_mem_of_not_mem listed noRoot
    have notTag : x ≠ tag := ne_of_mem_of_not_mem listed noTag
    rw [others x notRoot notTag, same x notRoot notTag (Forest.notMem_tops (noBelow x listed))]
  refine ⟨?_, ?_, ?_⟩
  · rw [linked', Forest.tops_append, Forest.tops_append, List.append_assoc]
  · refine Forest.stands_append.mpr ⟨?_, Forest.stands_append.mpr ⟨?_, ?_⟩⟩
    · exact kept standsLeft rootLeft tagLeft fun x listed within =>
        leftOther x listed x (.inr (.inl within)) rfl
    · exact placed.congr fun x listed => others x (ne_of_mem_of_not_mem listed rootBelow)
        (ne_of_mem_of_not_mem listed tagBelow)
    · exact kept standsRight rootRight tagRight fun x listed within =>
        belowRight x within x listed rfl
  · -- The same nodes are listed without the one that has left.
    refine shows.distinct.sublist (List.cons_sublist_cons.mpr ?_)
    rw [Forest.ids_append, Forest.ids_append, Forest.ids_append, Forest.ids]
    exact (List.Sublist.refl left.ids).append (List.sublist_cons_self tag _)

/-- A topmost node becomes something else. -/
theorem Shows.setContent {left below right : Forest}
    (shows : d.Shows (left.append (.cons tag own below right))) (other : Content) :
    (d.setContent other tag).Shows (left.append (.cons tag other below right)) := by
  obtain ⟨standsLeft, node, standsBelow, standsRight⟩ := Forest.stands_append.mp shows.stands
  have distinct := shows.distinct
  simp only [Forest.ids_append, Forest.ids, List.nodup_cons, List.mem_append, List.mem_cons,
    not_or, List.nodup_append] at distinct
  obtain ⟨⟨_, rootTag, _, _⟩, _, ⟨⟨tagBelow, tagRight⟩, _⟩, leftOther⟩ := distinct
  have kept {part : Forest} {parent : Option NodeId} (stands : part.Stands d parent)
      (absent : tag ∉ part.ids) : part.Stands (d.setContent other tag) parent := by
    refine stands.congr fun x listed => ?_
    rw [getElem?_setContent, if_neg (Ne.symm (ne_of_mem_of_not_mem listed absent))]
  refine ⟨?_, Forest.stands_append.mpr ⟨kept standsLeft fun listed =>
    leftOther tag listed tag (.inl rfl) rfl, ?_, kept standsBelow tagBelow,
    kept standsRight tagRight⟩, ?_⟩
  · rw [getElem?_setContent, if_neg (Ne.symm rootTag), shows.linked, Forest.tops_append,
      Forest.tops_append]
    rfl
  · rw [getElem?_setContent, if_pos rfl, node]
    rfl
  · have same := shows.distinct
    rw [Forest.ids_append, Forest.ids] at same ⊢
    exact same

end Unwrap

/-- The trees of the topmost nodes are those of the forest. -/
theorem Shows.map_children {d : Document} {forest : Forest} (shows : d.Shows forest) :
    (d.children root).map d.tree = forest.trees := by
  rw [shows.children]
  exact shows.stands.treeTo (Nat.le_of_lt shows.length_lt)

end Templates.Markup.Document
