import Templates.Proofs.Markup.Links

/-!
Trees without a place go behind everything else below a node.

Main statement: the forest that is shown has got them there, and nothing else in it has changed.
-/

namespace Templates.Markup

namespace Forest

/-- A forest goes behind everything else below a node. -/
def extend (parent : NodeId) : Forest → Forest → Forest
  | nil, _ => nil
  | cons id content below rest, new =>
    if id = parent then cons id content (below.append new) rest
    else cons id content (below.extend parent new) (rest.extend parent new)

/-- A forest goes behind everything else below a node, which may be the root. -/
def extendAt (parent : NodeId) (forest new : Forest) : Forest :=
  if parent = Document.root then forest.append new else forest.extend parent new

variable {parent : NodeId} {new forest : Forest}

/-- No topmost node is added below another one. -/
theorem tops_extend (parent : NodeId) (new forest : Forest) :
    (forest.extend parent new).tops = forest.tops := by
  induction forest with
  | nil => rfl
  | cons id content below rest _ ih =>
    rw [extend]
    split
    · rfl
    · rw [tops, tops, ih]

/-- Nothing is added below a node that is not there. -/
theorem extend_of_notMem (absent : parent ∉ forest.ids) : forest.extend parent new = forest := by
  induction forest with
  | nil => rfl
  | cons id content below rest ihBelow ihRest =>
    simp only [ids, List.mem_cons, List.mem_append, not_or] at absent
    obtain ⟨other, notBelow, notRest⟩ := absent
    rw [extend, if_neg (Ne.symm other), ihBelow notBelow, ihRest notRest]

/-- The new nodes join the old ones. -/
theorem perm_ids_extend (there : parent ∈ forest.ids) (distinct : forest.ids.Nodup) :
    (forest.extend parent new).ids.Perm (forest.ids ++ new.ids) := by
  induction forest with
  | nil => cases there
  | cons id content below rest ihBelow ihRest =>
    obtain ⟨notInside, inside⟩ := List.nodup_cons.mp distinct
    obtain ⟨distinctBelow, distinctRest, apart⟩ := List.nodup_append.mp inside
    rw [extend]
    split
    · -- The new forest stands between what was below the node and what is behind it.
      rw [List.perm_iff_count]
      intro x
      simp only [ids, ids_append, List.count_cons, List.count_append, List.cons_append]
      omega
    · next other =>
      obtain rfl | there := List.mem_cons.mp there
      · exact absurd rfl other
      rw [List.perm_iff_count]
      intro x
      obtain within | within := List.mem_append.mp there
      · have counted := List.perm_iff_count.mp (ihBelow within distinctBelow) x
        have notRest : parent ∉ rest.ids := fun listed => apart parent within parent listed rfl
        rw [extend_of_notMem notRest]
        simp only [ids, List.count_cons, List.count_append, List.cons_append] at counted ⊢
        omega
      · have counted := List.perm_iff_count.mp (ihRest within distinctRest) x
        have notBelow : parent ∉ below.ids := fun listed => apart parent listed parent within rfl
        rw [extend_of_notMem notBelow]
        simp only [ids, List.count_cons, List.count_append, List.cons_append] at counted ⊢
        omega

end Forest

namespace Document

/-- A forest without a place has got one behind everything else below a node. -/
structure Appends (d after : Document) (parent : NodeId) (new : Forest) : Prop where
  linked : after.nodes[parent]? =
    d.nodes[parent]?.map fun node => { node with children := node.children ++ new.tops }
  stands : new.Stands after (some parent)
  same : ∀ id, id ≠ parent → id ∉ new.tops → after.nodes[id]? = d.nodes[id]?

/-- A node without a place gets one. -/
theorem append_loose {d : Document} {parent child : NodeId} {own : Content} {below : List NodeId}
    (node : d.nodes[child]? = some ⟨own, none, below⟩) (other : parent ≠ child) :
    (d.append parent child).nodes[child]? = some ⟨own, some parent, below⟩ ∧
      (d.append parent child).nodes[parent]? =
        d.nodes[parent]?.map (fun node => { node with children := node.children ++ [child] }) ∧
      ∀ id, id ≠ parent → id ≠ child → (d.append parent child).nodes[id]? = d.nodes[id]? := by
  have free : d.detach child = d := by
    rw [detach, parent?_eq node]
  rw [append, free]
  refine ⟨?_, ?_, fun id notParent notChild => ?_⟩
  · rw [getElem?_mapChildren, if_neg other, getElem?_setParent, if_pos rfl, node]
    rfl
  · rw [getElem?_mapChildren, if_pos rfl, getElem?_setParent, if_neg (Ne.symm other)]
  · rw [getElem?_mapChildren, if_neg (Ne.symm notParent), getElem?_setParent,
      if_neg (Ne.symm notChild)]

/-- Trees get their places one by one, each behind those before it. -/
theorem foldl_append {d : Document} {parent : NodeId} {new : Forest} (waits : new.Stands d none)
    (distinct : new.ids.Nodup) (other : parent ∉ new.ids) :
    d.Appends (new.tops.foldl (fun d id => d.append parent id) d) parent new := by
  induction new generalizing d with
  | nil =>
    refine ⟨?_, trivial, fun _ _ _ => rfl⟩
    simp [Forest.tops]
  | cons id content below rest _ ih =>
    obtain ⟨node, standsBelow, standsRest⟩ := waits
    simp only [Forest.ids, List.mem_cons, List.mem_append, not_or] at other
    obtain ⟨notFirst, notBelow, notRest⟩ := other
    simp only [Forest.ids, List.nodup_cons, List.mem_append, not_or, List.nodup_append] at distinct
    obtain ⟨⟨firstBelow, firstRest⟩, _, distinctRest, apart⟩ := distinct
    obtain ⟨placed, linked, same⟩ := append_loose node notFirst
    -- The trees behind the first one still wait when that has got its place.
    have waitsRest : rest.Stands (d.append parent id) none := standsRest.congr fun x listed =>
      same x (ne_of_mem_of_not_mem listed notRest) (ne_of_mem_of_not_mem listed firstRest)
    have last := ih waitsRest distinctRest notRest
    rw [Forest.tops, List.foldl_cons]
    refine ⟨?_, ⟨?_, ?_, last.stands⟩, fun x notParent listed => ?_⟩
    · rw [last.linked, linked, Option.map_map]
      congr 1
      funext node
      simp [Function.comp, Forest.tops]
    · rw [last.same id (Ne.symm notFirst) (Forest.notMem_tops firstRest), placed]
    · refine standsBelow.congr fun x listed => ?_
      have notParent : x ≠ parent := ne_of_mem_of_not_mem listed notBelow
      have notFirst : x ≠ id := ne_of_mem_of_not_mem listed firstBelow
      have notTop : x ∉ rest.tops := Forest.notMem_tops fun late => apart x listed x late rfl
      rw [last.same x notParent notTop, same x notParent notFirst]
    · obtain ⟨notFirst, notTop⟩ := List.ne_and_not_mem_of_not_mem_cons listed
      rw [last.same x notParent notTop, same x notParent notFirst]

/-- A standing forest is extended where the new one gets its place. -/
theorem Appends.extend {d after : Document} {parent : NodeId} {new forest : Forest}
    {up : Option NodeId} (appends : d.Appends after parent new) (stands : forest.Stands d up)
    (distinct : forest.ids.Nodup) (apart : ∀ id ∈ forest.ids, id ∉ new.tops) :
    (forest.extend parent new).Stands after up := by
  induction forest generalizing up with
  | nil => trivial
  | cons id content below rest ihBelow ihRest =>
    obtain ⟨node, standsBelow, standsRest⟩ := stands
    obtain ⟨first, inside⟩ := List.nodup_cons.mp distinct
    obtain ⟨distinctBelow, distinctRest, _⟩ := List.nodup_append.mp inside
    have apartInside (x : NodeId) (listed : x ∈ below.ids ++ rest.ids) : x ∉ new.tops :=
      apart x (List.mem_cons_of_mem _ listed)
    rw [Forest.extend]
    split
    · next same =>
      subst same
      -- What was below the node and behind it is not touched.
      have kept {part : Forest} {above : Option NodeId} (stands : part.Stands d above)
          (within : part.ids ⊆ below.ids ++ rest.ids) : part.Stands after above :=
        stands.congr fun x listed => appends.same x
          (ne_of_mem_of_not_mem (within listed) first) (apartInside x (within listed))
      refine ⟨?_, Forest.stands_append.mpr ⟨kept standsBelow (List.subset_append_left _ _),
        appends.stands⟩, kept standsRest (List.subset_append_right _ _)⟩
      rw [appends.linked, node, Forest.tops_append]
      rfl
    · next other =>
      refine ⟨?_,
        ihBelow standsBelow distinctBelow fun x listed =>
          apartInside x (List.mem_append_left _ listed),
        ihRest standsRest distinctRest fun x listed =>
          apartInside x (List.mem_append_right _ listed)⟩
      rw [appends.same id other (apart id List.mem_cons_self), node, Forest.tops_extend]

/-- All that waits for a place gets one below a node, behind everything else there. -/
theorem Parts.append {d : Document} {parent : NodeId} {shown new : Forest}
    (parts : d.Parts shown new .nil) (there : parent ∈ root :: shown.ids) :
    (new.tops.foldl (fun d id => d.append parent id) d).Shows (shown.extendAt parent new) ∧
      new.Stands (new.tops.foldl (fun d id => d.append parent id) d) (some parent) := by
  -- The root is the one tree whose nodes are all that is shown.
  let whole := Forest.cons root .fragment shown .nil
  have stands : whole.Stands d none := parts.shows.whole
  have listed : whole.ids = root :: shown.ids := by simp [whole, Forest.ids]
  have distinct : (whole.ids ++ new.ids).Nodup := by
    simpa [listed, Forest.ids] using parts.distinct
  obtain ⟨distinctWhole, distinctNew, apart⟩ := List.nodup_append.mp distinct
  have other : parent ∉ new.ids := fun within => apart parent (listed ▸ there) parent within rfl
  have appends := foldl_append parts.waits distinctNew other
  have extended := appends.extend stands distinctWhole fun x within =>
    Forest.notMem_tops fun new => apart x within x new rfl
  have inside : parent ∈ whole.ids := listed ▸ there
  have perm : (whole.extend parent new).ids.Perm (whole.ids ++ new.ids) :=
    Forest.perm_ids_extend inside distinctWhole
  have once := perm.symm.nodup distinct
  refine ⟨?_, appends.stands⟩
  rw [Forest.extendAt]
  rw [Forest.extend] at extended once
  by_cases top : parent = root
  · rw [if_pos top]
    rw [if_pos top.symm] at extended once
    exact ⟨extended.1, extended.2.1, by simpa [Forest.ids] using once⟩
  · rw [if_neg top]
    rw [if_neg (Ne.symm top)] at extended once
    exact ⟨extended.1, extended.2.1, by simpa [Forest.extend, Forest.ids] using once⟩

end Document

end Templates.Markup
