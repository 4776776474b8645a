import Templates.Proofs.Component.Site

/-!
What a document looks like when the tags of a forest in it have been replaced.

This is put together from what has become of the first tree and of those behind it.
-/

namespace Templates

open Markup

namespace Expander

/-- What has become of a document in which the tags of a forest have been replaced: a new forest
has the place of the old one, and all other nodes are as they were. -/
structure Expanded (expander : Expander) (page : Document) (answers : List Answer)
    (d after : Document) (parent : NodeId) (front : List NodeId) (forest : Forest)
    (back : List NodeId) (new : Forest) : Prop where
  stands : new.Stands after (some parent)
  linked : ∀ {content up}, d.nodes[parent]? = some ⟨content, up, front ++ forest.tops ++ back⟩ →
    after.nodes[parent]? = some ⟨content, up, front ++ new.tops ++ back⟩
  same : ∀ {id}, id < d.size → id ≠ parent → id ∉ forest.ids → after.nodes[id]? = d.nodes[id]?
  grown : d.size ≤ after.size
  fresh : ∀ {id}, id ∈ new.ids → id ∈ forest.ids ∨ d.size ≤ id
  distinct : new.ids.Nodup
  empty : forest = .nil → new = .nil
  written : ∀ {f : NodeId → Text},
    (∀ tag e answer, ((tag, e), answer) ∈ (forest.outermost expander.isCustom).zip answers →
      f tag = boundMarkup page tag e answer) →
    writeAll new.trees = Text.replaceHits f (forest.pieces expander.isCustom)

namespace Expanded

variable {expander : Expander} {page d d' after : Document} {parent id : NodeId}
  {above front back : List NodeId} {content : Content} {forest below rest new first others : Forest}
  {answers early late : List Answer}

/-- Nothing has become of no trees. -/
theorem nil (d : Document) (parent : NodeId) (front back : List NodeId) :
    Expanded expander page [] d d parent front .nil back .nil where
  stands := trivial
  linked old := old
  same _ _ _ := rfl
  grown := Nat.le_refl _
  fresh listed := .inl listed
  distinct := List.nodup_nil
  empty same := same
  written _ := rfl

/-- An old node from outside is not in the new forest. -/
theorem outside (expanded : Expanded expander page answers d after parent front forest back new)
    {x : NodeId} (old : x < d.size) (other : x ∉ forest.ids) : x ∉ new.ids := by
  -- A node of the new forest is an old one of its place, or has a new number.
  intro listed
  obtain within | late := expanded.fresh listed
  · exact other within
  · exact Nat.not_lt_of_le late old

/-- The new forest has no node of another old one. -/
theorem disjoint (expanded : Expanded expander page answers d after parent front forest back new)
    {other : Forest} {up : Option NodeId} (stands : other.Stands d up)
    (apart : ∀ {x}, x ∈ other.ids → x ∉ forest.ids) {x : NodeId} (listed : x ∈ new.ids) :
    x ∉ other.ids :=
  fun within => expanded.outside (stands.lt_size within) (apart within) listed

/-- The trees behind a node stand beside it when the tags below it have been replaced. -/
theorem behindNode (site : Site d parent above front (.cons id content below rest) back)
    (expanded : Expanded expander page answers d d' id [] below [] new) :
    Site d' parent above (front ++ [id]) rest back := by
  -- Nothing around the node has changed, so that all around it stands as before.
  obtain ⟨outer, up, linked⟩ := site.linked
  obtain ⟨_, notRest, _, distinctRest, disjoint⟩ := nodup_parts site.distinct
  have standsRest := site.stands.2.2
  have kept {x : NodeId} (listed : x ∈ parent :: above) : d'.nodes[x]? = d.nodes[x]? := by
    obtain ⟨other, notBelow, _⟩ := not_mem_parts (site.apart listed)
    exact expanded.same (site.lt_size listed) other notBelow
  refine ⟨site.leads.congr fun x listed => parent?_congr (kept listed), ⟨outer, up, ?_⟩, ?_,
    distinctRest, fun listed => (not_mem_parts (site.apart listed)).2.2, fun listed => ?_, ?_⟩
  · rw [kept List.mem_cons_self, linked, Forest.tops]
    simp
  · refine standsRest.congr fun x listed => expanded.same (standsRest.lt_size listed) ?_ ?_
    · exact ne_of_mem_of_not_mem listed notRest
    · exact fun inBelow => disjoint inBelow listed
  · simp only [List.mem_append, List.mem_singleton] at listed
    obtain (listed | rfl) | listed := listed
    · exact (not_mem_parts (site.beside (List.mem_append_left _ listed))).2.2
    · exact notRest
    · exact (not_mem_parts (site.beside (List.mem_append_right _ listed))).2.2
  · have enough := site.enough
    have grown := expanded.grown
    simp only [Forest.ids, List.length_cons, List.length_append] at enough
    omega

/-- A tag has given way, and then the trees behind it have been expanded. -/
theorem tag {e : Element} {answer : Answer}
    (site : Site d parent above front (.cons id (.element e) below rest) back)
    (custom : expander.isCustom e = true)
    (replaced : Replaced d d' parent id front (rest.tops ++ back) e below.tops first)
    (bound : writeAll first.trees = boundMarkup page id e answer)
    (behind : Expanded expander page late d' after parent (front ++ first.tops) rest back others) :
    Expanded expander page (answer :: late) d after parent front
      (.cons id (.element e) below rest) back (first.append others) where
  stands := by
    -- The new trees are not those behind them, so that they stay when these are expanded.
    refine Forest.stands_append.mpr ⟨replaced.stands.congr fun x listed => ?_, behind.stands⟩
    have late := replaced.fresh x listed
    refine behind.same (replaced.stands.lt_size listed) ?_ fun within => ?_
    · rintro rfl
      exact Nat.not_lt_of_le late (site.lt_size List.mem_cons_self)
    · exact Nat.not_lt_of_le late (site.stands.2.2.lt_size within)
  linked old := by
    rw [Forest.tops, List.append_assoc, List.cons_append] at old
    have between := replaced.linked old
    rw [← List.append_assoc] at between
    have whole := behind.linked between
    rwa [Forest.tops_append, ← List.append_assoc]
  same early other outside := by
    -- All other nodes stay in both steps.
    obtain ⟨notTag, _, notRest⟩ := not_mem_parts outside
    rw [behind.same (Nat.lt_of_lt_of_le early replaced.grown) other notRest,
      replaced.same early other notTag]
  grown := Nat.le_trans replaced.grown behind.grown
  fresh listed := by
    rw [Forest.ids_append, List.mem_append] at listed
    obtain listed | listed := listed
    · exact .inr (replaced.fresh _ listed)
    · obtain within | late := behind.fresh listed
      · exact .inl (List.mem_cons_of_mem _ (List.mem_append_right _ within))
      · exact .inr (Nat.le_trans replaced.grown late)
  distinct := by
    rw [Forest.ids_append, List.nodup_append]
    refine ⟨replaced.distinct, behind.distinct, ?_⟩
    rintro x inFirst _ inOthers rfl
    refine behind.outside (replaced.stands.lt_size inFirst) (fun within => ?_) inOthers
    exact Nat.not_lt_of_le (replaced.fresh x inFirst) (site.stands.2.2.lt_size within)
  empty same := nomatch same
  written {f} assigned := by
    have chosen : (Content.element e).chosen? expander.isCustom = some e := by
      simp [Content.chosen?, Content.element?, custom]
    rw [Forest.outermost, chosen] at assigned
    have here : f id = boundMarkup page id e answer := assigned id e answer List.mem_cons_self
    have later := behind.written fun tag e answer listed =>
      assigned tag e answer (List.mem_cons_of_mem _ listed)
    -- The markup of the tag is a single hit.
    have hit : Text.replaceHits f (nodePieces expander.isCustom id (.element e)
        below.tops.isEmpty (below.pieces expander.isCustom)) = f id := by
      rw [nodePieces, if_pos custom]
      simp [Text.replaceHits]
    rw [Forest.trees_append, writeAll_append, Forest.pieces, Text.replaceHits_append, hit, here,
      bound, later]

/-- The tags below a node have been replaced, and then those behind it. -/
theorem node (site : Site d parent above front (.cons id content below rest) back)
    (other : content.chosen? expander.isCustom = none)
    (childless : (Forest.cons id content below rest).Childless)
    (count : early.length = (below.outermost expander.isCustom).length)
    (inner : Expanded expander page early d d' id [] below [] first)
    (behind : Expanded expander page late d' after parent (front ++ [id]) rest back others) :
    Expanded expander page (early ++ late) d after parent front (.cons id content below rest) back
      (.cons id content first others) where
  stands := by
    obtain ⟨notBelow, notRest, _, _, disjoint⟩ := nodup_parts site.distinct
    obtain ⟨node, _, standsRest⟩ := site.stands
    have old := site.stands.lt_size List.mem_cons_self
    have different : id ≠ parent := by
      rintro rfl
      exact site.apart List.mem_cons_self List.mem_cons_self
    refine ⟨?_, inner.stands.congr fun x listed => ?_, behind.stands⟩
    · -- The node itself stays, but has new children.
      rw [behind.same (Nat.lt_of_lt_of_le old inner.grown) different notRest]
      simpa using inner.linked (by simpa using node)
    · refine behind.same (inner.stands.lt_size listed) ?_ ?_
      · rintro rfl
        refine inner.outside (site.lt_size List.mem_cons_self) ?_ listed
        exact (not_mem_parts (site.apart List.mem_cons_self)).2.1
      · exact inner.disjoint standsRest (fun inRest inBelow => disjoint inBelow inRest) listed
  linked old := by
    -- The parent is not among the nodes that were changed first.
    obtain ⟨notNode, notBelow, _⟩ := not_mem_parts (site.apart List.mem_cons_self)
    have between := inner.same (site.lt_size List.mem_cons_self) notNode notBelow
    rw [old, Forest.tops] at between
    have whole := behind.linked (by simpa using between)
    simpa [Forest.tops] using whole
  same early other outside := by
    obtain ⟨notNode, notBelow, notRest⟩ := not_mem_parts outside
    rw [behind.same (Nat.lt_of_lt_of_le early inner.grown) other notRest,
      inner.same early notNode notBelow]
  grown := Nat.le_trans inner.grown behind.grown
  fresh listed := by
    obtain rfl | listed := List.mem_cons.mp listed
    · exact .inl List.mem_cons_self
    obtain listed | listed := List.mem_append.mp listed
    · obtain within | late := inner.fresh listed
      · exact .inl (List.mem_cons_of_mem _ (List.mem_append_left _ within))
      · exact .inr late
    · obtain within | late := behind.fresh listed
      · exact .inl (List.mem_cons_of_mem _ (List.mem_append_right _ within))
      · exact .inr (Nat.le_trans inner.grown late)
  distinct := by
    obtain ⟨notBelow, notRest, _, _, disjoint⟩ := nodup_parts site.distinct
    have old := site.stands.lt_size List.mem_cons_self
    have standsRest := site.stands.2.2
    rw [Forest.ids, List.nodup_cons, List.mem_append, not_or, List.nodup_append]
    refine ⟨⟨inner.outside old notBelow,
      behind.outside (Nat.lt_of_lt_of_le old inner.grown) notRest⟩,
      inner.distinct, behind.distinct, ?_⟩
    rintro x inFirst _ inOthers rfl
    refine behind.outside (inner.stands.lt_size inFirst) ?_ inOthers
    exact inner.disjoint standsRest (fun inRest inBelow => disjoint inBelow inRest) inFirst
  empty same := nomatch same
  written {f} assigned := by
    rw [Forest.outermost, other, List.zip_append count.symm] at assigned
    have writtenFirst := inner.written fun tag e answer listed =>
      assigned tag e answer (List.mem_append_left _ listed)
    have writtenOthers := behind.written fun tag e answer listed =>
      assigned tag e answer (List.mem_append_right _ listed)
    have here : Text.replaceHits f (nodePieces expander.isCustom id content below.tops.isEmpty
        (below.pieces expander.isCustom)) = write (.node content first.trees) := by
      refine replaceHits_nodePieces other writtenFirst fun e own short => ?_
      -- A void or self-closing element had nothing below it, and still has not.
      have nothing := childless.1 e own short
      rw [inner.empty nothing, nothing]
      rfl
    rw [Forest.trees, writeAll, Forest.pieces, Text.replaceHits_append, here, writtenOthers]

end Expanded

end Expander

end Templates
