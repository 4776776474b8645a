import Templates.Proofs.Component.Bound
import Templates.Proofs.Component.Session
import Templates.Proofs.Markup.Copy
import Templates.Proofs.Markup.Outermost

/-!
Where tags give way, and what is left behind there.

A tag is attached, and copies of a fragment take its place; all other nodes stay as they are.
-/

namespace Templates.Expander

open Markup

/-- Where a forest stands while the tags in it are replaced: below an attached node, between other
children of it. -/
structure Site (d : Document) (parent : NodeId) (above front : List NodeId) (forest : Forest)
    (back : List NodeId) : Prop where
  leads : d.Leads parent above
  linked : ∃ content up, d.nodes[parent]? = some ⟨content, up, front ++ forest.tops ++ back⟩
  stands : forest.Stands d (some parent)
  distinct : forest.ids.Nodup
  apart : ∀ {id}, id ∈ parent :: above → id ∉ forest.ids
  beside : ∀ {id}, id ∈ front ++ back → id ∉ forest.ids
  enough : above.length + forest.ids.length < d.size

/-- The markup that takes the place of a tag with an answer. -/
def boundMarkup (page : Document) (tag : NodeId) (e : Element) (answer : Answer) : Text :=
  (fragmentOf page tag e.attributes answer.1.hidden answer.2).markup

/-- The same markup takes the place of a tag wherever it stands with the same trees below it. -/
theorem boundMarkup_congr {page other : Document} {parent : Option NodeId} {tag : NodeId}
    {e : Element} {below : Forest}
    (stands : (Forest.cons tag (.element e) below .nil).Stands page parent)
    (again : (Forest.cons tag (.element e) below .nil).Stands other parent)
    (distinct : (Forest.cons tag (.element e) below .nil).ids.Nodup) (answer : Answer) :
    boundMarkup other tag e answer = boundMarkup page tag e answer := by
  have alike := Alike.of_stands stands again distinct
  rw [boundMarkup, boundMarkup, fragmentOf_congr alike List.mem_cons_self]

/-- The first tag of a site is attached. -/
theorem Site.isAttached {d : Document} {parent id : NodeId} {above front back : List NodeId}
    {content : Content} {below rest : Forest}
    (site : Site d parent above front (.cons id content below rest) back) :
    d.isAttached id = true := by
  -- The way up from the tag is one step longer than that from its parent.
  have up := Document.parent?_eq site.stands.1
  have leads : d.Leads id (parent :: above) := ⟨up, site.leads⟩
  have enough := site.enough
  simp only [Forest.ids, List.length_cons] at enough
  exact leads.climbs (by simp only [List.length_cons]; omega)

/-- What has become of a document in which a tag has given way to a new forest. -/
structure Replaced (d after : Document) (parent tag : NodeId) (front back : List NodeId)
    (e : Element) (below : List NodeId) (new : Forest) : Prop where
  stands : new.Stands after (some parent)
  distinct : new.ids.Nodup
  fresh : ∀ id ∈ new.ids, d.size ≤ id
  grown : d.size ≤ after.size
  linked : ∀ {content up}, d.nodes[parent]? = some ⟨content, up, front ++ tag :: back⟩ →
    after.nodes[parent]? = some ⟨content, up, front ++ new.tops ++ back⟩
  gone : after.nodes[tag]? = some ⟨.element e, none, below⟩
  same : ∀ {id}, id < d.size → id ≠ parent → id ≠ tag → after.nodes[id]? = d.nodes[id]?

/-- A tag gives way to copies of the fragment that is bound for the answer to its call. -/
theorem Site.expandTag (expander : Expander) {d : Document} {parent tag : NodeId}
    {above front back : List NodeId} {e : Element} {below rest : Forest}
    (site : Site d parent above front (.cons tag (.element e) below rest) back) (answer : Answer) :
    ∃ (ids : List NodeId) (d' : Document) (new : Forest),
      (∀ {σ : Type} {renderer : ComponentRenderer σ} {before after : σ},
        Session.Runs (respond renderer (expander.callOf e)) before answer after →
          Session.Runs (expander.expandTag renderer tag d) before (ids, d') after) ∧
      Replaced d d' parent tag front (rest.tops ++ back) e below.tops new ∧
      writeAll new.trees = boundMarkup d tag e answer := by
  obtain ⟨content, up, linked⟩ := site.linked
  obtain ⟨node, standsBelow, standsRest⟩ := site.stands
  have old := site.stands.lt_size List.mem_cons_self
  have parentOld : parent < d.size := (Array.getElem?_eq_some_iff.mp linked).1
  have element : d.element? tag = some e := by
    rw [Document.element?, site.stands.content]
    rfl
  have different : tag ≠ parent := by
    rintro rfl
    exact site.apart List.mem_cons_self List.mem_cons_self
  have once : tag ∉ front ++ (rest.tops ++ back) := by
    intro listed
    simp only [List.mem_append] at listed
    obtain listed | listed | listed := listed
    · exact site.beside (List.mem_append_left _ listed) List.mem_cons_self
    · have first := (List.nodup_cons.mp site.distinct).1
      exact first (List.mem_append_right _ (Forest.mem_ids_of_mem_tops listed))
    · exact site.beside (List.mem_append_right _ listed) List.mem_cons_self
  -- The copies have new numbers and no place, so that they can take that of the tag.
  obtain ⟨new, tops, trees, stands, distinct, fresh, grown, same⟩ :=
    Document.importTrees_stands ((fragmentOf d tag e.attributes answer.1.hidden answer.2).tree
      Document.root).children d
  have tagFree : tag ∉ new.ids := fun listed => Nat.not_lt_of_le (fresh tag listed) old
  have parentFree : parent ∉ new.ids := fun listed =>
    Nat.not_lt_of_le (fresh parent listed) parentOld
  have linked' := (same parent parentOld).trans linked
  rw [Forest.tops, List.append_assoc, List.cons_append] at linked'
  obtain ⟨placed, whole, gone, size, others⟩ := Document.replaceWith_loose
    ((same tag old).trans node) linked' stands distinct tagFree parentFree different once
  refine ⟨new.tops, _, new, ?_, ⟨placed, distinct, fresh, ?_, ?_, gone, ?_⟩, ?_⟩
  · intro σ renderer before after answered
    obtain ⟨called, read⟩ := runs_respond.mp answered
    unfold Expander.expandTag
    rw [element]
    refine Session.runs_bind.mpr ⟨answer.1, after, called, Session.runs_bind.mpr
      ⟨answer.2, after, runs_parsing.mpr ⟨read, rfl⟩, Session.runs_pure.mpr ⟨?_, rfl⟩⟩⟩
    rw [← tops]
  · rw [size]
    exact grown
  · intro content' up' linked''
    rw [Forest.tops, List.append_assoc, List.cons_append, linked''] at linked
    cases linked
    exact whole
  · intro id early notParent notTag
    have notNew : id ∉ new.tops := fun listed =>
      Nat.not_lt_of_le (fresh id (Forest.mem_ids_of_mem_tops listed)) early
    rw [others id notParent notTag notNew, same id early]
  · rw [trees]
    rfl

section Steps

variable {d d' : Document} {parent id : NodeId}
  {above front back : List NodeId} {e : Element} {content : Content} {below rest : Forest}

/-- The nodes on the way up from a site are in the document. -/
theorem Site.lt_size (site : Site d parent above front rest back) {x : NodeId}
    (listed : x ∈ parent :: above) : x < d.size :=
  site.leads.lt_size (Nat.lt_of_le_of_lt (Nat.zero_le _) site.enough) listed

/-- A node that stays keeps the one above it. -/
theorem parent?_congr {x : NodeId} (same : d'.nodes[x]? = d.nodes[x]?) :
    d'.parent? x = d.parent? x := by
  rw [Document.parent?, Document.parent?, same]

/-- A number that is not in a forest is not that of its first node, nor below or behind it. -/
theorem not_mem_parts {x : NodeId} (outside : x ∉ (Forest.cons id content below rest).ids) :
    x ≠ id ∧ x ∉ below.ids ∧ x ∉ rest.ids := by
  simpa [Forest.ids] using outside

/-- The parts of a forest whose nodes are all different have no node in common. -/
theorem nodup_parts (distinct : (Forest.cons id content below rest).ids.Nodup) :
    id ∉ below.ids ∧ id ∉ rest.ids ∧ below.ids.Nodup ∧ rest.ids.Nodup ∧
      ∀ {x}, x ∈ below.ids → x ∉ rest.ids := by
  -- The first node comes in front of all nodes below it, and these in front of the others.
  simp only [Forest.ids, List.nodup_cons, List.mem_append, not_or, List.nodup_append] at distinct
  obtain ⟨⟨notBelow, notRest⟩, distinctBelow, distinctRest, disjoint⟩ := distinct
  exact ⟨notBelow, notRest, distinctBelow, distinctRest, fun inBelow inRest =>
    disjoint _ inBelow _ inRest rfl⟩

/-- The trees behind a tag that has given way stand beside those that took its place. -/
theorem Site.behindTag {new : Forest}
    (site : Site d parent above front (.cons id (.element e) below rest) back)
    (replaced : Replaced d d' parent id front (rest.tops ++ back) e below.tops new) :
    Site d' parent above (front ++ new.tops) rest back := by
  -- The new trees take the place of the tag in front of those behind it.
  obtain ⟨content, up, linked⟩ := site.linked
  have linked' := linked
  rw [Forest.tops, List.append_assoc, List.cons_append] at linked'
  obtain ⟨_, notRest, _, distinctRest, _⟩ := nodup_parts site.distinct
  have standsRest := site.stands.2.2
  refine ⟨site.leads.congr fun x listed => ?_, ⟨content, up, ?_⟩, ?_, distinctRest,
    fun listed => (not_mem_parts (site.apart listed)).2.2, fun {x} listed inRest => ?_, ?_⟩
  · -- The link up from the parent is not changed with those down from it.
    by_cases same : x = parent
    · rw [same, Document.parent?_eq linked, Document.parent?_eq (replaced.linked linked')]
    · exact parent?_congr (replaced.same (site.lt_size listed) same
        (not_mem_parts (site.apart listed)).1)
  · have whole := replaced.linked linked'
    rwa [← List.append_assoc] at whole
  · refine standsRest.congr fun x listed => replaced.same (standsRest.lt_size listed) ?_ ?_
    · exact ne_of_mem_of_not_mem listed (not_mem_parts (site.apart List.mem_cons_self)).2.2
    · exact ne_of_mem_of_not_mem listed notRest
  · simp only [List.mem_append] at listed
    obtain (listed | listed) | listed := listed
    · exact (not_mem_parts (site.beside (List.mem_append_left _ listed))).2.2 inRest
    · -- The numbers of the new forest are those of no old node.
      exact Nat.not_lt_of_le (replaced.fresh x (Forest.mem_ids_of_mem_tops listed))
        (standsRest.lt_size inRest)
    · exact (not_mem_parts (site.beside (List.mem_append_right _ listed))).2.2 inRest
  · have enough := site.enough
    have grown := replaced.grown
    simp only [Forest.ids, List.length_cons, List.length_append] at enough
    omega

/-- A tag that has given way stands without a place, with those below it. -/
theorem Site.gone {new : Forest}
    (site : Site d parent above front (.cons id (.element e) below rest) back)
    (replaced : Replaced d d' parent id front (rest.tops ++ back) e below.tops new) :
    (Forest.cons id (.element e) below .nil).Stands d' none := by
  -- What is below the tag has not been touched.
  obtain ⟨notBelow, _⟩ := nodup_parts site.distinct
  have standsBelow := site.stands.2.1
  refine ⟨replaced.gone, standsBelow.congr fun x listed => ?_, trivial⟩
  refine replaced.same (standsBelow.lt_size listed) ?_ ?_
  · exact ne_of_mem_of_not_mem listed (not_mem_parts (site.apart List.mem_cons_self)).2.1
  · exact ne_of_mem_of_not_mem listed notBelow

/-- Those below a node are a site of their own. -/
theorem Site.inside (site : Site d parent above front (.cons id content below rest) back) :
    Site d id (parent :: above) [] below [] := by
  -- The way up is longer by the node itself.
  obtain ⟨node, standsBelow, _⟩ := site.stands
  obtain ⟨notBelow, _, distinctBelow, _, _⟩ := nodup_parts site.distinct
  refine ⟨⟨Document.parent?_eq node, site.leads⟩, ⟨content, some parent, by simpa using node⟩,
    standsBelow, distinctBelow, fun listed => ?_, fun listed => (nomatch listed), ?_⟩
  · obtain rfl | listed := List.mem_cons.mp listed
    · exact notBelow
    · exact (not_mem_parts (site.apart listed)).2.1
  · have enough := site.enough
    simp only [Forest.ids, List.length_cons, List.length_append] at enough ⊢
    omega

end Steps

end Templates.Expander
