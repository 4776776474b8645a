import Templates.Proofs.Component.Presented
import Templates.Proofs.Markup.Attributes
import Templates.Proofs.Markup.Links

/-!
The attributes of a calling tag go to the markup of its component.

Main statement: they go to the element that stands alone at the top, or alone in a template that
does, where each is looked up as the last one of its name that is not hidden. No other node changes,
and no node but a lone template loses its place.
-/

namespace Templates

open Markup

namespace Markup.Document

/-- Documents with the same nodes are the same. -/
theorem eq_of_nodes {d other : Document} (same : ∀ id : NodeId, d.nodes[id]? = other.nodes[id]?) :
    d = other :=
  congrArg Document.mk (Array.ext_getElem? same)

/-- An element is a node of the document. -/
theorem lt_size_of_element? {d : Document} {id : NodeId} {e : Element}
    (element : d.element? id = some e) : id < d.size := by
  cases there : d.nodes[id]? with
  | none => simp [Document.element?, content, there, Content.element?] at element
  | some node => exact (Array.getElem?_eq_some_iff.mp there).1

/-- A changed content is that of one node. -/
theorem content_setContent {d : Document} {id : NodeId} (there : id < d.size) (own : Content)
    (x : NodeId) : (d.setContent own id).content x = if x = id then own else d.content x := by
  rw [content, content, getElem?_setContent]
  by_cases same : id = x
  · subst same
    rw [if_pos rfl, if_pos rfl, Array.getElem?_eq_getElem there]
    rfl
  · rw [if_neg same, if_neg (Ne.symm same)]

/-- A node that becomes what it is stays as it is. -/
theorem setContent_self (d : Document) (id : NodeId) : d.setContent (d.content id) id = d := by
  refine eq_of_nodes fun x => ?_
  rw [getElem?_setContent]
  split
  · next same =>
    subst same
    cases there : d.nodes[id]? with
    | none => rfl
    | some node => simp [content, there]
  · rfl

/-- What a node becomes at last is all that counts. -/
theorem setContent_setContent (d : Document) (id : NodeId) (first second : Content) :
    (d.setContent first id).setContent second id = d.setContent second id := by
  refine eq_of_nodes fun x => ?_
  simp only [getElem?_setContent]
  split
  · cases d.nodes[x]? <;> rfl
  · rfl

end Markup.Document

namespace Slot

/-- A template that stands alone at the top. -/
def isWrapper (fragment : Document) (id : NodeId) : Bool :=
  fragment.meaningfulChildren Document.root = [id] && fragment.isNamed "template" id

/-- The element that the attributes of a calling tag go to. -/
inductive IsTarget (fragment : Document) (id : NodeId) : Prop where
  | alone (lone : fragment.meaningfulChildren Document.root = [id])
      (other : fragment.isNamed "template" id = false) (element : (fragment.element? id).isSome)
  | wrapped {wrapper : NodeId} (template : isWrapper fragment wrapper = true)
      (lone : fragment.meaningfulChildren wrapper = [id]) (element : (fragment.element? id).isSome)

/-- The attributes that are not hidden. -/
def visible (attributes : List Attribute) (hidden : List Text) : List Attribute :=
  attributes.filter fun a => !(hidden.any fun name => Text.sameName name a.name)

/-- The fragment whose attributes are set, before the children of the tag come in. -/
def transferred (attributes : List Attribute) (hidden : List Text) (fragment : Document) :
    Document :=
  match (attributeTarget fragment).1 with
  | some target => copyAttributes target attributes hidden (attributeTarget fragment).2
  | none => (attributeTarget fragment).2

variable {fragment : Document}

/-- A template is a wrapper if it stands alone. -/
theorem isWrapper_iff {id : NodeId} :
    isWrapper fragment id = true ↔
      fragment.meaningfulChildren Document.root = [id] ∧ fragment.isNamed "template" id = true := by
  rw [isWrapper, Bool.and_eq_true, decide_eq_true_eq]

/-- Either a wrapper gives way to its children, or there is none and nothing moves. -/
theorem attributeTarget_cases (fragment : Document) :
    (∃ wrapper, isWrapper fragment wrapper = true ∧ (attributeTarget fragment).2 =
        fragment.replaceWith wrapper (fragment.children wrapper)) ∨
      (∀ id, isWrapper fragment id = false) ∧ (attributeTarget fragment).2 = fragment := by
  unfold attributeTarget
  split
  · next only lone =>
    split
    · next template =>
      refine .inl ⟨only, isWrapper_iff.mpr ⟨lone, template⟩, ?_⟩
      dsimp only
      split <;> rfl
    · next other =>
      refine .inr ⟨fun id => Bool.eq_false_iff.mpr fun wrapper => other ?_, rfl⟩
      -- The only node at the top is no template.
      obtain ⟨alone, template⟩ := isWrapper_iff.mp wrapper
      obtain rfl : only = id := by simpa [lone] using alone
      exact template
  · next several =>
    refine .inr ⟨fun id => Bool.eq_false_iff.mpr fun wrapper => ?_, rfl⟩
    exact several id (isWrapper_iff.mp wrapper).1

/-- Looking for the target changes no content. -/
theorem relinked_attributeTarget (fragment : Document) :
    fragment.Relinked (attributeTarget fragment).2 := by
  obtain ⟨wrapper, _, unwrapped⟩ | ⟨_, same⟩ := attributeTarget_cases fragment
  · rw [unwrapped]
    exact Document.Relinked.replaceWith _ _ fragment
  · rw [same]
    exact Document.Relinked.refl fragment

/-- The target that is found is the element that the attributes go to. -/
theorem attributeTarget_eq_some_iff {id : NodeId} :
    (attributeTarget fragment).1 = some id ↔ IsTarget fragment id := by
  -- A node is an element after a template has given way exactly if it was one before.
  have element (wrapper single : NodeId) :
      (fragment.replaceWith wrapper (fragment.children wrapper)).element? single =
        fragment.element? single := by
    rw [Document.element?, (Document.Relinked.replaceWith wrapper _ fragment).content]
    rfl
  constructor
  · intro found
    unfold attributeTarget at found
    split at found
    · next only lone =>
      split at found
      · next template =>
        dsimp only at found
        split at found
        · next single inner =>
          obtain ⟨isElement, same⟩ := Option.ite_none_right_eq_some.mp found
          obtain rfl := Option.some.inj same
          rw [element] at isElement
          exact .wrapped (isWrapper_iff.mpr ⟨lone, template⟩) inner isElement
        · cases found
      · next other =>
        obtain ⟨isElement, same⟩ := Option.ite_none_right_eq_some.mp found
        obtain rfl := Option.some.inj same
        exact .alone lone (Bool.eq_false_iff.mpr other) isElement
    · cases found
  · rintro (⟨lone, other, isElement⟩ | ⟨template, inner, isElement⟩)
    · rw [attributeTarget, lone]
      dsimp only
      rw [if_neg (Bool.eq_false_iff.mp other), if_pos isElement]
    · obtain ⟨lone, named⟩ := isWrapper_iff.mp template
      rw [attributeTarget, lone]
      dsimp only
      rw [if_pos named, inner]
      dsimp only
      rw [element, if_pos isElement]

/-- Setting attributes changes nothing but the element they are set on. -/
theorem copyAttributes_eq {target : NodeId} {e : Element}
    (element : fragment.element? target = some e) (attributes : List Attribute)
    (hidden : List Text) :
    copyAttributes target attributes hidden fragment =
      fragment.setContent (.element (e.setAttributes (visible attributes hidden))) target := by
  -- The attributes are set one by one, each on the element with those before it.
  induction attributes generalizing fragment e with
  | nil =>
    have own : fragment.content target = .element e := Document.content_of_element? element
    exact (own ▸ fragment.setContent_self target).symm
  | cons a rest ih =>
    rw [copyAttributes, List.foldl_cons, ← copyAttributes, visible, List.filter_cons]
    split
    · next isHidden =>
      rw [if_neg (by simp [isHidden])]
      exact ih element
    · next shown =>
      have set : fragment.setAttribute a target =
          fragment.setContent (.element (e.setAttribute a)) target := by
        rw [Document.setAttribute, Document.mapElement, element]
      have there : (fragment.setContent (.element (e.setAttribute a)) target).element? target =
          some (e.setAttribute a) := by
        rw [Document.element?,
          Document.content_setContent (Document.lt_size_of_element? element), if_pos rfl]
        rfl
      rw [if_pos (by simp [shown]), set, ih there, Document.setContent_setContent]
      rfl

/-- Attributes go to one element at most. -/
theorem IsTarget.unique {first second : NodeId} (one : IsTarget fragment first)
    (other : IsTarget fragment second) : first = second := by
  rw [← attributeTarget_eq_some_iff] at one other
  exact Option.some.inj (one.symm.trans other)

/-- Either one element gets attributes once the wrapper is away, or none does. -/
theorem transferred_cases (attributes : List Attribute) (hidden : List Text)
    (fragment : Document) :
    (∃ target e, IsTarget fragment target ∧ fragment.element? target = some e ∧
        target < (attributeTarget fragment).2.size ∧
        transferred attributes hidden fragment = (attributeTarget fragment).2.setContent
          (.element (e.setAttributes (visible attributes hidden))) target) ∨
      (∀ id, ¬ IsTarget fragment id) ∧
        transferred attributes hidden fragment = (attributeTarget fragment).2 := by
  unfold transferred
  cases found : (attributeTarget fragment).1 with
  | none =>
    refine .inr ⟨fun id target => ?_, rfl⟩
    rw [← attributeTarget_eq_some_iff, found] at target
    cases target
  | some target =>
    have isTarget : IsTarget fragment target := attributeTarget_eq_some_iff.mp found
    obtain ⟨e, element⟩ : ∃ e, fragment.element? target = some e :=
      Option.isSome_iff_exists.mp (by cases isTarget <;> assumption)
    have there : (attributeTarget fragment).2.element? target = some e := by
      rw [Document.element?, (relinked_attributeTarget fragment).content]
      exact element
    exact .inl ⟨target, e, isTarget, element, Document.lt_size_of_element? there,
      copyAttributes_eq there attributes hidden⟩

/-- The target has got the attributes that are not hidden. -/
theorem content_target (attributes : List Attribute) (hidden : List Text) {id : NodeId}
    {e : Element} (target : IsTarget fragment id) (element : fragment.element? id = some e) :
    (transferred attributes hidden fragment).content id =
      .element (e.setAttributes (visible attributes hidden)) := by
  obtain ⟨other, own, isTarget, isElement, there, after⟩ | ⟨none, _⟩ :=
    transferred_cases attributes hidden fragment
  · obtain rfl := target.unique isTarget
    obtain rfl := Option.some.inj (element.symm.trans isElement)
    rw [after, Document.content_setContent there, if_pos rfl]
  · exact absurd target (none id)

/-- No other node changes. -/
theorem content_other (attributes : List Attribute) (hidden : List Text) {id : NodeId}
    (other : ¬ IsTarget fragment id) :
    (transferred attributes hidden fragment).content id = fragment.content id := by
  have kept := (relinked_attributeTarget fragment).content id
  obtain ⟨target, e, isTarget, _, there, after⟩ | ⟨_, after⟩ :=
    transferred_cases attributes hidden fragment
  · have apart : id ≠ target := fun same => other (same ▸ isTarget)
    rw [after, Document.content_setContent there, if_neg apart, kept]
  · rw [after, kept]

/-- Setting attributes moves no node. -/
theorem children_transferred (attributes : List Attribute) (hidden : List Text) (id : NodeId) :
    (transferred attributes hidden fragment).children id =
      (attributeTarget fragment).2.children id := by
  obtain ⟨_, _, _, _, _, after⟩ | ⟨_, after⟩ := transferred_cases attributes hidden fragment
  · rw [after, Document.children_setContent]
  · rw [after]

/-- A forest that stands in two documents, maybe below different nodes, has the same children. -/
theorem children_of_stands {d other : Document} {up parent : Option NodeId} {forest : Forest}
    (stands : forest.Stands d up) (again : forest.Stands other parent) {id : NodeId}
    (listed : id ∈ forest.ids) : other.children id = d.children id := by
  induction forest generalizing up parent with
  | nil => cases listed
  | cons first content below rest ihBelow ihRest =>
    obtain rfl | listed := List.mem_cons.mp listed
    · exact again.children.trans stands.children.symm
    · obtain listed | listed := List.mem_append.mp listed
      · exact ihBelow stands.2.1 again.2.1 listed
      · exact ihRest stands.2.2 again.2.2 listed

/-- Nodes among which there is no wrapper are kept. -/
theorem flatMap_isWrapper {ids : List NodeId}
    (none : ∀ id ∈ ids, isWrapper fragment id = false) :
    (ids.flatMap fun id => if isWrapper fragment id then fragment.children id else [id]) = ids := by
  have each (id : NodeId) (listed : id ∈ ids) :
      (if isWrapper fragment id then fragment.children id else [id]) = [id] :=
    if_neg (Bool.eq_false_iff.mp (none id listed))
  rw [List.flatMap_congr each, List.flatMap_singleton']

/-- Of all nodes, only the root gets other children: those of the wrapper in its place. -/
theorem children_attributeTarget {forest : Forest} (shows : fragment.Shows forest) :
    (attributeTarget fragment).2.children Document.root =
        ((fragment.children Document.root).flatMap fun id =>
          if isWrapper fragment id then fragment.children id else [id]) ∧
      ∀ id ∈ forest.ids, isWrapper fragment id = false →
        (attributeTarget fragment).2.children id = fragment.children id := by
  obtain ⟨wrapper, isOne, unwrapped⟩ | ⟨none, same⟩ := attributeTarget_cases fragment
  · obtain ⟨lone, _⟩ := isWrapper_iff.mp isOne
    have single {id : NodeId} (other : id ≠ wrapper) : isWrapper fragment id = false := by
      refine Bool.eq_false_iff.mpr fun second => other ?_
      simpa [lone, eq_comm] using (isWrapper_iff.mp second).1
    obtain ⟨left, content, below, right, rfl, _⟩ := split_of_lone shows lone
    have after := shows.unwrap
    obtain ⟨standsLeft, standsOnly⟩ := Forest.stands_append.mp shows.stands
    obtain ⟨againLeft, againOther⟩ := Forest.stands_append.mp after.stands
    obtain ⟨againBelow, againRight⟩ := Forest.stands_append.mp againOther
    rw [unwrapped]
    constructor
    · -- All nodes beside the wrapper stay at the top.
      have beside {ids : List NodeId} (absent : wrapper ∉ ids) :
          (ids.flatMap fun id => if isWrapper fragment id then fragment.children id else [id]) =
            ids :=
        flatMap_isWrapper fun id listed => single (ne_of_mem_of_not_mem listed absent)
      have distinct := (List.nodup_cons.mp shows.distinct).2
      rw [Forest.ids_append, Forest.ids, List.nodup_append, List.nodup_cons,
        List.mem_append, not_or] at distinct
      obtain ⟨_, ⟨⟨_, notRight⟩, _⟩, apart⟩ := distinct
      have notLeft : wrapper ∉ left.ids := fun listed =>
        apart wrapper listed wrapper List.mem_cons_self rfl
      have children : fragment.children wrapper = below.tops := standsOnly.children
      rw [after.children, shows.children, Forest.tops_append, Forest.tops_append,
        Forest.tops_append, Forest.tops, List.flatMap_append, List.flatMap_cons, if_pos isOne,
        children, beside (Forest.notMem_tops notLeft), beside (Forest.notMem_tops notRight)]
    · intro id listed other
      rw [Forest.ids_append, Forest.ids] at listed
      obtain listed | listed := List.mem_append.mp listed
      · exact children_of_stands standsLeft againLeft listed
      · obtain rfl | listed := List.mem_cons.mp listed
        · rw [isOne] at other
          cases other
        · obtain listed | listed := List.mem_append.mp listed
          · exact children_of_stands standsOnly.2.1 againBelow listed
          · exact children_of_stands standsOnly.2.2 againRight listed
  · rw [same]
    exact ⟨(flatMap_isWrapper fun id _ => none id).symm, fun _ _ _ => rfl⟩

end Slot

open Slot in
/-- The attributes of a calling tag are set on the element that stands alone at the top of a
fragment, or alone in a template that does and gives way to its children. All other nodes keep their
contents, and their children too. -/
theorem Expander.transfer_attributes {fragment : Document} {forest : Forest}
    (shows : fragment.Shows forest) (attributes : List Attribute) (hidden : List Text) :
    let after := transferred attributes hidden fragment
    (∀ page tag, fragmentOf page tag attributes hidden fragment =
        bindChildren page tag (attributeTarget fragment).1 after) ∧
      (∀ id, (attributeTarget fragment).1 = some id ↔ IsTarget fragment id) ∧
      (∀ id e, IsTarget fragment id → fragment.element? id = some e →
        ∃ e', after.element? id = some e' ∧
          Element.Receives (visible attributes hidden) e e') ∧
      (∀ id, ¬ IsTarget fragment id → after.content id = fragment.content id) ∧
      (after.children Document.root = (fragment.children Document.root).flatMap fun id =>
        if isWrapper fragment id then fragment.children id else [id]) ∧
      ∀ id ∈ forest.ids, isWrapper fragment id = false →
        after.children id = fragment.children id := by
  obtain ⟨top, others⟩ := children_attributeTarget shows
  intro after
  refine ⟨fun _ _ => rfl, fun _ => attributeTarget_eq_some_iff, fun id e target element => ?_,
    fun id other => content_other attributes hidden other, ?_, fun id listed other => ?_⟩
  · have content := content_target attributes hidden target element
    refine ⟨e.setAttributes (visible attributes hidden), ?_,
      Element.receives_setAttributes (visible attributes hidden) e⟩
    rw [Document.element?, content]
    rfl
  · exact (children_transferred attributes hidden _).trans top
  · exact (children_transferred attributes hidden id).trans (others id listed other)

/-- A template around a paragraph that has an attribute twice, and blank text. -/
def Slot.wrappedTrees : List Tree :=
  [.node (.element ⟨"template".toList, [], false⟩)
    [.node (.text " ".toList) [],
      .node (.element ⟨"p".toList, [.valued "id".toList "a".toList, .valued "ID".toList "b".toList],
        false⟩) []]]

/-- Of two attributes of a name the last one counts, and it takes the place of the first one that
was there. -/
theorem Expander.transfer_attributes_wrapped :
    let given := [Attribute.valued "title".toList "t".toList, .valued "iD".toList "1".toList,
      .valued "DATA".toList "d".toList, .valued "Id".toList "2".toList]
    ∃ e, (Slot.transferred given ["data".toList]
        (.ofForest Slot.wrappedTrees)).element? 3 = some e ∧
      e.keys = ["id".toList, "id".toList, "title".toList] ∧
      e.attribute? "id".toList = some (.valued "Id".toList "2".toList) ∧
      e.attributes[1]? = some (.valued "ID".toList "b".toList) := by
  intro given
  have wrapper : Slot.isWrapper (.ofForest Slot.wrappedTrees) 1 = true := by decide
  have target : Slot.IsTarget (.ofForest Slot.wrappedTrees) 3 :=
    .wrapped wrapper (by decide) (by decide)
  obtain ⟨-, -, received, -⟩ := Expander.transfer_attributes
    (Document.shows_ofForest Slot.wrappedTrees) given ["data".toList]
  obtain ⟨e, element, receives⟩ := received 3 _ target rfl
  refine ⟨e, element, ?_, ?_, ?_⟩
  · exact receives.keys.trans (by decide)
  · exact (receives.lookup _).trans (by decide)
  · exact (receives.shadowed 1 0 (by decide) (by decide) (by decide)).trans (by decide)

end Templates
