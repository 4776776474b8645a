import Templates.Proofs.Component.Decoded
import Templates.Proofs.Markup.Subtree

/-!
Which addresses of a document are decoded.

Decoding an address twice may change it again, so that it matters that a node is met once only.
Main statement: each address in the subtrees of the roots that are in the tree is decoded once, and
nothing else changes, whatever the order of the roots and however many of them a node is below.
-/

namespace Templates.Markup

/-- An attribute after the addresses of its element have been decoded. If its name is that of an
address, in letters of any case, then the value that it has, if any, is decoded once. -/
structure Attribute.DecodedTo (a b : Attribute) : Prop where
  name : b.name = a.name
  quote : b.quote = a.quote
  address : (∃ name ∈ Url.attributeNames, Text.asciiLower name = Text.asciiLower a.name) →
    b.value = a.value.map Url.decode
  other : (¬ ∃ name ∈ Url.attributeNames, Text.asciiLower name = Text.asciiLower a.name) →
    b.value = a.value

/-- Names are those of addresses if they are listed, in letters of any case. -/
theorem isAttribute_iff {name : Text} :
    Url.isAttribute name = true ↔
      ∃ other ∈ Url.attributeNames, Text.asciiLower other = Text.asciiLower name := by
  simp [Url.isAttribute, Text.sameName]

/-- An attribute is decoded to what becomes of it in its element. -/
theorem Attribute.decodedTo (a : Attribute) : a.DecodedTo (Url.decodeAttribute a) := by
  rw [Url.decodeAttribute]
  constructor
  · split <;> rfl
  · split <;> rfl
  · intro address
    rw [if_pos (isAttribute_iff.mpr address)]
  · intro other
    rw [if_neg fun address => other (isAttribute_iff.mp address)]

namespace Document

variable {d : Document}

/-- A node is in the subtree of one of several roots that is itself in the tree. -/
def Covers (d : Document) (roots : List NodeId) (id : NodeId) : Prop :=
  ∃ top ∈ roots, d.Under root top ∧ d.Under top id

/-- The nodes that are reached from roots are those that these cover. -/
theorem WellLinked.mem_reached_iff (linked : d.WellLinked) {roots : List NodeId} {id : NodeId} :
    id ∈ d.reached roots ↔ d.Covers roots id := by
  simp only [reached, List.mem_flatMap, List.mem_filter, linked.isAttached_iff,
    linked.mem_descendants_iff, Covers, and_assoc]

/-- Roots that cover the same nodes have the same addresses decoded. -/
theorem WellLinked.decodeUrls_congr (linked : d.WellLinked) {roots others : List NodeId}
    (same : ∀ id, d.Covers others id ↔ d.Covers roots id) :
    d.decodeUrls others = d.decodeUrls roots := by
  rw [decodeUrls_eq, decodeUrls_eq]
  congr 1
  funext id
  rw [decide_eq_decide, linked.mem_reached_iff, linked.mem_reached_iff, same]

/-- A covered node is decoded, and any other stays what it is. -/
theorem WellLinked.content_decodeUrls (linked : d.WellLinked) (roots : List NodeId) (id : NodeId) :
    (d.Covers roots id → (d.decodeUrls roots).content id = (d.content id).decoded) ∧
      (¬ d.Covers roots id → (d.decodeUrls roots).content id = d.content id) := by
  rw [decodeUrls_eq, content, content, getElem?_decodedAt, ← linked.mem_reached_iff]
  -- A number without a node counts as an empty fragment, which has no addresses.
  cases d.nodes[id]? with
  | none => exact ⟨fun _ => rfl, fun _ => rfl⟩
  | some node =>
    constructor
    · intro covered
      simp [covered]
    · intro outside
      simp [outside]

/-- The addresses in the subtrees of the roots that are in the tree are decoded once, and nothing
else changes: neither a link nor a node outside of these subtrees, nor anything but the values of
addresses of the elements inside. The order of the roots and their repetitions do not matter. -/
theorem decodeUrls_exact (linked : d.WellLinked) (roots : List NodeId) :
    (d.decodeUrls roots).size = d.size ∧
      (∀ id, (d.decodeUrls roots).parent? id = d.parent? id ∧
        (d.decodeUrls roots).children id = d.children id) ∧
      (∀ id, ¬ d.Covers roots id → (d.decodeUrls roots).content id = d.content id) ∧
      (∀ id, d.element? id = none → (d.decodeUrls roots).content id = d.content id) ∧
      (∀ id e, d.Covers roots id → d.element? id = some e →
        ∃ list, (d.decodeUrls roots).content id = .element { e with attributes := list } ∧
          List.Forall₂ Attribute.DecodedTo e.attributes list) ∧
      ∀ others, (∀ id, id ∈ others ↔ id ∈ roots) → d.decodeUrls others = d.decodeUrls roots := by
  have contents := linked.content_decodeUrls roots
  refine ⟨?_, fun id => ⟨?_, ?_⟩, fun id => (contents id).2, fun id none => ?_,
    fun id e covered element => ?_, fun others same => ?_⟩
  · rw [decodeUrls_eq, size_decodedAt]
  · rw [decodeUrls_eq, parent?_decodedAt]
  · rw [decodeUrls_eq, children_decodedAt]
  · by_cases covered : d.Covers roots id
    · rw [(contents id).1 covered]
      -- Only elements have addresses.
      unfold element? at none
      cases own : d.content id with
      | element e => simp [own, Content.element?] at none
      | _ => rfl
    · exact (contents id).2 covered
  · have own : d.content id = .element e := content_of_element? element
    refine ⟨e.attributes.map Url.decodeAttribute, ?_, ?_⟩
    · rw [(contents id).1 covered, own]
      rfl
    · rw [List.forall₂_map_right_iff]
      exact List.forall₂_same.mpr fun a _ => a.decodedTo
  · apply linked.decodeUrls_congr
    intro id
    simp [Covers, same]

/-- A link around an image, next to a link that has left its place. -/
def linkedImage : Document :=
  (Document.ofForest [
    .node (.element ⟨"a".toList, [.valued "HREF".toList "%2520".toList], false⟩)
      [.node (.element ⟨"img".toList,
        [.valued "src".toList "%2520".toList, .valued "alt".toList "%2520".toList], false⟩) []],
    .node (.element ⟨"a".toList, [.valued "href".toList "%2520".toList], false⟩) []]).detach 3

/-- Of roots inside of each other, in any order and twice, and one that is not in the tree, each
address comes to be decoded once or not at all. -/
theorem decodeUrls_linkedImage :
    linkedImage.decodeUrls [2, 3, 1, 2] = linkedImage.decodeUrls [1, 2, 3] ∧
      (linkedImage.decodeUrls [2, 3, 1, 2]).content 3 = linkedImage.content 3 ∧
      ∃ list, (linkedImage.decodeUrls [2, 3, 1, 2]).content 2 =
          .element ⟨"img".toList, list, false⟩ ∧
        List.Forall₂ Attribute.DecodedTo
          [.valued "src".toList "%2520".toList, .valued "alt".toList "%2520".toList] list := by
  have linked : linkedImage.WellLinked := (WellLinked.ofForest _).detach 3
  obtain ⟨-, -, outside, -, inside, order⟩ := decodeUrls_exact linked [2, 3, 1, 2]
  have image : linkedImage.parent? 2 = some 1 := by decide +kernel
  have link : linkedImage.parent? 1 = some root := by decide +kernel
  have loose : linkedImage.parent? 3 = none := by decide +kernel
  have element : linkedImage.element? 2 = some ⟨"img".toList,
      [.valued "src".toList "%2520".toList, .valued "alt".toList "%2520".toList], false⟩ := by
    decide +kernel
  refine ⟨?_, ?_, ?_⟩
  · refine (order [1, 2, 3] fun id => ?_).symm
    simp only [List.mem_cons, List.not_mem_nil, or_false]
    tauto
  · -- Nothing is above the link, so that only itself could cover it, and it is not in the tree.
    have alone {other : NodeId} (under : linkedImage.Under other 3) : other = 3 := by
      rcases Relation.ReflTransGen.cases_head under with same | ⟨next, up, _⟩
      · exact same.symm
      · exact absurd (loose.symm.trans up) (by simp)
    refine outside 3 fun ⟨other, _, attached, under⟩ => ?_
    rw [alone under] at attached
    exact absurd (alone attached) (by decide)
  · exact inside 2 _ ⟨2, by decide, .tail (.single image) link, .refl⟩ element

end Document

end Templates.Markup
