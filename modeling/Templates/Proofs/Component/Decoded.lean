import Templates.Proofs.Component.Address
import Templates.Proofs.Component.Around
import Templates.Proofs.Markup.Outermost
import Templates.Proofs.Markup.Links

/-!
What becomes of a document when its addresses are decoded, and of the trees in it.

Each element below one of the roots is decoded once, and nothing else changes.
-/

namespace Templates.Markup

/-- A content whose addresses are decoded if it is an element. -/
def Content.decoded : Content → Content
  | .element e => .element (Url.decodeElement e)
  | content => content

namespace Document

/-- A document in which the nodes that satisfy a condition are decoded. -/
def decodedAt (chosen : NodeId → Bool) (d : Document) : Document :=
  ⟨d.nodes.mapIdx fun id node =>
    if chosen id then { node with content := node.content.decoded } else node⟩

variable {d : Document} {chosen other : NodeId → Bool}

/-- A node is decoded if it satisfies the condition. -/
theorem getElem?_decodedAt (id : NodeId) :
    (d.decodedAt chosen).nodes[id]? = d.nodes[id]?.map fun node =>
      if chosen id then { node with content := node.content.decoded } else node :=
  Array.getElem?_mapIdx

@[simp] theorem size_decodedAt : (d.decodedAt chosen).size = d.size :=
  Array.size_mapIdx

/-- No node gets other children. -/
@[simp] theorem children_decodedAt (id : NodeId) :
    (d.decodedAt chosen).children id = d.children id := by
  rw [children, children, getElem?_decodedAt]
  cases d.nodes[id]? with
  | none => rfl
  | some node => by_cases own : chosen id <;> simp [own]

/-- No node gets another one above it. -/
@[simp] theorem parent?_decodedAt (id : NodeId) :
    (d.decodedAt chosen).parent? id = d.parent? id := by
  rw [parent?, parent?, getElem?_decodedAt]
  cases d.nodes[id]? with
  | none => rfl
  | some node => by_cases own : chosen id <;> simp [own]

/-- Walks go the same way. -/
@[simp] theorem descendants_decodedAt (id : NodeId) :
    (d.decodedAt chosen).descendants id = d.descendants id := by
  have walk (fuel : Nat) (pending : List NodeId) :
      (d.decodedAt chosen).visit fuel pending = d.visit fuel pending := by
    induction fuel generalizing pending with
    | zero => rfl
    | succ fuel ih =>
      cases pending with
      | nil => rfl
      | cons first pending => simp [visit, ih]
  simp [descendants, walk]

/-- The same nodes are attached. -/
@[simp] theorem isAttached_decodedAt (id : NodeId) :
    (d.decodedAt chosen).isAttached id = d.isAttached id := by
  have way (fuel : Nat) (id : NodeId) :
      (d.decodedAt chosen).climbs fuel id = d.climbs fuel id := by
    induction fuel generalizing id with
    | zero => rfl
    | succ fuel ih => simp [climbs, ih]
  simp [isAttached, way]

/-- Documents are the same if their nodes are. -/
theorem ext_nodes {first second : Document}
    (same : ∀ id : NodeId, first.nodes[id]? = second.nodes[id]?) : first = second := by
  obtain ⟨nodes⟩ := first
  obtain ⟨others⟩ := second
  exact congrArg Document.mk (Array.ext_getElem? same)

/-- Without a node that satisfies the condition nothing is decoded. -/
theorem decodedAt_of_forall (none : ∀ id, chosen id = false) : d.decodedAt chosen = d := by
  refine ext_nodes fun id => ?_
  rw [getElem?_decodedAt]
  simp [none id]

/-- Nodes that are decoded one after the other are decoded at once. -/
theorem decodedAt_decodedAt (apart : ∀ id, chosen id = true → other id = false) :
    (d.decodedAt chosen).decodedAt other = d.decodedAt fun id => chosen id || other id := by
  refine ext_nodes fun id => ?_
  rw [getElem?_decodedAt, getElem?_decodedAt, getElem?_decodedAt, Option.map_map]
  refine congrFun (congrArg Option.map (funext fun node => ?_)) _
  -- Each node is decoded in at most one of the steps.
  by_cases first : chosen id = true
  · simp [first, apart id first]
  · simp [first]

/-- The addresses of one element are decoded. -/
theorem mapElement_decodeElement (id : NodeId) (d : Document) :
    d.mapElement Url.decodeElement id = d.decodedAt fun x => decide (x = id) := by
  refine ext_nodes fun x => ?_
  rw [getElem?_decodedAt, mapElement, element?, content]
  by_cases same : x = id
  · subst same
    cases node : d.nodes[x]? with
    | none => simp [Content.element?, node]
    | some node' =>
      obtain ⟨content, parent, children⟩ := node'
      cases content <;>
        simp [Content.element?, node, Content.decoded, getElem?_setContent]
  · -- Any other node stays as it is.
    split
    · rw [getElem?_setContent, if_neg (Ne.symm same)]
      simp [same]
    · simp [same]

/-- New nodes are decoded, each once. -/
theorem decodeNodes_eq (seen ids : List NodeId) (d : Document) :
    ∃ after : List NodeId, (∀ id, id ∈ after ↔ id ∈ ids ∨ id ∈ seen) ∧
      decodeNodes seen ids d = (after, d.decodedAt fun id => decide (id ∈ ids ∧ id ∉ seen)) := by
  induction ids generalizing seen d with
  | nil => exact ⟨seen, by simp, by rw [decodeNodes, decodedAt_of_forall (by simp)]⟩
  | cons first rest ih =>
    rw [decodeNodes]
    by_cases known : first ∈ seen
    · -- A node that has been seen is passed over.
      obtain ⟨after, listed, run⟩ := ih seen d
      refine ⟨after, fun id => ?_, ?_⟩
      · rw [listed, List.mem_cons]
        constructor
        · exact Or.imp_left .inr
        · rintro ((rfl | inRest) | old)
          · exact .inr known
          · exact .inl inRest
          · exact .inr old
      · rw [if_pos (List.contains_iff_mem.mpr known), run]
        refine congrArg (fun chosen => (after, d.decodedAt chosen)) (funext fun id => ?_)
        by_cases same : id = first
        · simp [same, known]
        · simp [same]
    · obtain ⟨after, listed, run⟩ := ih (first :: seen) (d.mapElement Url.decodeElement first)
      refine ⟨after, fun id => ?_, ?_⟩
      · rw [listed, List.mem_cons, List.mem_cons]
        tauto
      · rw [if_neg (by simpa using known), run, mapElement_decodeElement,
          decodedAt_decodedAt (by simp +contextual)]
        refine congrArg (fun chosen => (after, d.decodedAt chosen)) (funext fun id => ?_)
        by_cases same : id = first
        · simp [same, known]
        · simp [same]

/-- The nodes of the subtrees of those roots that are in the tree. -/
def reached (roots : List NodeId) (d : Document) : List NodeId :=
  (roots.filter d.isAttached).flatMap fun root => root :: d.descendants root

/-- Decoded nodes reach the same ones. -/
@[simp] theorem reached_decodedAt (roots : List NodeId) :
    (d.decodedAt chosen).reached roots = d.reached roots := by
  have attached : (d.decodedAt chosen).isAttached = d.isAttached :=
    funext fun id => isAttached_decodedAt id
  simp [reached, attached]

/-- The nodes below roots are decoded unless they have been seen. -/
theorem decodeBelow_eq (seen roots : List NodeId) (d : Document) :
    decodeBelow seen roots d =
      d.decodedAt fun id => decide (id ∈ d.reached roots ∧ id ∉ seen) := by
  induction roots generalizing seen d with
  | nil => rw [decodeBelow, decodedAt_of_forall (by simp [reached])]
  | cons root rest ih =>
    rw [decodeBelow]
    by_cases attached : d.isAttached root = true
    · obtain ⟨after, listed, run⟩ := decodeNodes_eq seen (root :: d.descendants root) d
      have split : d.reached (root :: rest) =
          (root :: d.descendants root) ++ d.reached rest := by
        rw [reached, List.filter_cons_of_pos attached]
        rfl
      rw [if_pos attached, run]
      dsimp only
      rw [ih, decodedAt_decodedAt, split]
      · -- A node below both roots is decoded with the first of them.
        refine congrArg (fun chosen => d.decodedAt chosen) (funext fun id => ?_)
        by_cases first : id ∈ root :: d.descendants root
        · simp only [reached_decodedAt, listed, first, List.mem_append, true_or, true_and,
            not_true_eq_false, and_false, decide_false, Bool.or_false]
        · simp only [reached_decodedAt, listed, first, List.mem_append, false_or, false_and,
            decide_false, Bool.false_or]
      · intro id first
        have known : id ∈ after := (listed id).mpr (.inl (of_decide_eq_true first).1)
        simp [known]
    · have skip : d.reached (root :: rest) = d.reached rest := by
        rw [reached, List.filter_cons_of_neg attached]
        rfl
      rw [if_neg attached, ih, skip]

/-- Addresses are decoded, each once, in exactly the subtrees of the roots that are in the tree. -/
theorem decodeUrls_eq (roots : List NodeId) (d : Document) :
    d.decodeUrls roots = d.decodedAt fun id => decide (id ∈ d.reached roots) := by
  rw [decodeUrls, decodeBelow_eq]
  simp

end Document

mutual

/-- A tree whose addresses are decoded. -/
def Tree.decoded : Tree → Tree
  | .node content children => .node content.decoded (decodedAll children)

/-- A forest whose addresses are decoded. -/
def decodedAll : List Tree → List Tree
  | [] => []
  | tree :: rest => tree.decoded :: decodedAll rest

end

/-- Trees side by side are decoded each for itself. -/
@[simp] theorem decodedAll_append (left right : List Tree) :
    decodedAll (left ++ right) = decodedAll left ++ decodedAll right := by
  induction left with
  | nil => rfl
  | cons tree rest ih => rw [List.cons_append, decodedAll, decodedAll, ih]; rfl

namespace Forest

/-- A forest in which the nodes that satisfy a condition are decoded. -/
def decodedAt (chosen : NodeId → Bool) : Forest → Forest
  | nil => nil
  | cons id content below rest =>
    cons id (if chosen id then content.decoded else content) (below.decodedAt chosen)
      (rest.decodedAt chosen)

variable {forest : Forest} {chosen : NodeId → Bool}

@[simp] theorem tops_decodedAt (chosen : NodeId → Bool) (forest : Forest) :
    (forest.decodedAt chosen).tops = forest.tops := by
  induction forest with
  | nil => rfl
  | cons id content below rest _ ih => rw [decodedAt, tops, ih, tops]

@[simp] theorem ids_decodedAt (chosen : NodeId → Bool) (forest : Forest) :
    (forest.decodedAt chosen).ids = forest.ids := by
  induction forest with
  | nil => rfl
  | cons id content below rest ihBelow ih => rw [decodedAt, ids, ihBelow, ih, ids]

@[simp] theorem decodedAt_append (chosen : NodeId → Bool) (left right : Forest) :
    (left.append right).decodedAt chosen =
      (left.decodedAt chosen).append (right.decodedAt chosen) := by
  induction left with
  | nil => rfl
  | cons id content below rest _ ih => rw [append, decodedAt, decodedAt, append, ih]

/-- Nodes that do not satisfy the condition stay as they are. -/
theorem decodedAt_of_forall_not (none : ∀ id ∈ forest.ids, chosen id = false) :
    forest.decodedAt chosen = forest := by
  induction forest with
  | nil => rfl
  | cons id content below rest ihBelow ihRest =>
    simp only [ids, List.forall_mem_cons, List.forall_mem_append] at none
    obtain ⟨own, noneBelow, noneRest⟩ := none
    rw [decodedAt, ihBelow noneBelow, ihRest noneRest, own]
    rfl

/-- If all nodes satisfy the condition, all trees are decoded. -/
theorem trees_decodedAt (all : ∀ id ∈ forest.ids, chosen id = true) :
    (forest.decodedAt chosen).trees = decodedAll forest.trees := by
  induction forest with
  | nil => rfl
  | cons id content below rest ihBelow ihRest =>
    simp only [ids, List.forall_mem_cons, List.forall_mem_append] at all
    obtain ⟨own, allBelow, allRest⟩ := all
    rw [decodedAt, trees, ihBelow allBelow, ihRest allRest, own]
    rfl

/-- A decoded forest stands in the decoded document. -/
theorem Stands.decodedAt {d : Document} {parent : Option NodeId} (stands : forest.Stands d parent)
    (chosen : NodeId → Bool) :
    (forest.decodedAt chosen).Stands (d.decodedAt chosen) parent := by
  induction forest generalizing parent with
  | nil => trivial
  | cons id content below rest ihBelow ihRest =>
    obtain ⟨node, standsBelow, standsRest⟩ := stands
    refine ⟨?_, ihBelow standsBelow, ihRest standsRest⟩
    rw [Document.getElem?_decodedAt, node, tops_decodedAt]
    by_cases own : chosen id = true <;> simp [own]

end Forest

/-- A decoded document shows the decoded forest. -/
theorem Document.Shows.decodedAt {d : Document} {forest : Forest} (shows : d.Shows forest)
    (chosen : NodeId → Bool) : (d.decodedAt chosen).Shows (forest.decodedAt chosen) where
  linked := by
    -- The root is no element.
    rw [getElem?_decodedAt, shows.linked, Forest.tops_decodedAt]
    by_cases own : chosen root = true <;> simp [own, Content.decoded]
  stands := shows.stands.decodedAt chosen
  distinct := by
    rw [Forest.ids_decodedAt]
    exact shows.distinct

end Templates.Markup
