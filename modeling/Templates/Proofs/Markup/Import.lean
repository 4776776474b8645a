import Templates.Proofs.Markup.Subtree

/-!
Copies of nodes of another document.

A copy can be made node by node, each linked to the one above it as soon as everything below it has
been made; that gives the same document as all of the nodes put behind the others at once. Main
statement: copies look like what they are copies of, their nodes have the next free numbers in
document order, and no other node changes.
-/

namespace Templates.Markup

namespace Document

/-- A copy of a node is made step by step: first the node itself, then one child after the other
with everything below it, each of which is linked before the next one is begun. The first argument
bounds the depth. -/
def copyFrom (other : Document) : Nat → NodeId → Document → NodeId × Document
  | 0, id, d => d.create (other.content id)
  | depth + 1, id, d =>
    let (copy, d) := d.create (other.content id)
    (copy, (other.children id).foldl (fun d child =>
      let (childCopy, d) := copyFrom other depth child d
      d.append copy childCopy) d)

/-- Copies of several nodes are made one after the other. -/
def copyEachFrom (other : Document) (depth : Nat) : List NodeId → Document → List NodeId × Document
  | [], d => ([], d)
  | id :: rest, d =>
    let (copy, d) := other.copyFrom depth id d
    let (copies, d) := copyEachFrom other depth rest d
    (copy :: copies, d)

/-- Documents are the same if their nodes are. -/
theorem ext_getElem? {d other : Document} (same : ∀ x : NodeId, d.nodes[x]? = other.nodes[x]?) :
    d = other := by
  cases d
  cases other
  exact congrArg Document.mk (Array.ext_getElem? same)

/-- The children of a node change twice. -/
theorem mapChildren_mapChildren (f g : List NodeId → List NodeId) (id : NodeId) (d : Document) :
    (d.mapChildren f id).mapChildren g id = d.mapChildren (fun ids => g (f ids)) id := by
  refine ext_getElem? fun x => ?_
  rw [getElem?_mapChildren, getElem?_mapChildren, getElem?_mapChildren]
  by_cases same : id = x
  · rw [if_pos same, if_pos same, if_pos same, Option.map_map]
    rfl
  · rw [if_neg same, if_neg same, if_neg same]

/-- The children of an old node change before or after trees are added. -/
theorem withTrees_mapChildren {d : Document} {id : NodeId} (there : id < d.size)
    (f : List NodeId → List NodeId) (parent : Option NodeId) (trees : List Tree) :
    (d.mapChildren f id).withTrees parent trees = (d.withTrees parent trees).mapChildren f id := by
  refine ext_getElem? fun x => ?_
  have size := size_mapChildren f id d
  rw [getElem?_mapChildren]
  obtain old | new := Nat.lt_or_ge x d.size
  · rw [getElem?_withTrees_of_lt _ _ (size ▸ old), getElem?_mapChildren,
      getElem?_withTrees_of_lt _ _ old]
  · have other : id ≠ x := Nat.ne_of_lt (Nat.lt_of_lt_of_le there new)
    rw [if_neg other, getElem?_withTrees_of_le _ _ (size ▸ new), size,
      getElem?_withTrees_of_le _ _ new]

/-- A tree without a place gets a node above it. -/
theorem setParent_withTrees (parent : NodeId) (tree : Tree) (d : Document) :
    (d.withTrees none [tree]).setParent (some parent) d.size =
      d.withTrees (some parent) [tree] := by
  cases tree with
  | node content children =>
    refine ext_getElem? fun x => ?_
    rw [getElem?_setParent]
    obtain old | rfl | later := Nat.lt_trichotomy x d.size
    · rw [if_neg (Nat.ne_of_gt old), getElem?_withTrees_of_lt _ _ old,
        getElem?_withTrees_of_lt _ _ old]
    · -- Only the topmost node of the tree has got another link.
      rw [if_pos rfl, getElem?_withTrees_of_le _ _ (Nat.le_refl _),
        getElem?_withTrees_of_le _ _ (Nat.le_refl _), Nat.sub_self]
      rfl
    · obtain ⟨k, inner⟩ := Nat.exists_eq_succ_of_ne_zero (Nat.sub_ne_zero_of_lt later)
      rw [if_neg (Nat.ne_of_lt later), getElem?_withTrees_of_le _ _ (Nat.le_of_lt later),
        getElem?_withTrees_of_le _ _ (Nat.le_of_lt later), inner]
      rfl

/-- A tree that has just been added moves below a node. -/
theorem append_withTrees (parent : NodeId) (tree : Tree) (d : Document) :
    (d.withTrees none [tree]).append parent d.size =
      (d.withTrees (some parent) [tree]).mapChildren (· ++ topIds d.size [tree]) parent := by
  have top : d.size ∈ (Forest.plant d.size [tree]).tops := by
    rw [Forest.tops_plant]
    exact List.mem_cons_self
  have loose := (stands_withTrees none [tree] d).parent?_of_mem_tops top
  rw [append, detach, loose]
  dsimp only
  rw [setParent_withTrees]
  rfl

/-- Copies that are made and moved below a node one after the other are trees added there. -/
theorem foldl_append_importTree {parent : NodeId} {d : Document} (there : parent < d.size)
    (trees : List Tree) :
    trees.foldl (fun d tree => (d.importTree tree).2.append parent (d.importTree tree).1) d =
      (d.withTrees (some parent) trees).mapChildren (· ++ topIds d.size trees) parent := by
  induction trees generalizing d with
  | nil =>
    refine ext_getElem? fun x => ?_
    rw [getElem?_mapChildren]
    by_cases same : parent = x <;> simp [same, withTrees, nodesAll, topIds]
  | cons tree trees ih =>
    have count : sizeAll [tree] = tree.size := by simp [sizeAll]
    rw [List.foldl_cons, importTree_eq, append_withTrees, ih]
    · -- The other trees come behind the first one, as children and as nodes.
      rw [withTrees_mapChildren, mapChildren_mapChildren, withTrees_append, size_mapChildren,
        size_withTrees, count]
      · congr 1
        funext ids
        simp [topIds]
      · rw [size_withTrees]
        exact Nat.lt_of_lt_of_le there (Nat.le_add_right _ _)
    · rw [size_mapChildren, size_withTrees]
      exact Nat.lt_of_lt_of_le there (Nat.le_add_right _ _)

/-- A new node with trees below it is a tree. -/
theorem create_withTrees (content : Content) (trees : List Tree) (d : Document) :
    ((d.create content).2.withTrees (some d.size) trees).mapChildren
        (· ++ topIds (d.create content).2.size trees) d.size =
      d.withTrees none [.node content trees] := by
  have size : (d.create content).2.size = d.size + 1 := Array.size_push _
  have linked : (d.create content).2.mapChildren (· ++ topIds (d.size + 1) trees) d.size =
      ⟨d.nodes.push ⟨content, none, topIds (d.size + 1) trees⟩⟩ := by
    refine ext_getElem? fun x => ?_
    rw [getElem?_mapChildren, create]
    dsimp only
    rw [Array.getElem?_push, Array.getElem?_push]
    by_cases last : x = d.nodes.size
    · simp [Document.size, last]
    · simp [Document.size, last, Ne.symm last]
  have there : d.size < (d.create content).2.size := by
    rw [size]
    exact Nat.lt_succ_self _
  rw [← withTrees_mapChildren there, size, linked, withTrees, withTrees]
  simp [Document.size, nodesAll, Tree.nodes]

/-- A copy that is made step by step is the copy of a tree. -/
theorem copyFrom_eq (other : Document) (depth : Nat) (id : NodeId) (d : Document) :
    other.copyFrom depth id d = d.importTree (other.treeTo depth id) := by
  -- The copies of the children are those of the trees one level down.
  induction depth generalizing id d with
  | zero =>
    simp [copyFrom, treeTo, create, importTree, Tree.nodes, topIds, nodesAll]
  | succ depth ih =>
    have made : (d.create (other.content id)).1 < (d.create (other.content id)).2.size :=
      Nat.lt_of_lt_of_eq (Nat.lt_succ_self _) (Array.size_push _).symm
    have children (d : Document) (copy : NodeId) : (other.children id).foldl (fun d child =>
        ((other.copyFrom depth child d).2.append copy (other.copyFrom depth child d).1)) d =
        ((other.children id).map (other.treeTo depth)).foldl (fun d tree =>
          (d.importTree tree).2.append copy (d.importTree tree).1) d := by
      rw [List.foldl_map]
      simp only [ih]
    rw [copyFrom]
    dsimp only
    rw [children, foldl_append_importTree made, treeTo, importTree_eq, ← create_withTrees]
    rfl

/-- Copies that are made step by step are those of trees. -/
theorem copyEachFrom_eq (other : Document) (depth : Nat) (ids : List NodeId) (d : Document) :
    other.copyEachFrom depth ids d = d.importTrees (ids.map (other.treeTo depth)) := by
  induction ids generalizing d with
  | nil => rfl
  | cons id ids ih =>
    rw [copyEachFrom, copyFrom_eq, List.map_cons, importTrees]
    dsimp only
    rw [ih]

/-- A node looks like one of another document. -/
structure Copies (d other : Document) (copy id : NodeId) : Prop where
  /-- Both are written as the same markup. -/
  outer : d.outer copy = other.outer id
  /-- They hold the same text. -/
  text : d.text copy = other.text id
  /-- In document order, the nodes of both subtrees are the same elements, texts and so on. -/
  contents : (copy :: d.descendants copy).map d.content =
    (id :: other.descendants id).map other.content

/-- Copies of nodes of another document have been added to a document. -/
structure Imports (d after other : Document) (copies ids : List NodeId) : Prop where
  /-- All nodes that have been there before are as they were. -/
  same : ∀ x < d.size, after.nodes[x]? = d.nodes[x]?
  /-- There is a new node for each node of the subtrees, and no other one. -/
  size : after.size = d.size + (ids.flatMap fun x => x :: other.descendants x).length
  /-- In document order the new nodes have the next free numbers. -/
  numbered : (copies.flatMap fun x => x :: after.descendants x) =
    List.range' d.size (ids.flatMap fun x => x :: other.descendants x).length
  /-- Each copy looks like its node. -/
  copied : List.Forall₂ (after.Copies other) copies ids
  /-- Nothing is above a copy. -/
  loose : ∀ copy ∈ copies, after.parent? copy = none ∧ ∀ x, copy ∉ after.children x
  /-- The links are those of trees. -/
  linked : after.WellLinked

/-- Nodes of the same contents have the same text of their own. -/
theorem flatMap_ownText_congr {d other : Document} {copies ids : List NodeId}
    (same : copies.map d.content = ids.map other.content) :
    copies.flatMap d.ownText = ids.flatMap other.ownText := by
  induction ids generalizing copies with
  | nil =>
    rw [List.map_eq_nil_iff.mp same]
    rfl
  | cons id ids ih =>
    obtain ⟨copy, rest, rfl, first, later⟩ := List.map_eq_cons_iff.mp same
    have own : d.ownText copy = other.ownText id := by rw [ownText, ownText, first]
    rw [List.flatMap_cons, List.flatMap_cons, own, ih later]

/-- The text of a node is told by the contents of the nodes below it. -/
theorem text_congr {d other : Document} {copy id : NodeId}
    (same : (copy :: d.descendants copy).map d.content =
      (id :: other.descendants id).map other.content) : d.text copy = other.text id := by
  have whole := flatMap_ownText_congr same
  rwa [List.flatMap_cons, List.flatMap_cons] at whole

end Document

namespace Forest

/-- The topmost nodes of forests of the same trees look like each other, in any documents. -/
theorem Stands.copies {d other : Document} {parent up : Option NodeId} {forest copy : Forest}
    (stands : forest.Stands other parent) (distinct : forest.ids.Nodup)
    (copyStands : copy.Stands d up) (copyDistinct : copy.ids.Nodup)
    (same : copy.trees = forest.trees) :
    List.Forall₂ (d.Copies other) copy.tops forest.tops := by
  induction forest generalizing copy with
  | nil =>
    cases copy with
    | nil => exact .nil
    | cons => cases same
  | cons id content below rest _ ih =>
    cases copy with
    | nil => cases same
    | cons copyId copyContent copyBelow copyRest =>
      obtain ⟨sameTree, sameRest⟩ := List.cons.inj same
      have apart := List.nodup_append.mp (List.nodup_cons.mp distinct).2
      have copyApart := List.nodup_append.mp (List.nodup_cons.mp copyDistinct).2
      refine .cons ?_ (ih stands.2.2 apart.2.1 copyStands.2.2 copyApart.2.1 sameRest)
      have contents : (copyId :: d.descendants copyId).map d.content =
          (id :: other.descendants id).map other.content := by
        obtain ⟨rfl, sameBelow⟩ := Tree.node.inj sameTree
        rw [stands.descendants apart.1, copyStands.descendants copyApart.1, List.map_cons,
          List.map_cons, stands.content, copyStands.content,
          stands.2.1.map_content copyStands.2.1 sameBelow]
      refine ⟨?_, Document.text_congr contents, contents⟩
      rw [Document.outer, Document.outer, stands.tree distinct, copyStands.tree copyDistinct,
        sameTree]

end Forest

namespace Document

variable {d other : Document}

/-- Trees that are read off a forest in another document are added as copies of its nodes. -/
theorem imports_withTrees (linked : d.WellLinked) {parent : Option NodeId} {forest : Forest}
    (stands : forest.Stands other parent) (distinct : forest.ids.Nodup) :
    d.Imports (d.withTrees none forest.trees) other (topIds d.size forest.trees) forest.tops := by
  have whole : (d.withTrees none forest.trees).WellLinked := by
    have added := linked.importTrees forest.trees
    rwa [importTrees_eq] at added
  have placed := stands_withTrees none forest.trees d
  have numbers : (Forest.plant d.size forest.trees).ids =
      List.range' d.size forest.ids.length := by
    rw [Forest.ids_plant, Forest.sizeAll_trees]
  have distinctNew : (Forest.plant d.size forest.trees).ids.Nodup := by
    rw [numbers]
    exact List.nodup_range'
  refine ⟨fun x => getElem?_withTrees_of_lt none forest.trees, ?_, ?_, ?_, ?_, whole⟩
  · rw [size_withTrees, Forest.sizeAll_trees, stands.flatMap_descendants distinct]
  · rw [stands.flatMap_descendants distinct, ← Forest.tops_plant,
      placed.flatMap_descendants distinctNew, numbers]
  · rw [← Forest.tops_plant]
    exact stands.copies distinct placed distinctNew (Forest.trees_plant _ _)
  · intro copy listed
    rw [← Forest.tops_plant] at listed
    have loose := placed.parent?_of_mem_tops listed
    refine ⟨loose, fun x child => ?_⟩
    rw [(whole.agree x copy).mpr child] at loose
    cases loose

/-- A node of another document is copied with everything below it, step by step or at once: the copy
looks like the node and has no place, its nodes have the next free numbers in document order, and
no other node changes. The same holds of copies of all children of a node, one after the other. -/
theorem importNode_copies (linked : d.WellLinked) (otherLinked : other.WellLinked) {id : NodeId}
    (there : id < other.size) :
    (∀ depth, other.size ≤ depth →
      other.copyFrom depth id d = d.importNode other id ∧
        other.copyEachFrom depth (other.children id) d = d.importChildren other id) ∧
      d.Imports (d.importNode other id).2 other [(d.importNode other id).1] [id] ∧
      d.Imports (d.importChildren other id).2 other (d.importChildren other id).1
        (other.children id) := by
  obtain ⟨below, stands⟩ := otherLinked.exists_stands there
  have alone : other.Apart [id] := List.pairwise_singleton _ _
  have distinct := otherLinked.nodup_ids stands alone
  have tree := stands.tree distinct
  have children := stands.children
  have distinctBelow := (List.nodup_append.mp (List.nodup_cons.mp distinct).2).1
  rw [importNode, importTree_eq, importChildren, importTrees_eq, tree, Tree.children, children]
  refine ⟨fun depth enough => ⟨?_, ?_⟩, ?_, ?_⟩
  · -- No way down is longer than there are nodes.
    have deep := stands.treeTo (Nat.le_trans (stands.length_le distinct) enough)
    rw [copyFrom_eq, importTree_eq, (List.cons.inj deep).1]
  · have deep := stands.2.1.treeTo (Nat.le_trans (stands.2.1.length_le distinctBelow) enough)
    rw [copyEachFrom_eq, importTrees_eq, deep]
  · exact imports_withTrees linked stands distinct
  · exact imports_withTrees linked stands.2.1 distinctBelow

/-- A page with an empty paragraph. -/
def emptyParagraph : Document :=
  ofForest [.node (.element ⟨"p".toList, [], false⟩) []]

/-- A list of two items, the second one with a mark. -/
def markedItems : Document :=
  ofForest [.node (.element ⟨"ul".toList, [], false⟩)
    [.node (.element ⟨"li".toList, [], false⟩) [.node (.text "a".toList) []],
      .node (.element ⟨"li".toList, [], false⟩)
        [.node (.text "b".toList) [], .node (.element ⟨"i".toList, [], false⟩) []]]]

/-- A list is copied into a page, whole and item by item. -/
theorem importNode_markedItems :
    parse "<p></p>".toList = .ok emptyParagraph ∧
    parse "<ul><li>a</li><li>b<i></i></li></ul>".toList = .ok markedItems ∧
    markedItems.copyFrom 7 1 emptyParagraph = emptyParagraph.importNode markedItems 1 ∧
    emptyParagraph.Imports (emptyParagraph.importNode markedItems 1).2 markedItems [2] [1] ∧
    (emptyParagraph.importNode markedItems 1).2.descendants 2 = [3, 4, 5, 6, 7] ∧
    emptyParagraph.Imports (emptyParagraph.importChildren markedItems 1).2 markedItems [2, 4]
      [2, 4] := by
  obtain ⟨steps, whole, items⟩ := importNode_copies
    (show emptyParagraph.WellLinked from .ofForest _) (show markedItems.WellLinked from .ofForest _)
    (show 1 < markedItems.size by decide)
  have copy : (emptyParagraph.importNode markedItems 1).1 = 2 := rfl
  have copies : (emptyParagraph.importChildren markedItems 1).1 = [2, 4] := rfl
  have children : markedItems.children 1 = [2, 4] := rfl
  rw [copy] at whole
  rw [copies, children] at items
  exact ⟨rfl, rfl, (steps 7 (by decide)).1, whole, rfl, items⟩

end Document

end Templates.Markup
