import Templates.Proofs.Markup.Edit

/-! Trees that become nodes of a document stand in it, under numbers that were free. -/

namespace Templates.Markup

/-- Trees side by side have the nodes of both. -/
theorem sizeAll_append (left right : List Tree) :
    sizeAll (left ++ right) = sizeAll left + sizeAll right := by
  induction left with
  | nil => exact (Nat.zero_add _).symm
  | cons tree left ih => rw [List.cons_append, sizeAll, ih, sizeAll, Nat.add_assoc]

/-- Behind other trees the topmost nodes have later numbers. -/
theorem topIds_append (first : NodeId) (left right : List Tree) :
    topIds first (left ++ right) = topIds first left ++ topIds (first + sizeAll left) right := by
  induction left generalizing first with
  | nil => rfl
  | cons tree left ih =>
    rw [List.cons_append, topIds, ih, topIds, sizeAll, List.cons_append, Nat.add_assoc]

/-- Behind other trees all nodes have later numbers. -/
theorem nodesAll_append (parent : Option NodeId) (first : NodeId) (left right : List Tree) :
    nodesAll parent first (left ++ right) =
      nodesAll parent first left ++ nodesAll parent (first + sizeAll left) right := by
  induction left generalizing first with
  | nil => rfl
  | cons tree left ih =>
    rw [List.cons_append, nodesAll, ih, nodesAll, sizeAll, List.append_assoc, Nat.add_assoc]

namespace Forest

/-- Trees whose nodes are numbered from a first one on. -/
def plant : NodeId → List Tree → Forest
  | _, [] => nil
  | first, .node content children :: rest =>
    cons first content (plant (first + 1) children)
      (plant (first + (Tree.node content children).size) rest)

/-- The numbered trees are the given ones. -/
@[simp] theorem trees_plant (first : NodeId) (trees : List Tree) :
    (plant first trees).trees = trees := by
  fun_induction plant first trees with
  | case1 first => rfl
  | case2 first content children rest ihChildren ihRest =>
    rw [Forest.trees, ihChildren, ihRest]

/-- The topmost nodes are numbered as in the document. -/
@[simp] theorem tops_plant (first : NodeId) (trees : List Tree) :
    (plant first trees).tops = topIds first trees := by
  fun_induction plant first trees with
  | case1 first => rfl
  | case2 first content children rest ihChildren ihRest =>
    rw [tops, ihRest]
    rfl

/-- The nodes are numbered without gaps. -/
theorem ids_plant (first : NodeId) (trees : List Tree) :
    (plant first trees).ids = List.range' first (sizeAll trees) := by
  fun_induction plant first trees with
  | case1 first => rfl
  | case2 first content children rest ihChildren ihRest =>
    -- The first number is that of the first tree, whose children and siblings follow.
    rw [ids, ihChildren, ihRest, sizeAll, Tree.size, ← List.range'_append_1, List.range'_succ]
    rfl

/-- As many nodes are made as the trees have. -/
theorem length_nodesAll (parent : Option NodeId) (first : NodeId) (trees : List Tree) :
    (nodesAll parent first trees).length = sizeAll trees := by
  fun_induction plant first trees generalizing parent with
  | case1 first => rfl
  | case2 first content children rest ihChildren ihRest =>
    rw [nodesAll, Tree.nodes, List.length_append, List.length_cons, ihChildren, ihRest, sizeAll,
      Tree.size]

/-- Numbered trees stand where a document has the nodes that are made of them. -/
theorem plant_stands {d : Document} {parent : Option NodeId} {first : NodeId} {trees : List Tree}
    (there : ∀ i node, (nodesAll parent first trees)[i]? = some node →
      d.nodes[first + i]? = some node) : (plant first trees).Stands d parent := by
  fun_induction plant first trees generalizing parent with
  | case1 first => trivial
  | case2 first content children rest ihChildren ihRest =>
    -- The nodes are that of the first tree, those below it, and those of the other trees.
    have made : nodesAll parent first (.node content children :: rest) =
        ⟨content, parent, topIds (first + 1) children⟩ ::
          (nodesAll (some first) (first + 1) children ++
            nodesAll parent (first + (Tree.node content children).size) rest) := rfl
    rw [made] at there
    refine ⟨?_, ihChildren fun i node listed => ?_, ihRest fun i node listed => ?_⟩
    · rw [tops_plant]
      exact there 0 _ rfl
    · have bound := (List.getElem?_eq_some_iff.mp listed).1
      have later := there (i + 1) node (by
        rw [List.getElem?_cons_succ, List.getElem?_append_left bound, listed])
      rwa [Nat.add_comm i 1, ← Nat.add_assoc first] at later
    · have past : (nodesAll (some first) (first + 1) children).length ≤ sizeAll children + i := by
        rw [length_nodesAll]
        omega
      have later := there (sizeAll children + 1 + i) node (by
        rw [show sizeAll children + 1 + i = sizeAll children + i + 1 by omega,
          List.getElem?_cons_succ, List.getElem?_append_right past,
          length_nodesAll, show sizeAll children + i - sizeAll children = i by omega, listed])
      rwa [← Nat.add_assoc first] at later

end Forest

namespace Document

/-- A document made of trees has them below its root. -/
theorem shows_ofForest (trees : List Tree) : (ofForest trees).Shows (Forest.plant 1 trees) where
  linked := by
    rw [Forest.tops_plant]
    rfl
  stands := by
    -- The root is the first node, and those of the trees come behind it.
    refine Forest.plant_stands fun i node listed => ?_
    show ((⟨.fragment, none, topIds 1 trees⟩ :: nodesAll (some root) 1 trees).toArray)[1 + i]? = _
    rw [List.getElem?_toArray, Nat.add_comm, List.getElem?_cons_succ]
    exact listed
  distinct := by
    rw [Forest.ids_plant, List.nodup_cons]
    refine ⟨?_, List.nodup_range'⟩
    rw [List.mem_range'_1]
    simp [root]

/-- A document that is read from a source is made of the trees that are read. -/
theorem exists_of_parse {source : Text} {d : Document} (read : parse source = .ok d) :
    ∃ trees, Markup.parse source = .ok trees ∧ d = ofForest trees := by
  cases parsed : Markup.parse source with
  | error e =>
    rw [parse, parsed] at read
    cases read
  | ok trees =>
    rw [parse, parsed] at read
    cases read
    exact ⟨trees, rfl, rfl⟩

/-- A document that is read from a source is the tree of its nodes. -/
theorem shows_of_parse {source : Text} {d : Document} (read : parse source = .ok d) :
    ∃ forest, d.Shows forest := by
  -- The trees that are read are given numbers one after the other.
  obtain ⟨trees, -, rfl⟩ := exists_of_parse read
  exact ⟨_, shows_ofForest trees⟩

/-- A document with trees behind its nodes, below one of them or below none, which has not got them
as its children yet. -/
def withTrees (parent : Option NodeId) (trees : List Tree) (d : Document) : Document :=
  ⟨d.nodes ++ (nodesAll parent d.size trees).toArray⟩

/-- As many nodes are added as the trees have. -/
@[simp] theorem size_withTrees (parent : Option NodeId) (trees : List Tree) (d : Document) :
    (d.withTrees parent trees).size = d.size + sizeAll trees := by
  have added : (nodesAll parent d.size trees).toArray.size = sizeAll trees := by
    rw [List.size_toArray, Forest.length_nodesAll]
  rw [withTrees, size, Array.size_append, added]
  rfl

/-- The nodes that have been there stay as they are. -/
theorem getElem?_withTrees_of_lt (parent : Option NodeId) (trees : List Tree) {d : Document}
    {id : NodeId} (old : id < d.size) : (d.withTrees parent trees).nodes[id]? = d.nodes[id]? :=
  Array.getElem?_append_left old

/-- The new nodes come behind them. -/
theorem getElem?_withTrees_of_le (parent : Option NodeId) (trees : List Tree) {d : Document}
    {id : NodeId} (new : d.size ≤ id) :
    (d.withTrees parent trees).nodes[id]? = (nodesAll parent d.size trees)[id - d.size]? := by
  rw [withTrees, Array.getElem?_append_right new, List.getElem?_toArray]
  rfl

/-- Trees that have been added stand in the document. -/
theorem stands_withTrees (parent : Option NodeId) (trees : List Tree) (d : Document) :
    (Forest.plant d.size trees).Stands (d.withTrees parent trees) parent := by
  refine Forest.plant_stands fun i node listed => ?_
  rw [getElem?_withTrees_of_le _ _ (Nat.le_add_right _ _), Nat.add_sub_cancel_left]
  exact listed

/-- Trees are added behind others. -/
theorem withTrees_append (parent : Option NodeId) (first second : List Tree) (d : Document) :
    (d.withTrees parent first).withTrees parent second = d.withTrees parent (first ++ second) := by
  rw [withTrees, size_withTrees]
  simp only [withTrees, nodesAll_append]
  rw [← List.append_toArray, Array.append_assoc]

/-- A copy of a tree is one tree more. -/
theorem importTree_eq (tree : Tree) (d : Document) :
    d.importTree tree = (d.size, d.withTrees none [tree]) := by
  simp [importTree, withTrees, nodesAll]

/-- Copies of trees are so many trees more. -/
theorem importTrees_eq (trees : List Tree) (d : Document) :
    d.importTrees trees = (topIds d.size trees, d.withTrees none trees) := by
  induction trees generalizing d with
  | nil => simp [importTrees, topIds, withTrees, nodesAll]
  | cons tree trees ih =>
    have size : (d.withTrees none [tree]).size = d.size + tree.size := by simp [sizeAll]
    rw [importTrees, importTree_eq]
    dsimp only
    rw [ih, withTrees_append, size]
    rfl

/-- A copy of a tree stands in the document without a place, and all other nodes stay. -/
theorem importTree_stands (tree : Tree) (d : Document) :
    (Forest.plant d.size [tree]).Stands (d.importTree tree).2 none ∧
      (d.importTree tree).2.size = d.size + tree.size ∧
      ∀ id < d.size, (d.importTree tree).2.nodes[id]? = d.nodes[id]? := by
  rw [importTree_eq]
  refine ⟨stands_withTrees none [tree] d, ?_, fun id => getElem?_withTrees_of_lt none [tree]⟩
  rw [size_withTrees]
  simp [sizeAll]

/-- Copies of trees stand in the document without a place, under new numbers, and all other nodes
stay as they are. -/
theorem importTrees_stands (trees : List Tree) (d : Document) :
    ∃ new : Forest, (d.importTrees trees).1 = new.tops ∧ new.trees = trees ∧
      new.Stands (d.importTrees trees).2 none ∧ new.ids.Nodup ∧ (∀ id ∈ new.ids, d.size ≤ id) ∧
      d.size ≤ (d.importTrees trees).2.size ∧
      ∀ id < d.size, (d.importTrees trees).2.nodes[id]? = d.nodes[id]? := by
  rw [importTrees_eq]
  refine ⟨.plant d.size trees, (Forest.tops_plant _ _).symm, Forest.trees_plant _ _,
    stands_withTrees none trees d, ?_, fun id listed => ?_, ?_,
    fun id => getElem?_withTrees_of_lt none trees⟩
  · rw [Forest.ids_plant]
    exact List.nodup_range'
  · rw [Forest.ids_plant] at listed
    exact (List.mem_range'_1.mp listed).1
  · rw [size_withTrees]
    exact Nat.le_add_right _ _

end Document

end Templates.Markup
