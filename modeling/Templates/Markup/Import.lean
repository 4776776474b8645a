import Templates.Markup.Parser
import Templates.Markup.Traversal

/-! Trees become nodes of a document, numbered in the order of their start tags. -/

namespace Templates.Markup

mutual

/-- The number of nodes of a tree. -/
def Tree.size : Tree → Nat
  | .node _ children => sizeAll children + 1

/-- The number of nodes of a forest. -/
def sizeAll : List Tree → Nat
  | [] => 0
  | tree :: rest => tree.size + sizeAll rest

end

/-- The numbers of the topmost nodes of a forest whose nodes are numbered from a first one on. -/
def topIds : NodeId → List Tree → List NodeId
  | _, [] => []
  | first, tree :: rest => first :: topIds (first + tree.size) rest

mutual

/-- The nodes of a tree, numbered from a first one on, with a given node above them. -/
def Tree.nodes (parent : Option NodeId) (first : NodeId) : Tree → List Node
  | .node content children =>
    ⟨content, parent, topIds (first + 1) children⟩ :: nodesAll (some first) (first + 1) children

/-- The nodes of a forest, numbered from a first one on, with a given node above them. -/
def nodesAll (parent : Option NodeId) (first : NodeId) : List Tree → List Node
  | [] => []
  | tree :: rest => tree.nodes parent first ++ nodesAll parent (first + tree.size) rest

end

namespace Document

/-- The document with a forest below its root. -/
def ofForest (forest : List Tree) : Document :=
  ⟨((Tree.node .fragment forest).nodes none root).toArray⟩

/-- The document of a source. -/
def parse (source : Text) : Except MarkupError Document :=
  (Markup.parse source).map ofForest

/-- A copy of a tree, linked to no other node. -/
def importTree (tree : Tree) (d : Document) : NodeId × Document :=
  (d.size, ⟨d.nodes ++ (tree.nodes none d.size).toArray⟩)

/-- Copies of trees, linked to no other nodes. -/
def importTrees : List Tree → Document → List NodeId × Document
  | [], d => ([], d)
  | tree :: rest, d =>
    let (id, d) := d.importTree tree
    let (ids, d) := importTrees rest d
    (id :: ids, d)

/-- A copy of a node of another document with everything below it. -/
def importNode (d other : Document) (id : NodeId) : NodeId × Document :=
  d.importTree (other.tree id)

/-- Copies of the nodes right below a node of another document, with everything below them. -/
def importChildren (d other : Document) (id : NodeId) : List NodeId × Document :=
  d.importTrees (other.tree id).children

end Document

end Templates.Markup
