import Templates.Markup.Document
import Templates.Markup.Printer

/-!
Walks through documents. Each is bounded by the number of nodes, which no walk through a tree
exceeds.
-/

namespace Templates.Markup.Document

/-- Nodes still to visit, each followed by those below it before the next one. -/
def visit (d : Document) : Nat → List NodeId → List NodeId
  | 0, _ => []
  | _, [] => []
  | fuel + 1, id :: pending => id :: visit d fuel (d.children id ++ pending)

/-- The nodes below a node, each in front of those below it. -/
def descendants (d : Document) (id : NodeId) : List NodeId :=
  d.visit d.size (d.children id)

/-- Whether the way up from a node ends at the root. -/
def climbs (d : Document) : Nat → NodeId → Bool
  | 0, _ => false
  | fuel + 1, id =>
    id = root ||
      match d.parent? id with
      | some parent => climbs d fuel parent
      | none => false

/-- Whether a node is in the tree. -/
def isAttached (d : Document) (id : NodeId) : Bool :=
  d.climbs (d.size + 1) id

/-- Whether a node is another one or below it. -/
def isWithin (d : Document) (top : NodeId) : Nat → NodeId → Bool
  | 0, _ => false
  | fuel + 1, id =>
    id = top ||
      match d.parent? id with
      | some parent => isWithin d top fuel parent
      | none => false

/-- The elements in the tree that satisfy a condition, in the order of their start tags. -/
def findElements (d : Document) (condition : Element → Bool) : List NodeId :=
  (d.descendants root).filter fun id => (d.element? id).any condition

/-- The text a node is. -/
def ownText (d : Document) (id : NodeId) : Text :=
  match d.content id with
  | .text text => text
  | _ => []

/-- All text of a node and of those below it. -/
def text (d : Document) (id : NodeId) : Text :=
  d.ownText id ++ (d.descendants id).flatMap d.ownText

/-- A node with everything below it as a tree; the first argument bounds its depth. -/
def treeTo (d : Document) : Nat → NodeId → Tree
  | 0, id => .node (d.content id) []
  | fuel + 1, id => .node (d.content id) ((d.children id).map (treeTo d fuel))

/-- A node with everything below it as a tree. -/
def tree (d : Document) (id : NodeId) : Tree :=
  d.treeTo d.size id

/-- The markup of a node. -/
def outer (d : Document) (id : NodeId) : Text :=
  write (d.tree id)

/-- The markup of what is below a node. -/
def inner (d : Document) (id : NodeId) : Text :=
  writeAll (d.tree id).children

/-- The markup of a document. -/
def markup (d : Document) : Text :=
  d.inner root

end Templates.Markup.Document
