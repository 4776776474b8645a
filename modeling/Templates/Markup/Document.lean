import Templates.Markup.Basic

/-!
Documents that can be edited.

The nodes of a document have numbers, which stay theirs through all edits; the root is node 0. An
edit only changes which node is below which, so a node taken out of the tree can still be asked for.
-/

namespace Templates.Markup

/-- The number of a node. -/
abbrev NodeId := Nat

/-- A node with its links to the one above it and to those right below it. -/
structure Node where
  content : Content
  parent : Option NodeId
  children : List NodeId
deriving DecidableEq, Repr

/-- The nodes of a document by their numbers. -/
structure Document where
  nodes : Array Node
deriving DecidableEq, Repr

namespace Document

/-- A document of nothing but its root. -/
def empty : Document :=
  ⟨#[⟨.fragment, none, []⟩]⟩

/-- The number of the root. -/
def root : NodeId := 0

/-- The number of nodes ever created. -/
def size (d : Document) : Nat :=
  d.nodes.size

/-- What a node is; a number without a node counts as an empty fragment. -/
def content (d : Document) (id : NodeId) : Content :=
  match d.nodes[id]? with
  | some node => node.content
  | none => .fragment

/-- The node above a node. -/
def parent? (d : Document) (id : NodeId) : Option NodeId :=
  d.nodes[id]?.bind Node.parent

/-- The nodes right below a node, in order. -/
def children (d : Document) (id : NodeId) : List NodeId :=
  match d.nodes[id]? with
  | some node => node.children
  | none => []

/-- The element a node is. -/
def element? (d : Document) (id : NodeId) : Option Element :=
  (d.content id).element?

/-- The name of the element a node is. -/
def tagName? (d : Document) (id : NodeId) : Option Text :=
  (d.element? id).map Element.name

/-- Whether a node is an element of a name. -/
def isNamed (d : Document) (name : Text) (id : NodeId) : Bool :=
  (d.element? id).any (Element.isNamed name)

/-- The value of an attribute of the element a node is; without a value it is empty. -/
def attribute? (d : Document) (name : Text) (id : NodeId) : Option Text :=
  ((d.element? id).bind (Element.attribute? name)).map Attribute.text

/-- Whether a node is text of blank characters only. -/
def isBlankText (d : Document) (id : NodeId) : Bool :=
  (d.content id).isBlankText

/-- The nodes right below a node that are not just blank text. -/
def meaningfulChildren (d : Document) (id : NodeId) : List NodeId :=
  (d.children id).filter fun child => !d.isBlankText child

/-- A document with nothing below its root. -/
def isEmpty (d : Document) : Bool :=
  (d.children root).isEmpty

/-- A new node, linked to no other. -/
def create (content : Content) (d : Document) : NodeId × Document :=
  (d.size, ⟨d.nodes.push ⟨content, none, []⟩⟩)

/-- A node becomes something else; its links stay. -/
def setContent (content : Content) (id : NodeId) (d : Document) : Document :=
  ⟨d.nodes.modify id fun node => { node with content := content }⟩

/-- The element a node is changes. -/
def mapElement (f : Element → Element) (id : NodeId) (d : Document) : Document :=
  match d.element? id with
  | some e => d.setContent (.element (f e)) id
  | none => d

/-- An attribute is set on the element a node is. -/
def setAttribute (a : Attribute) (id : NodeId) (d : Document) : Document :=
  d.mapElement (Element.setAttribute a) id

/-- An attribute is removed from the element a node is. -/
def removeAttribute (name : Text) (id : NodeId) (d : Document) : Document :=
  d.mapElement (Element.removeAttribute name) id

/-- The link of a node to the one above it changes. -/
def setParent (parent : Option NodeId) (id : NodeId) (d : Document) : Document :=
  ⟨d.nodes.modify id fun node => { node with parent := parent }⟩

/-- The links of a node to those below it change. -/
def mapChildren (f : List NodeId → List NodeId) (id : NodeId) (d : Document) : Document :=
  ⟨d.nodes.modify id fun node => { node with children := f node.children }⟩

/-- A node leaves its place, with everything below it. -/
def detach (id : NodeId) (d : Document) : Document :=
  match d.parent? id with
  | some parent => (d.setParent none id).mapChildren (·.filter (· ≠ id)) parent
  | none => d

/-- A node moves to the last place below another. -/
def append (parent child : NodeId) (d : Document) : Document :=
  ((d.detach child).setParent (some parent) child).mapChildren (· ++ [child]) parent

/-- A number goes in front of another one in a list, or to the end if that one is not there. -/
def putBefore (reference child : NodeId) : List NodeId → List NodeId
  | [] => [child]
  | id :: rest =>
    if id = reference then child :: id :: rest else id :: putBefore reference child rest

/-- A node moves right in front of another. If it is that other one itself it moves to the last
place among its siblings, and if nothing is above the other one nothing happens. -/
def insertBefore (reference child : NodeId) (d : Document) : Document :=
  match d.parent? reference with
  | some parent =>
    ((d.detach child).setParent (some parent) child).mapChildren (putBefore reference child) parent
  | none => d

/-- Nodes move, in order, to where another one was, which leaves its place. -/
def replaceWith (id : NodeId) (replacements : List NodeId) (d : Document) : Document :=
  (replacements.foldl (fun d replacement => d.insertBefore id replacement) d).detach id

end Document

end Templates.Markup
