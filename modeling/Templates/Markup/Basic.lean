import Templates.Text.Blank
import Templates.Text.Case

/-! Markup is a forest of elements, texts, comments and doctypes. -/

namespace Templates.Markup

/-- How the value of an attribute is quoted. -/
inductive Quote where
  | double
  | single
  | bare
deriving DecidableEq, Repr

/-- An attribute; its value is kept as written. -/
structure Attribute where
  name : Text
  value : Option Text
  quote : Quote
deriving DecidableEq, Repr

/-- The tag of an element; `selfClosing` says that the tag ends in a slash. -/
structure Element where
  name : Text
  attributes : List Attribute
  selfClosing : Bool
deriving DecidableEq, Repr

/-- What a node is, apart from its place among others. -/
inductive Content where
  | fragment
  | element (element : Element)
  | text (text : Text)
  | comment (text : Text)
  | doctype (text : Text)
deriving DecidableEq, Repr

/-- A node with everything below it. -/
inductive Tree where
  | node (content : Content) (children : List Tree)
deriving Repr

namespace Attribute

/-- An attribute with a value in double quotes. -/
def valued (name value : Text) : Attribute :=
  ⟨name, some value, .double⟩

/-- An attribute without a value. -/
def boolean (name : Text) : Attribute :=
  ⟨name, none, .bare⟩

/-- The value, which is empty if there is none. -/
def text (a : Attribute) : Text :=
  a.value.getD []

end Attribute

namespace Element

/-- The first attribute of a name, in letters of any case. -/
def attribute? (name : Text) (e : Element) : Option Attribute :=
  e.attributes.find? fun a => Text.sameName a.name name

/-- Whether an element has an attribute of a name. -/
def hasAttribute (name : Text) (e : Element) : Bool :=
  (e.attribute? name).isSome

/-- An attribute takes the place of the first one of its name, or else comes last. -/
def putAttribute (a : Attribute) : List Attribute → List Attribute
  | [] => [a]
  | old :: rest => if Text.sameName old.name a.name then a :: rest else old :: putAttribute a rest

/-- The element with an attribute set. -/
def setAttribute (a : Attribute) (e : Element) : Element :=
  { e with attributes := putAttribute a e.attributes }

/-- The element without its first attribute of a name. -/
def removeAttribute (name : Text) (e : Element) : Element :=
  { e with attributes := e.attributes.eraseP fun a => Text.sameName a.name name }

/-- Whether an element has a name, in letters of any case. -/
def isNamed (name : Text) (e : Element) : Bool :=
  Text.sameName e.name name

end Element

/-- The elements that never have content. -/
def voidNames : List Text :=
  ["area".toList, "base".toList, "br".toList, "col".toList, "embed".toList, "hr".toList,
    "img".toList, "input".toList, "link".toList, "meta".toList, "param".toList, "source".toList,
    "track".toList, "wbr".toList]

/-- The elements whose content is text up to their end tag. -/
def rawNames : List Text :=
  ["script".toList, "style".toList, "textarea".toList, "title".toList]

/-- Whether elements of a name never have content. -/
def isVoid (name : Text) : Bool :=
  voidNames.any fun v => Text.sameName v name

/-- Whether the content of elements of a name is text up to their end tag. -/
def isRaw (name : Text) : Bool :=
  rawNames.any fun r => Text.sameName r name

/-- The element a content is. -/
def Content.element? : Content → Option Element
  | .element e => some e
  | _ => none

/-- Text of blank characters only. -/
def Content.isBlankText : Content → Bool
  | .text t => Text.isAllBlank t
  | _ => false

namespace Tree

/-- The content of the topmost node. -/
def content : Tree → Content
  | .node content _ => content

/-- The trees right below the topmost node. -/
def children : Tree → List Tree
  | .node _ children => children

end Tree

end Templates.Markup
