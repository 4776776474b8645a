import Templates.Markup.Traversal
import Templates.Text.Bytes
import Templates.Text.Entities

/-! Attributes that hold addresses are written without escapes of any kind. -/

namespace Templates

namespace Url

/-- The attributes that hold addresses. -/
def attributeNames : List Text :=
  ["href".toList, "src".toList, "link".toList, "action".toList, "background".toList,
    "cite".toList, "data".toList, "formaction".toList, "icon".toList, "longdesc".toList,
    "manifest".toList, "poster".toList, "srcset".toList]

/-- Whether attributes of a name hold addresses. -/
def isAttribute (name : Text) : Bool :=
  attributeNames.any fun other => Text.sameName other name

/-- An address without percent signs and then without entities. -/
def decode (address : Text) : Text :=
  Text.unescape (Text.unpercent address)

/-- An attribute whose value is decoded if it is an address. -/
def decodeAttribute (a : Markup.Attribute) : Markup.Attribute :=
  if isAttribute a.name then { a with value := a.value.map decode } else a

/-- An element whose addresses are decoded. -/
def decodeElement (e : Markup.Element) : Markup.Element :=
  { e with attributes := e.attributes.map decodeAttribute }

end Url

namespace Markup.Document

/-- Nodes that have not been seen before are decoded, each once. -/
def decodeNodes : List NodeId → List NodeId → Document → List NodeId × Document
  | seen, [], d => (seen, d)
  | seen, id :: rest, d =>
    if seen.contains id then decodeNodes seen rest d
    else decodeNodes (id :: seen) rest (d.mapElement Url.decodeElement id)

/-- Addresses in the subtrees of the roots that are in the tree are decoded. -/
def decodeBelow : List NodeId → List NodeId → Document → Document
  | _, [], d => d
  | seen, root :: rest, d =>
    if d.isAttached root then
      let (seen, d) := decodeNodes seen (root :: d.descendants root) d
      decodeBelow seen rest d
    else decodeBelow seen rest d

/-- Addresses in the subtrees of the roots are decoded, once however often a node lies below one. -/
def decodeUrls (roots : List NodeId) (d : Document) : Document :=
  decodeBelow [] roots d

end Markup.Document

end Templates
