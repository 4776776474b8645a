import Templates.Markup.Import
import Templates.Text.Search

/-!
The attributes and children of a calling tag go into the markup that takes its place.

Attributes go to the one element at its top. Children go into the slots that ask for their names, or
without slots behind everything else.
-/

namespace Templates.Slot

open Markup

/-- The element that attributes go to, if one stands alone at the top; a template around it is taken
away first. -/
def attributeTarget (fragment : Document) : Option NodeId × Document :=
  match fragment.meaningfulChildren Document.root with
  | [only] =>
    if fragment.isNamed "template" only then
      let inner := fragment.meaningfulChildren only
      let unwrapped := fragment.replaceWith only (fragment.children only)
      match inner with
      | [single] => (if (unwrapped.element? single).isSome then some single else none, unwrapped)
      | _ => (none, unwrapped)
    else (if (fragment.element? only).isSome then some only else none, fragment)
  | _ => (none, fragment)

/-- Attributes are set on an element, except for hidden ones. -/
def copyAttributes (target : NodeId) (attributes : List Attribute) (hidden : List Text)
    (fragment : Document) : Document :=
  attributes.foldl (fun fragment a =>
    if hidden.any fun name => Text.sameName name a.name then fragment
    else fragment.setAttribute a target) fragment

/-- Copies of children with the name of the slot they are for, in the order of their first names. -/
abbrev Groups := List (Text × List NodeId)

/-- A copy joins the others for its slot. -/
def group (name : Text) (id : NodeId) : Groups → Groups
  | [] => [(name, [id])]
  | (other, ids) :: rest =>
    if other = name then (other, ids ++ [id]) :: rest else (other, ids) :: group name id rest

/-- The name of the slot an element is for. -/
def slotOf (page : Document) (id : NodeId) : Text :=
  (page.attribute? "slot" id).getD []

/-- Nodes of the page that are all for one slot are copied. -/
def copyFor (page : Document) (name : Text) :
    List NodeId → Groups → Document → Groups × Document
  | [], groups, fragment => (groups, fragment)
  | id :: rest, groups, fragment =>
    let (copy, fragment) := fragment.importNode page id
    copyFor page name rest (group name copy groups) fragment

/-- The children of a calling tag are copied. A template among them stands for its own children, and
an element loses the attribute that names its slot. -/
def copyChildren (page : Document) : List NodeId → Groups → Document → Groups × Document
  | [], groups, fragment => (groups, fragment)
  | child :: rest, groups, fragment =>
    if page.isNamed "template" child then
      let (groups, fragment) :=
        copyFor page (slotOf page child) (page.meaningfulChildren child) groups fragment
      copyChildren page rest groups fragment
    else if (page.element? child).isSome then
      let (copy, fragment) := fragment.importNode page child
      copyChildren page rest (group (slotOf page child) copy groups)
        (fragment.removeAttribute "slot" copy)
    else
      let (copy, fragment) := fragment.importNode page child
      copyChildren page rest (group [] copy groups) fragment

/-- A placeholder and whether it has been filled. -/
abbrev Placeholder := NodeId × Bool

/-- The first unfilled placeholder of a name is filled; if there is none the copies stay out. -/
def fillFirst (name : Text) (ids : List NodeId) :
    List Placeholder → Document → List Placeholder × Document
  | [], fragment => ([], fragment)
  | (slot, filled) :: rest, fragment =>
    if !filled && (fragment.attribute? "name" slot).getD [] = name then
      ((slot, true) :: rest, fragment.replaceWith slot ids)
    else
      let (rest, fragment) := fillFirst name ids rest fragment
      ((slot, filled) :: rest, fragment)

/-- All groups are put into their placeholders. -/
def fillAll : Groups → List Placeholder → Document → List Placeholder × Document
  | [], slots, fragment => (slots, fragment)
  | (name, ids) :: rest, slots, fragment =>
    let (slots, fragment) := fillFirst name ids slots fragment
    fillAll rest slots fragment

/-- The text of a comment that stands for markup; it holds no two hyphens in a row. -/
def commentText (markup : Text) : Text :=
  Text.replace "--" "-&#45;" markup

/-- Placeholders that were not filled and are still in the tree become comments. -/
def commentOut : List Placeholder → Document → Document
  | [], fragment => fragment
  | (slot, filled) :: rest, fragment =>
    if filled || !fragment.isAttached slot then commentOut rest fragment
    else
      let (comment, noted) := fragment.create (.comment (commentText (fragment.outer slot)))
      commentOut rest (noted.replaceWith slot [comment])

/-- The children of a calling tag go into a fragment. -/
def bindChildren (page : Document) (tag : NodeId) (target : Option NodeId) (fragment : Document) :
    Document :=
  let (groups, fragment) := copyChildren page (page.meaningfulChildren tag) [] fragment
  match fragment.findElements (Element.isNamed "slot") with
  | [] =>
    let firstElement := (fragment.children Document.root).find? fun id =>
      (fragment.element? id).isSome
    let parent := (target.or firstElement).getD Document.root
    (groups.flatMap Prod.snd).foldl (fun fragment id => fragment.append parent id) fragment
  | slots =>
    let (slots, fragment) := fillAll groups (slots.map fun slot => (slot, false)) fragment
    commentOut slots fragment

end Templates.Slot
