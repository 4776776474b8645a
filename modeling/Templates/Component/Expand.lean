import Templates.Component.Slot
import Templates.Component.Url
import Templates.Error

/-!
Custom tags give way to the markup of their components.

Each pass looks at the tags that are in the document when it starts. Tags that come in with the
markup of a component, or stand inside a tag that gives way, are left to the next pass.
-/

namespace Templates

open Markup

/-- A use of a component: its tag without the common beginning, and the attributes. -/
structure Call where
  tag : Text
  attributes : List (Text × Text)
deriving DecidableEq, Repr

/-- The markup of a component, and the names of attributes that stay out of it. -/
structure Rendered where
  html : Text
  hidden : List Text
deriving DecidableEq, Repr

/-- Steps that keep a state up to date and may fail; what was changed before a failure stays so. -/
abbrev Session (σ : Type) := ExceptT Error (StateM σ)

/-- How the uses of components are answered. -/
abbrev ComponentRenderer (σ : Type) := Call → Session σ Rendered

/-- Custom tags: what their names begin with, and how many passes may be needed. -/
structure Expander where
  tagPrefix : Text
  maxDepth : Nat
deriving DecidableEq, Repr

namespace Expander

variable {σ : Type}

/-- An expander for tags that begin with a word, which may not be blank; its case does not count. -/
def create (word : Text) (maxDepth : Nat) : Except Error Expander :=
  match Text.asciiLower (Text.trim word) with
  | [] => .error (.blankArgument .componentPrefix)
  | word => .ok ⟨word, maxDepth⟩

/-- What the names of custom tags begin with. -/
def start (expander : Expander) : Text :=
  expander.tagPrefix ++ ['-']

/-- A comment that holds a custom tag. -/
def commentedRule (expander : Expander) : Text.Rule Unit := fun text => do
  let inner ← Text.strip? "<!--" text
  let rest ← Text.stripCaseless? ('<' :: expander.start) (Text.trimStart inner)
  let (_, after) ← Text.cut? "-->" rest
  return ((), after)

/-- The beginning of a custom tag. -/
def liveRule (expander : Expander) : Text.Rule Unit := fun text =>
  (Text.stripCaseless? ('<' :: expander.start) text).map fun after => ((), after)

/-- A source whose commented tags can no longer be taken for tags. -/
def withoutCommented (expander : Expander) (source : Text) : Text :=
  Text.replaceHits (fun () => "<!-- commented component -->")
    (Text.scan expander.commentedRule source)

/-- Whether a source may hold custom tags. -/
def isLive (expander : Expander) (source : Text) : Bool :=
  !(Text.hits (Text.scan expander.liveRule source)).isEmpty

/-- Whether an element is a custom tag. -/
def isCustom (expander : Expander) (e : Element) : Bool :=
  Text.startsWith expander.start (Text.asciiLower e.name)

/-- The use of a component that an element is. -/
def callOf (expander : Expander) (e : Element) : Call :=
  let name := Text.asciiLower e.name
  ⟨(Text.strip? expander.start name).getD name, e.attributes.map fun a => (a.name, a.text)⟩

/-- The document of a source, as a step of a session. -/
def parsing (source : Text) : Session σ Document :=
  match Document.parse source with
  | .ok d => return d
  | .error e => throw (.markup e)

/-- The markup of a component with the attributes and children of its tag. -/
def fragmentOf (page : Document) (tag : NodeId) (attributes : List Attribute) (hidden : List Text)
    (fragment : Document) : Document :=
  let (target, fragment) := Slot.attributeTarget fragment
  let fragment := match target with
    | some target => Slot.copyAttributes target attributes hidden fragment
    | none => fragment
  Slot.bindChildren page tag target fragment

/-- A tag gives way to the markup of its component, whose topmost nodes are told. -/
def expandTag (expander : Expander) (renderer : ComponentRenderer σ) (tag : NodeId)
    (page : Document) : Session σ (List NodeId × Document) :=
  match page.element? tag with
  | none => return ([], page)
  | some e => do
    let rendered ← renderer (expander.callOf e)
    let fragment ← parsing rendered.html
    let fragment := fragmentOf page tag e.attributes rendered.hidden fragment
    let (ids, page) := page.importChildren fragment Document.root
    return (ids, page.replaceWith tag ids)

/-- Tags give way in order, as far as they are still in the document. -/
def expandTags (expander : Expander) (renderer : ComponentRenderer σ) :
    List NodeId → List NodeId → Document → Session σ (List NodeId × Document)
  | [], produced, page => return (produced, page)
  | tag :: rest, produced, page =>
    if page.isAttached tag then do
      let (ids, page) ← expander.expandTag renderer tag page
      expandTags expander renderer rest (produced ++ ids) page
    else expandTags expander renderer rest produced page

/-- Passes until no custom tag is left, at most as many as the first number says. -/
def passes (expander : Expander) (renderer : ComponentRenderer σ) :
    Nat → List NodeId → Document → Session σ (List NodeId × Document)
  | count, produced, page =>
    match page.findElements expander.isCustom, count with
    | [], _ => return (produced, page)
    | _, 0 => throw (.tooDeep .expansion expander.maxDepth)
    | tags, count + 1 => do
      let (produced, page) ← expander.expandTags renderer tags produced page
      passes expander renderer count produced page

/-- A source with all its custom tags expanded; without any it stays as it is. -/
def expand (expander : Expander) (renderer : ComponentRenderer σ) (source : Text) :
    Session σ Text :=
  let source := expander.withoutCommented source
  if expander.isLive source then do
    let page ← parsing source
    let (produced, page) ← expander.passes renderer expander.maxDepth [] page
    return (page.decodeUrls produced).markup
  else return source

end Expander

end Templates
