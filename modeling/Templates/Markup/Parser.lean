import Templates.Markup.Token

/-!
Tokens are gathered into trees.

An end tag closes the innermost open element of its name and all inside that; one without such an
element is dropped. What is open at the end closes there.
-/

namespace Templates.Markup

/-- A place in a forest under construction: the finished trees in the innermost open element, and
the open elements from the inside out, each with the finished trees in front of it. All lists of
trees have the last one first. -/
structure Growth where
  inner : List Tree
  opened : List (Element × List Tree)
deriving Repr

namespace Growth

/-- A finished tree. -/
def add (tree : Tree) (growth : Growth) : Growth :=
  { growth with inner := tree :: growth.inner }

/-- Text joins a text right in front of it. -/
def addText (text : Text) (growth : Growth) : Growth :=
  match text, growth.inner with
  | [], _ => growth
  | _, .node (.text front) children :: rest =>
    { growth with inner := .node (.text (front ++ text)) children :: rest }
  | _, _ => growth.add (.node (.text text) [])

/-- An element opens. -/
def enter (element : Element) (growth : Growth) : Growth :=
  ⟨[], (element, growth.inner) :: growth.opened⟩

/-- The innermost open elements close, as many as the given number says. -/
def close : Nat → Growth → Growth
  | n + 1, ⟨inner, (element, front) :: opened⟩ =>
    close n ⟨.node (.element element) inner.reverse :: front, opened⟩
  | _, growth => growth

/-- An end tag. -/
def endTag (name : Text) (growth : Growth) : Growth :=
  match growth.opened.findIdx? fun (element, _) => element.isNamed name with
  | some depth => growth.close (depth + 1)
  | none => growth

/-- One token further. -/
def step (growth : Growth) : Token → Growth
  | .text text => growth.addText text
  | .comment text => growth.add (.node (.comment text) [])
  | .doctype text => growth.add (.node (.doctype text) [])
  | .endTag name => growth.endTag name
  | .startTag element (some []) => growth.add (.node (.element element) [])
  | .startTag element (some content) =>
    growth.add (.node (.element element) [.node (.text content) []])
  | .startTag element none =>
    if element.selfClosing || isVoid element.name then growth.add (.node (.element element) [])
    else growth.enter element

/-- All that grew, with every open element closed. -/
def finish (growth : Growth) : List Tree :=
  (growth.close growth.opened.length).inner.reverse

end Growth

/-- The forest that tokens make. -/
def forestOf (tokens : List Token) : List Tree :=
  (tokens.foldl Growth.step ⟨[], []⟩).finish

/-- The forest of a source. -/
def parse (source : Text) : Except MarkupError (List Tree) :=
  (tokens source).map forestOf

end Templates.Markup
