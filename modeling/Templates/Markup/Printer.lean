import Templates.Markup.Basic
import Templates.Text.Search

/-! Trees are written with the quotes and self-closing tags that they remember. -/

namespace Templates.Markup

/-- A value in double quotes. -/
def writeDouble (value : Text) : Text :=
  '"' :: Text.replace "\"" "&quot;" value ++ ['"']

/-- A value as it is quoted; one without quotes gets them where it would be misread. -/
def writeValue : Quote → Text → Text
  | .double, value => writeDouble value
  | .single, value => '\'' :: Text.replace "'" "&#39;" value ++ ['\'']
  | .bare, value =>
    if value.isEmpty || value.any (fun c => Text.isBlank c || c = '"') then writeDouble value
    else value

/-- An attribute with the blank in front of it. -/
def writeAttribute (a : Attribute) : Text :=
  ' ' :: a.name ++
    match a.value with
    | none => []
    | some value => '=' :: writeValue a.quote value

/-- A start tag up to its closing bracket. -/
def writeStart (e : Element) : Text :=
  '<' :: e.name ++ e.attributes.flatMap writeAttribute

mutual

/-- A tree as markup. Elements without children end early if their tag does, and void ones have no
end tag then. -/
def write : Tree → Text
  | .node .fragment children => writeAll children
  | .node (.text text) _ => text
  | .node (.comment text) _ => "<!--".toList ++ text ++ "-->".toList
  | .node (.doctype text) _ => "<!".toList ++ text ++ ['>']
  | .node (.element e) children =>
    if e.selfClosing && children.isEmpty then writeStart e ++ "/>".toList
    else if isVoid e.name && children.isEmpty then writeStart e ++ ['>']
    else writeStart e ++ '>' :: writeAll children ++ "</".toList ++ e.name ++ ['>']

/-- A forest as markup. -/
def writeAll : List Tree → Text
  | [] => []
  | tree :: rest => write tree ++ writeAll rest

end

end Templates.Markup
