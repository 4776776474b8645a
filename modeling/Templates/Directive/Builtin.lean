import Templates.Directive.Basic
import Templates.Text.Blank

/-! The directives every engine starts with; they stand for statement tags. -/

namespace Templates.Directive

/-- The expression a directive cannot do without. -/
def required (name : Text) (expression : Option Text) : Except Text Text :=
  match Text.trim (expression.getD []) with
  | [] => .error ("`@".toList ++ name ++ "` needs an expression".toList)
  | e => .ok e

/-- A statement tag. -/
def tag (parts : List Text) : Text :=
  "<% ".toList ++ List.intercalate [' '] parts ++ " %>".toList

/-- A block between two tags, the first of which has the expression. -/
def tagged (name : String) : Directive where
  name := name.toList
  kind := .block
  handler := fun expression body => do
    let e ← required name.toList expression
    return tag [name.toList, e] ++ body.getD [] ++ tag ["end".toList ++ name.toList]

/-- A tag with an expression. -/
def statement (name : String) : Directive where
  name := name.toList
  kind := .single
  handler := fun expression _ => do
    let e ← required name.toList expression
    return tag [name.toList, e]

/-- A tag by itself. -/
def word (name : String) : Directive where
  name := name.toList
  kind := .bare
  handler := fun _ _ => .ok (tag [name.toList])

/-- A block for when a condition fails. -/
def unlessBlock : Directive where
  name := "unless"
  kind := .block
  handler := fun expression body => do
    let e ← required "unless" expression
    return tag ["if".toList, "!(".toList ++ e ++ [')']] ++ body.getD [] ++ tag ["endif".toList]

/-- A block that runs once before its condition is looked at. -/
def doWhileBlock : Directive where
  name := "do-while"
  kind := .block
  handler := fun expression body => do
    let e ← required "do-while" expression
    return tag ["do".toList] ++ body.getD [] ++ tag ["dowhile".toList, e]

/-- A text without quotes at its ends. -/
def unquoted (text : Text) : Text :=
  let isQuote (c : Char) : Bool := c = '\'' || c = '"'
  ((text.dropWhile isQuote).reverse.dropWhile isQuote).reverse

/-- A script to be loaded by the page. -/
def script : Directive where
  name := "script"
  kind := .single
  handler := fun expression _ =>
    match unquoted (Text.trim (expression.getD [])) with
    | [] => .error "Missing script source".toList
    | source => .ok ("<script src='".toList ++ source ++ "'></script>".toList)

/-- All of them. -/
def builtins : Directives :=
  Fields.ofList <|
    ([tagged "if", tagged "switch", tagged "foreach", tagged "for", tagged "while",
      unlessBlock, doWhileBlock, statement "elseif", statement "case", statement "set", word "else",
      word "default", word "break", script]).map fun directive => (directive.name, directive)

end Templates.Directive
