import Templates.Text.Blank
import Templates.Text.Search

/-! Expressions in braces are rewritten to statement tags that write their values. -/

namespace Templates.Echo

open Text

/-- An expression in braces, without the blanks around it. -/
structure Braced where
  expression : Text
  raw : Text
deriving DecidableEq, Repr

/-- The text between two marks, without the blanks around it, and all that was read. -/
def rule (opening closing : Text) : Rule Braced := fun text =>
  match strip? opening text with
  | none => none
  | some inner =>
    (cut? closing (trimStart inner)).map fun (body, after) =>
      (⟨trimEnd body, text.take (text.length - after.length)⟩, after)

/-- The tag for an expression; braces around nothing stay as they are. -/
def write (tag : Text) (braced : Braced) : Text :=
  if braced.expression.isEmpty then braced.raw
  else tag ++ ' ' :: braced.expression ++ " %>".toList

/-- Expressions that are written as they are. -/
def compileRaw (source : Text) : Text :=
  replaceHits (write "<%-") (scan (rule "\x7b!!" "!!\x7d") source)

/-- Expressions that are written so that they have no meaning in markup. -/
def compileEscaped (source : Text) : Text :=
  replaceHits (write "<%=") (scan (rule "\x7b\x7b" "\x7d\x7d") source)

/-- A source with all expressions in braces rewritten. -/
def compile (source : Text) : Text :=
  compileEscaped (compileRaw source)

end Templates.Echo
