import Templates.Program.Render
import Templates.Proofs.Engine.Expression

/-!
Every text can be written as a literal, in quotes of either kind.

Main statement: the literal of a text is read as that text, and a tag with the literal writes the
text, whatever characters stand in it.
-/

namespace Templates

namespace Literal

/-- A text as it stands between quotes: backslashes and quotes of the same kind have a backslash in
front of them. -/
def escaped (quote : Char) : Text → Text
  | [] => []
  | c :: rest =>
    if c = '\\' ∨ c = quote then '\\' :: c :: escaped quote rest else c :: escaped quote rest

/-- The literal of a text. -/
def quoted (quote : Char) (text : Text) : Text :=
  quote :: (escaped quote text ++ [quote])

variable {quote : Char}

/-- A character that needs a backslash has one in front of it. -/
theorem escaped_special {c : Char} (special : c = '\\' ∨ c = quote) (rest : Text) :
    escaped quote (c :: rest) = '\\' :: c :: escaped quote rest :=
  if_pos special

/-- All other characters stand for themselves. -/
theorem escaped_plain {c : Char} (plain : ¬(c = '\\' ∨ c = quote)) (rest : Text) :
    escaped quote (c :: rest) = c :: escaped quote rest :=
  if_neg plain

/-- A character other than a backslash stands for itself. -/
theorem unescape_plain {c : Char} (noEscape : c ≠ '\\') (rest : Text) :
    unescape (c :: rest) = c :: unescape rest := by
  -- All other equations ask for a backslash.
  rw [unescape]
  all_goals
    intros
    contradiction

/-- Behind a backslash, backslashes and quotes stand for themselves. -/
theorem unescape_special (isQuote : IsQuote quote) {c : Char} (special : c = '\\' ∨ c = quote)
    (rest : Text) : unescape ('\\' :: c :: rest) = c :: unescape rest := by
  -- None of them is a letter that stands for a blank.
  rcases special with rfl | rfl
  · rfl
  · rcases isQuote with rfl | rfl <;> rfl

/-- What is written between quotes stands for the text it was written from. -/
theorem unescape_escaped (isQuote : IsQuote quote) (text : Text) :
    unescape (escaped quote text) = text := by
  induction text with
  | nil => rfl
  | cons c rest ih =>
    by_cases special : c = '\\' ∨ c = quote
    · rw [escaped_special special, unescape_special isQuote special, ih]
    · have noEscape : c ≠ '\\' := fun same => special (.inl same)
      rw [escaped_plain special, unescape_plain noEscape, ih]

/-- A literal stands for the text that it was written from. -/
theorem string_quoted (isQuote : IsQuote quote) (text : Text) :
    string (quoted quote text) = text := by
  have inside : ((quoted quote text).drop 1).dropLast = escaped quote text := by
    simp [quoted]
  rw [string, inside, unescape_escaped isQuote]

/-- What is written between quotes goes up to the quote that ends it. -/
theorem closeString?_escaped (isQuote : IsQuote quote) (text rest : Text) :
    Lexer.closeString? quote (escaped quote text ++ quote :: rest) =
      some (escaped quote text ++ [quote], rest) := by
  have noEscape : quote ≠ '\\' := Marker.ne_backslash_of_isQuote isQuote
  induction text with
  | nil => simp [escaped, Lexer.closeString?_cons noEscape]
  | cons c others ih =>
    by_cases special : c = '\\' ∨ c = quote
    · -- The character goes with the backslash in front of it, which no newline may do.
      have noNewline : c ≠ '\n' := by
        rcases special with rfl | rfl
        · decide
        · rcases isQuote with rfl | rfl <;> decide
      rw [escaped_special special, List.cons_append, List.cons_append, Lexer.closeString?,
        if_neg noNewline, ih]
      rfl
    · -- The character neither ends the string nor takes another one with it.
      obtain ⟨plain, stays⟩ := not_or.mp special
      rw [escaped_plain special, List.cons_append, Lexer.closeString?_cons plain, if_neg stays, ih]
      rfl

/-- The literal of a text is read as that text. -/
theorem read_quoted (isQuote : IsQuote quote) (text : Text) (base : Nat) :
    Expr.read base (quoted quote text) = .ok (.literal (.text text)) := by
  have closed := closeString?_escaped isQuote text []
  have accepted := Expr.read_string isQuote closed base
  rwa [← quoted, string_quoted isQuote] at accepted

end Literal

/-- What a program with one value writes. -/
theorem Program.render_echo {value : Expr} {data : Data} {v : Value}
    (evaluated : value.eval data = .ok v) (escaped : Bool) (limit : Nat) :
    Program.render limit [.echo value escaped] data =
      .ok (if escaped then Text.escape v.display else v.display) := by
  have ran : Node.run limit (.echo value escaped) ⟨data, []⟩ =
      .ok (.done, ⟨data, [if escaped then Text.escape v.display else v.display]⟩) := by
    rw [Node.run, Scope.eval, evaluated]
    rfl
  rw [Program.render, runAll, ran]
  simp [runAll, Scope.output, Except.map]

/-- A tag with a literal writes the text that the literal stands for. -/
theorem render_echoTag_quoted {quote : Char} (isQuote : IsQuote quote) (text : Text)
    (escaped : Bool) (limit : Nat) (data : Data) :
    render limit (Node.echoTag escaped (Literal.quoted quote text)) data =
      .ok (if escaped then Text.escape text else text) := by
  have accepted := Literal.read_quoted isQuote text 0
  have read : Program.read (Node.echoTag escaped (Literal.quoted quote text)) =
      .ok [.echo (.literal (.text text)) escaped] :=
    Workshop.read_of_reads (.echo accepted escaped)
  have evaluated : (Expr.literal (.text text)).eval data = .ok (.text text) := rfl
  have wrote := Program.render_echo evaluated escaped limit
  have once : render limit (Node.echoTag escaped (Literal.quoted quote text)) data =
      (Program.render limit [.echo (.literal (.text text)) escaped] data).mapError .eval := by
    rw [render, read]
    rfl
  rw [once, wrote]
  rfl

/-- Every text is the value of the literal that is written from it with quotes of either kind. A tag
with the literal writes the text, escaped or as it is, whatever the data are. -/
theorem Literal.quoted_stands_for {quote : Char} (isQuote : IsQuote quote) (text : Text) :
    (∀ base, Expr.read base (quoted quote text) = .ok (.literal (.text text))) ∧
      ∀ limit data,
        render limit ("<%= ".toList ++ quoted quote text ++ " %>".toList) data =
            .ok (Text.escape text) ∧
          render limit ("<%- ".toList ++ quoted quote text ++ " %>".toList) data = .ok text := by
  refine ⟨read_quoted isQuote text, fun limit data => ?_⟩
  have escapedTag := render_echoTag_quoted isQuote text true limit data
  have plainTag := render_echoTag_quoted isQuote text false limit data
  exact ⟨escapedTag, plainTag⟩

/-- Signs of tags, backslashes at both ends, both quotes, a newline and a character of two bytes. -/
theorem Literal.quoted_stands_for_signs :
    quoted '\'' "\\%>'\"\n<%é\\".toList = "'\\\\%>\\'\"\n<%é\\\\'".toList ∧
      Expr.read 7 "'\\\\%>\\'\"\n<%é\\\\'".toList =
        .ok (.literal (.text "\\%>'\"\n<%é\\".toList)) ∧
      render 0 ("<%- ".toList ++ "'\\\\%>\\'\"\n<%é\\\\'".toList ++ " %>".toList) [] =
        .ok "\\%>'\"\n<%é\\".toList := by
  have written : quoted '\'' "\\%>'\"\n<%é\\".toList =
      "'\\\\%>\\'\"\n<%é\\\\'".toList := by
    decide +kernel
  obtain ⟨read, rendered⟩ := quoted_stands_for (.inr rfl) "\\%>'\"\n<%é\\".toList
  obtain ⟨-, wrote⟩ := rendered 0 []
  rw [written] at read wrote
  exact ⟨written, read 7, wrote⟩

end Templates
