import Templates.Expr.Token

/-! A source is cut into tokens, each as long as possible. -/

namespace Templates.Lexer

/-- Characters that separate tokens. -/
def isGap (c : Char) : Bool :=
  c = ' ' || c = '\t' || c = '\n' || c = '\r'

/-- Names begin with a letter, an underscore or a dollar sign. -/
def startsName (c : Char) : Bool :=
  c.isAlpha || c = '_' || c = '$'

/-- Names go on with letters, digits and underscores. -/
def continuesName (c : Char) : Bool :=
  c.isAlphanum || c = '_'

/-- A word is a keyword or else a name, which drops a leading dollar sign. -/
def word (text : Text) : Token :=
  match Keyword.all.find? (·.text = text) with
  | some keyword => .keyword keyword
  | none =>
    match text with
    | '$' :: rest => .name rest
    | _ => .name text

/-- The part of a string literal behind its opening quote, up to and with the closing one. A
backslash takes the next character with it, which may not be a newline. -/
def closeString? (quote : Char) : Text → Option (Text × Text)
  | [] => none
  | '\\' :: c :: rest =>
    if c = '\n' then none
    else (closeString? quote rest).map fun (body, after) => ('\\' :: c :: body, after)
  | c :: rest =>
    if c = quote then some ([c], rest)
    else if c = '\\' then none
    else (closeString? quote rest).map fun (body, after) => (c :: body, after)

/-- The digits of a number; a point belongs to it only between two digits. -/
def number (text : Text) : Text × Text :=
  let whole := text.takeWhile Char.isDigit
  match text.dropWhile Char.isDigit with
  | '.' :: d :: rest =>
    if d.isDigit then
      (whole ++ '.' :: (d :: rest).takeWhile Char.isDigit, (d :: rest).dropWhile Char.isDigit)
    else (whole, '.' :: d :: rest)
  | rest => (whole, rest)

/-- The first symbol, in the order of length, that a text starts with. -/
def symbol? (text : Text) : Option (Symbol × Text) :=
  Symbol.longestFirst.findSome? fun s => (Text.strip? s.text text).map fun rest => (s, rest)

/-- The token at the front of a text, and what follows it. -/
def token? : Text → Option (Token × Text)
  | [] => none
  | c :: rest =>
    if startsName c then
      some (word (c :: rest.takeWhile continuesName), rest.dropWhile continuesName)
    else if c.isDigit then
      let (digits, after) := number (c :: rest)
      some (.number digits, after)
    else if c = '"' || c = '\'' then
      (closeString? c rest).map fun (body, after) => (.string (c :: body), after)
    else
      (symbol? (c :: rest)).map fun (s, after) => (.symbol s, after)

/-- Tokens of a text whose first character stands at an offset, after characters that belong to the
token before them. The failure is the offset where no token starts. -/
def tokensFrom : Nat → Nat → Text → Except Nat (List Spanned)
  | _, _, [] => .ok []
  | offset, skip + 1, c :: rest => tokensFrom (offset + c.utf8Size) skip rest
  | offset, 0, c :: rest =>
    if isGap c then tokensFrom (offset + c.utf8Size) 0 rest else
    match token? (c :: rest) with
    | none => .error offset
    | some (token, after) =>
      let more := rest.length - after.length
      let stop := offset + Text.bytes ((c :: rest).take (more + 1))
      match tokensFrom (offset + c.utf8Size) more rest with
      | .ok tokens => .ok (⟨token, offset, stop⟩ :: tokens)
      | .error position => .error position

/-- The tokens of a source, or the offset of the first character that starts none. -/
def tokenize (source : Text) : Except Nat (List Spanned) :=
  tokensFrom 0 0 source

end Templates.Lexer
