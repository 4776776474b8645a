import Templates.Markup.Basic
import Templates.Text.Search

/-!
A source is cut into tags, comments, doctypes and text.

Everything that does not look like markup is text, and nothing in a text, a name or a value is
decoded.
-/

namespace Templates.Markup

/-- The one reason why a source cannot be read, which is no verdict on the source: the search for
the end of a value without quotes compares bytes, and stops for good inside a character of several.
-/
inductive MarkupError where
  | cutCharacter
deriving DecidableEq, Repr

/-- A piece of a source. A start tag of an element with raw content comes with that content. -/
inductive Token where
  | text (text : Text)
  | comment (text : Text)
  | doctype (text : Text)
  | startTag (element : Element) (raw : Option Text)
  | endTag (name : Text)
deriving DecidableEq, Repr

namespace Token

/-- Characters of the names of tags. -/
def inTagName (c : Char) : Bool :=
  c.isAlphanum || c = '-' || c = '_' || c = ':' || c = '.'

/-- Characters that end the name of an attribute. -/
def endsName (c : Char) : Bool :=
  Text.isMarkupBlank c || c = '=' || c = '>' || c = '/' || c = '"' || c = '\''

/-- What reading a part of a tag comes to: the part and what follows it, or no tag, or no answer. -/
inductive Part (α : Type) where
  | read (value : α) (rest : Text)
  | noTag
  | cut
deriving Repr

/-- A value without quotes, which ends before a blank and before the end of the tag. -/
def bareValue : Text → Part Text
  | [] => .read [] []
  | c :: rest =>
    if Text.isMarkupBlank c || c = '>' || (c = '/' && rest.head? = some '>') then
      .read [] (c :: rest)
    else if c.utf8Size ≠ 1 then .cut
    else
      match bareValue rest with
      | .read value after => .read (c :: value) after
      | other => other

/-- The text up to a quote and what follows that. -/
def quotedValue (quote : Char) : Text → Part Text
  | [] => .noTag
  | c :: rest =>
    if c = quote then .read [] rest
    else
      match quotedValue quote rest with
      | .read value after => .read (c :: value) after
      | other => other

/-- An attribute, whose first character belongs to its name whatever it is. -/
def readAttribute (first : Char) (text : Text) : Part Attribute :=
  let name := first :: text.takeWhile (!endsName ·)
  let rest := text.dropWhile (!endsName ·)
  match rest.dropWhile Text.isMarkupBlank with
  | '=' :: after =>
    let after := after.dropWhile Text.isMarkupBlank
    let (quote, value) := match after with
      | '"' :: inner => (Quote.double, quotedValue '"' inner)
      | '\'' :: inner => (Quote.single, quotedValue '\'' inner)
      | _ => (Quote.bare, bareValue after)
    match value with
    | .read value rest => .read ⟨name, some value, quote⟩ rest
    | .noTag => .noTag
    | .cut => .cut
  | _ => .read (.boolean name) rest

/-- The attributes of a tag up to its end, and whether it ends in a slash; the first argument bounds
the number of steps. A slash elsewhere is skipped. -/
def readAttributes : Nat → Text → Part (List Attribute × Bool)
  | 0, _ => .noTag
  | fuel + 1, source =>
    match source.dropWhile Text.isMarkupBlank with
    | [] => .noTag
    | '>' :: rest => .read ([], false) rest
    | '/' :: '>' :: rest => .read ([], true) rest
    | '/' :: rest => readAttributes fuel rest
    | c :: rest =>
      match readAttribute c rest with
      | .noTag => .noTag
      | .cut => .cut
      | .read a rest =>
        match readAttributes fuel rest with
        | .read (others, slash) rest => .read (a :: others, slash) rest
        | other => other

/-- The tag behind its opening bracket. -/
def readTag (text : Text) : Part Element :=
  let name := text.takeWhile inTagName
  let rest := text.dropWhile inTagName
  match readAttributes (rest.length + 1) rest with
  | .read (list, slash) rest => .read ⟨name, list, slash⟩ rest
  | .noTag => .noTag
  | .cut => .cut

/-- What follows the next closing bracket. -/
def behindBracket (text : Text) : Text :=
  (text.dropWhile (· ≠ '>')).drop 1

/-- Raw content up to an end tag in letters of any case, which may also be the beginning of a longer
name, and what follows the end tag. -/
def rawContent (closing : Text) : Text → Text × Text
  | [] => ([], [])
  | c :: rest =>
    if Text.asciiLower ((c :: rest).take closing.length) = closing then
      ([], behindBracket (c :: rest))
    else
      let (content, after) := rawContent closing rest
      (c :: content, after)

/-- Text up to the next opening bracket, the first character counting as text in any case. -/
def plain (first : Char) (rest : Text) : Token × Text :=
  (.text (first :: rest.takeWhile (· ≠ '<')), rest.dropWhile (· ≠ '<'))

/-- The token at the front of a text that begins with the given character, and what follows it. -/
def next (first : Char) (text : Text) : Except MarkupError (Token × Text) :=
  match first, text with
  | '<', '!' :: '-' :: '-' :: rest =>
    match Text.cut? "-->" rest with
    | some (body, after) => .ok (.comment body, after)
    | none => .ok (.text (first :: text), [])
  | '<', '!' :: rest =>
    match Text.cut? ">" rest with
    | some (body, after) => .ok (.doctype body, after)
    | none => .ok (.text (first :: text), [])
  | '<', '/' :: c :: rest =>
    if inTagName c then
      .ok (.endTag ((c :: rest).takeWhile inTagName),
        behindBracket ((c :: rest).dropWhile inTagName))
    else .ok (plain first text)
  | '<', c :: _ =>
    if c.isAlpha then
      match readTag text with
      | .noTag => .ok (plain first text)
      | .cut => .error .cutCharacter
      | .read element rest =>
        if !element.selfClosing && !isVoid element.name && isRaw element.name then
          let (content, after) :=
            rawContent ("</".toList ++ Text.asciiLower element.name) rest
          .ok (.startTag element (some content), after)
        else .ok (.startTag element none, rest)
    else .ok (plain first text)
  | _, _ => .ok (plain first text)

/-- The tokens of a text behind characters that belong to the token before them. -/
def tokensFrom : Nat → Text → Except MarkupError (List Token)
  | _, [] => .ok []
  | skip + 1, _ :: rest => tokensFrom skip rest
  | 0, c :: rest =>
    match next c rest with
    | .error e => .error e
    | .ok (token, after) =>
      match tokensFrom (rest.length - after.length) rest with
      | .ok tokens => .ok (token :: tokens)
      | .error e => .error e

end Token

/-- The tokens of a source. -/
def tokens (source : Text) : Except MarkupError (List Token) :=
  Token.tokensFrom 0 source

end Templates.Markup
