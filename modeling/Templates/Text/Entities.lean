import Templates.Text.Digits
import Templates.Text.Search

/-! Characters with a meaning in markup are written as entities. -/

namespace Templates.Text

/-- How one character is written so that it has no meaning in markup. -/
def escapeChar (c : Char) : Text :=
  if c = '&' then "&amp;"
  else if c = '<' then "&lt;"
  else if c = '>' then "&gt;"
  else if c = '"' then "&quot;"
  else if c = '\'' then "&#39;"
  else [c]

/-- A text written so that it has no meaning in markup. -/
def escape (text : Text) : Text :=
  text.flatMap escapeChar

/-- The character with a code point, if it is one of a character. -/
def character? (n : Nat) : Option Char :=
  if h : n.isValidChar then some (Char.ofNatAux n h) else none

/-- The character that an entity stands for, given what is between the ampersand and the
semicolon. -/
def entity? (name : Text) : Option Char :=
  if name = "amp".toList then some '&'
  else if name = "lt".toList then some '<'
  else if name = "gt".toList then some '>'
  else if name = "quot".toList then some '"'
  else if name = "apos".toList then some '\''
  else
    match name with
    | '#' :: 'x' :: digits => (natural? 16 digits).bind character?
    | '#' :: 'X' :: digits => (natural? 16 digits).bind character?
    | '#' :: digits => (natural? 10 digits).bind character?
    | _ => none

/-- An entity reaches from an ampersand to the next semicolon. -/
def entityRule : Rule Char
  | '&' :: rest =>
    match cut? ";" rest with
    | some (name, after) => (entity? name).map fun c => (c, after)
    | none => none
  | _ => none

/-- A text with its entities resolved; what is no entity stands for itself. -/
def unescape (text : Text) : Text :=
  replaceHits (fun c => [c]) (scan entityRule text)

end Templates.Text
