import Templates.Text.Blank
import Templates.Text.Search

/-! An artifact is text with statement tags between `<%` and `%>`. -/

namespace Templates

/-- A statement tag: its first word and the rest of it, each with its offset. -/
structure Tag where
  keyword : Text
  position : Nat
  rest : Text
  restPosition : Nat
deriving DecidableEq, Repr

/-- A piece of an artifact. -/
inductive Segment where
  | text (content : Text)
  | echo (source : Text) (position : Nat) (escaped : Bool)
  | statement (tag : Tag)
deriving DecidableEq, Repr

/-- Reasons why an artifact cannot be cut into segments. The second one is no verdict on the
artifact: the search for the end of a tag compares bytes, and stops for good inside a character of
several bytes that no quotes protect. -/
inductive TagError where
  | unterminated (position : Nat)
  | cutCharacter
deriving DecidableEq, Repr

/-- How the search for the end of a tag turns out. -/
inductive TagEnd where
  | found (body after : Text)
  | missing
  | cut
deriving DecidableEq, Repr

namespace TagEnd

/-- The body goes on with one more character in front. -/
def cons (c : Char) : TagEnd → TagEnd
  | .found body after => .found (c :: body) after
  | other => other

/-- The end of a tag outside quotes, starting inside the given quotes or outside of any. A backslash
in quotes takes the next character with it. -/
def search : Option Char → Text → TagEnd
  | some quote, '\\' :: c :: rest => .cons '\\' (.cons c (search (some quote) rest))
  | some quote, c :: rest => .cons c (search (if c = quote then none else some quote) rest)
  | none, c :: rest =>
    if c = '"' || c = '\'' then .cons c (search (some c) rest)
    else
      match Text.strip? "%>" (c :: rest) with
      | some after => .found [] after
      | none => if c.utf8Size ≠ 1 then .cut else .cons c (search none rest)
  | _, [] => .missing

/-- The end of the tag whose body a text starts with; quotes do not count in a comment. -/
def ofBody (text : Text) : TagEnd :=
  if Text.startsWith "#" text then
    match Text.cut? "%>" text with
    | some (body, after) => .found body after
    | none => .missing
  else search none text

end TagEnd

/-- The statement in the body of a tag. -/
def Tag.ofBody (start : Nat) (body : Text) : Tag :=
  let lead := body.takeWhile Text.isBlank
  let trimmed := Text.trimEnd (Text.trimStart body)
  let position := start + Text.bytes lead
  let keyword := trimmed.takeWhile (!Text.isBlank ·)
  let rest := Text.trimStart (trimmed.dropWhile (!Text.isBlank ·))
  ⟨keyword, position, rest, position + (Text.bytes trimmed - Text.bytes rest)⟩

namespace Segment

/-- The segment a tag stands for, which is none for a comment. -/
def ofBody (start : Nat) : Text → List Segment
  | '=' :: source => [.echo source (start + 1) true]
  | '-' :: source => [.echo source (start + 1) false]
  | '#' :: _ => []
  | body => [.statement (Tag.ofBody start body)]

/-- Text read so far, in reverse, in front of other segments. -/
def withText : Text → List Segment → List Segment
  | [], segments => segments
  | pending, segments => .text pending.reverse :: segments

/-- Segments of a text whose first character stands at an offset, behind characters that belong to
the tag before them and with the text since then in reverse. -/
def segmentsFrom : Nat → Nat → Text → Text → Except TagError (List Segment)
  | _, _, pending, [] => .ok (withText pending [])
  | offset, skip + 1, pending, c :: rest =>
    segmentsFrom (offset + c.utf8Size) skip pending rest
  | offset, 0, pending, c :: rest =>
    match Text.strip? "<%" (c :: rest) with
    | none => segmentsFrom (offset + c.utf8Size) 0 (c :: pending) rest
    | some inner =>
      match TagEnd.ofBody inner with
      | .missing => .error (.unterminated offset)
      | .cut => .error .cutCharacter
      | .found body after =>
        match segmentsFrom (offset + c.utf8Size) (rest.length - after.length) [] rest with
        | .ok segments => .ok (withText pending (ofBody (offset + 2) body ++ segments))
        | .error error => .error error

end Segment

/-- The segments of an artifact. -/
def segments (artifact : Text) : Except TagError (List Segment) :=
  Segment.segmentsFrom 0 0 [] artifact

end Templates
