import Templates.Text.Blank
import Templates.Text.Case
import Templates.Text.Search

/-!
Comments that include files, define blocks and ask for them; keywords may be in letters of any case.
-/

namespace Templates.Layout

open Text

/-- What follows the opening of a comment and a keyword in it. -/
def comment? (keyword : Text) (text : Text) : Option Text :=
  (strip? "<!--" text).bind fun inner => stripCaseless? keyword (trimStart inner)

/-- What follows the end of a comment, if nothing but blanks comes before that. -/
def endComment? (text : Text) : Option Text :=
  strip? "-->" (trimStart text)

/-- What follows one or more blanks. -/
def afterBlanks? (text : Text) : Option Text :=
  if text.head?.any isBlank then some (trimStart text) else none

/-- Characters of the paths that may be included; two letters that differ from ASCII ones in case
only count as well. -/
def inTarget (c : Char) : Bool :=
  c.isAlphanum || c = '_' || c = '/' || c = '.' || c = '-' || c = 'ſ' || c = '\u212a'

/-- A path up to the end of the comment; hyphens that end the comment do not belong to it. -/
def target? (text : Text) : Option (Text × Text) :=
  let run := text.takeWhile inTarget
  let after := text.dropWhile inTarget
  if run.isEmpty then none
  else
    match endComment? after with
    | some rest => some (run, rest)
    | none =>
      match run.reverse, after with
      | '-' :: '-' :: c :: path, '>' :: rest => some ((c :: path).reverse, rest)
      | _, _ => none

/-- A comment that a file takes the place of. -/
def includeRule : Rule Text := fun text =>
  match (comment? "extend" text).orElse fun _ => comment? "include" text with
  | some rest => (afterBlanks? rest).bind target?
  | none => none

/-- A name up to the end of its comment, without the blanks around it. -/
def name? (text : Text) : Option (Text × Text) :=
  (afterBlanks? text).bind fun text =>
    (cut? "-->" text).map fun (name, rest) => (trimEnd name, rest)

/-- A comment that a block takes the place of; its name stands on one line. -/
def yieldRule : Rule Text := fun text =>
  match (comment? "yield" text).bind name? with
  | some (name, rest) => if '\n' ∈ name then none else some (name, rest)
  | none => none

/-- A comment that the content a block had before takes the place of. -/
def parentRule : Rule Unit := fun text =>
  (comment? "parent" text).bind fun rest => (endComment? rest).map fun rest => ((), rest)

/-- The text up to the comment that ends a block, and what follows that comment. -/
def blockBody? : Text → Option (Text × Text)
  | [] => none
  | c :: rest =>
    match (comment? "endblock" (c :: rest)).bind endComment? with
    | some after => some ([], after)
    | none => (blockBody? rest).map fun (body, after) => (c :: body, after)

/-- A block: a comment with its name, its body and a comment that ends it. -/
def blockRule : Rule (Text × Text) := fun text =>
  match (comment? "block" text).bind name? with
  | some (name, rest) => (blockBody? rest).map fun (body, after) => ((name, body), after)
  | none => none

end Templates.Layout
