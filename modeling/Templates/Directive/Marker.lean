import Templates.Text.Blank

/-!
Markers are names behind an at sign, with an expression in parentheses behind them or without one.

A source is a list of markers and of the characters between them, which put together give the source
back.
-/

namespace Templates

/-- A marker as it stands in a source. -/
structure Marker where
  name : Text
  /-- The trimmed text between the parentheses. -/
  expression : Option Text
  /-- A blank or nothing stands in front. -/
  leading : Bool
  /-- A blank or nothing follows. -/
  trailing : Bool
  /-- All that the marker consists of. -/
  raw : Text
deriving DecidableEq, Repr

namespace Marker

/-- Names begin with a letter or an underscore. -/
def startsName (c : Char) : Bool :=
  c.isAlpha || c = '_'

/-- Names go on with letters, digits, underscores and hyphens. -/
def continuesName (c : Char) : Bool :=
  c.isAlphanum || c = '_' || c = '-'

/-- What a marker without an expression closes, if its name says that it closes something. -/
def closes? (marker : Marker) : Option Text :=
  match marker.expression, Text.strip? "end" marker.name with
  | none, some (c :: name) => some (c :: name)
  | _, _ => none

/-- The text up to the parenthesis that balances as many open ones as are given, and what follows
it. Parentheses in quotes do not count, and a backslash in quotes takes the next character with it.
-/
def balance? : Nat → Option Char → Text → Option (Text × Text)
  | depth, some quote, '\\' :: c :: rest =>
    (balance? depth (some quote) rest).map fun (inner, after) => ('\\' :: c :: inner, after)
  | depth, some quote, c :: rest =>
    (balance? depth (if c = quote then none else some quote) rest).map
      fun (inner, after) => (c :: inner, after)
  | depth, none, c :: rest =>
    if c = ')' ∧ depth ≤ 1 then some ([], rest)
    else
      let depth := if c = '(' then depth + 1 else if c = ')' then depth - 1 else depth
      let quote := if c = '"' ∨ c = '\'' then some c else none
      (balance? depth quote rest).map fun (inner, after) => (c :: inner, after)
  | _, _, [] => none

/-- Whether a text is empty or begins with a blank. -/
def isClear (text : Text) : Bool :=
  match text with
  | [] => true
  | c :: _ => Text.isMarkupBlank c

/-- The marker whose name a text begins with, and what follows it. A parenthesis that is never
closed does not belong to it. -/
def read (leading : Bool) (text : Text) : Marker × Text :=
  let name := text.takeWhile continuesName
  let after := text.dropWhile continuesName
  match after with
  | '(' :: rest =>
    match balance? 1 none rest with
    | some (inner, after) =>
      (⟨name, some (Text.trim inner), leading, isClear after, '@' :: name ++ '(' :: inner ++ [')']⟩,
        after)
    | none => (⟨name, none, leading, false, '@' :: name⟩, after)
  | _ => (⟨name, none, leading, isClear after, '@' :: name⟩, after)

end Marker

/-- A marker, or a character outside of all markers. -/
inductive Mark where
  | plain (c : Char)
  | marker (marker : Marker)
deriving DecidableEq, Repr

namespace Mark

/-- What stands in the source. -/
def raw : Mark → Text
  | .plain c => [c]
  | .marker m => m.raw

/-- The marks of a text, given whether a marker at its front has nothing but a blank before it,
behind characters that belong to the marker before them. -/
def scanFrom : Bool → Nat → Text → List Mark
  | _, _, [] => []
  | _, skip + 1, c :: rest => scanFrom (Text.isMarkupBlank c) skip rest
  | leading, 0, c :: rest =>
    if c = '@' ∧ (rest.head?.any Marker.startsName) then
      let (m, after) := Marker.read leading rest
      .marker m :: scanFrom false (rest.length - after.length) rest
    else .plain c :: scanFrom (Text.isMarkupBlank c) 0 rest

/-- The marks of a source. -/
def scan (source : Text) : List Mark :=
  scanFrom true 0 source

/-- What a list of marks stands for in a source. -/
def text (marks : List Mark) : Text :=
  marks.flatMap raw

/-- The markers with the offsets of their first byte and of the byte behind them. -/
def spans : Nat → List Mark → List (Marker × Nat × Nat)
  | _, [] => []
  | offset, .plain c :: rest => spans (offset + c.utf8Size) rest
  | offset, .marker m :: rest =>
    let stop := offset + Text.bytes m.raw
    (m, offset, stop) :: spans stop rest

end Mark

end Templates
