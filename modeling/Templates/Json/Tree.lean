import Templates.Json.Numeral
import Templates.Value.Basic

/-!
JSON texts as trees.

A tree keeps what a value does not: numerals as written, fields in the order of the text with equal
names side by side, and strings that spell no text because of an unpaired surrogate.
-/

namespace Templates.Json

/-- What a JSON text spells. -/
inductive Tree where
  | null
  | bool (b : Bool)
  | number (numeral : Numeral)
  | string (content : Option Text)
  | array (items : List Tree)
  | object (fields : List (Option Text × Tree))
deriving Repr, Inhabited

namespace Tree

/-- The characters JSON may hold between tokens. -/
def isGap (c : Char) : Bool :=
  c = ' ' || c = '\n' || c = '\t' || c = '\r'

/-- A text without the gap in front of it. -/
def skipGap (text : Text) : Text :=
  text.dropWhile isGap

/-- A part of a string: a character, or a code of sixteen bits. -/
inductive StringPart where
  | char (c : Char)
  | code (n : Nat)
deriving DecidableEq, Repr

/-- The value of four hexadecimal digits. -/
def code? (a b c d : Char) : Option Nat := do
  let a ← Text.digit? a
  let b ← Text.digit? b
  let c ← Text.digit? c
  let d ← Text.digit? d
  return ((a * 16 + b) * 16 + c) * 16 + d

/-- The character behind a backslash stands for another one. -/
def escaped? (c : Char) : Option Char :=
  if c = '"' ∨ c = '\\' ∨ c = '/' then some c
  else if c = 'b' then some '\x08'
  else if c = 'f' then some '\x0c'
  else if c = 'n' then some '\n'
  else if c = 'r' then some '\r'
  else if c = 't' then some '\t'
  else none

/-- The parts of a string behind its opening quote, and the text behind its closing one. -/
def stringParts : Text → Option (List StringPart × Text)
  | '"' :: rest => some ([], rest)
  | '\\' :: 'u' :: a :: b :: c :: d :: rest => do
    let n ← code? a b c d
    let (parts, after) ← stringParts rest
    return (.code n :: parts, after)
  | '\\' :: c :: rest => do
    let e ← escaped? c
    let (parts, after) ← stringParts rest
    return (.char e :: parts, after)
  | c :: rest =>
    if c.toNat < 32 ∨ c = '\\' then none
    else (stringParts rest).map fun (parts, after) => (.char c :: parts, after)
  | [] => none

/-- The text spelled by the parts of a string: two surrogates in order make one character, and one
by itself makes none. -/
def join? : List StringPart → Option Text
  | [] => some []
  | .char c :: rest => (join? rest).map (c :: ·)
  | .code n :: rest =>
    if 0xD800 ≤ n ∧ n < 0xDC00 then
      match rest with
      | .code m :: rest =>
        if 0xDC00 ≤ m ∧ m < 0xE000 then
          (join? rest).map (Char.ofNat (0x10000 + (n - 0xD800) * 0x400 + (m - 0xDC00)) :: ·)
        else none
      | _ => none
    else if 0xDC00 ≤ n ∧ n < 0xE000 then none
    else (join? rest).map (Char.ofNat n :: ·)

/-- One or more digits, and what follows them. -/
def digits? (text : Text) : Option (Text × Text) :=
  match text.takeWhile Char.isDigit with
  | [] => none
  | digits => some (digits, text.dropWhile Char.isDigit)

/-- The digits before the point: a zero stands alone. -/
def wholeDigits? : Text → Option (Text × Text)
  | '0' :: rest => some (['0'], rest)
  | text => digits? text

/-- The digits behind a point, if there is one. -/
def fractionDigits? : Text → Option (Option Text × Text)
  | '.' :: rest => (digits? rest).map fun (digits, after) => (some digits, after)
  | text => some (none, text)

/-- A power of ten, if there is one. -/
def power? : Text → Option (Option (Bool × Text) × Text)
  | e :: rest =>
    if e = 'e' ∨ e = 'E' then
      match rest with
      | '-' :: rest => (digits? rest).map fun (digits, after) => (some (true, digits), after)
      | '+' :: rest => (digits? rest).map fun (digits, after) => (some (false, digits), after)
      | rest => (digits? rest).map fun (digits, after) => (some (false, digits), after)
    else some (none, e :: rest)
  | [] => some (none, [])

/-- A numeral, and what follows it. -/
def numeral? (text : Text) : Option (Numeral × Text) := do
  let (negative, text) := match text with
    | '-' :: rest => (true, rest)
    | _ => (false, text)
  let (whole, text) ← wholeDigits? text
  let (fraction, text) ← fractionDigits? text
  let (power, text) ← power? text
  return (⟨negative, whole, fraction, power⟩, text)

mutual

/-- A tree at the front of a text; the first argument bounds the number of steps. -/
def tree? : Nat → Text → Option (Tree × Text)
  | 0, _ => none
  | fuel + 1, text =>
    match skipGap text with
    | '"' :: rest => (stringParts rest).map fun (parts, after) => (.string (join? parts), after)
    | '[' :: rest =>
      match skipGap rest with
      | ']' :: after => some (.array [], after)
      | _ => (items? fuel rest).map fun (items, after) => (.array items, after)
    | '\x7b' :: rest =>
      match skipGap rest with
      | '\x7d' :: after => some (.object [], after)
      | _ => (fields? fuel rest).map fun (fields, after) => (.object fields, after)
    | 't' :: 'r' :: 'u' :: 'e' :: rest => some (.bool true, rest)
    | 'f' :: 'a' :: 'l' :: 's' :: 'e' :: rest => some (.bool false, rest)
    | 'n' :: 'u' :: 'l' :: 'l' :: rest => some (.null, rest)
    | text => (numeral? text).map fun (numeral, after) => (.number numeral, after)

/-- One or more items up to the closing bracket. -/
def items? : Nat → Text → Option (List Tree × Text)
  | 0, _ => none
  | fuel + 1, text => do
    let (item, text) ← tree? fuel text
    match skipGap text with
    | ']' :: after => return ([item], after)
    | ',' :: rest =>
      let (items, after) ← items? fuel rest
      return (item :: items, after)
    | _ => none

/-- One or more fields up to the closing brace. -/
def fields? : Nat → Text → Option (List (Option Text × Tree) × Text)
  | 0, _ => none
  | fuel + 1, text => do
    let '"' :: rest := skipGap text | none
    let (parts, text) ← stringParts rest
    let ':' :: rest := skipGap text | none
    let (value, text) ← tree? fuel rest
    match skipGap text with
    | '\x7d' :: after => return ([(join? parts, value)], after)
    | ',' :: rest =>
      let (fields, after) ← fields? fuel rest
      return ((join? parts, value) :: fields, after)
    | _ => none

end

/-- The tree of a JSON text. -/
def read? (text : Text) : Option Tree :=
  match tree? (text.length + 1) text with
  | some (tree, rest) => if (skipGap rest).isEmpty then some tree else none
  | none => none

mutual

/-- The value of a tree whose brackets nest less than `depth` deep. -/
def value? (depth : Nat) : Tree → Option Value
  | .null => some .null
  | .bool b => some (.bool b)
  | .number numeral => numeral.number?.map .number
  | .string content => content.map .text
  | .array items => if depth ≤ 1 then none else (values? (depth - 1) items).map .list
  | .object fields =>
    if depth ≤ 1 then none
    else (fieldValues? (depth - 1) fields).map fun fields => .record (Fields.ofList fields)

/-- The values of items. -/
def values? (depth : Nat) : List Tree → Option (List Value)
  | [] => some []
  | item :: rest => do
    let value ← value? depth item
    let values ← values? depth rest
    return value :: values

/-- The values of fields. -/
def fieldValues? (depth : Nat) : List (Option Text × Tree) → Option (List (Text × Value))
  | [] => some []
  | (name, item) :: rest => do
    let name ← name
    let value ← value? depth item
    let values ← fieldValues? depth rest
    return (name, value) :: values

end

end Tree

/-- The value of a JSON text whose brackets nest less than 128 deep. -/
def read? (text : Text) : Option Value :=
  (Tree.read? text).bind (Tree.value? 128)

end Templates.Json
