import Templates.Text.Quoted
import Templates.Value.Basic

/-! Values written as JSON without blanks, and the text form of a value on a page. -/

namespace Templates.Json

/-- How one character is written inside a JSON string. -/
def escapeChar (c : Char) : Text :=
  if c = '"' then "\\\""
  else if c = '\\' then "\\\\"
  else if c = '\x08' then "\\b"
  else if c = '\x0c' then "\\f"
  else if c = '\n' then "\\n"
  else if c = '\r' then "\\r"
  else if c = '\t' then "\\t"
  else if c.toNat < 32 then
    "\\u00".toList ++ [Nat.digitChar (c.toNat / 16), Nat.digitChar (c.toNat % 16)]
  else [c]

/-- A text as a JSON string. -/
def quote (text : Text) : Text :=
  '"' :: text.flatMap escapeChar ++ ['"']

mutual

/-- A value as JSON. -/
def write : Value → Text
  | .null => "null"
  | .bool true => "true"
  | .bool false => "false"
  | .number n => n.text
  | .text t => quote t
  | .list items => '[' :: writeItems true items
  | .record fields => '\x7b' :: writeFields true fields

/-- The items of a list up to its end; all but the first follow a comma. -/
def writeItems : Bool → List Value → Text
  | _, [] => [']']
  | true, item :: rest => write item ++ writeItems false rest
  | false, item :: rest => ',' :: write item ++ writeItems false rest

/-- The fields of a record up to its end; all but the first follow a comma. -/
def writeFields : Bool → List (Text × Value) → Text
  | _, [] => ['\x7d']
  | true, (name, value) :: rest => quote name ++ ':' :: write value ++ writeFields false rest
  | false, (name, value) :: rest =>
    ',' :: quote name ++ ':' :: write value ++ writeFields false rest

end

end Templates.Json

namespace Templates.Value

/-- Scalars show as plain text, null as nothing, and lists and records as JSON. -/
def display : Value → Text
  | .null => []
  | .bool true => "true"
  | .bool false => "false"
  | .number n => n.display
  | .text t => t
  | value => Json.write value

end Templates.Value
