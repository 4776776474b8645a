import Templates.Fields
import Templates.Number.Basic
import Templates.Text.Digits

/-! Values of template data, and what pages show of them. -/

namespace Templates

/-- A value is a scalar, a list of values or a record of named values. -/
inductive Value where
  | null
  | bool (b : Bool)
  | number (n : Number)
  | text (t : Text)
  | list (items : List Value)
  | record (fields : List (Text × Value))
deriving Repr, Inhabited

/-- Template data: variables with their values. -/
abbrev Data := Fields Value

namespace Value

/-- A value that is null. -/
def isNull : Value → Bool
  | .null => true
  | _ => false

/-- Null, false, zero and everything empty count as false. -/
def truthy : Value → Bool
  | .null => false
  | .bool b => b
  | .number n => !n.toBinary64.isZero
  | .text t => !t.isEmpty
  | .list items => !items.isEmpty
  | .record fields => !fields.isEmpty

/-- The fraction a number value stands for. -/
def toBinary64? : Value → Option Binary64
  | .number n => some n.toBinary64
  | _ => none

/-- What messages call the kind of a value. -/
def kind : Value → Text
  | .null => "null"
  | .bool _ => "boolean"
  | .number _ => "number"
  | .text _ => "string"
  | .list _ => "array"
  | .record _ => "object"

mutual

/-- Equality of data, in which an integer differs from every fraction. -/
def same : Value → Value → Bool
  | .null, .null => true
  | .bool a, .bool b => a = b
  | .number m, .number n => m.same n
  | .text s, .text t => s = t
  | .list xs, .list ys => sameItems xs ys
  | .record fs, .record gs => sameFields fs gs
  | _, _ => false

/-- Lists are equal when they are equal item by item. -/
def sameItems : List Value → List Value → Bool
  | [], [] => true
  | x :: xs, y :: ys => same x y && sameItems xs ys
  | _, _ => false

/-- Records are equal when they have equal values under the same names. -/
def sameFields : List (Text × Value) → List (Text × Value) → Bool
  | [], [] => true
  | (m, x) :: fs, (n, y) :: gs => m = n && same x y && sameFields fs gs
  | _, _ => false

end

/-- Equality of a template: two numbers compare by value, everything else as data. -/
def looseEquals : Value → Value → Bool
  | .number m, .number n => m.sameValue n
  | a, b => same a b

/-- The place in a list that a name in decimal digits stands for. -/
def place? (name : Text) : Option Nat :=
  (Text.natural? 10 name).filter (· < twoTo 64)

/-- A member of a record by name or of a list by place; what is missing reads as null. -/
def member (name : Text) : Value → Value
  | .record fields => (Fields.get? name fields).getD .null
  | .list items => ((place? name).bind (items[·]?)).getD .null
  | _ => .null

end Value

end Templates
