import Templates.Expr.Basic
import Templates.Text.Blank
import Templates.Text.Case
import Templates.Json.Printer

/-! The value of an expression, given values for its variables. -/

namespace Templates

/-- Reasons why a template cannot be rendered with the data at hand. -/
inductive EvalError where
  | unknownVariable (name : Text)
  | unknownFunction (name : Text)
  | notNumbers (op : BinaryOp) (left right : Text)
  | notNegatable (kind : Text)
  | notFinite (sign : Text) (negative : Bool)
  | divisionByZero
  | argumentCount (function : Text) (expected given : Nat)
  | notCountable (kind : Text)
  | notIterable (kind : Text)
  | boundNotNumber (kind : Text)
  | boundNotInteger (bound : Number)
  | loopLimit (limit : Nat)
deriving DecidableEq, Repr

namespace EvalError

/-- The wording of an error. -/
def message : EvalError → Text
  | .unknownVariable name => "Variable '".toList ++ name ++ "' not found".toList
  | .unknownFunction name => "Unknown function '".toList ++ name ++ "'".toList
  | .notNumbers op left right =>
    "Invalid operands for operator ".toList ++ op.text ++ ": Expected numbers, got ".toList ++
      left ++ " ".toList ++ op.text ++ " ".toList ++ right
  | .notNegatable kind =>
    "Invalid operands for operator -: Expected number, got ".toList ++ kind
  | .notFinite sign negative =>
    "Invalid operands for operator ".toList ++ sign ++ ": Result ".toList ++
      (if negative then "-inf" else "inf").toList ++ " is not a finite number".toList
  | .divisionByZero => "Division by zero"
  | .argumentCount function expected given =>
    "Type error: ".toList ++ function ++ "() takes ".toList ++ Text.decimal expected ++
      " argument(s), got ".toList ++ Text.decimal given
  | .notCountable kind => "Type error: count() expects a collection, got ".toList ++ kind
  | .notIterable kind => "Type error: Cannot iterate over ".toList ++ kind
  | .boundNotNumber kind => "Type error: Range bound must be a number, got ".toList ++ kind
  | .boundNotInteger bound =>
    "Type error: Range bound ".toList ++ bound.text ++ " is not an integer".toList
  | .loopLimit limit => "Loop exceeded ".toList ++ Text.decimal limit ++ " iterations".toList

end EvalError

/-- The functions an expression may call. -/
inductive Function where
  | isNull
  | default
  | count
  | upper
  | lower
  | trim
  | json
deriving DecidableEq, Repr

namespace Function

/-- All functions. -/
def all : List Function :=
  [.isNull, .default, .count, .upper, .lower, .trim, .json]

/-- The name a function is called by. -/
def name : Function → Text
  | .isNull => "is_null"
  | .default => "default"
  | .count => "count"
  | .upper => "upper"
  | .lower => "lower"
  | .trim => "trim"
  | .json => "json"

/-- The function of a name. -/
def ofName? (name : Text) : Option Function :=
  all.find? (·.name = name)

/-- The number of arguments a function takes. -/
def arity : Function → Nat
  | .default => 2
  | _ => 1

end Function

namespace Value

/-- The number of items, fields or characters; null has none. -/
def count : Value → Except EvalError Nat
  | .null => .ok 0
  | .list items => .ok items.length
  | .record fields => .ok fields.length
  | .text t => .ok t.length
  | value => .error (.notCountable value.kind)

/-- An arithmetic result is a number value unless it is infinite. -/
def ofRounded (sign : Text) : Rounded → Except EvalError Value
  | .finite x => .ok (.number (.ofFinite x))
  | .infinite negative => .error (.notFinite sign negative)

/-- Both operands as fractions. -/
def operands (op : BinaryOp) (left right : Value) : Except EvalError (Binary64 × Binary64) :=
  match left.toBinary64?, right.toBinary64? with
  | some a, some b => .ok (a, b)
  | _, _ => .error (.notNumbers op left.kind right.kind)

/-- The difference in order of two texts or two numbers. -/
def compare (op : BinaryOp) (left right : Value) : Except EvalError Ordering :=
  match left, right with
  | .text a, .text b =>
    .ok (if Text.before a b then .lt else if a = b then .eq else .gt)
  | _, _ => (operands op left right).map fun (a, b) => Ord.compare a.order b.order

/-- A fraction of the first operand by the second, which may not be zero. -/
def divide (op : BinaryOp) (quotient : Binary64 → Binary64 → Rounded) (left right : Value) :
    Except EvalError Value := do
  let (a, b) ← operands op left right
  if b.isZero then .error .divisionByZero else ofRounded op.text (quotient a b)

/-- The values of operators that always look at both operands. -/
def binary (op : BinaryOp) (left right : Value) : Except EvalError Value :=
  match op with
  | .equals => .ok (.bool (looseEquals left right))
  | .notEquals => .ok (.bool !(looseEquals left right))
  | .add =>
    match left, right with
    | .text _, _ => .ok (.text (left.display ++ right.display))
    | _, .text _ => .ok (.text (left.display ++ right.display))
    | _, _ => do
      let (a, b) ← operands op left right
      ofRounded op.text (a.add b)
  | .subtract => do
    let (a, b) ← operands op left right
    ofRounded op.text (a.sub b)
  | .multiply => do
    let (a, b) ← operands op left right
    ofRounded op.text (a.mul b)
  | .divide => divide op Binary64.div left right
  | .modulo => divide op Binary64.rem left right
  | .less => (compare op left right).map fun o => .bool o.isLT
  | .lessOrEqual => (compare op left right).map fun o => .bool o.isLE
  | .greater => (compare op left right).map fun o => .bool o.isGT
  | .greaterOrEqual => (compare op left right).map fun o => .bool o.isGE
  | .and => .ok (.bool (left.truthy && right.truthy))
  | .or => .ok (.bool (left.truthy || right.truthy))
  | .coalesce => .ok (if left.isNull then right else left)

end Value

/-- An unknown variable counts as null. -/
def lenient (result : Except EvalError Value) : Except EvalError Value :=
  match result with
  | .error (.unknownVariable _) => .ok .null
  | _ => result

/-- The value of an expression. The logical operators, coalescing and `default` look at their second
operand only when the first one leaves the value open. -/
def Expr.eval (data : Data) : Expr → Except EvalError Value
  | .literal value => .ok value
  | .var name =>
    match Fields.get? name data with
    | some value => .ok value
    | none => .error (.unknownVariable name)
  | .member object name => (object.eval data).map (Value.member name)
  | .index object place => do
    let container ← object.eval data
    match ← place.eval data with
    | .text name => return container.member name
    | .number n => return container.member n.text
    | _ => return .null
  | .unary .not operand => (operand.eval data).map fun value => .bool !value.truthy
  | .unary .negate operand => do
    let value ← operand.eval data
    match value.toBinary64? with
    | some x => Value.ofRounded UnaryOp.negate.text (.finite x.neg)
    | none => .error (.notNegatable value.kind)
  | .binary left .coalesce right => do
    let first ← lenient (left.eval data)
    if first.isNull then right.eval data else return first
  | .binary left .and right => do
    let first ← left.eval data
    if first.truthy then (right.eval data).map fun value => .bool value.truthy
    else return .bool false
  | .binary left .or right => do
    let first ← left.eval data
    if first.truthy then return .bool true
    else (right.eval data).map fun value => .bool value.truthy
  | .binary left op right => do
    let first ← left.eval data
    let second ← right.eval data
    Value.binary op first second
  | .call name arguments =>
    match Function.ofName? name, arguments with
    | none, _ => .error (.unknownFunction name)
    | some .isNull, [e] => (lenient (e.eval data)).map fun value => .bool value.isNull
    | some .default, [e, other] => do
      let value ← lenient (e.eval data)
      match value with
      | .null => other.eval data
      | .text [] => other.eval data
      | _ => return value
    | some .count, [e] => do
      let n ← (← e.eval data).count
      return .number (.whole n)
    | some .upper, [e] => (e.eval data).map fun value => .text (Text.toUpper value.display)
    | some .lower, [e] => (e.eval data).map fun value => .text (Text.toLower value.display)
    | some .trim, [e] => (e.eval data).map fun value => .text (Text.trim value.display)
    | some .json, [e] => (e.eval data).map fun value => .text (Json.write value)
    | some function, args => .error (.argumentCount name function.arity args.length)

end Templates
