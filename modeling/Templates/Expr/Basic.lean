import Templates.Value.Basic

/-! Expressions: what templates compute. -/

namespace Templates

/-- Operators in front of one operand. -/
inductive UnaryOp where
  | not
  | negate
deriving DecidableEq, Repr

/-- Operators between two operands. -/
inductive BinaryOp where
  | add
  | subtract
  | multiply
  | divide
  | modulo
  | equals
  | notEquals
  | less
  | lessOrEqual
  | greater
  | greaterOrEqual
  | and
  | or
  | coalesce
deriving DecidableEq, Repr

/-- An expression. -/
inductive Expr where
  | literal (value : Value)
  | var (name : Text)
  | member (object : Expr) (name : Text)
  | index (object : Expr) (place : Expr)
  | unary (op : UnaryOp) (operand : Expr)
  | binary (left : Expr) (op : BinaryOp) (right : Expr)
  | call (name : Text) (arguments : List Expr)
deriving Repr, Inhabited

/-- The sign of an operator. -/
def UnaryOp.text : UnaryOp → Text
  | .not => "!"
  | .negate => "-"

/-- The sign of an operator. -/
def BinaryOp.text : BinaryOp → Text
  | .add => "+"
  | .subtract => "-"
  | .multiply => "*"
  | .divide => "/"
  | .modulo => "%"
  | .equals => "=="
  | .notEquals => "!="
  | .less => "<"
  | .lessOrEqual => "<="
  | .greater => ">"
  | .greaterOrEqual => ">="
  | .and => "&&"
  | .or => "||"
  | .coalesce => "??"

end Templates
