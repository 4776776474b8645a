import Templates.Expr.Token

/-! Reasons why a text is no expression, no header and no statement. -/

namespace Templates

/-- What a reader was looking for. -/
inductive Wanted where
  | expression
  | propertyName
  | identifier
  | keyword (word : Keyword)
  | symbol (symbol : Symbol)
deriving DecidableEq, Repr

/-- A fault of syntax. -/
inductive Fault where
  | unexpectedCharacter
  | invalidNumber
  | missing (wanted : Wanted) (found : Option Token)
  | trailing (found : Token)
  | unexpectedTag (keyword : Text)
deriving DecidableEq, Repr

/-- A fault with the byte offset it is reported at. -/
structure SyntaxError where
  position : Nat
  fault : Fault
deriving DecidableEq, Repr

/-- How messages name what was looked for. -/
def Wanted.describe : Wanted → Text
  | .expression => "expression"
  | .propertyName => "property name"
  | .identifier => "identifier"
  | .keyword word => word.text
  | .symbol sign => sign.text

/-- The wording of a fault. -/
def Fault.message : Fault → Text
  | .unexpectedCharacter => "Unexpected character"
  | .invalidNumber => "Invalid number"
  | .missing wanted none =>
    "Expected ".toList ++ wanted.describe ++ ", found end of expression".toList
  | .missing wanted (some found) =>
    "Expected ".toList ++ wanted.describe ++ ", found ".toList ++ found.describe
  | .trailing found => "Unexpected ".toList ++ found.describe ++ " after expression".toList
  | .unexpectedTag keyword => "Unexpected `".toList ++ keyword ++ "` tag".toList

/-- The wording of a fault with its position. -/
def SyntaxError.message (error : SyntaxError) : Text :=
  "Syntax error at ".toList ++ Text.decimal error.position ++ ": ".toList ++ error.fault.message

end Templates
