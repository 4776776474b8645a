import Templates.Expr.Parser

/-! Whole sources are read as an expression or as the header of a loop or an assignment. -/

namespace Templates

/-- What a loop over entries runs through, and the variables it binds. -/
structure ForeachHeader where
  iterable : Expr
  key : Option Text
  item : Text
deriving Repr

/-- What a loop over integers runs through, and the variable it binds. -/
structure RangeHeader where
  counter : Text
  start : Expr
  stop : Expr
  inclusive : Bool
deriving Repr

/-- A variable and what it is set to. -/
structure Assignment where
  name : Text
  value : Expr
deriving Repr

namespace Reader

/-- Reads `items as item` or `items as key => item`. -/
def foreachHeader : Reader ForeachHeader := fun tokens => do
  let (iterable, tokens) ← expression tokens
  let ((), tokens) ← keyword .wordAs tokens
  let (first, tokens) ← name tokens
  match symbol? .arrow tokens with
  | none => return (⟨iterable, none, first⟩, tokens)
  | some tokens =>
    let (item, tokens) ← name tokens
    return (⟨iterable, some first, item⟩, tokens)

/-- Reads `i in first..last` or `i in first..=last`. -/
def rangeHeader : Reader RangeHeader := fun tokens => do
  let (counter, tokens) ← name tokens
  let ((), tokens) ← keyword .wordIn tokens
  let (start, tokens) ← sum tokens
  match symbol? .dotsEqual tokens with
  | some tokens =>
    let (stop, tokens) ← sum tokens
    return (⟨counter, start, stop, true⟩, tokens)
  | none =>
    let ((), tokens) ← symbol .dots tokens
    let (stop, tokens) ← sum tokens
    return (⟨counter, start, stop, false⟩, tokens)

/-- Reads `name = value`. -/
def assignment : Reader Assignment := fun tokens => do
  let (name, tokens) ← name tokens
  let ((), tokens) ← symbol .assign tokens
  let (value, tokens) ← expression tokens
  return (⟨name, value⟩, tokens)

/-- A source must be used up; faults are reported at offsets counted from a base. -/
def readAll {α : Type} (reader : Reader α) (base : Nat) (source : Text) : Except SyntaxError α :=
  match Lexer.tokenize source with
  | .error offset => .error ⟨base + offset, .unexpectedCharacter⟩
  | .ok tokens =>
    let result : Except Misread α := do
      let (value, rest) ← reader tokens
      finish rest
      return value
    match result with
    | .ok value => .ok value
    | .error misread => .error ⟨base + misread.place.getD (Text.bytes source), misread.fault⟩

end Reader

/-- The expression a source holds. -/
def Expr.read (base : Nat) (source : Text) : Except SyntaxError Expr :=
  Reader.readAll Reader.expression base source

/-- The header of a loop over entries that a source holds. -/
def ForeachHeader.read (base : Nat) (source : Text) : Except SyntaxError ForeachHeader :=
  Reader.readAll Reader.foreachHeader base source

/-- The header of a loop over integers that a source holds. -/
def RangeHeader.read (base : Nat) (source : Text) : Except SyntaxError RangeHeader :=
  Reader.readAll Reader.rangeHeader base source

/-- The assignment a source holds. -/
def Assignment.read (base : Nat) (source : Text) : Except SyntaxError Assignment :=
  Reader.readAll Reader.assignment base source

end Templates
