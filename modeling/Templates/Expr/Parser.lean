import Templates.Expr.Basic
import Templates.Expr.Error
import Templates.Expr.Lexer
import Templates.Number.Basic
import Templates.Text.Digits

/-!
Expressions are read from tokens by levels of precedence.

Each level reads its operands by the next tighter one, and brackets start again from the loosest.
The readers are given the reader for what stands inside brackets, and the number of tokens bounds
how deep brackets nest. What a literal stands for is read off its characters.
-/

namespace Templates.Literal

/-- Digits without a point are an integer while it fits 64 bits with a sign; every other number is
the nearest fraction, if there is a finite one. -/
def number? (digits : Text) : Option Number :=
  let whole := digits.takeWhile Char.isDigit
  let fraction := (digits.dropWhile Char.isDigit).drop 1
  if fraction.isEmpty && Number.fitsSigned (Text.natural whole) then
    some (.whole (Text.natural whole))
  else
    match Binary64.ofQuotient false (Text.natural (whole ++ fraction)) (tenTo fraction.length) with
    | .finite x => some (.real x)
    | .infinite _ => none

/-- The characters between the quotes, where a backslash stands for the character behind it and the
letters n, t and r behind it for newline, tab and return. -/
def unescape : Text → Text
  | '\\' :: 'n' :: rest => '\n' :: unescape rest
  | '\\' :: 't' :: rest => '\t' :: unescape rest
  | '\\' :: 'r' :: rest => '\r' :: unescape rest
  | '\\' :: c :: rest => c :: unescape rest
  | c :: rest => c :: unescape rest
  | [] => []

/-- The text a string literal stands for. -/
def string (literal : Text) : Text :=
  unescape (literal.drop 1).dropLast

end Templates.Literal

namespace Templates

/-- A fault before its offset is known: it stands at a token or at the end of the source. -/
structure Misread where
  place : Option Nat
  fault : Fault
deriving DecidableEq, Repr

/-- A reader takes tokens off the front and leaves the others. -/
abbrev Reader (α : Type) := List Spanned → Except Misread (α × List Spanned)

namespace Reader

/-- Something was looked for where other tokens stand. -/
def missing (wanted : Wanted) : List Spanned → Misread
  | [] => ⟨none, .missing wanted none⟩
  | found :: _ => ⟨some found.start, .missing wanted (some found.token)⟩

/-- The symbol that must come next. -/
def symbol (expected : Symbol) : Reader Unit
  | tokens@(⟨.symbol found, _, _⟩ :: rest) =>
    if found = expected then .ok ((), rest) else .error (missing (.symbol expected) tokens)
  | tokens => .error (missing (.symbol expected) tokens)

/-- The keyword that must come next. -/
def keyword (expected : Keyword) : Reader Unit
  | tokens@(⟨.keyword found, _, _⟩ :: rest) =>
    if found = expected then .ok ((), rest) else .error (missing (.keyword expected) tokens)
  | tokens => .error (missing (.keyword expected) tokens)

/-- The name that must come next. -/
def name : Reader Text
  | ⟨.name found, _, _⟩ :: rest => .ok (found, rest)
  | tokens => .error (missing .identifier tokens)

/-- Whether a symbol comes next, and what follows it if it does. -/
def symbol? (expected : Symbol) : List Spanned → Option (List Spanned)
  | ⟨.symbol found, _, _⟩ :: rest => if found = expected then some rest else none
  | _ => none

/-- Nothing may be left. -/
def finish : List Spanned → Except Misread Unit
  | [] => .ok ()
  | found :: _ => .error ⟨some found.start, .trailing found.token⟩

/-- A level of precedence: its symbols and the operators they stand for. -/
abbrev Level := List (Symbol × BinaryOp)

/-- The levels of precedence, loosest first. -/
def levels : List Level :=
  [[(.coalesce, .coalesce)],
    [(.either, .or)],
    [(.both, .and)],
    [(.equal, .equals), (.notEqual, .notEquals)],
    [(.less, .less), (.lessEqual, .lessOrEqual), (.greater, .greater),
      (.greaterEqual, .greaterOrEqual)],
    [(.plus, .add), (.minus, .subtract)],
    [(.star, .multiply), (.slash, .divide), (.percent, .modulo)]]

/-- The levels from sums down. -/
def sumLevels : List Level :=
  levels.drop 5

/-- An operator of a level at the front. -/
def operator? (level : Level) : List Spanned → Option (BinaryOp × List Spanned)
  | ⟨.symbol found, _, _⟩ :: rest => (level.lookup found).map fun op => (op, rest)
  | _ => none

/-- Operators and right operands gather to the left; the first argument bounds their number. -/
def moreOperands (level : Level) (operand : Reader Expr) : Nat → Expr → Reader Expr
  | 0, left, tokens => .ok (left, tokens)
  | count + 1, left, tokens =>
    match operator? level tokens with
    | none => .ok (left, tokens)
    | some (op, rest) =>
      match operand rest with
      | .error e => .error e
      | .ok (right, rest) => moreOperands level operand count (.binary left op right) rest

/-- Operands of a level joined by its operators. -/
def leftJoined (level : Level) (operand : Reader Expr) : Reader Expr := fun tokens =>
  match operand tokens with
  | .error e => .error e
  | .ok (left, rest) => moreOperands level operand rest.length left rest

/-- Operands joined by the operators of several levels, loosest first. -/
def joined (levels : List Level) (operand : Reader Expr) : Reader Expr :=
  levels.foldr leftJoined operand

/-- Arguments up to the closing parenthesis, each but the last followed by a comma. -/
def moreArguments (inner : Reader Expr) : Nat → Reader (List Expr)
  | 0, tokens => .error (missing .expression tokens)
  | count + 1, tokens =>
    match inner tokens with
    | .error e => .error e
    | .ok (first, rest) =>
      match symbol? .rightParen rest with
      | some rest => .ok ([first], rest)
      | none =>
        match symbol .comma rest with
        | .error e => .error e
        | .ok ((), rest) =>
          match moreArguments inner count rest with
          | .error e => .error e
          | .ok (others, rest) => .ok (first :: others, rest)

/-- The arguments of a call behind its opening parenthesis. -/
def arguments (inner : Reader Expr) : Reader (List Expr) := fun tokens =>
  match symbol? .rightParen tokens with
  | some rest => .ok ([], rest)
  | none => moreArguments inner (tokens.length + 1) tokens

/-- Literals, variables, calls and expressions in parentheses. -/
def primary (inner : Reader Expr) : Reader Expr
  | ⟨.keyword .wordTrue, _, _⟩ :: rest => .ok (.literal (.bool true), rest)
  | ⟨.keyword .wordFalse, _, _⟩ :: rest => .ok (.literal (.bool false), rest)
  | ⟨.keyword .wordNull, _, _⟩ :: rest => .ok (.literal .null, rest)
  | ⟨.number digits, start, _⟩ :: rest =>
    match Literal.number? digits with
    | some n => .ok (.literal (.number n), rest)
    | none => .error ⟨some start, .invalidNumber⟩
  | ⟨.string literal, _, _⟩ :: rest => .ok (.literal (.text (Literal.string literal)), rest)
  | ⟨.name name, _, _⟩ :: rest =>
    match symbol? .leftParen rest with
    | none => .ok (.var name, rest)
    | some rest =>
      match arguments inner rest with
      | .error e => .error e
      | .ok (args, rest) => .ok (.call name args, rest)
  | ⟨.symbol .leftParen, _, _⟩ :: rest =>
    match inner rest with
    | .error e => .error e
    | .ok (e, rest) =>
      match symbol .rightParen rest with
      | .error e => .error e
      | .ok ((), rest) => .ok (e, rest)
  | tokens => .error (missing .expression tokens)

/-- Members and indexes behind an expression gather to the left; the first argument bounds their
number. -/
def moreAccesses (inner : Reader Expr) : Nat → Expr → Reader Expr
  | 0, e, tokens => .ok (e, tokens)
  | count + 1, e, tokens =>
    match tokens with
    | ⟨.symbol .dot, _, _⟩ :: ⟨.name name, _, _⟩ :: rest =>
      moreAccesses inner count (.member e name) rest
    | ⟨.symbol .dot, _, _⟩ :: ⟨.number digits, _, _⟩ :: rest =>
      moreAccesses inner count (.member e digits) rest
    | ⟨.symbol .dot, _, _⟩ :: rest => .error (missing .propertyName rest)
    | ⟨.symbol .leftBracket, _, _⟩ :: rest =>
      match inner rest with
      | .error e => .error e
      | .ok (index, rest) =>
        match symbol .rightBracket rest with
        | .error e => .error e
        | .ok ((), rest) => moreAccesses inner count (.index e index) rest
    | _ => .ok (e, tokens)

/-- A primary expression with its members and indexes. -/
def accessed (inner : Reader Expr) : Reader Expr := fun tokens =>
  match primary inner tokens with
  | .error e => .error e
  | .ok (e, rest) => moreAccesses inner rest.length e rest

/-- Signs in front of an expression apply from the inside out. -/
def signed (inner : Reader Expr) : Reader Expr
  | ⟨.symbol .bang, _, _⟩ :: rest =>
    match signed inner rest with
    | .error e => .error e
    | .ok (e, rest) => .ok (.unary .not e, rest)
  | ⟨.symbol .minus, _, _⟩ :: rest =>
    match signed inner rest with
    | .error e => .error e
    | .ok (e, rest) => .ok (.unary .negate e, rest)
  | tokens => accessed inner tokens

/-- An expression whose brackets nest at most a given number deep. -/
def nested : Nat → Reader Expr
  | 0 => fun tokens => .error (missing .expression tokens)
  | depth + 1 => joined levels (signed (nested depth))

/-- An expression. -/
def expression : Reader Expr := fun tokens =>
  nested (tokens.length + 1) tokens

/-- An expression without comparisons and logical operators at its top. -/
def sum : Reader Expr := fun tokens =>
  joined sumLevels (signed (nested tokens.length)) tokens

end Reader

end Templates
