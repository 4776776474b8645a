import Templates.Text.Basic

/-! The tokens of the expression language. -/

namespace Templates

/-- Words with a meaning of their own. -/
inductive Keyword where
  | wordTrue
  | wordFalse
  | wordNull
  | wordAs
  | wordIn
deriving DecidableEq, Repr

/-- Operators and punctuation. -/
inductive Symbol where
  | leftParen
  | rightParen
  | leftBracket
  | rightBracket
  | comma
  | dot
  | dots
  | dotsEqual
  | arrow
  | assign
  | equal
  | notEqual
  | less
  | lessEqual
  | greater
  | greaterEqual
  | both
  | either
  | coalesce
  | bang
  | plus
  | minus
  | star
  | slash
  | percent
deriving DecidableEq, Repr

/-- A token keeps what its meaning depends on: a name without its dollar sign, a string with its
quotes, a number with its digits. -/
inductive Token where
  | keyword (word : Keyword)
  | name (name : Text)
  | string (literal : Text)
  | number (digits : Text)
  | symbol (symbol : Symbol)
deriving DecidableEq, Repr

/-- A token with the offsets of its first byte and of the byte behind it. -/
structure Spanned where
  token : Token
  start : Nat
  stop : Nat
deriving DecidableEq, Repr

namespace Keyword

/-- All keywords. -/
def all : List Keyword :=
  [.wordTrue, .wordFalse, .wordNull, .wordAs, .wordIn]

/-- How a keyword is written. -/
def text : Keyword → Text
  | .wordTrue => "true"
  | .wordFalse => "false"
  | .wordNull => "null"
  | .wordAs => "as"
  | .wordIn => "in"

end Keyword

namespace Symbol

/-- How a symbol is written. -/
def text : Symbol → Text
  | .leftParen => "("
  | .rightParen => ")"
  | .leftBracket => "["
  | .rightBracket => "]"
  | .comma => ","
  | .dot => "."
  | .dots => ".."
  | .dotsEqual => "..="
  | .arrow => "=>"
  | .assign => "="
  | .equal => "=="
  | .notEqual => "!="
  | .less => "<"
  | .lessEqual => "<="
  | .greater => ">"
  | .greaterEqual => ">="
  | .both => "&&"
  | .either => "||"
  | .coalesce => "??"
  | .bang => "!"
  | .plus => "+"
  | .minus => "-"
  | .star => "*"
  | .slash => "/"
  | .percent => "%"

/-- All symbols, each before the symbols it begins with. -/
def longestFirst : List Symbol :=
  [.dotsEqual, .dots, .dot, .arrow, .equal, .assign, .notEqual, .bang, .lessEqual, .less,
    .greaterEqual, .greater, .both, .either, .coalesce, .leftParen, .rightParen, .leftBracket,
    .rightBracket, .comma, .plus, .minus, .star, .slash, .percent]

end Symbol

/-- What messages call a token. -/
def Token.describe : Token → Text
  | .keyword word => word.text
  | .name text => "identifier '".toList ++ text ++ ['\'']
  | .string literal => "string ".toList ++ literal
  | .number digits => "number ".toList ++ digits
  | .symbol sign => sign.text

end Templates
