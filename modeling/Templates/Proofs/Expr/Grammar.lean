import Templates.Expr.Header

/-!
The grammar of expressions and headers.

Operators of one level gather to the left, a level is joined from operands of the next tighter one,
and what stands in brackets is one bracket less deep.
-/

namespace Templates

open Reader (Level)

/-- The lists of tokens that stand for a value. -/
abbrev Language (α : Type) := List Token → α → Prop

namespace Grammar

/-- Operands joined by the operators of one level. -/
inductive LeftJoined (level : Level) (operand : Language Expr) : Language Expr where
  | operand {tokens : List Token} {e : Expr} :
    operand tokens e → LeftJoined level operand tokens e
  | binary {left right : List Token} {a b : Expr} {sign : Symbol} {op : BinaryOp} :
    LeftJoined level operand left a → level.lookup sign = some op → operand right b →
      LeftJoined level operand (left ++ .symbol sign :: right) (.binary a op b)

/-- Operands joined by the operators of several levels, loosest first. -/
def Joined (levels : List Level) (operand : Language Expr) : Language Expr :=
  levels.foldr LeftJoined operand

/-- One or more expressions with commas between them. -/
inductive Items (inner : Language Expr) : Language (List Expr) where
  | last {tokens : List Token} {e : Expr} : inner tokens e → Items inner tokens [e]
  | more {first others : List Token} {e : Expr} {es : List Expr} :
    inner first e → Items inner others es →
      Items inner (first ++ .symbol .comma :: others) (e :: es)

/-- The arguments of a call. -/
inductive Arguments (inner : Language Expr) : Language (List Expr) where
  | none : Arguments inner [] []
  | some {tokens : List Token} {es : List Expr} : Items inner tokens es → Arguments inner tokens es

/-- Literals, variables, calls and expressions in parentheses. -/
inductive Primary (inner : Language Expr) : Language Expr where
  | true : Primary inner [.keyword .wordTrue] (.literal (.bool true))
  | false : Primary inner [.keyword .wordFalse] (.literal (.bool false))
  | null : Primary inner [.keyword .wordNull] (.literal .null)
  | number {digits : Text} {n : Number} :
    Literal.number? digits = some n → Primary inner [.number digits] (.literal (.number n))
  | string (literal : Text) :
    Primary inner [.string literal] (.literal (.text (Literal.string literal)))
  | var (name : Text) : Primary inner [.name name] (.var name)
  | call (name : Text) {tokens : List Token} {arguments : List Expr} :
    Arguments inner tokens arguments →
      Primary inner (.name name :: .symbol .leftParen :: tokens ++ [.symbol .rightParen])
        (.call name arguments)
  | parens {tokens : List Token} {e : Expr} :
    inner tokens e → Primary inner (.symbol .leftParen :: tokens ++ [.symbol .rightParen]) e

/-- A primary expression with its members and indexes. -/
inductive Accessed (inner : Language Expr) : Language Expr where
  | primary {tokens : List Token} {e : Expr} : Primary inner tokens e → Accessed inner tokens e
  | member {tokens : List Token} {e : Expr} (name : Text) :
    Accessed inner tokens e → Accessed inner (tokens ++ [.symbol .dot, .name name]) (.member e name)
  | place {tokens : List Token} {e : Expr} (digits : Text) :
    Accessed inner tokens e →
      Accessed inner (tokens ++ [.symbol .dot, .number digits]) (.member e digits)
  | index {tokens inside : List Token} {e place : Expr} :
    Accessed inner tokens e → inner inside place →
      Accessed inner (tokens ++ .symbol .leftBracket :: inside ++ [.symbol .rightBracket])
        (.index e place)

/-- An expression with signs in front of it. -/
inductive Signed (inner : Language Expr) : Language Expr where
  | accessed {tokens : List Token} {e : Expr} : Accessed inner tokens e → Signed inner tokens e
  | not {tokens : List Token} {e : Expr} :
    Signed inner tokens e → Signed inner (.symbol .bang :: tokens) (.unary .not e)
  | negate {tokens : List Token} {e : Expr} :
    Signed inner tokens e → Signed inner (.symbol .minus :: tokens) (.unary .negate e)

/-- Expressions whose brackets nest less deep than a given number. -/
def Nested : Nat → Language Expr
  | 0 => fun _ _ => False
  | depth + 1 => Joined Reader.levels (Signed (Nested depth))

/-- Expressions. -/
def Expression : Language Expr := fun tokens e =>
  ∃ depth, Nested depth tokens e

/-- Expressions without comparisons and logical operators at their top. -/
def Sum : Language Expr := fun tokens e =>
  ∃ depth, Joined Reader.sumLevels (Signed (Nested depth)) tokens e

/-- Headers of loops over entries. -/
inductive Foreach : Language ForeachHeader where
  | items {tokens : List Token} {iterable : Expr} (item : Text) :
    Expression tokens iterable →
      Foreach (tokens ++ [.keyword .wordAs, .name item]) ⟨iterable, none, item⟩
  | entries {tokens : List Token} {iterable : Expr} (key item : Text) :
    Expression tokens iterable →
      Foreach (tokens ++ [.keyword .wordAs, .name key, .symbol .arrow, .name item])
        ⟨iterable, some key, item⟩

/-- Headers of loops over integers. -/
inductive Range : Language RangeHeader where
  | exclusive {first last : List Token} {start stop : Expr} (counter : Text) :
    Sum first start → Sum last stop →
      Range (.name counter :: .keyword .wordIn :: first ++ .symbol .dots :: last)
        ⟨counter, start, stop, false⟩
  | inclusive {first last : List Token} {start stop : Expr} (counter : Text) :
    Sum first start → Sum last stop →
      Range (.name counter :: .keyword .wordIn :: first ++ .symbol .dotsEqual :: last)
        ⟨counter, start, stop, true⟩

/-- Assignments. -/
inductive Assign : Language Assignment where
  | intro {tokens : List Token} {value : Expr} (name : Text) :
    Expression tokens value → Assign (.name name :: .symbol .assign :: tokens) ⟨name, value⟩

end Grammar

end Templates
