import Templates.Proofs.Expr.Complete

/-!
The grammar of expressions by its productions.

Expressions are sorted into strata, from the loosest operators to the tightest. Main statement: a
source holds an expression exactly when its tokens derive it, and they derive no other one.
-/

namespace Templates

open Reader (Level levels)

namespace Grammar

/-- The strata of expressions, from the loosest operators to the tightest. -/
inductive Stratum where
  | coalesce
  | either
  | both
  | equality
  | comparison
  | sum
  | product
  | unary
  | access
  | primary
deriving DecidableEq, Repr

namespace Stratum

/-- The next tighter stratum. -/
def below? : Stratum → Option Stratum
  | .coalesce => some .either
  | .either => some .both
  | .both => some .equality
  | .equality => some .comparison
  | .comparison => some .sum
  | .sum => some .product
  | .product => some .unary
  | .unary => some .access
  | .access => some .primary
  | .primary => none

/-- The operator that a sign stands for between two operands of a stratum. -/
def operator? : Stratum → Symbol → Option BinaryOp
  | .coalesce, .coalesce => some .coalesce
  | .either, .either => some .or
  | .both, .both => some .and
  | .equality, .equal => some .equals
  | .equality, .notEqual => some .notEquals
  | .comparison, .less => some .less
  | .comparison, .lessEqual => some .lessOrEqual
  | .comparison, .greater => some .greater
  | .comparison, .greaterEqual => some .greaterOrEqual
  | .sum, .plus => some .add
  | .sum, .minus => some .subtract
  | .product, .star => some .multiply
  | .product, .slash => some .divide
  | .product, .percent => some .modulo
  | _, _ => none

end Stratum

mutual

/-- The tokens that derive an expression of a stratum. Operators of one stratum have what stands to
their left for their left operand. -/
inductive Derives : Stratum → Language Expr where
  | tighter {stratum below : Stratum} {tokens : List Token} {e : Expr} :
    stratum.below? = some below → Derives below tokens e → Derives stratum tokens e
  | binary {stratum below : Stratum} {left right : List Token} {a b : Expr} {sign : Symbol}
    {op : BinaryOp} :
    stratum.below? = some below → Derives stratum left a → stratum.operator? sign = some op →
      Derives below right b → Derives stratum (left ++ .symbol sign :: right) (.binary a op b)
  | not {tokens : List Token} {e : Expr} :
    Derives .unary tokens e → Derives .unary (.symbol .bang :: tokens) (.unary .not e)
  | negate {tokens : List Token} {e : Expr} :
    Derives .unary tokens e → Derives .unary (.symbol .minus :: tokens) (.unary .negate e)
  | member {tokens : List Token} {e : Expr} (name : Text) :
    Derives .access tokens e →
      Derives .access (tokens ++ [.symbol .dot, .name name]) (.member e name)
  | place {tokens : List Token} {e : Expr} (digits : Text) :
    Derives .access tokens e →
      Derives .access (tokens ++ [.symbol .dot, .number digits]) (.member e digits)
  | index {tokens inside : List Token} {e place : Expr} :
    Derives .access tokens e → Derives .coalesce inside place →
      Derives .access (tokens ++ .symbol .leftBracket :: inside ++ [.symbol .rightBracket])
        (.index e place)
  | true : Derives .primary [.keyword .wordTrue] (.literal (.bool true))
  | false : Derives .primary [.keyword .wordFalse] (.literal (.bool false))
  | null : Derives .primary [.keyword .wordNull] (.literal .null)
  | number {digits : Text} {n : Number} :
    Literal.number? digits = some n →
      Derives .primary [.number digits] (.literal (.number n))
  | string (literal : Text) :
    Derives .primary [.string literal] (.literal (.text (Literal.string literal)))
  | var (name : Text) : Derives .primary [.name name] (.var name)
  | emptyCall (name : Text) :
    Derives .primary [.name name, .symbol .leftParen, .symbol .rightParen] (.call name [])
  | call (name : Text) {tokens : List Token} {arguments : List Expr} :
    DerivesList tokens arguments →
      Derives .primary (.name name :: .symbol .leftParen :: tokens ++ [.symbol .rightParen])
        (.call name arguments)
  | parens {tokens : List Token} {e : Expr} :
    Derives .coalesce tokens e →
      Derives .primary (.symbol .leftParen :: tokens ++ [.symbol .rightParen]) e

/-- The tokens that derive one or more expressions with commas between them. -/
inductive DerivesList : Language (List Expr) where
  | last {tokens : List Token} {e : Expr} : Derives .coalesce tokens e → DerivesList tokens [e]
  | more {first others : List Token} {e : Expr} {es : List Expr} :
    Derives .coalesce first e → DerivesList others es →
      DerivesList (first ++ .symbol .comma :: others) (e :: es)

end

namespace Stratum

/-- The levels of precedence from a stratum down. -/
def levels : Stratum → List Level
  | .coalesce => Reader.levels
  | .either => Reader.levels.drop 1
  | .both => Reader.levels.drop 2
  | .equality => Reader.levels.drop 3
  | .comparison => Reader.levels.drop 4
  | .sum => Reader.levels.drop 5
  | .product => Reader.levels.drop 6
  | _ => []

/-- The expressions of a stratum, given those that may stand in brackets. -/
def language (inner : Language Expr) : Stratum → Language Expr
  | .access => Accessed inner
  | .primary => Primary inner
  | stratum => Joined stratum.levels (Signed inner)

/-- The operators of a stratum are those of its first level. -/
theorem lookup_levels (stratum : Stratum) (sign : Symbol) :
    (stratum.levels.head?.bind fun level => level.lookup sign) = stratum.operator? sign := by
  cases stratum <;> cases sign <;> rfl

end Stratum

/-- All that stands for a value in one language does so in another one. -/
def Within {α : Type} (small large : Language α) : Prop :=
  ∀ tokens value, small tokens value → large tokens value

variable {inner : Language Expr}

/-- Expressions with commas between them are derived when each of them is. -/
theorem DerivesList.of_items (within : Within inner (Derives .coalesce)) :
    Within (Items inner) DerivesList := by
  intro tokens es stands
  induction stands with
  | last stands => exact .last (within _ _ stands)
  | more stands _ ih => exact .more (within _ _ stands) ih

namespace Derives

/-- A primary expression is derived when what stands in its brackets is. -/
theorem of_primary (within : Within inner (Derives .coalesce)) :
    Within (Primary inner) (Derives .primary) := by
  intro tokens e stands
  cases stands with
  | true => exact .true
  | false => exact .false
  | null => exact .null
  | number finite => exact .number finite
  | string literal => exact .string literal
  | var name => exact .var name
  | call name arguments =>
    -- A call without arguments has a production of its own.
    cases arguments with
    | none => exact .emptyCall name
    | some items => exact .call name (DerivesList.of_items within _ _ items)
  | parens stands => exact .parens (within _ _ stands)

/-- An expression with members and indexes is derived when what stands in its brackets is. -/
theorem of_accessed (within : Within inner (Derives .coalesce)) :
    Within (Accessed inner) (Derives .access) := by
  intro tokens e stands
  -- Each access has the expression in front of it for its object.
  induction stands with
  | primary stands => exact .tighter rfl (of_primary within _ _ stands)
  | member name _ ih => exact .member name ih
  | place digits _ ih => exact .place digits ih
  | index _ inside ih => exact .index ih (within _ _ inside)

/-- An expression with signs in front of it is derived when what stands in its brackets is. -/
theorem of_signed (within : Within inner (Derives .coalesce)) :
    Within (Signed inner) (Derives .unary) := by
  intro tokens e stands
  induction stands with
  | accessed stands => exact .tighter rfl (of_accessed within _ _ stands)
  | not _ ih => exact .not ih
  | negate _ ih => exact .negate ih

/-- Operands joined by the operators of a level are derived in the stratum of the level. -/
theorem of_leftJoined {level : Level} {operand : Language Expr} {stratum below : Stratum}
    (next : stratum.below? = some below) (first : stratum.levels.head? = some level)
    (operands : Within operand (Derives below)) :
    Within (LeftJoined level operand) (Derives stratum) := by
  intro tokens e stands
  -- The operators gather to the left in both.
  induction stands with
  | operand stands => exact .tighter next (operands _ _ stands)
  | @binary _ _ _ _ sign _ _ found right ih =>
    have joins := stratum.lookup_levels sign
    rw [first, Option.bind_some, found] at joins
    exact .binary next ih joins.symm (operands _ _ right)

/-- What brackets of a bounded depth allow is derived. -/
theorem of_nested (depth : Nat) : Within (Nested depth) (Derives .coalesce) := by
  -- What stands in brackets is one bracket less deep.
  induction depth with
  | zero => exact fun _ _ stands => stands.elim
  | succ depth ih =>
    -- From the tightest stratum to the loosest, each has the one before it for its operands.
    have unary : Within (Stratum.unary.language (Nested depth)) (Derives .unary) := of_signed ih
    have product : Within (Stratum.product.language (Nested depth)) (Derives .product) :=
      of_leftJoined rfl rfl unary
    have sum : Within (Stratum.sum.language (Nested depth)) (Derives .sum) :=
      of_leftJoined rfl rfl product
    have comparison : Within (Stratum.comparison.language (Nested depth)) (Derives .comparison) :=
      of_leftJoined rfl rfl sum
    have equality : Within (Stratum.equality.language (Nested depth)) (Derives .equality) :=
      of_leftJoined rfl rfl comparison
    have both : Within (Stratum.both.language (Nested depth)) (Derives .both) :=
      of_leftJoined rfl rfl equality
    have either : Within (Stratum.either.language (Nested depth)) (Derives .either) :=
      of_leftJoined rfl rfl both
    exact of_leftJoined rfl rfl either

end Derives

section Monotone

variable {outer : Language Expr} (within : Within inner outer)

include within

/-- More operands make more joined operands. -/
theorem LeftJoined.mono (level : Level) :
    Within (LeftJoined level inner) (LeftJoined level outer) := by
  intro tokens e stands
  induction stands with
  | operand stands => exact .operand (within _ _ stands)
  | binary _ found right ih => exact .binary ih found (within _ _ right)

/-- More operands make more operands joined by the operators of several levels. -/
theorem Joined.mono (levels : List Level) : Within (Joined levels inner) (Joined levels outer) := by
  induction levels with
  | nil => exact within
  | cons level levels ih => exact LeftJoined.mono ih level

/-- More expressions make more lists of them. -/
theorem Items.mono : Within (Items inner) (Items outer) := by
  intro tokens es stands
  induction stands with
  | last stands => exact .last (within _ _ stands)
  | more stands _ ih => exact .more (within _ _ stands) ih

/-- More expressions in brackets make more primary expressions. -/
theorem Primary.mono : Within (Primary inner) (Primary outer) := by
  intro tokens e stands
  cases stands with
  | true => exact .true
  | false => exact .false
  | null => exact .null
  | number finite => exact .number finite
  | string literal => exact .string literal
  | var name => exact .var name
  | call name arguments =>
    cases arguments with
    | none => exact .call name .none
    | some items => exact .call name (.some (Items.mono within _ _ items))
  | parens stands => exact .parens (within _ _ stands)

/-- More expressions in brackets make more expressions with members and indexes. -/
theorem Accessed.mono : Within (Accessed inner) (Accessed outer) := by
  intro tokens e stands
  induction stands with
  | primary stands => exact .primary (Primary.mono within _ _ stands)
  | member name _ ih => exact .member name ih
  | place digits _ ih => exact .place digits ih
  | index _ inside ih => exact .index ih (within _ _ inside)

/-- More expressions in brackets make more expressions with signs. -/
theorem Signed.mono : Within (Signed inner) (Signed outer) := by
  intro tokens e stands
  induction stands with
  | accessed stands => exact .accessed (Accessed.mono within _ _ stands)
  | not _ ih => exact .not ih
  | negate _ ih => exact .negate ih

/-- More expressions in brackets make more expressions of every stratum. -/
theorem Stratum.language_mono (stratum : Stratum) :
    Within (stratum.language inner) (stratum.language outer) := by
  cases stratum with
  | access => exact Accessed.mono within
  | primary => exact Primary.mono within
  | _ => exact Joined.mono (Signed.mono within) _

end Monotone

/-- Deeper brackets allow more expressions. -/
theorem nested_mono {depth deeper : Nat} (below : depth ≤ deeper) :
    Within (Nested depth) (Nested deeper) := by
  induction depth generalizing deeper with
  | zero => exact fun _ _ stands => stands.elim
  | succ depth ih =>
    obtain ⟨deeper, rfl⟩ : ∃ n, deeper = n + 1 := ⟨deeper - 1, by omega⟩
    exact Stratum.coalesce.language_mono (ih (by omega))

/-- The expressions of the next stratum are expressions of a stratum. -/
theorem Stratum.language_below {stratum below : Stratum} (next : stratum.below? = some below) :
    Within (below.language inner) (stratum.language inner) := by
  intro tokens e stands
  cases stratum <;> cases next
  case unary => exact Signed.accessed stands
  case access => exact Accessed.primary stands
  all_goals exact LeftJoined.operand stands

/-- An operator of a stratum joins its expressions to those of the next one. -/
theorem Stratum.language_binary {stratum below : Stratum} {left right : List Token} {a b : Expr}
    {sign : Symbol} {op : BinaryOp} (next : stratum.below? = some below)
    (found : stratum.operator? sign = some op) (before : stratum.language inner left a)
    (behind : below.language inner right b) :
    stratum.language inner (left ++ .symbol sign :: right) (.binary a op b) := by
  rw [← stratum.lookup_levels sign] at found
  cases stratum <;> cases next
  case unary => cases found
  case access => cases found
  all_goals exact LeftJoined.binary before found behind

mutual

/-- What is derived is allowed by brackets of some depth. -/
theorem Derives.exists_depth : {stratum : Stratum} → {tokens : List Token} → {e : Expr} →
    Derives stratum tokens e → ∃ depth, stratum.language (Nested depth) tokens e
  | _, _, _, .tighter next derives => by
    obtain ⟨depth, stands⟩ := derives.exists_depth
    exact ⟨depth, Stratum.language_below next _ _ stands⟩
  | _, _, _, .binary next left found right => by
    -- Where two parts are put together, the deeper brackets count.
    obtain ⟨first, before⟩ := left.exists_depth
    obtain ⟨second, behind⟩ := right.exists_depth
    refine ⟨max first second, Stratum.language_binary next found ?_ ?_⟩
    · exact Stratum.language_mono (nested_mono (Nat.le_max_left first second)) _ _ _ before
    · exact Stratum.language_mono (nested_mono (Nat.le_max_right first second)) _ _ _ behind
  | _, _, _, .not derives => by
    obtain ⟨depth, stands⟩ := derives.exists_depth
    exact ⟨depth, Signed.not stands⟩
  | _, _, _, .negate derives => by
    obtain ⟨depth, stands⟩ := derives.exists_depth
    exact ⟨depth, Signed.negate stands⟩
  | _, _, _, .member name derives => by
    obtain ⟨depth, stands⟩ := derives.exists_depth
    exact ⟨depth, Accessed.member name stands⟩
  | _, _, _, .place digits derives => by
    obtain ⟨depth, stands⟩ := derives.exists_depth
    exact ⟨depth, Accessed.place digits stands⟩
  | _, _, _, .index object place => by
    -- What stands in brackets is one bracket deeper than the brackets themselves.
    obtain ⟨first, before⟩ := object.exists_depth
    obtain ⟨second, inside⟩ := place.exists_depth
    refine ⟨max first (second + 1), Accessed.index ?_ ?_⟩
    · exact Accessed.mono (nested_mono (Nat.le_max_left first (second + 1))) _ _ before
    · exact nested_mono (Nat.le_max_right first (second + 1)) _ _ inside
  | _, _, _, .true => ⟨0, Primary.true⟩
  | _, _, _, .false => ⟨0, Primary.false⟩
  | _, _, _, .null => ⟨0, Primary.null⟩
  | _, _, _, .number finite => ⟨0, Primary.number finite⟩
  | _, _, _, .string literal => ⟨0, Primary.string literal⟩
  | _, _, _, .var name => ⟨0, Primary.var name⟩
  | _, _, _, .emptyCall name => ⟨0, Primary.call name .none⟩
  | _, _, _, .call name list => by
    obtain ⟨depth, items⟩ := list.exists_depth
    exact ⟨depth, Primary.call name (.some items)⟩
  | _, _, _, .parens derives => by
    obtain ⟨depth, stands⟩ := derives.exists_depth
    exact ⟨depth + 1, Primary.parens stands⟩

/-- A list that is derived is allowed by brackets of some depth. -/
theorem DerivesList.exists_depth : {tokens : List Token} → {es : List Expr} →
    DerivesList tokens es → ∃ depth, Items (Nested depth) tokens es
  | _, _, .last derives => by
    obtain ⟨depth, stands⟩ := derives.exists_depth
    exact ⟨depth + 1, .last stands⟩
  | _, _, .more derives others => by
    obtain ⟨first, before⟩ := derives.exists_depth
    obtain ⟨second, behind⟩ := others.exists_depth
    refine ⟨max (first + 1) second, .more ?_ ?_⟩
    · exact nested_mono (Nat.le_max_left (first + 1) second) _ _ before
    · exact Items.mono (nested_mono (Nat.le_max_right (first + 1) second)) _ _ behind

end

/-- What is derived in the loosest stratum are the expressions. -/
theorem derives_iff {tokens : List Token} {e : Expr} :
    Derives .coalesce tokens e ↔ Expression tokens e := by
  constructor
  · intro derives
    obtain ⟨depth, stands⟩ := derives.exists_depth
    exact ⟨depth + 1, stands⟩
  · rintro ⟨depth, stands⟩
    exact Derives.of_nested depth _ _ stands

/-- Tokens derive at most one expression. -/
theorem Derives.unique {tokens : List Token} {e other : Expr}
    (first : Derives .coalesce tokens e) (second : Derives .coalesce tokens other) :
    e = other := by
  -- Both are what the reader gives for these tokens, wherever they stand.
  let spans := tokens.map fun token => (⟨token, 0, 0⟩ : Spanned)
  have same : spans.map Spanned.token = tokens := by simp [spans, Function.comp_def]
  have read {e : Expr} (derives : Derives .coalesce tokens e) :
      Reader.expression spans = .ok (e, []) :=
    Reader.complete_expression (same.symm ▸ derives_iff.mp derives)
  have both := (read first).symm.trans (read second)
  exact congrArg Prod.fst (Except.ok.inj both)

end Grammar

open Grammar in
/-- A source holds an expression exactly when it can be cut into tokens that derive the expression,
wherever the source stands. These tokens derive no other expression. -/
theorem Expr.read_iff_derives (base : Nat) (source : Text) (e : Expr) :
    Expr.read base source = .ok e ↔
      ∃ spans, Lexer.tokenize source = .ok spans ∧
        Derives .coalesce (spans.map Spanned.token) e ∧
        ∀ other, Derives .coalesce (spans.map Spanned.token) other → other = e := by
  rw [Expr.read_eq_ok_iff]
  constructor
  · rintro ⟨tokens, lexed, stands⟩
    obtain ⟨spans, cut, rfl⟩ := lexed_iff_tokenize.mp lexed
    have derives := derives_iff.mpr stands
    exact ⟨spans, cut, derives, fun other second => second.unique derives⟩
  · rintro ⟨spans, cut, derives, -⟩
    exact ⟨_, lexed_iff_tokenize.mpr ⟨spans, cut, rfl⟩, derives_iff.mp derives⟩

end Templates
