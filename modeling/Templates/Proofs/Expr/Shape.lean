import Templates.Proofs.Expr.Grammar

/-!
How the tokens of expressions and headers are shaped.

They begin with a token that an operand can begin with, their parentheses pair up, and an operand
follows every percent sign.
-/

namespace Templates

open Reader (Level)

/-- The tokens that an operand without signs begins with. -/
def Token.beginsPrimary : Token → Bool
  | .keyword .wordAs => false
  | .keyword .wordIn => false
  | .symbol sign => sign = .leftParen
  | _ => true

/-- The tokens that an operand begins with. -/
def Token.beginsOperand (token : Token) : Bool :=
  token.beginsPrimary || token = .symbol .bang || token = .symbol .minus

/-- A list whose first token passes a test. -/
def BeginsWith (test : Token → Bool) (tokens : List Token) : Prop :=
  ∃ first rest, tokens = first :: rest ∧ test first = true

/-- Tokens whose parentheses pair up. -/
inductive Paired : List Token → Prop where
  | nil : Paired []
  | plain {token : Token} {rest : List Token} :
    token ≠ .symbol .leftParen → token ≠ .symbol .rightParen → Paired rest →
      Paired (token :: rest)
  | nested {inner rest : List Token} :
    Paired inner → Paired rest →
      Paired (.symbol .leftParen :: inner ++ .symbol .rightParen :: rest)

/-- Tokens where an operand follows every percent sign. -/
def Guarded : List Token → Prop
  | [] => True
  | token :: rest =>
    (token = .symbol .percent → BeginsWith Token.beginsOperand rest) ∧ Guarded rest

/-- Tokens shaped like those of expressions. -/
structure WellShaped (tokens : List Token) : Prop where
  paired : Paired tokens
  guarded : Guarded tokens

/-- The first token stays the first one when others come behind it. -/
theorem BeginsWith.append {test : Token → Bool} {front : List Token}
    (begins : BeginsWith test front) (back : List Token) : BeginsWith test (front ++ back) := by
  obtain ⟨first, rest, rfl, holds⟩ := begins
  exact ⟨first, rest ++ back, rfl, holds⟩

/-- A first token that passes a test passes every weaker one. -/
theorem BeginsWith.mono {test weaker : Token → Bool} {tokens : List Token}
    (begins : BeginsWith test tokens) (weakens : ∀ token, test token = true → weaker token = true) :
    BeginsWith weaker tokens := by
  obtain ⟨first, rest, same, holds⟩ := begins
  exact ⟨first, rest, same, weakens first holds⟩

/-- Whatever begins an operand without signs begins an operand. -/
theorem Token.beginsOperand_of_primary {token : Token} (begins : token.beginsPrimary = true) :
    token.beginsOperand = true := by
  simp [beginsOperand, begins]

/-- Parentheses that pair up in two lists do so in both together. -/
theorem Paired.append {front back : List Token} (first : Paired front) (second : Paired back) :
    Paired (front ++ back) := by
  -- The pairs of the first list are kept, and those of the second one come behind them.
  induction first with
  | nil => exact second
  | plain notOpen notClose _ ih => exact .plain notOpen notClose ih
  | nested inside _ _ ih => simpa using Paired.nested inside ih

/-- Percent signs that are followed by operands stay so when other tokens come behind. -/
theorem Guarded.append {front back : List Token} (first : Guarded front) (second : Guarded back) :
    Guarded (front ++ back) := by
  -- An operand that follows a percent sign still does.
  induction front with
  | nil => exact second
  | cons token front ih => exact ⟨fun percent => (first.1 percent).append back, ih first.2⟩

namespace WellShaped

/-- No tokens are well shaped. -/
theorem nil : WellShaped [] :=
  ⟨.nil, trivial⟩

/-- Two well shaped lists make up a well shaped one. -/
theorem append {front back : List Token} (first : WellShaped front) (second : WellShaped back) :
    WellShaped (front ++ back) :=
  ⟨first.paired.append second.paired, first.guarded.append second.guarded⟩

/-- A token that is no parenthesis and no percent sign may stand anywhere. -/
theorem cons {token : Token} {rest : List Token} (notOpen : token ≠ .symbol .leftParen)
    (notClose : token ≠ .symbol .rightParen) (notPercent : token ≠ .symbol .percent)
    (shaped : WellShaped rest) : WellShaped (token :: rest) :=
  ⟨.plain notOpen notClose shaped.paired, fun percent => absurd percent notPercent,
    shaped.guarded⟩

/-- Tokens without parentheses and percent signs may stand anywhere. -/
theorem plain {tokens : List Token}
    (others : ∀ token ∈ tokens, token ≠ .symbol .leftParen ∧ token ≠ .symbol .rightParen ∧
      token ≠ .symbol .percent) : WellShaped tokens := by
  induction tokens with
  | nil => exact nil
  | cons token tokens ih =>
    obtain ⟨⟨notOpen, notClose, notPercent⟩, behind⟩ := List.forall_mem_cons.mp others
    exact (ih behind).cons notOpen notClose notPercent

/-- A sign may stand in front of an operand. -/
theorem sign {sign : Symbol} {rest : List Token} (notOpen : sign ≠ .leftParen)
    (notClose : sign ≠ .rightParen) (begins : BeginsWith Token.beginsOperand rest)
    (shaped : WellShaped rest) : WellShaped (.symbol sign :: rest) :=
  ⟨.plain (by simp [notOpen]) (by simp [notClose]) shaped.paired, fun _ => begins, shaped.guarded⟩

/-- Parentheses may stand around a well shaped list. -/
theorem parens {tokens : List Token} (shaped : WellShaped tokens) :
    WellShaped (.symbol .leftParen :: tokens ++ [.symbol .rightParen]) := by
  refine ⟨.nested shaped.paired .nil, fun percent => by simp at percent, ?_⟩
  exact shaped.guarded.append ⟨fun percent => by simp at percent, trivial⟩

end WellShaped

namespace Grammar

/-- The tokens that stand for the values of a language are well shaped, and the first one of them
passes a test. -/
def Shaped {α : Type} (test : Token → Bool) (language : Language α) : Prop :=
  ∀ tokens value, language tokens value → BeginsWith test tokens ∧ WellShaped tokens

/-- Operators of a level are no parentheses. -/
def HasNoParens (level : Level) : Prop :=
  level.lookup .leftParen = none ∧ level.lookup .rightParen = none

instance (level : Level) : Decidable (HasNoParens level) :=
  inferInstanceAs (Decidable (_ ∧ _))

/-- Operators join well shaped operands to a well shaped list. -/
theorem Shaped.leftJoined {level : Level} {operand : Language Expr}
    (shaped : Shaped Token.beginsOperand operand) (noParens : HasNoParens level) :
    Shaped Token.beginsOperand (LeftJoined level operand) := by
  intro tokens e stands
  -- The operator stands in front of an operand, and is no parenthesis.
  induction stands with
  | operand stands => exact shaped _ _ stands
  | @binary left right a b sign op _ found stands ih =>
    obtain ⟨begins, front⟩ := ih
    obtain ⟨rightBegins, back⟩ := shaped _ _ stands
    have notOpen : sign ≠ .leftParen := by
      rintro rfl
      simp [noParens.1] at found
    have notClose : sign ≠ .rightParen := by
      rintro rfl
      simp [noParens.2] at found
    exact ⟨begins.append _, front.append (.sign notOpen notClose rightBegins back)⟩

/-- Operators of several levels join well shaped operands to a well shaped list. -/
theorem Shaped.joined {operand : Language Expr} (shaped : Shaped Token.beginsOperand operand)
    {levels : List Level} (noParens : ∀ level ∈ levels, HasNoParens level) :
    Shaped Token.beginsOperand (Joined levels operand) := by
  -- Each level has the next tighter one for its operands.
  induction levels with
  | nil => exact shaped
  | cons level levels ih =>
    obtain ⟨own, others⟩ := List.forall_mem_cons.mp noParens
    exact (ih others).leftJoined own

/-- Well shaped expressions with commas between them are well shaped. -/
theorem Shaped.items {inner : Language Expr} (shaped : Shaped Token.beginsOperand inner) :
    Shaped Token.beginsOperand (Items inner) := by
  intro tokens es stands
  -- A comma is no parenthesis and no percent sign.
  induction stands with
  | last stands => exact shaped _ _ stands
  | more stands _ ih =>
    obtain ⟨begins, first⟩ := shaped _ _ stands
    exact ⟨begins.append _, first.append (ih.2.cons (by simp) (by simp) (by simp))⟩

/-- A primary expression is well shaped when what stands in its brackets is. -/
theorem Shaped.primary {inner : Language Expr} (shaped : Shaped Token.beginsOperand inner) :
    Shaped Token.beginsPrimary (Primary inner) := by
  -- Only calls and parentheses hold tokens of other expressions.
  intro tokens e stands
  have single (token : Token) (begins : token.beginsPrimary = true)
      (notOpen : token ≠ .symbol .leftParen) (notClose : token ≠ .symbol .rightParen)
      (notPercent : token ≠ .symbol .percent) :
      BeginsWith Token.beginsPrimary [token] ∧ WellShaped [token] :=
    ⟨⟨token, [], rfl, begins⟩, WellShaped.nil.cons notOpen notClose notPercent⟩
  cases stands with
  | true => exact single _ rfl (by simp) (by simp) (by simp)
  | false => exact single _ rfl (by simp) (by simp) (by simp)
  | null => exact single _ rfl (by simp) (by simp) (by simp)
  | number _ => exact single _ rfl (by simp) (by simp) (by simp)
  | string _ => exact single _ rfl (by simp) (by simp) (by simp)
  | var _ => exact single _ rfl (by simp) (by simp) (by simp)
  | @call name inside _ arguments =>
    have within : WellShaped inside := by
      cases arguments with
      | none => exact .nil
      | some items => exact (shaped.items _ _ items).2
    exact ⟨⟨.name name, _, rfl, rfl⟩, within.parens.cons (by simp) (by simp) (by simp)⟩
  | parens stands => exact ⟨⟨.symbol .leftParen, _, rfl, rfl⟩, (shaped _ _ stands).2.parens⟩

/-- Members and indexes keep a primary expression well shaped. -/
theorem Shaped.accessed {inner : Language Expr} (shaped : Shaped Token.beginsOperand inner) :
    Shaped Token.beginsPrimary (Accessed inner) := by
  intro tokens e stands
  -- Points and brackets are no parentheses.
  induction stands with
  | primary stands => exact shaped.primary _ _ stands
  | member name _ ih =>
    have access : WellShaped [.symbol .dot, .name name] := .plain (by simp)
    exact ⟨ih.1.append _, ih.2.append access⟩
  | place digits _ ih =>
    have access : WellShaped [.symbol .dot, .number digits] := .plain (by simp)
    exact ⟨ih.1.append _, ih.2.append access⟩
  | @index tokens inside _ _ _ stands ih =>
    have closing : WellShaped [.symbol .rightBracket] := .plain (by simp)
    have opened : WellShaped (.symbol .leftBracket :: inside) :=
      (shaped _ _ stands).2.cons (by simp) (by simp) (by simp)
    exact ⟨(ih.1.append _).append _, (ih.2.append opened).append closing⟩

/-- Signs in front of an expression keep it well shaped. -/
theorem Shaped.signed {inner : Language Expr} (shaped : Shaped Token.beginsOperand inner) :
    Shaped Token.beginsOperand (Signed inner) := by
  intro tokens e stands
  -- A sign that begins an operand stands in front of another operand.
  induction stands with
  | accessed stands =>
    obtain ⟨begins, whole⟩ := shaped.accessed _ _ stands
    exact ⟨begins.mono fun _ => Token.beginsOperand_of_primary, whole⟩
  | not _ ih =>
    exact ⟨⟨.symbol .bang, _, rfl, rfl⟩, ih.2.cons (by simp) (by simp) (by simp)⟩
  | negate _ ih =>
    exact ⟨⟨.symbol .minus, _, rfl, rfl⟩, ih.2.cons (by simp) (by simp) (by simp)⟩

/-- No parenthesis is an operator. -/
theorem levels_hasNoParens : ∀ level ∈ Reader.levels, HasNoParens level := by
  decide

/-- Expressions are well shaped, however deep their brackets nest. -/
theorem shaped_nested (depth : Nat) : Shaped Token.beginsOperand (Nested depth) := by
  -- What stands in brackets is well shaped by induction.
  induction depth with
  | zero => exact fun _ _ stands => stands.elim
  | succ depth ih => exact ih.signed.joined levels_hasNoParens

/-- Expressions are well shaped. -/
theorem shaped_expression : Shaped Token.beginsOperand Expression := by
  rintro tokens e ⟨depth, stands⟩
  exact shaped_nested depth tokens e stands

/-- Sums are well shaped. -/
theorem shaped_sum : Shaped Token.beginsOperand Sum := by
  rintro tokens e ⟨depth, stands⟩
  have noParens : ∀ level ∈ Reader.sumLevels, HasNoParens level := fun level member =>
    levels_hasNoParens level (List.mem_of_mem_drop member)
  exact (shaped_nested depth).signed.joined noParens tokens e stands

/-- Headers of loops over entries are well shaped. -/
theorem Foreach.wellShaped {tokens : List Token} {header : ForeachHeader}
    (stands : Foreach tokens header) : WellShaped tokens := by
  cases stands with
  | items item stands =>
    exact (shaped_expression _ _ stands).2.append (.plain (by simp))
  | entries key item stands =>
    exact (shaped_expression _ _ stands).2.append (.plain (by simp))

/-- Headers of loops over integers are well shaped. -/
theorem Range.wellShaped {tokens : List Token} {header : RangeHeader}
    (stands : Range tokens header) : WellShaped tokens := by
  -- Both forms have a symbol between two sums, the second of which is an operand.
  have between {first last : List Token} {start stop : Expr} {counter : Text} {sign : Symbol}
      (notOpen : sign ≠ .leftParen) (notClose : sign ≠ .rightParen) (front : Sum first start)
      (back : Sum last stop) :
      WellShaped (.name counter :: .keyword .wordIn :: first ++ .symbol sign :: last) := by
    obtain ⟨begins, whole⟩ := shaped_sum _ _ back
    have joined := (shaped_sum _ _ front).2.append (.sign notOpen notClose begins whole)
    exact (joined.cons (by simp) (by simp) (by simp)).cons (by simp) (by simp) (by simp)
  cases stands with
  | exclusive counter front back => exact between (by simp) (by simp) front back
  | inclusive counter front back => exact between (by simp) (by simp) front back

/-- Assignments are well shaped. -/
theorem Assign.wellShaped {tokens : List Token} {assignment : Assignment}
    (stands : Assign tokens assignment) : WellShaped tokens := by
  cases stands with
  | intro name stands =>
    have assigned := (shaped_expression _ _ stands).2.cons
      (show Token.symbol .assign ≠ .symbol .leftParen by simp) (by simp) (by simp)
    exact assigned.cons (by simp) (by simp) (by simp)

end Grammar

end Templates
