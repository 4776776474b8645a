import Templates.Proofs.Expr.Complete
import Templates.Proofs.Expr.Opaque
import Templates.Proofs.Text.Trim

/-! What all headers of statements have in common: they may stand in markers and in tags. -/

namespace Templates

/-- A reader of sources that accepts what is in a grammar of well shaped tokens, wherever the source
stands. -/
def Grammatical {α : Type} (read : Nat → Text → Except SyntaxError α) : Prop :=
  ∃ language : Language α,
    (∀ base source value, read base source = .ok value ↔
      ∃ tokens, Lexed source tokens ∧ language tokens value) ∧
    ∀ tokens value, language tokens value → tokens ≠ [] ∧ WellShaped tokens

/-- Expressions have a grammar. -/
theorem Expr.grammatical : Grammatical Expr.read := by
  refine ⟨Grammar.Expression, fun _ _ _ => Expr.read_eq_ok_iff, fun tokens e stands => ?_⟩
  obtain ⟨⟨first, rest, rfl, -⟩, shaped⟩ := Grammar.shaped_expression tokens e stands
  exact ⟨List.cons_ne_nil first rest, shaped⟩

/-- Headers of loops over entries have a grammar. -/
theorem ForeachHeader.grammatical : Grammatical ForeachHeader.read := by
  refine ⟨Grammar.Foreach, fun _ _ _ => ForeachHeader.read_eq_ok_iff,
    fun tokens header stands => ?_⟩
  exact ⟨by cases stands <;> simp, stands.wellShaped⟩

/-- Headers of loops over integers have a grammar. -/
theorem RangeHeader.grammatical : Grammatical RangeHeader.read := by
  refine ⟨Grammar.Range, fun _ _ _ => RangeHeader.read_eq_ok_iff, fun tokens header stands => ?_⟩
  exact ⟨by cases stands <;> simp, stands.wellShaped⟩

/-- Assignments have a grammar. -/
theorem Assignment.grammatical : Grammatical Assignment.read := by
  refine ⟨Grammar.Assign, fun _ _ _ => Assignment.read_eq_ok_iff, fun tokens assigned stands => ?_⟩
  exact ⟨by cases stands; simp, stands.wellShaped⟩

namespace Grammatical

variable {α : Type} {read : Nat → Text → Except SyntaxError α} {base : Nat} {source : Text}
  {value : α}

/-- An accepted source is balanced, so it ends at its parenthesis in a marker. -/
theorem balanced (grammatical : Grammatical read) (accepted : read base source = .ok value) :
    Balanced source := by
  -- Parentheses of an accepted source pair up, and the others stand in strings.
  obtain ⟨language, accepts, shape⟩ := grammatical
  obtain ⟨tokens, lexed, stands⟩ := (accepts base source value).mp accepted
  exact lexed.spelled.balanced (shape tokens value stands).2.paired

/-- An accepted source holds no end of a tag outside of its strings. -/
theorem untagged (grammatical : Grammatical read) (accepted : read base source = .ok value) :
    Untagged source := by
  -- Behind a percent sign there is an operand, which is not the end of a tag.
  obtain ⟨language, accepts, shape⟩ := grammatical
  obtain ⟨tokens, lexed, stands⟩ := (accepts base source value).mp accepted
  exact lexed.spelled.untagged (shape tokens value stands).2.guarded

/-- An accepted source is accepted without the blanks around it, wherever it stands. -/
theorem trim (grammatical : Grammatical read) (accepted : read base source = .ok value)
    (other : Nat) : read other (Text.trim source) = .ok value := by
  -- The blanks around a source are gaps, which have no tokens.
  obtain ⟨language, accepts, -⟩ := grammatical
  obtain ⟨tokens, lexed, stands⟩ := (accepts base source value).mp accepted
  exact (accepts other (Text.trim source) value).mpr ⟨tokens, lexed.trim, stands⟩

/-- An accepted source is accepted with a blank at each end, wherever it stands. -/
theorem spaced (grammatical : Grammatical read) (accepted : read base source = .ok value)
    (other : Nat) : read other (' ' :: source ++ [' ']) = .ok value := by
  -- The blanks around a source are gaps, which have no tokens.
  obtain ⟨language, accepts, -⟩ := grammatical
  obtain ⟨tokens, lexed, stands⟩ := (accepts base source value).mp accepted
  have behind : Lexed (source ++ [' ']) tokens := by
    simpa using lexed.concat (.blank rfl) (.gap rfl .nil)
  exact (accepts other (' ' :: source ++ [' ']) value).mpr ⟨tokens, .gap rfl behind, stands⟩

/-- Nothing is accepted that is blank. -/
theorem ne_nil (grammatical : Grammatical read) (accepted : read base source = .ok value) :
    source ≠ [] := by
  rintro rfl
  -- An empty source has no tokens, but every accepted one has.
  obtain ⟨language, accepts, shape⟩ := grammatical
  obtain ⟨tokens, lexed, stands⟩ := (accepts base [] value).mp accepted
  cases lexed
  exact (shape [] value stands).1 rfl

end Grammatical

/-- What joins operands also takes a single one. -/
theorem Grammar.Joined.single {levels : List Reader.Level} {operand : Language Expr}
    {tokens : List Token} {e : Expr} (stands : operand tokens e) :
    Grammar.Joined levels operand tokens e := by
  -- A single operand is one of every level.
  induction levels with
  | nil => exact stands
  | cons level levels ih => exact .operand ih

/-- Parentheses with an exclamation mark in front of them stand for the negation of what is in
them. -/
theorem Expr.read_not {base : Nat} {source : Text} {e : Expr}
    (accepted : Expr.read base source = .ok e) (other : Nat) :
    Expr.read other ('!' :: '(' :: source ++ [')']) = .ok (.unary .not e) := by
  obtain ⟨tokens, lexed, depth, stands⟩ := Expr.read_eq_ok_iff.mp accepted
  -- The parentheses are tokens of their own, in front of and behind those of the source.
  have closing : Lexed [')'] [.symbol .rightParen] := .token rfl rfl .nil
  have inner : Lexed (source ++ [')']) (tokens ++ [.symbol .rightParen]) :=
    lexed.concat .rightParen closing
  have opened : Lexed ('(' :: (source ++ [')']))
      (.symbol .leftParen :: (tokens ++ [.symbol .rightParen])) := .token rfl rfl inner
  have whole : Lexed ('!' :: '(' :: (source ++ [')']))
      (.symbol .bang :: .symbol .leftParen :: (tokens ++ [.symbol .rightParen])) :=
    .token rfl rfl opened
  have parens : Grammar.Primary (Grammar.Nested depth)
      (.symbol .leftParen :: tokens ++ [.symbol .rightParen]) e := .parens stands
  exact Expr.read_eq_ok_iff.mpr
    ⟨_, whole, depth + 1, Grammar.Joined.single (.not (.accessed (.primary parens)))⟩

end Templates
