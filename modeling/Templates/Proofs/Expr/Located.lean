import Templates.Expr.Header
import Templates.Proofs.Expr.Sound

/-!
Errors of syntax are reported inside the source they are about.

A reader leaves an end of the tokens it is given, or fails at one of them or at the end of the
source, and every token starts in the source. The base that offsets are counted from makes no other
difference.
-/

namespace Templates

/-- A fault stands at one of some tokens, or at the end of the source. -/
def Misread.At (tokens : List Spanned) (misread : Misread) : Prop :=
  ∀ place ∈ misread.place, ∃ token ∈ tokens, token.start = place

/-- What stands at an end of some tokens stands at one of them. -/
theorem Misread.At.mono {tokens later : List Spanned} {misread : Misread}
    (stands : misread.At later) (suffix : later <:+ tokens) : misread.At tokens := by
  intro place known
  obtain ⟨token, listed, start⟩ := stands place known
  exact ⟨token, suffix.subset listed, start⟩

/-- What a reader makes of some tokens: it leaves an end of them, or fails at one of them. -/
def Within {α : Type} (tokens : List Spanned) : Except Misread (α × List Spanned) → Prop
  | .ok (_, rest) => rest <:+ tokens
  | .error misread => misread.At tokens

namespace Within

variable {α β : Type} {tokens later : List Spanned}

/-- What is made of an end of the tokens is made of all of them. -/
theorem mono {result : Except Misread (α × List Spanned)} (within : Within later result)
    (suffix : later <:+ tokens) : Within tokens result := by
  cases result with
  | ok pair => exact List.IsSuffix.trans within suffix
  | error misread => exact Misread.At.mono within suffix

/-- Something is missed at the first token that is left, or at the end of the source. -/
theorem missing (wanted : Wanted) (tokens : List Spanned) :
    Within tokens (.error (Reader.missing wanted tokens) : Except Misread (α × List Spanned)) := by
  cases tokens with
  | nil => nofun
  | cons found rest =>
    rintro place ⟨⟩
    exact ⟨found, List.mem_cons_self, rfl⟩

/-- What is read next begins with the tokens that were left. -/
theorem bind {first : Except Misread (α × List Spanned)} (within : Within tokens first)
    {next : α × List Spanned → Except Misread (β × List Spanned)}
    (onward : ∀ a rest, Within rest (next (a, rest))) : Within tokens (first >>= next) := by
  cases first with
  | error misread => exact within
  | ok pair => exact (onward _ _).mono within

end Within

namespace Reader

variable {α : Type}

/-- A reader that leaves an end of its tokens or fails at one of them, whatever they are. -/
def Located (reader : Reader α) : Prop :=
  ∀ tokens, Within tokens (reader tokens)

namespace Located

variable {reader : Reader α} {tokens rest : List Spanned}

/-- A reader leaves an end of its tokens. -/
theorem suffix (located : Located reader) {a : α} (read : reader tokens = .ok (a, rest)) :
    rest <:+ tokens := by
  have within := located tokens
  rwa [read] at within

/-- A reader fails at one of its tokens. -/
theorem error {β : Type} (located : Located reader) {misread : Misread}
    (failed : reader tokens = .error misread) :
    Within tokens (.error misread : Except Misread (β × List Spanned)) := by
  have within := located tokens
  rwa [failed] at within

end Located

/-- A symbol leaves what stands behind it. -/
theorem suffix_of_symbol? {expected : Symbol} {tokens rest : List Spanned}
    (found : symbol? expected tokens = some rest) : rest <:+ tokens := by
  obtain ⟨start, stop, rfl⟩ := eq_of_symbol? found
  exact List.suffix_cons _ rest

/-- A symbol is missed at the token that stands in its place. -/
theorem located_symbol (expected : Symbol) : Located (symbol expected) := by
  intro tokens
  fun_cases symbol expected tokens with
  | case1 => exact List.suffix_cons _ _
  | case2 | case3 => exact .missing _ _

/-- A keyword is missed at the token that stands in its place. -/
theorem located_keyword (expected : Keyword) : Located (keyword expected) := by
  intro tokens
  fun_cases keyword expected tokens with
  | case1 => exact List.suffix_cons _ _
  | case2 | case3 => exact .missing _ _

/-- A name is missed at the token that stands in its place. -/
theorem located_name : Located name := by
  intro tokens
  fun_cases name tokens with
  | case1 => exact List.suffix_cons _ _
  | case2 => exact .missing _ _

/-- Operands are read behind the operators in front of them. -/
theorem located_moreOperands {operand : Reader Expr} (located : Located operand) (level : Level)
    (count : Nat) (left : Expr) : Located (moreOperands level operand count left) := by
  intro tokens
  fun_induction moreOperands level operand count left tokens with
  | case1 | case2 => exact List.suffix_refl _
  | case3 count left tokens op rest isOperator misread failed =>
    obtain ⟨sign, start, stop, -, rfl⟩ := eq_of_operator? isOperator
    exact (located.error failed).mono (List.suffix_cons _ rest)
  | case4 count left tokens op rest isOperator right behind read ih =>
    obtain ⟨sign, start, stop, -, rfl⟩ := eq_of_operator? isOperator
    exact ih.mono ((located.suffix read).trans (List.suffix_cons _ rest))

/-- A level fails where one of its operands does. -/
theorem located_leftJoined {operand : Reader Expr} (located : Located operand) (level : Level) :
    Located (leftJoined level operand) := by
  intro tokens
  fun_cases leftJoined level operand tokens with
  | case1 misread failed => exact located.error failed
  | case2 left rest read =>
    exact (located_moreOperands located level _ left rest).mono (located.suffix read)

/-- Several levels fail where one of the innermost operands does. -/
theorem located_joined {operand : Reader Expr} (located : Located operand) (levels : List Level) :
    Located (joined levels operand) := by
  induction levels with
  | nil => exact located
  | cons level levels ih => exact located_leftJoined ih level

/-- Arguments are read behind the commas in front of them. -/
theorem located_moreArguments {inner : Reader Expr} (located : Located inner) (count : Nat) :
    Located (moreArguments inner count) := by
  intro tokens
  fun_induction moreArguments inner count tokens with
  | case1 tokens => exact .missing _ tokens
  | case2 count tokens misread failed => exact located.error failed
  | case3 count tokens first rest read others closed =>
    exact (suffix_of_symbol? closed).trans (located.suffix read)
  | case4 count tokens first rest read _ misread failed =>
    exact ((located_symbol .comma).error failed).mono (located.suffix read)
  | case5 count tokens first rest read _ others comma misread failed ih =>
    rw [failed] at ih
    exact ih.mono (((located_symbol .comma).suffix comma).trans (located.suffix read))
  | case6 count tokens first rest read _ others comma es behind more ih =>
    rw [more] at ih
    exact ih.mono (((located_symbol .comma).suffix comma).trans (located.suffix read))

/-- The arguments of a call are read behind its parenthesis. -/
theorem located_arguments {inner : Reader Expr} (located : Located inner) :
    Located (arguments inner) := by
  intro tokens
  fun_cases arguments inner tokens with
  | case1 rest closed => exact suffix_of_symbol? closed
  | case2 => exact located_moreArguments located _ tokens

/-- A primary expression fails at its first token or behind it. -/
theorem located_primary {inner : Reader Expr} (located : Located inner) :
    Located (primary inner) := by
  intro tokens
  fun_cases primary inner tokens with
  | case1 | case2 | case3 | case4 | case6 | case7 => exact List.suffix_cons _ _
  | case5 digits start stop rest =>
    rintro place ⟨⟩
    exact ⟨_, List.mem_cons_self, rfl⟩
  | case8 name start stop rest others opens misread failed =>
    exact ((located_arguments located).error failed).mono
      ((suffix_of_symbol? opens).trans (List.suffix_cons _ rest))
  | case9 name start stop rest others opens args behind read =>
    exact ((located_arguments located).suffix read).trans
      ((suffix_of_symbol? opens).trans (List.suffix_cons _ rest))
  | case10 start stop rest misread failed =>
    exact (located.error failed).mono (List.suffix_cons _ rest)
  | case11 start stop rest e others read misread failed =>
    exact ((located_symbol .rightParen).error failed).mono
      ((located.suffix read).trans (List.suffix_cons _ rest))
  | case12 start stop rest e others read behind closed =>
    exact ((located_symbol .rightParen).suffix closed).trans
      ((located.suffix read).trans (List.suffix_cons _ rest))
  | case13 => exact .missing _ tokens

/-- Members and indexes are read behind what stands in front of them. -/
theorem located_moreAccesses {inner : Reader Expr} (located : Located inner) (count : Nat)
    (e : Expr) : Located (moreAccesses inner count e) := by
  intro tokens
  fun_induction moreAccesses inner count e tokens with
  | case1 => exact List.suffix_refl _
  | case2 count e _ _ name _ _ rest ih => exact ih.mono ⟨[_, _], rfl⟩
  | case3 count e _ _ digits _ _ rest ih => exact ih.mono ⟨[_, _], rfl⟩
  | case4 count e start stop rest => exact (Within.missing _ rest).mono (List.suffix_cons _ rest)
  | case5 count e start stop rest misread failed =>
    exact (located.error failed).mono (List.suffix_cons _ rest)
  | case6 count e start stop rest index others read misread failed =>
    exact ((located_symbol .rightBracket).error failed).mono
      ((located.suffix read).trans (List.suffix_cons _ rest))
  | case7 count e start stop rest index others read behind closed ih =>
    exact ih.mono (((located_symbol .rightBracket).suffix closed).trans
      ((located.suffix read).trans (List.suffix_cons _ rest)))
  | case8 => exact List.suffix_refl _

/-- What is accessed is read behind the primary expression. -/
theorem located_accessed {inner : Reader Expr} (located : Located inner) :
    Located (accessed inner) := by
  intro tokens
  fun_cases accessed inner tokens with
  | case1 misread failed => exact (located_primary located).error failed
  | case2 e rest read =>
    exact (located_moreAccesses located _ e rest).mono ((located_primary located).suffix read)

/-- An expression is read behind the signs in front of it. -/
theorem located_signed {inner : Reader Expr} (located : Located inner) :
    Located (signed inner) := by
  intro tokens
  fun_induction signed inner tokens with
  | case1 start stop rest misread failed ih | case3 start stop rest misread failed ih =>
    rw [failed] at ih
    exact ih.mono (List.suffix_cons _ rest)
  | case2 start stop rest e others read ih | case4 start stop rest e others read ih =>
    rw [read] at ih
    exact ih.trans (List.suffix_cons _ rest)
  | case5 tokens => exact located_accessed located tokens

/-- Brackets of any depth make no difference. -/
theorem located_nested (depth : Nat) : Located (nested depth) := by
  induction depth with
  | zero => exact fun tokens => .missing _ tokens
  | succ depth ih => exact located_joined (located_signed ih) levels

/-- An expression fails at one of its tokens or behind them. -/
theorem located_expression : Located expression :=
  fun tokens => located_nested _ tokens

/-- A sum fails at one of its tokens or behind them. -/
theorem located_sum : Located sum :=
  fun tokens => located_joined (located_signed (located_nested _)) sumLevels tokens

/-- The header of a loop over entries fails at one of its tokens or behind them. -/
theorem located_foreachHeader : Located foreachHeader := by
  intro tokens
  refine (located_expression tokens).bind fun iterable tokens => ?_
  refine (located_keyword .wordAs tokens).bind fun _ tokens => ?_
  refine (located_name tokens).bind fun first tokens => ?_
  -- Another name follows only behind an arrow.
  dsimp only
  split
  · exact List.suffix_refl _
  · rename_i others arrow
    refine Within.mono ?_ (suffix_of_symbol? arrow)
    exact (located_name others).bind fun item tokens => List.suffix_refl _

/-- The header of a loop over integers fails at one of its tokens or behind them. -/
theorem located_rangeHeader : Located rangeHeader := by
  intro tokens
  refine (located_name tokens).bind fun counter tokens => ?_
  refine (located_keyword .wordIn tokens).bind fun _ tokens => ?_
  refine (located_sum tokens).bind fun start tokens => ?_
  -- Either sign between the bounds is followed by the last one.
  dsimp only
  split
  · rename_i others sign
    refine Within.mono ?_ (suffix_of_symbol? sign)
    exact (located_sum others).bind fun stop tokens => List.suffix_refl _
  · refine (located_symbol .dots tokens).bind fun _ tokens => ?_
    exact (located_sum tokens).bind fun stop tokens => List.suffix_refl _

/-- An assignment fails at one of its tokens or behind them. -/
theorem located_assignment : Located assignment := by
  intro tokens
  refine (located_name tokens).bind fun name tokens => ?_
  refine (located_symbol .assign tokens).bind fun _ tokens => ?_
  exact (located_expression tokens).bind fun value tokens => List.suffix_refl _

end Reader

/-! ### Offsets -/

/-- What a tokenizer makes of a text that begins at an offset: every token starts in the text, and
so does the character that starts none. -/
def Starts (offset : Nat) (text : Text) : Except Nat (List Spanned) → Prop
  | .ok tokens => ∀ token ∈ tokens, token.start ≤ offset + Text.bytes text
  | .error position => position ≤ offset + Text.bytes text

/-- What starts behind a character starts in the text with it. -/
theorem Starts.cons {offset : Nat} {c : Char} {rest : Text} {result : Except Nat (List Spanned)}
    (starts : Starts (offset + c.utf8Size) rest result) : Starts offset (c :: rest) result := by
  have same : offset + Text.bytes (c :: rest) = offset + c.utf8Size + Text.bytes rest := by
    rw [Text.bytes_cons, Nat.add_assoc]
  cases result <;> simpa only [Starts, same] using starts

/-- Tokens start in the text they are cut from. -/
theorem Lexer.tokensFrom_starts (offset skip : Nat) (text : Text) :
    Starts offset text (tokensFrom offset skip text) := by
  fun_induction tokensFrom offset skip text with
  | case1 => nofun
  | case2 offset skip c rest ih => exact ih.cons
  | case3 offset c rest gap ih => exact ih.cons
  | case4 offset c rest noGap none => exact Nat.le_add_right _ _
  | case5 offset c rest noGap token after found more stop tokens others ih =>
    rw [others] at ih
    exact List.forall_mem_cons.mpr ⟨Nat.le_add_right _ _, ih.cons⟩
  | case6 offset c rest noGap token after found more position failed ih =>
    rw [failed] at ih
    exact ih.cons

/-- The error with its position counted from a base on. -/
def SyntaxError.shift (base : Nat) (error : SyntaxError) : SyntaxError :=
  { error with position := base + error.position }

namespace Reader

variable {α : Type}

/-- What is left in the end stands at its first token. -/
theorem at_of_finish {tokens : List Spanned} {misread : Misread}
    (failed : finish tokens = .error misread) : misread.At tokens := by
  cases tokens with
  | nil => cases failed
  | cons found rest =>
    obtain rfl := Except.error.inj failed
    rintro place ⟨⟩
    exact ⟨found, List.mem_cons_self, rfl⟩

/-- A source that is cut into tokens fails at one of them or at its end. -/
theorem exists_of_readAll {reader : Reader α} (located : Located reader) {base : Nat}
    {source : Text} {tokens : List Spanned} (cut : Lexer.tokenize source = .ok tokens)
    {error : SyntaxError} (failed : readAll reader base source = .error error) :
    ∃ misread : Misread, misread.At tokens ∧
      error = ⟨base + misread.place.getD (Text.bytes source), misread.fault⟩ := by
  simp only [readAll, cut, bind, Except.bind] at failed
  cases read : reader tokens with
  | error misread =>
    rw [read] at failed
    exact ⟨misread, located.error (β := α) read, (Except.error.inj failed).symm⟩
  | ok pair =>
    obtain ⟨value, rest⟩ := pair
    rw [read] at failed
    -- The reader is done, so that something is left.
    cases closed : finish rest with
    | error misread =>
      simp only [closed] at failed
      exact ⟨misread, (at_of_finish closed).mono (located.suffix read),
        (Except.error.inj failed).symm⟩
    | ok done =>
      simp only [closed] at failed
      cases failed

/-- Errors about a source are reported inside it. -/
theorem readAll_position {reader : Reader α} (located : Located reader) {base : Nat}
    {source : Text} {error : SyntaxError} (failed : readAll reader base source = .error error) :
    base ≤ error.position ∧ error.position ≤ base + Text.bytes source := by
  have starts : Starts 0 source (Lexer.tokenize source) := Lexer.tokensFrom_starts 0 0 source
  cases cut : Lexer.tokenize source with
  | error offset =>
    rw [cut] at starts
    rw [readAll, cut] at failed
    obtain rfl := Except.error.inj failed
    have inside : offset ≤ 0 + Text.bytes source := starts
    exact ⟨Nat.le_add_right _ _, by simpa using inside⟩
  | ok tokens =>
    rw [cut] at starts
    obtain ⟨misread, stands, rfl⟩ := exists_of_readAll located cut failed
    refine ⟨Nat.le_add_right _ _, Nat.add_le_add_left ?_ base⟩
    cases known : misread.place with
    | none => exact Nat.le_refl _
    | some place =>
      obtain ⟨token, listed, rfl⟩ := stands place known
      simpa using starts token listed

/-- The base is added to the position of an error, and makes no other difference. -/
theorem readAll_base (reader : Reader α) (base : Nat) (source : Text) :
    readAll reader base source = (readAll reader 0 source).mapError (.shift base) := by
  have moved (position : Nat) (fault : Fault) :
      (⟨base + position, fault⟩ : SyntaxError) = .shift base ⟨0 + position, fault⟩ := by
    rw [SyntaxError.shift, Nat.zero_add]
  unfold readAll
  cases Lexer.tokenize source with
  | error offset => exact congrArg Except.error (moved offset _)
  | ok tokens =>
    dsimp only
    split
    · rfl
    · exact congrArg Except.error (moved _ _)

end Reader

end Templates
