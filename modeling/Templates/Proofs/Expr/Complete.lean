import Templates.Proofs.Expr.Lexed
import Templates.Proofs.Expr.Shape
import Templates.Proofs.Expr.Sound

/-!
Tokens that stand for a value are read as that value, whatever follows them that goes on with none
of them. Together with soundness, a source is accepted when its tokens are in the grammar.
-/

namespace Templates

namespace Reader

/-- A symbol that operands of some levels end at. -/
structure EndsOperand (levels : List Level) (sign : Symbol) : Prop where
  noCall : sign ≠ .leftParen
  noIndex : sign ≠ .leftBracket
  noMember : sign ≠ .dot
  noOperator : ∀ level ∈ levels, level.lookup sign = none

instance (levels : List Level) (sign : Symbol) : Decidable (EndsOperand levels sign) :=
  decidable_of_iff (sign ≠ .leftParen ∧ sign ≠ .leftBracket ∧ sign ≠ .dot ∧
      ∀ level ∈ levels, level.lookup sign = none)
    ⟨fun ⟨call, index, member, operator⟩ => ⟨call, index, member, operator⟩,
      fun ⟨call, index, member, operator⟩ => ⟨call, index, member, operator⟩⟩

/-- The first of some tokens stands at the front. -/
theorem eq_cons_of_map {used : List Spanned} {token : Token} {tokens : List Token}
    (whole : used.map Spanned.token = token :: tokens) :
    ∃ start stop behind, used = ⟨token, start, stop⟩ :: behind ∧
      behind.map Spanned.token = tokens := by
  obtain ⟨⟨first, start, stop⟩, behind, rfl, rfl, others⟩ := List.map_eq_cons_iff.mp whole
  exact ⟨start, stop, behind, rfl, others⟩

/-- A token by itself stands somewhere. -/
theorem eq_singleton_of_map {used : List Spanned} {token : Token}
    (whole : used.map Spanned.token = [token]) :
    ∃ start stop, used = [⟨token, start, stop⟩] := by
  obtain ⟨⟨only, start, stop⟩, rfl, rfl⟩ := List.map_eq_singleton_iff.mp whole
  exact ⟨start, stop, rfl⟩

/-- The first token of a list goes on with no operand of some levels. -/
def Stops (levels : List Level) (rest : List Spanned) : Prop :=
  ∀ next ∈ rest.head?, ∀ sign, next.token = .symbol sign → EndsOperand levels sign

/-- No operator of a level is one of a tighter level, or goes on with an operand. -/
def Apart : List Level → Prop
  | [] => True
  | level :: levels => (∀ entry ∈ level, EndsOperand levels entry.1) ∧ Apart levels

/-- Levels can be checked to be apart. -/
instance decidableApart : (levels : List Level) → Decidable (Apart levels)
  | [] => isTrue trivial
  | _ :: levels =>
    have := decidableApart levels
    inferInstanceAs (Decidable (_ ∧ _))

/-- A reader takes off all tokens that stand for a value, of lists up to a length, if what follows
them lets it stop. -/
def CompleteUpTo {α : Type} (limit : Nat) (reader : Reader α) (language : Language α)
    (follow : List Spanned → Prop) : Prop :=
  ∀ used value rest, used.length ≤ limit → language (used.map Spanned.token) value →
    follow rest → reader (used ++ rest) = .ok (value, rest)

/-- The first token decides whether operands end in front of a list. -/
theorem stops_cons {levels : List Level} {next : Spanned} (rest : List Spanned)
    (ends : ∀ sign, next.token = .symbol sign → EndsOperand levels sign) :
    Stops levels (next :: rest) := by
  intro other first
  obtain rfl := Option.some.inj first
  exact ends

/-- What ends operands of looser levels ends those of a tighter one. -/
theorem Stops.tighter {level : Level} {levels : List Level} {rest : List Spanned}
    (stops : Stops (level :: levels) rest) : Stops levels rest := by
  intro next first sign isSign
  obtain ⟨noCall, noIndex, noMember, noOperator⟩ := stops next first sign isSign
  exact ⟨noCall, noIndex, noMember, fun other member =>
    noOperator other (List.mem_cons_of_mem level member)⟩

/-- Behind the last operand of a level there is no operator of the level. -/
theorem Stops.operator? {level : Level} {levels : List Level} {rest : List Spanned}
    (stops : Stops (level :: levels) rest) : operator? level rest = none := by
  -- Only a symbol can be an operator, and this one is none of the level.
  cases rest with
  | nil => rfl
  | cons next rest =>
    obtain ⟨token, start, stop⟩ := next
    cases token with
    | symbol sign =>
      have ends := stops _ rfl sign rfl
      rw [Reader.operator?, ends.noOperator level List.mem_cons_self]
      rfl
    | _ => rfl

/-- Without an operator in front nothing is added to what was read. -/
theorem moreOperands_stop {level : Level} {levels : List Level} {rest : List Spanned}
    (stops : Stops (level :: levels) rest) (operand : Reader Expr) (count : Nat) (e : Expr) :
    moreOperands level operand count e rest = .ok (e, rest) := by
  cases count with
  | zero => rfl
  | succ count => rw [moreOperands, stops.operator?]

/-- A level is read up to the place where only its own operators go on. -/
theorem leftJoined_append {level : Level} {levels : List Level} {limit : Nat}
    {operand : Reader Expr} {language : Language Expr}
    (complete : CompleteUpTo limit operand language (Stops levels))
    (apart : ∀ entry ∈ level, EndsOperand levels entry.1) {used : List Spanned} {e : Expr}
    (short : used.length ≤ limit)
    (stands : Grammar.LeftJoined level language (used.map Spanned.token) e) {rest : List Spanned}
    (stops : Stops levels rest) :
    ∃ count, rest.length ≤ count ∧
      leftJoined level operand (used ++ rest) = moreOperands level operand count e rest := by
  -- The operands to the left of an operator are read up to it, and one more round reads the other.
  generalize whole : used.map Spanned.token = tokens at stands
  induction stands generalizing used rest with
  | operand stands =>
    subst whole
    exact ⟨rest.length, Nat.le_refl _, by rw [leftJoined, complete _ _ _ short stands stops]⟩
  | @binary left right a b sign op _ found stands ih =>
    obtain ⟨usedLeft, behind, rfl, isLeft, isBehind⟩ := List.map_eq_append_iff.mp whole
    obtain ⟨start, stop, usedRight, rfl, isRight⟩ := eq_cons_of_map isBehind
    subst isRight
    simp only [List.length_append, List.length_cons] at short
    obtain ⟨before, after, split, -⟩ := List.lookup_eq_some_iff.mp found
    have operatorEnds : EndsOperand levels sign := apart (sign, op) (by simp [split])
    have ends : Stops levels (⟨.symbol sign, start, stop⟩ :: (usedRight ++ rest)) :=
      stops_cons _ fun other isOther => Token.symbol.inj isOther ▸ operatorEnds
    obtain ⟨count, enough, read⟩ := ih (show usedLeft.length ≤ limit by omega) ends isLeft
    cases count with
    | zero => simp at enough
    | succ count =>
      simp only [List.length_cons, List.length_append] at enough
      refine ⟨count, by omega, ?_⟩
      rw [List.append_assoc, List.cons_append, read, moreOperands, operator?, found]
      simp only [Option.map_some, complete _ _ _ (show usedRight.length ≤ limit by omega) stands
        stops]

/-- A level is read whole in front of what none of its operands goes on with. -/
theorem complete_leftJoined {level : Level} {levels : List Level} {limit : Nat}
    {operand : Reader Expr} {language : Language Expr}
    (complete : CompleteUpTo limit operand language (Stops levels))
    (apart : ∀ entry ∈ level, EndsOperand levels entry.1) :
    CompleteUpTo limit (leftJoined level operand) (Grammar.LeftJoined level language)
      (Stops (level :: levels)) := by
  -- Behind the last operand no operator of the level follows, so that nothing more is added.
  intro used e rest short stands stops
  obtain ⟨count, -, read⟩ := leftJoined_append complete apart short stands stops.tighter
  rw [read, moreOperands_stop stops]

/-- Several levels are read whole in front of what none of their operands goes on with. -/
theorem complete_joined {limit : Nat} {operand : Reader Expr} {language : Language Expr}
    (complete : CompleteUpTo limit operand language (Stops [])) {levels : List Level}
    (apart : Apart levels) :
    CompleteUpTo limit (joined levels operand) (Grammar.Joined levels language)
      (Stops levels) := by
  -- Each level has the next tighter one for its operands.
  induction levels with
  | nil => exact complete
  | cons level levels ih => exact complete_leftJoined (ih apart.2) apart.1

/-- The tokens that an expression in brackets ends at. -/
def Closes (rest : List Spanned) : Prop :=
  ∃ close behind, rest = close :: behind ∧
    close.token ∈ [Token.symbol .rightParen, .symbol .rightBracket, .symbol .comma]

/-- Arguments are read up to the closing parenthesis. -/
theorem complete_moreArguments {limit : Nat} {inner : Reader Expr} {language : Language Expr}
    (complete : CompleteUpTo limit inner language Closes)
    (shaped : Grammar.Shaped Token.beginsOperand language) {used : List Spanned}
    {es : List Expr} (short : used.length ≤ limit)
    (stands : Grammar.Items language (used.map Spanned.token) es) {count : Nat}
    (enough : used.length ≤ count) {close : Spanned} (closes : close.token = .symbol .rightParen)
    (rest : List Spanned) :
    moreArguments inner count (used ++ close :: rest) = .ok (es, rest) := by
  -- Each argument ends at the comma or the parenthesis behind it.
  obtain ⟨token, start, stop⟩ := close
  obtain rfl : token = .symbol .rightParen := closes
  generalize whole : used.map Spanned.token = tokens at stands
  induction stands generalizing used count with
  | last stands =>
    subst whole
    -- The count is not used up, since an argument has at least one token.
    have filled : used ≠ [] := by
      rintro rfl
      obtain ⟨⟨first, others, same, -⟩, -⟩ := shaped _ _ stands
      simp at same
    have positive : 0 < used.length := List.length_pos_iff.mpr filled
    obtain ⟨count, rfl⟩ : ∃ n, count = n + 1 := ⟨count - 1, by omega⟩
    have read := complete used _ (⟨.symbol .rightParen, start, stop⟩ :: rest) short stands
      ⟨_, _, rfl, by simp⟩
    simp [moreArguments, read, symbol?]
  | @more first others e es stands _ ih =>
    -- A comma is followed by the other arguments.
    obtain ⟨usedFirst, behind, rfl, isFirst, isBehind⟩ := List.map_eq_append_iff.mp whole
    obtain ⟨commaStart, commaStop, usedOthers, rfl, isOthers⟩ := eq_cons_of_map isBehind
    subst isFirst
    simp only [List.length_append, List.length_cons] at short enough
    obtain ⟨count, rfl⟩ : ∃ n, count = n + 1 := ⟨count - 1, by omega⟩
    have read := complete usedFirst e
      (⟨.symbol .comma, commaStart, commaStop⟩ :: (usedOthers ++ ⟨.symbol .rightParen, start, stop⟩
        :: rest)) (by omega) stands ⟨_, _, rfl, by simp⟩
    have later := ih (by omega) (show usedOthers.length ≤ count by omega) isOthers
    simp [moreArguments, read, symbol?, symbol, later]

/-- The arguments of a call are read with the closing parenthesis. -/
theorem complete_arguments {limit : Nat} {inner : Reader Expr} {language : Language Expr}
    (complete : CompleteUpTo limit inner language Closes)
    (shaped : Grammar.Shaped Token.beginsOperand language) {used : List Spanned}
    {es : List Expr} (short : used.length ≤ limit)
    (stands : Grammar.Arguments language (used.map Spanned.token) es) {close : Spanned}
    (closes : close.token = .symbol .rightParen) (rest : List Spanned) :
    arguments inner (used ++ close :: rest) = .ok (es, rest) := by
  generalize whole : used.map Spanned.token = tokens at stands
  cases stands with
  | none =>
    -- Without arguments the parenthesis closes at once.
    obtain ⟨token, start, stop⟩ := close
    obtain rfl : token = .symbol .rightParen := closes
    obtain rfl := List.map_eq_nil_iff.mp whole
    simp [arguments, symbol?]
  | some items =>
    -- The first token of an argument is no closing parenthesis.
    obtain ⟨⟨first, others, same, begins⟩, -⟩ := shaped.items _ _ items
    have notClosed : symbol? .rightParen (used ++ close :: rest) = none := by
      obtain ⟨⟨token, start, stop⟩, behind, rfl, isFirst, -⟩ :=
        List.map_eq_cons_iff.mp (whole.trans same)
      obtain rfl : token = first := isFirst
      cases token with
      | symbol sign =>
        have differs : sign ≠ .rightParen := by
          rintro rfl
          cases begins
        simp [symbol?, differs]
      | _ => rfl
    rw [arguments, notClosed]
    subst whole
    have enough : used.length ≤ (used ++ close :: rest).length + 1 := by
      rw [List.length_append]
      omega
    exact complete_moreArguments complete shaped short items enough closes rest

/-- What ends an operand opens no arguments. -/
theorem Stops.noCall {levels : List Level} {rest : List Spanned} (stops : Stops levels rest) :
    symbol? .leftParen rest = none := by
  -- A parenthesis would go on with the operand.
  cases rest with
  | nil => rfl
  | cons next rest =>
    obtain ⟨token, start, stop⟩ := next
    cases token with
    | symbol sign =>
      have ends := stops _ rfl sign rfl
      rw [symbol?, if_neg ends.noCall]
    | _ => rfl

/-- A primary expression is read whole unless arguments follow it. -/
theorem complete_primary {limit : Nat} {inner : Reader Expr} {language : Language Expr}
    (complete : CompleteUpTo limit inner language Closes)
    (shaped : Grammar.Shaped Token.beginsOperand language) :
    CompleteUpTo (limit + 1) (primary inner) (Grammar.Primary language)
      (fun rest => symbol? .leftParen rest = none) := by
  intro used e rest short stands noCall
  -- The first token tells which kind of primary expression it is.
  generalize whole : used.map Spanned.token = tokens at stands
  cases stands with
  | true =>
    obtain ⟨start, stop, rfl⟩ := eq_singleton_of_map whole
    rfl
  | false =>
    obtain ⟨start, stop, rfl⟩ := eq_singleton_of_map whole
    rfl
  | null =>
    obtain ⟨start, stop, rfl⟩ := eq_singleton_of_map whole
    rfl
  | @number digits n value =>
    obtain ⟨start, stop, rfl⟩ := eq_singleton_of_map whole
    simp [primary, value]
  | string literal =>
    obtain ⟨start, stop, rfl⟩ := eq_singleton_of_map whole
    rfl
  | var name =>
    obtain ⟨start, stop, rfl⟩ := eq_singleton_of_map whole
    -- A name by itself is a variable, since no arguments follow it.
    simp [primary, noCall]
  | @call name tokens args stands =>
    obtain ⟨front, back, rfl, isFront, isBack⟩ := List.map_eq_append_iff.mp whole
    obtain ⟨start, stop, behind, rfl, isBehind⟩ := eq_cons_of_map isFront
    obtain ⟨openStart, openStop, inside, rfl, isInside⟩ := eq_cons_of_map isBehind
    obtain ⟨close, rfl, closes⟩ := List.map_eq_singleton_iff.mp isBack
    subst isInside
    simp only [List.length_append, List.length_cons, List.length_nil] at short
    -- What stands inside of the parentheses has fewer tokens than the call.
    have read := complete_arguments complete shaped (show inside.length ≤ limit by omega) stands
      closes rest
    simp [primary, symbol?, read]
  | @parens tokens e stands =>
    obtain ⟨front, back, rfl, isFront, isBack⟩ := List.map_eq_append_iff.mp whole
    obtain ⟨openStart, openStop, inside, rfl, isInside⟩ := eq_cons_of_map isFront
    obtain ⟨start, stop, rfl⟩ := eq_singleton_of_map isBack
    subst isInside
    simp only [List.length_append, List.length_cons, List.length_nil] at short
    -- The closing parenthesis lets the reader of the inner expression stop.
    have read := complete inside e (⟨.symbol .rightParen, start, stop⟩ :: rest) (by omega) stands
      ⟨_, _, rfl, by simp⟩
    simp [primary, read, symbol]

/-- Nothing is accessed behind an expression where no point and no bracket follows. -/
theorem moreAccesses_stop {levels : List Level} {rest : List Spanned} (stops : Stops levels rest)
    (inner : Reader Expr) (count : Nat) (e : Expr) :
    moreAccesses inner count e rest = .ok (e, rest) := by
  -- Neither a point nor a bracket is a symbol that an operand ends at.
  cases count with
  | zero => rfl
  | succ count =>
    cases rest with
    | nil => rfl
    | cons next rest =>
      obtain ⟨token, start, stop⟩ := next
      cases token with
      | symbol sign =>
        obtain ⟨-, noIndex, noMember, -⟩ := stops _ rfl sign rfl
        cases sign <;> first | rfl | contradiction
      | _ => rfl

/-- Members and indexes are read up to the place where only others go on. -/
theorem accessed_append {limit : Nat} {inner : Reader Expr} {language : Language Expr}
    (complete : CompleteUpTo limit inner language Closes)
    (shaped : Grammar.Shaped Token.beginsOperand language) {used : List Spanned} {e : Expr}
    (short : used.length ≤ limit + 1)
    (stands : Grammar.Accessed language (used.map Spanned.token) e) {rest : List Spanned}
    (noCall : symbol? .leftParen rest = none) :
    ∃ count, rest.length ≤ count ∧
      accessed inner (used ++ rest) = moreAccesses inner count e rest := by
  -- The accesses to the left are read up to the last one, and one more round reads it.
  generalize whole : used.map Spanned.token = tokens at stands
  induction stands generalizing used rest with
  | primary stands =>
    subst whole
    have read := complete_primary complete shaped _ _ _ short stands noCall
    exact ⟨rest.length, Nat.le_refl _, by rw [accessed, read]⟩
  | member name _ ih =>
    obtain ⟨front, back, rfl, isFront, isBack⟩ := List.map_eq_append_iff.mp whole
    obtain ⟨dotStart, dotStop, behind, rfl, isBehind⟩ := eq_cons_of_map isBack
    obtain ⟨start, stop, rfl⟩ := eq_singleton_of_map isBehind
    simp only [List.length_append, List.length_cons] at short
    obtain ⟨count, enough, read⟩ := @ih front (by omega)
      (⟨.symbol .dot, dotStart, dotStop⟩ :: ⟨.name name, start, stop⟩ :: rest) rfl isFront
    simp only [List.length_cons] at enough
    obtain ⟨count, rfl⟩ : ∃ n, count = n + 1 := ⟨count - 1, by omega⟩
    exact ⟨count, by omega, by simpa [moreAccesses] using read⟩
  | place digits _ ih =>
    obtain ⟨front, back, rfl, isFront, isBack⟩ := List.map_eq_append_iff.mp whole
    obtain ⟨dotStart, dotStop, behind, rfl, isBehind⟩ := eq_cons_of_map isBack
    obtain ⟨start, stop, rfl⟩ := eq_singleton_of_map isBehind
    simp only [List.length_append, List.length_cons] at short
    obtain ⟨count, enough, read⟩ := @ih front (by omega)
      (⟨.symbol .dot, dotStart, dotStop⟩ :: ⟨.number digits, start, stop⟩ :: rest) rfl isFront
    simp only [List.length_cons] at enough
    obtain ⟨count, rfl⟩ : ∃ n, count = n + 1 := ⟨count - 1, by omega⟩
    exact ⟨count, by omega, by simpa [moreAccesses] using read⟩
  | @index tokens inside e place _ stands ih =>
    obtain ⟨opened, back, rfl, isOpened, isBack⟩ := List.map_eq_append_iff.mp whole
    obtain ⟨front, behind, rfl, isFront, isBehind⟩ := List.map_eq_append_iff.mp isOpened
    obtain ⟨openStart, openStop, within, rfl, isWithin⟩ := eq_cons_of_map isBehind
    obtain ⟨start, stop, rfl⟩ := eq_singleton_of_map isBack
    subst isWithin
    simp only [List.length_append, List.length_cons] at short
    obtain ⟨count, enough, read⟩ := @ih front (by omega)
      (⟨.symbol .leftBracket, openStart, openStop⟩ ::
        (within ++ ⟨.symbol .rightBracket, start, stop⟩ :: rest)) rfl isFront
    -- The place is read up to the closing bracket.
    have inside := complete within place (⟨.symbol .rightBracket, start, stop⟩ :: rest) (by omega)
      stands ⟨_, _, rfl, by simp⟩
    simp only [List.length_cons, List.length_append] at enough
    obtain ⟨count, rfl⟩ : ∃ n, count = n + 1 := ⟨count - 1, by omega⟩
    exact ⟨count, by omega, by simpa [moreAccesses, inside, symbol] using read⟩

/-- A primary expression is read with all its members and indexes. -/
theorem complete_accessed {limit : Nat} {inner : Reader Expr} {language : Language Expr}
    (complete : CompleteUpTo limit inner language Closes)
    (shaped : Grammar.Shaped Token.beginsOperand language) :
    CompleteUpTo (limit + 1) (accessed inner) (Grammar.Accessed language) (Stops []) := by
  -- Behind the last access there is no other one.
  intro used e rest short stands stops
  obtain ⟨count, -, read⟩ := accessed_append complete shaped short stands stops.noCall
  rw [read, moreAccesses_stop stops]

/-- An expression is read with all signs in front of it. -/
theorem complete_signed {limit : Nat} {inner : Reader Expr} {language : Language Expr}
    (complete : CompleteUpTo limit inner language Closes)
    (shaped : Grammar.Shaped Token.beginsOperand language) :
    CompleteUpTo (limit + 1) (signed inner) (Grammar.Signed language) (Stops []) := by
  intro used e rest short stands stops
  -- Signs are read from the left, each in front of what the rest of the tokens stands for.
  generalize whole : used.map Spanned.token = tokens at stands
  induction stands generalizing used with
  | accessed stands =>
    -- What begins with neither sign is read as it stands.
    obtain ⟨⟨first, others, same, begins⟩, -⟩ := shaped.accessed _ _ stands
    subst whole
    have read := complete_accessed complete shaped _ _ _ short stands stops
    obtain ⟨start, stop, behind, rfl, -⟩ := eq_cons_of_map same
    rw [← read]
    cases first with
    | symbol sign => cases sign <;> first | rfl | cases begins
    | _ => rfl
  | not _ ih =>
    obtain ⟨start, stop, behind, rfl, isBehind⟩ := eq_cons_of_map whole
    have read := ih behind (Nat.le_of_succ_le short) isBehind
    simp [signed, read]
  | negate _ ih =>
    obtain ⟨start, stop, behind, rfl, isBehind⟩ := eq_cons_of_map whole
    have read := ih behind (Nat.le_of_succ_le short) isBehind
    simp [signed, read]

/-- No operator of a level is one of a tighter level. -/
theorem apart_levels : Apart levels := by
  decide

/-- Operands of all levels end at a closing bracket and at a comma. -/
theorem Closes.stops {rest : List Spanned} (closes : Closes rest) : Stops levels rest := by
  -- None of the three closing tokens is an operator of any level.
  obtain ⟨close, behind, rfl, isClose⟩ := closes
  simp only [List.mem_cons, List.not_mem_nil, or_false] at isClose
  refine stops_cons _ fun sign isSign => ?_
  rcases isClose with paren | bracket | comma
  · obtain rfl := Token.symbol.inj (paren.symm.trans isSign)
    decide
  · obtain rfl := Token.symbol.inj (bracket.symm.trans isSign)
    decide
  · obtain rfl := Token.symbol.inj (comma.symm.trans isSign)
    decide

/-- An expression whose brackets nest is read whole by the reader for as many brackets as it has
tokens. -/
theorem complete_nested (limit depth : Nat) :
    CompleteUpTo limit (nested limit) (Grammar.Nested depth) (Stops levels) := by
  -- What stands in brackets has fewer tokens.
  induction limit generalizing depth with
  | zero =>
    intro used e rest short stands _
    obtain rfl := List.eq_nil_of_length_eq_zero (Nat.le_zero.mp short)
    obtain ⟨⟨first, others, same, -⟩, -⟩ := Grammar.shaped_nested depth _ _ stands
    simp at same
  | succ limit ih =>
    cases depth with
    | zero => exact fun _ _ _ _ stands => stands.elim
    | succ depth =>
      have inside : CompleteUpTo limit (nested limit) (Grammar.Nested depth) Closes :=
        fun used e rest short stands closes => ih depth used e rest short stands closes.stops
      exact complete_joined (complete_signed inside (Grammar.shaped_nested depth)) apart_levels

/-- An expression is read whole. -/
theorem expression_append {used rest : List Spanned} {e : Expr}
    (stands : Grammar.Expression (used.map Spanned.token) e) (stops : Stops levels rest) :
    expression (used ++ rest) = .ok (e, rest) := by
  obtain ⟨depth, nests⟩ := stands
  -- The depth of its brackets is at most the number of its tokens.
  have short : used.length ≤ (used ++ rest).length + 1 := by
    rw [List.length_append]
    omega
  exact complete_nested _ depth used e rest short nests stops

/-- A sum is read whole. -/
theorem sum_append {used rest : List Spanned} {e : Expr}
    (stands : Grammar.Sum (used.map Spanned.token) e) (stops : Stops sumLevels rest) :
    sum (used ++ rest) = .ok (e, rest) := by
  obtain ⟨depth, nests⟩ := stands
  have short : used.length ≤ (used ++ rest).length + 1 := by
    rw [List.length_append]
    omega
  have inside : CompleteUpTo (used ++ rest).length (nested (used ++ rest).length)
      (Grammar.Nested depth) Closes :=
    fun used e rest short stands closes =>
      complete_nested _ depth used e rest short stands closes.stops
  -- A sum has the tighter levels only, so that also comparisons end it.
  have apart : Apart sumLevels := apart_levels.2.2.2.2.2
  exact complete_joined (complete_signed inside (Grammar.shaped_nested depth)) apart used e rest
    short nests stops

/-- Nothing goes on with an expression at the end of its tokens. -/
theorem stops_nil (levels : List Level) : Stops levels [] := by
  intro next first
  cases first

/-- An expression is read from all of its tokens. -/
theorem complete_expression {used : List Spanned} {e : Expr}
    (stands : Grammar.Expression (used.map Spanned.token) e) :
    expression used = .ok (e, []) := by
  have read := expression_append stands (stops_nil levels)
  rwa [List.append_nil] at read

/-- The header of a loop over entries is read from all of its tokens. -/
theorem complete_foreachHeader {used : List Spanned} {header : ForeachHeader}
    (stands : Grammar.Foreach (used.map Spanned.token) header) :
    foreachHeader used = .ok (header, []) := by
  generalize whole : used.map Spanned.token = tokens at stands
  cases stands with
  | items item stands =>
    obtain ⟨front, back, rfl, isFront, isBack⟩ := List.map_eq_append_iff.mp whole
    obtain ⟨start, stop, behind, rfl, isBehind⟩ := eq_cons_of_map isBack
    obtain ⟨itemStart, itemStop, rfl⟩ := eq_singleton_of_map isBehind
    subst isFront
    -- The expression ends in front of the keyword.
    have stops : Stops levels [⟨.keyword .wordAs, start, stop⟩,
        ⟨.name item, itemStart, itemStop⟩] :=
      stops_cons _ fun sign isSign => by cases isSign
    rw [foreachHeader, expression_append stands stops]
    rfl
  | entries key item stands =>
    obtain ⟨front, back, rfl, isFront, isBack⟩ := List.map_eq_append_iff.mp whole
    obtain ⟨start, stop, behind, rfl, isBehind⟩ := eq_cons_of_map isBack
    obtain ⟨keyStart, keyStop, afterKey, rfl, isAfterKey⟩ := eq_cons_of_map isBehind
    obtain ⟨signStart, signStop, afterSign, rfl, isAfterSign⟩ := eq_cons_of_map isAfterKey
    obtain ⟨itemStart, itemStop, rfl⟩ := eq_singleton_of_map isAfterSign
    subst isFront
    have stops : Stops levels [⟨.keyword .wordAs, start, stop⟩, ⟨.name key, keyStart, keyStop⟩,
        ⟨.symbol .arrow, signStart, signStop⟩, ⟨.name item, itemStart, itemStop⟩] :=
      stops_cons _ fun sign isSign => by cases isSign
    rw [foreachHeader, expression_append stands stops]
    rfl

/-- The two sums of a header stand on both sides of a symbol, behind the counter. -/
theorem sums_of_map {used : List Spanned} {counter : Text} {first last : List Token} {sign : Symbol}
    {low high : Expr} (begins : Grammar.Sum first low) (ends : Grammar.Sum last high)
    (stops : EndsOperand sumLevels sign)
    (whole : used.map Spanned.token =
      .name counter :: .keyword .wordIn :: first ++ .symbol sign :: last) :
    ∃ (named looped dotted : Nat × Nat) (behind upper : List Spanned),
      used = ⟨.name counter, named.1, named.2⟩ :: ⟨.keyword .wordIn, looped.1, looped.2⟩ ::
        behind ∧
      sum behind = .ok (low, ⟨.symbol sign, dotted.1, dotted.2⟩ :: upper) ∧
      sum upper = .ok (high, []) := by
  obtain ⟨front, back, rfl, isFront, isBack⟩ := List.map_eq_append_iff.mp whole
  obtain ⟨nameStart, nameStop, behind, rfl, isBehind⟩ := eq_cons_of_map isFront
  obtain ⟨start, stop, lower, rfl, isLower⟩ := eq_cons_of_map isBehind
  obtain ⟨dotsStart, dotsStop, upper, rfl, isUpper⟩ := eq_cons_of_map isBack
  subst isLower isUpper
  -- The first sum ends in front of the symbol, and the second one behind all tokens.
  have between : Stops sumLevels (⟨.symbol sign, dotsStart, dotsStop⟩ :: upper) :=
    stops_cons _ fun other isSign => Token.symbol.inj isSign ▸ stops
  have highest := sum_append ends (stops_nil sumLevels)
  rw [List.append_nil] at highest
  exact ⟨(nameStart, nameStop), (start, stop), (dotsStart, dotsStop), _, upper, rfl,
    sum_append begins between, highest⟩

/-- The header of a loop over integers is read from all of its tokens. -/
theorem complete_rangeHeader {used : List Spanned} {header : RangeHeader}
    (stands : Grammar.Range (used.map Spanned.token) header) :
    rangeHeader used = .ok (header, []) := by
  -- The two forms differ in the symbol between their sums only.
  generalize whole : used.map Spanned.token = tokens at stands
  cases stands with
  | exclusive counter begins ends =>
    obtain ⟨named, looped, dotted, behind, upper, rfl, lowest, highest⟩ :=
      sums_of_map begins ends (by decide) whole
    simp [rangeHeader, name, keyword, lowest, symbol?, symbol, highest, Bind.bind, Except.bind,
      Pure.pure, Except.pure]
  | inclusive counter begins ends =>
    obtain ⟨named, looped, dotted, behind, upper, rfl, lowest, highest⟩ :=
      sums_of_map begins ends (by decide) whole
    simp [rangeHeader, name, keyword, lowest, symbol?, highest, Bind.bind, Except.bind,
      Pure.pure, Except.pure]

/-- An assignment is read from all of its tokens. -/
theorem complete_assignment {used : List Spanned} {assigned : Assignment}
    (stands : Grammar.Assign (used.map Spanned.token) assigned) :
    assignment used = .ok (assigned, []) := by
  generalize whole : used.map Spanned.token = tokens at stands
  cases stands with
  | intro name stands =>
    -- The name and the sign are the first two tokens, and the value has all others.
    obtain ⟨nameStart, nameStop, behind, rfl, isBehind⟩ := eq_cons_of_map whole
    obtain ⟨start, stop, valueTokens, rfl, isValue⟩ := eq_cons_of_map isBehind
    subst isValue
    simp only [assignment, Reader.name, symbol, if_true, complete_expression stands, Bind.bind,
      Except.bind]
    rfl

/-- A reader that is sound and complete accepts a source when the tokens of the source stand for a
value, wherever the source stands. -/
theorem readAll_eq_ok_iff {α : Type} {reader : Reader α} {language : Language α}
    (sound : Sound reader language)
    (complete : ∀ {used : List Spanned} {value : α}, language (used.map Spanned.token) value →
      reader used = .ok (value, [])) (base : Nat) (source : Text) (value : α) :
    readAll reader base source = .ok value ↔
      ∃ tokens, Lexed source tokens ∧ language tokens value := by
  constructor
  · intro accepted
    cases cut : Lexer.tokenize source with
    | error offset => simp [readAll, cut] at accepted
    | ok spans =>
      cases read : reader spans with
      | error misread => simp [readAll, cut, read, Bind.bind, Except.bind] at accepted
      | ok result =>
        obtain ⟨found, rest⟩ := result
        cases rest with
        | cons next rest =>
          simp [readAll, cut, read, finish, Bind.bind, Except.bind] at accepted
        | nil =>
          -- What was read has left no token, and the tokens it took are those of the source.
          simp only [readAll, cut, read, finish, Bind.bind, Except.bind, Pure.pure, Except.pure,
            Except.ok.injEq] at accepted
          subst accepted
          obtain ⟨used, same, stands⟩ := sound _ _ _ read
          rw [List.append_nil] at same
          exact ⟨_, lexed_iff_tokenize.mpr ⟨spans, cut, rfl⟩, same ▸ stands⟩
  · rintro ⟨tokens, lexed, stands⟩
    -- The tokens of a source are found by the lexer, and the reader takes all of them.
    obtain ⟨spans, cut, rfl⟩ := lexed_iff_tokenize.mp lexed
    simp [readAll, cut, complete stands, finish, Bind.bind, Except.bind, Pure.pure, Except.pure]

end Reader

/-- The expression a source holds is the one that its tokens stand for. -/
theorem Expr.read_eq_ok_iff {base : Nat} {source : Text} {e : Expr} :
    Expr.read base source = .ok e ↔
      ∃ tokens, Lexed source tokens ∧ Grammar.Expression tokens e :=
  Reader.readAll_eq_ok_iff Reader.sound_expression Reader.complete_expression base source e

/-- The loop header a source holds is the one that its tokens stand for. -/
theorem ForeachHeader.read_eq_ok_iff {base : Nat} {source : Text} {header : ForeachHeader} :
    ForeachHeader.read base source = .ok header ↔
      ∃ tokens, Lexed source tokens ∧ Grammar.Foreach tokens header :=
  Reader.readAll_eq_ok_iff Reader.sound_foreachHeader Reader.complete_foreachHeader base source
    header

/-- The range header a source holds is the one that its tokens stand for. -/
theorem RangeHeader.read_eq_ok_iff {base : Nat} {source : Text} {header : RangeHeader} :
    RangeHeader.read base source = .ok header ↔
      ∃ tokens, Lexed source tokens ∧ Grammar.Range tokens header :=
  Reader.readAll_eq_ok_iff Reader.sound_rangeHeader Reader.complete_rangeHeader base source header

/-- The assignment a source holds is the one that its tokens stand for. -/
theorem Assignment.read_eq_ok_iff {base : Nat} {source : Text} {assigned : Assignment} :
    Assignment.read base source = .ok assigned ↔
      ∃ tokens, Lexed source tokens ∧ Grammar.Assign tokens assigned :=
  Reader.readAll_eq_ok_iff Reader.sound_assignment Reader.complete_assignment base source assigned

end Templates
