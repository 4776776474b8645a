import Templates.Proofs.Expr.Grammar
import Templates.Proofs.Outcome

/-! What a reader takes off the front of a list of tokens stands for the value it gives. -/

namespace Templates

namespace Reader

/-- A reader takes off tokens that stand for its value. -/
def Sound {α : Type} (reader : Reader α) (language : Language α) : Prop :=
  ∀ tokens value rest, reader tokens = .ok (value, rest) →
    ∃ used, tokens = used ++ rest ∧ language (used.map Spanned.token) value

/-- The symbol that was asked for stands at the front. -/
theorem eq_of_symbol? {expected : Symbol} {tokens rest : List Spanned}
    (found : symbol? expected tokens = some rest) :
    ∃ start stop, tokens = ⟨.symbol expected, start, stop⟩ :: rest := by
  -- Only the case with the same symbol in front succeeds.
  fun_cases symbol? expected tokens with
  | case1 start stop others =>
    rw [symbol?, if_pos rfl] at found
    obtain rfl := Option.some.inj found
    exact ⟨start, stop, rfl⟩
  | case2 sign start stop others differs => simp [symbol?, differs] at found
  | case3 => simp_all [symbol?]

/-- The symbol that had to come was there. -/
theorem eq_of_symbol {expected : Symbol} {tokens rest : List Spanned}
    (found : symbol expected tokens = .ok ((), rest)) :
    ∃ start stop, tokens = ⟨.symbol expected, start, stop⟩ :: rest := by
  fun_cases symbol expected tokens with
  | case1 start stop others =>
    simp only [symbol, if_true, Except.ok.injEq, Prod.mk.injEq, true_and] at found
    exact ⟨start, stop, by rw [found]⟩
  | case2 sign start stop others differs => simp [symbol, differs] at found
  | case3 => simp_all [symbol]

/-- The keyword that had to come was there. -/
theorem eq_of_keyword {expected : Keyword} {tokens rest : List Spanned}
    (found : keyword expected tokens = .ok ((), rest)) :
    ∃ start stop, tokens = ⟨.keyword expected, start, stop⟩ :: rest := by
  fun_cases keyword expected tokens with
  | case1 start stop others =>
    simp only [keyword, if_true, Except.ok.injEq, Prod.mk.injEq, true_and] at found
    exact ⟨start, stop, by rw [found]⟩
  | case2 word start stop others differs => simp [keyword, differs] at found
  | case3 => simp_all [keyword]

/-- The name that had to come was there. -/
theorem eq_of_name {found : Text} {tokens rest : List Spanned}
    (hit : name tokens = .ok (found, rest)) :
    ∃ start stop, tokens = ⟨.name found, start, stop⟩ :: rest := by
  fun_cases name tokens with
  | case1 other start stop others =>
    simp only [name, Except.ok.injEq, Prod.mk.injEq] at hit
    obtain ⟨rfl, rfl⟩ := hit
    exact ⟨start, stop, rfl⟩
  | case2 => simp_all [name]

/-- An operator of a level stands at the front. -/
theorem eq_of_operator? {level : Level} {op : BinaryOp} {tokens rest : List Spanned}
    (found : operator? level tokens = some (op, rest)) :
    ∃ sign start stop, level.lookup sign = some op ∧
      tokens = ⟨.symbol sign, start, stop⟩ :: rest := by
  -- An operator is found by looking up the first symbol.
  fun_cases operator? level tokens with
  | case1 sign start stop others =>
    obtain ⟨same, looked, pair⟩ := Option.map_eq_some_iff.mp found
    obtain ⟨rfl, rfl⟩ := Prod.mk.inj pair
    exact ⟨sign, start, stop, looked, rfl⟩
  | case2 => simp_all [operator?]

/-- Operators and right operands join what was read before them. -/
theorem sound_moreOperands {level : Level} {operand : Reader Expr} {language : Language Expr}
    (sound : Sound operand language) {count : Nat} {left e : Expr} {tokens rest : List Spanned}
    (read : moreOperands level operand count left tokens = .ok (e, rest)) {front : List Token}
    (before : Grammar.LeftJoined level language front left) :
    ∃ used, tokens = used ++ rest ∧
      Grammar.LeftJoined level language (front ++ used.map Spanned.token) e := by
  -- Each round moves an operator and its right operand from the tokens to those read before.
  induction count generalizing left tokens front with
  | zero =>
    obtain ⟨rfl, rfl⟩ := Prod.mk.inj (Except.ok.inj read)
    exact ⟨[], rfl, by simpa using before⟩
  | succ count ih =>
    rw [moreOperands] at read
    split at read
    · obtain ⟨rfl, rfl⟩ := Prod.mk.inj (Except.ok.inj read)
      exact ⟨[], rfl, by simpa using before⟩
    · rename_i op behind isOperator
      obtain ⟨sign, start, stop, looked, rfl⟩ := eq_of_operator? isOperator
      split at read
      · cases read
      · rename_i right others hit
        obtain ⟨operandTokens, rfl, stands⟩ := sound _ _ _ hit
        obtain ⟨used, rfl, joined⟩ := ih read (.binary before looked stands)
        refine ⟨⟨.symbol sign, start, stop⟩ :: operandTokens ++ used, by simp, ?_⟩
        simpa using joined

/-- One level reads what its operators join. -/
theorem sound_leftJoined {operand : Reader Expr} {language : Language Expr}
    (sound : Sound operand language) (level : Level) :
    Sound (leftJoined level operand) (Grammar.LeftJoined level language) := by
  intro tokens e rest read
  rw [leftJoined] at read
  split at read
  · cases read
  · rename_i left behind hit
    obtain ⟨first, rfl, stands⟩ := sound _ _ _ hit
    -- What the first operand took stands in front of what the operators join to it.
    obtain ⟨used, rfl, joined⟩ := sound_moreOperands sound read (.operand stands)
    exact ⟨first ++ used, by simp, by simpa using joined⟩

/-- Several levels read what their operators join. -/
theorem sound_joined {operand : Reader Expr} {language : Language Expr}
    (sound : Sound operand language) (levels : List Level) :
    Sound (joined levels operand) (Grammar.Joined levels language) := by
  -- Each level has the next tighter one for its operands.
  induction levels with
  | nil => exact sound
  | cons level levels ih => exact sound_leftJoined ih level

/-- Arguments are read up to the closing parenthesis. -/
theorem sound_moreArguments {inner : Reader Expr} {language : Language Expr}
    (sound : Sound inner language) {count : Nat} {es : List Expr} {tokens rest : List Spanned}
    (read : moreArguments inner count tokens = .ok (es, rest)) :
    ∃ used close, tokens = used ++ close :: rest ∧ close.token = .symbol .rightParen ∧
      Grammar.Items language (used.map Spanned.token) es := by
  -- Each round reads one argument and looks at the token behind it.
  induction count generalizing es tokens with
  | zero => cases read
  | succ count ih =>
    rw [moreArguments] at read
    split at read
    · cases read
    · rename_i e behind hit
      obtain ⟨first, rfl, stands⟩ := sound _ _ _ hit
      split at read
      · -- The closing parenthesis ends the arguments.
        rename_i others closed
        obtain ⟨rfl, rfl⟩ := Prod.mk.inj (Except.ok.inj read)
        obtain ⟨start, stop, rfl⟩ := eq_of_symbol? closed
        exact ⟨first, _, rfl, rfl, .last stands⟩
      · -- Otherwise a comma is followed by other arguments.
        split at read
        · cases read
        · rename_i others comma
          obtain ⟨start, stop, rfl⟩ := eq_of_symbol comma
          split at read
          · cases read
          · rename_i es' rest' more
            obtain ⟨rfl, rfl⟩ := Prod.mk.inj (Except.ok.inj read)
            obtain ⟨used, close, rfl, isClose, items⟩ := ih more
            refine ⟨first ++ ⟨.symbol .comma, start, stop⟩ :: used, close, by simp, isClose, ?_⟩
            simpa using .more stands items

/-- All arguments of a call are read with the closing parenthesis. -/
theorem sound_arguments {inner : Reader Expr} {language : Language Expr}
    (sound : Sound inner language) {es : List Expr} {tokens rest : List Spanned}
    (read : arguments inner tokens = .ok (es, rest)) :
    ∃ used close, tokens = used ++ close :: rest ∧ close.token = .symbol .rightParen ∧
      Grammar.Arguments language (used.map Spanned.token) es := by
  -- Either the parenthesis closes at once, or there is a first argument.
  rw [arguments] at read
  split at read
  · rename_i others closed
    obtain ⟨rfl, rfl⟩ := Prod.mk.inj (Except.ok.inj read)
    obtain ⟨start, stop, rfl⟩ := eq_of_symbol? closed
    exact ⟨[], _, rfl, rfl, .none⟩
  · obtain ⟨used, close, rfl, isClose, items⟩ := sound_moreArguments sound read
    exact ⟨used, close, rfl, isClose, .some items⟩

/-- A primary expression is read as one. -/
theorem sound_primary {inner : Reader Expr} {language : Language Expr}
    (sound : Sound inner language) : Sound (primary inner) (Grammar.Primary language) := by
  intro tokens e rest read
  -- The first token tells which kind of primary expression it is.
  rw [primary.eq_def] at read
  split at read
  · obtain ⟨rfl, rfl⟩ := Prod.mk.inj (Except.ok.inj read)
    exact ⟨[_], rfl, .true⟩
  · obtain ⟨rfl, rfl⟩ := Prod.mk.inj (Except.ok.inj read)
    exact ⟨[_], rfl, .false⟩
  · obtain ⟨rfl, rfl⟩ := Prod.mk.inj (Except.ok.inj read)
    exact ⟨[_], rfl, .null⟩
  · split at read
    · rename_i n value
      obtain ⟨rfl, rfl⟩ := Prod.mk.inj (Except.ok.inj read)
      exact ⟨[_], rfl, .number value⟩
    · cases read
  · obtain ⟨rfl, rfl⟩ := Prod.mk.inj (Except.ok.inj read)
    exact ⟨[_], rfl, .string _⟩
  · -- A name may be followed by the arguments of a call.
    rename_i name nameStart nameStop behind
    split at read
    · obtain ⟨rfl, rfl⟩ := Prod.mk.inj (Except.ok.inj read)
      exact ⟨[_], rfl, .var _⟩
    · rename_i inside opens
      obtain ⟨start, stop, rfl⟩ := eq_of_symbol? opens
      split at read
      · cases read
      · rename_i args others hit
        obtain ⟨rfl, rfl⟩ := Prod.mk.inj (Except.ok.inj read)
        obtain ⟨used, close, rfl, isClose, stands⟩ := sound_arguments sound hit
        refine ⟨⟨.name name, nameStart, nameStop⟩ :: ⟨.symbol .leftParen, start, stop⟩ ::
          used ++ [close], by simp, ?_⟩
        simpa [isClose] using Grammar.Primary.call name stands
  · -- Otherwise an expression stands in parentheses.
    rename_i start stop behind
    split at read
    · cases read
    · rename_i value others hit
      obtain ⟨inside, rfl, stands⟩ := sound _ _ _ hit
      split at read
      · cases read
      · rename_i last closed
        obtain ⟨rfl, rfl⟩ := Prod.mk.inj (Except.ok.inj read)
        obtain ⟨closeStart, closeStop, rfl⟩ := eq_of_symbol closed
        refine ⟨⟨.symbol .leftParen, start, stop⟩ :: inside ++
          [⟨.symbol .rightParen, closeStart, closeStop⟩], by simp, ?_⟩
        simpa using Grammar.Primary.parens stands
  · cases read

/-- Members and indexes belong to what was read before them. -/
theorem sound_moreAccesses {inner : Reader Expr} {language : Language Expr}
    (sound : Sound inner language) {count : Nat} {base e : Expr} {tokens rest : List Spanned}
    (read : moreAccesses inner count base tokens = .ok (e, rest)) {front : List Token}
    (before : Grammar.Accessed language front base) :
    ∃ used, tokens = used ++ rest ∧
      Grammar.Accessed language (front ++ used.map Spanned.token) e := by
  -- Each round moves a member or an index to what was read before.
  induction count generalizing base tokens front with
  | zero =>
    obtain ⟨rfl, rfl⟩ := Prod.mk.inj (Except.ok.inj read)
    exact ⟨[], rfl, by simpa using before⟩
  | succ count ih =>
    rw [moreAccesses.eq_def] at read
    dsimp only at read
    split at read
    · rename_i _ _ _ name _ _ behind
      obtain ⟨used, rfl, stands⟩ := ih read (.member name before)
      exact ⟨_ :: _ :: used, rfl, by simpa using stands⟩
    · rename_i _ _ _ digits _ _ behind
      obtain ⟨used, rfl, stands⟩ := ih read (.place digits before)
      exact ⟨_ :: _ :: used, rfl, by simpa using stands⟩
    · cases read
    · -- An index goes on to its closing bracket.
      rename_i start stop behind
      split at read
      · cases read
      · rename_i place others hit
        obtain ⟨inside, rfl, within⟩ := sound _ _ _ hit
        split at read
        · cases read
        · rename_i last closed
          obtain ⟨closeStart, closeStop, rfl⟩ := eq_of_symbol closed
          obtain ⟨used, rfl, stands⟩ := ih read (.index before within)
          refine ⟨⟨.symbol .leftBracket, start, stop⟩ :: inside ++
            ⟨.symbol .rightBracket, closeStart, closeStop⟩ :: used, by simp, ?_⟩
          simpa using stands
    · obtain ⟨rfl, rfl⟩ := Prod.mk.inj (Except.ok.inj read)
      exact ⟨[], rfl, by simpa using before⟩

/-- A primary expression is read with its members and indexes. -/
theorem sound_accessed {inner : Reader Expr} {language : Language Expr}
    (sound : Sound inner language) : Sound (accessed inner) (Grammar.Accessed language) := by
  intro tokens e rest read
  rw [accessed] at read
  split at read
  · cases read
  · rename_i base behind hit
    -- The primary expression stands in front of all that is accessed.
    obtain ⟨first, rfl, stands⟩ := sound_primary sound _ _ _ hit
    obtain ⟨used, rfl, accessed⟩ := sound_moreAccesses sound read (.primary stands)
    exact ⟨first ++ used, by simp, by simpa using accessed⟩

/-- An expression is read with the signs in front of it. -/
theorem sound_signed {inner : Reader Expr} {language : Language Expr}
    (sound : Sound inner language) : Sound (signed inner) (Grammar.Signed language) := by
  intro tokens e rest read
  -- Each sign takes one token off, and what follows the last one is accessed.
  induction tokens generalizing e rest with
  | nil =>
    obtain ⟨used, same, stands⟩ := sound_accessed sound _ _ _ read
    exact ⟨used, same, .accessed stands⟩
  | cons first tokens ih =>
    rw [signed.eq_def] at read
    split at read
    · rename_i start stop behind same
      obtain ⟨rfl, rfl⟩ := List.cons.inj same
      split at read
      · cases read
      · rename_i value others hit
        obtain ⟨rfl, rfl⟩ := Prod.mk.inj (Except.ok.inj read)
        obtain ⟨used, rfl, stands⟩ := ih _ _ hit
        exact ⟨_ :: used, rfl, .not stands⟩
    · rename_i start stop behind same
      obtain ⟨rfl, rfl⟩ := List.cons.inj same
      split at read
      · cases read
      · rename_i value others hit
        obtain ⟨rfl, rfl⟩ := Prod.mk.inj (Except.ok.inj read)
        obtain ⟨used, rfl, stands⟩ := ih _ _ hit
        exact ⟨_ :: used, rfl, .negate stands⟩
    · obtain ⟨used, same, stands⟩ := sound_accessed sound _ _ _ read
      exact ⟨used, same, .accessed stands⟩

/-- Expressions are read up to any depth of brackets. -/
theorem sound_nested (depth : Nat) : Sound (nested depth) (Grammar.Nested depth) := by
  -- One more level of brackets is read by the reader for one level less.
  induction depth with
  | zero => intro tokens e rest read; cases read
  | succ depth ih => exact sound_joined (sound_signed ih) levels

/-- An expression is read as one. -/
theorem sound_expression : Sound expression Grammar.Expression := by
  intro tokens e rest read
  obtain ⟨used, same, stands⟩ := sound_nested _ _ _ _ read
  exact ⟨used, same, _, stands⟩

/-- A sum is read as one. -/
theorem sound_sum : Sound sum Grammar.Sum := by
  intro tokens e rest read
  obtain ⟨used, same, stands⟩ :=
    sound_joined (sound_signed (sound_nested tokens.length)) sumLevels _ _ _ read
  exact ⟨used, same, _, stands⟩

/-- The header of a loop over entries is read as one. -/
theorem sound_foreachHeader : Sound foreachHeader Grammar.Foreach := by
  intro tokens header rest read
  -- The parts of the header are read one after the other.
  obtain ⟨⟨iterable, afterItems⟩, hit, asNext⟩ := exists_of_bind read
  obtain ⟨⟨⟨⟩, afterAs⟩, isAs, nameNext⟩ := exists_of_bind asNext
  obtain ⟨⟨first, afterName⟩, isName, arrowNext⟩ := exists_of_bind nameNext
  obtain ⟨used, rfl, stands⟩ := sound_expression _ _ _ hit
  obtain ⟨asStart, asStop, rfl⟩ := eq_of_keyword isAs
  obtain ⟨start, stop, rfl⟩ := eq_of_name isName
  dsimp only at arrowNext
  split at arrowNext
  · obtain ⟨rfl, rfl⟩ := Prod.mk.inj (Except.ok.inj arrowNext)
    refine ⟨used ++ [⟨.keyword .wordAs, asStart, asStop⟩, ⟨.name first, start, stop⟩],
      by simp, ?_⟩
    simpa using Grammar.Foreach.items first stands
  · -- With an arrow the first name is that of the key.
    rename_i others isArrow
    obtain ⟨arrowStart, arrowStop, rfl⟩ := eq_of_symbol? isArrow
    obtain ⟨⟨item, last⟩, isItem, done⟩ := exists_of_bind arrowNext
    obtain ⟨itemStart, itemStop, rfl⟩ := eq_of_name isItem
    obtain ⟨rfl, rfl⟩ := Prod.mk.inj (Except.ok.inj done)
    refine ⟨used ++ [⟨.keyword .wordAs, asStart, asStop⟩, ⟨.name first, start, stop⟩,
      ⟨.symbol .arrow, arrowStart, arrowStop⟩, ⟨.name item, itemStart, itemStop⟩], by simp, ?_⟩
    simpa using Grammar.Foreach.entries first item stands

/-- The header of a loop over integers is read as one. -/
theorem sound_rangeHeader : Sound rangeHeader Grammar.Range := by
  intro tokens header rest read
  -- The parts of the header are read one after the other.
  obtain ⟨⟨counter, afterName⟩, isName, inNext⟩ := exists_of_bind read
  obtain ⟨⟨⟨⟩, afterIn⟩, isIn, startNext⟩ := exists_of_bind inNext
  obtain ⟨⟨start, afterStart⟩, hit, dotsNext⟩ := exists_of_bind startNext
  obtain ⟨nameStart, nameStop, rfl⟩ := eq_of_name isName
  obtain ⟨inStart, inStop, rfl⟩ := eq_of_keyword isIn
  obtain ⟨first, rfl, stands⟩ := sound_sum _ _ _ hit
  -- Only the symbol between the two sums tells whether the last integer counts.
  dsimp only at dotsNext
  split at dotsNext
  · rename_i others isDots
    obtain ⟨dotsStart, dotsStop, rfl⟩ := eq_of_symbol? isDots
    obtain ⟨⟨stop, behind⟩, hit, done⟩ := exists_of_bind dotsNext
    obtain ⟨last, rfl, ends⟩ := sound_sum _ _ _ hit
    obtain ⟨rfl, rfl⟩ := Prod.mk.inj (Except.ok.inj done)
    refine ⟨⟨.name counter, nameStart, nameStop⟩ :: ⟨.keyword .wordIn, inStart, inStop⟩ ::
      first ++ ⟨.symbol .dotsEqual, dotsStart, dotsStop⟩ :: last, by simp, ?_⟩
    simpa using Grammar.Range.inclusive counter stands ends
  · obtain ⟨⟨⟨⟩, afterDots⟩, isDots, stopNext⟩ := exists_of_bind dotsNext
    obtain ⟨dotsStart, dotsStop, rfl⟩ := eq_of_symbol isDots
    obtain ⟨⟨stop, behind⟩, hit, done⟩ := exists_of_bind stopNext
    obtain ⟨last, rfl, ends⟩ := sound_sum _ _ _ hit
    obtain ⟨rfl, rfl⟩ := Prod.mk.inj (Except.ok.inj done)
    refine ⟨⟨.name counter, nameStart, nameStop⟩ :: ⟨.keyword .wordIn, inStart, inStop⟩ ::
      first ++ ⟨.symbol .dots, dotsStart, dotsStop⟩ :: last, by simp, ?_⟩
    simpa using Grammar.Range.exclusive counter stands ends

/-- An assignment is read as one. -/
theorem sound_assignment : Sound assignment Grammar.Assign := by
  intro tokens assigned rest read
  -- The parts of the assignment are read one after the other.
  obtain ⟨⟨name, afterName⟩, isName, signNext⟩ := exists_of_bind read
  obtain ⟨⟨⟨⟩, afterSign⟩, isSign, valueNext⟩ := exists_of_bind signNext
  obtain ⟨⟨value, behind⟩, hit, done⟩ := exists_of_bind valueNext
  obtain ⟨nameStart, nameStop, rfl⟩ := eq_of_name isName
  obtain ⟨signStart, signStop, rfl⟩ := eq_of_symbol isSign
  obtain ⟨used, rfl, stands⟩ := sound_expression _ _ _ hit
  obtain ⟨rfl, rfl⟩ := Prod.mk.inj (Except.ok.inj done)
  exact ⟨_ :: _ :: used, rfl, .intro name stands⟩

end Reader

end Templates
