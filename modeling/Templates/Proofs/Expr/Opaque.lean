import Templates.Program.Tag
import Templates.Proofs.Expr.Delimited
import Templates.Proofs.Expr.Shape

/-!
Sources of expressions and headers are passed over whole by the searches for the ends of markers and
of tags, whatever their strings hold.
-/

namespace Templates

open Lexer

/-- A text whose quotes are closed, with no end of a tag and no character of several bytes outside
of them. -/
inductive Untagged : Text → Prop where
  | nil : Untagged []
  | plain {c : Char} {rest : Text} :
    ¬ IsQuote c → c.utf8Size = 1 → (c = '%' → rest.head? ≠ some '>') → Untagged rest →
      Untagged (c :: rest)
  | quoted {quote : Char} {body rest : Text} :
    IsQuote quote → Unquoted quote body → Untagged rest →
      Untagged (quote :: body ++ quote :: rest)

namespace TagEnd

/-- A character in quotes that takes no other with it ends them or leaves them open. -/
theorem search_inside {c : Char} (noEscape : c ≠ '\\') (quote : Char) (rest : Text) :
    search (some quote) (c :: rest) =
      .cons c (search (if c = quote then none else some quote) rest) := by
  rw [search]
  intro _ _ same
  exact absurd same noEscape

/-- The search goes on behind the quote that ends a quoted part. -/
theorem search_unquoted {quote : Char} (isQuote : IsQuote quote) {body : Text}
    (inside : Unquoted quote body) (rest : Text) :
    search (some quote) (body ++ quote :: rest) =
      body.foldr .cons (.cons quote (search none rest)) := by
  -- The part is left at its first quote that no backslash takes away.
  induction inside with
  | nil => simp [search_inside (Marker.ne_backslash_of_isQuote isQuote)]
  | escaped c _ ih => rw [List.cons_append, List.cons_append, search, ih]; rfl
  | plain notQuote noEscape _ ih =>
    rw [List.cons_append, search_inside noEscape, if_neg notQuote, ih]
    rfl

/-- The search for the end of a tag passes over an untagged text. -/
theorem search_untagged {text : Text} (untagged : Untagged text) {rest : Text}
    (noEnd : rest.head? ≠ some '>') :
    search none (text ++ rest) = text.foldr .cons (search none rest) := by
  -- The search leaves out quoted parts, and no other part holds the end of a tag.
  induction untagged with
  | nil => rfl
  | @plain c tail notQuote small noTag _ ih =>
    have plainChar : ¬ (c = '"' || c = '\'') = true := by simpa [IsQuote] using notQuote
    -- A percent sign at the end of the text is followed by what comes behind it.
    have noHead (isPercent : c = '%') : (tail ++ rest).head? ≠ some '>' := by
      cases tail with
      | nil => exact noEnd
      | cons d tail => exact noTag isPercent
    have noStrip : Text.strip? "%>".toList (c :: (tail ++ rest)) = none := by
      by_cases isPercent : c = '%'
      · have differs := noHead isPercent
        cases behind : tail ++ rest with
        | nil => simp [Text.strip?]
        | cons d others =>
          have notEnd : '>' ≠ d := by
            rintro rfl
            exact differs (by rw [behind]; rfl)
          simp [Text.strip?, notEnd]
      · simp [Text.strip?, Ne.symm isPercent]
    rw [List.cons_append, search, if_neg plainChar, noStrip]
    simp [small, ih]
  | @quoted quote body tail isQuote inside _ ih =>
    have quoteChar : (quote = '"' || quote = '\'') = true := by simpa [IsQuote] using isQuote
    rw [List.append_assoc, List.cons_append, search, if_pos quoteChar, List.cons_append,
      search_unquoted isQuote inside, ih]
    simp

end TagEnd

/-- The first of several tokens stands behind gaps, and the others behind it. -/
theorem Spelled.uncons {text : Text} {token : Token} {tokens : List Token}
    (spelled : Spelled text (token :: tokens)) :
    ∃ gaps lexeme after, text = gaps ++ (lexeme ++ after) ∧ (∀ c ∈ gaps, isGap c = true) ∧
      Spells lexeme token ∧ Spelled after tokens := by
  -- Gaps are passed over until the first token comes.
  generalize whole : token :: tokens = all at spelled
  induction spelled with
  | nil => cases whole
  | @gap c _ _ isGap _ ih =>
    obtain ⟨gaps, lexeme, after, rfl, allGaps, spells, behind⟩ := ih whole
    exact ⟨c :: gaps, lexeme, after, rfl, List.forall_mem_cons.mpr ⟨isGap, allGaps⟩, spells, behind⟩
  | @token lexeme rest _ _ spells behind _ =>
    obtain ⟨rfl, rfl⟩ := List.cons.inj whole
    exact ⟨[], lexeme, rest, rfl, by simp, spells, behind⟩

/-- A text without tokens is made of gaps. -/
theorem Spelled.gaps {text : Text} (spelled : Spelled text []) : ∀ c ∈ text, isGap c = true := by
  -- Every token would be one of none.
  generalize whole : [] = none at spelled
  induction spelled with
  | nil => simp
  | gap isGap _ ih => exact List.forall_mem_cons.mpr ⟨isGap, ih whole⟩
  | token _ _ => cases whole

/-- Texts are put together with their tokens. -/
theorem Spelled.split {text : Text} {front back : List Token}
    (spelled : Spelled text (front ++ back)) :
    ∃ first second, text = first ++ second ∧ Spelled first front ∧ Spelled second back := by
  -- The tokens are counted off from the front, with the gaps in front of them.
  generalize whole : front ++ back = tokens at spelled
  induction spelled generalizing front with
  | nil =>
    obtain ⟨rfl, rfl⟩ := List.append_eq_nil_iff.mp whole
    exact ⟨[], [], rfl, .nil, .nil⟩
  | @gap c _ _ isGap _ ih =>
    obtain ⟨first, second, rfl, isFirst, isSecond⟩ := ih whole
    exact ⟨c :: first, second, rfl, .gap isGap isFirst, isSecond⟩
  | @token lexeme rest _ _ spells behind ih =>
    cases front with
    | nil =>
      obtain rfl : back = _ := whole
      exact ⟨[], _, rfl, .nil, .token spells behind⟩
    | cons token front =>
      obtain ⟨rfl, same⟩ := List.cons.inj whole
      obtain ⟨first, second, rfl, isFirst, isSecond⟩ := ih same
      exact ⟨lexeme ++ first, second, by simp, .token spells isFirst, isSecond⟩

/-- Words are no symbols. -/
theorem Lexer.word_ne_symbol (text : Text) (sign : Symbol) : Lexer.word text ≠ .symbol sign := by
  fun_cases Lexer.word text <;> simp

/-- A symbol is written in one way only. -/
theorem Spells.eq_text {lexeme : Text} {sign : Symbol} (spells : Spells lexeme (.symbol sign)) :
    lexeme = sign.text := by
  -- Only symbols are spelled as symbols.
  generalize whole : Token.symbol sign = token at spells
  cases spells with
  | word _ _ => exact absurd whole.symm (Lexer.word_ne_symbol _ _)
  | number _ _ => cases whole
  | string _ _ => cases whole
  | symbol other => rw [Token.symbol.inj whole]

/-- A character that ends no expression in a marker and no tag, and begins no string. -/
structure Harmless (c : Char) : Prop where
  notOpen : c ≠ '('
  notClose : c ≠ ')'
  notQuote : ¬ IsQuote c
  notPercent : c ≠ '%'
  small : c.utf8Size = 1

/-- Gaps are harmless. -/
theorem Harmless.gap {c : Char} (gap : isGap c = true) : Harmless c := by
  simp only [isGap, Bool.or_eq_true, decide_eq_true_eq] at gap
  rcases gap with ((rfl | rfl) | rfl) | rfl <;>
    exact ⟨by decide, by decide, by decide, by decide, rfl⟩

/-- The characters of names are harmless. -/
theorem Harmless.name {c : Char} (inName : startsName c = true ∨ continuesName c = true) :
    Harmless c := by
  -- None of the special characters is in a name.
  refine ⟨?_, ?_, ?_, ?_, (printing_of_name inName).utf8Size⟩
  · rintro rfl
    revert inName
    decide
  · rintro rfl
    revert inName
    decide
  · rintro (rfl | rfl) <;> revert inName <;> decide
  · rintro rfl
    revert inName
    decide

/-- The characters of numbers are harmless. -/
theorem Harmless.number {c : Char} (inNumber : c.isDigit = true ∨ c = '.') : Harmless c := by
  -- A digit is a character of names too.
  rcases inNumber with digit | rfl
  · exact .name (.inr (by simp [continuesName, Char.isAlphanum, digit]))
  · exact ⟨by decide, by decide, by decide, by decide, rfl⟩

/-- Symbols other than parentheses and the percent sign are harmless. -/
theorem Harmless.symbol {sign : Symbol} (notOpen : sign ≠ .leftParen)
    (notClose : sign ≠ .rightParen) (notPercent : sign ≠ .percent) :
    ∀ c ∈ sign.text, Harmless c := by
  -- All other symbols are looked at one by one.
  intro c member
  have marked := printing_of_symbol sign c member
  have checked : sign.text.all
      (fun c => decide (c ≠ '(' ∧ c ≠ ')' ∧ ¬ IsQuote c ∧ c ≠ '%')) = true := by
    cases sign <;> first | rfl | contradiction
  obtain ⟨opens, closes, quote, percent⟩ := of_decide_eq_true (List.all_eq_true.mp checked c member)
  exact ⟨opens, closes, quote, percent, marked.utf8Size⟩

/-- Harmless characters in front of a balanced text keep it balanced. -/
theorem Balanced.harmless {front : Text} (harmless : ∀ c ∈ front, Harmless c) {back : Text}
    (balanced : Balanced back) : Balanced (front ++ back) := by
  induction front with
  | nil => exact balanced
  | cons c front ih =>
    obtain ⟨first, others⟩ := List.forall_mem_cons.mp harmless
    exact .plain first.notOpen first.notClose first.notQuote (ih others)

/-- Harmless characters in front of an untagged text keep it untagged. -/
theorem Untagged.harmless {front : Text} (harmless : ∀ c ∈ front, Harmless c) {back : Text}
    (untagged : Untagged back) : Untagged (front ++ back) := by
  induction front with
  | nil => exact untagged
  | cons c front ih =>
    obtain ⟨first, others⟩ := List.forall_mem_cons.mp harmless
    exact .plain first.notQuote first.small (fun percent => absurd percent first.notPercent)
      (ih others)

/-- A lexeme is harmless unless it is a string, a parenthesis or a percent sign. -/
theorem Spells.cases_harmless {lexeme : Text} {token : Token} (spells : Spells lexeme token) :
    (∀ c ∈ lexeme, Harmless c) ∨
      (∃ quote body, IsQuote quote ∧ Unquoted quote body ∧ lexeme = quote :: body ++ [quote]) ∨
      (∃ sign ∈ [Symbol.leftParen, .rightParen, .percent], token = .symbol sign ∧
        lexeme = sign.text) := by
  -- Strings and three symbols are the only tokens with special characters.
  cases spells with
  | word _ inName => exact .inl fun c member => .name (inName c member)
  | number _ inNumber => exact .inl fun c member => .number (inNumber c member)
  | @string quote body isQuote inside => exact .inr (.inl ⟨quote, body, isQuote, inside, rfl⟩)
  | symbol sign =>
    by_cases special : sign ∈ [Symbol.leftParen, .rightParen, .percent]
    · exact .inr (.inr ⟨sign, special, rfl, rfl⟩)
    · simp only [List.mem_cons, List.not_mem_nil, or_false, not_or] at special
      exact .inl (Harmless.symbol special.1 special.2.1 special.2.2)

/-- A text whose tokens pair up their parentheses is balanced. -/
theorem Spelled.balanced {text : Text} {tokens : List Token} (spelled : Spelled text tokens)
    (paired : Paired tokens) : Balanced text := by
  -- Gaps and most tokens are harmless, and parentheses stand around what is balanced.
  induction paired generalizing text with
  | nil =>
    have whole := Balanced.harmless (fun c member => .gap (spelled.gaps c member)) .nil
    rwa [List.append_nil] at whole
  | @plain token rest notOpen notClose _ ih =>
    obtain ⟨gaps, lexeme, after, rfl, allGaps, spells, behind⟩ := spelled.uncons
    refine .harmless (fun c member => .gap (allGaps c member)) ?_
    rcases spells.cases_harmless with harmless | ⟨quote, body, isQuote, inside, rfl⟩ |
      ⟨sign, special, rfl, rfl⟩
    · exact .harmless harmless (ih behind)
    · simpa using Balanced.quoted isQuote inside (ih behind)
    · -- The only one of the three symbols left is the percent sign.
      have percent : sign = .percent := by
        simp only [List.mem_cons, List.not_mem_nil, or_false] at special
        rcases special with rfl | rfl | rfl
        · exact absurd rfl notOpen
        · exact absurd rfl notClose
        · rfl
      subst percent
      exact .plain (by decide) (by decide) (by decide) (ih behind)
  | @nested inner rest _ _ innerIh restIh =>
    obtain ⟨opened, closed, rfl, isOpened, isClosed⟩ := spelled.split
    obtain ⟨gaps, lexeme, inside, rfl, allGaps, spells, isInside⟩ := isOpened.uncons
    obtain ⟨closeGaps, closeLexeme, after, rfl, allCloseGaps, closeSpells, isAfter⟩ :=
      isClosed.uncons
    obtain rfl := spells.eq_text
    obtain rfl := closeSpells.eq_text
    have spaced : Balanced (inside ++ closeGaps) := by
      have last := Balanced.harmless (fun c member => .gap (allCloseGaps c member)) .nil
      rw [List.append_nil] at last
      exact (innerIh isInside).append last
    rw [List.append_assoc]
    refine .harmless (fun c member => .gap (allGaps c member)) ?_
    simpa [Symbol.text] using Balanced.nested spaced (restIh isAfter)

/-- An operand does not begin with the end of a tag. -/
theorem Spells.head_ne {lexeme : Text} {token : Token} (spells : Spells lexeme token)
    (begins : token.beginsOperand = true) : lexeme.head? ≠ some '>' := by
  -- No symbol that begins an operand begins with the end of a tag, and no other token can.
  intro first
  have member := List.mem_of_head? first
  cases spells with
  | word _ inName => exact absurd (inName '>' member) (by decide)
  | number _ inNumber => exact absurd (inNumber '>' member) (by decide)
  | string isQuote _ =>
    obtain rfl := Option.some.inj first
    exact absurd isQuote (by decide)
  | symbol sign => cases sign <;> first | exact absurd begins (by decide) | cases first

/-- A text that begins with an operand does not begin with the end of a tag. -/
theorem Spelled.head_ne {text : Text} {tokens : List Token} (spelled : Spelled text tokens)
    (begins : BeginsWith Token.beginsOperand tokens) : text.head? ≠ some '>' := by
  -- The first character is that of a gap or of the first token.
  obtain ⟨first, rest, rfl, isFirst⟩ := begins
  obtain ⟨gaps, lexeme, after, rfl, allGaps, spells, -⟩ := spelled.uncons
  cases gaps with
  | cons c gaps =>
    intro same
    obtain rfl := Option.some.inj same
    exact absurd (allGaps '>' List.mem_cons_self) (by decide)
  | nil =>
    intro same
    cases lexeme with
    | nil => exact spells.ne_nil rfl
    | cons c lexeme => exact spells.head_ne isFirst same

/-- A text whose percent signs are followed by operands is untagged. -/
theorem Spelled.untagged {text : Text} {tokens : List Token} (spelled : Spelled text tokens)
    (guarded : Guarded tokens) : Untagged text := by
  -- Only a percent sign could begin the end of a tag, and an operand stands behind it.
  induction spelled with
  | nil => exact .nil
  | @gap c _ _ isGap _ ih =>
    have harmless := Harmless.gap isGap
    exact .plain harmless.notQuote harmless.small
      (fun percent => absurd percent harmless.notPercent)
      (ih guarded)
  | @token lexeme rest token tokens spells behind ih =>
    rcases spells.cases_harmless with harmless | ⟨quote, body, isQuote, inside, rfl⟩ |
      ⟨sign, special, rfl, rfl⟩
    · exact .harmless harmless (ih guarded.2)
    · simpa using Untagged.quoted isQuote inside (ih guarded.2)
    · have noEnd (isPercent : sign = .percent) : rest.head? ≠ some '>' :=
        behind.head_ne (guarded.1 (by rw [isPercent]))
      simp only [List.mem_cons, List.not_mem_nil, or_false] at special
      rcases special with rfl | rfl | rfl
      · exact .plain (by decide) rfl (fun percent => absurd percent (by decide)) (ih guarded.2)
      · exact .plain (by decide) rfl (fun percent => absurd percent (by decide)) (ih guarded.2)
      · exact .plain (by decide) rfl (fun _ => noEnd rfl) (ih guarded.2)

end Templates
