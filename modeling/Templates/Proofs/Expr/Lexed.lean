import Templates.Expr.Lexer
import Templates.Proofs.Directive.Balanced

/-!
What a tokenizer reads, apart from offsets: a text is made of gaps and of lexemes that spell tokens.

Lexemes are told exactly, by what a token may be written as, and loosely, by the characters that it
is written with.
-/

namespace Templates

open Lexer

/-- What may stand between two quotes of one kind in a string: a backslash takes the next character
with it, which may not be a newline. -/
inductive StringBody (quote : Char) : Text → Prop where
  | nil : StringBody quote []
  | escaped {c : Char} {rest : Text} :
    c ≠ '\n' → StringBody quote rest → StringBody quote ('\\' :: c :: rest)
  | plain {c : Char} {rest : Text} :
    c ≠ quote → c ≠ '\\' → StringBody quote rest → StringBody quote (c :: rest)

/-- Digits, which may have a point between two of them. -/
inductive Numeral : Text → Prop where
  | whole {digits : Text} : digits ≠ [] → (∀ c ∈ digits, c.isDigit = true) → Numeral digits
  | pointed {digits fraction : Text} :
    digits ≠ [] → (∀ c ∈ digits, c.isDigit = true) →
      fraction ≠ [] → (∀ c ∈ fraction, c.isDigit = true) → Numeral (digits ++ '.' :: fraction)

/-- What a token may be written as by itself. A keyword is no name, and a dollar sign in front of a
name is not part of it. -/
inductive Lexeme : Text → Token → Prop where
  | keyword (word : Keyword) : Lexeme word.text (.keyword word)
  | name {c : Char} {rest : Text} :
    startsName c = true → c ≠ '$' → (∀ d ∈ rest, continuesName d = true) →
      (∀ word : Keyword, word.text ≠ c :: rest) → Lexeme (c :: rest) (.name (c :: rest))
  | dollar {rest : Text} :
    (∀ d ∈ rest, continuesName d = true) → Lexeme ('$' :: rest) (.name rest)
  | number {digits : Text} : Numeral digits → Lexeme digits (.number digits)
  | string {quote : Char} {body : Text} :
    IsQuote quote → StringBody quote body →
      Lexeme (quote :: (body ++ [quote])) (.string (quote :: (body ++ [quote])))
  | symbol (sign : Symbol) : Lexeme sign.text (.symbol sign)

/-- The characters that a token is written with. -/
inductive Spells : Text → Token → Prop where
  | word {lexeme : Text} :
    lexeme ≠ [] → (∀ c ∈ lexeme, startsName c = true ∨ continuesName c = true) →
      Spells lexeme (Lexer.word lexeme)
  | number {lexeme : Text} :
    lexeme ≠ [] → (∀ c ∈ lexeme, c.isDigit = true ∨ c = '.') → Spells lexeme (.number lexeme)
  | string {quote : Char} {body : Text} :
    IsQuote quote → Unquoted quote body →
      Spells (quote :: body ++ [quote]) (.string (quote :: body ++ [quote]))
  | symbol (sign : Symbol) : Spells sign.text (.symbol sign)

/-- A text of gaps and of lexemes that spell the given tokens. -/
inductive Spelled : Text → List Token → Prop where
  | nil : Spelled [] []
  | gap {c : Char} {rest : Text} {tokens : List Token} :
    isGap c = true → Spelled rest tokens → Spelled (c :: rest) tokens
  | token {lexeme rest : Text} {token : Token} {tokens : List Token} :
    Spells lexeme token → Spelled rest tokens → Spelled (lexeme ++ rest) (token :: tokens)

/-- A text that the tokenizer cuts into the given tokens. -/
inductive Lexed : Text → List Token → Prop where
  | nil : Lexed [] []
  | gap {c : Char} {rest : Text} {tokens : List Token} :
    isGap c = true → Lexed rest tokens → Lexed (c :: rest) tokens
  | token {c : Char} {rest after : Text} {token : Token} {tokens : List Token} :
    isGap c = false → token? (c :: rest) = some (token, after) → Lexed after tokens →
      Lexed (c :: rest) (token :: tokens)

/-- No symbol is empty. -/
theorem Symbol.text_ne_nil (sign : Symbol) : sign.text ≠ [] := by
  cases sign <;> decide

/-- A lexeme is not empty. -/
theorem Spells.ne_nil {lexeme : Text} {token : Token} (spells : Spells lexeme token) :
    lexeme ≠ [] := by
  cases spells with
  | word filled _ => exact filled
  | number filled _ => exact filled
  | string _ _ => simp
  | symbol sign => exact sign.text_ne_nil

/-- What stands in a string has no quote of its kind that no backslash takes with it. -/
theorem StringBody.unquoted {quote : Char} {body : Text} (inside : StringBody quote body) :
    Unquoted quote body := by
  induction inside with
  | nil => exact .nil
  | escaped _ _ ih => exact .escaped _ ih
  | plain notQuote notBackslash _ ih => exact .plain notQuote notBackslash ih

/-- A numeral is not empty, and it is written with digits and points. -/
theorem Numeral.digits {text : Text} (numeral : Numeral text) :
    text ≠ [] ∧ ∀ c ∈ text, c.isDigit = true ∨ c = '.' := by
  cases numeral with
  | whole filled digits => exact ⟨filled, fun c listed => .inl (digits c listed)⟩
  | pointed filled digits _ fraction =>
    refine ⟨by simp, fun c listed => ?_⟩
    rcases List.mem_append.mp listed with front | back
    · exact .inl (digits c front)
    · rcases List.mem_cons.mp back with point | behind
      · exact .inr point
      · exact .inl (fraction c behind)

namespace Lexer

/-- Digits begin no name. -/
theorem startsName_of_isDigit {c : Char} (isDigit : c.isDigit = true) : startsName c = false := by
  rw [Bool.eq_false_iff]
  intro starts
  simp only [startsName, Bool.or_eq_true, decide_eq_true_eq] at starts
  rcases starts with (letter | rfl) | rfl
  · -- Digits are in the range from 48 to 57, and letters are above it.
    have digit := (Bool.and_eq_true (decide (c.val ≥ 48)) (decide (c.val ≤ 57))).mp isDigit
    have small : c.toNat ≤ 57 := of_decide_eq_true digit.2
    rcases (Bool.or_eq_true _ _).mp letter with upper | lower
    · have above : 65 ≤ c.toNat ∧ c.toNat ≤ 90 := of_decide_eq_true upper
      omega
    · have range := (Bool.and_eq_true (decide (c.val ≥ 97)) (decide (c.val ≤ 122))).mp lower
      have above : 97 ≤ c.toNat := of_decide_eq_true range.1
      omega
  · cases isDigit
  · cases isDigit

/-- A character that separates tokens belongs to no name. -/
theorem noName_of_isGap {c : Char} (gap : isGap c = true) :
    startsName c = false ∧ continuesName c = false := by
  simp only [isGap, Bool.or_eq_true, decide_eq_true_eq] at gap
  rcases gap with ((rfl | rfl) | rfl) | rfl <;> exact ⟨rfl, rfl⟩

/-- A keyword stands for itself. -/
theorem word_keyword (keyword : Keyword) : word keyword.text = .keyword keyword := by
  cases keyword <;> rfl

/-- A word that is no keyword is a name. -/
theorem word_name {c : Char} {rest : Text} (noDollar : c ≠ '$')
    (unreserved : ∀ keyword : Keyword, keyword.text ≠ c :: rest) :
    word (c :: rest) = .name (c :: rest) := by
  have missing : Keyword.all.find? (·.text = c :: rest) = none := by
    simpa using fun keyword _ => unreserved keyword
  rw [word, missing]
  -- A dollar sign in front would be dropped.
  intro name dollar
  exact noDollar (List.cons.inj dollar).1

/-- A dollar sign in front of a name is dropped. -/
theorem word_dollar (name : Text) : word ('$' :: name) = .name name := by
  simp [word, Keyword.all, Keyword.text]

end Lexer

/-- A lexeme is spelled. -/
theorem Lexeme.spells {text : Text} {token : Token} (lexeme : Lexeme text token) :
    Spells text token := by
  cases lexeme with
  | keyword keyword =>
    -- Keywords are made of letters only.
    have all : keyword.text.all (fun c => startsName c || continuesName c) = true := by
      cases keyword <;> rfl
    rw [← word_keyword]
    exact .word (by cases keyword <;> exact List.cons_ne_nil _ _) (by simpa using all)
  | name starts noDollar continues unreserved =>
    rw [← word_name noDollar unreserved]
    exact .word (List.cons_ne_nil _ _)
      (List.forall_mem_cons.mpr ⟨.inl starts, fun d listed => .inr (continues d listed)⟩)
  | @dollar rest continues =>
    rw [← word_dollar rest]
    exact .word (List.cons_ne_nil _ _)
      (List.forall_mem_cons.mpr ⟨.inl rfl, fun d listed => .inr (continues d listed)⟩)
  | number numeral => exact .number numeral.digits.1 numeral.digits.2
  | string isQuote inside => exact .string isQuote inside.unquoted
  | symbol sign => exact .symbol sign

namespace Lexer

/-- A word is a lexeme, of a keyword or of a name. -/
theorem lexeme_word {c : Char} {rest : Text} (starts : startsName c = true)
    (continues : ∀ d ∈ rest, continuesName d = true) : Lexeme (c :: rest) (word (c :: rest)) := by
  by_cases reserved : ∃ keyword : Keyword, keyword.text = c :: rest
  · obtain ⟨keyword, written⟩ := reserved
    rw [← written, word_keyword]
    exact .keyword keyword
  · have unreserved := not_exists.mp reserved
    by_cases dollar : c = '$'
    · -- The dollar sign begins the word, and the name is what follows it.
      subst dollar
      rw [word_dollar]
      exact .dollar continues
    · rw [word_name dollar unreserved]
      exact .name starts dollar continues unreserved

/-- A closed string is made of its body and the closing quote. -/
theorem eq_of_closeString? {quote : Char} {text body after : Text}
    (found : closeString? quote text = some (body, after)) :
    ∃ inside, StringBody quote inside ∧ body = inside ++ [quote] ∧ text = body ++ after := by
  -- The induction follows the search for the closing quote.
  induction text using closeString?.induct quote generalizing body after with
  | case1 => simp [closeString?] at found
  | case2 rest => simp [closeString?] at found
  | case3 c rest noNewline ih =>
    simp only [closeString?, noNewline, if_false, Option.map_eq_some_iff] at found
    obtain ⟨⟨inner, others⟩, closed, same⟩ := found
    obtain ⟨rfl, rfl⟩ := Prod.mk.inj same
    obtain ⟨inside, unquoted, rfl, rfl⟩ := ih closed
    exact ⟨'\\' :: c :: inside, .escaped noNewline unquoted, rfl, rfl⟩
  | case4 rest noEscape =>
    rw [closeString?, if_pos rfl] at found
    · obtain ⟨rfl, rfl⟩ := Prod.mk.inj (Option.some.inj found)
      exact ⟨[], .nil, rfl, rfl⟩
    · exact noEscape
  | case5 rest noEscape notQuote =>
    rw [closeString?, if_neg notQuote, if_pos rfl] at found
    · simp at found
    · exact noEscape
  | case6 c rest noEscape notQuote notBackslash ih =>
    rw [closeString?, if_neg notQuote, if_neg notBackslash, Option.map_eq_some_iff] at found
    · obtain ⟨⟨inner, others⟩, closed, same⟩ := found
      obtain ⟨rfl, rfl⟩ := Prod.mk.inj same
      obtain ⟨inside, unquoted, rfl, rfl⟩ := ih closed
      exact ⟨c :: inside, .plain notQuote notBackslash unquoted, rfl, rfl⟩
    · exact noEscape

/-- The digits of a number and what follows them make up the text. -/
theorem number_append (text : Text) : (number text).1 ++ (number text).2 = text := by
  -- A point belongs to the number only if a digit stands behind it.
  fun_cases number text with
  | case1 whole d rest isPoint isDigit =>
    have split := List.takeWhile_append_dropWhile (p := Char.isDigit) (l := text)
    rw [isPoint] at split
    simpa [whole] using split
  | case2 whole d rest isPoint notDigit =>
    have split := List.takeWhile_append_dropWhile (p := Char.isDigit) (l := text)
    rwa [isPoint] at split
  | case3 whole rest =>
    exact List.takeWhile_append_dropWhile

/-- A number that begins with a digit is a numeral. -/
theorem numeral_number {c : Char} (isDigit : c.isDigit = true) (rest : Text) :
    Numeral (number (c :: rest)).1 := by
  -- Both parts of a number are made of digits, and the first digit belongs to it in every case.
  have digits (t : Text) : ∀ c ∈ t.takeWhile Char.isDigit, c.isDigit = true :=
    List.all_eq_true.mp List.all_takeWhile
  have filled {d : Char} (isDigit : d.isDigit = true) (t : Text) :
      (d :: t).takeWhile Char.isDigit ≠ [] := by simp [isDigit]
  fun_cases number (c :: rest) with
  | case1 whole d rest isPoint point =>
    exact .pointed (filled isDigit _) (digits _) (filled point _) (digits _)
  | case2 => exact .whole (filled isDigit _) (digits _)
  | case3 => exact .whole (filled isDigit _) (digits _)

/-- A symbol found at the front of a text is written there. -/
theorem eq_of_symbol? {text after : Text} {sign : Symbol}
    (found : symbol? text = some (sign, after)) : text = sign.text ++ after := by
  -- A symbol is found by stripping it off the text.
  obtain ⟨tried, -, hit⟩ := List.exists_of_findSome?_eq_some found
  obtain ⟨rest, stripped, same⟩ := Option.map_eq_some_iff.mp hit
  obtain ⟨rfl, rfl⟩ := Prod.mk.inj same
  exact Text.eq_append_of_strip? stripped

/-- The token at the front of a text is written there. -/
theorem lexeme_of_token? {text after : Text} {token : Token}
    (found : token? text = some (token, after)) :
    ∃ lexeme, Lexeme lexeme token ∧ text = lexeme ++ after := by
  -- One case for each kind of token, told by its first character.
  fun_cases token? text with
  | case1 => simp [token?] at found
  | case2 c rest starts =>
    rw [token?, if_pos starts] at found
    obtain ⟨rfl, rfl⟩ := Prod.mk.inj (Option.some.inj found)
    have continues : ∀ d ∈ rest.takeWhile continuesName, continuesName d = true :=
      List.all_eq_true.mp List.all_takeWhile
    exact ⟨_, lexeme_word starts continues, by simp⟩
  | case3 c rest notName isDigit digits after numeral =>
    rw [token?, if_neg notName, if_pos isDigit] at found
    obtain ⟨rfl, rfl⟩ := Prod.mk.inj (Option.some.inj found)
    exact ⟨_, .number (numeral_number isDigit rest), (number_append _).symm⟩
  | case4 c rest notName notDigit isQuote =>
    rw [token?, if_neg notName, if_neg notDigit, if_pos isQuote, Option.map_eq_some_iff] at found
    obtain ⟨⟨body, others⟩, closed, same⟩ := found
    obtain ⟨rfl, rfl⟩ := Prod.mk.inj same
    obtain ⟨inside, unquoted, rfl, rfl⟩ := eq_of_closeString? closed
    have quote : IsQuote c := by simpa [IsQuote] using isQuote
    exact ⟨_, .string quote unquoted, by simp⟩
  | case5 c rest notName notDigit notQuote =>
    rw [token?, if_neg notName, if_neg notDigit, if_neg notQuote, Option.map_eq_some_iff] at found
    obtain ⟨⟨sign, others⟩, hit, same⟩ := found
    obtain ⟨rfl, rfl⟩ := Prod.mk.inj same
    exact ⟨sign.text, .symbol sign, eq_of_symbol? hit⟩

/-- The token at the front of a text is spelled there. -/
theorem spells_of_token? {text after : Text} {token : Token}
    (found : token? text = some (token, after)) :
    ∃ lexeme, Spells lexeme token ∧ text = lexeme ++ after := by
  obtain ⟨lexeme, written, same⟩ := lexeme_of_token? found
  exact ⟨lexeme, written.spells, same⟩

/-- Characters that belong to a token before them are passed over. -/
theorem tokensFrom_skip (offset : Nat) (front after : Text) :
    tokensFrom offset front.length (front ++ after) =
      tokensFrom (offset + Text.bytes front) 0 after := by
  -- Each character that is passed over moves the offset on.
  induction front generalizing offset with
  | nil => simp
  | cons c front ih => simp [tokensFrom, ih, Nat.add_assoc]

/-- A token at the front of a text is followed by the tokens of what follows its lexeme. -/
theorem tokensFrom_token {c : Char} {rest after : Text} {token : Token}
    (noGap : isGap c = false) (found : token? (c :: rest) = some (token, after)) (offset : Nat) :
    ∃ lexeme, c :: rest = lexeme ++ after ∧ tokensFrom offset 0 (c :: rest) =
      (tokensFrom (offset + Text.bytes lexeme) 0 after).map fun tokens =>
        ⟨token, offset, offset + Text.bytes lexeme⟩ :: tokens := by
  -- The other characters of the token are passed over.
  obtain ⟨lexeme, spells, same⟩ := spells_of_token? found
  cases lexeme with
  | nil => exact absurd rfl spells.ne_nil
  | cons d lexeme =>
    obtain ⟨rfl, rfl⟩ := List.cons.inj same
    have length : (lexeme ++ after).length - after.length = lexeme.length := by simp
    have taken : (c :: (lexeme ++ after)).take (lexeme.length + 1) = c :: lexeme := by simp
    refine ⟨c :: lexeme, rfl, ?_⟩
    rw [tokensFrom, if_neg (by simp [noGap]), found]
    simp only [List.append_eq, length, tokensFrom_skip, taken, Text.bytes_cons, Nat.add_assoc]
    cases tokensFrom (offset + (c.utf8Size + Text.bytes lexeme)) 0 after <;> rfl

end Lexer

/-- A text that the tokenizer cuts into tokens is written with them. -/
theorem Lexed.spelled {text : Text} {tokens : List Token} (lexed : Lexed text tokens) :
    Spelled text tokens := by
  -- Every token is written at the front of what it was cut from.
  induction lexed with
  | nil => exact .nil
  | gap isGap _ ih => exact .gap isGap ih
  | token _ found _ ih =>
    obtain ⟨lexeme, spells, same⟩ := spells_of_token? found
    exact same ▸ .token spells ih

/-- The tokenizer gives the tokens of a text it can cut, wherever the text stands. -/
theorem Lexed.tokensFrom {text : Text} {tokens : List Token} (lexed : Lexed text tokens)
    (offset : Nat) :
    ∃ spans, Lexer.tokensFrom offset 0 text = .ok spans ∧ spans.map Spanned.token = tokens := by
  -- The offsets are different in every part, but the tokens are not.
  induction lexed generalizing offset with
  | nil => exact ⟨[], rfl, rfl⟩
  | @gap c _ _ isGap _ ih =>
    obtain ⟨spans, cut, same⟩ := ih (offset + c.utf8Size)
    exact ⟨spans, by rw [Lexer.tokensFrom, if_pos isGap, cut], same⟩
  | token noGap found _ ih =>
    obtain ⟨lexeme, -, cut⟩ := tokensFrom_token noGap found offset
    obtain ⟨spans, others, same⟩ := ih (offset + Text.bytes lexeme)
    refine ⟨⟨_, offset, offset + Text.bytes lexeme⟩ :: spans, ?_, by rw [List.map_cons, same]⟩
    rw [cut, others]
    rfl

/-- What the tokenizer gives are the tokens a text is cut into. -/
theorem lexed_of_tokensFrom {text : Text} {offset : Nat} {spans : List Spanned}
    (cut : Lexer.tokensFrom offset 0 text = .ok spans) :
    Lexed text (spans.map Spanned.token) := by
  -- What follows a token is shorter than the text that begins with the token.
  induction length : text.length using Nat.strongRecOn generalizing text offset spans with
  | ind n ih =>
    cases text with
    | nil =>
      obtain rfl := Except.ok.inj cut
      exact .nil
    | cons c rest =>
      cases isGap : isGap c with
      | true =>
        rw [Lexer.tokensFrom, if_pos isGap] at cut
        exact .gap isGap (ih rest.length (by simp [← length]) cut rfl)
      | false =>
        cases found : token? (c :: rest) with
        | none => simp [Lexer.tokensFrom, isGap, found] at cut
        | some hit =>
          obtain ⟨token, after⟩ := hit
          obtain ⟨lexeme, -, same⟩ := tokensFrom_token isGap found offset
          rw [same] at cut
          cases others : Lexer.tokensFrom (offset + Text.bytes lexeme) 0 after with
          | error position => simp [others, Except.map] at cut
          | ok tokens =>
            obtain ⟨front, spells, written⟩ := spells_of_token? found
            have filled := List.length_pos_iff.mpr spells.ne_nil
            have shorter : after.length < n := by
              rw [← length, written, List.length_append]
              omega
            rw [others] at cut
            obtain rfl := Except.ok.inj cut
            exact .token isGap found (ih after.length shorter others rfl)

/-- The tokens of a source are those it is cut into. -/
theorem lexed_iff_tokenize {text : Text} {tokens : List Token} :
    Lexed text tokens ↔
      ∃ spans, Lexer.tokenize text = .ok spans ∧ spans.map Spanned.token = tokens := by
  constructor
  · exact fun lexed => lexed.tokensFrom 0
  · rintro ⟨spans, cut, rfl⟩
    exact lexed_of_tokensFrom cut

end Templates
