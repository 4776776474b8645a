import Templates.Proofs.Expr.Lexed
import Templates.Text.Blank

/-! Blanks and closing parentheses end every token, so texts can be cut and put together at them. -/

namespace Templates

open Lexer

/-- A beginning without a character strips off in front of the character. -/
theorem Text.strip?_concat {c : Char} {start : Text} (absent : c ∉ start) (text : Text) :
    Text.strip? start (text ++ [c]) = (Text.strip? start text).map (· ++ [c]) := by
  -- The character is not in the beginning, so that it is never stripped itself.
  induction start generalizing text with
  | nil => rfl
  | cons p start ih =>
    have notLater : c ∉ start := fun later => absent (List.mem_cons_of_mem p later)
    cases text with
    | nil =>
      have notHere : p ≠ c := fun same => absent (same ▸ List.mem_cons_self)
      simp [Text.strip?, notHere]
    | cons d text => simp only [List.cons_append, Text.strip?, ih notLater]; split <;> rfl

namespace Lexer

/-- A character that is encoded in one byte and leaves a mark. -/
def Printing (c : Char) : Prop :=
  0x20 < c.toNat ∧ c.toNat < 0x7f

instance (c : Char) : Decidable (Printing c) :=
  inferInstanceAs (Decidable (_ ∧ _))

/-- A character that leaves a mark is encoded in one byte. -/
theorem Printing.utf8Size {c : Char} (printing : Printing c) : c.utf8Size = 1 := by
  rw [Char.utf8Size_eq_one_iff, UInt32.le_iff_toNat_le]
  have below : c.val.toNat < 0x7f := printing.2
  have bound : (127 : UInt32).toNat = 127 := rfl
  omega

/-- Digits leave a mark. -/
theorem printing_of_isDigit {c : Char} (isDigit : c.isDigit = true) : Printing c := by
  -- Digits are in the range from 48 to 57.
  simp only [Char.isDigit, Bool.and_eq_true, decide_eq_true_eq, ge_iff_le,
    UInt32.le_iff_toNat_le] at isDigit
  have low : 48 ≤ c.toNat := isDigit.1
  have high : c.toNat ≤ 57 := isDigit.2
  exact ⟨by omega, by omega⟩

/-- Letters leave a mark. -/
theorem printing_of_isAlpha {c : Char} (isAlpha : c.isAlpha = true) : Printing c := by
  -- Letters are in the range from 65 to 122.
  rcases (Bool.or_eq_true _ _).mp isAlpha with upper | lower
  · have ⟨low, high⟩ : 65 ≤ c.toNat ∧ c.toNat ≤ 90 := of_decide_eq_true upper
    exact ⟨by omega, by omega⟩
  · have ⟨above, below⟩ := (Bool.and_eq_true (decide (c.val ≥ 97)) (decide (c.val ≤ 122))).mp lower
    have low : 97 ≤ c.toNat := of_decide_eq_true above
    have high : c.toNat ≤ 122 := of_decide_eq_true below
    exact ⟨by omega, by omega⟩

/-- Letters and digits leave a mark. -/
theorem printing_of_isAlphanum {c : Char} (plain : c.isAlphanum = true) : Printing c := by
  rcases (Bool.or_eq_true _ _).mp plain with letter | digit
  · exact printing_of_isAlpha letter
  · exact printing_of_isDigit digit

/-- All characters of names leave a mark. -/
theorem printing_of_name {c : Char} (inName : startsName c = true ∨ continuesName c = true) :
    Printing c := by
  -- A name has letters, digits and two other characters.
  simp only [startsName, continuesName, Bool.or_eq_true, decide_eq_true_eq] at inName
  rcases inName with ((letter | rfl) | rfl) | plain | rfl
  · exact printing_of_isAlpha letter
  · decide
  · decide
  · exact printing_of_isAlphanum plain
  · decide

/-- A character that leaves a mark is no blank. -/
theorem not_isBlank_of_printing {c : Char} (printing : Printing c) : Text.isBlank c = false := by
  -- Every blank is below or above the range of the characters that leave a mark.
  obtain ⟨low, high⟩ := printing
  rw [Bool.eq_false_iff]
  intro blank
  simp only [Text.isBlank, Bool.or_eq_true, Bool.and_eq_true, decide_eq_true_eq] at blank
  omega

/-- Quotes leave a mark. -/
theorem printing_of_isQuote {c : Char} (isQuote : IsQuote c) : Printing c := by
  rcases isQuote with rfl | rfl <;> decide

/-- All characters of symbols leave a mark. -/
theorem printing_of_symbol (sign : Symbol) : ∀ c ∈ sign.text, Printing c := by
  -- There are finitely many symbols to look at.
  have all : sign.text.all (fun c => decide (Printing c)) = true := by cases sign <;> rfl
  intro c member
  exact of_decide_eq_true (List.all_eq_true.mp all c member)

end Lexer

/-- The first character of a token leaves a mark. -/
theorem Spells.printing_head {lexeme : Text} {token : Token} (spells : Spells lexeme token) :
    ∀ c ∈ lexeme.head?, Printing c := by
  intro c first
  have member := List.mem_of_head? first
  -- All characters of a token leave a mark, except for those inside of strings.
  cases spells with
  | word _ inName => exact printing_of_name (inName c member)
  | number _ digits =>
    rcases digits c member with digit | rfl
    · exact printing_of_isDigit digit
    · decide
  | string isQuote _ =>
    obtain rfl := Option.some.inj first
    exact printing_of_isQuote isQuote
  | symbol sign => exact printing_of_symbol sign c member

namespace Lexer

/-- A character that no token goes on with. -/
structure Delimiter (c : Char) : Prop where
  endsName : continuesName c = false
  endsNumber : c.isDigit = false
  endsString : ¬ IsQuote c
  noEscape : c ≠ '\\'
  endsSymbol : ∀ sign : Symbol, c ∉ sign.text.tail

/-- A blank ends every token. -/
theorem Delimiter.blank {c : Char} (isBlank : Text.isBlank c = true) : Delimiter c := by
  -- Every character that goes on with a token leaves a mark.
  have unmarked : ¬ Printing c := by
    intro printing
    simp [not_isBlank_of_printing printing] at isBlank
  exact {
    endsName := Bool.eq_false_iff.mpr fun inName => unmarked (printing_of_name (.inr inName))
    endsNumber := Bool.eq_false_iff.mpr fun isDigit => unmarked (printing_of_isDigit isDigit)
    endsString := fun isQuote => unmarked (printing_of_isQuote isQuote)
    noEscape := by
      rintro rfl
      exact unmarked (by decide)
    endsSymbol := fun sign member =>
      unmarked (printing_of_symbol sign c (List.mem_of_mem_tail member)) }

/-- A closing parenthesis ends every token. -/
theorem Delimiter.rightParen : Delimiter ')' where
  endsName := rfl
  endsNumber := rfl
  endsString := by decide
  noEscape := by decide
  endsSymbol := by
    intro sign
    cases sign <;> decide

/-- The beginning of a text on which a test holds ends at a character that fails it. -/
theorem takeWhile_concat {test : Char → Bool} {c : Char} (fails : test c = false) (text : Text) :
    (text ++ [c]).takeWhile test = text.takeWhile test ∧
      (text ++ [c]).dropWhile test = text.dropWhile test ++ [c] := by
  -- The test is what ends the beginning, in the text or behind it.
  induction text with
  | nil => simp [fails]
  | cons d text ih =>
    cases holds : test d with
    | true => simp [holds, ih]
    | false => simp [holds]

/-- A number ends at a delimiter. -/
theorem number_concat {c : Char} (delimiter : Delimiter c) (text : Text) :
    number (text ++ [c]) = ((number text).1, (number text).2 ++ [c]) := by
  obtain ⟨taken, dropped⟩ := takeWhile_concat delimiter.endsNumber text
  -- The fraction of a number ends at the delimiter like the digits in front of its point.
  fun_cases number text with
  | case1 whole d rest isPoint isDigit =>
    obtain ⟨takenPoint, droppedPoint⟩ := takeWhile_concat delimiter.endsNumber (d :: rest)
    rw [number, taken, dropped, isPoint]
    simp only [List.cons_append, isDigit, if_true, ← takenPoint, ← droppedPoint, whole]
  | case2 whole d rest isPoint notDigit =>
    rw [number, taken, dropped, isPoint]
    simp only [List.cons_append, notDigit, whole]
    rfl
  | case3 whole noPoint =>
    rw [number, taken, dropped]
    split
    · rename_i d rest isPoint
      -- The point is the last character of the text, so the delimiter stands behind it.
      cases tail : text.dropWhile Char.isDigit with
      | nil => simp [tail] at isPoint
      | cons p others =>
        cases others with
        | nil =>
          simp only [tail, List.cons_append, List.nil_append, List.cons.injEq] at isPoint
          obtain ⟨rfl, rfl, rfl⟩ := isPoint
          simp [delimiter.endsNumber, whole]
        | cons e others =>
          simp only [tail, List.cons_append, List.cons.injEq] at isPoint
          exact absurd (isPoint.1 ▸ tail) (noPoint e others)
    · rfl

/-- A symbol ends at a delimiter. -/
theorem symbol?_concat {c : Char} (delimiter : Delimiter c) {text : Text} (filled : text ≠ []) :
    symbol? (text ++ [c]) = (symbol? text).map fun (sign, after) => (sign, after ++ [c]) := by
  -- A symbol is found by stripping it off, and the delimiter is in the tail of none.
  have stripped (sign : Symbol) :
      Text.strip? sign.text (text ++ [c]) = (Text.strip? sign.text text).map (· ++ [c]) := by
    cases signText : sign.text with
    | nil => exact absurd signText sign.text_ne_nil
    | cons p start =>
      have absent : c ∉ start := by
        have behind := delimiter.endsSymbol sign
        rwa [signText] at behind
      cases text with
      | nil => exact absurd rfl filled
      | cons d text =>
        by_cases same : p = d
        · simp [Text.strip?, same, Text.strip?_concat absent]
        · simp [Text.strip?, same]
  simp only [symbol?, List.map_findSome?, stripped]
  congr 1
  funext sign
  simp [Function.comp_def]

/-- A character that takes no other with it closes the string or stands in it. -/
theorem closeString?_cons {d : Char} (noEscape : d ≠ '\\') (quote : Char) (rest : Text) :
    closeString? quote (d :: rest) =
      if d = quote then some ([d], rest)
      else (closeString? quote rest).map fun (body, after) => (d :: body, after) := by
  rw [closeString?, if_neg noEscape]
  intro _ _ same
  exact absurd same noEscape

/-- A delimiter behind a string does not change where the string ends. -/
theorem closeString?_concat {c quote : Char} (delimiter : Delimiter c) (isQuote : IsQuote quote)
    (text : Text) :
    closeString? quote (text ++ [c]) =
      (closeString? quote text).map fun (body, after) => (body, after ++ [c]) := by
  have notQuote : c ≠ quote := by
    rintro rfl
    exact delimiter.endsString isQuote
  -- The induction follows the search, which takes two characters at a backslash.
  induction text using closeString?.induct quote with
  | case1 => simp [closeString?, notQuote, delimiter.noEscape]
  | case2 rest => simp [closeString?]
  | case3 d rest noNewline ih => 
    simp only [List.cons_append, closeString?, noNewline, if_false, ih, Option.map_map]
    rfl
  | case4 rest noEscape =>
    have notBackslash : quote ≠ '\\' := by rcases isQuote with rfl | rfl <;> decide
    simp [closeString?_cons notBackslash]
  | case5 rest noEscape notQuote =>
    cases rest with
    | nil =>
      simp [closeString?, notQuote]
    | cons d rest => exact (noEscape d rest rfl rfl).elim
  | case6 d rest noEscape notQuote notBackslash ih =>
    simp only [List.cons_append, closeString?_cons notBackslash, notQuote, if_false, ih,
      Option.map_map]
    rfl

/-- The token at the front of a text is the same with a delimiter behind the text. -/
theorem token?_concat {c : Char} (delimiter : Delimiter c) {text : Text} (filled : text ≠ []) :
    token? (text ++ [c]) = (token? text).map fun (token, after) => (token, after ++ [c]) := by
  -- One case for each kind of token, each of which ends at the delimiter.
  fun_cases token? text with
  | case1 => exact absurd rfl filled
  | case2 d rest starts =>
    obtain ⟨taken, dropped⟩ := takeWhile_concat delimiter.endsName rest
    rw [List.cons_append, token?, if_pos starts, taken, dropped]
    rfl
  | case3 d rest notName isDigit digits after numeral =>
    have longer := number_concat delimiter (d :: rest)
    rw [numeral, List.cons_append] at longer
    rw [List.cons_append, token?, if_neg notName, if_pos isDigit, longer]
    rfl
  | case4 d rest notName notDigit isQuote =>
    have quote : IsQuote d := by simpa [IsQuote] using isQuote
    rw [List.cons_append, token?, if_neg notName, if_neg notDigit, if_pos isQuote,
      closeString?_concat delimiter quote, Option.map_map, Option.map_map]
    rfl
  | case5 d rest notName notDigit notQuote =>
    rw [List.cons_append, token?, if_neg notName, if_neg notDigit, if_neg notQuote,
      ← List.cons_append, symbol?_concat delimiter filled, Option.map_map, Option.map_map]
    rfl

/-- A blank starts no token. -/
theorem token?_blank {c : Char} (isBlank : Text.isBlank c = true) (rest : Text) :
    token? (c :: rest) = none := by
  -- A token would begin with the blank, but its first character leaves a mark.
  cases found : token? (c :: rest) with
  | none => rfl
  | some hit =>
    obtain ⟨lexeme, spells, same⟩ := spells_of_token? found
    cases lexeme with
    | nil => exact absurd rfl spells.ne_nil
    | cons d lexeme =>
      obtain ⟨rfl, -⟩ := List.cons.inj same
      have printing : Printing c := spells.printing_head c rfl
      simp [not_isBlank_of_printing printing] at isBlank

end Lexer

/-- A text with a delimiter behind it is cut into the tokens of the text and of the delimiter. -/
theorem Lexed.of_concat {c : Char} (delimiter : Delimiter c) {text : Text} {tokens : List Token}
    (lexed : Lexed (text ++ [c]) tokens) :
    ∃ front back, Lexed text front ∧ Lexed [c] back ∧ tokens = front ++ back := by
  -- The induction is on the tokens of the longer text; the delimiter is reached when nothing is
  -- left of the shorter one.
  generalize whole : text ++ [c] = longer at lexed
  induction lexed generalizing text with
  | nil => simp at whole
  | @gap d rest tokens isGap behind ih =>
    cases text with
    | nil =>
      obtain ⟨rfl, rfl⟩ := List.cons.inj whole
      exact ⟨[], tokens, .nil, .gap isGap behind, rfl⟩
    | cons e text =>
      obtain ⟨rfl, same⟩ := List.cons.inj whole
      obtain ⟨front, back, first, last, rfl⟩ := ih same
      exact ⟨front, back, .gap isGap first, last, rfl⟩
  | @token d rest after token tokens noGap found behind ih =>
    cases text with
    | nil =>
      obtain ⟨rfl, rfl⟩ := List.cons.inj whole
      exact ⟨[], token :: tokens, .nil, .token noGap found behind, rfl⟩
    | cons e text =>
      rw [← whole, token?_concat delimiter (List.cons_ne_nil e text),
        Option.map_eq_some_iff] at found
      obtain ⟨⟨token', before⟩, own, same⟩ := found
      obtain ⟨rfl, cut⟩ := Prod.mk.inj same
      obtain ⟨front, back, first, last, rfl⟩ := ih cut
      obtain ⟨rfl, -⟩ := List.cons.inj whole
      exact ⟨token' :: front, back, .token noGap own first, last, rfl⟩

/-- The tokens of a delimiter come behind those of the text in front of it. -/
theorem Lexed.concat {c : Char} (delimiter : Delimiter c) {text : Text} {front back : List Token}
    (first : Lexed text front) (last : Lexed [c] back) : Lexed (text ++ [c]) (front ++ back) := by
  -- The cuts of the first text stay as they are until its end.
  induction first with
  | nil => exact last
  | gap isGap _ ih => exact .gap isGap ih
  | @token d rest after token tokens noGap found _ ih =>
    have longer := token?_concat delimiter (List.cons_ne_nil d rest)
    rw [found] at longer
    exact .token noGap longer ih

/-- A blank by itself gives no token. -/
theorem Lexed.of_blank {c : Char} (isBlank : Text.isBlank c = true) {rest : Text}
    {tokens : List Token} (lexed : Lexed (c :: rest) tokens) :
    isGap c = true ∧ Lexed rest tokens := by
  cases lexed with
  | gap isGap behind => exact ⟨isGap, behind⟩
  | token _ found _ => simp [token?_blank isBlank] at found

/-- Blanks in front of a text may be left out. -/
theorem Lexed.trimStart {text : Text} {tokens : List Token} (lexed : Lexed text tokens) :
    Lexed (Text.trimStart text) tokens := by
  -- A blank in front is a gap, which leaves no token behind.
  induction text with
  | nil => exact lexed
  | cons c text ih =>
    cases isBlank : Text.isBlank c with
    | true =>
      rw [Text.trimStart, List.dropWhile_cons_of_pos isBlank]
      exact ih (lexed.of_blank isBlank).2
    | false => rwa [Text.trimStart, List.dropWhile_cons_of_neg (by simp [isBlank])]

/-- Blanks behind a text may be left out. -/
theorem Lexed.trimEnd {text : Text} {tokens : List Token} (lexed : Lexed text tokens) :
    Lexed (Text.trimEnd text) tokens := by
  -- Blanks are dropped from the end, so the induction is on the text from its end.
  have fromEnd (reversed : Text) (lexed : Lexed reversed.reverse tokens) :
      Lexed (reversed.dropWhile Text.isBlank).reverse tokens := by
    induction reversed with
    | nil => exact lexed
    | cons c reversed ih =>
      cases isBlank : Text.isBlank c with
      | true =>
        rw [List.reverse_cons] at lexed
        obtain ⟨front, back, first, last, rfl⟩ := lexed.of_concat (.blank isBlank)
        obtain ⟨-, nothing⟩ := last.of_blank isBlank
        cases nothing
        rw [List.append_nil] at lexed ih ⊢
        rw [List.dropWhile_cons_of_pos isBlank]
        exact ih first
      | false => rwa [List.dropWhile_cons_of_neg (by simp [isBlank])]
  exact fromEnd text.reverse (by rwa [List.reverse_reverse])

/-- Blanks around a text may be left out. -/
theorem Lexed.trim {text : Text} {tokens : List Token} (lexed : Lexed text tokens) :
    Lexed (Text.trim text) tokens :=
  lexed.trimStart.trimEnd

end Templates
