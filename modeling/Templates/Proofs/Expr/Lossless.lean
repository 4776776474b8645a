import Mathlib.Data.List.Forall2
import Templates.Proofs.Expr.Delimited
import Templates.Proofs.Text.Offset

/-!
The tokenizer takes the longest lexeme there is and loses nothing of a source.

What stands at the front of a text is told by the lexemes that it begins with, and not by how they
are searched for. A lexeme that is the longest one stays so when the text behind it is cut off, or
when a gap comes in between. Main statement: the tokens of a source are its longest lexemes, one
after the other with nothing but gaps around them, they are read again from these lexemes alone and
from these lexemes with spaces in between, and an error stands where no lexeme begins.
-/

namespace Templates

open Lexer

/-- A lexeme in front of a text is the longest one that stands there. -/
structure Longest (lexeme after : Text) (token : Token) : Prop where
  written : Lexeme lexeme token
  most : ∀ other meant, Lexeme other meant → other <+: lexeme ++ after →
    other.length ≤ lexeme.length

/-! ### One lexeme -/

/-- Quotes begin neither a name nor a number. -/
theorem Lexer.plain_of_isQuote {c : Char} (isQuote : IsQuote c) :
    startsName c = false ∧ c.isDigit = false := by
  rcases isQuote with rfl | rfl <;> exact ⟨rfl, rfl⟩

/-- Symbols begin with characters that begin nothing else. -/
theorem Symbol.plain_of_text {c : Char} {rest : Text} {sign : Symbol}
    (written : sign.text = c :: rest) :
    startsName c = false ∧ c.isDigit = false ∧ ¬ IsQuote c := by
  -- There are finitely many symbols to look at.
  have all : sign.text.head?.all
      (fun c => !startsName c && !c.isDigit && !decide (IsQuote c)) = true := by
    cases sign <;> rfl
  simpa [written, and_assoc] using all

/-- Symbols are told apart by how they are written. -/
theorem Symbol.text_injective {sign other : Symbol} (same : sign.text = other.text) :
    sign = other := by
  have find (sign : Symbol) :
      Symbol.longestFirst.find? (·.text = sign.text) = some sign := by
    cases sign <;> rfl
  have found := find sign
  rw [same, find other] at found
  exact (Option.some.inj found).symm

/-- A numeral begins with a digit. -/
theorem Numeral.head {c : Char} {rest : Text} (numeral : Numeral (c :: rest)) :
    c.isDigit = true := by
  generalize whole : c :: rest = text at numeral
  cases numeral with
  | whole _ all => exact all c (whole ▸ List.mem_cons_self)
  | @pointed digits _ filled all =>
    cases digits with
    | nil => exact absurd rfl filled
    | cons d digits =>
      obtain ⟨rfl, -⟩ := List.cons.inj whole
      exact all c List.mem_cons_self

/-- The first character of a lexeme tells whether it is a word, a number, a string or a symbol. -/
theorem Lexeme.kinds {c : Char} {rest : Text} {token : Token} (lexeme : Lexeme (c :: rest) token) :
    (startsName c = true ∧ (∀ d ∈ rest, continuesName d = true) ∧ token = word (c :: rest)) ∨
      (startsName c = false ∧ c.isDigit = true ∧ Numeral (c :: rest) ∧
        token = .number (c :: rest)) ∨
      (startsName c = false ∧ c.isDigit = false ∧ IsQuote c ∧
        (∃ body, StringBody c body ∧ rest = body ++ [c]) ∧ token = .string (c :: rest)) ∨
      (startsName c = false ∧ c.isDigit = false ∧ ¬ IsQuote c ∧
        ∃ sign : Symbol, c :: rest = sign.text ∧ token = .symbol sign) := by
  generalize whole : c :: rest = text at lexeme
  cases lexeme with
  | keyword keyword =>
    have plain : startsName c = true ∧ ∀ d ∈ rest, continuesName d = true := by
      have all : keyword.text.head?.all startsName = true ∧
          keyword.text.tail.all continuesName = true := by cases keyword <;> decide
      simpa [← whole] using all
    exact .inl ⟨plain.1, plain.2, (word_keyword keyword).symm⟩
  | name starts noDollar continues unreserved =>
    obtain ⟨rfl, rfl⟩ := List.cons.inj whole
    exact .inl ⟨starts, continues, (word_name noDollar unreserved).symm⟩
  | dollar continues =>
    obtain ⟨rfl, rfl⟩ := List.cons.inj whole
    exact .inl ⟨rfl, continues, (word_dollar rest).symm⟩
  | number numeral =>
    subst whole
    have isDigit := numeral.head
    exact .inr (.inl ⟨startsName_of_isDigit isDigit, isDigit, numeral, rfl⟩)
  | string isQuote inside =>
    obtain ⟨rfl, rfl⟩ := List.cons.inj whole
    obtain ⟨noName, noDigit⟩ := plain_of_isQuote isQuote
    exact .inr (.inr (.inl ⟨noName, noDigit, isQuote, ⟨_, inside, rfl⟩, rfl⟩))
  | symbol sign =>
    obtain ⟨noName, noDigit, noQuote⟩ := Symbol.plain_of_text whole.symm
    exact .inr (.inr (.inr ⟨noName, noDigit, noQuote, sign, rfl, rfl⟩))

/-- A lexeme is that of one token only. -/
theorem Lexeme.unique {text : Text} {token other : Token} (lexeme : Lexeme text token)
    (again : Lexeme text other) : token = other := by
  cases text with
  | nil => exact absurd rfl lexeme.spells.ne_nil
  | cons c rest =>
    -- Both are of the kind that the first character tells.
    rcases lexeme.kinds with ⟨starts, -, rfl⟩ | ⟨noName, isDigit, -, rfl⟩ |
      ⟨noName, noDigit, isQuote, -, rfl⟩ | ⟨noName, noDigit, noQuote, sign, written, rfl⟩
    · rcases again.kinds with ⟨-, -, rfl⟩ | ⟨noName, -⟩ | ⟨noName, -⟩ | ⟨noName, -⟩
      · rfl
      all_goals simp [starts] at noName
    · rcases again.kinds with ⟨starts, -⟩ | ⟨-, -, -, rfl⟩ | ⟨-, noDigit, -⟩ | ⟨-, noDigit, -⟩
      · simp [noName] at starts
      · rfl
      all_goals simp [isDigit] at noDigit
    · rcases again.kinds with ⟨starts, -⟩ | ⟨-, isDigit, -⟩ | ⟨-, -, -, -, rfl⟩ | ⟨-, -, noQuote, -⟩
      · simp [noName] at starts
      · simp [noDigit] at isDigit
      · rfl
      · exact absurd isQuote noQuote
    · rcases again.kinds with ⟨starts, -⟩ | ⟨-, isDigit, -⟩ | ⟨-, -, isQuote, -⟩ |
        ⟨-, -, -, mark, same, rfl⟩
      · simp [noName] at starts
      · simp [noDigit] at isDigit
      · exact absurd isQuote noQuote
      · rw [Symbol.text_injective (written.symm.trans same)]

/-! ### The longest lexeme -/

namespace Lexer

/-- A beginning of a text on which a test holds is no longer than what the test takes. -/
theorem length_le_takeWhile {test : Char → Bool} {front text : Text}
    (all : ∀ c ∈ front, test c = true) (begins : front <+: text) :
    front.length ≤ (text.takeWhile test).length := by
  obtain ⟨back, rfl⟩ := begins
  rw [List.takeWhile_append_of_pos all, List.length_append]
  exact Nat.le_add_right _ _

/-- No numeral at the front of a text is longer than the number that is read there. -/
theorem length_le_number {numeral text : Text} (isNumeral : Numeral numeral)
    (begins : numeral <+: text) : numeral.length ≤ (number text).1.length := by
  cases isNumeral with
  | whole _ all =>
    -- The digits in front of a point belong to the number in any case.
    have short := length_le_takeWhile all begins
    fun_cases number text with
    | case1 whole =>
      rw [List.length_append]
      exact Nat.le_trans short (Nat.le_add_right _ _)
    | case2 => exact short
    | case3 => exact short
  | @pointed digits fraction _ all filled fractionAll =>
    obtain ⟨back, rfl⟩ := begins
    cases fraction with
    | nil => exact absurd rfl filled
    | cons d fraction =>
      have stops : ∀ c, ('.' :: (d :: fraction ++ back)).head? = some c → c.isDigit = false := by
        rintro c ⟨⟩
        rfl
      have split : digits ++ '.' :: d :: fraction ++ back =
          digits ++ '.' :: (d :: fraction ++ back) := List.append_assoc _ _ _
      have isDigit : d.isDigit = true := fractionAll d List.mem_cons_self
      have short := length_le_takeWhile fractionAll (List.prefix_append (d :: fraction) back)
      rw [split, number, Text.takeWhile_append all stops, Text.dropWhile_append all stops]
      simp only [List.cons_append, isDigit, if_true, List.length_append, List.length_cons]
        at short ⊢
      omega

/-- A string is closed by the quote behind its body. -/
theorem closeString?_body {quote : Char} {body : Text} (isQuote : IsQuote quote)
    (inside : StringBody quote body) (after : Text) :
    closeString? quote (body ++ quote :: after) = some (body ++ [quote], after) := by
  have noEscape : quote ≠ '\\' := Marker.ne_backslash_of_isQuote isQuote
  induction inside with
  | nil => simp [closeString?_cons noEscape]
  | escaped noNewline _ ih => simp [closeString?, noNewline, ih]
  | plain notQuote notBackslash _ ih => simp [closeString?_cons notBackslash, notQuote, ih]

/-- A symbol is looked for in front of all symbols that it is a beginning of. -/
theorem pairwise_longestFirst :
    Symbol.longestFirst.Pairwise fun sign other => ¬ sign.text <+: other.text := by
  decide +kernel

/-- No symbol at the front of a text is longer than the one that is found there. -/
theorem length_le_symbol {text after : Text} {sign other : Symbol}
    (found : symbol? text = some (sign, after)) (begins : other.text <+: text) :
    other.text.length ≤ sign.text.length := by
  obtain ⟨earlier, tried, later, order, hit, missed⟩ := List.findSome?_eq_some_iff.mp found
  obtain ⟨rest, stripped, same⟩ := Option.map_eq_some_iff.mp hit
  obtain ⟨rfl, rfl⟩ := Prod.mk.inj same
  have listed : other ∈ earlier ++ tried :: later := by
    rw [← order]
    cases other <;> decide
  rcases List.mem_append.mp listed with before | here
  · -- An earlier symbol would have been found itself.
    obtain ⟨back, rfl⟩ := begins
    have none := missed other before
    rw [Text.strip?_append] at none
    cases none
  · rcases List.mem_cons.mp here with rfl | behind
    · exact Nat.le_refl _
    · -- A later symbol does not begin with the one that is found.
      have apart := pairwise_longestFirst
      rw [order] at apart
      have differ := (List.pairwise_cons.mp (List.pairwise_append.mp apart).2.1).1 other behind
      have first : tried.text <+: text := ⟨rest, (Text.eq_append_of_strip? stripped).symm⟩
      exact (Nat.le_total _ _).resolve_right fun longer =>
        differ (List.prefix_of_prefix_length_le first begins longer)

/-- A symbol is found at the front of a text that begins with one. -/
theorem exists_symbol? {sign : Symbol} {text : Text} (begins : sign.text <+: text) :
    ∃ hit, symbol? text = some hit := by
  obtain ⟨rest, rfl⟩ := begins
  refine Option.ne_none_iff_exists'.mp fun missing => ?_
  have none := List.findSome?_eq_none_iff.mp missing sign (by cases sign <;> decide)
  rw [Text.strip?_append] at none
  cases none

/-- A token is found at the front of a text that begins with a lexeme, and it leaves no more of the
text than the lexeme does. -/
theorem exists_token? {lexeme text : Text} {token : Token} (written : Lexeme lexeme token)
    (begins : lexeme <+: text) :
    ∃ found after, token? text = some (found, after) ∧
      lexeme.length + after.length ≤ text.length := by
  cases lexeme with
  | nil => exact absurd rfl written.spells.ne_nil
  | cons c rest =>
    obtain ⟨back, rfl⟩ := begins
    rw [List.cons_append, token?]
    rcases written.kinds with ⟨starts, continues, -⟩ | ⟨noName, isDigit, numeral, -⟩ |
      ⟨noName, noDigit, isQuote, ⟨body, inside, rfl⟩, -⟩ |
      ⟨noName, noDigit, noQuote, sign, same, -⟩
    · refine ⟨_, _, if_pos starts, ?_⟩
      -- All of the lexeme goes on with the name.
      have taken := length_le_takeWhile continues (List.prefix_append rest back)
      have whole := congrArg List.length
        (List.takeWhile_append_dropWhile (p := continuesName) (l := rest ++ back))
      simp only [List.length_append, List.length_cons] at whole ⊢
      omega
    · rcases read : number (c :: (rest ++ back)) with ⟨digits, after⟩
      rw [noName, if_neg Bool.false_ne_true, if_pos isDigit]
      refine ⟨.number digits, after, rfl, ?_⟩
      have taken := length_le_number numeral (List.prefix_append (c :: rest) back)
      have whole := congrArg List.length (number_append (c :: (rest ++ back)))
      rw [List.cons_append, read] at taken
      rw [read, List.length_append] at whole
      simp only [List.length_append, List.length_cons] at taken whole ⊢
      omega
    · -- The quote that closes the lexeme closes what is read.
      have quote : (c = '"' || c = '\'') = true := by simpa [IsQuote] using isQuote
      have closed := closeString?_body isQuote inside back
      have split : body ++ [c] ++ back = body ++ c :: back := List.append_assoc _ _ _
      rw [noName, noDigit, if_neg Bool.false_ne_true, if_neg Bool.false_ne_true, if_pos quote,
        split, closed]
      refine ⟨_, _, rfl, ?_⟩
      simp only [List.length_append, List.length_cons, List.length_nil]
      omega
    · have quote : ¬ (c = '"' || c = '\'') = true := by simpa [IsQuote] using noQuote
      have begins : sign.text <+: c :: (rest ++ back) := ⟨back, by rw [← same, List.cons_append]⟩
      obtain ⟨⟨mark, after⟩, hit⟩ := exists_symbol? begins
      have taken := length_le_symbol hit begins
      have whole := congrArg List.length (eq_of_symbol? hit)
      rw [noName, noDigit, if_neg Bool.false_ne_true, if_neg Bool.false_ne_true, if_neg quote, hit]
      refine ⟨_, _, rfl, ?_⟩
      rw [same]
      rw [List.length_append] at whole
      omega

/-- What is found at the front of a text is the longest lexeme there. -/
theorem longest_of_token? {text after : Text} {token : Token}
    (found : token? text = some (token, after)) :
    ∃ lexeme, text = lexeme ++ after ∧ Longest lexeme after token := by
  obtain ⟨lexeme, written, rfl⟩ := lexeme_of_token? found
  refine ⟨lexeme, rfl, written, fun other meant second begins => ?_⟩
  obtain ⟨_, left, again, bound⟩ := exists_token? second begins
  obtain ⟨-, rfl⟩ := Prod.mk.inj (Option.some.inj (found.symm.trans again))
  rw [List.length_append] at bound
  omega

/-- The token at the front of a text is that of its longest lexeme. -/
theorem token?_eq_some_iff {text after : Text} {token : Token} :
    token? text = some (token, after) ↔
      ∃ lexeme, text = lexeme ++ after ∧ Longest lexeme after token := by
  constructor
  · exact longest_of_token?
  · rintro ⟨lexeme, rfl, longest⟩
    obtain ⟨found, left, hit, -⟩ := exists_token? longest.written (List.prefix_append lexeme after)
    obtain ⟨other, same, again⟩ := longest_of_token? hit
    -- Two longest lexemes at one place are equally long.
    have short := longest.most other found again.written ⟨left, same.symm⟩
    have long := again.most lexeme token longest.written ⟨after, same⟩
    obtain ⟨rfl, rfl⟩ := List.append_inj same (Nat.le_antisymm long short)
    rw [hit, longest.written.unique again.written]

/-- No token is found where no lexeme begins. -/
theorem token?_eq_none_iff {text : Text} :
    token? text = none ↔ ∀ lexeme token, Lexeme lexeme token → ¬ lexeme <+: text := by
  constructor
  · intro missing lexeme token written begins
    obtain ⟨_, _, hit, -⟩ := exists_token? written begins
    cases missing.symm.trans hit
  · intro absent
    refine Option.eq_none_iff_forall_ne_some.mpr fun (token, after) found => ?_
    obtain ⟨lexeme, same, longest⟩ := longest_of_token? found
    exact absent lexeme token longest.written ⟨after, same.symm⟩

end Lexer

/-- A lexeme that begins with a quote is a string in such quotes. -/
theorem Lexeme.exists_body {c : Char} {rest : Text} {token : Token}
    (lexeme : Lexeme (c :: rest) token) (isQuote : IsQuote c) :
    ∃ body, StringBody c body ∧ rest = body ++ [c] := by
  obtain ⟨noName, noDigit⟩ := plain_of_isQuote isQuote
  rcases lexeme.kinds with ⟨starts, -⟩ | ⟨-, isDigit, -⟩ | ⟨-, -, -, body, -⟩ | ⟨-, -, noQuote, -⟩
  · simp [noName] at starts
  · simp [noDigit] at isDigit
  · exact body
  · exact absurd isQuote noQuote

/-- A gap leaves no mark. -/
theorem Lexer.not_printing_of_isGap {c : Char} (gap : isGap c = true) : ¬ Printing c := by
  simp only [isGap, Bool.or_eq_true, decide_eq_true_eq] at gap
  rcases gap with ((rfl | rfl) | rfl) | rfl <;> decide

/-- No lexeme goes on with a gap behind another one. -/
theorem Lexeme.not_lexeme_gap {lexeme more : Text} {c : Char} {token meant : Token}
    (written : Lexeme lexeme token) (gap : isGap c = true) :
    ¬ Lexeme (lexeme ++ c :: more) meant := by
  intro longer
  have unmarked := not_printing_of_isGap gap
  cases lexeme with
  | nil => exact absurd rfl written.spells.ne_nil
  | cons d rest =>
    have inside : c ∈ d :: (rest ++ c :: more) := by simp
    rw [List.cons_append] at longer
    -- All characters of lexemes leave a mark, except for those inside of strings.
    rcases longer.kinds with ⟨-, continues, -⟩ | ⟨-, -, numeral, -⟩ |
      ⟨-, -, isQuote, ⟨body, closed, same⟩, -⟩ | ⟨-, -, -, sign, same, -⟩
    · exact unmarked (printing_of_name (.inr (continues c (by simp))))
    · rcases numeral.digits.2 c inside with digit | rfl
      · exact unmarked (printing_of_isDigit digit)
      · exact unmarked (by decide)
    · -- The string is closed where the shorter lexeme ends, which is in front of the gap.
      obtain ⟨first, closedFirst, rfl⟩ := written.exists_body isQuote
      have short := closeString?_body isQuote closedFirst (c :: more)
      have long := closeString?_body isQuote closed []
      rw [← same, List.append_assoc, List.singleton_append, short] at long
      cases (Prod.mk.inj (Option.some.inj long)).2
    · exact unmarked (printing_of_symbol sign c (same ▸ inside))

namespace Longest

variable {lexeme front back : Text} {token : Token}

/-- A longest lexeme stays one when the text behind it is cut off. -/
theorem cut (longest : Longest lexeme (front ++ back) token) : Longest lexeme front token := by
  refine ⟨longest.written, fun other meant second begins => longest.most other meant second ?_⟩
  rw [← List.append_assoc]
  exact begins.trans (List.prefix_append _ back)

/-- A lexeme is the longest one when nothing stands behind it. -/
theorem alone (written : Lexeme lexeme token) : Longest lexeme [] token := by
  refine ⟨written, fun other _ _ begins => ?_⟩
  rw [List.append_nil] at begins
  exact begins.length_le

/-- A lexeme is the longest one in front of a gap. -/
theorem of_gap (written : Lexeme lexeme token) {c : Char} (gap : isGap c = true) (rest : Text) :
    Longest lexeme (c :: rest) token := by
  refine ⟨written, fun other meant second begins => ?_⟩
  rcases List.prefix_or_prefix_of_prefix begins (List.prefix_append lexeme (c :: rest)) with
    short | ⟨more, rfl⟩
  · exact short.length_le
  · cases more with
    | nil => simp
    | cons d more =>
      -- A longer lexeme would go on with the gap.
      have behind := (List.prefix_append_right_inj lexeme).mp begins
      obtain rfl := (List.cons_prefix_cons.mp behind).1
      exact absurd second (written.not_lexeme_gap gap)

end Longest

/-! ### All lexemes -/

/-- Tokens with their spans in a text that stands at an offset: the longest lexemes of the text, one
after the other, with gaps around them. -/
inductive Cut : Nat → Text → List Spanned → Prop where
  | nil {offset : Nat} : Cut offset [] []
  | gap {offset : Nat} {c : Char} {rest : Text} {spans : List Spanned} :
    isGap c = true → Cut (offset + c.utf8Size) rest spans → Cut offset (c :: rest) spans
  | token {offset : Nat} {lexeme after : Text} {token : Token} {spans : List Spanned} :
    Longest lexeme after token → Cut (offset + Text.bytes lexeme) after spans →
      Cut offset (lexeme ++ after) (⟨token, offset, offset + Text.bytes lexeme⟩ :: spans)

namespace Lexer

/-- The longest lexeme at the front of a text is cut off, and the tokens of what follows it come
behind its token. -/
theorem tokensFrom_longest {lexeme after : Text} {token : Token}
    (longest : Longest lexeme after token) (offset : Nat) :
    tokensFrom offset 0 (lexeme ++ after) =
      (tokensFrom (offset + Text.bytes lexeme) 0 after).map fun tokens =>
        ⟨token, offset, offset + Text.bytes lexeme⟩ :: tokens := by
  have found := token?_eq_some_iff.mpr ⟨lexeme, rfl, longest⟩
  cases lexeme with
  | nil => exact absurd rfl longest.written.spells.ne_nil
  | cons c rest =>
    have printing : Printing c := longest.written.spells.printing_head c rfl
    have noGap : isGap c = false :=
      Bool.eq_false_iff.mpr fun gap => not_printing_of_isGap gap printing
    obtain ⟨other, same, cut⟩ := tokensFrom_token noGap found offset
    have own : c :: rest = other := (List.append_left_inj after).mp same
    rwa [← own] at cut

/-- A text is cut into tokens, or it begins with a part that is and no token starts behind it. -/
theorem tokensFrom_cases (offset : Nat) (text : Text) :
    (∃ spans, tokensFrom offset 0 text = .ok spans ∧ Cut offset text spans) ∨
      ∃ front c rest spans, text = front ++ c :: rest ∧
        tokensFrom offset 0 text = .error (offset + Text.bytes front) ∧
          Cut offset front spans ∧ isGap c = false ∧ token? (c :: rest) = none := by
  -- What follows a gap or a lexeme is shorter than the text that begins with it.
  induction length : text.length using Nat.strongRecOn generalizing text offset with
  | ind n ih =>
    subst length
    cases text with
    | nil => exact .inl ⟨[], rfl, .nil⟩
    | cons c rest =>
      cases gap : isGap c with
      | true =>
        -- A gap adds nothing but its width to where an error stands.
        rw [tokensFrom, if_pos gap]
        rcases ih rest.length (Nat.lt_succ_self _) (offset + c.utf8Size) rest rfl with
          ⟨spans, done, cut⟩ | ⟨front, d, others, spans, rfl, failed, cut, stuck⟩
        · exact .inl ⟨spans, done, .gap gap cut⟩
        · refine .inr ⟨c :: front, d, others, spans, rfl, ?_, .gap gap cut, stuck⟩
          rw [failed, Text.bytes_cons, Nat.add_assoc]
      | false =>
        cases found : token? (c :: rest) with
        | none =>
          refine .inr ⟨[], c, rest, [], rfl, ?_, .nil, gap, found⟩
          simp [tokensFrom, gap, found]
        | some hit =>
          -- In the part in front of an error the lexeme is a longest one as well.
          obtain ⟨token, after⟩ := hit
          obtain ⟨lexeme, same, longest⟩ := longest_of_token? found
          have filled := List.length_pos_iff.mpr longest.written.spells.ne_nil
          have shorter : after.length < (c :: rest).length := by
            rw [same, List.length_append]
            omega
          rw [same, tokensFrom_longest longest]
          rcases ih after.length shorter (offset + Text.bytes lexeme) after rfl with
            ⟨spans, done, cut⟩ | ⟨front, d, others, spans, rfl, failed, cut, stuck⟩
          · exact .inl ⟨_, by rw [done]; rfl, .token longest cut⟩
          · refine .inr ⟨lexeme ++ front, d, others, _, (List.append_assoc ..).symm, ?_,
              .token longest.cut cut, stuck⟩
            rw [failed, Text.bytes_append, ← Nat.add_assoc]
            rfl

end Lexer

namespace Cut

variable {offset : Nat} {text : Text} {spans : List Spanned}

/-- The tokenizer gives the tokens that a text is cut into. -/
theorem tokensFrom (cut : Cut offset text spans) :
    Lexer.tokensFrom offset 0 text = .ok spans := by
  induction cut with
  | nil => rfl
  | gap gap _ ih => rw [Lexer.tokensFrom, if_pos gap, ih]
  | token longest _ ih =>
    rw [tokensFrom_longest longest, ih]
    rfl

/-- No span is empty, and none begins in front of the text. -/
theorem bounds (cut : Cut offset text spans) :
    ∀ span ∈ spans, offset ≤ span.start ∧ span.start < span.stop := by
  induction cut with
  | nil => nofun
  | gap _ _ ih =>
    intro span listed
    have := ih span listed
    omega
  | @token offset lexeme _ _ _ longest _ ih =>
    intro span listed
    rcases List.mem_cons.mp listed with rfl | later
    · have filled := List.length_pos_iff.mpr longest.written.spells.ne_nil
      have := Text.length_le_bytes lexeme
      exact ⟨Nat.le_refl _, by dsimp only; omega⟩
    · have := ih span later
      omega

/-- The spans come one behind the other. -/
theorem apart (cut : Cut offset text spans) :
    spans.Pairwise fun first second => first.stop ≤ second.start := by
  induction cut with
  | nil => exact .nil
  | gap _ _ ih => exact ih
  | token _ behind ih => exact .cons (fun span listed => (behind.bounds span listed).1) ih

/-- A character is in one of the spans, or it is a gap. -/
theorem covers (cut : Cut offset text spans) {front rest : Text} {c : Char}
    (split : text = front ++ c :: rest) :
    (∃ span ∈ spans, span.start ≤ offset + Text.bytes front ∧
      offset + Text.bytes front < span.stop) ∨ isGap c = true := by
  induction cut generalizing front with
  | nil => simp at split
  | @gap offset d text spans gap _ ih =>
    cases front with
    | nil => exact .inr ((List.cons.inj split).1 ▸ gap)
    | cons e front =>
      obtain ⟨rfl, same⟩ := List.cons.inj split
      have behind := ih same
      rwa [Nat.add_assoc] at behind
  | @token offset lexeme after token spans longest _ ih =>
    -- The character stands behind the lexeme or inside of it.
    rcases List.append_eq_append_iff.mp split with ⟨more, rfl, same⟩ | ⟨more, rfl, same⟩
    · rw [Text.bytes_append, ← Nat.add_assoc]
      exact (ih same).imp_left fun ⟨span, listed, inside⟩ => ⟨span, .tail _ listed, inside⟩
    · cases more with
      | nil =>
        -- The character is the first one behind the lexeme.
        have behind := @ih [] same.symm
        simp only [List.append_nil, Text.bytes_nil, Nat.add_zero] at behind ⊢
        exact behind.imp_left fun ⟨span, listed, inside⟩ => ⟨span, .tail _ listed, inside⟩
      | cons d more =>
        refine .inl ⟨_, List.mem_cons_self, ?_⟩
        have := d.utf8Size_pos
        simp only [Text.bytes_append, Text.bytes_cons]
        omega

/-- A lexeme by itself is cut into its token. -/
theorem alone {lexeme : Text} {token : Token} (written : Lexeme lexeme token) (offset : Nat) :
    Cut offset lexeme [⟨token, offset, offset + Text.bytes lexeme⟩] := by
  have cut : Cut offset (lexeme ++ []) _ := .token (.alone written) .nil
  rwa [List.append_nil] at cut

/-- Lexemes with single spaces in between are cut into their tokens. -/
theorem spaced {slices : List Text} {tokens : List Token}
    (written : List.Forall₂ Lexeme slices tokens) (offset : Nat) :
    ∃ spans, Cut offset (List.intercalate [' '] slices) spans ∧
      spans.map Spanned.token = tokens := by
  induction written generalizing offset with
  | nil => exact ⟨[], .nil, rfl⟩
  | @cons slice token slices tokens first others ih =>
    cases others with
    | nil =>
      rw [List.intercalate_singleton]
      exact ⟨_, alone first offset, rfl⟩
    | @cons second _ later _ =>
      -- The space behind the first lexeme ends it.
      obtain ⟨spans, cut, same⟩ := ih (offset + Text.bytes slice + ' '.utf8Size)
      rw [List.intercalate_cons_cons, List.append_assoc, List.singleton_append]
      exact ⟨_, .token (.of_gap first rfl _) (.gap rfl cut), by rw [List.map_cons, same]⟩

end Cut

/-- The slice of a source that a span holds, as what its token is written as. -/
structure Spanned.Holds (source : Text) (span : Spanned) (slice : Text) : Prop where
  /-- The slice is what stands between the ends of the span. -/
  cut : Text.between? span.start span.stop source = some slice
  /-- No lexeme that begins there is longer. -/
  longest : ∃ after, Text.from? span.start source = some (slice ++ after) ∧
    Longest slice after span.token
  /-- The slice by itself is the token. -/
  alone : tokenize slice = .ok [⟨span.token, 0, Text.bytes slice⟩]

/-- Spans that lose nothing of a source. -/
structure Lossless (source : Text) (spans : List Spanned) : Prop where
  /-- No span is empty. -/
  filled : ∀ span ∈ spans, span.start < span.stop
  /-- The spans come one behind the other. -/
  apart : spans.Pairwise fun first second => first.stop ≤ second.start
  /-- What is in no span is a space, a tab, a newline or a carriage return. -/
  gaps : ∀ offset c rest, Text.from? offset source = some (c :: rest) →
    (∃ span ∈ spans, span.start ≤ offset ∧ offset < span.stop) ∨ c ∈ [' ', '\t', '\n', '\r']
  /-- Every span holds a slice, and the slices with single spaces in between give the same tokens.
  -/
  slices : ∃ slices, List.Forall₂ (Spanned.Holds source) spans slices ∧
    ∃ respaced, tokenize (List.intercalate [' '] slices) = .ok respaced ∧
      respaced.map Spanned.token = spans.map Spanned.token

/-- A position in a source at which no token starts, behind a part that has tokens. -/
structure StuckAt (source : Text) (position : Nat) : Prop where
  /-- What stands in front of the position has tokens. -/
  before : ∃ front spans, Text.upTo? position source = some front ∧ tokenize front = .ok spans
  /-- The position is in front of a character that is no gap and begins no lexeme. -/
  here : ∃ c rest, Text.from? position source = some (c :: rest) ∧ c ∉ [' ', '\t', '\n', '\r'] ∧
    ∀ lexeme token, Lexeme lexeme token → ¬ lexeme <+: c :: rest

/-- The gaps are four blanks. -/
theorem Lexer.isGap_iff {c : Char} : isGap c = true ↔ c ∈ [' ', '\t', '\n', '\r'] := by
  simp [isGap, or_assoc]

/-- Every span of a text that stands in a source holds a slice of the source. -/
theorem Cut.exists_slices {source text : Text} {offset : Nat} {spans : List Spanned}
    (cut : Cut offset text spans) (here : Text.from? offset source = some text) :
    ∃ slices, List.Forall₂ (Spanned.Holds source) spans slices := by
  induction cut with
  | nil => exact ⟨[], .nil⟩
  | gap _ _ ih => exact ih (Text.from?_next here)
  | @token offset lexeme after token spans longest _ ih =>
    have behind := Text.from?_forward here
    obtain ⟨slices, others⟩ := ih behind
    have alone := (Cut.alone longest.written 0).tokensFrom
    rw [Nat.zero_add] at alone
    exact ⟨lexeme :: slices,
      .cons ⟨Text.between?_of_from? here behind, ⟨after, here, longest⟩, alone⟩ others⟩

/-- A source that is cut into tokens loses nothing but gaps. -/
theorem Cut.lossless {source : Text} {spans : List Spanned} (cut : Cut 0 source spans) :
    Lossless source spans := by
  refine ⟨fun span listed => (cut.bounds span listed).2, cut.apart,
    fun offset c rest found => ?_, ?_⟩
  · obtain ⟨front, split, rfl⟩ := Text.from?_eq_some_iff.mp found
    have covered := cut.covers split
    rwa [Nat.zero_add, isGap_iff] at covered
  · obtain ⟨slices, holds⟩ := cut.exists_slices (Text.from?_zero source)
    have written : List.Forall₂ Lexeme slices (spans.map Spanned.token) := by
      rw [List.forall₂_map_right_iff]
      exact holds.flip.imp fun _ _ held => held.longest.choose_spec.2.written
    obtain ⟨respaced, again, same⟩ := Cut.spaced written 0
    exact ⟨slices, holds, respaced, again.tokensFrom, same⟩

/-- The tokens of a source lose nothing of it but gaps, and each is read again from its slice of the
source, by itself or with spaces in between; an error is where no token starts. -/
theorem Lexer.tokenize_lossless (source : Text) :
    match tokenize source with
    | .ok spans => Lossless source spans
    | .error position => StuckAt source position := by
  rcases tokensFrom_cases 0 source with
    ⟨spans, done, cut⟩ | ⟨front, c, rest, spans, rfl, failed, cut, noGap, missing⟩
  · rw [tokenize, done]
    exact cut.lossless
  · rw [tokenize, failed, Nat.zero_add]
    have noBlank : c ∉ [' ', '\t', '\n', '\r'] := by
      rw [← isGap_iff, noGap]
      exact Bool.false_ne_true
    exact {
      before := ⟨front, spans, Text.upTo?_append front _, cut.tokensFrom⟩
      here := ⟨c, rest, Text.from?_eq_some_iff.mpr ⟨front, rfl, rfl⟩, noBlank,
        token?_eq_none_iff.mp missing⟩ }

/-- Of three dots behind a digit the first two are one token, and none is part of a number. -/
example : tokenize "1...5".toList = .ok [⟨.number ['1'], 0, 1⟩, ⟨.symbol .dots, 1, 3⟩,
    ⟨.symbol .dot, 3, 4⟩, ⟨.number ['5'], 4, 5⟩] := by
  rfl

end Templates
