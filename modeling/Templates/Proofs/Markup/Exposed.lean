import Templates.Proofs.Markup.Settled

/-!
Values without quotes that come to a character of several bytes.

The end of such a value is the only thing in markup that cannot be told. Whatever else is read ends
inside of the text, so that the reading goes on behind it until the text is used up.
-/

namespace Templates.Markup

namespace Token

/-! ### Reading stays inside of the text -/

/-- What is read of a tag leaves an end of the text, if anything is read. -/
def Part.Within {α : Type} (text : Text) : Part α → Prop
  | .read _ rest => rest <:+ text
  | .noTag => True
  | .cut => True

/-- What is read inside of the end of a text is read inside of the text. -/
theorem Part.Within.of_suffix {α : Type} {part : Part α} {back text : Text}
    (within : part.Within back) (ends : back <:+ text) : part.Within text := by
  cases part with
  | read value rest => exact List.IsSuffix.trans within ends
  | noTag | cut => trivial

/-- A value in quotes goes up to the next quote, if there is one. -/
theorem quotedValue_eq (quote : Char) (text : Text) :
    quotedValue quote text =
      match text.dropWhile (· ≠ quote) with
      | [] => .noTag
      | _ :: rest => .read (text.takeWhile (· ≠ quote)) rest := by
  induction text with
  | nil => rfl
  | cons c text ih =>
    by_cases same : c = quote
    · simp [quotedValue, same]
    · rw [quotedValue, if_neg same, ih, List.dropWhile_cons, List.takeWhile_cons]
      simp only [ne_eq, same, not_false_eq_true, decide_true, if_true]
      cases text.dropWhile (· ≠ quote) <;> rfl

/-- A value in quotes ends inside of the text. -/
theorem quotedValue_within (quote : Char) (text : Text) :
    (quotedValue quote text).Within text := by
  have inside : text.dropWhile (· ≠ quote) <:+ text := List.dropWhile_suffix _
  rw [quotedValue_eq]
  split
  · trivial
  · rename_i left
    exact (List.suffix_cons _ _).trans (left ▸ inside)

/-- The end of a value in quotes can always be told. -/
theorem quotedValue_ne_cut (quote : Char) (text : Text) : quotedValue quote text ≠ .cut := by
  rw [quotedValue_eq]
  split <;> simp

/-- A value without quotes is what was read, and what follows it the rest. -/
theorem eq_of_bareValue {text value rest : Text} (read : bareValue text = .read value rest) :
    text = value ++ rest := by
  induction text generalizing value with
  | nil =>
    cases read
    rfl
  | cons c text ih =>
    rw [bareValue] at read
    split at read
    · cases read
      rfl
    · split at read
      · cases read
      · split at read
        · rename_i later
          cases read
          rw [ih later]
          rfl
        · rename_i noValue
          exact absurd read (noValue _ _)

/-- Without quotes there is always a value, if only an empty one. -/
theorem bareValue_ne_noTag (text : Text) : bareValue text ≠ .noTag := by
  induction text with
  | nil => simp [bareValue]
  | cons c text ih =>
    rw [bareValue]
    split
    · simp
    · split
      · simp
      · cases read : bareValue text with
        | read | cut => simp
        | noTag => exact absurd read ih

/-- A value without quotes ends inside of the text. -/
theorem bareValue_within (text : Text) : (bareValue text).Within text := by
  cases read : bareValue text with
  | read value rest => exact ⟨value, (eq_of_bareValue read).symm⟩
  | noTag | cut => trivial

/-- A value ends inside of the text. -/
theorem readValue_within (text : Text) : (readValue text).2.Within text := by
  unfold readValue
  split
  · exact (quotedValue_within _ _).of_suffix (List.suffix_cons _ _)
  · exact (quotedValue_within _ _).of_suffix (List.suffix_cons _ _)
  · exact bareValue_within text

/-- An attribute ends inside of the text. -/
theorem readAttribute_within (first : Char) (text : Text) :
    (readAttribute first text).Within text := by
  have behindName : text.dropWhile (!endsName ·) <:+ text := List.dropWhile_suffix _
  rw [readAttribute_eq]
  split
  · rename_i after equals
    -- The value stands behind the name, the equals sign and blanks.
    have behindBlanks := (List.dropWhile_suffix Text.isMarkupBlank).trans behindName
    rw [equals] at behindBlanks
    have behind := ((List.dropWhile_suffix Text.isMarkupBlank).trans
      (List.suffix_cons '=' after)).trans behindBlanks
    have held := (readValue_within _).of_suffix behind
    cases read : (readValue (after.dropWhile Text.isMarkupBlank)).2 <;> rw [read] at held <;>
      exact held
  · exact behindName

/-- The attributes of a tag end inside of the text. -/
theorem readAttributes_within (fuel : Nat) (text : Text) :
    (readAttributes fuel text).Within text := by
  induction fuel generalizing text with
  | zero => trivial
  | succ fuel ih =>
    have inside : text.dropWhile Text.isMarkupBlank <:+ text := List.dropWhile_suffix _
    rw [readAttributes]
    split
    · trivial
    · rename_i same
      exact (List.suffix_cons _ _).trans (same ▸ inside)
    · rename_i same
      exact ((List.suffix_cons _ _).trans (List.suffix_cons _ _)).trans (same ▸ inside)
    · rename_i same
      exact (ih _).of_suffix ((List.suffix_cons _ _).trans (same ▸ inside))
    · -- The first attribute ends inside of the text, and the others inside of what follows it.
      rename_i c rest _ _ _ same
      have one := (readAttribute_within c rest).of_suffix
        ((List.suffix_cons c rest).trans (same ▸ inside))
      split
      · trivial
      · trivial
      · rename_i after read
        rw [read] at one
        have others := (ih after).of_suffix one
        cases later : readAttributes fuel after <;> rw [later] at others <;> exact others

/-- A start tag ends inside of the text. -/
theorem readTag_within (text : Text) : (readTag text).Within text := by
  have inside : text.dropWhile inTagName <:+ text := List.dropWhile_suffix _
  rw [readTag]
  have held := (readAttributes_within ((text.dropWhile inTagName).length + 1) _).of_suffix inside
  cases read : readAttributes ((text.dropWhile inTagName).length + 1) (text.dropWhile inTagName) <;>
    rw [read] at held <;> exact held

/-- The amount of fuel makes no difference if it is enough for each character. -/
theorem readAttributes_congr {fuel other : Nat} {text : Text} (enough : text.length < fuel)
    (same : text.length < other) : readAttributes fuel text = readAttributes other text := by
  induction fuel generalizing other text with
  | zero => omega
  | succ fuel ih =>
    obtain ⟨other, rfl⟩ : ∃ n, other = n + 1 := ⟨other - 1, by omega⟩
    have inside := (List.dropWhile_suffix Text.isMarkupBlank (l := text)).length_le
    rw [readAttributes, readAttributes]
    split
    · rfl
    · rfl
    · rfl
    · rename_i left
      rw [left, List.length_cons] at inside
      exact ih (by omega) (by omega)
    · rename_i c rest _ _ _ left
      rw [left, List.length_cons] at inside
      have one := readAttribute_within c rest
      split
      · rfl
      · rfl
      · rename_i after read
        rw [read] at one
        have shorter := List.IsSuffix.length_le one
        rw [@ih other after (by omega) (by omega)]

/-- What follows the next closing bracket is an end of the text. -/
theorem behindBracket_suffix (text : Text) : behindBracket text <:+ text :=
  (List.drop_suffix _ _).trans (List.dropWhile_suffix _)

/-- What follows raw content is an end of the text. -/
theorem rawContent_suffix (closing text : Text) : (rawContent closing text).2 <:+ text := by
  induction text with
  | nil => exact List.suffix_rfl
  | cons c text ih =>
    rw [rawContent]
    split
    · exact behindBracket_suffix _
    · exact ih.trans (List.suffix_cons c text)

/-- A token has at least its first character. -/
theorem suffix_of_next {c : Char} {text rest : Text} {token : Token}
    (read : next c text = .ok (token, rest)) : rest <:+ text := by
  -- What is left of a part behind one character and more is an end of what follows that character.
  have behind (front : Text) (filled : front ≠ []) (whole : c :: text = front ++ rest) :
      rest <:+ text := by
    cases front with
    | nil => exact absurd rfl filled
    | cons d front => exact ⟨front, (List.cons.inj whole).2.symm⟩
  cases next_cases read with
  | text filled whole => exact behind _ filled whole
  | @comment _ body begins found =>
    refine behind ("<!--".toList ++ body ++ "-->".toList) (by simp) ?_
    rw [begins, Text.eq_of_cut? found]
    simp only [List.append_assoc]
  | @doctype _ body begins _ found =>
    refine behind ("<!".toList ++ body ++ ">".toList) (by simp) ?_
    rw [begins, Text.eq_of_cut? found]
    simp only [List.append_assoc]
  | @endTag name inner begins left =>
    obtain ⟨more, same⟩ := behindBracket_suffix inner
    refine behind ("</".toList ++ name ++ more) (by simp) ?_
    rw [begins, left, List.append_assoc _ more, same]
  | @startTag first inner _ begins _ tag _ =>
    obtain ⟨-, rfl⟩ := List.cons.inj begins
    have held := readTag_within (first :: inner)
    rwa [tag] at held
  | @rawTag first inner after content e begins _ tag _ held =>
    obtain ⟨-, rfl⟩ := List.cons.inj begins
    have one := readTag_within (first :: inner)
    rw [tag] at one
    have two := rawContent_suffix (rawClosing e.name) after
    rw [held] at two
    exact List.IsSuffix.trans two one

/-! ### Where the reading is stuck -/

/-- Behind the first character of an attribute: a value without quotes comes to a character of
several bytes. -/
def ExposesValue (text : Text) : Prop :=
  ∃ name lead gap value c after, text = name ++ (lead ++ '=' :: (gap ++ (value ++ c :: after))) ∧
    (∀ d ∈ name, endsName d = false) ∧ (∀ d ∈ lead, Text.isMarkupBlank d = true) ∧
      (∀ d ∈ gap, Text.isMarkupBlank d = true) ∧ Attribute.IsValue .bare value ∧ c.utf8Size ≠ 1

/-- No value comes to such a character in a text of single bytes. -/
theorem not_exposesValue {text : Text} (narrow : ∀ c ∈ text, c.utf8Size = 1) :
    ¬ExposesValue text := by
  rintro ⟨name, lead, gap, value, c, after, rfl, _, _, _, _, wide⟩
  exact wide (narrow c (by simp))

/-- Behind the name of a tag: one of the attributes that are read exposes its value. A slash that
does not end the tag is passed over. -/
inductive ExposesAttribute : Text → Prop where
  | here {text rest : Text} {c : Char} :
    text.dropWhile Text.isMarkupBlank = c :: rest → c ≠ '>' → c ≠ '/' → ExposesValue rest →
      ExposesAttribute text
  | slash {text rest : Text} :
    text.dropWhile Text.isMarkupBlank = '/' :: rest → rest.head? ≠ some '>' →
      ExposesAttribute rest → ExposesAttribute text
  | behind {text rest after : Text} {c : Char} {a : Attribute} :
    text.dropWhile Text.isMarkupBlank = c :: rest → c ≠ '>' → c ≠ '/' →
      readAttribute c rest = .read a after → ExposesAttribute after → ExposesAttribute text

/-- The end of a value without quotes cannot be told exactly if it comes to a character of several
bytes. -/
theorem bareValue_eq_cut_iff {text : Text} :
    bareValue text = .cut ↔ ∃ value c after, text = value ++ c :: after ∧
      (∀ d ∈ value, Text.isMarkupBlank d = false ∧ d ≠ '>' ∧ d.utf8Size = 1) ∧ c.utf8Size ≠ 1 := by
  constructor
  · intro stuck
    induction text with
    | nil => cases stuck
    | cons c text ih =>
      rw [bareValue] at stuck
      split at stuck
      · cases stuck
      · rename_i inside
        split at stuck
        · rename_i wide
          exact ⟨[], c, text, rfl, by simp, wide⟩
        · rename_i narrow
          split at stuck
          · cases stuck
          · obtain ⟨value, d, after, rfl, plain, wide⟩ := ih stuck
            refine ⟨c :: value, d, after, rfl, List.forall_mem_cons.mpr ⟨?_, plain⟩, wide⟩
            simp only [Bool.or_eq_true, decide_eq_true_eq, not_or] at inside
            exact ⟨by simpa using inside.1.1, inside.1.2, by simpa using narrow⟩
  · rintro ⟨value, c, after, rfl, plain, wide⟩
    have notBlank : Text.isMarkupBlank c = false := by
      rw [Bool.eq_false_iff]
      exact fun blank => wide (Text.narrow_of_isMarkupBlank blank)
    have differs {mark : Char} (narrow : mark.utf8Size = 1) : c ≠ mark := by
      rintro rfl
      exact wide narrow
    induction value with
    | nil =>
      have bracket : c ≠ '>' := differs rfl
      have slash : c ≠ '/' := differs rfl
      rw [List.nil_append, bareValue, if_neg (by simp [notBlank, bracket, slash]), if_pos wide]
    | cons d value ih =>
      obtain ⟨⟨blank, bracket, small⟩, others⟩ := List.forall_mem_cons.mp plain
      -- A slash does not end the tag in front of what follows it here.
      have slashed : ¬(d = '/' ∧ (value ++ c :: after).head? = some '>') := by
        rintro ⟨-, same⟩
        cases value with
        | nil => exact differs rfl (Option.some.inj same)
        | cons e value => exact (others e List.mem_cons_self).2.1 (Option.some.inj same)
      rw [List.cons_append, bareValue, if_neg (by simpa [blank, bracket] using slashed),
        if_neg (by simp [small]), ih others]

/-- The end of a value cannot be told exactly if it has no quotes and comes to such a character. -/
theorem readValue_eq_cut_iff {text : Text} :
    (readValue text).2 = .cut ↔ ∃ value c after, text = value ++ c :: after ∧
      Attribute.IsValue .bare value ∧ c.utf8Size ≠ 1 := by
  constructor
  · intro stuck
    unfold readValue at stuck
    split at stuck
    · exact absurd stuck (quotedValue_ne_cut _ _)
    · exact absurd stuck (quotedValue_ne_cut _ _)
    · rename_i noDouble noSingle
      obtain ⟨value, c, after, rfl, plain, wide⟩ := bareValue_eq_cut_iff.mp stuck
      -- A quote in front would have been taken for an opening one.
      refine ⟨value, c, after, rfl, ⟨plain, fun first => ?_, fun first => ?_⟩, wide⟩
      · obtain ⟨_, rfl⟩ := List.head?_eq_some_iff.mp first
        exact noDouble _ rfl
      · obtain ⟨_, rfl⟩ := List.head?_eq_some_iff.mp first
        exact noSingle _ rfl
  · rintro ⟨value, c, after, rfl, ⟨plain, noDouble, noSingle⟩, wide⟩
    have stuck := bareValue_eq_cut_iff.mpr ⟨value, c, after, rfl, plain, wide⟩
    have differs {mark : Char} (narrow : mark.utf8Size = 1) (other : value.head? ≠ some mark) :
        (value ++ c :: after).head? ≠ some mark := by
      cases value with
      | nil =>
        intro same
        cases same
        exact wide narrow
      | cons d value => exact other
    unfold readValue
    split
    · rename_i inner same
      exact absurd (congrArg List.head? same) (differs rfl noDouble)
    · rename_i inner same
      exact absurd (congrArg List.head? same) (differs rfl noSingle)
    · exact stuck

/-- An attribute cannot be told exactly if its value cannot. -/
theorem readAttribute_eq_cut_iff {first : Char} {text : Text} :
    readAttribute first text = .cut ↔ ExposesValue text := by
  constructor
  · intro stuck
    rw [readAttribute_eq] at stuck
    split at stuck
    · rename_i behind equals
      have cut : (readValue (behind.dropWhile Text.isMarkupBlank)).2 = .cut := by
        split at stuck
        · cases stuck
        · cases stuck
        · assumption
      obtain ⟨value, c, after, left, bare, wide⟩ := readValue_eq_cut_iff.mp cut
      refine ⟨text.takeWhile (!endsName ·),
        (text.dropWhile (!endsName ·)).takeWhile Text.isMarkupBlank,
        behind.takeWhile Text.isMarkupBlank, value, c, after, ?_, fun d listed => ?_,
        List.all_eq_true.mp List.all_takeWhile, List.all_eq_true.mp List.all_takeWhile, bare, wide⟩
      · rw [← left, List.takeWhile_append_dropWhile, ← equals, List.takeWhile_append_dropWhile,
          List.takeWhile_append_dropWhile]
      · simpa using List.all_eq_true.mp List.all_takeWhile d listed
    · cases stuck
  · rintro ⟨name, lead, gap, value, c, after, rfl, ends, blank, spaced, bare, wide⟩
    -- Each part of the attribute ends where the next one begins.
    have cut := readValue_eq_cut_iff.mpr ⟨value, c, after, rfl, bare, wide⟩
    have inside : ∀ d ∈ name, (!endsName d) = true := fun d listed => by simp [ends d listed]
    have stops : ∀ d, (lead ++ '=' :: (gap ++ (value ++ c :: after))).head? = some d →
        (!endsName d) = false := by
      intro d same
      cases lead with
      | nil =>
        cases same
        rfl
      | cons e lead =>
        cases same
        simp [endsName, blank d List.mem_cons_self]
    have equals : ∀ d, ('=' :: (gap ++ (value ++ c :: after))).head? = some d →
        Text.isMarkupBlank d = false := by
      intro d same
      cases same
      rfl
    have solid : ∀ d, (value ++ c :: after).head? = some d → Text.isMarkupBlank d = false := by
      intro d same
      cases value with
      | nil =>
        cases same
        exact Bool.eq_false_iff.mpr fun blank => wide (Text.narrow_of_isMarkupBlank blank)
      | cons e value =>
        cases same
        exact (bare.1 d List.mem_cons_self).1
    rw [readAttribute_eq, Text.dropWhile_append inside stops, Text.dropWhile_append blank equals]
    simp only [Text.dropWhile_append spaced solid, cut]

/-- A slash that does not end the tag is passed over. -/
theorem readAttributes_slash {text rest : Text}
    (left : text.dropWhile Text.isMarkupBlank = '/' :: rest) (noEnd : rest.head? ≠ some '>')
    (fuel : Nat) : readAttributes (fuel + 1) text = readAttributes fuel rest := by
  rw [readAttributes, left]
  split
  · rename_i same
    cases same
  · rename_i same
    cases same
  · rename_i same
    cases same
    exact absurd rfl noEnd
  · rename_i same
    cases same
    rfl
  · rename_i slash same
    cases same
    exact absurd rfl slash

/-- An attribute is read in front of the others. -/
theorem readAttributes_attribute {text rest : Text} {c : Char}
    (left : text.dropWhile Text.isMarkupBlank = c :: rest) (noBracket : c ≠ '>')
    (noSlash : c ≠ '/') (fuel : Nat) :
    readAttributes (fuel + 1) text =
      match readAttribute c rest with
      | .noTag => .noTag
      | .cut => .cut
      | .read a after =>
        match readAttributes fuel after with
        | .read (others, slash) stop => .read (a :: others, slash) stop
        | other => other := by
  rw [readAttributes, left]
  split
  · rename_i same
    cases same
  · rename_i same
    exact absurd (List.cons.inj same).1 noBracket
  · rename_i same
    exact absurd (List.cons.inj same).1 noSlash
  · rename_i same
    exact absurd (List.cons.inj same).1 noSlash
  · rename_i same
    cases same
    rfl

/-- The attributes of a tag cannot be told exactly if one of them exposes its value. -/
theorem readAttributes_eq_cut_iff {fuel : Nat} {text : Text} (enough : text.length < fuel) :
    readAttributes fuel text = .cut ↔ ExposesAttribute text := by
  constructor
  · -- This half holds with any amount of fuel, since running out of it is no cut.
    intro stuck
    clear enough
    induction fuel generalizing text with
    | zero => cases stuck
    | succ fuel ih =>
      rw [readAttributes] at stuck
      split at stuck
      · cases stuck
      · cases stuck
      · cases stuck
      · rename_i rest noEnd left
        refine .slash left (fun ends => ?_) (ih stuck)
        obtain ⟨more, rfl⟩ := List.head?_eq_some_iff.mp ends
        exact noEnd more rfl
      · rename_i c rest bracket _ slash left
        have noBracket : c ≠ '>' := fun same => bracket same
        have noSlash : c ≠ '/' := fun same => slash same
        split at stuck
        · cases stuck
        · rename_i one
          exact .here left noBracket noSlash (readAttribute_eq_cut_iff.mp one)
        · rename_i a after one
          split at stuck
          · cases stuck
          · exact .behind left noBracket noSlash one (ih stuck)
  · intro exposed
    induction exposed generalizing fuel with
    | here left noBracket noSlash exposes =>
      obtain ⟨fuel, rfl⟩ : ∃ n, fuel = n + 1 := ⟨fuel - 1, by omega⟩
      rw [readAttributes_attribute left noBracket noSlash, readAttribute_eq_cut_iff.mpr exposes]
    | @slash text rest left noEnd _ ih =>
      obtain ⟨fuel, rfl⟩ : ∃ n, fuel = n + 1 := ⟨fuel - 1, by omega⟩
      have inside := (List.dropWhile_suffix Text.isMarkupBlank (l := text)).length_le
      rw [left, List.length_cons] at inside
      rw [readAttributes_slash left noEnd, ih (by omega)]
    | @behind text rest after c a left noBracket noSlash one _ ih =>
      obtain ⟨fuel, rfl⟩ : ∃ n, fuel = n + 1 := ⟨fuel - 1, by omega⟩
      have inside := (List.dropWhile_suffix Text.isMarkupBlank (l := text)).length_le
      rw [left, List.length_cons] at inside
      have held := readAttribute_within c rest
      rw [one] at held
      have shorter := List.IsSuffix.length_le held
      rw [readAttributes_attribute left noBracket noSlash, one]
      simp only [@ih fuel (by omega)]

/-- A tag cannot be told exactly if one of its attributes exposes its value. -/
theorem readTag_eq_cut_iff {text : Text} :
    readTag text = .cut ↔ ExposesAttribute (text.dropWhile inTagName) := by
  rw [← readAttributes_eq_cut_iff (Nat.lt_succ_self _), readTag]
  cases readAttributes ((text.dropWhile inTagName).length + 1) (text.dropWhile inTagName) with
  | read | noTag | cut => simp

/-- The next token cannot be told exactly if it is a start tag with such an attribute. -/
theorem next_eq_error_iff {c : Char} {text : Text} {error : MarkupError} :
    next c text = .error error ↔ c = '<' ∧ text.head?.any Char.isAlpha = true ∧
      ExposesAttribute (text.dropWhile inTagName) := by
  rw [← readTag_eq_cut_iff]
  constructor
  · -- All other tokens can be told.
    intro stuck
    unfold next at stuck
    split at stuck
    · split at stuck <;> cases stuck
    · split at stuck <;> cases stuck
    · split at stuck <;> cases stuck
    · split at stuck
      · rename_i letter
        split at stuck
        · cases stuck
        · rename_i tag
          exact ⟨rfl, letter, tag⟩
        · split at stuck <;> cases stuck
      · cases stuck
    · cases stuck
  · rintro ⟨rfl, letter, stuck⟩
    cases text with
    | nil => cases letter
    | cons first rest =>
      replace letter : first.isAlpha = true := letter
      cases error
      rw [next_of_letter letter, stuck]

end Token

/-- A start tag of a source exposes a value without quotes: the first token does, or one behind it.
-/
inductive CutsCharacter : Text → Prop where
  | here {c : Char} {text : Text} :
    c.isAlpha = true → Token.ExposesAttribute ((c :: text).dropWhile Token.inTagName) →
      CutsCharacter ('<' :: c :: text)
  | behind {c : Char} {text after : Text} {token : Token} :
    Token.next c text = .ok (token, after) → CutsCharacter after → CutsCharacter (c :: text)

/-- The tokens of a source cannot be told exactly if it cuts a character. -/
theorem tokens_eq_error_iff {source : Text} {error : MarkupError} :
    tokens source = .error error ↔ CutsCharacter source := by
  constructor
  · intro stuck
    -- What follows a token is shorter.
    induction size : source.length using Nat.strongRecOn generalizing source with
    | ind length ih =>
      cases source with
      | nil => cases stuck
      | cons c text =>
        cases read : Token.next c text with
        | error other =>
          obtain ⟨rfl, letter, exposed⟩ := Token.next_eq_error_iff.mp read
          cases text with
          | nil => cases letter
          | cons first rest => exact .here letter exposed
        | ok pair =>
          obtain ⟨token, after⟩ := pair
          obtain ⟨front, rfl⟩ := Token.suffix_of_next read
          rw [Token.tokens_of_next read] at stuck
          refine .behind read (ih after.length ?_ ?_ rfl)
          · rw [← size, List.length_cons, List.length_append]
            omega
          · cases later : tokens after with
            | error => rfl
            | ok list =>
              rw [later] at stuck
              cases stuck
  · intro cuts
    induction cuts with
    | @here c text letter exposed =>
      have stuck : Token.next '<' (c :: text) = .error error :=
        Token.next_eq_error_iff.mpr ⟨rfl, letter, exposed⟩
      rw [tokens, Token.tokensFrom, stuck]
    | behind read _ ih =>
      obtain ⟨front, rfl⟩ := Token.suffix_of_next read
      rw [Token.tokens_of_next read, ih]
      rfl

end Templates.Markup
