import Templates.Proofs.Expr.Delimited
import Templates.Proofs.Markup.Exposed
import Templates.Proofs.Text.Offset

/-!
Start tags are cut by a cursor that counts bytes.

The cursor looks at single bytes, and takes slices for the names and values and to see whether the
end of the tag stands in front of it. It reads the same tags as are read off the text, and is stuck
where no tag can be told.
-/

namespace Templates.Markup

open Text (from? between? upTo? find? peek skip Bytewise)
open Markup.Token (endsName inTagName)

/-! ### The cursor -/

namespace Cursor

/-- What a cursor reads of a tag: a part with the place behind it, or no tag. -/
abbrev Reading (α : Type) := Option (α × Nat)

/-- Whether a mark stands at a cursor, for which a slice is taken. -/
def startsAt (mark source : Text) (position : Nat) : Option Bool :=
  (from? position source).map (Text.startsWith mark)

/-- The end of a value without quotes, with the bytes from the cursor on. -/
def bareStop (source : Text) : Nat → List Char → Option Nat
  | position, [] => some position
  | position, byte :: rest =>
    if Text.isMarkupBlank byte || byte = '>' then some position
    else
      match startsAt "/>" source position with
      | none => none
      | some true => some position
      | some false => bareStop source (position + 1) rest

/-- A value without quotes. -/
def bareValue (source : Text) (start : Nat) : Option (Reading Text) := do
  let stop ← bareStop source start ((Text.octets source).drop start)
  return some (← between? start stop source, stop)

/-- A value behind its opening quote. -/
def quotedValue (quote : Char) (source : Text) (start : Nat) : Option (Reading Text) :=
  let stop := skip (· ≠ quote) source start
  if peek source stop = none then some none
  else do return some (← between? start stop source, stop + 1)

/-- The quotes of the value at a cursor. -/
def quoteAt (source : Text) (position : Nat) : Quote :=
  if peek source position = some '"' then .double
  else if peek source position = some '\'' then .single
  else .bare

/-- The value at a cursor. -/
def readValue (source : Text) (position : Nat) : Option (Reading Text) :=
  match quoteAt source position with
  | .double => quotedValue '"' source (position + 1)
  | .single => quotedValue '\'' source (position + 1)
  | .bare => bareValue source position

/-- The attribute at a cursor. -/
def readAttribute (source : Text) (position : Nat) : Option (Reading Attribute) := do
  let stop := skip (!endsName ·) source (position + 1)
  let name ← between? position stop source
  let sign := skip Text.isMarkupBlank source stop
  if peek source sign ≠ some '=' then return some (.boolean name, stop)
  else
    let start := skip Text.isMarkupBlank source (sign + 1)
    match ← readValue source start with
    | none => return none
    | some (value, next) => return some (⟨name, some value, quoteAt source start⟩, next)

/-- The attributes from a cursor on, and whether the tag ends in a slash; the first argument bounds
the number of steps. -/
def readAttributes (source : Text) : Nat → Nat → Option (Reading (List Attribute × Bool))
  | 0, _ => some none
  | fuel + 1, position =>
    let start := skip Text.isMarkupBlank source position
    if peek source start = none then some none
    else if peek source start = some '>' then some (some (([], false), start + 1))
    else if peek source start = some '/' then
      if peek source (start + 1) = some '>' then some (some (([], true), start + 2))
      else readAttributes source fuel (start + 1)
    else do
      match ← readAttribute source start with
      | none => return none
      | some (a, next) =>
        match ← readAttributes source fuel next with
        | none => return none
        | some ((others, slash), stop) => return some ((a :: others, slash), stop)

/-- The tag behind its opening bracket, which has fewer attributes than the source has bytes. -/
def readTag (source : Text) (start : Nat) : Option (Reading Element) := do
  let stop := skip inTagName source start
  let name ← between? start stop source
  match ← readAttributes source (Text.bytes source + 1) stop with
  | none => return none
  | some ((list, slash), next) => return some (⟨name, list, slash⟩, next)

/-! ### Characters that the cursor knows -/

/-- Letters are told from other characters by bytes. -/
theorem bytewise_isAlpha : Bytewise Char.isAlpha :=
  .of_narrow fun _ letter => (Lexer.printing_of_isAlpha letter).utf8Size

/-- A character of the name of a tag is one byte. -/
theorem bytewise_inTagName : Bytewise inTagName := by
  refine .of_narrow fun c inside => ?_
  simp only [inTagName, Bool.or_eq_true, decide_eq_true_eq] at inside
  rcases inside with (((plain | rfl) | rfl) | rfl) | rfl
  · exact (Lexer.printing_of_isAlphanum plain).utf8Size
  all_goals rfl

/-- What ends the name of an attribute is one byte. -/
theorem narrow_of_endsName {c : Char} (ends : endsName c = true) : c.utf8Size = 1 := by
  simp only [endsName, Bool.or_eq_true, decide_eq_true_eq] at ends
  rcases ends with ((((blank | rfl) | rfl) | rfl) | rfl) | rfl
  · exact Text.narrow_of_isMarkupBlank blank
  all_goals rfl

/-- Characters of the name of an attribute are told by bytes. -/
theorem bytewise_not_endsName : Bytewise (!endsName ·) :=
  (Bytewise.of_narrow fun _ => narrow_of_endsName).not

/-- What ends a value without quotes is told by a byte, but for the slash at the end of a tag. -/
theorem bytewise_endsBare : Bytewise fun c => Text.isMarkupBlank c || c = '>' := by
  refine .of_narrow fun c ends => ?_
  rw [Bool.or_eq_true, decide_eq_true_eq] at ends
  obtain blank | rfl := ends
  · exact Text.narrow_of_isMarkupBlank blank
  · rfl

/-! ### Tags -/

variable {source text : Text} {position : Nat} {c : Char}

/-- What a cursor reads is what is read off the text at it, and the cursor is then in front of the
same rest. It is stuck where the part cannot be told. -/
inductive Follows {α : Type} (source : Text) : Token.Part α → Option (Reading α) → Prop where
  | read {value : α} {rest : Text} {next : Nat} :
    from? next source = some rest → Follows source (.read value rest) (some (some (value, next)))
  | noTag : Follows source .noTag (some none)
  | cut : Follows source .cut none

/-- What a value without quotes tells a cursor in front of it about its end. -/
def stopOf (position : Nat) : Token.Part Text → Option Nat
  | .read value _ => some (position + Text.bytes value)
  | .noTag | .cut => none

/-- A slash and a closing bracket stand at the front of a text. -/
theorem startsWith_slash {c : Char} {text : Text} :
    Text.startsWith "/>" (c :: text) = (decide (c = '/') && decide (text.head? = some '>')) := by
  by_cases slash : c = '/'
  · subst slash
    cases text with
    | nil => rfl
    | cons d text =>
      by_cases bracket : d = '>'
      · subst bracket
        rfl
      · simp [Text.startsWith, Text.strip?, bracket, Ne.symm bracket]
  · simp [Text.startsWith, Text.strip?, slash, Ne.symm slash]

/-- At the first byte of a character that does not end it, the search for the end of a value looks
for the end of the tag. -/
theorem bareStop_look (inside : ¬(Text.isMarkupBlank c || c = '>') = true) {first : Char}
    {more : List Char} (bytes : Text.octetsOf c = first :: more)
    (here : from? position source = some (c :: text)) :
    bareStop source position (Text.octets (c :: text)) =
      if c = '/' && text.head? = some '>' then some position
      else bareStop source (position + 1) (more ++ Text.octets text) := by
  have member : first ∈ Text.octetsOf c := bytes ▸ List.mem_cons_self
  have same := bytewise_endsBare.octetsOf member
  rw [Text.octets_cons, bytes, List.cons_append, bareStop]
  rw [show (Text.isMarkupBlank first || decide (first = '>')) =
    (Text.isMarkupBlank c || decide (c = '>')) from same, if_neg inside, startsAt, here,
    Option.map_some, startsWith_slash]
  cases decide (c = '/') && decide (text.head? = some '>') <;> rfl

/-- A value without quotes ends for a cursor where it does, and the cursor is stuck where the end
cannot be told. -/
theorem bareStop_eq (here : from? position source = some text) :
    bareStop source position (Text.octets text) = stopOf position (Token.bareValue text) := by
  induction text generalizing position with
  | nil => rfl
  | cons c text ih =>
    obtain ⟨first, more, bytes, size⟩ := Text.octetsOf_eq_cons c
    have member : first ∈ Text.octetsOf c := bytes ▸ List.mem_cons_self
    rw [Token.bareValue]
    by_cases ends : (Text.isMarkupBlank c || c = '>') = true
    · rw [if_pos (by rw [ends, Bool.true_or]), Text.octets_cons, bytes, List.cons_append, bareStop,
        if_pos ((bytewise_endsBare.octetsOf member).trans ends)]
      rfl
    · rw [bareStop_look ends bytes here]
      rw [Bool.not_eq_true] at ends
      rw [ends, Bool.false_or]
      by_cases slashed : (c = '/' && text.head? = some '>') = true
      · rw [if_pos slashed, if_pos slashed]
        rfl
      · rw [if_neg slashed, if_neg slashed]
        by_cases narrow : c.utf8Size = 1
        · -- The next byte belongs to the next character.
          rw [Text.octetsOf_narrow narrow] at bytes
          obtain ⟨-, rfl⟩ := List.cons.inj bytes
          have moved := ih (Text.from?_next here)
          rw [narrow] at moved
          rw [if_neg (by simp [narrow]), List.nil_append, moved]
          cases Token.bareValue text <;> simp [stopOf, narrow, Nat.add_assoc]
        · -- The next byte belongs to the same character, and no slice begins there.
          rw [if_pos narrow]
          cases more with
          | nil => exact absurd size.symm narrow
          | cons second more =>
            have other : second ∈ Text.octetsOf c :=
              bytes ▸ List.mem_cons_of_mem _ List.mem_cons_self
            have inside := (bytewise_endsBare.octetsOf other).trans ends
            rw [List.length_cons] at size
            rw [List.cons_append, bareStop, if_neg (by simp [inside]), startsAt,
              Text.from?_inside here Nat.one_pos (by omega)]
            rfl

/-- The cursor reads a value without quotes. -/
theorem bareValue_follows (here : from? position source = some text) :
    Follows source (Token.bareValue text) (bareValue source position) := by
  have stop := bareStop_eq here
  rw [bareValue, Text.drop_octets here, stop]
  cases read : Token.bareValue text with
  | read value rest =>
    rw [Token.eq_of_bareValue read] at here
    have finish := Text.from?_forward here
    simp only [stopOf, Option.bind_eq_bind, Option.bind_some, Text.between?_of_from? here finish]
    exact .read finish
  | noTag => exact absurd read (Token.bareValue_ne_noTag text)
  | cut => exact .cut

/-- The cursor reads a value behind its opening quote. -/
theorem quotedValue_follows {quote : Char} (narrow : quote.utf8Size = 1)
    (here : from? position source = some text) :
    Follows source (Token.quotedValue quote text) (quotedValue quote source position) := by
  have finish := Text.from?_skip (Bytewise.ne narrow) here
  have whole : text.takeWhile (· ≠ quote) ++ text.dropWhile (· ≠ quote) = text :=
    List.takeWhile_append_dropWhile
  rw [Token.quotedValue_eq, quotedValue]
  cases left : text.dropWhile (· ≠ quote) with
  | nil =>
    rw [left] at finish
    rw [if_pos ((Text.peek_eq_none_iff finish).mpr rfl)]
    exact .noTag
  | cons mark rest =>
    -- The first character that is left is the quote.
    have isQuote : mark = quote := by
      have stopped := List.head?_dropWhile_not (· ≠ quote) text
      rw [left] at stopped
      simpa using stopped
    rw [← whole] at here
    have between := Text.between?_of_from? here finish
    rw [left] at finish
    have there := Text.peek_ne_none finish
    have behind := Text.from?_next finish
    rw [isQuote, narrow] at behind
    rw [if_neg there, between]
    exact .read behind

/-- The cursor sees the quotes of a value. -/
theorem quoteAt_eq (here : from? position source = some text) :
    quoteAt source position = (Token.readValue text).1 := by
  have double : peek source position = some '"' ↔ text.head? = some '"' :=
    Text.peek_eq_some_iff rfl here
  have single : peek source position = some '\'' ↔ text.head? = some '\'' :=
    Text.peek_eq_some_iff rfl here
  unfold Token.readValue
  split
  · rw [quoteAt, if_pos (double.mpr rfl)]
  · rw [quoteAt, if_neg (mt double.mp (by simp)), if_pos (single.mpr rfl)]
  · rename_i noDouble noSingle
    have notDouble : text.head? ≠ some '"' := by
      intro same
      obtain ⟨inner, rfl⟩ := List.head?_eq_some_iff.mp same
      exact noDouble inner rfl
    have notSingle : text.head? ≠ some '\'' := by
      intro same
      obtain ⟨inner, rfl⟩ := List.head?_eq_some_iff.mp same
      exact noSingle inner rfl
    rw [quoteAt, if_neg (mt double.mp notDouble), if_neg (mt single.mp notSingle)]

/-- The cursor reads a value. -/
theorem readValue_follows (here : from? position source = some text) :
    Follows source (Token.readValue text).2 (readValue source position) := by
  rw [readValue, quoteAt_eq here]
  unfold Token.readValue
  split
  · exact quotedValue_follows rfl (Text.from?_next here)
  · exact quotedValue_follows rfl (Text.from?_next here)
  · exact bareValue_follows here

/-- The cursor reads an attribute. -/
theorem readAttribute_follows (here : from? position source = some (c :: text)) :
    Follows source (Token.readAttribute c text) (readAttribute source position) := by
  -- The name goes up to what ends it, and an equals sign may come behind blanks.
  have inName : c.utf8Size ≠ 1 → (!endsName c) = true := fun wide =>
    Bool.not_eq_true' _ |>.mpr (Bool.eq_false_iff.mpr fun ends => wide (narrow_of_endsName ends))
  have stop := Text.from?_skip_inside bytewise_not_endsName inName here
  have sign := Text.from?_skip Text.bytewise_isMarkupBlank stop
  have whole : c :: text = (c :: text.takeWhile (!endsName ·)) ++ text.dropWhile (!endsName ·) :=
    congrArg (c :: ·) List.takeWhile_append_dropWhile.symm
  rw [whole] at here
  have name := Text.between?_of_from? here stop
  have equals : peek source (skip Text.isMarkupBlank source
      (skip (!endsName ·) source (position + 1))) = some '=' ↔
        ((text.dropWhile (!endsName ·)).dropWhile Text.isMarkupBlank).head? = some '=' :=
    Text.peek_eq_some_iff rfl sign
  rw [readAttribute, Token.readAttribute_eq, name, Option.bind_eq_bind, Option.bind_some]
  split
  · rename_i after left
    rw [left] at sign equals
    have start := Text.from?_skip Text.bytewise_isMarkupBlank (Text.from?_succ rfl sign)
    have value := readValue_follows start
    rw [if_neg (not_not.mpr (equals.mpr rfl))]
    simp only [quoteAt_eq start]
    generalize (Token.readValue (after.dropWhile Text.isMarkupBlank)).2 = part at value ⊢
    generalize readValue source _ = result at value ⊢
    cases value with
    | read behind => exact .read behind
    | noTag => exact .noTag
    | cut => exact .cut
  · -- What comes behind the blanks belongs to the next attribute.
    rename_i noEquals
    have absent : peek source (skip Text.isMarkupBlank source
        (skip (!endsName ·) source (position + 1))) ≠ some '=' := by
      intro same
      obtain ⟨after, left⟩ := List.head?_eq_some_iff.mp (equals.mp same)
      exact noEquals after left
    rw [if_pos absent]
    exact .read stop

/-- The cursor reads the attributes of a tag. -/
theorem readAttributes_follows (fuel : Nat) (here : from? position source = some text) :
    Follows source (Token.readAttributes fuel text) (readAttributes source fuel position) := by
  induction fuel generalizing position text with
  | zero => exact .noTag
  | succ fuel ih =>
    -- Behind blanks the tag ends, or there is a slash to pass over, or an attribute.
    have start := Text.from?_skip Text.bytewise_isMarkupBlank here
    rw [readAttributes]
    cases left : text.dropWhile Text.isMarkupBlank with
    | nil =>
      rw [left] at start
      rw [Token.readAttributes, left, if_pos ((Text.peek_eq_none_iff start).mpr rfl)]
      exact .noTag
    | cons c rest =>
      rw [left] at start
      rw [if_neg (Text.peek_ne_none start)]
      by_cases bracket : c = '>'
      · subst bracket
        rw [Token.readAttributes, left, if_pos ((Text.peek_cons_iff rfl start).mpr rfl)]
        exact .read (Text.from?_succ rfl start)
      · rw [if_neg (mt (Text.peek_cons_iff rfl start).mp bracket)]
        by_cases slash : c = '/'
        · subst slash
          have behind := Text.from?_succ rfl start
          rw [if_pos ((Text.peek_cons_iff rfl start).mpr rfl)]
          by_cases ends : rest.head? = some '>'
          · obtain ⟨after, rfl⟩ := List.head?_eq_some_iff.mp ends
            rw [Token.readAttributes, left, if_pos ((Text.peek_cons_iff rfl behind).mpr rfl)]
            exact .read (Text.from?_succ rfl behind)
          · rw [Token.readAttributes_slash left ends,
              if_neg (mt (Text.peek_eq_some_iff rfl behind).mp ends)]
            exact ih behind
        · rw [Token.readAttributes_attribute left bracket slash,
            if_neg (mt (Text.peek_cons_iff rfl start).mp slash)]
          have one := readAttribute_follows start
          generalize Token.readAttribute c rest = part at one ⊢
          generalize readAttribute source _ = result at one ⊢
          cases one with
          | noTag => exact .noTag
          | cut => exact .cut
          | @read a after next behind =>
            have others := ih behind
            simp only [Option.bind_eq_bind, Option.bind_some]
            generalize Token.readAttributes fuel after = part at others ⊢
            generalize readAttributes source fuel next = result at others ⊢
            cases others with
            | read last => exact .read last
            | noTag => exact .noTag
            | cut => exact .cut

/-- The cursor reads a tag behind its opening bracket. -/
theorem readTag_follows (here : from? position source = some text) :
    Follows source (Token.readTag text) (readTag source position) := by
  have stop := Text.from?_skip bytewise_inTagName here
  have whole : text.takeWhile inTagName ++ text.dropWhile inTagName = text :=
    List.takeWhile_append_dropWhile
  have all := Text.bytes_of_from? stop
  rw [← whole] at here
  -- There are no more attributes than characters, and no more characters than bytes.
  have enough : (text.dropWhile inTagName).length < Text.bytes source + 1 := by
    have few := Text.length_le_bytes (text.dropWhile inTagName)
    omega
  have list := readAttributes_follows (Text.bytes source + 1) stop
  rw [Token.readAttributes_congr enough (Nat.lt_succ_self _)] at list
  rw [readTag, Token.readTag, Text.between?_of_from? here stop, Option.bind_eq_bind,
    Option.bind_some]
  generalize Token.readAttributes _ (text.dropWhile inTagName) = part at list ⊢
  generalize readAttributes source _ _ = result at list ⊢
  cases list with
  | read last => exact .read last
  | noTag => exact .noTag
  | cut => exact .cut

end Cursor

end Templates.Markup
