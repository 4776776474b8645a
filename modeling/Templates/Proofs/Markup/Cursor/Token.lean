import Templates.Markup.Import
import Templates.Proofs.Markup.Cursor.Tag

/-!
Markup is cut by a cursor that counts bytes.

The cursor takes slices to see which of the longer marks stands in front of it, and for all that is
kept of a source. It reads the document of a source exactly if no start tag exposes a value without
quotes.
-/

namespace Templates.Markup

open Text (from? between? upTo? find? peek skip Bytewise)
open Markup.Token (endsName inTagName)

namespace Cursor

/-- The text at a cursor, whose first byte counts as text in any case. -/
def plain (source : Text) (position : Nat) : Option (Token × Nat) := do
  let stop := skip (· ≠ '<') source (position + 1)
  return (.text (← between? position stop source), stop)

/-- The comment at a cursor, or text up to the end if it is never closed. -/
def comment (source : Text) (position : Nat) : Option (Token × Nat) := do
  let start := position + 4
  match find? "-->" (← from? start source) with
  | some width => return (.comment (← between? start (start + width) source), start + width + 3)
  | none => return (.text (← from? position source), Text.bytes source)

/-- The doctype at a cursor, or text up to the end if it is never closed. -/
def doctype (source : Text) (position : Nat) : Option (Token × Nat) := do
  match find? ">" (← from? position source) with
  | some width =>
    return (.doctype (← between? (position + 2) (position + width) source), position + width + 1)
  | none => return (.text (← from? position source), Text.bytes source)

/-- The end tag at a cursor. -/
def endTag (source : Text) (position : Nat) : Option (Token × Nat) := do
  let stop := skip inTagName source (position + 2)
  let name ← between? (position + 2) stop source
  match find? ">" (← from? stop source) with
  | some width => return (.endTag name, stop + width + 1)
  | none => return (.endTag name, Text.bytes source)

/-- Raw content from a cursor on, up to an end tag that begins with a mark in small letters. -/
def rawContent (closing source : Text) (position : Nat) : Option (Text × Nat) := do
  let rest ← from? position source
  match find? closing (Text.asciiLower rest) with
  | some width =>
    let after ← from? width rest
    let content ← upTo? width rest
    match find? ">" after with
    | some more => return (content, position + (width + (more + 1)))
    | none => return (content, position + (width + Text.bytes after))
  | none => return (rest, position + Text.bytes rest)

/-- The start tag at a cursor with its raw content, or text if there is none. -/
def startTag (source : Text) (position : Nat) : Option (Token × Nat) := do
  match ← readTag source (position + 1) with
  | none => plain source position
  | some (element, next) =>
    if !element.selfClosing && !isVoid element.name && isRaw element.name then
      let closing := "</".toList ++ Text.asciiLower element.name
      let (content, after) ← rawContent closing source next
      return (.startTag element (some content), after)
    else return (.startTag element none, next)

/-- The token at a cursor. -/
def token (source : Text) (position : Nat) : Option (Token × Nat) := do
  if ← startsAt "<!--" source position then comment source position
  else if (← startsAt "</" source position) && (peek source (position + 2)).any inTagName then
    endTag source position
  else if ← startsAt "<!" source position then doctype source position
  else if peek source position = some '<' && (peek source (position + 1)).any Char.isAlpha then
    startTag source position
  else plain source position

/-- The tokens from a cursor on; the first argument bounds their number. -/
def tokensFrom (source : Text) : Nat → Nat → Option (List Token)
  | 0, _ => none
  | fuel + 1, position =>
    if position < Text.bytes source then do
      let (token, next) ← token source position
      return token :: (← tokensFrom source fuel next)
    else some []

/-- The tokens of a source, which are no more than its bytes. -/
def tokens (source : Text) : Option (List Token) :=
  tokensFrom source (Text.bytes source + 1) 0

/-- The document of a source, unless a slice of the source cannot be taken. -/
def parse (source : Text) : Option Document :=
  (tokens source).map fun list => .ofForest (forestOf list)

/-! ### Each token -/

variable {source text inner : Text} {position : Nat} {c : Char}

/-- The token that a cursor reads is the next one of the text at it, and the cursor is then in front
of the same rest. It is stuck where the token cannot be told. -/
inductive Gives (source : Text) :
    Except MarkupError (Token × Text) → Option (Token × Nat) → Prop where
  | token {token : Token} {rest : Text} {next : Nat} :
    from? next source = some rest → Gives source (.ok (token, rest)) (some (token, next))
  | cut : Gives source (.error .cutCharacter) none

/-- The cursor reads text. -/
theorem plain_gives (here : from? position source = some (c :: text)) :
    Gives source (.ok (Token.plain c text)) (plain source position) := by
  -- The search begins at the second byte, which is inside of a character of several bytes.
  have passes : c.utf8Size ≠ 1 → decide (c ≠ '<') = true := by
    intro wide
    rw [decide_eq_true_iff]
    rintro rfl
    exact wide rfl
  have stop := Text.from?_skip_inside (Bytewise.ne rfl) passes here
  have whole : c :: text = (c :: text.takeWhile (· ≠ '<')) ++ text.dropWhile (· ≠ '<') :=
    congrArg (c :: ·) List.takeWhile_append_dropWhile.symm
  rw [whole] at here
  rw [plain, Text.between?_of_from? here stop]
  exact .token stop

/-- The cursor reads a comment. -/
theorem comment_gives (here : from? position source = some ("<!--".toList ++ inner)) :
    Gives source
      (match Text.cut? "-->" inner with
        | some (body, after) => .ok (.comment body, after)
        | none => .ok (.text ("<!--".toList ++ inner), []))
      (comment source position) := by
  have start : from? (position + 4) source = some inner := Text.from?_forward here
  rw [comment, start, Option.bind_eq_bind, Option.bind_some]
  cases cut : Text.cut? "-->".toList inner with
  | none =>
    rw [Text.find?_eq_none cut, here]
    exact .token (Text.from?_bytes source)
  | some parts =>
    obtain ⟨body, after⟩ := parts
    rw [Text.eq_of_cut? cut, List.append_assoc] at start
    have stop := Text.from?_forward start
    rw [Text.find?_of_cut? cut]
    simp only [Text.between?_of_from? start stop]
    exact .token (Text.from?_forward stop)

/-- The cursor reads a doctype. -/
theorem doctype_gives (here : from? position source = some ("<!".toList ++ inner)) :
    Gives source
      (match Text.cut? ">" inner with
        | some (body, after) => .ok (.doctype body, after)
        | none => .ok (.text ("<!".toList ++ inner), []))
      (doctype source position) := by
  have start : from? (position + 2) source = some inner := Text.from?_forward here
  -- The closing bracket is looked for from the opening one on.
  have ahead : Text.cut? ">".toList ("<!".toList ++ inner) =
      (Text.cut? ">".toList inner).map (Prod.map ("<!".toList ++ ·) id) := by
    change ((Text.cut? ">".toList inner).map _).map _ = _
    rw [Option.map_map]
    rfl
  rw [doctype, here, Option.bind_eq_bind, Option.bind_some]
  cases cut : Text.cut? ">".toList inner with
  | none =>
    rw [cut] at ahead
    rw [Text.find?_eq_none ahead]
    exact .token (Text.from?_bytes source)
  | some parts =>
    obtain ⟨body, after⟩ := parts
    rw [cut] at ahead
    rw [Text.eq_of_cut? cut, List.append_assoc] at start
    have stop := Text.from?_forward start
    have width : position + Text.bytes ("<!".toList ++ body) = position + 2 + Text.bytes body := by
      rw [Text.bytes_append, ← Nat.add_assoc]
      rfl
    rw [Text.find?_of_cut? ahead]
    simp only [width, Text.between?_of_from? start stop]
    exact .token (Text.from?_forward stop)

/-- What follows the next closing bracket is what a search for it leaves. -/
theorem behindBracket_eq (text : Text) :
    Token.behindBracket text = ((Text.cut? ">" text).map Prod.snd).getD [] := by
  induction text with
  | nil => rfl
  | cons c text ih =>
    by_cases bracket : c = '>'
    · subst bracket
      rfl
    · have missing : Text.strip? ">".toList (c :: text) = none := by
        simp [Text.strip?, Ne.symm bracket]
      rw [Text.cut?, missing, Option.map_map]
      rw [Token.behindBracket, List.dropWhile_cons, if_pos (by simpa using bracket)]
      exact ih

/-- The cursor reads an end tag. -/
theorem endTag_gives (here : from? position source = some ("</".toList ++ inner)) :
    Gives source
      (.ok (.endTag (inner.takeWhile inTagName),
        Token.behindBracket (inner.dropWhile inTagName)))
      (endTag source position) := by
  have start : from? (position + 2) source = some inner := Text.from?_forward here
  have stop := Text.from?_skip bytewise_inTagName start
  have whole : inner.takeWhile inTagName ++ inner.dropWhile inTagName = inner :=
    List.takeWhile_append_dropWhile
  rw [← whole] at start
  rw [endTag, Text.between?_of_from? start stop, stop, behindBracket_eq]
  simp only [Option.bind_eq_bind, Option.bind_some]
  cases cut : Text.cut? ">".toList (inner.dropWhile inTagName) with
  | none =>
    rw [Text.find?_eq_none cut]
    exact .token (Text.from?_bytes source)
  | some parts =>
    obtain ⟨front, after⟩ := parts
    rw [Text.eq_of_cut? cut, List.append_assoc] at stop
    rw [Text.find?_of_cut? cut]
    exact .token (Text.from?_forward (Text.from?_forward stop))

/-- A small letter has as many bytes as the capital one. -/
theorem utf8Size_toLower (c : Char) : c.toLower.utf8Size = c.utf8Size := by
  unfold Char.toLower
  split
  · -- Both letters are one byte.
    rename_i capital
    obtain ⟨above, below⟩ := capital
    simp only [ge_iff_le, UInt32.le_iff_toNat_le] at above below
    have lastCapital : 'Z'.val.toNat = 90 := rfl
    have shift : ('a'.val - 'A'.val).toNat = 32 := rfl
    have bound : (127 : UInt32).toNat = 127 := rfl
    have single : c.utf8Size = 1 := by
      rw [Char.utf8Size_eq_one_iff, UInt32.le_iff_toNat_le]
      omega
    rw [single, Char.utf8Size_eq_one_iff, UInt32.le_iff_toNat_le, UInt32.toNat_add]
    omega
  · rfl

/-- Lowering its letters changes no offset in a text. -/
theorem bytes_asciiLower (text : Text) : Text.bytes (Text.asciiLower text) = Text.bytes text := by
  induction text with
  | nil => rfl
  | cons c text ih =>
    have lowered : Text.asciiLower (c :: text) = c.toLower :: Text.asciiLower text := rfl
    rw [lowered, Text.bytes_cons, Text.bytes_cons, utf8Size_toLower, ih]

/-- The cursor reads raw content. -/
theorem rawContent_gives {closing : Text} (filled : closing ≠ [])
    (here : from? position source = some text) :
    ∃ next, rawContent closing source position =
        some ((Token.rawContent closing text).1, next) ∧
      from? next source = some (Token.rawContent closing text).2 := by
  rw [rawContent, here, Option.bind_eq_bind, Option.bind_some, Token.rawContent_eq filled]
  cases cut : Text.cut? closing (Text.asciiLower text) with
  | none =>
    rw [Text.find?_eq_none cut]
    refine ⟨_, rfl, ?_⟩
    rw [← Text.bytes_of_from? here]
    exact Text.from?_bytes source
  | some parts =>
    obtain ⟨front, back⟩ := parts
    -- The place in the lowered text is the one in the text itself.
    have width := bytes_asciiLower (text.take front.length)
    rw [Token.asciiLower_take cut] at width
    have split : text.take front.length ++ text.drop front.length = text :=
      List.take_append_drop _ _
    have begun := Text.upTo?_append (text.take front.length) (text.drop front.length)
    rw [split] at begun
    have behind : from? (Text.bytes (text.take front.length)) text =
        some (text.drop front.length) := Text.from?_eq_some_iff.mpr ⟨_, split.symm, rfl⟩
    have moved := (Text.from?_add here (Text.bytes (text.take front.length))).trans behind
    rw [Text.find?_of_cut? cut, width]
    simp only [begun, behind, Option.bind_some, behindBracket_eq]
    cases bracket : Text.cut? ">".toList (text.drop front.length) with
    | none =>
      rw [Text.find?_eq_none bracket]
      refine ⟨_, rfl, ?_⟩
      rw [← Nat.add_assoc, ← Text.bytes_of_from? moved]
      exact Text.from?_bytes source
    | some parts =>
      obtain ⟨more, after⟩ := parts
      rw [Text.find?_of_cut? bracket]
      refine ⟨_, rfl, ?_⟩
      rw [Text.eq_of_cut? bracket, List.append_assoc] at moved
      rw [← Nat.add_assoc, ← Nat.add_assoc]
      exact Text.from?_forward (Text.from?_forward moved)

/-- The cursor reads a start tag, or text where there is none. -/
theorem startTag_gives (letter : c.isAlpha = true)
    (here : from? position source = some ('<' :: c :: text)) :
    Gives source (Token.next '<' (c :: text)) (startTag source position) := by
  have tag := readTag_follows (Text.from?_succ rfl here)
  rw [Token.next_of_letter letter, startTag]
  generalize Token.readTag (c :: text) = part at tag ⊢
  generalize readTag source (position + 1) = result at tag ⊢
  cases tag with
  | noTag => exact plain_gives here
  | cut => exact .cut
  | @read element rest next behind =>
    simp only [Option.bind_eq_bind, Option.bind_some]
    split
    · obtain ⟨after, content, stop⟩ :=
        rawContent_gives (rawClosing_ne_nil element.name) behind
      rw [rawClosing] at content
      simp only [content, Option.bind_some]
      exact .token stop
    · exact .token behind

/-- What a cursor sees from a bracket on: whether a comment, an end tag, a doctype or a start tag
begins there. -/
theorem token_eq (here : from? position source = some ('<' :: text)) :
    token source position =
      if Text.startsWith "!--" text then comment source position
      else if Text.startsWith "/" text && (text.drop 1).head?.any inTagName then
        endTag source position
      else if Text.startsWith "!" text then doctype source position
      else if text.head?.any Char.isAlpha then startTag source position
      else plain source position := by
  have looks (mark : Text) :
      startsAt ('<' :: mark) source position = some (Text.startsWith mark text) := by
    rw [startsAt, here]
    rfl
  have comment : startsAt "<!--" source position = _ := looks "!--"
  have ending : startsAt "</" source position = _ := looks "/"
  have doctype : startsAt "<!" source position = _ := looks "!"
  have second := Text.from?_succ rfl here
  have third : Text.startsWith "/".toList text = true →
      (peek source (position + 2)).any inTagName = (text.drop 1).head?.any inTagName := by
    intro slash
    obtain ⟨rest, rfl⟩ := Text.startsWith_iff.mp slash
    exact Text.any_peek bytewise_inTagName (Text.from?_succ rfl second)
  rw [token, comment, ending, doctype, (Text.peek_cons_iff rfl here).mpr rfl,
    Text.any_peek bytewise_isAlpha second]
  -- The third byte matters only behind a slash.
  cases begins : Text.startsWith "/".toList text with
  | false => rfl
  | true =>
    rw [third begins]
    rfl

/-- The cursor reads the next token. -/
theorem token_gives (here : from? position source = some (c :: text)) :
    Gives source (Token.next c text) (token source position) := by
  by_cases bracket : c = '<'
  · -- The character behind the bracket tells what begins here.
    subst bracket
    rw [token_eq here]
    cases text with
    | nil => exact plain_gives here
    | cons d rest =>
      by_cases mark : d = '!'
      · subst mark
        by_cases hyphens : Text.startsWith "--".toList rest = true
        · obtain ⟨inner, rfl⟩ := Text.startsWith_iff.mp hyphens
          exact comment_gives here
        · -- Without two hyphens it is a doctype.
          have noComment : ∀ more, rest ≠ '-' :: '-' :: more := by
            rintro more rfl
            exact hyphens rfl
          have noMark : ¬Text.startsWith "!--".toList ('!' :: rest) = true := hyphens
          rw [if_neg noMark, Token.next]
          · exact doctype_gives here
          · exact noComment
      · have noComment : ¬Text.startsWith "!--".toList (d :: rest) = true := by
          simp [Text.startsWith, Text.strip?, Ne.symm mark]
        have noDoctype : ¬Text.startsWith "!".toList (d :: rest) = true := by
          simp [Text.startsWith, Text.strip?, Ne.symm mark]
        rw [if_neg noComment, if_neg noDoctype]
        by_cases slash : d = '/'
        · subst slash
          cases rest with
          | nil => exact plain_gives here
          | cons e more =>
            have seen : (Text.startsWith "/".toList ('/' :: e :: more) &&
                (('/' :: e :: more).drop 1).head?.any inTagName) = inTagName e := rfl
            rw [seen, Token.next]
            by_cases named : inTagName e = true
            · rw [if_pos named, if_pos named]
              exact endTag_gives here
            · rw [if_neg named, if_neg named]
              exact plain_gives here
        · have noEnd : Text.startsWith "/".toList (d :: rest) = false := by
            simp [Text.startsWith, Text.strip?, Ne.symm slash]
          have seen : (d :: rest).head?.any Char.isAlpha = d.isAlpha := rfl
          rw [noEnd, Bool.false_and, if_neg Bool.false_ne_true, seen]
          by_cases letter : d.isAlpha = true
          · rw [if_pos letter]
            exact startTag_gives letter here
          · rw [if_neg letter, Token.next_of_plain (Bool.eq_false_iff.mpr letter) slash mark]
            exact plain_gives here
  · -- Without a bracket none of the slices begins with a mark.
    have noMark (mark : Text) : startsAt ('<' :: mark) source position = some false := by
      rw [startsAt, here]
      simp [Text.startsWith, Text.strip?, Ne.symm bracket]
    have noComment : startsAt "<!--" source position = some false := noMark "!--"
    have noEnd : startsAt "</" source position = some false := noMark "/"
    have noDoctype : startsAt "<!" source position = some false := noMark "!"
    have noBracket : peek source position ≠ some '<' :=
      mt (Text.peek_cons_iff rfl here).mp bracket
    rw [Token.next_of_ne bracket, token, noComment, noEnd, noDoctype]
    simp only [Option.bind_eq_bind, Option.bind_some, noBracket]
    exact plain_gives here

/-- From each character on, the cursor reads the tokens of what is ahead. -/
theorem tokensFrom_eq {fuel : Nat} (here : from? position source = some text)
    (enough : Text.bytes text < fuel) :
    tokensFrom source fuel position = (Markup.tokens text).toOption := by
  -- Each round takes a token.
  induction fuel generalizing position text with
  | zero => omega
  | succ fuel ih =>
    have size := Text.bytes_of_from? here
    rw [tokensFrom]
    cases text with
    | nil =>
      rw [Text.bytes_nil] at size
      rw [if_neg (by omega)]
      rfl
    | cons c text =>
      have filled := c.utf8Size_pos
      rw [Text.bytes_cons] at size enough
      rw [if_pos (by omega)]
      have read := token_gives here
      generalize seen : token source position = result at read ⊢
      cases next : Token.next c text with
      | error error =>
        rw [next] at read
        cases read
        rw [Markup.tokens, Token.tokensFrom, next]
        rfl
      | ok pair =>
        obtain ⟨one, after⟩ := pair
        obtain ⟨front, rfl⟩ := Token.suffix_of_next next
        rw [next] at read
        cases read with
        | token behind =>
          rw [Text.bytes_append] at enough
          rw [Token.tokens_of_next next]
          simp only [Option.bind_eq_bind, Option.bind_some, ih behind (by omega)]
          cases Markup.tokens after <;> rfl

/-- The cursor reads the document of a source where its tokens can be told. -/
theorem parse_eq (source : Text) : Cursor.parse source = (Document.parse source).toOption := by
  rw [Cursor.parse, tokens, tokensFrom_eq (Text.from?_zero source) (Nat.lt_succ_self _),
    Document.parse, Markup.parse]
  cases Markup.tokens source <;> rfl

end Cursor

/-- There is a document for a source exactly if it cuts no character. -/
theorem Document.parse_eq_error_iff (source : Text) :
    Document.parse source = .error .cutCharacter ↔ CutsCharacter source := by
  rw [← @tokens_eq_error_iff source .cutCharacter, Document.parse, Markup.parse]
  cases Markup.tokens source with
  | ok list => simp [Except.map]
  | error error => exact ⟨fun _ => rfl, fun _ => rfl⟩

namespace Cursor

/-- With a cursor that counts bytes markup is read exactly if it cuts no character: each slice on
the way can then be taken, and the result is the document of the source. If a start tag has a value
without quotes that comes to a character of several bytes, a slice would begin inside that
character. -/
theorem parse_unless_cut (source : Text) :
    (Cursor.parse source = none ↔ CutsCharacter source) ∧
      (∀ d, Cursor.parse source = some d ↔
        ¬CutsCharacter source ∧ Document.parse source = .ok d) ∧
      (Document.parse source = .error .cutCharacter ↔ CutsCharacter source) := by
  have stuck := Document.parse_eq_error_iff source
  rw [parse_eq, ← stuck]
  cases Document.parse source with
  | ok d => simp [Except.toOption]
  | error error => simp [Except.toOption]

/-- A value without quotes that is a letter with an accent cannot be read: the slice at its second
byte cannot be taken. -/
theorem parse_bare_accent :
    Cursor.parse "<a x=é>" = none ∧ Document.parse "<a x=é>" = .error .cutCharacter :=
  ⟨rfl, rfl⟩

end Cursor

end Templates.Markup
