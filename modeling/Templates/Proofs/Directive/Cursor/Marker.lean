import Mathlib.Data.List.TakeWhile
import Templates.Proofs.Directive.Idle
import Templates.Proofs.Directive.Scan
import Templates.Proofs.Expr.Delimited
import Templates.Proofs.Text.Offset

/-!
Markers are found by a cursor that counts bytes.

The cursor takes slices for names and expressions, and counts open parentheses up and down to find
where an expression ends. No slice fails, and the count never has to fall below zero.
-/

namespace Templates

open Text (from? between? peek skip Bytewise octets octetsOf)
open Marker (startsName continuesName balance? isClear)
open Template (clearAfter clearAfter_append)

namespace Directives.Cursor

/-! ### The cursor -/

/-- A marker with the offsets of its first byte and of the byte behind it. -/
abbrev Span := Marker × Nat × Nat

/-- The offset of the parenthesis that closes all open ones, of which there are as many as the first
argument says, from a cursor on with the bytes ahead of it; no answer is given when the count would
fall below zero. A backslash in quotes passes over one more byte. -/
def closeFrom : Nat → Option Char → Nat → List Char → Option (Option Nat)
  | _, _, _, [] => some none
  | depth, some quote, position, '\\' :: _ :: rest =>
    closeFrom depth (some quote) (position + 2) rest
  | depth, some quote, position, byte :: rest =>
    closeFrom depth (if byte = quote then none else some quote) (position + 1) rest
  | depth, none, position, byte :: rest =>
    if byte = '"' ∨ byte = '\'' then closeFrom depth (some byte) (position + 1) rest
    else if byte = '(' then closeFrom (depth + 1) none (position + 1) rest
    else if byte = ')' then
      if depth = 0 then none
      else if depth = 1 then some (some position)
      else closeFrom (depth - 1) none (position + 1) rest
    else closeFrom depth none (position + 1) rest

/-- The end of the marker whose name ends at an offset, and its expression. -/
def expressionAt (source : Text) (position : Nat) : Option (Nat × Option Text) :=
  if peek source position = some '(' then do
    match ← closeFrom 0 none position ((octets source).drop position) with
    | none => return (position, none)
    | some close => return (close + 1, some (Text.trim (← between? (position + 1) close source)))
  else some (position, none)

/-- The marker whose at sign stands at an offset. -/
def markerAt (source : Text) (position : Nat) : Option Span := do
  let behind := skip continuesName source (position + 1)
  let name ← between? (position + 1) behind source
  let (stop, expression) ← expressionAt source behind
  let raw ← between? position stop source
  let leading := position = 0 || (peek source (position - 1)).any Text.isMarkupBlank
  let trailing := (peek source stop).all Text.isMarkupBlank
  return (⟨name, expression, leading, trailing, raw⟩, position, stop)

/-- The markers from a cursor on; the first argument bounds the number of at signs. -/
def markersFrom (source : Text) : Nat → Nat → Option (List Span)
  | 0, _ => none
  | fuel + 1, cursor =>
    let position := skip (· ≠ '@') source cursor
    if peek source position = none then some []
    else if (peek source (position + 1)).any startsName then do
      let marker ← markerAt source position
      return marker :: (← markersFrom source fuel marker.2.2)
    else markersFrom source fuel (position + 1)

/-- The markers of a source, which has fewer at signs than characters and one more. -/
def markers (source : Text) : Option (List Span) :=
  markersFrom source (source.length + 1) 0

/-! ### Parentheses -/

variable {source text rest : Text} {position depth : Nat}

/-- As long as a parenthesis is open, the count does not fall below zero. -/
theorem isSome_closeFrom (opened : 0 < depth) (quote : Option Char) (position : Nat)
    (bytes : List Char) : (closeFrom depth quote position bytes).isSome = true := by
  fun_induction closeFrom depth quote position bytes with
  | case1 | case7 => rfl
  | case2 _ _ _ _ _ ih | case3 _ _ _ _ _ _ ih | case4 _ _ _ _ _ ih => exact ih opened
  | case5 depth _ _ _ ih => exact ih (Nat.succ_pos depth)
  | case6 => exact absurd opened (Nat.lt_irrefl 0)
  | case8 depth _ _ _ _ filled more ih => exact ih (by omega)
  | case9 _ _ _ _ _ _ _ ih => exact ih opened

/-- The bytes of a character of several are passed over. -/
theorem closeFrom_wide {quote : Option Char} (isQuote : ∀ q ∈ quote, IsQuote q) {bytes : List Char}
    (wide : ∀ d ∈ bytes, d.utf8Size ≠ 1) (depth position : Nat) (rest : List Char) :
    closeFrom depth quote position (bytes ++ rest) =
      closeFrom depth quote (position + bytes.length) rest := by
  -- All characters that are looked for have one byte.
  induction bytes generalizing position with
  | nil => rfl
  | cons d bytes ih =>
    obtain ⟨first, others⟩ := List.forall_mem_cons.mp wide
    have differs {c : Char} (narrow : c.utf8Size = 1) : d ≠ c := fun same => first (same ▸ narrow)
    have place : position + (d :: bytes).length = position + 1 + bytes.length := by
      rw [List.length_cons]
      omega
    rw [List.cons_append, place, ← ih others]
    cases quote with
    | none =>
      rw [closeFrom, if_neg (not_or.mpr ⟨differs rfl, differs rfl⟩), if_neg (differs rfl),
        if_neg (differs rfl)]
    | some quote =>
      rw [closeFrom, if_neg (differs (narrow_of_isQuote (isQuote quote rfl)))]
      exact fun _ _ same _ => absurd same (differs rfl)

/-- The bytes of any character but the first one are passed over. -/
theorem closeFrom_others {quote c first : Char} {more : List Char} (isQuote : IsQuote quote)
    (bytes : octetsOf c = first :: more) (depth position : Nat) (rest : List Char) :
    closeFrom depth (some quote) position (more ++ rest) =
      closeFrom depth (some quote) (position + more.length) rest := by
  by_cases narrow : c.utf8Size = 1
  · rw [Text.octetsOf_narrow narrow] at bytes
    obtain ⟨-, rfl⟩ := List.cons.inj bytes
    rfl
  · refine closeFrom_wide (fun q same => Option.some.inj same ▸ isQuote) (fun d member => ?_) ..
    exact Text.wide_of_mem_octetsOf narrow (bytes ▸ List.mem_cons_of_mem _ member)

/-- A byte outside of quotes that does not end the search opens or closes a parenthesis, begins a
quoted part, or is passed over. -/
theorem closeFrom_outside {byte : Char} (goesOn : ¬(byte = ')' ∧ depth ≤ 1)) (position : Nat)
    (rest : List Char) :
    closeFrom depth none position (byte :: rest) =
      closeFrom (if byte = '(' then depth + 1 else if byte = ')' then depth - 1 else depth)
        (if byte = '"' ∨ byte = '\'' then some byte else none) (position + 1) rest := by
  rw [closeFrom]
  by_cases marks : byte = '"' ∨ byte = '\''
  · -- No quote is a parenthesis.
    have noOpen : byte ≠ '(' := by rintro rfl; simp at marks
    have noClose : byte ≠ ')' := by rintro rfl; simp at marks
    rw [if_pos marks, if_pos marks, if_neg noOpen, if_neg noClose]
  · rw [if_neg marks, if_neg marks]
    by_cases isOpen : byte = '('
    · rw [if_pos isOpen, if_pos isOpen]
    · rw [if_neg isOpen, if_neg isOpen]
      by_cases closes : byte = ')'
      · -- Another parenthesis is still open.
        have more := not_and.mp goesOn closes
        rw [if_pos closes, if_pos closes, if_neg (show ¬depth = 0 by omega),
          if_neg (show ¬depth = 1 by omega)]
      · rw [if_neg closes, if_neg closes]

/-- Where the parenthesis stands that a search finds, from a cursor on. -/
def closeOf (position : Nat) (found : Option (Text × Text)) : Option Nat :=
  found.map fun (inner, _) => position + Text.bytes inner

/-- Characters in front of what a search finds move it. -/
theorem closeOf_append (position : Nat) (front : Text) (found : Option (Text × Text)) :
    closeOf position (found.map fun (inner, after) => (front ++ inner, after)) =
      closeOf (position + Text.bytes front) found := by
  cases found <;> simp [closeOf, Nat.add_assoc]

/-- The cursor finds the closing parenthesis where the search does. -/
theorem closeFrom_eq {quote : Option Char} (opened : 0 < depth) (isQuote : ∀ q ∈ quote, IsQuote q)
    (position : Nat) (text : Text) :
    closeFrom depth quote position (octets text) =
      some (closeOf position (balance? depth quote text)) := by
  -- The search takes a character at a time, and the cursor all of its bytes.
  fun_induction balance? depth quote text generalizing position with
  | case1 depth quote c rest ih =>
    -- The cursor lands behind the first byte of the character that the backslash takes.
    obtain ⟨first, more, bytes, size⟩ := Text.octetsOf_eq_cons c
    have place : position + Text.bytes ['\\', c] = position + 2 + more.length := by
      simp [← size, show '\\'.utf8Size = 1 from rfl]
      omega
    refine Eq.trans ?_ (congrArg some (closeOf_append position ['\\', c] _).symm)
    rw [← ih opened isQuote, place, Text.octets_cons, Text.octets_cons, bytes,
      Text.octetsOf_narrow (c := '\\') rfl, List.singleton_append, List.cons_append, closeFrom,
      closeFrom_others (isQuote quote rfl) bytes]
  | case2 depth quote c rest noEscape ih =>
    have quoted := isQuote quote rfl
    have stays : ∀ q ∈ (if c = quote then none else some quote), IsQuote q := by
      intro q same
      split at same
      · cases same
      · exact isQuote q same
    refine Eq.trans ?_ (congrArg some (closeOf_append position [c] _).symm)
    rw [← ih opened stays, Text.octets_cons, Text.bytes_cons, Text.bytes_nil, Nat.add_zero]
    by_cases narrow : c.utf8Size = 1
    · rw [Text.octetsOf_narrow narrow, List.singleton_append, closeFrom, narrow]
      -- A backslash is the last character here.
      intro byte behind isEscape listed
      cases rest with
      | nil => cases listed
      | cons d rest => exact noEscape d rest isEscape rfl
    · have differs : c ≠ quote := by
        rintro rfl
        exact narrow (narrow_of_isQuote quoted)
      rw [closeFrom_wide isQuote (fun d => Text.wide_of_mem_octetsOf narrow), if_neg differs,
        Text.length_octetsOf]
  | case3 depth c rest closes =>
    obtain ⟨rfl, few⟩ := closes
    obtain rfl : depth = 1 := by omega
    rw [Text.octets_cons, Text.octetsOf_narrow (c := ')') rfl]
    rfl
  | case4 depth c rest goesOn inner quote ih =>
    have stillOpened : 0 < inner := by
      simp only [inner]
      split
      · omega
      · split
        · rename_i closes
          have := not_and.mp goesOn closes
          omega
        · exact opened
    have stays : ∀ q ∈ quote, IsQuote q := by
      intro q same
      simp only [quote] at same
      split at same
      · rename_i marks
        exact Option.some.inj same ▸ marks
      · cases same
    refine Eq.trans ?_ (congrArg some (closeOf_append position [c] _).symm)
    rw [← ih stillOpened stays, Text.octets_cons, Text.bytes_cons, Text.bytes_nil, Nat.add_zero]
    by_cases narrow : c.utf8Size = 1
    · rw [Text.octetsOf_narrow narrow, List.singleton_append, closeFrom_outside goesOn, narrow]
    · have differs {d : Char} (one : d.utf8Size = 1) : c ≠ d := fun same => narrow (same ▸ one)
      have noQuote : ¬(c = '"' ∨ c = '\'') := not_or.mpr ⟨differs rfl, differs rfl⟩
      have noOpen : c ≠ '(' := differs rfl
      have noClose : c ≠ ')' := differs rfl
      simp only [inner, quote, if_neg noQuote, if_neg noOpen, if_neg noClose]
      rw [closeFrom_wide (by simp) (fun d => Text.wide_of_mem_octetsOf narrow),
        Text.length_octetsOf]
  | case5 => rfl

/-- The count begins with the parenthesis that the cursor stands at. -/
theorem closeFrom_opening (position : Nat) (rest : Text) :
    closeFrom 0 none position (octets ('(' :: rest)) =
      some (closeOf (position + 1) (balance? 1 none rest)) := by
  rw [Text.octets_cons, Text.octetsOf_narrow (c := '(') rfl, List.singleton_append,
    closeFrom_outside (by decide)]
  exact closeFrom_eq Nat.one_pos (by simp) (position + 1) rest

/-! ### Markers -/

variable {front text after : Text} {inner : Text}

/-- An expression in parentheses that are closed ends behind them. -/
theorem expressionAt_closed (here : from? position source = some ('(' :: rest))
    (closed : balance? 1 none rest = some (inner, after)) :
    ∃ stop, expressionAt source position = some (stop, some (Text.trim inner)) ∧
      from? stop source = some after := by
  have opens : peek source position = some '(' := (Text.peek_cons_iff rfl here).mpr rfl
  have inside := Text.from?_succ rfl here
  rw [Marker.eq_of_balance? closed] at inside
  have closing : from? (position + 1 + Text.bytes inner) source = some (')' :: after) :=
    Text.from?_forward inside
  refine ⟨position + 1 + Text.bytes inner + 1, ?_, Text.from?_succ rfl closing⟩
  rw [expressionAt, if_pos opens, Text.drop_octets here, closeFrom_opening, closed]
  simp [closeOf, Text.between?_of_from? inside closing]

/-- A parenthesis that is never closed begins no expression. -/
theorem expressionAt_unclosed (here : from? position source = some ('(' :: rest))
    (unclosed : balance? 1 none rest = none) :
    expressionAt source position = some (position, none) := by
  have opens : peek source position = some '(' := (Text.peek_cons_iff rfl here).mpr rfl
  rw [expressionAt, if_pos opens, Text.drop_octets here, closeFrom_opening, unclosed]
  rfl

/-- Without a parenthesis there is no expression. -/
theorem expressionAt_bare (here : from? position source = some text)
    (bare : text.head? ≠ some '(') : expressionAt source position = some (position, none) := by
  rw [expressionAt, if_neg (mt (Text.peek_eq_some_iff rfl here).mp bare)]

/-- Whether a blank or nothing follows is told by the byte under the cursor. -/
theorem trailing_eq (here : from? position source = some text) :
    (peek source position).all Text.isMarkupBlank = isClear text := by
  rw [Text.all_peek Text.bytewise_isMarkupBlank here]
  cases text <;> rfl

/-- Whether a blank or nothing stands in front is told by the byte in front of the cursor. -/
theorem leading_eq (front rest : Text) :
    (Text.bytes front = 0 ||
      (peek (front ++ rest) (Text.bytes front - 1)).any Text.isMarkupBlank) =
      clearAfter true front := by
  obtain rfl | ⟨before, c, rfl⟩ := List.eq_nil_or_concat front
  · rfl
  · have here : from? (Text.bytes before) (before ++ [c] ++ rest) = some (c :: rest) :=
      Text.from?_eq_some_iff.mpr ⟨before, by simp, rfl⟩
    have filled := c.utf8Size_pos
    have last := Text.any_peek_last Text.bytewise_isMarkupBlank here
    have size : Text.bytes (before ++ [c]) = Text.bytes before + c.utf8Size := by simp
    rw [List.concat_eq_append, clearAfter_append, size, last]
    simp [clearAfter]
    omega

/-- Characters of names are told from others by bytes. -/
theorem bytewise_continuesName : Bytewise continuesName := by
  refine .of_narrow fun c inName => ?_
  simp only [continuesName, Bool.or_eq_true, decide_eq_true_eq] at inName
  obtain (plain | rfl) | rfl := inName
  · exact (Lexer.printing_of_isAlphanum plain).utf8Size
  all_goals rfl

/-- Characters that names begin with are told from others by bytes. -/
theorem bytewise_startsName : Bytewise startsName := by
  refine .of_narrow fun c inName => ?_
  simp only [startsName, Bool.or_eq_true, decide_eq_true_eq] at inName
  obtain letter | rfl := inName
  · exact (Lexer.printing_of_isAlpha letter).utf8Size
  · rfl

/-- The cursor reads the marker of a name if it comes to the same end. -/
theorem markerAt_of {front text after : Text} {marker : Marker} {stop : Nat}
    (named : marker.name = text.takeWhile continuesName)
    (told : expressionAt (front ++ '@' :: text)
      (skip continuesName (front ++ '@' :: text) (Text.bytes front + 1)) =
        some (stop, marker.expression))
    (ends : from? stop (front ++ '@' :: text) = some after)
    (whole : marker.raw ++ after = '@' :: text) (leading : marker.leading = clearAfter true front)
    (trailing : marker.trailing = isClear after) :
    markerAt (front ++ '@' :: text) (Text.bytes front) =
      some (marker, Text.bytes front, Text.bytes front + Text.bytes marker.raw) := by
  have here : from? (Text.bytes front) (front ++ '@' :: text) = some ('@' :: text) :=
    Text.from?_eq_some_iff.mpr ⟨front, rfl, rfl⟩
  have second := Text.from?_succ rfl here
  have parts : text.takeWhile continuesName ++ text.dropWhile continuesName = text :=
    List.takeWhile_append_dropWhile
  have name := Text.between?_of_from? (by rwa [parts])
    (Text.from?_skip bytewise_continuesName second)
  have begins : from? (Text.bytes front) (front ++ '@' :: text) = some (marker.raw ++ after) := by
    rw [here, whole]
  have raw := Text.between?_of_from? begins ends
  -- What is left behind the marker tells how far it goes.
  have place : stop = Text.bytes front + Text.bytes marker.raw := by
    have first := Text.bytes_of_from? begins
    have last := Text.bytes_of_from? ends
    rw [Text.bytes_append marker.raw] at first
    omega
  simp only [markerAt, name, told, Option.bind_eq_bind, Option.bind_some, raw, trailing_eq ends,
    leading_eq, ← named, ← leading, ← trailing, ← place]
  rfl

/-- The cursor reads the marker at an at sign as it is read off the text. -/
theorem markerAt_eq (front text : Text) :
    markerAt (front ++ '@' :: text) (Text.bytes front) =
      some ((Marker.read (clearAfter true front) text).1, Text.bytes front,
        Text.bytes front + Text.bytes (Marker.read (clearAfter true front) text).1.raw) := by
  have here : from? (Text.bytes front) (front ++ '@' :: text) = some ('@' :: text) :=
    Text.from?_eq_some_iff.mpr ⟨front, rfl, rfl⟩
  have behind := Text.from?_skip bytewise_continuesName (Text.from?_succ rfl here)
  have whole := Marker.raw_read (clearAfter true front) text
  revert whole
  fun_cases Marker.read (clearAfter true front) text with
  | case1 name after rest opens inner after closed =>
    intro whole
    rw [show text.dropWhile continuesName = '(' :: rest from opens] at behind
    obtain ⟨stop, told, ends⟩ := expressionAt_closed behind closed
    exact markerAt_of rfl told ends whole rfl rfl
  | case2 name after rest opens unclosed =>
    intro whole
    have opening : text.dropWhile continuesName = '(' :: rest := opens
    -- The parenthesis behind the name is no blank.
    have blocked : isClear (text.dropWhile continuesName) = false := by
      rw [opening]
      rfl
    have told := expressionAt_unclosed (by rwa [opening] at behind) unclosed
    exact markerAt_of rfl told behind whole rfl blocked.symm
  | case3 name after bare =>
    intro whole
    refine markerAt_of rfl (expressionAt_bare behind fun opens => ?_) behind whole rfl rfl
    obtain ⟨rest, opens⟩ := List.head?_eq_some_iff.mp opens
    exact bare rest opens

/-- Characters outside of markers move the markers behind them. -/
theorem spans_plain (offset : Nat) (content : Text) (marks : List Mark) :
    Mark.spans offset (content.map .plain ++ marks) =
      Mark.spans (offset + Text.bytes content) marks := by
  induction content generalizing offset with
  | nil => rfl
  | cons c content ih =>
    rw [List.map_cons, List.cons_append, Mark.spans, ih, Text.bytes_cons, Nat.add_assoc]

/-- A text has an at sign, with none in front of it, or none at all. -/
theorem exists_plain (text : Text) :
    ∃ plain tail, text = plain ++ tail ∧ '@' ∉ plain ∧
      (tail = [] ∨ ∃ rest, tail = '@' :: rest) := by
  refine ⟨text.takeWhile (· ≠ '@'), text.dropWhile (· ≠ '@'), List.takeWhile_append_dropWhile.symm,
    fun member => by simpa using List.mem_takeWhile_imp member, ?_⟩
  cases behind : text.dropWhile (· ≠ '@') with
  | nil => exact .inl rfl
  | cons c rest =>
    have stops := List.head?_dropWhile_not (· ≠ '@') text
    rw [behind] at stops
    exact .inr ⟨rest, by simpa using stops⟩

/-- The cursor moves on to the next at sign or to the end. -/
theorem skip_plain {plain tail : Text} (noAt : '@' ∉ plain)
    (next : tail = [] ∨ ∃ rest, tail = '@' :: rest) (front : Text) :
    skip (· ≠ '@') (front ++ (plain ++ tail)) (Text.bytes front) = Text.bytes (front ++ plain) := by
  have here : from? (Text.bytes front) (front ++ (plain ++ tail)) = some (plain ++ tail) :=
    Text.from?_eq_some_iff.mpr ⟨front, rfl, rfl⟩
  have others : ∀ c ∈ plain, decide (c ≠ '@') = true := fun c member =>
    decide_eq_true fun same => noAt (same ▸ member)
  have stops : tail.takeWhile (· ≠ '@') = [] := by
    obtain rfl | ⟨rest, rfl⟩ := next
    · rfl
    · simp
  rw [skip, Text.drop_octets here, (Bytewise.ne rfl).takeWhile, Text.length_octets,
    List.takeWhile_append_of_pos others, stops, List.append_nil, Text.bytes_append]

/-- From a cursor on the markers are found that a scan of the rest of the source finds. -/
theorem markersFrom_eq {fuel : Nat} (front rest : Text) (enough : rest.length < fuel) :
    markersFrom (front ++ rest) fuel (Text.bytes front) =
      some (Mark.spans (Text.bytes front) (Mark.scanFrom (clearAfter true front) 0 rest)) := by
  -- The cursor goes to the next at sign, and behind it or behind the marker there.
  induction fuel generalizing front rest with
  | zero => exact absurd enough (Nat.not_lt_zero _)
  | succ fuel ih =>
    obtain ⟨plain, tail, rfl, noAt, next⟩ := exists_plain rest
    have place := skip_plain noAt next front
    rw [Mark.scanFrom_plain noAt, spans_plain, ← clearAfter_append, ← Text.bytes_append]
    rw [markersFrom, place, ← List.append_assoc]
    generalize front ++ plain = front
    have here : from? (Text.bytes front) (front ++ tail) = some tail :=
      Text.from?_eq_some_iff.mpr ⟨front, rfl, rfl⟩
    obtain rfl | ⟨rest, rfl⟩ := next
    · rw [if_pos ((Text.peek_eq_none_iff here).mpr rfl)]
      rfl
    · have second := Text.from?_succ rfl here
      rw [List.length_append, List.length_cons] at enough
      rw [if_neg (Text.peek_ne_none here), Text.any_peek bytewise_startsName second]
      by_cases starts : rest.head?.any startsName = true
      · -- The marker is the at sign with what follows it up to the rest behind the marker.
        cases found : Marker.read (clearAfter true front) rest with
        | mk marker after =>
          have whole := Marker.raw_read (clearAfter true front) rest
          have head := Marker.head_raw_read (clearAfter true front) rest
          have here := markerAt_eq front rest
          rw [found] at whole head here
          obtain ⟨body, raw⟩ := List.head?_eq_some_iff.mp head
          have behind : clearAfter true (front ++ marker.raw) = clearAfter false body := by
            rw [raw, clearAfter_append]
            rfl
          obtain rfl : body ++ after = rest := by
            rw [raw] at whole
            exact (List.cons.inj whole).2
          have moved := ih (front ++ marker.raw) after (by rw [List.length_append] at enough; omega)
          rw [List.append_assoc, whole, behind, Text.bytes_append] at moved
          rw [if_pos starts, here, Mark.scanFrom_marker starts found, Mark.spans]
          simp only [Option.bind_eq_bind, Option.bind_some, moved]
          rfl
      · have moved := ih (front ++ ['@']) rest (by omega)
        have behind : clearAfter true (front ++ ['@']) = false := by
          rw [clearAfter_append]
          rfl
        rw [List.append_assoc, List.singleton_append, behind, Text.bytes_append] at moved
        rw [if_neg starts, Mark.scanFrom, if_neg (fun both => starts both.2), Mark.spans]
        exact moved

/-- The markers of a source are those that a scan finds, and no slice fails on the way. -/
theorem markers_eq (source : Text) :
    markers source = some (Mark.spans 0 (Mark.scan source)) :=
  markersFrom_eq [] source (Nat.lt_succ_self source.length)

/-- A marker stands where the marks in front of it end. -/
theorem exists_of_mem_spans {offset start stop : Nat} {marker : Marker} {marks : List Mark}
    (listed : (marker, start, stop) ∈ Mark.spans offset marks) :
    ∃ before after, marks = before ++ .marker marker :: after ∧
      start = offset + Text.bytes (Mark.text before) ∧ stop = start + Text.bytes marker.raw := by
  induction marks generalizing offset with
  | nil => cases listed
  | cons mark marks ih =>
    cases mark with
    | plain c =>
      obtain ⟨before, after, rfl, rfl, rfl⟩ := ih listed
      exact ⟨.plain c :: before, after, rfl, by simp [Mark.text, Mark.raw, Nat.add_assoc], rfl⟩
    | marker m =>
      rcases List.mem_cons.mp listed with same | later
      · cases same
        exact ⟨[], marks, rfl, rfl, rfl⟩
      · obtain ⟨before, after, rfl, rfl, rfl⟩ := ih later
        exact ⟨.marker m :: before, after, rfl, by simp [Mark.text, Mark.raw, Nat.add_assoc], rfl⟩

/-- Every marker among the marks has its place. -/
theorem exists_mem_spans {marker : Marker} {marks : List Mark} (listed : .marker marker ∈ marks)
    (offset : Nat) : ∃ start stop, (marker, start, stop) ∈ Mark.spans offset marks := by
  induction marks generalizing offset with
  | nil => cases listed
  | cons mark marks ih =>
    cases mark with
    | plain c => exact ih (by simpa using listed) _
    | marker m =>
      rcases List.mem_cons.mp listed with same | later
      · obtain rfl := Mark.marker.inj same
        exact ⟨_, _, List.mem_cons_self⟩
      · obtain ⟨start, stop, found⟩ := ih later (offset + Text.bytes m.raw)
        exact ⟨start, stop, List.mem_cons_of_mem _ found⟩

/-- Every marker ends before the next one begins. -/
theorem pairwise_spans (offset : Nat) (marks : List Mark) :
    (Mark.spans offset marks).Pairwise fun (_, _, stop) (_, start, _) => stop ≤ start := by
  induction marks generalizing offset with
  | nil => exact .nil
  | cons mark marks ih =>
    cases mark with
    | plain c => exact ih _
    | marker m =>
      refine .cons (fun (_, start, _) listed => ?_) (ih _)
      obtain ⟨before, after, -, rfl, -⟩ := exists_of_mem_spans listed
      exact Nat.le_add_right _ _

/-- A marker of a source is a slice of it that begins with an at sign. -/
theorem slice_of_mem_spans {start stop : Nat} {marker : Marker}
    (listed : (marker, start, stop) ∈ Mark.spans 0 (Mark.scan source)) :
    marker.raw.head? = some '@' ∧
      ∃ rest, from? start source = some (marker.raw ++ rest) ∧ from? stop source = some rest := by
  obtain ⟨before, after, marks, begun, ended⟩ := exists_of_mem_spans listed
  have marked : .marker marker ∈ Mark.scan source := by simp [marks]
  have whole : source = Mark.text before ++ (marker.raw ++ Mark.text after) := by
    rw [← Mark.text_scan source, marks]
    simp [Mark.text, Mark.raw]
  have here : from? start source = some (marker.raw ++ Mark.text after) := by
    rw [begun, Nat.zero_add]
    exact Text.from?_eq_some_iff.mpr ⟨_, whole, rfl⟩
  refine ⟨Mark.head_raw_of_mem_scanFrom marked, Mark.text after, here, ?_⟩
  rw [ended]
  exact Text.from?_forward here

end Directives.Cursor

end Templates
