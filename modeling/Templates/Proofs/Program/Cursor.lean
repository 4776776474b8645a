import Mathlib.Data.List.TakeWhile
import Templates.Program.Parser
import Templates.Proofs.Program.Pieces
import Templates.Proofs.Text.Offset

/-!
Artifacts are cut by a cursor that counts bytes.

The cursor looks for the end of a tag at every byte outside quotes, where each look takes a slice.
All slices can be taken unless a tag that is no comment holds a character of several bytes outside
quotes, and then the one inside this character cannot.
-/

namespace Templates

/-! ### The cursor -/

namespace Cursor

/-- The offset of the end of a tag, from a cursor on with the bytes ahead of it; no answer is given
when a slice cannot be taken. A backslash in quotes passes over one more byte. -/
def closeFrom (source : Text) : Option Char → Nat → List Char → Option (Option Nat)
  | _, _, [] => some none
  | some quote, position, '\\' :: _ :: rest => closeFrom source (some quote) (position + 2) rest
  | some quote, position, byte :: rest =>
    closeFrom source (if byte = quote then none else some quote) (position + 1) rest
  | none, position, byte :: rest =>
    if byte = '"' || byte = '\'' then closeFrom source (some byte) (position + 1) rest
    else
      match Text.from? position source with
      | none => none
      | some ahead =>
        if Text.startsWith "%>" ahead then some (some position)
        else closeFrom source none (position + 1) rest

/-- The offset of the end of the tag whose body begins at an offset. -/
def tagClose (source : Text) (start : Nat) : Option (Option Nat) := do
  let body ← Text.from? start source
  if Text.startsWith "#" body then return (Text.find? "%>" body).map (start + ·)
  else closeFrom source none start ((Text.octets source).drop start)

/-- The offset of the first blank. -/
def findBlank? (text : Text) : Option Nat :=
  if text.any Text.isBlank then some (Text.bytes (text.takeWhile (!Text.isBlank ·))) else none

/-- The first word of a text and what follows it, cut at the first blank. -/
def firstWord (text : Text) : Option (Text × Text) :=
  match findBlank? text with
  | none => some (text, [])
  | some split => do
    let word ← Text.upTo? split text
    let rest ← Text.from? split text
    return (word, Text.trimStart rest)

/-- The statement in the body of a tag. -/
def statement (start : Nat) (body : Text) : Option Tag := do
  let led := Text.trimStart body
  let position := start + (Text.bytes body - Text.bytes led)
  let trimmed := Text.trimEnd led
  let (keyword, rest) ← firstWord trimmed
  return ⟨keyword, position, rest, position + (Text.bytes trimmed - Text.bytes rest)⟩

/-- The segment a tag stands for, which is none for a comment. -/
def ofBody (start : Nat) : Text → Option (List Segment)
  | '=' :: source => some [.echo source (start + 1) true]
  | '-' :: source => some [.echo source (start + 1) false]
  | '#' :: _ => some []
  | body => do
    let tag ← statement start body
    return [.statement tag]

/-- The text between two offsets, which is no segment when it is empty. -/
def textBetween (source : Text) (start stop : Nat) : Option (List Segment) :=
  if start < stop then do
    let content ← Text.between? start stop source
    return [.text content]
  else some []

/-- The segments from a cursor on; the first argument bounds the number of tags. -/
def segmentsFrom (source : Text) : Nat → Nat → Option (Except TagError (List Segment))
  | 0, _ => none
  | fuel + 1, cursor => do
    let ahead ← Text.from? cursor source
    match Text.find? "<%" ahead with
    | none => return .ok (← textBetween source cursor (Text.bytes source))
    | some offset =>
      let opening := cursor + offset
      let front ← textBetween source cursor opening
      match ← tagClose source (opening + 2) with
      | none => return .error (.unterminated opening)
      | some close =>
        let body ← Text.between? (opening + 2) close source
        let tag ← ofBody (opening + 2) body
        match ← segmentsFrom source fuel (close + 2) with
        | .ok segments => return .ok (front ++ (tag ++ segments))
        | .error error => return .error error

/-- The segments of an artifact, which has fewer tags than bytes. -/
def segments (artifact : Text) : Option (Except TagError (List Segment)) :=
  segmentsFrom artifact (Text.bytes artifact + 1) 0

/-- The program an artifact holds, unless a slice of the artifact cannot be taken. -/
def read (artifact : Text) : Option (Except ProgramError Program) := do
  let segments ← segments artifact
  return do (← Builder.start.run (← segments.mapError .tags)).finish

/-! ### Every slice that the cursor takes -/

variable {source text : Text} {position : Nat}

/-- What the search for the end of a tag tells a cursor at the start of the body. -/
def closeOf (start : Nat) : TagEnd → Option (Option Nat)
  | .found body _ => some (some (start + Text.bytes body))
  | .missing => some none
  | .cut => none

/-- A character in front of a body moves its start. -/
theorem closeOf_cons (start : Nat) (c : Char) (found : TagEnd) :
    closeOf start (.cons c found) = closeOf (start + c.utf8Size) found := by
  cases found <;> simp [closeOf, TagEnd.cons, Nat.add_assoc]

/-- A byte in quotes that takes no other with it ends them or leaves them open. -/
theorem closeFrom_inside {byte : Char} (noEscape : byte ≠ '\\') (quote : Char) (position : Nat)
    (rest : List Char) :
    closeFrom source (some quote) position (byte :: rest) =
      closeFrom source (if byte = quote then none else some quote) (position + 1) rest := by
  rw [closeFrom]
  exact fun _ _ same _ => absurd same noEscape

/-- A backslash in quotes takes a byte with it. -/
theorem closeFrom_escape (quote : Char) (position : Nat) (byte : Char) (rest : List Char) :
    closeFrom source (some quote) position ('\\' :: byte :: rest) =
      closeFrom source (some quote) (position + 2) rest := rfl

/-- The bytes of a character of several are passed over in quotes. -/
theorem closeFrom_wide {quote : Char} (isQuote : IsQuote quote) {bytes : List Char}
    (wide : ∀ d ∈ bytes, d.utf8Size ≠ 1) (position : Nat) (rest : List Char) :
    closeFrom source (some quote) position (bytes ++ rest) =
      closeFrom source (some quote) (position + bytes.length) rest := by
  -- Neither a quote nor a backslash has more than one byte.
  induction bytes generalizing position with
  | nil => rfl
  | cons d bytes ih =>
    obtain ⟨first, others⟩ := List.forall_mem_cons.mp wide
    have noEscape : d ≠ '\\' := by
      rintro rfl
      exact first rfl
    have noQuote : d ≠ quote := by
      rintro rfl
      exact first (narrow_of_isQuote isQuote)
    rw [List.cons_append, closeFrom_inside noEscape, if_neg noQuote, ih others, List.length_cons,
      Nat.add_assoc, Nat.add_comm 1]

/-- The bytes of any character but the first one are passed over in quotes. -/
theorem closeFrom_others {quote c first : Char} {more : List Char} (isQuote : IsQuote quote)
    (bytes : Text.octetsOf c = first :: more) (position : Nat) (rest : List Char) :
    closeFrom source (some quote) position (more ++ rest) =
      closeFrom source (some quote) (position + more.length) rest := by
  by_cases narrow : c.utf8Size = 1
  · rw [Text.octetsOf_narrow narrow] at bytes
    obtain ⟨-, rfl⟩ := List.cons.inj bytes
    rfl
  · refine closeFrom_wide isQuote (fun d member => ?_) position rest
    exact Text.wide_of_mem_octetsOf narrow (bytes ▸ List.mem_cons_of_mem _ member)

/-- A byte of a character that is no quote is none either. -/
theorem noQuote_of_mem_octetsOf {c d : Char} (noQuote : ¬(c = '"' || c = '\'') = true)
    (member : d ∈ Text.octetsOf c) : ¬(d = '"' || d = '\'') = true := by
  by_cases narrow : c.utf8Size = 1
  · rw [Text.octetsOf_narrow narrow, List.mem_singleton] at member
    rwa [member]
  · have wide := Text.wide_of_mem_octetsOf narrow member
    rw [Bool.or_eq_true, decide_eq_true_iff, decide_eq_true_iff]
    rintro (rfl | rfl) <;> exact wide rfl

/-- Outside quotes a slice is taken at each character, and tells whether the tag ends there. -/
theorem closeFrom_outside {c first : Char} {rest : Text} {more : List Char}
    (noQuote : ¬(c = '"' || c = '\'') = true) (bytes : Text.octetsOf c = first :: more)
    (here : Text.from? position source = some (c :: rest)) :
    closeFrom source none position (Text.octets (c :: rest)) =
      if Text.startsWith "%>" (c :: rest) then some (some position)
      else closeFrom source none (position + 1) (more ++ Text.octets rest) := by
  have noFirst := noQuote_of_mem_octetsOf noQuote (bytes ▸ List.mem_cons_self)
  rw [Text.octets_cons, bytes, List.cons_append, closeFrom, if_neg noFirst, here]

/-- The cursor finds the end of a tag where the search does, and gives no answer where the search is
cut. -/
theorem closeFrom_eq {quote : Option Char} (isQuote : ∀ q, quote = some q → IsQuote q)
    (here : Text.from? position source = some text) :
    closeFrom source quote position (Text.octets text) =
      closeOf position (TagEnd.search quote text) := by
  -- The search takes a character at a time, and the cursor all of its bytes.
  fun_induction TagEnd.search quote text generalizing position with
  | case1 quote c rest ih =>
    -- The cursor lands behind the first byte of the character that the backslash takes.
    obtain ⟨first, more, bytes, size⟩ := Text.octetsOf_eq_cons c
    have moved := ih isQuote (Text.from?_next (Text.from?_next here))
    rw [closeOf_cons, closeOf_cons, ← moved, Text.octets_cons, Text.octets_cons, bytes, ← size,
      Text.octetsOf_narrow (c := '\\') rfl, List.cons_append, List.cons_append, List.nil_append,
      closeFrom_escape, closeFrom_others (isQuote quote rfl) bytes]
    congr 1
    rw [show '\\'.utf8Size = 1 from rfl]
    omega
  | case2 quote c rest noEscape ih =>
    have quoted := isQuote quote rfl
    have stays : ∀ q, (if c = quote then none else some quote) = some q → IsQuote q := by
      intro q same
      split at same
      · cases same
      · exact isQuote q same
    have moved := ih stays (Text.from?_next here)
    rw [closeOf_cons, ← moved, Text.octets_cons]
    by_cases narrow : c.utf8Size = 1
    · rw [Text.octetsOf_narrow narrow, List.singleton_append, closeFrom, narrow]
      -- A backslash is the last character here.
      intro byte behind isEscape listed
      cases rest with
      | nil => cases listed
      | cons d rest => exact noEscape d rest isEscape rfl
    · have differs : c ≠ quote := by
        rintro rfl
        exact narrow (narrow_of_isQuote quoted)
      rw [closeFrom_wide quoted (fun d => Text.wide_of_mem_octetsOf narrow), if_neg differs,
        Text.length_octetsOf]
  | case3 c rest isMark ih =>
    have quoted : IsQuote c := by simpa [IsQuote] using isMark
    have narrow := narrow_of_isQuote quoted
    have moved := ih (fun q same => Option.some.inj same ▸ quoted) (Text.from?_next here)
    rw [closeOf_cons, ← moved, Text.octets_cons, Text.octetsOf_narrow narrow,
      List.singleton_append, closeFrom, if_pos isMark, narrow]
  | case4 c rest noQuote after stripped =>
    obtain ⟨first, more, bytes, -⟩ := Text.octetsOf_eq_cons c
    have ends : Text.startsWith "%>".toList (c :: rest) = true := by
      rw [Text.startsWith, stripped]
      rfl
    rw [closeFrom_outside noQuote bytes here, if_pos ends]
    rfl
  | case5 c rest noQuote missing wide =>
    obtain ⟨first, more, bytes, size⟩ := Text.octetsOf_eq_cons c
    have stays : ¬Text.startsWith "%>".toList (c :: rest) = true := by
      simp only [Text.startsWith, missing, Option.isSome_none, Bool.false_eq_true,
        not_false_eq_true]
    rw [closeFrom_outside noQuote bytes here, if_neg stays]
    -- The second byte of the character is no quote, and no slice begins there.
    cases more with
    | nil => exact absurd size.symm wide
    | cons second more =>
      have noSecond := noQuote_of_mem_octetsOf noQuote
        (bytes ▸ List.mem_cons_of_mem _ List.mem_cons_self : second ∈ Text.octetsOf c)
      rw [List.length_cons] at size
      rw [List.cons_append, closeFrom, if_neg noSecond,
        Text.from?_inside here Nat.one_pos (by omega)]
      rfl
  | case6 c rest noQuote missing narrow ih =>
    have single : c.utf8Size = 1 := Decidable.not_not.mp narrow
    have stays : ¬Text.startsWith "%>".toList (c :: rest) = true := by
      simp only [Text.startsWith, missing, Option.isSome_none, Bool.false_eq_true,
        not_false_eq_true]
    have moved := ih (fun _ same => by cases same) (Text.from?_next here)
    rw [closeOf_cons, ← moved, closeFrom_outside noQuote (Text.octetsOf_narrow single) here,
      if_neg stays, single, List.nil_append]
  | case7 quote => cases quote <;> rfl

/-- The end of a tag is found where it is, in a comment without regard to quotes. -/
theorem tagClose_eq (here : Text.from? position source = some text) :
    tagClose source position = closeOf position (TagEnd.ofBody text) := by
  rw [tagClose, here, Option.bind_eq_bind, Option.bind_some, TagEnd.ofBody]
  by_cases comment : Text.startsWith "#".toList text = true
  · rw [if_pos comment, if_pos comment, Text.find?]
    cases Text.cut? "%>".toList text <;> rfl
  · rw [if_neg comment, if_neg comment, Text.drop_octets here]
    exact closeFrom_eq (fun _ same => by cases same) here

/-- A text is cut at its first blank into its first word and the rest. -/
theorem firstWord_eq (text : Text) :
    firstWord text = some (text.takeWhile (!Text.isBlank ·),
      Text.trimStart (text.dropWhile (!Text.isBlank ·))) := by
  have whole : text.takeWhile (!Text.isBlank ·) ++ text.dropWhile (!Text.isBlank ·) = text :=
    List.takeWhile_append_dropWhile
  rw [firstWord, findBlank?]
  by_cases blank : text.any Text.isBlank = true
  · rw [if_pos blank]
    have begin := Text.upTo?_append (text.takeWhile (!Text.isBlank ·))
      (text.dropWhile (!Text.isBlank ·))
    have finish := Text.from?_eq_some_iff.mpr ⟨_, whole.symm, rfl⟩
    rw [whole] at begin
    simp only [begin, finish]
    rfl
  · -- Without a blank all of it is the first word.
    rw [if_neg blank]
    have marked : ∀ c ∈ text, (!Text.isBlank c) = true := by simpa using blank
    rw [List.takeWhile_eq_self_iff.mpr marked, List.dropWhile_eq_nil_iff.mpr marked]
    rfl

/-- The statement in the body of a tag can always be cut out. -/
theorem statement_eq (start : Nat) (body : Text) :
    statement start body = some (.ofBody start body) := by
  -- The offset of the first word counts the blanks in front of it.
  have whole : body.takeWhile Text.isBlank ++ Text.trimStart body = body :=
    List.takeWhile_append_dropWhile
  have size := Text.bytes_append (body.takeWhile Text.isBlank) (Text.trimStart body)
  rw [whole] at size
  have lead : Text.bytes body - Text.bytes (Text.trimStart body) =
      Text.bytes (body.takeWhile Text.isBlank) := by omega
  simp only [statement, firstWord_eq, lead]
  rfl

/-- The segment a tag stands for can always be cut out. -/
theorem ofBody_eq (start : Nat) (body : Text) :
    ofBody start body = some (Segment.ofBody start body) := by
  fun_cases Segment.ofBody start body with
  | case1 | case2 | case3 => rfl
  | case4 body noEcho noRaw noComment =>
    rw [ofBody, statement_eq]
    · rfl
    · exact noEcho
    · exact noRaw
    · exact noComment

end Cursor

/-! ### Segments by the tags in front of them -/

namespace TagEnd

/-- A body that ends behind its first character is one without it. -/
theorem cons_eq_found {c : Char} {ending : TagEnd} {body after : Text}
    (found : cons c ending = .found body after) :
    ∃ rest, body = c :: rest ∧ ending = .found rest after := by
  cases ending with
  | found rest _ =>
    cases found
    exact ⟨rest, rfl, rfl⟩
  | missing | cut => cases found

/-- The search gives the body of a tag and what follows its end. -/
theorem eq_of_search {quote : Option Char} {text body after : Text}
    (found : search quote text = .found body after) : text = body ++ ("%>".toList ++ after) := by
  fun_induction search quote text generalizing body with
  | case1 quote c rest ih =>
    obtain ⟨_, rfl, later⟩ := cons_eq_found found
    obtain ⟨_, rfl, last⟩ := cons_eq_found later
    rw [ih last]
    rfl
  | case2 _ c rest _ ih | case3 c rest _ ih | case6 c rest _ _ _ ih =>
    obtain ⟨_, rfl, later⟩ := cons_eq_found found
    rw [ih later]
    rfl
  | case4 c rest _ after stripped =>
    cases found
    rw [List.nil_append]
    exact Text.eq_append_of_strip? stripped
  | case5 | case7 => cases found

/-- The sign of a comment stands at its front. -/
theorem startsWith_sign_iff {inner : Text} :
    Text.startsWith "#".toList inner = true ↔ inner.head? = some '#' := by
  cases inner with
  | nil => simp [Text.startsWith, Text.strip?]
  | cons c inner =>
    by_cases same : '#' = c
    · subst same
      exact ⟨fun _ => rfl, fun _ => rfl⟩
    · simp [Text.startsWith, Text.strip?, same, Ne.symm same]

/-- A tag is its body, its end and what follows. -/
theorem eq_of_ofBody {text body after : Text} (found : ofBody text = .found body after) :
    text = body ++ ("%>".toList ++ after) := by
  rw [ofBody] at found
  split at found
  · split at found
    · rename_i cut
      cases found
      rw [Text.eq_of_cut? cut, List.append_assoc]
    · cases found
  · exact eq_of_search found

/-- What follows a tag is shorter than the text that the tag is in. -/
theorem length_lt_of_ofBody {text front inner body after : Text}
    (cut : Text.cut? "<%".toList text = some (front, inner))
    (found : ofBody inner = .found body after) : after.length < text.length := by
  have sign : "<%".toList.length = 2 := rfl
  rw [Text.eq_of_cut? cut, eq_of_ofBody found]
  simp only [List.length_append]
  omega

end TagEnd

namespace Segment

/-- Text that is pending stands in front of the segments behind it. -/
theorem withText_append (pending : Text) (segments : List Segment) :
    withText pending segments = withText pending [] ++ segments := by
  cases pending <;> rfl

/-- A text without tags is one segment. -/
theorem segmentsFrom_untagged {text : Text} (missing : Text.cut? "<%".toList text = none)
    (offset : Nat) : segmentsFrom offset 0 [] text = .ok (withText text.reverse []) := by
  have noTag : Text.contains "<%".toList text = false := by rw [Text.contains, missing]; rfl
  have noPercent : ([] : Text).head? ≠ some '%' := by simp
  have read := segmentsFrom_text noTag noPercent offset []
  rw [List.append_nil, List.append_nil] at read
  rw [read, segmentsFrom]

/-- The first tag of a text is cut out together with the text in front of it. -/
theorem segmentsFrom_tagged {text front inner : Text}
    (cut : Text.cut? "<%".toList text = some (front, inner)) (offset : Nat) :
    segmentsFrom offset 0 [] text =
      match TagEnd.ofBody inner with
      | .missing => .error (.unterminated (offset + Text.bytes front))
      | .cut => .error .cutCharacter
      | .found body after =>
        (segmentsFrom (offset + Text.bytes front + 2 + Text.bytes body + 2) 0 [] after).map
          fun segments =>
            withText front.reverse (ofBody (offset + Text.bytes front + 2) body ++ segments) := by
  have noTag := Text.contains_of_cut? (by decide) cut
  have whole : text = front ++ ('<' :: '%' :: inner) := by
    rw [Text.eq_of_cut? cut, List.append_assoc]
    rfl
  have opens : Text.strip? "<%".toList ('<' :: '%' :: inner) = some inner := rfl
  rw [whole, segmentsFrom_text noTag (by simp), List.append_nil, segmentsFrom, opens]
  cases ending : TagEnd.ofBody inner with
  | missing | cut => simp only [ending]
  | found body after =>
    -- The rest of the tag is passed over.
    have rest : '%' :: inner = ('%' :: (body ++ "%>".toList)) ++ after := by
      rw [TagEnd.eq_of_ofBody ending]
      simp
    have skip : ('%' :: inner).length - after.length = ('%' :: (body ++ "%>".toList)).length := by
      rw [rest, List.length_append, Nat.add_sub_cancel]
    have behind : offset + Text.bytes front + '<'.utf8Size +
        Text.bytes ('%' :: (body ++ "%>".toList)) =
          offset + Text.bytes front + 2 + Text.bytes body + 2 := by
      have sign : '<'.utf8Size = 1 := rfl
      have percent : '%'.utf8Size = 1 := rfl
      have close : Text.bytes "%>".toList = 2 := rfl
      rw [Text.bytes_cons, Text.bytes_append]
      omega
    simp only [ending, skip]
    rw [rest, segmentsFrom_skip, behind]
    cases segmentsFrom (offset + Text.bytes front + 2 + Text.bytes body + 2) 0 [] after <;> rfl

end Segment

/-! ### Every artifact -/

namespace Cursor

variable {source text : Text} {position : Nat}

/-- No answer where a cursor is stuck inside a character. -/
def uncut {α : Type} : Except TagError α → Option (Except TagError α)
  | .error .cutCharacter => none
  | result => some result

/-- The text between two cursors is a segment unless it is empty. -/
theorem textBetween_of_from? {start stop : Nat} {read rest : Text}
    (begin : Text.from? start source = some (read ++ rest))
    (finish : Text.from? stop source = some rest) :
    textBetween source start stop = some (Segment.withText read.reverse []) := by
  have first := Text.bytes_of_from? begin
  have second := Text.bytes_of_from? finish
  rw [Text.bytes_append] at first
  rw [textBetween, Text.between?_of_from? begin finish]
  cases read with
  | nil =>
    rw [Text.bytes_nil] at first
    rw [if_neg (by omega)]
    rfl
  | cons c read =>
    have := c.utf8Size_pos
    rw [Text.bytes_cons] at first
    rw [if_pos (by omega), Segment.withText_of_ne_nil (by simp), List.reverse_reverse]
    rfl

/-- From each character on, the cursor gives the segments of what is ahead. -/
theorem segmentsFrom_eq {fuel : Nat} (here : Text.from? position source = some text)
    (enough : Text.bytes text < fuel) :
    segmentsFrom source fuel position = uncut (Segment.segmentsFrom position 0 [] text) := by
  -- Each round takes a tag and the text in front of it.
  induction fuel generalizing position text with
  | zero => omega
  | succ fuel ih =>
    rw [segmentsFrom, here, Option.bind_eq_bind, Option.bind_some]
    cases cut : Text.cut? "<%".toList text with
    | none =>
      rw [← List.append_nil text] at here
      rw [Segment.segmentsFrom_untagged cut, Text.find?_eq_none cut]
      simp only [textBetween_of_from? here (Text.from?_bytes source)]
      rfl
    | some parts =>
      obtain ⟨front, inner⟩ := parts
      have whole : text = front ++ ("<%".toList ++ inner) := by
        rw [Text.eq_of_cut? cut, List.append_assoc]
      subst whole
      have opening := Text.from?_forward here
      have start : Text.from? (position + Text.bytes front + 2) source = some inner :=
        Text.from?_forward opening
      rw [Segment.segmentsFrom_tagged cut, Text.find?_of_cut? cut]
      simp only [textBetween_of_from? here opening, tagClose_eq start]
      cases ending : TagEnd.ofBody inner with
      | missing | cut => rfl
      | found body after =>
        rw [TagEnd.eq_of_ofBody ending] at start
        have close := Text.from?_forward start
        have behind : Text.from? (position + Text.bytes front + 2 + Text.bytes body + 2) source =
            some after := Text.from?_forward close
        have fewer : Text.bytes after < fuel := by
          have all := Text.bytes_of_from? here
          have rest := Text.bytes_of_from? behind
          omega
        have later := ih behind fewer
        simp only [closeOf, Option.bind_eq_bind, Option.bind_some,
          Text.between?_of_from? start close, ofBody_eq, later]
        cases Segment.segmentsFrom (position + Text.bytes front + 2 + Text.bytes body + 2) 0 []
          after with
        | ok segments =>
          simp only [Except.map, Segment.withText_append front.reverse (_ ++ segments)]
          rfl
        | error error => cases error <;> rfl

end Cursor

end Templates
