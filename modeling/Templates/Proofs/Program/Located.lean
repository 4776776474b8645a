import Templates.Proofs.Expr.Located
import Templates.Proofs.Program.Cursor
import Templates.Proofs.Text.Trim

/-!
Errors of an artifact are reported at the tags that they are about.

A tag ends at the first sign outside of quotes, and a comment at the first one; the search for the
end gives that place, and finds none only if there is none. The offset of a tag, of the blanks that
are trimmed, of the first word and of a token add up to an offset in the body of the tag. Main
statement: an error points to a tag that ends nowhere, into the tag where the reading stops, or at
the first word of the tag that opened a block which is never closed.
-/

namespace Templates

/-! ### Where a tag ends -/

/-- A text in which every quoted part is closed. -/
inductive QuotesClosed : Text → Prop where
  | nil : QuotesClosed []
  | plain {c : Char} {rest : Text} : ¬IsQuote c → QuotesClosed rest → QuotesClosed (c :: rest)
  | quoted {quote : Char} {body rest : Text} :
    IsQuote quote → Unquoted quote body → QuotesClosed rest →
      QuotesClosed (quote :: body ++ quote :: rest)

/-- What follows the opening of a tag may end it behind some front: outside of quotes, which do not
count in a comment. -/
def MayEnd (inner front : Text) : Prop :=
  inner.head? = some '#' ∨ QuotesClosed front

/-- What follows the opening of a tag, cut where the tag ends. -/
structure EndsTag (inner body after : Text) : Prop where
  split : inner = body ++ ("%>".toList ++ after)
  outside : MayEnd inner body
  first : ∀ front rest, inner = front ++ ("%>".toList ++ rest) → MayEnd inner front →
    body.length ≤ front.length

/-- What follows the opening of a tag that ends nowhere. -/
def Endless (inner : Text) : Prop :=
  ∀ front rest, inner = front ++ ("%>".toList ++ rest) → ¬MayEnd inner front

namespace TagEnd

/-- The search is over behind at most so many characters. -/
def DoneBy (count : Nat) : TagEnd → Prop
  | .found body _ => body.length ≤ count
  | .missing => False
  | .cut => True

/-- One more character in front is one more to pass over. -/
theorem DoneBy.cons {count : Nat} {ending : TagEnd} (done : DoneBy count ending) (c : Char) :
    DoneBy (count + 1) (.cons c ending) := by
  cases ending with
  | found body after => exact Nat.succ_le_succ done
  | missing => exact done
  | cut => trivial

/-- All characters in front are passed over. -/
theorem DoneBy.foldr {count : Nat} {ending : TagEnd} (done : DoneBy count ending) (front : Text) :
    DoneBy (front.length + count) (front.foldr .cons ending) := by
  induction front with
  | nil => simpa using done
  | cons c front ih =>
    rw [List.foldr_cons, List.length_cons, Nat.add_right_comm]
    exact ih.cons c

/-- The search gets no further than to a sign outside of quotes. -/
theorem search_doneBy {front : Text} (closed : QuotesClosed front) (rest : Text) :
    DoneBy front.length (search none (front ++ ("%>".toList ++ rest))) := by
  induction closed with
  | nil => exact Nat.le_refl 0
  | @plain c tail noQuote _ ih =>
    have noMark : ¬(c = '"' || c = '\'') = true := by simpa [IsQuote] using noQuote
    rw [List.cons_append, search, if_neg noMark]
    split
    · exact Nat.zero_le _
    · split
      · trivial
      · exact ih.cons c
  | @quoted quote body tail isQuote inside _ ih =>
    have isMark : (quote = '"' || quote = '\'') = true := by simpa [IsQuote] using isQuote
    have size : (quote :: body ++ quote :: tail).length = body.length + (tail.length + 1) + 1 := by
      simp
    rw [size, List.append_assoc, List.cons_append, search, if_pos isMark, List.cons_append,
      search_unquoted isQuote inside]
    exact ((ih.cons quote).foldr body).cons quote

/-- What the search has passed over when it is done: it leaves the quotes it begins in. -/
def Passed : Option Char → Text → Prop
  | none, body => QuotesClosed body
  | some quote, body =>
    ∃ inside rest, body = inside ++ quote :: rest ∧ Unquoted quote inside ∧ QuotesClosed rest

/-- The search ends outside of quotes. -/
theorem passed_of_search {quote : Option Char} {text body after : Text}
    (found : search quote text = .found body after) : Passed quote body := by
  fun_induction search quote text generalizing body with
  | case1 quote c rest ih =>
    obtain ⟨_, rfl, later⟩ := cons_eq_found found
    obtain ⟨_, rfl, last⟩ := cons_eq_found later
    obtain ⟨inside, behind, rfl, unquoted, closed⟩ := ih last
    exact ⟨'\\' :: c :: inside, behind, rfl, .escaped c unquoted, closed⟩
  | case2 quote c rest noEscape ih =>
    obtain ⟨_, rfl, later⟩ := cons_eq_found found
    have passed := ih later
    by_cases closes : c = quote
    · rw [if_pos closes] at passed
      exact ⟨[], _, by rw [closes]; rfl, .nil, passed⟩
    · rw [if_neg closes] at passed
      obtain ⟨inside, behind, rfl, unquoted, closed⟩ := passed
      refine ⟨c :: inside, behind, rfl, .plain closes ?_ unquoted, closed⟩
      -- A backslash would have taken the next character with it.
      intro escape
      rw [eq_of_search later] at noEscape
      cases inside with
      | nil => exact noEscape _ _ escape rfl
      | cons d inside => exact noEscape _ _ escape rfl
  | case3 c rest isMark ih =>
    obtain ⟨_, rfl, later⟩ := cons_eq_found found
    obtain ⟨inside, behind, rfl, unquoted, closed⟩ := ih later
    exact .quoted (by simpa [IsQuote] using isMark) unquoted closed
  | case4 c rest _ after stripped =>
    cases found
    exact .nil
  | case5 | case7 => cases found
  | case6 c rest noQuote missing narrow ih =>
    obtain ⟨_, rfl, later⟩ := cons_eq_found found
    exact .plain (by simpa [IsQuote] using noQuote) (ih later)

/-- The search comes no further than to where the tag may end. -/
theorem ofBody_doneBy {inner front rest : Text} (split : inner = front ++ ("%>".toList ++ rest))
    (mayEnd : MayEnd inner front) : DoneBy front.length (ofBody inner) := by
  rw [ofBody]
  split
  · obtain ⟨body, after, cut, earlier⟩ := Text.exists_cut?_le "%>".toList front rest
    rw [split, cut]
    exact earlier
  · rename_i spoken
    rw [startsWith_sign_iff] at spoken
    rw [split]
    exact search_doneBy (mayEnd.resolve_left spoken) rest

/-- The tag ends where the search finds its end. -/
theorem endsTag_of_ofBody {inner body after : Text} (found : ofBody inner = .found body after) :
    EndsTag inner body after where
  split := eq_of_ofBody found
  outside := by
    by_cases comment : inner.head? = some '#'
    · exact .inl comment
    · rw [ofBody, if_neg (mt startsWith_sign_iff.mp comment)] at found
      exact .inr (passed_of_search found)
  first front rest split mayEnd := by
    have done := ofBody_doneBy split mayEnd
    rwa [found] at done

/-- A tag without an end found ends nowhere. -/
theorem endless_of_ofBody {inner : Text} (missing : ofBody inner = .missing) : Endless inner := by
  intro front rest split mayEnd
  have done := ofBody_doneBy split mayEnd
  rwa [missing] at done

end TagEnd

/-! ### Places in an artifact -/

/-- The parts of an artifact in front of and behind the opening of a tag. The first one opens a tag,
and so does the first one behind the end of each tag. -/
inductive Opens (artifact : Text) : Text → Text → Prop where
  | first {front inner : Text} :
    Text.cut? "<%" artifact = some (front, inner) → Opens artifact front inner
  | next {front inner body after between later : Text} :
    Opens artifact front inner → EndsTag inner body after →
      Text.cut? "<%" after = some (between, later) →
      Opens artifact (front ++ ("<%".toList ++ (body ++ ("%>".toList ++ between)))) later

/-- A tag of an artifact, by what stands in front of it and by its body. -/
def HasTag (artifact front body : Text) : Prop :=
  ∃ inner after, artifact = front ++ ("<%".toList ++ inner) ∧ Opens artifact front inner ∧
    EndsTag inner body after

/-- An offset in the body of a tag, or right behind the body. -/
def InBody (front body : Text) (position : Nat) : Prop :=
  Text.bytes front + 2 ≤ position ∧ position ≤ Text.bytes front + 2 + Text.bytes body

/-- The reading of an artifact stops at a tag: what is in front of the tag is taken, and then the
segment of the tag is malformed. -/
def StopsAt (artifact front body : Text) (error : SyntaxError) : Prop :=
  ∃ earlier segment later builder, segments artifact = .ok (earlier ++ segment :: later) ∧
    Builder.start.run earlier = .ok builder ∧
    segment ∈ Segment.ofBody (Text.bytes front + 2) body ∧
    builder.step segment = .error (.malformed error)

/-- An error points where a tag opens that ends nowhere, into the body of the tag where the reading
stops, or at the first word of a tag, which names the block that is never closed. A search that is
cut inside a character points nowhere. -/
def ProgramError.PointsInto (artifact : Text) : ProgramError → Prop
  | .tags (.unterminated position) =>
    ∃ front inner, artifact = front ++ ("<%".toList ++ inner) ∧ Opens artifact front inner ∧
      Endless inner ∧ Text.bytes front = position
  | .malformed error =>
    ∃ front body, HasTag artifact front body ∧ StopsAt artifact front body error ∧
      InBody front body error.position
  | .unclosed keyword position =>
    ∃ front body, HasTag artifact front body ∧
      (Tag.ofBody (Text.bytes front + 2) body).keyword = keyword ∧
      (Tag.ofBody (Text.bytes front + 2) body).position = position ∧ InBody front body position
  | .tags .cutCharacter => False

variable {artifact front body : Text}

/-- The opening of a tag stands between what is in front of it and what is behind it. -/
theorem Opens.eq {inner : Text} (opens : Opens artifact front inner) :
    artifact = front ++ ("<%".toList ++ inner) := by
  induction opens with
  | first cut => rw [Text.eq_of_cut? cut, List.append_assoc]
  | next _ ends cut ih => simp [ih, ends.split, Text.eq_of_cut? cut]

/-- The first word of a tag and what follows it lie in the body. -/
theorem Tag.ofBody_bounds (start : Nat) (body : Text) :
    start ≤ (ofBody start body).position ∧
      (ofBody start body).position ≤ (ofBody start body).restPosition ∧
      (ofBody start body).restPosition + Text.bytes (ofBody start body).rest ≤
        start + Text.bytes body := by
  -- The body is made of blanks, of what is trimmed and of blanks.
  obtain ⟨blanks, -, trimmed⟩ := Text.exists_trimEnd_append (Text.trimStart body)
  have led : body.takeWhile Text.isBlank ++ Text.trimStart body = body :=
    List.takeWhile_append_dropWhile
  obtain ⟨front, split⟩ : (ofBody start body).rest <:+ Text.trimEnd (Text.trimStart body) :=
    (List.dropWhile_suffix _).trans (List.dropWhile_suffix _)
  have bodySize := congrArg Text.bytes led
  have ledSize := congrArg Text.bytes trimmed
  have wordSize := congrArg Text.bytes split
  simp only [Text.bytes_append, ofBody] at bodySize ledSize wordSize ⊢
  omega

/-- The first word of a tag stands in the body. -/
theorem Tag.inBody_position (front body : Text) :
    InBody front body (ofBody (Text.bytes front + 2) body).position := by
  obtain ⟨led, ordered, ended⟩ := ofBody_bounds (Text.bytes front + 2) body
  exact ⟨led, by omega⟩

/-- A fault in what follows the first word of a tag stands in the body. -/
theorem Tag.inBody_fault {α : Type} {reader : Reader α} (located : reader.Located)
    (error : SyntaxError)
    (failed : Reader.readAll reader (ofBody (Text.bytes front + 2) body).restPosition
      (ofBody (Text.bytes front + 2) body).rest = .error error) :
    InBody front body error.position := by
  obtain ⟨led, ordered, ended⟩ := ofBody_bounds (Text.bytes front + 2) body
  obtain ⟨behind, before⟩ := Reader.readAll_position located failed
  exact ⟨by omega, by omega⟩

/-! ### Segments -/

namespace Segment

/-- A segment is text or belongs to a tag. -/
def Within (artifact : Text) (segment : Segment) : Prop :=
  (∃ content, segment = .text content) ∨
    ∃ front body, HasTag artifact front body ∧ segment ∈ ofBody (Text.bytes front + 2) body

/-- Text in front changes nothing. -/
theorem within_withText {segments : List Segment}
    (within : ∀ segment ∈ segments, segment.Within artifact) (pending : Text) :
    ∀ segment ∈ withText pending segments, segment.Within artifact := by
  fun_cases withText pending segments with
  | case1 => exact within
  | case2 => exact List.forall_mem_cons.mpr ⟨.inl ⟨_, rfl⟩, within⟩

/-- What comes of cutting a part of an artifact. -/
def Placed (artifact : Text) : Except TagError (List Segment) → Prop
  | .ok segments => ∀ segment ∈ segments, segment.Within artifact
  | .error error => error = .cutCharacter ∨ (ProgramError.tags error).PointsInto artifact

/-- Segments are cut at the tags of an artifact. -/
theorem segmentsFrom_placed (read text : Text)
    (opening : ∀ front inner, Text.cut? "<%" text = some (front, inner) →
      Opens artifact (read ++ front) inner) :
    Placed artifact (segmentsFrom (Text.bytes read) 0 [] text) := by
  -- What follows a tag is shorter.
  induction size : text.length using Nat.strongRecOn generalizing read text with
  | ind length ih =>
    cases cut : Text.cut? "<%".toList text with
    | none =>
      rw [segmentsFrom_untagged cut]
      exact within_withText (by simp) _
    | some parts =>
      obtain ⟨front, inner⟩ := parts
      have opens := opening front inner cut
      rw [segmentsFrom_tagged cut]
      cases ending : TagEnd.ofBody inner with
      | missing =>
        exact .inr ⟨_, _, opens.eq, opens, TagEnd.endless_of_ofBody ending, Text.bytes_append _ _⟩
      | cut => exact .inl rfl
      | found body after =>
        have ends := TagEnd.endsTag_of_ofBody ending
        have shorter := size ▸ TagEnd.length_lt_of_ofBody cut ending
        -- The tags behind this one open behind all that has been passed over.
        let passed := read ++ front ++ ("<%".toList ++ (body ++ "%>".toList))
        have place : Text.bytes read + Text.bytes front + 2 + Text.bytes body + 2 =
            Text.bytes passed := by
          have opening : Text.bytes "<%".toList = 2 := rfl
          have closing : Text.bytes "%>".toList = 2 := rfl
          simp only [passed, Text.bytes_append]
          omega
        have further (between inner : Text)
            (cut : Text.cut? "<%".toList after = some (between, inner)) :
            Opens artifact (passed ++ between) inner := by
          simpa [passed] using Opens.next opens ends cut
        have later := ih _ shorter passed after further rfl
        dsimp only
        rw [place]
        cases rest : segmentsFrom (Text.bytes passed) 0 [] after with
        | error error =>
          rw [rest] at later
          exact later
        | ok segments =>
          rw [rest] at later
          refine within_withText (List.forall_mem_append.mpr ⟨fun segment own => ?_, later⟩) _
          rw [← Text.bytes_append] at own
          exact .inr ⟨_, body, ⟨inner, after, opens.eq, opens, ends⟩, own⟩

end Segment

/-! ### Open blocks -/

/-- The first word and the offset that a block is reported with, unless it is the page. -/
def Opening.mark? : Opening → Option (Text × Nat)
  | .page => none
  | .branch position _ _ => some ("if", position)
  | .otherwise position _ => some ("if", position)
  | .foreach position _ => some ("foreach", position)
  | .range position _ => some ("for", position)
  | .whileLoop position _ => some ("while", position)
  | .doWhileLoop position => some ("do", position)
  | .switch position _ => some ("switch", position)
  | .case position _ _ _ => some ("switch", position)

/-- A block is reported with the first word of a tag of the artifact, where that word stands. -/
def Opening.Within (artifact : Text) (opening : Opening) : Prop :=
  ∀ mark ∈ opening.mark?, ∃ front body, HasTag artifact front body ∧
    (Tag.ofBody (Text.bytes front + 2) body).keyword = mark.1 ∧
    (Tag.ofBody (Text.bytes front + 2) body).position = mark.2

/-- All blocks that are open were opened by tags of the artifact. -/
structure Builder.Within (artifact : Text) (builder : Builder) : Prop where
  top : builder.top.opening.Within artifact
  outer : ∀ frame ∈ builder.outer, frame.opening.Within artifact

/-- What comes of a step over a tag: the blocks that are open then, or a fault in the tag. -/
def Builder.Led (artifact front body : Text) : Except ProgramError Builder → Prop
  | .ok next => next.Within artifact
  | .error error => ∃ fault, error = .malformed fault ∧ InBody front body fault.position

/-- The first word with a spelling is spelled so. -/
theorem TagWord.text_of_ofText? {text : Text} {word : TagWord} (known : ofText? text = some word) :
    word.text = text := by
  simpa using List.find?_some known

namespace Builder

variable {builder : Builder}

/-- A statement opens no block. -/
theorem Within.add (within : builder.Within artifact) (node : Node) :
    (builder.add node).Within artifact :=
  ⟨within.top, within.outer⟩

/-- A tag opens a block. -/
theorem Within.enter (within : builder.Within artifact) {opening : Opening}
    (opened : opening.Within artifact) : (builder.enter opening).Within artifact :=
  ⟨opened, List.forall_mem_cons.mpr ⟨within.top, within.outer⟩⟩

/-- A block that goes on is reported as before. -/
theorem Within.resume (within : builder.Within artifact) {opening : Opening}
    (same : opening.mark? = builder.top.opening.mark?) :
    (builder.resume opening).Within artifact :=
  ⟨fun mark known => within.top mark (same ▸ known), within.outer⟩

/-- A block that closes leaves the others open. -/
theorem Within.leave (within : builder.Within artifact) (node : Node) :
    (builder.leave node).Within artifact := by
  unfold Builder.leave
  split
  · exact within
  · rename_i frame outer same
    have others := within.outer
    rw [same] at others
    obtain ⟨first, rest⟩ := List.forall_mem_cons.mp others
    exact Within.add ⟨first, rest⟩ node

/-- A tag is malformed where its source is. -/
theorem Led.reading {α : Type} {result : Except SyntaxError α} {next : α → Builder}
    (faults : ∀ error, result = .error error → InBody front body error.position)
    (onward : ∀ a, (next a).Within artifact) :
    Led artifact front body (do return next (← reading result)) := by
  cases result with
  | error error => exact ⟨error, rfl, faults error rfl⟩
  | ok a => exact onward a

open Reader Tag

/-- A tag opens the block that its first word names, or else it is malformed. -/
theorem led_opens (within : builder.Within artifact) (tagged : HasTag artifact front body) :
    Led artifact front body (builder.opens (ofBody (Text.bytes front + 2) body)
      (TagWord.ofText? (ofBody (Text.bytes front + 2) body).keyword)) := by
  have opened {word : TagWord} {opening : Opening}
      (known : TagWord.ofText? (ofBody (Text.bytes front + 2) body).keyword = some word)
      (here : opening.mark? = some (word.text, (ofBody (Text.bytes front + 2) body).position)) :
      (builder.enter opening).Within artifact := by
    refine within.enter fun mark reported => ?_
    rw [here] at reported
    cases reported
    exact ⟨front, body, tagged, (TagWord.text_of_ofText? known).symm, rfl⟩
  unfold opens
  split
  · rename_i known
    exact .reading (inBody_fault located_expression) fun _ => opened known rfl
  · rename_i known
    exact .reading (inBody_fault located_foreachHeader) fun _ => opened known rfl
  · rename_i known
    exact .reading (inBody_fault located_rangeHeader) fun _ => opened known rfl
  · rename_i known
    exact .reading (inBody_fault located_expression) fun _ => opened known rfl
  · rename_i known
    exact opened known rfl
  · rename_i known
    exact .reading (inBody_fault located_expression) fun _ => opened known rfl
  · exact .reading (inBody_fault located_assignment) fun _ => within.add _
  · exact within.add _
  · exact ⟨_, rfl, inBody_position front body⟩

/-- A tag goes on with a block, closes it or opens another, or else it is malformed. -/
theorem led_statement (within : builder.Within artifact) (tagged : HasTag artifact front body) :
    Led artifact front body (builder.statement (ofBody (Text.bytes front + 2) body)) := by
  have faults (error : SyntaxError)
      (failed : Expr.read (ofBody (Text.bytes front + 2) body).restPosition
        (ofBody (Text.bytes front + 2) body).rest = .error error) :
      InBody front body error.position :=
    inBody_fault located_expression error failed
  fun_cases statement builder (ofBody (Text.bytes front + 2) body) with
  -- The end of a block has a source only if the block is one that runs first and asks then.
  | case3 | case4 | case5 | case6 | case7 | case11 | case14 => exact within.leave _
  | case8 => exact .reading faults fun _ => within.leave _
  -- A block that goes on keeps the offset it was opened at.
  | case2 | case10 | case13 =>
    rename_i opened
    exact within.resume (by rw [opened]; rfl)
  | case1 | case9 | case12 =>
    rename_i opened
    exact .reading faults fun _ => within.resume (by rw [opened]; rfl)
  | case15 => exact led_opens within tagged

/-- A tag that writes a value is malformed where its source is. -/
theorem led_echo (within : builder.Within artifact) {sign : Char} (narrow : sign.utf8Size = 1)
    (source : Text) (escaped : Bool) :
    Led artifact front (sign :: source)
      (builder.step (.echo source (Text.bytes front + 2 + 1) escaped)) := by
  refine .reading (fun error failed => ?_) fun _ => within.add _
  obtain ⟨behind, before⟩ := readAll_position located_expression failed
  exact ⟨by omega, by rw [Text.bytes_cons, narrow]; omega⟩

/-- A step over the segment of a tag opens a block there or fails there. -/
theorem led_step (within : builder.Within artifact) (tagged : HasTag artifact front body) :
    ∀ segment ∈ Segment.ofBody (Text.bytes front + 2) body,
      Led artifact front body (builder.step segment) := by
  fun_cases Segment.ofBody (Text.bytes front + 2) body with
  | case1 source => exact List.forall_mem_singleton.mpr (led_echo within rfl source true)
  | case2 source => exact List.forall_mem_singleton.mpr (led_echo within rfl source false)
  | case3 => simp
  | case4 body => exact List.forall_mem_singleton.mpr (led_statement within tagged)

/-- A step opens blocks only where tags stand. -/
theorem within_step (within : builder.Within artifact) {segment : Segment}
    (placed : segment.Within artifact) {next : Builder}
    (stepped : builder.step segment = .ok next) : next.Within artifact := by
  obtain ⟨content, rfl⟩ | ⟨front, body, tagged, own⟩ := placed
  · obtain rfl := Except.ok.inj stepped
    exact within.add _
  · have led := led_step within tagged segment own
    rwa [stepped] at led

/-- A step fails only at the segment of a tag, and there it fails in the tag. -/
theorem inBody_of_step (within : builder.Within artifact) {segment : Segment}
    (placed : segment.Within artifact) {error : ProgramError}
    (failed : builder.step segment = .error error) :
    ∃ fault front body, error = .malformed fault ∧ HasTag artifact front body ∧
      segment ∈ Segment.ofBody (Text.bytes front + 2) body ∧ InBody front body fault.position := by
  obtain ⟨content, rfl⟩ | ⟨front, body, tagged, own⟩ := placed
  · cases failed
  · have led := led_step within tagged segment own
    rw [failed] at led
    obtain ⟨fault, rfl, inside⟩ := led
    exact ⟨fault, front, body, rfl, tagged, own, inside⟩

/-- A run ends with the blocks that are open then, or at a segment that cannot be taken. -/
theorem run_cases (within : builder.Within artifact) {segments : List Segment}
    (placed : ∀ segment ∈ segments, segment.Within artifact) :
    (∃ last, builder.run segments = .ok last ∧ last.Within artifact) ∨
      ∃ earlier segment later last error, segments = earlier ++ segment :: later ∧
        builder.run earlier = .ok last ∧ last.Within artifact ∧
        last.step segment = .error error ∧ builder.run segments = .error error := by
  induction segments generalizing builder with
  | nil => exact .inl ⟨builder, rfl, within⟩
  | cons segment segments ih =>
    obtain ⟨first, others⟩ := List.forall_mem_cons.mp placed
    cases stepped : builder.step segment with
    | error error =>
      exact .inr ⟨[], segment, segments, builder, error, rfl, rfl, within, stepped,
        by rw [run, stepped]⟩
    | ok next =>
      obtain ⟨last, ran, kept⟩ | ⟨earlier, culprit, later, last, error, rfl, ran, kept, failed,
        stopped⟩ := ih (within_step within first stepped) others
      · exact .inl ⟨last, by rw [run, stepped, ← ran], kept⟩
      · exact .inr ⟨segment :: earlier, culprit, later, last, error, rfl,
          by rw [run, stepped, ← ran], kept, failed, by rw [run, stepped, ← stopped]⟩

/-- What is left open in the end is reported with its first word and its offset. -/
theorem exists_mark_of_finish {error : ProgramError} (failed : builder.finish = .error error) :
    ∃ mark ∈ builder.top.opening.mark?, error = .unclosed mark.1 mark.2 := by
  unfold finish at failed
  split at failed
  · cases failed
  all_goals
    rename_i opened
    rw [opened]
    exact ⟨_, rfl, (Except.error.inj failed).symm⟩

/-- A block that is never closed is reported at the tag that opened it. -/
theorem pointsInto_of_finish (within : builder.Within artifact) {error : ProgramError}
    (failed : builder.finish = .error error) : error.PointsInto artifact := by
  obtain ⟨mark, reported, rfl⟩ := exists_mark_of_finish failed
  obtain ⟨front, body, tagged, word, place⟩ := within.top mark reported
  exact ⟨front, body, tagged, word, place, place ▸ inBody_position front body⟩

end Builder

/-- An artifact that is no program is not because of a tag, and the error points into it. -/
theorem Program.pointsInto_of_read {error : ProgramError}
    (failed : Program.read artifact = .error error) (whole : error ≠ .tags .cutCharacter) :
    error.PointsInto artifact := by
  have placed : Segment.Placed artifact (segments artifact) :=
    Segment.segmentsFrom_placed [] artifact fun front inner cut => .first cut
  cases cut : segments artifact with
  | error fault =>
    rw [Program.read, cut] at failed
    rw [cut] at placed
    obtain rfl := Except.error.inj failed
    exact placed.resolve_left fun same => whole (congrArg _ same)
  | ok list =>
    rw [Program.read, cut] at failed
    rw [cut] at placed
    change (Builder.start.run list).bind Builder.finish = .error error at failed
    -- Nothing but the page is open at first.
    have start : Builder.start.Within artifact := ⟨nofun, nofun⟩
    obtain ⟨last, ran, kept⟩ | ⟨earlier, segment, later, last, fault, rfl, ran, kept, stepped,
      stopped⟩ := Builder.run_cases start placed
    · rw [ran] at failed
      exact Builder.pointsInto_of_finish kept failed
    · rw [stopped] at failed
      obtain rfl := Except.error.inj failed
      have member : segment ∈ earlier ++ segment :: later := by simp
      obtain ⟨fault, front, body, rfl, tagged, own, inside⟩ :=
        Builder.inBody_of_step kept (placed segment member) stepped
      exact ⟨front, body, tagged, ⟨earlier, segment, later, last, cut, ran, own, stepped⟩, inside⟩

/-- The offset of an error points into the tag it is about. Where an artifact is no program, unless
a tag cuts a character, the error names the opening of a tag that ends nowhere, an offset in the
body of the tag where the reading stops, or the first word of the tag that opened a block which is
never closed. A base in front of an expression is added to the position of its error, and the
position lies in the expression or at its end. -/
theorem Program.offsets_point_into_tags :
    (∀ artifact error, Program.read artifact = .error error → error ≠ .tags .cutCharacter →
      error.PointsInto artifact) ∧
    (∀ base source, Expr.read base source = (Expr.read 0 source).mapError (.shift base)) ∧
    (∀ base source error, Expr.read base source = .error error →
      base ≤ error.position ∧ error.position ≤ base + Text.bytes source) :=
  ⟨fun _ _ => Program.pointsInto_of_read, Reader.readAll_base Reader.expression,
    fun _ _ _ => Reader.readAll_position Reader.located_expression⟩

/-- A sum without its second operand is reported at the end of its tag, a loop that is never closed
at its first word, and a tag whose only end stands in quotes where it opens. -/
theorem Program.offsets_point_into_tags_items :
    ProgramError.PointsInto "<% if all %><b><%= count + %></b><% endif %>"
        (.malformed ⟨27, .missing .expression none⟩) ∧
      ProgramError.PointsInto "<ul><% foreach items as item %><li>" (.unclosed "foreach" 7) ∧
      ProgramError.PointsInto "<p><%= 'a %>' " (.tags (.unterminated 3)) ∧
      18 ≤ 27 ∧ 27 ≤ 18 + Text.bytes " count + " := by
  have points (artifact : Text) (error : ProgramError) :=
    Program.offsets_point_into_tags.1 artifact error
  refine ⟨points _ _ (eq_error_of_failure? (by decide +kernel)) nofun,
    points _ _ (eq_error_of_failure? (by decide +kernel)) nofun,
    points _ _ (eq_error_of_failure? (by decide +kernel)) nofun, ?_⟩
  have unread : Expr.read 18 " count + " = .error ⟨27, .missing .expression none⟩ :=
    eq_error_of_failure? (by decide +kernel)
  exact Program.offsets_point_into_tags.2.2 _ _ _ unread

end Templates
