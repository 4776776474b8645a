import Templates.Proofs.Program.Cursor
import Templates.Proofs.Outcome

/-!
Artifacts that a cursor cannot read.

The only slices that cannot be taken are those at the inner bytes of a character that stands in a
tag, in front of its end and outside of quotes.
-/

namespace Templates

/-- What follows an opening of a tag at which the reading of an artifact arrives: the first one, or
one behind the end of a tag. -/
inductive OpensTag : Text → Text → Prop where
  | first {artifact front inner : Text} :
    Text.cut? "<%" artifact = some (front, inner) → OpensTag artifact inner
  | later {artifact front inner body after behind : Text} :
    Text.cut? "<%" artifact = some (front, inner) → TagEnd.ofBody inner = .found body after →
      OpensTag after behind → OpensTag artifact behind

/-- A character of several bytes comes before the end of a tag, outside of quotes. -/
def Exposes (inner : Text) : Prop :=
  ∃ front c after, inner = front ++ c :: after ∧ Untagged front ∧ c.utf8Size ≠ 1

/-- A tag of an artifact that is no comment has a character of several bytes outside of quotes. -/
def CutsCharacter (artifact : Text) : Prop :=
  ∃ inner, OpensTag artifact inner ∧ inner.head? ≠ some '#' ∧ Exposes inner

namespace TagEnd

/-- A character in front changes nothing where a search is cut. -/
theorem cons_eq_cut {c : Char} {ending : TagEnd} (stuck : cons c ending = .cut) :
    ending = .cut := by
  cases ending with
  | found | missing => cases stuck
  | cut => rfl

/-- Where a search that is cut comes to: it leaves the quotes that it begins in, and then a
character of several bytes is exposed. -/
def Reaches : Option Char → Text → Prop
  | none, text => Exposes text
  | some quote, text =>
    ∃ body rest, text = body ++ quote :: rest ∧ Unquoted quote body ∧ Exposes rest

/-- A search is cut only at an exposed character. -/
theorem reaches_of_search {quote : Option Char} {text : Text} (stuck : search quote text = .cut) :
    Reaches quote text := by
  fun_induction search quote text with
  | case1 quote c rest ih =>
    obtain ⟨body, behind, rfl, unquoted, exposed⟩ := ih (cons_eq_cut (cons_eq_cut stuck))
    exact ⟨'\\' :: c :: body, behind, rfl, .escaped c unquoted, exposed⟩
  | case2 quote c rest noEscape ih =>
    have reached := ih (cons_eq_cut stuck)
    by_cases closes : c = quote
    · rw [if_pos closes] at reached
      exact ⟨[], rest, by rw [closes]; rfl, .nil, reached⟩
    · rw [if_neg closes] at reached
      obtain ⟨body, behind, rfl, unquoted, exposed⟩ := reached
      -- A backslash would have taken the next character with it.
      have plain : c ≠ '\\' := by
        intro escape
        cases body with
        | nil => exact noEscape _ _ escape rfl
        | cons d body => exact noEscape _ _ escape rfl
      exact ⟨c :: body, behind, rfl, .plain closes plain unquoted, exposed⟩
  | case3 c rest isMark ih =>
    have quoted : IsQuote c := by simpa [IsQuote] using isMark
    obtain ⟨body, _, rfl, unquoted, front, d, after, rfl, untagged, wide⟩ :=
      ih (cons_eq_cut stuck)
    exact ⟨c :: body ++ c :: front, d, after, by simp, .quoted quoted unquoted untagged, wide⟩
  | case4 | case7 => cases stuck
  | case5 c rest _ _ wide => exact ⟨[], c, rest, rfl, .nil, wide⟩
  | case6 c rest noQuote missing narrow ih =>
    obtain ⟨front, d, after, rfl, untagged, wide⟩ := ih (cons_eq_cut stuck)
    have plain : ¬IsQuote c := by simpa [IsQuote] using noQuote
    have noEnd : c = '%' → front.head? ≠ some '>' := by
      rintro rfl ends
      cases front with
      | nil => cases ends
      | cons e front =>
        cases ends
        cases missing
    exact ⟨c :: front, d, after, rfl, .plain plain (Decidable.not_not.mp narrow) noEnd untagged,
      wide⟩

/-- The search for the end of a tag is cut exactly at an exposed character. -/
theorem search_eq_cut_iff {inner : Text} : search none inner = .cut ↔ Exposes inner := by
  constructor
  · exact reaches_of_search
  · rintro ⟨front, c, after, rfl, untagged, wide⟩
    have noEnd : (c :: after).head? ≠ some '>' := by
      rintro same
      cases same
      exact wide rfl
    have noQuote : ¬(c = '"' || c = '\'') = true := by
      rw [Bool.or_eq_true, decide_eq_true_iff, decide_eq_true_iff]
      rintro (rfl | rfl) <;> exact wide rfl
    have noClose : Text.strip? "%>".toList (c :: after) = none := by
      have differs : '%' ≠ c := by
        rintro rfl
        exact wide rfl
      simp [Text.strip?, differs]
    -- Neither a quote nor an end stands in front of the test of its size.
    have here : search none (c :: after) = .cut := by
      rw [search, if_neg noQuote, noClose]
      exact if_pos wide
    rw [search_untagged untagged noEnd, here]
    -- No character in front of the cut changes it.
    clear untagged
    induction front with
    | nil => rfl
    | cons d front ih => rw [List.foldr_cons, ih]; rfl

/-- The end of a tag cannot be told exactly in a tag that is no comment, at an exposed character. -/
theorem ofBody_eq_cut_iff {inner : Text} :
    ofBody inner = .cut ↔ inner.head? ≠ some '#' ∧ Exposes inner := by
  rw [ofBody, ← search_eq_cut_iff, Ne, ← startsWith_sign_iff]
  by_cases isComment : Text.startsWith "#".toList inner = true
  · rw [if_pos isComment]
    constructor
    · intro stuck
      cases ends : Text.cut? "%>".toList inner <;> rw [ends] at stuck <;> cases stuck
    · rintro ⟨spoken, -⟩
      exact absurd isComment spoken
  · rw [if_neg isComment]
    exact (and_iff_right isComment).symm

end TagEnd

/-- A text without tags cuts no character. -/
theorem not_cutsCharacter {artifact : Text} (missing : Text.cut? "<%".toList artifact = none) :
    ¬CutsCharacter artifact := by
  rintro ⟨_, opens, _⟩
  cases opens with
  | first cut | later cut _ _ =>
    rw [missing] at cut
    cases cut

/-- An artifact cuts a character in its first tag or behind that. -/
theorem cutsCharacter_iff {artifact front inner : Text}
    (tagged : Text.cut? "<%".toList artifact = some (front, inner)) :
    CutsCharacter artifact ↔ TagEnd.ofBody inner = .cut ∨
      ∃ body after, TagEnd.ofBody inner = .found body after ∧ CutsCharacter after := by
  constructor
  · rintro ⟨behind, opens, exposed⟩
    cases opens with
    | first cut =>
      rw [tagged] at cut
      cases cut
      exact .inl (TagEnd.ofBody_eq_cut_iff.mpr exposed)
    | later cut ends opens =>
      rw [tagged] at cut
      cases cut
      exact .inr ⟨_, _, ends, _, opens, exposed⟩
  · rintro (stuck | ⟨body, after, ends, behind, opens, exposed⟩)
    · exact ⟨inner, .first tagged, TagEnd.ofBody_eq_cut_iff.mp stuck⟩
    · exact ⟨behind, .later tagged ends opens, exposed⟩

/-- The segments of a text cannot be told exactly if it cuts a character. -/
theorem Segment.segmentsFrom_eq_cut_iff (offset : Nat) (text : Text) :
    segmentsFrom offset 0 [] text = .error .cutCharacter ↔ CutsCharacter text := by
  -- What follows a tag is shorter.
  induction size : text.length using Nat.strongRecOn generalizing offset text with
  | ind length ih =>
    cases cut : Text.cut? "<%".toList text with
    | none => simp [segmentsFrom_untagged cut, not_cutsCharacter cut]
    | some parts =>
      obtain ⟨front, inner⟩ := parts
      rw [segmentsFrom_tagged cut, cutsCharacter_iff cut]
      cases ending : TagEnd.ofBody inner with
      | missing | cut => simp
      | found body after =>
        have shorter := size ▸ TagEnd.length_lt_of_ofBody cut ending
        have later := ih _ shorter (offset + Text.bytes front + 2 + Text.bytes body + 2) after rfl
        rw [map_eq_error_iff, later]
        constructor
        · exact fun cuts => .inr ⟨body, after, rfl, cuts⟩
        · rintro (stuck | ⟨_, _, same, cuts⟩)
          · cases stuck
          · cases same
            exact cuts

namespace Builder

/-- Reading a part of a program is no error in the tags, and neither is what is made of it. -/
theorem reading_ne_tags {α : Type} (next : α → Builder) (result : Except SyntaxError α)
    (error : TagError) :
    (do return next (← reading result)) ≠ Except.error (ProgramError.tags error) := by
  cases result <;> nofun

/-- A tag that opens a block is no error in the tags. -/
theorem opens_ne_tags (builder : Builder) (tag : Tag) (word : Option TagWord) (error : TagError) :
    builder.opens tag word ≠ .error (.tags error) := by
  unfold opens
  split <;> first | exact reading_ne_tags _ _ _ | nofun

/-- A step over a segment is no error in the tags. -/
theorem step_ne_tags (builder : Builder) (segment : Segment) (error : TagError) :
    builder.step segment ≠ .error (.tags error) := by
  cases segment with
  | text content => nofun
  | echo source position escaped => exact reading_ne_tags _ _ _
  | statement tag =>
    rw [step, statement]
    split <;> first | exact reading_ne_tags _ _ _ | exact opens_ne_tags _ _ _ _ | nofun

/-- A run of segments ends with no error in the tags. -/
theorem run_ne_tags (builder : Builder) (list : List Segment) (error : TagError) :
    builder.run list ≠ .error (.tags error) := by
  induction list generalizing builder with
  | nil => simp [run]
  | cons segment list ih =>
    rw [run]
    cases stepped : builder.step segment with
    | ok next => exact ih next
    | error other =>
      rintro same
      cases same
      exact builder.step_ne_tags segment error stepped

/-- Neither does a page that is closed. -/
theorem finish_ne_tags (builder : Builder) (error : TagError) :
    builder.finish ≠ .error (.tags error) := by
  unfold finish
  split <;> nofun

end Builder

/-- The segments of an artifact cannot be told exactly if it cuts a character. -/
theorem segments_eq_cut_iff (artifact : Text) :
    segments artifact = .error .cutCharacter ↔ CutsCharacter artifact :=
  Segment.segmentsFrom_eq_cut_iff 0 artifact

/-- The program in an artifact cannot be told exactly if it cuts a character. -/
theorem Program.read_eq_cut_iff (artifact : Text) :
    Program.read artifact = .error (.tags .cutCharacter) ↔ CutsCharacter artifact := by
  rw [← segments_eq_cut_iff, Program.read]
  cases cut : segments artifact with
  | error error => simp [Except.mapError, bind, Except.bind]
  | ok list =>
    -- All that comes behind the tags fails in other ways.
    refine ⟨fun fails => ?_, fun stuck => by cases stuck⟩
    change (Builder.start.run list).bind Builder.finish = _ at fails
    cases ran : Builder.start.run list with
    | error error =>
      rw [ran] at fails
      cases fails
      exact absurd ran (Builder.start.run_ne_tags list .cutCharacter)
    | ok builder =>
      rw [ran] at fails
      exact absurd fails (builder.finish_ne_tags .cutCharacter)

namespace Cursor

variable {artifact : Text}

/-- The cursor gives the segments of an artifact where they can be told. -/
theorem segments_eq (artifact : Text) :
    Cursor.segments artifact = uncut (Templates.segments artifact) :=
  segmentsFrom_eq (Text.from?_zero artifact) (Nat.lt_succ_self _)

/-- A slice of an artifact that cuts a character cannot be taken. -/
theorem read_of_cuts (cuts : CutsCharacter artifact) : Cursor.read artifact = none := by
  rw [Cursor.read, segments_eq, (segments_eq_cut_iff artifact).mpr cuts]
  rfl

/-- With slices that can all be taken an artifact is read as it is without them. -/
theorem read_of_whole (whole : ¬CutsCharacter artifact) :
    Cursor.read artifact = some (Program.read artifact) := by
  rw [← segments_eq_cut_iff] at whole
  rw [Cursor.read, segments_eq, Program.read]
  match Templates.segments artifact, whole with
  | .ok list, _ | .error (.unterminated position), _ => rfl
  | .error .cutCharacter, whole => exact absurd rfl whole

/-- With a cursor that counts bytes an artifact is read exactly if it cuts no character: each slice
on the way can then be taken, and the result is the program or an error about the artifact. If a tag
that is no comment has a character of several bytes in front of its end and outside of quotes, a
slice would begin inside that character. -/
theorem read_unless_cut (artifact : Text) :
    (Cursor.read artifact = none ↔ CutsCharacter artifact) ∧
      (∀ result, Cursor.read artifact = some result ↔
        ¬CutsCharacter artifact ∧ Program.read artifact = result) ∧
      (Program.read artifact = .error (.tags .cutCharacter) ↔ CutsCharacter artifact) := by
  refine ⟨?_, ?_, Program.read_eq_cut_iff artifact⟩
  · by_cases cuts : CutsCharacter artifact
    · simp [cuts, read_of_cuts cuts]
    · simp [cuts, read_of_whole cuts]
  · intro result
    by_cases cuts : CutsCharacter artifact
    · simp [cuts, read_of_cuts cuts]
    · simp [cuts, read_of_whole cuts]

/-- A letter with an accent in a tag that does not end is no error about the tag: the slice at its
second byte cannot be taken. -/
theorem read_accent :
    Cursor.read "<% é" = none ∧ Program.read "<% é" = .error (.tags .cutCharacter) :=
  ⟨rfl, rfl⟩

end Cursor

end Templates
