import Templates.Program.Parser
import Templates.Proofs.Expr.Opaque
import Templates.Proofs.Text.Search
import Templates.Proofs.Text.Trim

/-! Artifacts are cut back into the texts and the tags that they were written from. -/

namespace Templates

/-- A part of an artifact: text, or a tag with its first word and what follows the word. -/
inductive Piece where
  | text (content : Text)
  | tag (word : TagWord) (header : Text)

namespace Piece

/-- What stands between the signs of a tag, apart from the blanks around it. -/
def inside (word : TagWord) : Text → Text
  | [] => word.text
  | header => word.text ++ ' ' :: header

/-- A blank stands between the first word and what follows it. -/
theorem inside_cons (word : TagWord) (c : Char) (header : Text) :
    inside word (c :: header) = word.text ++ ' ' :: c :: header := rfl

/-- How a part of an artifact is written. -/
def write : Piece → Text
  | text content => content
  | tag word header => "<% ".toList ++ (inside word header ++ " %>".toList)

/-- How an artifact is written. -/
def writeAll (pieces : List Piece) : Text :=
  pieces.flatMap write

/-- A part that is told from its neighbours: no tag begins inside of it, and none ends before its
own end. -/
def Fits : Piece → Prop
  | text content => Text.contains "<%".toList content = false
  | tag _ header => Text.trim header = header ∧ Untagged header

/-- Texts with tags between them. -/
inductive Alternates : List Piece → Prop where
  | last (content : Text) : Alternates [text content]
  | more (content : Text) (word : TagWord) (header : Text) {pieces : List Piece} :
    Alternates pieces → Alternates (text content :: tag word header :: pieces)

/-- The segments of parts, wherever they stand; an empty text gives none. -/
inductive Cuts : List Piece → List Segment → Prop where
  | nil : Cuts [] []
  | empty {pieces : List Piece} {segments : List Segment} :
    Cuts pieces segments → Cuts (text [] :: pieces) segments
  | text {content : Text} {pieces : List Piece} {segments : List Segment} :
    content ≠ [] → Cuts pieces segments →
      Cuts (text content :: pieces) (.text content :: segments)
  | tag {word : TagWord} {header : Text} {pieces : List Piece} {segments : List Segment}
    (position restPosition : Nat) :
    Cuts pieces segments →
      Cuts (tag word header :: pieces)
        (.statement ⟨word.text, position, header, restPosition⟩ :: segments)

/-- Lists of parts with a tag between them alternate when both lists do. -/
theorem Alternates.append {front back : List Piece} (first : Alternates front)
    (second : Alternates back) (word : TagWord) (header : Text) :
    Alternates (front ++ tag word header :: back) := by
  -- The last text of the front stands in front of the tag.
  induction first with
  | last content => exact .more content word header second
  | more content other rest _ ih => exact .more content other rest ih

/-- The segments of two lists of parts stand one behind the other. -/
theorem Cuts.split {front back : List Piece} {segments : List Segment}
    (cuts : Cuts (front ++ back) segments) :
    ∃ first second, segments = first ++ second ∧ Cuts front first ∧ Cuts back second := by
  -- The segments are counted off with the parts, of which an empty text has none.
  induction front generalizing segments with
  | nil => exact ⟨[], segments, rfl, .nil, cuts⟩
  | cons piece front ih =>
    cases cuts with
    | empty rest =>
      obtain ⟨first, second, rfl, isFirst, isSecond⟩ := ih rest
      exact ⟨first, second, rfl, .empty isFirst, isSecond⟩
    | text filled rest =>
      obtain ⟨first, second, rfl, isFirst, isSecond⟩ := ih rest
      exact ⟨_ :: first, second, rfl, .text filled isFirst, isSecond⟩
    | tag position restPosition rest =>
      obtain ⟨first, second, rfl, isFirst, isSecond⟩ := ih rest
      exact ⟨_ :: first, second, rfl, .tag position restPosition isFirst, isSecond⟩

end Piece

/-- All characters of a first word are letters. -/
theorem TagWord.isAlpha_text (word : TagWord) : ∀ c ∈ word.text, c.isAlpha = true := by
  have letters : word.text.all Char.isAlpha = true := by cases word <;> rfl
  exact List.all_eq_true.mp letters

/-- No character of a first word is blank. -/
theorem TagWord.isBlank_text (word : TagWord) : ∀ c ∈ word.text, Text.isBlank c = false := by
  intro c member
  -- Letters leave a mark, and blanks do not.
  have printing := Lexer.printing_of_isAlpha (word.isAlpha_text c member)
  exact Lexer.not_isBlank_of_printing printing

/-- A first word can be told from its spelling. -/
theorem TagWord.ofText?_text (word : TagWord) : TagWord.ofText? word.text = some word := by
  cases word <;> rfl

namespace TagEnd

/-- Characters in front of a body belong to it. -/
theorem foldr_cons_found (front body after : Text) :
    front.foldr cons (found body after) = found (front ++ body) after := by
  -- The last character of the front is added first.
  induction front with
  | nil => rfl
  | cons c front ih => rw [List.foldr_cons, ih, cons]; rfl

/-- The body of a tag that is no comment ends where the tag does. -/
theorem ofBody_untagged {body : Text} (untagged : Untagged body) (spoken : body.head? ≠ some '#')
    (after : Text) : ofBody (body ++ (" %>".toList ++ after)) = found (body ++ [' ']) after := by
  -- The search for the end of the tag passes over all that stands in it.
  have noComment : Text.startsWith "#".toList (body ++ (" %>".toList ++ after)) = false := by
    cases body with
    | nil => rfl
    | cons c body =>
      have differs : '#' ≠ c := fun same => spoken (by rw [← same]; rfl)
      simp [Text.startsWith, Text.strip?, differs]
  have noEnd : (" %>".toList ++ after).head? ≠ some '>' := by simp
  have ends : search none (" %>".toList ++ after) = found [' '] after := rfl
  rw [ofBody, noComment, if_neg Bool.false_ne_true, search_untagged untagged noEnd, ends]
  exact foldr_cons_found body [' '] after

end TagEnd

namespace Piece

variable {header : Text}

/-- A tag does not end in what stands between its signs. -/
theorem untagged_inside (untagged : Untagged header) (word : TagWord) :
    Untagged (' ' :: inside word header) := by
  have letters : ∀ c ∈ word.text, Harmless c := fun c member =>
    .name (.inl (by simp [Lexer.startsName, word.isAlpha_text c member]))
  have blank {rest : Text} (behind : Untagged rest) : Untagged (' ' :: rest) :=
    .plain (by decide) rfl (fun percent => absurd percent (by decide)) behind
  cases header with
  | nil =>
    have named := blank (Untagged.harmless letters .nil)
    rwa [List.append_nil] at named
  | cons c header => exact blank (.harmless letters (blank untagged))

/-- What stands between the signs of a tag begins with no blank. -/
theorem trimStart_inside (word : TagWord) (header rest : Text) :
    Text.trimStart (inside word header ++ rest) = inside word header ++ rest := by
  -- The first word begins the inside, and a letter is not trimmed.
  obtain ⟨c, letters, spelled⟩ : ∃ c letters, word.text = c :: letters := by
    cases word <;> exact ⟨_, _, rfl⟩
  have marked : Text.isBlank c = false := word.isBlank_text c (by simp [spelled])
  have begins : ∃ more, inside word header ++ rest = c :: more := by
    cases header with
    | nil => exact ⟨letters ++ rest, by rw [inside, spelled, List.cons_append]⟩
    | cons d header => exact ⟨_, by rw [inside_cons, spelled, List.cons_append, List.cons_append]⟩
  obtain ⟨more, same⟩ := begins
  rw [same, Text.trimStart_of_head marked]

/-- What stands between the signs of a tag is trimmed at the end of the header. -/
theorem trimEnd_inside (word : TagWord) (header : Text) :
    Text.trimEnd (inside word header) = inside word (Text.trimEnd header) := by
  have named : Text.trimEnd word.text = word.text := by cases word <;> rfl
  cases header with
  | nil => exact named
  | cons c header =>
    have split : inside word (c :: header) = (word.text ++ [' ']) ++ c :: header := by
      rw [inside_cons, List.append_assoc]
      rfl
    rw [split]
    cases trimmed : Text.trimEnd (c :: header) with
    | nil =>
      -- Nothing is left of a blank header, nor of the blank in front of it.
      rw [Text.trimEnd_append_of_empty trimmed, Text.trimEnd_concat_blank rfl, named]
      rfl
    | cons d kept =>
      rw [Text.trimEnd_append (by simp [trimmed]), trimmed, inside_cons, List.append_assoc]
      rfl

end Piece

/-- The statement in a tag is its first word with what follows it, apart from blanks. -/
theorem Tag.ofBody_inside (word : TagWord) (header : Text) (start : Nat) :
    ∃ position restPosition,
      Tag.ofBody start (' ' :: Piece.inside word header ++ [' ']) =
        ⟨word.text, position, Text.trim header, restPosition⟩ := by
  -- The blanks at both ends are trimmed, and then the first blank ends the word.
  have whole : Text.trimEnd (Text.trimStart (' ' :: Piece.inside word header ++ [' '])) =
      Piece.inside word (Text.trimEnd header) := by
    rw [List.cons_append, Text.trimStart_of_blank rfl, Piece.trimStart_inside,
      Text.trimEnd_concat_blank rfl, Piece.trimEnd_inside]
  have marked : ∀ c ∈ word.text, (!Text.isBlank c) = true := fun c member => by
    simp [word.isBlank_text c member]
  have keyword (header : Text) :
      (Piece.inside word header).takeWhile (!Text.isBlank ·) = word.text := by
    cases header with
    | nil =>
      have named : (word.text ++ []).takeWhile (!Text.isBlank ·) = word.text ++ [] :=
        List.takeWhile_append_of_pos marked
      simpa only [Piece.inside, List.append_nil] using named
    | cons d header =>
      rw [Piece.inside_cons, List.takeWhile_append_of_pos marked]
      exact List.append_nil word.text
  have rest (header : Text) :
      Text.trimStart ((Piece.inside word header).dropWhile (!Text.isBlank ·)) =
        Text.trimStart header := by
    cases header with
    | nil =>
      have named : (word.text ++ []).dropWhile (!Text.isBlank ·) = [] :=
        List.dropWhile_append_of_pos marked
      rw [List.append_nil] at named
      rw [Piece.inside, named]
    | cons d header =>
      rw [Piece.inside_cons, List.dropWhile_append_of_pos marked]
      rfl
  rw [Tag.ofBody, whole, keyword, rest, Text.trimStart_trimEnd]
  exact ⟨_, _, rfl⟩

namespace Segment

/-- Pending text becomes a segment. -/
theorem withText_of_ne_nil {pending : Text} (filled : pending ≠ []) (segments : List Segment) :
    withText pending segments = .text pending.reverse :: segments := by
  cases pending with
  | nil => exact absurd rfl filled
  | cons c pending => rfl

/-- Characters that belong to the tag before them are passed over. -/
theorem segmentsFrom_skip (offset : Nat) (pending front after : Text) :
    segmentsFrom offset front.length pending (front ++ after) =
      segmentsFrom (offset + Text.bytes front) 0 pending after := by
  -- Each character that is passed over moves the offset on.
  induction front generalizing offset with
  | nil => simp
  | cons c front ih => simp [segmentsFrom, ih, Nat.add_assoc]

/-- Text in which no tag begins is read up to the tag behind it. -/
theorem segmentsFrom_text {content rest : Text}
    (noTag : Text.contains "<%".toList content = false) (noPercent : rest.head? ≠ some '%')
    (offset : Nat) (pending : Text) :
    segmentsFrom offset 0 pending (content ++ rest) =
      segmentsFrom (offset + Text.bytes content) 0 (content.reverse ++ pending) rest := by
  -- Each character is added to the text that is pending.
  induction content generalizing offset pending with
  | nil => rfl
  | cons c content ih =>
    obtain ⟨noStrip, others⟩ := Text.contains_cons noTag
    have noSign : Text.strip? "<%".toList (c :: (content ++ rest)) = none := by
      by_cases isSign : '<' = c
      · -- The sign would go on with the next character of the text, or with what is behind it.
        subst isSign
        cases content with
        | nil =>
          cases rest with
          | nil => rfl
          | cons d rest =>
            have differs : '%' ≠ d := fun same => noPercent (by rw [same]; rfl)
            simp [Text.strip?, differs]
        | cons d content =>
          have differs : '%' ≠ d := by
            rintro rfl
            simp [Text.strip?] at noStrip
          simp [Text.strip?, differs]
      · simp [Text.strip?, isSign]
    rw [List.cons_append, segmentsFrom, noSign]
    simp [ih others, Nat.add_assoc]

/-- A tag that is no comment is cut out of an artifact with what stands in it. -/
theorem segmentsFrom_body {body : Text} (untagged : Untagged body) (spoken : body.head? ≠ some '#')
    (offset : Nat) (pending rest : Text) :
    ∃ next,
      segmentsFrom offset 0 pending ("<%".toList ++ (body ++ (" %>".toList ++ rest))) =
        (segmentsFrom next 0 [] rest).map fun segments =>
          withText pending (ofBody (offset + 2) (body ++ [' ']) ++ segments) := by
  -- What stands behind the first character of the tag, up to its end.
  let front := '%' :: (body ++ " %>".toList)
  have written : "<%".toList ++ (body ++ (" %>".toList ++ rest)) = '<' :: (front ++ rest) := by
    simp [front]
  have opens : Text.strip? "<%".toList ('<' :: (front ++ rest)) =
      some (body ++ (" %>".toList ++ rest)) := by
    simp [Text.strip?, front]
  have length : (front ++ rest).length - rest.length = front.length := by simp
  -- What is pending becomes a segment of its own in front of that of the tag.
  refine ⟨offset + '<'.utf8Size + Text.bytes front, ?_⟩
  rw [written, segmentsFrom, opens]
  simp only [TagEnd.ofBody_untagged untagged spoken, length, segmentsFrom_skip]
  cases segmentsFrom (offset + '<'.utf8Size + Text.bytes front) 0 [] rest <;> rfl

/-- A tag is cut out of an artifact with its first word and what follows the word. -/
theorem segmentsFrom_tag {header : Text} (untagged : Untagged header) (word : TagWord)
    (offset : Nat) (pending rest : Text) :
    ∃ position restPosition next,
      segmentsFrom offset 0 pending ((Piece.tag word header).write ++ rest) =
        (segmentsFrom next 0 [] rest).map fun segments =>
          withText pending
            (.statement ⟨word.text, position, Text.trim header, restPosition⟩ :: segments) := by
  obtain ⟨position, restPosition, statement⟩ := Tag.ofBody_inside word header (offset + 2)
  have spoken : (' ' :: Piece.inside word header).head? ≠ some '#' := by simp
  obtain ⟨next, cut⟩ := segmentsFrom_body (Piece.untagged_inside untagged word) spoken offset
    pending rest
  refine ⟨position, restPosition, next, ?_⟩
  have written : (Piece.tag word header).write ++ rest =
      "<%".toList ++ (' ' :: Piece.inside word header ++ (" %>".toList ++ rest)) := by
    simp [Piece.write]
  have tag : ofBody (offset + 2) (' ' :: Piece.inside word header ++ [' ']) =
      [.statement ⟨word.text, position, Text.trim header, restPosition⟩] := by
    rw [← statement]
    rfl
  rw [written, cut, tag]
  rfl

end Segment

namespace Piece

/-- An artifact is cut into the texts and tags that it was written from. -/
theorem cuts_segmentsFrom {pieces : List Piece} (alternates : Alternates pieces)
    (fits : ∀ piece ∈ pieces, piece.Fits) (offset : Nat) :
    ∃ segments, Segment.segmentsFrom offset 0 [] (writeAll pieces) = .ok segments ∧
      Cuts pieces segments := by
  -- An empty text has left nothing pending, and gives no segment.
  have texts {content : Text} {pieces : List Piece} {segments : List Segment}
      (behind : Cuts pieces segments) :
      Cuts (.text content :: pieces) (Segment.withText content.reverse segments) := by
    cases content with
    | nil => exact .empty behind
    | cons c content =>
      rw [Segment.withText_of_ne_nil (by simp), List.reverse_reverse]
      exact .text (List.cons_ne_nil c content) behind
  induction alternates generalizing offset with
  | last content =>
    obtain ⟨own, -⟩ := List.forall_mem_cons.mp fits
    have noPercent : ([] : Text).head? ≠ some '%' := by simp
    have read := Segment.segmentsFrom_text own noPercent offset []
    refine ⟨Segment.withText content.reverse [], ?_, texts .nil⟩
    rw [show writeAll [.text content] = content ++ [] from rfl, read, List.append_nil]
    rfl
  | @more content word header pieces _ ih =>
    obtain ⟨own, tagFits, others⟩ :
        (Piece.text content).Fits ∧ (Piece.tag word header).Fits ∧
          ∀ piece ∈ pieces, piece.Fits := by
      simpa using fits
    -- A text is read up to the tag behind it, and then the tag is cut out.
    have noPercent : ((Piece.tag word header).write ++ writeAll pieces).head? ≠ some '%' := by
      simp [write]
    have read := Segment.segmentsFrom_text own noPercent offset []
    obtain ⟨trimmed, untagged⟩ := tagFits
    obtain ⟨position, restPosition, next, cut⟩ := Segment.segmentsFrom_tag untagged word
      (offset + Text.bytes content) (content.reverse ++ []) (writeAll pieces)
    rw [trimmed] at cut
    obtain ⟨segments, rest, cuts⟩ := ih others next
    refine ⟨_, ?_, texts (.tag position restPosition cuts)⟩
    rw [show writeAll (.text content :: .tag word header :: pieces) =
      content ++ ((Piece.tag word header).write ++ writeAll pieces) from rfl, read, cut, rest,
      List.append_nil]
    rfl

/-- An artifact is cut into the texts and tags that it was written from. -/
theorem cuts_segments {pieces : List Piece} (alternates : Alternates pieces)
    (fits : ∀ piece ∈ pieces, piece.Fits) :
    ∃ cut, segments (writeAll pieces) = .ok cut ∧ Cuts pieces cut :=
  cuts_segmentsFrom alternates fits 0

end Piece

end Templates
