import Templates.Proofs.Expr.Headers
import Templates.Proofs.Program.Page

/-! The artifact of a page is cut back into its texts and tags, and holds no marker. -/

namespace Templates

/-- A part of an artifact that is told from its neighbours and holds no marker. -/
structure Piece.Plain (piece : Piece) : Prop where
  fits : piece.Fits
  noMarker : '@' ∉ piece.write

namespace Piece

/-- A text between statements is a plain part. -/
theorem plain_copy (copy : Copy) : (text copy.text).Plain :=
  ⟨copy.noTag, copy.noMarker⟩

/-- No first word holds a marker. -/
theorem noMarker_inside {header : Text} (noMarker : '@' ∉ header) (word : TagWord) :
    '@' ∉ (tag word header).write := by
  -- A first word is made of letters.
  have letters : '@' ∉ word.text := fun member => absurd (word.isAlpha_text '@' member) (by decide)
  cases header with
  | nil => simp [write, inside, letters]
  | cons c header => simpa [write, inside_cons, letters] using noMarker

/-- A tag by itself is a plain part. -/
theorem plain_word (word : TagWord) : (tag word []).Plain :=
  ⟨⟨rfl, .nil⟩, noMarker_inside (by simp) word⟩

variable {α : Type} {read : Nat → Text → Except SyntaxError α}

/-- A tag with a header is a plain part. -/
theorem plain_header (grammatical : Grammatical read) (header : Header read) (word : TagWord) :
    (tag word (Text.trim header.source)).Plain := by
  -- What a header holds is what its source does, apart from blanks.
  have accepted := grammatical.trim header.accepted 0
  have noMarker : '@' ∉ Text.trim header.source := fun member =>
    header.noMarker (Text.mem_of_mem_trim member)
  exact ⟨⟨Text.trim_trim _, grammatical.untagged accepted⟩, noMarker_inside noMarker word⟩

/-- A tag with a condition is a plain part. -/
theorem plain_condition (negated : Bool) (condition : Header Expr.read) (word : TagWord) :
    (tag word (condition.conditionSource negated)).Plain := by
  cases negated with
  | false => exact plain_header Expr.grammatical condition word
  | true =>
    -- A negated condition begins and ends with characters of its own.
    have accepted := Expr.read_not (Expr.grammatical.trim condition.accepted 0) 0
    have noMarker : '@' ∉ '!' :: '(' :: Text.trim condition.source ++ [')'] := by
      simp only [List.cons_append, List.mem_cons, List.mem_append, List.not_mem_nil, or_false,
        not_or]
      exact ⟨by decide, by decide, fun member =>
        condition.noMarker (Text.mem_of_mem_trim member), by decide⟩
    have trimmed : Text.trim ('!' :: '(' :: Text.trim condition.source ++ [')']) =
        '!' :: '(' :: Text.trim condition.source ++ [')'] := by
      rw [Text.trim, List.cons_append, Text.trimStart_of_head rfl, ← List.cons_append,
        Text.trimEnd_concat rfl]
    exact ⟨⟨trimmed, Expr.grammatical.untagged accepted⟩, noMarker_inside noMarker word⟩

end Piece

mutual

/-- All parts of a page are plain. -/
theorem Page.plain (page : Page) : ∀ piece ∈ page.pieces, piece.Plain := by
  -- Texts are plain by themselves, and statements by induction.
  cases page with
  | done copy => simp [Page.pieces, Piece.plain_copy]
  | more copy statement rest =>
    have own := statement.plain
    have others := rest.plain
    simp only [Page.pieces, List.forall_mem_cons, List.forall_mem_append]
    exact ⟨Piece.plain_copy copy, own, others⟩

/-- All parts of a statement are plain. -/
theorem Statement.plain (statement : Statement) : ∀ piece ∈ statement.pieces, piece.Plain := by
  -- A statement has its own tags around the parts of what is in it.
  cases statement with
  | choice negated condition body others =>
    simp only [Statement.pieces, List.forall_mem_cons, List.forall_mem_append]
    exact ⟨Piece.plain_condition negated condition .ifTag, body.plain, others.plain,
      Piece.plain_word .endifTag, by simp⟩
  | foreach header body =>
    simp only [Statement.pieces, List.forall_mem_cons, List.forall_mem_append]
    exact ⟨Piece.plain_header ForeachHeader.grammatical header _, body.plain,
      Piece.plain_word .endforeachTag, by simp⟩
  | range header body =>
    simp only [Statement.pieces, List.forall_mem_cons, List.forall_mem_append]
    exact ⟨Piece.plain_header RangeHeader.grammatical header _, body.plain,
      Piece.plain_word .endforTag, by simp⟩
  | whileLoop condition body =>
    simp only [Statement.pieces, List.forall_mem_cons, List.forall_mem_append]
    exact ⟨Piece.plain_header Expr.grammatical condition _, body.plain,
      Piece.plain_word .endwhileTag, by simp⟩
  | doWhileLoop condition body =>
    simp only [Statement.pieces, List.forall_mem_cons, List.forall_mem_append]
    exact ⟨Piece.plain_word .doTag, body.plain,
      Piece.plain_header Expr.grammatical condition _, by simp⟩
  | switch subject lead cases =>
    simp only [Statement.pieces, List.forall_mem_cons, List.forall_mem_append]
    exact ⟨Piece.plain_header Expr.grammatical subject _, lead.plain, cases.plain,
      Piece.plain_word .endswitchTag, by simp⟩
  | assign assignment =>
    simp only [Statement.pieces, List.forall_mem_cons]
    exact ⟨Piece.plain_header Assignment.grammatical assignment _, by simp⟩
  | leave =>
    simp only [Statement.pieces, List.forall_mem_cons]
    exact ⟨Piece.plain_word .breakTag, by simp⟩

/-- All parts of the branches behind the first one are plain. -/
theorem Branches.plain (branches : Branches) : ∀ piece ∈ branches.pieces, piece.Plain := by
  -- Each branch has its tag in front of the parts of its body.
  cases branches with
  | none => simp [Branches.pieces]
  | otherwise body =>
    simp only [Branches.pieces, List.forall_mem_cons]
    exact ⟨Piece.plain_word .elseTag, body.plain⟩
  | another condition body others =>
    simp only [Branches.pieces, List.forall_mem_cons, List.forall_mem_append]
    exact ⟨Piece.plain_header Expr.grammatical condition _, body.plain, others.plain⟩

/-- All parts of cases are plain. -/
theorem Cases.plain (cases : Cases) : ∀ piece ∈ cases.pieces, piece.Plain := by
  -- Each case has its tag in front of the parts of its body.
  cases cases with
  | none => simp [Cases.pieces]
  | case test body others =>
    simp only [Cases.pieces, List.forall_mem_cons, List.forall_mem_append]
    exact ⟨Piece.plain_header Expr.grammatical test _, body.plain, others.plain⟩
  | default body others =>
    simp only [Cases.pieces, List.forall_mem_cons, List.forall_mem_append]
    exact ⟨Piece.plain_word .defaultTag, body.plain, others.plain⟩

end

mutual

/-- Texts and tags take turns in a page. -/
theorem Page.alternates (page : Page) : Piece.Alternates page.pieces := by
  cases page with
  | done copy => exact .last copy.text
  | more copy statement rest => exact statement.alternates copy.text rest.alternates

/-- Texts and tags take turns in a statement between a text and a page. -/
theorem Statement.alternates (statement : Statement) (content : Text) {behind : List Piece}
    (after : Piece.Alternates behind) :
    Piece.Alternates (.text content :: (statement.pieces ++ behind)) := by
  -- A block begins with a tag behind the text, and ends with one in front of what follows.
  have block (opening closing : TagWord) (header footer : Text) {inside : List Piece}
      (within : Piece.Alternates inside) :
      Piece.Alternates (.text content ::
        (.tag opening header :: (inside ++ [.tag closing footer]) ++ behind)) := by
    simpa using Piece.Alternates.more content opening header (within.append after closing footer)
  cases statement with
  | choice negated condition body others =>
    simpa [Statement.pieces] using
      Piece.Alternates.more content _ _ (others.alternates body.alternates after .endifTag)
  | foreach header body => exact block _ _ _ _ body.alternates
  | range header body => exact block _ _ _ _ body.alternates
  | whileLoop condition body => exact block _ _ _ _ body.alternates
  | doWhileLoop condition body => exact block _ _ _ _ body.alternates
  | switch subject lead cases =>
    simpa [Statement.pieces] using
      Piece.Alternates.more content _ _ (cases.alternates lead.alternates after .endswitchTag)
  | assign assignment => exact .more content _ _ after
  | leave => exact .more content _ _ after

/-- Texts and tags take turns in branches between pages. -/
theorem Branches.alternates (branches : Branches) {front behind : List Piece}
    (before : Piece.Alternates front) (after : Piece.Alternates behind) (word : TagWord) :
    Piece.Alternates (front ++ (branches.pieces ++ .tag word [] :: behind)) := by
  -- Each branch has a tag in front of its body, which is a page.
  cases branches with
  | none => exact before.append after word []
  | otherwise body => exact before.append (body.alternates.append after word []) .elseTag []
  | another condition body others =>
    simpa [Branches.pieces] using
      before.append (others.alternates body.alternates after word) .elseifTag _

/-- Texts and tags take turns in cases between pages. -/
theorem Cases.alternates (cases : Cases) {front behind : List Piece}
    (before : Piece.Alternates front) (after : Piece.Alternates behind) (word : TagWord) :
    Piece.Alternates (front ++ (cases.pieces ++ .tag word [] :: behind)) := by
  -- Each case has a tag in front of its body, which is a page.
  cases cases with
  | none => exact before.append after word []
  | case test body others =>
    simpa [Cases.pieces] using
      before.append (others.alternates body.alternates after word) .caseTag _
  | default body others =>
    simpa [Cases.pieces] using
      before.append (others.alternates body.alternates after word) .defaultTag _

end

namespace Page

/-- The artifact of a page holds no marker. -/
theorem noMarker_writeAll (page : Page) : '@' ∉ Piece.writeAll page.pieces := by
  -- A marker in the artifact would stand in one of its parts.
  intro member
  obtain ⟨piece, isPiece, within⟩ := List.mem_flatMap.mp member
  exact (page.plain piece isPiece).noMarker within

/-- The artifact of a page is cut into the texts and tags of the page. -/
theorem cuts_segments (page : Page) :
    ∃ cut, segments (Piece.writeAll page.pieces) = .ok cut ∧ Piece.Cuts page.pieces cut :=
  Piece.cuts_segments page.alternates fun piece member => (page.plain piece member).fits

end Page

end Templates
