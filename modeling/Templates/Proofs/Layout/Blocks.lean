import Templates.Proofs.Layout.Marker

/-!
What a text with blocks comes to.

Each block defines the content of its name anew, and may hold on to the content before it. Blocks
leave nothing where they stand. What asks for a name gets its content after the last block.
-/

namespace Templates.Layout

open Text

/-- Text that stands between markers. It may end with a hyphen, but begins with none. -/
structure Plain where
  text : Text
  noHyphens : contains "--".toList text = false
  begins : startsWith "-".toList text = false

/-- A part of the body of a block: text, or what asks for the content before the block. -/
inductive BodyPart where
  | plain (piece : Plain)
  | parent

/-- A part of a text with blocks: text, a block, or what asks for a block. -/
inductive Part where
  | plain (piece : Plain)
  | block (name : Name) (body : List BodyPart)
  | yield (name : Name)

namespace BodyPart

/-- How a part of a body is written. -/
def write : BodyPart → Text
  | plain piece => piece.text
  | parent => marker "parent".toList []

/-- How a body is written. -/
def writeAll (body : List BodyPart) : Text :=
  body.flatMap write

/-- A body is written part by part. -/
theorem writeAll_cons (part : BodyPart) (body : List BodyPart) :
    writeAll (part :: body) = part.write ++ writeAll body := rfl

/-- What a part of a body stands for, given the content before the block. -/
def resolved (previous : Text) : BodyPart → Text
  | plain piece => piece.text
  | parent => previous

/-- What a body stands for, given the content before the block. -/
def resolvedAll (previous : Text) (body : List BodyPart) : Text :=
  body.flatMap (resolved previous)

end BodyPart

namespace Part

/-- How a part of a text is written. -/
def write : Part → Text
  | plain piece => piece.text
  | block name body =>
    marker "block".toList name.argument ++ (BodyPart.writeAll body ++ endMarker)
  | yield name => marker "yield".toList name.argument

/-- How a text is written. -/
def writeAll (parts : List Part) : Text :=
  parts.flatMap write

/-- A text is written part by part. -/
theorem writeAll_cons (part : Part) (parts : List Part) :
    writeAll (part :: parts) = part.write ++ writeAll parts := rfl

/-- The content of all names behind a part: a block has its body take the place of what was there
before. -/
def define (content : Text → Text) : Part → Text → Text
  | block name body, other =>
    if other = name.text then BodyPart.resolvedAll (content name.text) body else content other
  | _, other => content other

/-- The content of all names behind some parts. -/
def defineAll (content : Text → Text) (parts : List Part) : Text → Text :=
  parts.foldl define content

/-- What a part stands for, given the content of all names. -/
def resolved (content : Text → Text) : Part → Text
  | plain piece => piece.text
  | block _ _ => []
  | yield name => content name.text

/-- What a text stands for, given the content of all names. -/
def resolvedAll (content : Text → Text) (parts : List Part) : Text :=
  parts.flatMap (resolved content)

/-- A block, which leaves nothing where it stands. -/
def isBlock : Part → Bool
  | block _ _ => true
  | _ => false

end Part

/-- Text between markers does not go on with the beginning of a comment. -/
theorem Plain.quiet (piece : Plain) {rest : Text} (quiet : Quiet rest) :
    Quiet (piece.text ++ rest) := by
  obtain ⟨noHyphen, noBang⟩ := quiet
  by_cases empty : piece.text = []
  · rw [empty]
    exact ⟨noHyphen, noBang⟩
  have noHyphens := piece.noHyphens
  have notHere : startsWith "!--".toList piece.text = false := by
    rw [Bool.eq_false_iff, Ne, contains_iff] at noHyphens
    rw [Bool.eq_false_iff, Ne, startsWith_iff]
    exact fun bang => noHyphens (List.IsInfix.trans ⟨['!'], [], rfl⟩ bang.isInfix)
  rw [Bool.eq_false_iff, Ne, startsWith_iff] at noHyphen
  refine ⟨startsWith_append empty piece.begins ?_, startsWith_append empty notHere ?_⟩
  · intro k short positive
    exact absurd short (Nat.not_lt.mpr positive)
  · -- Both ends of the sign begin with a hyphen.
    intro k short positive completes
    match k, short, positive with
    | 1, _, _ => exact noHyphen (List.IsPrefix.trans ⟨['-'], rfl⟩ completes)
    | 2, _, _ => exact noHyphen completes

/-- A rule about comments passes over text between markers. -/
theorem Plain.passes {α : Type} {rule : Rule α} (needs : Needs "<!--".toList rule) (piece : Plain)
    {rest : Text} (quiet : Quiet rest) : Passes rule piece.text rest :=
  passes_text needs (contains_comment piece.noHyphens) quiet

namespace BodyPart

/-- A body does not go on with the beginning of a comment. -/
theorem quiet (body : List BodyPart) {rest : Text} (quiet : Quiet rest) :
    Quiet (writeAll body ++ rest) := by
  induction body with
  | nil => exact quiet
  | cons part body ih =>
    rw [writeAll_cons, List.append_assoc]
    cases part with
    | plain piece => exact piece.quiet ih
    | parent => exact ⟨rfl, rfl⟩

/-- A rule about comments passes over a body if it is not about what asks for the content before. -/
theorem passes {α : Type} {rule : Rule α} (needs : Needs "<!--".toList rule)
    (other : ∀ rest, rule (marker "parent".toList [] ++ rest) = none) (body : List BodyPart)
    {rest : Text} (isQuiet : Quiet rest) : Passes rule (writeAll body) rest := by
  induction body with
  | nil => trivial
  | cons part body ih =>
    rw [writeAll_cons]
    refine .append ?_ ih
    cases part with
    | plain piece => exact piece.passes needs (quiet body isQuiet)
    | parent => exact passes_marker needs (by decide) rfl (other _)

/-- The content of a block is its body with what it asks for. -/
theorem withParent_writeAll (previous : Text) (body : List BodyPart) :
    withParent previous (writeAll body) = resolvedAll previous body := by
  rw [withParent]
  induction body with
  | nil => rfl
  | cons part body ih =>
    have isQuiet := quiet body (show Quiet [] from ⟨rfl, rfl⟩)
    rw [List.append_nil] at isQuiet
    rw [writeAll_cons]
    cases part with
    | plain piece =>
      rw [write, (piece.passes needs_parentRule isQuiet).scan, replaceHits_append,
        replaceHits_plain]
      exact congrArg (piece.text ++ ·) ih
    | parent =>
      -- What takes the place of the comment is not looked at again.
      rw [write, scan_hit (by simp [marker]) rfl]
      exact congrArg (previous ++ ·) ih

end BodyPart

/-- Characters that no block holds stay in the text. -/
theorem extract_plain (blocks : Blocks) (front : Text) (pieces : List (Text.Piece (Text × Text))) :
    extract blocks (front.map .plain ++ pieces) =
      (front ++ (extract blocks pieces).1, (extract blocks pieces).2) := by
  induction front with
  | nil => rfl
  | cons c front ih => rw [List.map_cons, List.cons_append, extract, ih]; rfl

/-- A source without includes stays as it is. -/
theorem spliceAll_plain (splice : Text → Except Error Text) (text : Text) :
    spliceAll splice (text.map .plain) = .ok text := by
  induction text with
  | nil => rfl
  | cons c text ih => rw [List.map_cons, spliceAll, ih]; rfl

/-- A block takes the place of what its name had before, and leaves all other names alone. -/
theorem content_insert (name body other : Text) (blocks : Blocks) :
    content other (blocks.insert name body) =
      if other = name then body else content other blocks := by
  split
  · rename_i same
    rw [same, content, Fields.get?_insert_self]
    rfl
  · rename_i different
    rw [content, content, Fields.get?_insert_of_ne different]

namespace Part

/-- A text does not go on with the beginning of a comment. -/
theorem quiet (parts : List Part) : Quiet (writeAll parts) := by
  induction parts with
  | nil => exact ⟨rfl, rfl⟩
  | cons part parts ih =>
    rw [writeAll_cons]
    cases part with
    | plain piece => exact piece.quiet ih
    | block name body => exact ⟨rfl, rfl⟩
    | yield name => exact ⟨rfl, rfl⟩

/-- A text holds no comment that includes a file. -/
theorem passes_includeRule (parts : List Part) : Passes includeRule (writeAll parts) [] := by
  induction parts with
  | nil => trivial
  | cons part parts ih =>
    rw [writeAll_cons]
    refine .append ?_ ih
    rw [List.append_nil]
    cases part with
    | plain piece => exact piece.passes needs_includeRule (quiet parts)
    | block name body =>
      -- None of the markers of a block includes a file.
      have closing : Passes includeRule endMarker (writeAll parts) :=
        passes_marker needs_includeRule (by decide) rfl rfl
      have inside : Passes includeRule (BodyPart.writeAll body) (endMarker ++ writeAll parts) :=
        BodyPart.passes needs_includeRule (fun _ => rfl) body ⟨rfl, rfl⟩
      refine .append ?_ (.append inside closing)
      exact passes_marker needs_includeRule (by decide) name.contains_argument rfl
    | yield name =>
      exact passes_marker needs_includeRule (by decide) name.contains_argument rfl

/-- What is left of a text without its blocks, and what the blocks define. -/
theorem extract_writeAll (parts : List Part) {blocks : Blocks} {before : Text → Text}
    (agrees : ∀ name, content name blocks = before name) :
    ∃ after, extract blocks (scan blockRule (writeAll parts)) =
        (writeAll (parts.filter (!·.isBlock)), after) ∧
      ∀ name, content name after = defineAll before parts name := by
  induction parts generalizing blocks before with
  | nil => exact ⟨blocks, rfl, agrees⟩
  | cons part parts ih =>
    rw [writeAll_cons]
    cases part with
    | plain piece =>
      obtain ⟨after, extracted, defined⟩ := ih agrees
      refine ⟨after, ?_, defined⟩
      rw [write, (piece.passes needs_blockRule (quiet parts)).scan, extract_plain, extracted]
      rfl
    | yield name =>
      obtain ⟨after, extracted, defined⟩ := ih agrees
      refine ⟨after, ?_, defined⟩
      have passes : Passes blockRule (write (yield name)) (writeAll parts) :=
        passes_marker needs_blockRule (by decide) name.contains_argument rfl
      rw [passes.scan, extract_plain, extracted]
      rfl
    | block name body =>
      -- The block is read as a whole, and its body is looked at with the content before it.
      have inside : Passes endRule (BodyPart.writeAll body) (endMarker ++ writeAll parts) :=
        BodyPart.passes needs_endRule (fun _ => rfl) body ⟨rfl, rfl⟩
      have defines (other : Text) :
          content other (blocks.insert name.text
            (withParent (content name.text blocks) (BodyPart.writeAll body))) =
            define before (block name body) other := by
        rw [content_insert, BodyPart.withParent_writeAll, agrees, agrees, define]
      obtain ⟨after, extracted, defined⟩ := ih defines
      refine ⟨after, ?_, defined⟩
      rw [write, scan_hit (by simp [marker]) (blockRule_block name inside), extract, extracted]
      rfl

/-- Blocks are put where a text without blocks asks for them. -/
theorem fill_writeAll (parts : List Part) {blocks : Blocks} {after : Text → Text}
    (agrees : ∀ name, content name blocks = after name) :
    fill blocks (writeAll (parts.filter (!·.isBlock))) = resolvedAll after parts := by
  induction parts with
  | nil => rfl
  | cons part parts ih =>
    cases part with
    | block name body => exact ih
    | plain piece =>
      have passes : Passes yieldRule piece.text (writeAll (parts.filter (!·.isBlock))) :=
        piece.passes needs_yieldRule (quiet _)
      rw [List.filter_cons_of_pos rfl, writeAll_cons, write, fill, passes.scan, replaceHits_append,
        replaceHits_plain]
      exact congrArg (piece.text ++ ·) ih
    | yield name =>
      -- The content of the name takes the place of the comment as it is.
      rw [List.filter_cons_of_pos rfl, writeAll_cons, write, fill,
        scan_hit (by simp [marker]) (yieldRule_yield name _), resolvedAll, List.flatMap_cons,
        resolved, ← agrees]
      exact congrArg (content name.text blocks ++ ·) ih

end Part

/-- A text with blocks resolves to its plain pieces in order, with the final content of each name
where the text asks for it. The content of a name starts empty, and each block in order has its body
take the place of it, with what was there before where the body asks for it. All settings that an
engine can work with allow a chain of at least one text. -/
theorem resolve_writeAll (files : Files) {config : Config} (passes : 0 < config.maxDepth)
    (parts : List Part) (origin : Text) :
    resolve files config (Part.writeAll parts) origin =
      .ok (Part.resolvedAll (Part.defineAll (fun _ => []) parts) parts) := by
  obtain ⟨depth, isDepth⟩ := Nat.exists_eq_add_one.mpr passes
  have scanned : scan includeRule (Part.writeAll parts) = (Part.writeAll parts).map .plain := by
    have scanned := (Part.passes_includeRule parts).scan
    rwa [List.append_nil, show scan includeRule [] = [] from rfl, List.append_nil] at scanned
  have included : expandIncludes files config config.maxDepth [origin] (Part.writeAll parts) =
      .ok (Part.writeAll parts) := by
    rw [isDepth, expandIncludes, scanned, spliceAll_plain]
  -- The blocks are taken out first, and their final content is filled in last.
  have empty (name : Text) : content name [] = (fun _ => []) name := rfl
  obtain ⟨after, extracted, defined⟩ := Part.extract_writeAll parts empty
  rw [resolve, included]
  refine congrArg Except.ok ?_
  rw [resolveBlocks, extracted]
  exact Part.fill_writeAll parts defined

/-- A name that is asked for in front of its blocks, and a block that extends the one before it. -/
def navigation : List Part :=
  let nav : Name := ⟨"nav".toList, by decide, rfl, rfl⟩
  let foot : Name := ⟨"foot".toList, by decide, rfl, rfl⟩
  [.yield nav, .plain ⟨['|'], rfl, rfl⟩, .block nav [.plain ⟨"A$1".toList, rfl, rfl⟩],
    .block nav [.plain ⟨['['], rfl, rfl⟩, .parent, .plain ⟨"]B".toList, rfl, rfl⟩],
    .yield nav, .yield foot]

/-- Each place gets the content of the last block, which is not read again. -/
theorem resolve_navigation :
    0 < ({} : Config).maxDepth ∧
      Part.writeAll navigation =
        ("<!-- yield nav -->|<!-- block nav -->A$1<!-- endblock --><!-- block nav -->[" ++
          "<!-- parent -->]B<!-- endblock --><!-- yield nav --><!-- yield foot -->").toList ∧
      resolve (Memory.files []) {} (Part.writeAll navigation) "views/page.html".toList =
        .ok "[A$1]B|[A$1]B".toList :=
  ⟨by decide, by decide +kernel, resolve_writeAll (Memory.files []) (by decide) navigation _⟩

end Templates.Layout
