import Templates.Layout.Block
import Templates.Proofs.Text.Scan
import Templates.Proofs.Text.Trim

/-!
Markers are comments of their own: each rule finds the ones it is about and passes over all others.
-/

namespace Templates.Layout

open Text

/-- A comment with a keyword and what follows the keyword. -/
def marker (keyword argument : Text) : Text :=
  "<!-- ".toList ++ (keyword ++ (argument ++ " -->".toList))

/-- Text that does not go on with the beginning of a comment. -/
def Quiet (text : Text) : Prop :=
  startsWith "-".toList text = false ∧ startsWith "!--".toList text = false

/-- The comment that ends a block, up to which its body goes. -/
def endRule : Rule Unit := fun text =>
  ((comment? "endblock" text).bind endComment?).map fun rest => ((), rest)

/-- A keyword is found in its own marker. -/
theorem comment?_marker {c : Char} (marked : isBlank c = false) (letters argument rest : Text) :
    comment? (c :: letters) (marker (c :: letters) argument ++ rest) =
      some (argument ++ (" -->".toList ++ rest)) := by
  -- A text goes on with itself, whatever its case.
  have same (start text : Text) : stripCaseless? start (start ++ text) = some text := by
    induction start with
    | nil => rfl
    | cons c start ih => simp [stripCaseless?, ih]
  have opened : strip? "<!--".toList (marker (c :: letters) argument ++ rest) =
      some (' ' :: ((c :: letters) ++ (argument ++ (" -->".toList ++ rest)))) := by
    rw [marker, List.append_assoc, List.append_assoc, List.append_assoc]
    rfl
  rw [comment?, opened, Option.bind_some, trimStart_of_blank rfl, List.cons_append,
    trimStart_of_head marked, ← List.cons_append, same]

/-- Nothing but the beginning of a comment is one. -/
theorem comment?_eq_none {text : Text} (other : startsWith "<!--".toList text = false)
    (keyword : Text) : comment? keyword text = none := by
  rw [startsWith, Option.isSome_eq_false_iff, Option.isNone_iff_eq_none] at other
  rw [comment?, other]
  rfl

/-- Files are included by comments. -/
theorem needs_includeRule : Needs "<!--".toList includeRule := fun text other => by
  simp only [includeRule, comment?_eq_none other]
  rfl

/-- Blocks begin with comments. -/
theorem needs_blockRule : Needs "<!--".toList blockRule := fun text other => by
  simp only [blockRule, comment?_eq_none other]
  rfl

/-- Blocks end with comments. -/
theorem needs_endRule : Needs "<!--".toList endRule := fun text other => by
  simp only [endRule, comment?_eq_none other]
  rfl

/-- The content before a block is asked for by comments. -/
theorem needs_parentRule : Needs "<!--".toList parentRule := fun text other => by
  simp only [parentRule, comment?_eq_none other]
  rfl

/-- Blocks are asked for by comments. -/
theorem needs_yieldRule : Needs "<!--".toList yieldRule := fun text other => by
  simp only [yieldRule, comment?_eq_none other]
  rfl

section Passes

variable {α : Type} {rule : Rule α} {keyword argument : Text}

/-- A rule about comments passes over text without one. -/
theorem passes_text (needs : Needs "<!--".toList rule) {front rest : Text}
    (absent : contains "<!--".toList front = false) (quiet : Quiet rest) :
    Passes rule front rest := by
  obtain ⟨noHyphen, noBang⟩ := quiet
  refine needs.passes absent fun k short positive completes => ?_
  rw [Bool.eq_false_iff, Ne, startsWith_iff] at noHyphen noBang
  -- What completes the beginning of a comment begins with a hyphen, or is all but its first sign.
  match k, short, positive with
  | 1, _, _ => exact noBang completes
  | 2, _, _ => exact noHyphen (List.IsPrefix.trans ⟨['-'], rfl⟩ completes)
  | 3, _, _ => exact noHyphen completes

/-- A rule that does not apply to a comment passes over it. -/
theorem passes_marker (needs : Needs "<!--".toList rule) (plain : '<' ∉ keyword)
    (absent : contains "<!--".toList argument = false) {rest : Text}
    (missing : rule (marker keyword argument ++ rest) = none) :
    Passes rule (marker keyword argument) rest := by
  -- There is no other comment in what the comment holds.
  have opening : '<' ∉ "!-- ".toList := by decide
  have closing : '<' ∉ " -->".toList := by decide
  refine ⟨missing, ?_⟩
  refine Passes.append (needs.passes_of_notMem opening _) ?_
  refine Passes.append (needs.passes_of_notMem plain _) ?_
  exact Passes.append (passes_text needs absent ⟨rfl, rfl⟩) (needs.passes_of_notMem closing _)

end Passes

/-- The body of a block goes on where no comment ends it. -/
theorem blockBody?_append {front rest : Text} (passes : Passes endRule front rest) :
    blockBody? (front ++ rest) =
      (blockBody? rest).map fun (body, after) => (front ++ body, after) := by
  induction front with
  | nil => simp
  | cons c front ih =>
    -- No comment ends the body here, so that this character belongs to it.
    obtain ⟨missing, others⟩ := passes
    rw [endRule, Option.map_eq_none_iff] at missing
    rw [List.cons_append, blockBody?, missing]
    simp only [ih others, Option.map_map]
    rfl

/-- A name on one line that can be told from the comment it stands in. -/
structure Name where
  text : Text
  filled : text ≠ []
  noBlank : text.any isBlank = false
  noHyphens : contains "--".toList text = false

/-- Text without two hyphens holds no comment. -/
theorem contains_comment {text : Text} (noHyphens : contains "--".toList text = false) :
    contains "<!--".toList text = false := by
  rw [Bool.eq_false_iff, Ne, contains_iff] at noHyphens ⊢
  exact fun comment => noHyphens (List.IsInfix.trans ⟨"<!".toList, [], rfl⟩ comment)

namespace Name

/-- No character of a name is blank. -/
theorem isBlank_text (name : Name) : ∀ c ∈ name.text, isBlank c = false := by
  intro c member
  simpa using List.any_eq_false.mp name.noBlank c member

/-- A name is trimmed already. -/
theorem trimEnd_text (name : Name) : trimEnd (name.text ++ [' ']) = name.text := by
  rw [trimEnd_concat_blank rfl]
  -- The last character of a name is not blank.
  rcases List.eq_nil_or_concat name.text with empty | ⟨front, c, same⟩
  · exact absurd empty name.filled
  · rw [List.concat_eq_append] at same
    rw [same]
    exact trimEnd_concat (name.isBlank_text c (by simp [same])) front

/-- A name is read up to the end of its comment. -/
theorem name?_text (name : Name) (rest : Text) :
    name? (' ' :: name.text ++ (" -->".toList ++ rest)) = some (name.text, rest) := by
  -- The end of a comment is not found in the name, which has no two hyphens.
  have noEnd : contains "-->".toList (name.text ++ [' ']) = false := by
    have noHyphens := name.noHyphens
    rw [Bool.eq_false_iff, Ne, contains_iff] at noHyphens ⊢
    intro ends
    rcases List.infix_concat_iff.mp ends with last | inside
    · -- The end of a comment does not end in a blank.
      rcases List.suffix_concat_iff.mp last with empty | ⟨front, same, -⟩
      · cases empty
      · have lastCharacter := congrArg List.getLast? same
        simp at lastCharacter
    · exact noHyphens (List.IsInfix.trans ⟨[], ['>'], rfl⟩ inside)
  have alone : ∀ k < "-->".toList.length, 0 < k → ¬"-->".toList.drop k <+: "-->".toList := by
    decide
  have cut := cut?_append (by decide) alone noEnd rest
  have begins : trimStart (' ' :: name.text ++ (" -->".toList ++ rest)) =
      name.text ++ (" -->".toList ++ rest) := by
    obtain ⟨c, more, same⟩ := List.exists_cons_of_ne_nil name.filled
    have marked := name.isBlank_text c (by simp [same])
    rw [same, List.cons_append, trimStart_of_blank rfl, List.cons_append,
      trimStart_of_head marked]
  have found : cut? "-->".toList (name.text ++ (" -->".toList ++ rest)) =
      some (name.text ++ [' '], rest) := by
    rw [← cut]
    simp
  have blank : ((' ' :: name.text ++ (" -->".toList ++ rest)).head?.any isBlank) = true := rfl
  rw [name?, afterBlanks?, if_pos blank, begins, Option.bind_some, found]
  exact congrArg (fun name => some (name, rest)) name.trimEnd_text

/-- What follows a keyword in a marker with a name. -/
def argument (name : Name) : Text :=
  ' ' :: name.text

/-- No comment begins in the name of a marker. -/
theorem contains_argument (name : Name) : contains "<!--".toList name.argument = false := by
  have inside := contains_comment name.noHyphens
  rw [contains, Option.isSome_eq_false_iff, Option.isNone_iff_eq_none] at inside ⊢
  have other : strip? "<!--".toList (' ' :: name.text) = none := rfl
  rw [argument, cut?, other]
  exact congrArg (Option.map _) inside

end Name

/-- The marker that ends a block. -/
def endMarker : Text :=
  marker "endblock".toList []

/-- A block is read with its name and its body. -/
theorem blockRule_block (name : Name) {body rest : Text}
    (passes : Passes endRule body (endMarker ++ rest)) :
    blockRule ((marker "block".toList name.argument ++ (body ++ endMarker)) ++ rest) =
      some ((name.text, body), rest) := by
  have opened : comment? "block".toList
      (marker "block".toList name.argument ++ (body ++ (endMarker ++ rest))) =
        some (name.argument ++ (" -->".toList ++ (body ++ (endMarker ++ rest)))) :=
    comment?_marker rfl _ _ _
  have named := name.name?_text (body ++ (endMarker ++ rest))
  have ended : blockBody? (endMarker ++ rest) = some ([], rest) := rfl
  rw [List.append_assoc, List.append_assoc, blockRule, opened, Option.bind_some, Name.argument,
    named]
  simp only [blockBody?_append passes, ended, Option.map_some, List.append_nil]

/-- A marker that asks for a block is read with its name. -/
theorem yieldRule_yield (name : Name) (rest : Text) :
    yieldRule (marker "yield".toList name.argument ++ rest) = some (name.text, rest) := by
  have opened : comment? "yield".toList (marker "yield".toList name.argument ++ rest) =
      some (name.argument ++ (" -->".toList ++ rest)) := comment?_marker rfl _ _ _
  -- A line break would be a blank.
  have oneLine : '\n' ∉ name.text := fun member =>
    absurd (name.isBlank_text '\n' member) (by decide)
  rw [yieldRule, opened, Option.bind_some, Name.argument, name.name?_text]
  simp only [if_neg oneLine]

end Templates.Layout
