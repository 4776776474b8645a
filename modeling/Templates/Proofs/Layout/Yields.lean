import Mathlib.Data.List.Basic
import Templates.Proofs.Layout.Marker

/-!
What is left of the comments that ask for blocks.

All of them that stand in a text are filled. The content that fills them is not read again, so that
those it brings with it stay.
-/

namespace Templates.Layout

open Text

/-- Every comment that begins in a text ends in it, and the text does not end in the middle of the
beginning of one. -/
def closesComments : Text → Bool
  | [] => true
  | c :: text =>
    (match strip? "<!--" (c :: text) with
      | some inner => contains "-->" inner
      | none => !startsWith (c :: text) "<!--") && closesComments text

/-- A text without its blocks. -/
def withoutBlocks (text : Text) : Text :=
  (extract [] (scan blockRule text)).1

/-- The blocks of a text. -/
def ownBlocks (text : Text) : Blocks :=
  (extract [] (scan blockRule text)).2

/-- The names of the blocks that a text asks for outside of blocks, in order. -/
def yields (text : Text) : List Text :=
  hits (scan yieldRule (withoutBlocks text))

/-- The names of the blocks that the content of a block asks for, in order. -/
def yieldsOf (text name : Text) : List Text :=
  hits (scan yieldRule (content name (ownBlocks text)))

/-- No comment is open where a text asks for a block, and none at the end of what fills it. -/
def keepsCommentsApart (text : Text) : Bool :=
  (stretches [] (scan yieldRule (withoutBlocks text))).all closesComments &&
    (yields text).all fun name => closesComments (content name (ownBlocks text))

section Comments

variable {keyword text inner rest name : Text}

/-- A character other than a hyphen is not the first one of the end of a comment. -/
theorem contains_end_cons {c : Char} (other : c ≠ '-') :
    contains "-->".toList (c :: text) = contains "-->".toList text := by
  have missing : strip? "-->".toList (c :: text) = none := by simp [strip?, Ne.symm other]
  rw [contains, cut?, missing, contains]
  exact Option.isSome_map

/-- The end of a comment stands behind the blanks in front of it. -/
theorem contains_end_trimStart (ends : contains "-->".toList text = true) :
    contains "-->".toList (trimStart text) = true := by
  induction text with
  | nil => exact ends
  | cons c text ih =>
    cases blank : isBlank c with
    | false => rwa [trimStart_of_head blank]
    | true =>
      have other : c ≠ '-' := by
        rintro rfl
        exact absurd blank (by decide)
      rw [contains_end_cons other] at ends
      rw [trimStart_of_blank blank]
      exact ih ends

/-- Blanks in front of the end of a comment are trimmed whatever follows it. -/
theorem trimStart_append_of_end (ends : contains "-->".toList text = true) (rest : Text) :
    trimStart (text ++ rest) = trimStart text ++ rest := by
  apply trimStart_append
  intro empty
  have behind := contains_end_trimStart ends
  rw [empty] at behind
  cases behind

/-- A keyword has no hyphen, in any case. -/
def isKeyword (keyword : Text) : Bool :=
  keyword.all fun p => fold p ≠ fold '-'

/-- A keyword is found in a comment whatever follows that, and in front of its end. -/
theorem stripCaseless?_append (letters : isKeyword keyword = true)
    (ends : contains "-->".toList text = true) (rest : Text) :
    stripCaseless? keyword (text ++ rest) = (stripCaseless? keyword text).map (· ++ rest) ∧
      ∀ after, stripCaseless? keyword text = some after → contains "-->".toList after = true := by
  induction keyword generalizing text with
  | nil =>
    refine ⟨rfl, ?_⟩
    intro after same
    obtain rfl := Option.some.inj same
    exact ends
  | cons p keyword ih =>
    obtain ⟨first, others⟩ := Bool.and_eq_true_iff.mp letters
    have first : fold p ≠ fold '-' := of_decide_eq_true first
    cases text with
    | nil => cases ends
    | cons c text =>
      by_cases same : fold p = fold c
      · -- The character is one of the keyword, and so it is no hyphen.
        have other : c ≠ '-' := by
          rintro rfl
          exact first same
        rw [contains_end_cons other] at ends
        simpa [stripCaseless?, same] using ih others ends
      · simp [stripCaseless?, same]

/-- What follows a keyword is the end of the text. -/
theorem suffix_of_stripCaseless? (found : stripCaseless? keyword text = some rest) :
    rest <:+ text := by
  induction keyword generalizing text with
  | nil =>
    obtain rfl := Option.some.inj found
    exact List.suffix_rfl
  | cons p keyword ih =>
    cases text with
    | nil => cases found
    | cons c text =>
      rw [stripCaseless?] at found
      split at found
      · exact (ih found).trans (List.suffix_cons c text)
      · cases found

/-- A comment is read whatever follows it. -/
theorem comment?_append (letters : isKeyword keyword = true)
    (ends : contains "-->".toList inner = true) (rest : Text) :
    comment? keyword ("<!--".toList ++ inner ++ rest) =
        (comment? keyword ("<!--".toList ++ inner)).map (· ++ rest) ∧
      ∀ after, comment? keyword ("<!--".toList ++ inner) = some after →
        contains "-->".toList after = true := by
  have behind := stripCaseless?_append letters (contains_end_trimStart ends) rest
  rw [comment?, comment?, List.append_assoc, strip?_append, strip?_append, Option.bind_some,
    Option.bind_some, trimStart_append_of_end ends]
  exact behind

/-- What follows the keyword of a comment is the end of what the comment holds. -/
theorem suffix_of_comment? (found : comment? keyword text = some rest) :
    ∃ inner, text = "<!--".toList ++ inner ∧ rest <:+ inner := by
  obtain ⟨inner, opened, found⟩ := Option.bind_eq_some_iff.mp found
  refine ⟨inner, eq_append_of_strip? opened, ?_⟩
  exact (suffix_of_stripCaseless? found).trans (List.dropWhile_suffix isBlank)

/-- A name is read whatever follows its comment. -/
theorem name?_append (ends : contains "-->".toList text = true) (rest : Text) :
    name? (text ++ rest) = (name? text).map fun (name, after) => (name, after ++ rest) := by
  have head : (text ++ rest).head? = text.head? := by
    cases text with
    | nil => cases ends
    | cons c text => rfl
  rw [name?, name?, afterBlanks?, afterBlanks?, head]
  cases blank : text.head?.any isBlank with
  | false => rfl
  | true =>
    obtain ⟨⟨front, after⟩, cut⟩ := Option.isSome_iff_exists.mp (contains_end_trimStart ends)
    have extended := cut?_append_right cut (by decide) rest
    rw [if_pos rfl, if_pos rfl, Option.bind_some, Option.bind_some, trimStart_append_of_end ends,
      extended, cut]
    rfl

/-- What follows a name is the end of the text, behind the end of the comment. -/
theorem suffix_of_name? (found : name? text = some (name, rest)) :
    contains "-->".toList text = true ∧ rest <:+ text := by
  obtain ⟨inner, begins, found⟩ := Option.bind_eq_some_iff.mp found
  obtain ⟨⟨front, after⟩, cut, same⟩ := Option.map_eq_some_iff.mp found
  cases same
  have trimmed : inner <:+ text := by
    rw [afterBlanks?] at begins
    split at begins
    · obtain rfl := Option.some.inj begins
      exact List.dropWhile_suffix isBlank
    · cases begins
  have whole := eq_of_cut? cut
  refine ⟨contains_iff.mpr ?_, ?_⟩
  · have inside : "-->".toList <:+: inner := ⟨front, rest, whole.symm⟩
    exact inside.trans trimmed.isInfix
  · exact (whole ▸ List.suffix_append (front ++ "-->".toList) rest).trans trimmed

end Comments

section Rule

variable {text inner rest name : Text}

/-- The keyword that asks for a block. -/
theorem isKeyword_yield : isKeyword "yield".toList = true := by
  decide +kernel

/-- What asks for a block is a comment. -/
theorem comment_of_yieldRule (found : yieldRule text = some (name, rest)) :
    ∃ inner, text = "<!--".toList ++ inner ∧ contains "-->".toList inner = true ∧
      rest <:+ inner := by
  rw [yieldRule] at found
  split at found
  · rename_i other after named
    obtain ⟨behind, opened, named⟩ := Option.bind_eq_some_iff.mp named
    obtain ⟨inner, whole, ends⟩ := suffix_of_comment? opened
    obtain ⟨closes, inside⟩ := suffix_of_name? named
    split at found
    · cases found
    · cases found
      refine ⟨inner, whole, ?_, inside.trans ends⟩
      rw [contains_iff] at closes ⊢
      exact closes.trans ends.isInfix
  · cases found

/-- What asks for a block is read whatever follows it. -/
theorem yieldRule_append (ends : contains "-->".toList inner = true) (rest : Text) :
    yieldRule ("<!--".toList ++ inner ++ rest) =
      (yieldRule ("<!--".toList ++ inner)).map fun (name, after) => (name, after ++ rest) := by
  obtain ⟨extended, closes⟩ := comment?_append isKeyword_yield ends rest
  rw [yieldRule, yieldRule, extended]
  cases opened : comment? "yield".toList ("<!--".toList ++ inner) with
  | none => rfl
  | some behind =>
    rw [Option.map_some, Option.bind_some, Option.bind_some, name?_append (closes behind opened)]
    cases named : name? behind with
    | none => rfl
    | some found =>
      obtain ⟨name, after⟩ := found
      by_cases lines : '\n' ∈ name <;> simp [lines]

/-- What asks for a block is taken off the front of a text. -/
theorem consumes_yieldRule : Consumes yieldRule := by
  intro text name rest found
  obtain ⟨inner, rfl, -, front, rfl⟩ := comment_of_yieldRule found
  exact ⟨"<!--".toList ++ front, by simp, by rw [List.append_assoc]⟩

/-- What asks for a block does so whatever follows it. -/
theorem extends_yieldRule : Extends yieldRule := by
  intro text name rest found back
  obtain ⟨inner, rfl, ends, -⟩ := comment_of_yieldRule found
  rw [yieldRule_append ends, found]
  rfl

/-- Where all comments end, what asks for blocks does not depend on what follows. -/
theorem closed_of_closesComments (closes : closesComments text = true) :
    Closed yieldRule text := by
  intro part ends filled rest
  obtain ⟨front, rfl⟩ := ends
  -- The front of the text does not matter.
  have closes : closesComments part = true := by
    induction front with
    | nil => exact closes
    | cons c front ih => exact ih (Bool.and_eq_true_iff.mp closes).2
  cases part with
  | nil => exact absurd rfl filled
  | cons c part =>
    have here := (Bool.and_eq_true_iff.mp closes).1
    split at here
    · rename_i inner opened
      rw [eq_append_of_strip? opened]
      exact yieldRule_append here rest
    · -- No comment begins here, neither with nor without what follows.
      rename_i missing
      have absent : startsWith "<!--".toList (c :: part) = false := by
        rw [startsWith, missing]
        rfl
      have absentBehind : startsWith "<!--".toList (c :: part ++ rest) = false := by
        rw [Bool.eq_false_iff, Ne, startsWith_iff] at absent ⊢
        intro begins
        rcases List.prefix_or_prefix_of_prefix begins (List.prefix_append (c :: part) rest) with
          before | before
        · exact absent before
        · rw [← startsWith_iff] at before
          rw [before] at here
          cases here
      rw [needs_yieldRule _ absent, needs_yieldRule _ absentBehind]
      rfl

end Rule

/-- What resolves has had its includes resolved and its blocks filled in. -/
theorem exists_of_resolve {files : Files} {config : Config} {source origin out : Text}
    (resolved : resolve files config source origin = .ok out) :
    ∃ text, expandIncludes files config config.maxDepth [origin] source = .ok text ∧
      out = fill (ownBlocks text) (withoutBlocks text) := by
  cases included : expandIncludes files config config.maxDepth [origin] source with
  | error e => simp [resolve, included, Except.map] at resolved
  | ok text =>
    simp only [resolve, included, Except.map, Except.ok.injEq] at resolved
    exact ⟨text, rfl, resolved.symm⟩

/-- A resolved source still asks for a block if the content that fills one of its places does. Where
no comment is open at such a place, and none at the end of what fills it, what it still asks for is
what those contents ask for, in order: it asks for nothing if none of them does. -/
theorem yields_resolve {files : Files} {config : Config} {source origin out : Text}
    (resolved : resolve files config source origin = .ok out) :
    ∃ text, expandIncludes files config config.maxDepth [origin] source = .ok text ∧
      (hits (scan yieldRule out) = [] → ∀ name ∈ yields text, yieldsOf text name = []) ∧
      (keepsCommentsApart text = true →
        hits (scan yieldRule out) = (yields text).flatMap (yieldsOf text)) := by
  obtain ⟨text, included, rfl⟩ := exists_of_resolve resolved
  refine ⟨text, included, ?_, ?_⟩
  · intro nothing name member
    -- The content stands somewhere in the new text.
    obtain ⟨front, back, written⟩ : ∃ front back,
        fill (ownBlocks text) (withoutBlocks text) =
          front ++ (content name (ownBlocks text) ++ back) := exists_replaceHits member
    rw [hits_scan_eq_nil_iff, written] at nothing
    exact hits_scan_eq_nil_iff.mpr (extends_yieldRule.passes_infix nothing)
  · intro apart
    obtain ⟨around, within⟩ := Bool.and_eq_true_iff.mp apart
    rw [List.all_eq_true] at around within
    apply hits_scan_replaceHits consumes_yieldRule
    · intro stretch member
      exact closed_of_closesComments (around stretch member)
    · intro name member
      exact closed_of_closesComments (within name member)

/-- A layout that asks for a block. -/
def frame : Memory :=
  [("views/frame.html".toList, "[<!-- yield a -->]".toList)]

/-- Comments that ask for nothing stay, and all that asks for a block is filled. -/
theorem yields_resolve_note :
    resolve frame.files {}
        "<!-- extend frame --><!-- block a --><!-- note -->x<!-- endblock -->".toList [] =
      .ok "[<!-- note -->x]".toList ∧
    hits (scan yieldRule "[<!-- note -->x]".toList) = [] := by
  have resolved : resolve frame.files {}
      "<!-- extend frame --><!-- block a --><!-- note -->x<!-- endblock -->".toList [] =
        .ok "[<!-- note -->x]".toList := by decide +kernel
  refine ⟨resolved, ?_⟩
  obtain ⟨text, included, -, left⟩ := yields_resolve resolved
  have whole : expandIncludes frame.files {} 32 [[]]
      "<!-- extend frame --><!-- block a --><!-- note -->x<!-- endblock -->".toList =
        .ok "[<!-- yield a -->]<!-- block a --><!-- note -->x<!-- endblock -->".toList := by
    decide +kernel
  obtain rfl := Except.ok.inj (whole.symm.trans included)
  rw [left (by decide +kernel)]
  decide +kernel

/-- What asks for a block inside the block that fills a layout is left in the page as it stands,
although the block it asks for is there. -/
theorem resolve_leaves_inner_yield :
    resolve frame.files {}
        ("<!-- extend frame --><!-- block a --><!-- yield b --><!-- endblock -->" ++
          "<!-- block b -->x<!-- endblock -->").toList [] =
      .ok "[<!-- yield b -->]".toList ∧
    hits (scan yieldRule "[<!-- yield b -->]".toList) = [['b']] := by
  decide +kernel

end Templates.Layout
