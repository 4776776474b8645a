import Templates.Expr.Header
import Templates.Proofs.Markup.Exposed
import Templates.Proofs.Markup.Outermost
import Templates.Proofs.Markup.RoundTrip

/-!
Template syntax is text to the reader of markup, which writes text as it was read.

Only an opening bracket can begin markup. Comments and doctypes are written as they were read, and
so is a bracket behind which no tag can be read. Where a tag is read, more than text may come back.
-/

namespace Templates.Markup

namespace Token

/-- Whether an opening bracket in front of a text begins a tag. -/
def beginsTag : Text → Bool
  | '/' :: c :: _ => inTagName c
  | c :: rest =>
    c.isAlpha &&
      match readTag (c :: rest) with
      | .noTag => false
      | _ => true
  | [] => false

/-- No start tag is read where none begins. -/
theorem readTag_of_beginsTag {c : Char} {rest : Text} (letter : c.isAlpha = true)
    (noTag : beginsTag (c :: rest) = false) : readTag (c :: rest) = .noTag := by
  unfold beginsTag at noTag
  split at noTag
  · -- A slash is no letter.
    rename_i same
    cases same
    exact absurd letter (by decide)
  · rename_i same
    cases same
    rw [letter, Bool.true_and] at noTag
    split at noTag
    · assumption
    · cases noTag
  · rename_i same
    cases same

/-- Attributes without a closing bracket behind them belong to no tag. -/
theorem readAttributes_unclosed (fuel : Nat) {text : Text} (unclosed : '>' ∉ text)
    (narrow : ∀ c ∈ text, c.utf8Size = 1) : readAttributes fuel text = .noTag := by
  induction fuel generalizing text with
  | zero => rfl
  | succ fuel ih =>
    have inside : text.dropWhile Text.isMarkupBlank <:+ text := List.dropWhile_suffix _
    rw [readAttributes]
    split
    · rfl
    · -- The end of the tag would be a closing bracket.
      rename_i same
      exact absurd (inside.subset (same ▸ List.mem_cons_self)) unclosed
    · rename_i same
      exact absurd (inside.subset (same ▸ List.mem_cons_of_mem _ List.mem_cons_self)) unclosed
    · rename_i rest _ same
      have behind : rest <:+ text := (List.suffix_cons '/' rest).trans (same ▸ inside)
      exact ih (fun listed => unclosed (behind.subset listed))
        fun c listed => narrow c (behind.subset listed)
    · rename_i c rest _ _ _ same
      have behind : rest <:+ text := (List.suffix_cons c rest).trans (same ▸ inside)
      have read := readAttribute_within c rest
      split
      · rfl
      · rename_i cut
        have exposes := readAttribute_eq_cut_iff.mp cut
        exact absurd exposes (not_exposesValue fun d listed => narrow d (behind.subset listed))
      · -- Whatever attributes there are, the tag does not end behind them.
        rename_i after one
        rw [one] at read
        have left : after <:+ text := List.IsSuffix.trans read behind
        rw [ih (fun listed => unclosed (left.subset listed))
          fun d listed => narrow d (left.subset listed)]

/-- Without a closing bracket behind it no start tag is read. -/
theorem readTag_unclosed {text : Text} (unclosed : '>' ∉ text)
    (narrow : ∀ c ∈ text, c.utf8Size = 1) : readTag text = .noTag := by
  have inside : text.dropWhile inTagName <:+ text := List.dropWhile_suffix _
  rw [readTag]
  rw [readAttributes_unclosed _ (fun listed => unclosed (inside.subset listed))
    fun c listed => narrow c (inside.subset listed)]

/-- Whether any opening bracket in a text begins a tag when something stands behind the text. -/
def beginsTags (after : Text) : Text → Bool
  | [] => false
  | c :: rest => (c = '<' && beginsTag (rest ++ after)) || beginsTags after rest

/-- A token that is no tag, with the text that it was read from. -/
inductive Verbatim : Token → Text → Prop where
  | text (text : Text) : Verbatim (.text text) text
  | comment (text : Text) : Verbatim (.comment text) ("<!--".toList ++ text ++ "-->".toList)
  | doctype (text : Text) : Verbatim (.doctype text) ("<!".toList ++ text ++ ['>'])

/-- Where no tag begins, the next token is written as it was read. -/
theorem next_verbatim {c : Char} {text : Text}
    (noTag : c = '<' → beginsTag text = false) :
    ∃ token front rest, next c text = .ok (token, rest) ∧ Verbatim token (c :: front) ∧
      text = front ++ rest := by
  -- Where no markup begins or ends, text is what stands in front of the next bracket, or all.
  have part {read : Except MarkupError (Token × Text)} (same : read = .ok (plain c text)) :
      ∃ token front rest, read = .ok (token, rest) ∧ Verbatim token (c :: front) ∧
        text = front ++ rest :=
    ⟨_, _, _, same, .text _, (List.takeWhile_append_dropWhile).symm⟩
  have all {read : Except MarkupError (Token × Text)} (same : read = .ok (.text (c :: text), [])) :
      ∃ token front rest, read = .ok (token, rest) ∧ Verbatim token (c :: front) ∧
        text = front ++ rest :=
    ⟨_, _, _, same, .text _, (List.append_nil text).symm⟩
  by_cases bracket : c = '<'
  · subst bracket
    specialize noTag rfl
    unfold next
    split
    · -- A comment goes up to its end, and without one all is text.
      split
      · rename_i inner body after found
        have whole := Text.eq_of_cut? found
        exact ⟨_, "!--".toList ++ body ++ "-->".toList, after, rfl, .comment body,
          congrArg ("!--".toList ++ ·) whole |>.trans (by simp)⟩
      · exact all rfl
    · -- A doctype goes up to the next closing bracket, and without one all is text.
      split
      · rename_i inner _ body after found
        have whole := Text.eq_of_cut? found
        exact ⟨_, "!".toList ++ body ++ ['>'], after, rfl, .doctype body,
          congrArg ("!".toList ++ ·) whole |>.trans (by simp)⟩
      · exact all rfl
    · -- The name of an end tag would begin behind the slash.
      rename_i first more _
      have noName : inTagName first = false := noTag
      rw [if_neg (by simp [noName])]
      exact part rfl
    · rename_i first more _ _ _ _
      split
      · rename_i letter
        rw [readTag_of_beginsTag letter noTag]
        exact part rfl
      · exact part rfl
    · exact part rfl
  · exact part (next_of_ne bracket text)

/-- Where no tag begins in a text, none begins in its end. -/
theorem beginsTags_append {after front back : Text}
    (noTags : beginsTags after (front ++ back) = false) : beginsTags after back = false := by
  induction front with
  | nil => exact noTags
  | cons c front ih => exact ih (Bool.or_eq_false_iff.mp noTags).2

/-- Text side by side begins a tag where one of its parts does, with what stands behind it. -/
theorem beginsTags_eq (after front back : Text) :
    beginsTags after (front ++ back) =
      (beginsTags (back ++ after) front || beginsTags after back) := by
  induction front with
  | nil => rfl
  | cons c front ih =>
    rw [List.cons_append, beginsTags, beginsTags, ih, List.append_assoc, Bool.or_assoc]

/-- No tag begins in a text without opening brackets. -/
theorem beginsTags_of_notMem {text : Text} (absent : '<' ∉ text) (after : Text) :
    beginsTags after text = false := by
  induction text with
  | nil => rfl
  | cons c text ih =>
    obtain ⟨other, absent⟩ := List.ne_and_not_mem_of_not_mem_cons absent
    simp [beginsTags, Ne.symm other, ih absent]

/-- Without a closing bracket behind it no tag begins in a text, unless it is an end tag. -/
theorem beginsTags_unclosed {text : Text} (unclosed : '>' ∉ text)
    (narrow : ∀ c ∈ text, c.utf8Size = 1)
    (noEndTag : Text.contains "</".toList text = false) : beginsTags [] text = false := by
  induction text with
  | nil => rfl
  | cons c text ih =>
    obtain ⟨-, openBehind⟩ := List.ne_and_not_mem_of_not_mem_cons unclosed
    obtain ⟨-, narrowBehind⟩ := List.forall_mem_cons.mp narrow
    obtain ⟨notHere, notBehind⟩ := Text.contains_cons noEndTag
    rw [beginsTags, ih openBehind narrowBehind notBehind, Bool.or_false, List.append_nil]
    by_cases bracket : c = '<'
    · subst bracket
      rw [decide_eq_true rfl, Bool.true_and]
      unfold beginsTag
      split
      · simp [Text.strip?] at notHere
      · rw [readTag_unclosed openBehind narrowBehind, Bool.and_false]
      · rfl
    · simp [bracket]

end Token

/-- A forest under construction has grown by what is written as a text, in the same open element. -/
structure Growth.Gains (before after : Growth) (gained : Text) : Prop where
  written : writeAll after.inner.reverse = writeAll before.inner.reverse ++ gained
  opened : after.opened = before.opened

namespace Growth.Gains

variable {growth : Growth}

/-- A finished tree is written last. -/
theorem add (tree : Tree) : growth.Gains (growth.add tree) (write tree) where
  written := by
    rw [Growth.add, List.reverse_cons, writeAll_append, writeAll, writeAll, List.append_nil]
  opened := rfl

/-- Text is written last, whether or not it joins the text in front of it. -/
theorem addText (text : Text) : growth.Gains (growth.addText text) text := by
  unfold Growth.addText
  split
  · exact ⟨(List.append_nil _).symm, rfl⟩
  · rename_i front children rest _ inner
    refine ⟨?_, rfl⟩
    rw [inner, List.reverse_cons, List.reverse_cons, writeAll_append, writeAll_append,
      List.append_assoc]
    simp [writeAll, write]
  · exact add _

/-- A token that is no tag adds what it was read from. -/
theorem step {token : Token} {raw : Text} (verbatim : token.Verbatim raw) :
    growth.Gains (growth.step token) raw := by
  cases verbatim with
  | text => exact addText raw
  | comment text => exact add (.node (.comment text) [])
  | doctype text => exact add (.node (.doctype text) [])

end Growth.Gains

/-- A source in which no tag begins adds itself, token by token. -/
theorem tokens_verbatim (source : Text) (noTags : Token.beginsTags [] source = false) :
    ∃ read, tokens source = .ok read ∧
      ∀ growth : Growth, growth.Gains (read.foldl Growth.step growth) source := by
  match source, noTags with
  | [], _ => exact ⟨[], rfl, fun growth => ⟨(List.append_nil _).symm, rfl⟩⟩
  | c :: text, noTags =>
    obtain ⟨here, others⟩ := Bool.or_eq_false_iff.mp noTags
    have noTag (bracket : c = '<') : Token.beginsTag text = false := by
      simpa [bracket] using here
    obtain ⟨token, front, rest, next, verbatim, rfl⟩ := Token.next_verbatim noTag
    -- The tokens behind the first one are those of what is left of the source.
    obtain ⟨read, behind, gains⟩ := tokens_verbatim rest (Token.beginsTags_append others)
    refine ⟨token :: read, by rw [Token.tokens_of_next next, behind]; rfl, fun growth => ?_⟩
    have first : growth.Gains (growth.step token) (c :: front) := .step verbatim
    have later := gains (growth.step token)
    refine ⟨?_, later.opened.trans first.opened⟩
    rw [List.foldl_cons, later.written, first.written, List.append_assoc, List.cons_append]
termination_by source.length

/-- A source in which no tag begins is written as it was read. -/
theorem normalize_verbatim {source : Text} (noTags : Token.beginsTags [] source = false) :
    normalize source = .ok source := by
  obtain ⟨read, isRead, gains⟩ := tokens_verbatim source noTags
  -- No element is open at the end, so that all that was read is at the top.
  have whole := gains ⟨[], []⟩
  have finished : writeAll (forestOf read) = source := by
    rw [forestOf, Growth.finish, whole.opened]
    exact whole.written
  obtain ⟨d, markup⟩ := Document.parse_eq_ok (show parse source = .ok (forestOf read) by
    rw [parse, isRead]; rfl)
  rw [normalize, d]
  exact congrArg Except.ok (markup.trans finished)

/-- A source without closing brackets and end tags is written as it was read. -/
theorem normalize_unclosed {source : Text} (unclosed : '>' ∉ source)
    (narrow : ∀ c ∈ source, c.utf8Size = 1)
    (noEndTag : Text.contains "</".toList source = false) : normalize source = .ok source :=
  normalize_verbatim (Token.beginsTags_unclosed unclosed narrow noEndTag)

/-- The template syntax around an expression: its value is written, with its special characters
escaped or not, or it is the condition of a body. -/
inductive Frame where
  | escaped
  | unescaped
  | condition (body : Text)

namespace Frame

/-- What stands in front of the expression. -/
def opening : Frame → Text
  | escaped => "\x7b\x7b "
  | unescaped => "\x7b!! "
  | condition _ => "@if("

/-- What stands behind the expression. -/
def closing : Frame → Text
  | escaped => " \x7d\x7d"
  | unescaped => " !!\x7d"
  | condition body => ')' :: body ++ "@endif".toList

/-- An expression in its template syntax, with other text around it. -/
def source (frame : Frame) (before expression after : Text) : Text :=
  before ++ (frame.opening ++ (expression ++ (frame.closing ++ after)))

end Frame

/-- An expression survives in its template syntax when none of its opening brackets begins a tag
where it stands. -/
theorem normalize_frame (frame : Frame) {before expression after : Text}
    (plainBefore : '<' ∉ before) (plainBehind : '<' ∉ frame.closing ++ after)
    (noTags : Token.beginsTags (frame.closing ++ after) expression = false) :
    normalize (frame.source before expression after) =
      .ok (frame.source before expression after) := by
  -- The text around the expression has no bracket that could begin a tag.
  have opening : '<' ∉ frame.opening := by cases frame <;> simp [Frame.opening]
  refine normalize_verbatim ?_
  rw [Frame.source, Token.beginsTags_eq, Token.beginsTags_eq, Token.beginsTags_eq]
  simp only [List.append_nil, noTags, Token.beginsTags_of_notMem plainBefore,
    Token.beginsTags_of_notMem opening, Token.beginsTags_of_notMem plainBehind, Bool.or_false]

/-- Comparisons survive with blanks around their signs, and without them where no tag ends. -/
theorem normalize_comparison :
    normalize "Result: \x7b\x7b a < b && c > d \x7d\x7d.".toList =
        .ok "Result: \x7b\x7b a < b && c > d \x7d\x7d.".toList ∧
      normalize "@if(a<b && c) less @endif".toList = .ok "@if(a<b && c) less @endif".toList := by
  have blanks : Frame.escaped.source "Result: ".toList "a < b && c > d".toList ['.'] =
      "Result: \x7b\x7b a < b && c > d \x7d\x7d.".toList := by decide +kernel
  have unclosed : (Frame.condition " less ".toList).source [] "a<b && c".toList [] =
      "@if(a<b && c) less @endif".toList := by decide +kernel
  rw [← blanks, ← unclosed]
  exact ⟨normalize_frame .escaped (by decide) (by decide) (by decide +kernel),
    normalize_frame (.condition " less ".toList) (by decide) (by decide) (by decide +kernel)⟩

/-- A comparison whose sign stands right in front of a name is taken for a tag that ends at the next
sign, and the element that this tag opens is closed at the end of the source. -/
theorem normalize_comparison_tag :
    (Expr.read 0 "a<b && c>d".toList).isOk = true ∧
      '\x7b' ∉ "a<b && c>d".toList ∧ '\x7d' ∉ "a<b && c>d".toList ∧
      normalize "\x7b\x7b a<b && c>d \x7d\x7d".toList =
        .ok "\x7b\x7b a<b && c>d \x7d\x7d</b>".toList := by
  decide +kernel

end Templates.Markup
