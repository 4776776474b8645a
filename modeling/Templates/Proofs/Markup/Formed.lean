import Templates.Proofs.Markup.Settled

/-!
Whatever is read from a source is formed: names, values, comments and raw content end where they
are written to end, and no text follows right behind another one.
-/

namespace Templates.Markup

namespace Token

/-- A token as it is read. -/
def Formed : Token → Prop
  | .text body => body ≠ []
  | .comment body => Text.contains "-->" body = false
  | .doctype body => Text.contains ">" body = false ∧ Text.startsWith "--" body = false
  | .startTag e none => e.Formed ∧ (!e.isShort && isRaw e.name) = false
  | .startTag e (some content) =>
    e.Formed ∧ (!e.isShort && isRaw e.name) = true ∧
      Text.contains (rawClosing e.name) (Text.asciiLower content) = false
  | .endTag _ => True

/-- A value that was read between quotes has none of these quotes in it. -/
theorem notMem_of_quotedValue {quote : Char} {text value rest : Text}
    (read : quotedValue quote text = .read value rest) : quote ∉ value := by
  -- The reader would have stopped at the quote.
  induction text generalizing value with
  | nil => cases read
  | cons c text ih =>
    rw [quotedValue] at read
    split at read
    · cases read
      exact List.not_mem_nil
    · rename_i other
      split at read
      · rename_i inner
        cases read
        exact List.not_mem_cons_of_ne_of_not_mem (Ne.symm other) (ih inner)
      · rename_i noValue
        exact absurd read (noValue _ _)

/-- A value that was read without quotes is a first part of the text, and none of its characters
could have ended it. -/
theorem isValue_of_bareValue {text value rest : Text}
    (read : bareValue text = .read value rest) :
    value <+: text ∧ ∀ c ∈ value, Text.isMarkupBlank c = false ∧ c ≠ '>' ∧ c.utf8Size = 1 := by
  -- The reader goes character by character, and each one it takes has passed both of its tests.
  induction text generalizing value with
  | nil =>
    cases read
    exact ⟨List.nil_prefix, fun _ listed => nomatch listed⟩
  | cons c text ih =>
    rw [bareValue] at read
    split at read
    · cases read
      exact ⟨List.nil_prefix, fun _ listed => nomatch listed⟩
    · rename_i inside
      split at read
      · cases read
      · rename_i small
        split at read
        · rename_i inner
          cases read
          obtain ⟨part, plain⟩ := ih inner
          refine ⟨List.cons_prefix_cons.mpr ⟨rfl, part⟩, List.forall_mem_cons.mpr ⟨?_, plain⟩⟩
          simp only [Bool.or_eq_true, decide_eq_true_eq, not_or] at inside
          exact ⟨by simpa using inside.1.1, inside.1.2, by simpa using small⟩
        · rename_i noValue
          exact absurd read (noValue _ _)

/-- A value that was read does not hold what ends it. -/
theorem isValue_of_readValue {text value rest : Text}
    (read : (readValue text).2 = .read value rest) :
    Attribute.IsValue (readValue text).1 value := by
  unfold readValue at read ⊢
  split at read
  · exact notMem_of_quotedValue read
  · exact notMem_of_quotedValue read
  · rename_i noDouble noSingle
    obtain ⟨⟨more, rfl⟩, plain⟩ := isValue_of_bareValue read
    -- A quote in front would have been taken for an opening one.
    refine ⟨plain, fun first => ?_, fun first => ?_⟩
    · obtain ⟨_, rfl⟩ := List.head?_eq_some_iff.mp first
      exact noDouble _ rfl
    · obtain ⟨_, rfl⟩ := List.head?_eq_some_iff.mp first
      exact noSingle _ rfl

/-- An attribute that was read is formed. -/
theorem formed_of_readAttribute {first : Char} {text rest : Text} {a : Attribute}
    (solid : Text.isMarkupBlank first = false) (bracket : first ≠ '>') (slash : first ≠ '/')
    (read : readAttribute first text = .read a rest) : a.Formed := by
  -- The name is the first character, which was looked at before, and all up to the end of the name.
  have named : Attribute.IsName (first :: text.takeWhile (!endsName ·)) := by
    refine ⟨first, _, rfl, solid, bracket, slash, fun c listed => ?_⟩
    have inside := List.all_eq_true.mp List.all_takeWhile c listed
    simpa using inside
  rw [readAttribute_eq] at read
  split at read
  · split at read
    · rename_i value
      cases read
      refine ⟨named, fun held same => ?_, fun none => nomatch none⟩
      cases same
      exact isValue_of_readValue value
    · cases read
    · cases read
  · cases read
    exact ⟨named, fun _ none => (nomatch none), fun _ => rfl⟩

/-- All attributes that were read are formed. -/
theorem formed_of_readAttributes {fuel : Nat} {text rest : Text} {attributes : List Attribute}
    {slash : Bool} (read : readAttributes fuel text = .read (attributes, slash) rest) :
    ∀ a ∈ attributes, a.Formed := by
  -- Each unit of fuel reads a slash or an attribute.
  induction fuel generalizing text attributes slash rest with
  | zero => cases read
  | succ fuel ih =>
    rw [readAttributes] at read
    split at read
    · cases read
    · cases read
      exact List.forall_mem_nil _
    · cases read
      exact List.forall_mem_nil _
    · exact ih read
    · rename_i c inner bracket _ noSlash trimmed
      -- What is left of the blanks begins with none.
      have solid : Text.isMarkupBlank c = false := by
        have stopped := List.head?_dropWhile_not Text.isMarkupBlank text
        rw [trimmed] at stopped
        simpa using stopped
      split at read
      · cases read
      · cases read
      · rename_i a after one
        split at read
        · rename_i others
          cases read
          refine List.forall_mem_cons.mpr ⟨?_, ih others⟩
          refine formed_of_readAttribute solid (fun same => ?_) (fun same => ?_) one
          · exact bracket same
          · exact noSlash same
        · rename_i noTag
          exact absurd read (noTag _ _ _)

/-- An element that was read is formed, if its name begins with a letter. -/
theorem formed_of_readTag {first : Char} {text rest : Text} {e : Element}
    (letter : first.isAlpha = true) (read : readTag (first :: text) = .read e rest) : e.Formed := by
  -- The name begins with the letter, and all of it is characters of such names.
  have inside : inTagName first = true := by
    simp [inTagName, Char.isAlphanum, letter]
  unfold readTag at read
  simp only [List.takeWhile_cons, List.dropWhile_cons, inside, if_true] at read
  split at read
  · rename_i attributes slash after listed
    cases read
    refine ⟨⟨first, _, rfl, letter, fun c within => ?_⟩, formed_of_readAttributes listed⟩
    exact List.all_eq_true.mp List.all_takeWhile c within
  · cases read
  · cases read

/-- Raw content that was read has no end tag of its element in it. -/
theorem contains_of_rawContent {closing : Text} (filled : closing ≠ []) (text : Text) :
    Text.contains closing (Text.asciiLower (rawContent closing text).1) = false := by
  rw [rawContent_eq filled]
  cases found : Text.cut? closing (Text.asciiLower text) with
  | none => simp [Text.contains, found]
  | some parts =>
    obtain ⟨front, back⟩ := parts
    -- The content is as long as what stands in front of the end tag in small letters.
    show Text.contains closing (Text.asciiLower (text.take front.length)) = false
    rw [asciiLower_take found]
    exact Text.contains_of_cut? filled found

/-- A token that was read is formed. -/
theorem formed_of_next {c : Char} {text rest : Text} {token : Token}
    (read : next c text = .ok (token, rest)) : token.Formed := by
  cases next_cases read with
  | text filled _ => exact filled
  | comment _ found => exact Text.contains_of_cut? (by decide) found
  | doctype _ noComment found =>
    refine ⟨Text.contains_of_cut? (by decide) found, ?_⟩
    -- A doctype that began with two hyphens would be a comment.
    rw [Bool.eq_false_iff]
    intro hyphens
    obtain ⟨more, rfl⟩ := Text.startsWith_iff.mp hyphens
    exact noComment _ (Text.eq_of_cut? found)
  | endTag _ _ => trivial
  | startTag _ letter tag notRaw => exact ⟨formed_of_readTag letter tag, notRaw⟩
  | @rawTag _ _ after _ e _ letter tag raw held =>
    have absent := contains_of_rawContent (rawClosing_ne_nil e.name) after
    rw [held] at absent
    exact ⟨formed_of_readTag letter tag, raw, absent⟩

/-- All tokens of a source are formed. -/
theorem formed_of_tokensFrom {skip : Nat} {source : Text} {read : List Token}
    (all : tokensFrom skip source = .ok read) : ∀ token ∈ read, token.Formed := by
  fun_induction tokensFrom skip source generalizing read with
  | case1 =>
    cases all
    exact fun _ listed => nomatch listed
  | case2 skip c rest ih => exact ih all
  | case3 => cases all
  | case4 c rest token after one others later ih =>
    cases all
    exact List.forall_mem_cons.mpr ⟨formed_of_next one, ih later⟩
  | case5 => cases all

end Token

/-- Formed trees side by side are formed if no two texts meet. -/
theorem formedAll_append {left right : List Tree} :
    FormedAll (left ++ right) ↔ FormedAll left ∧ FormedAll right ∧
      (left.getLast?.any Tree.isText && beginsWithText right) = false := by
  induction left with
  | nil => simp [FormedAll]
  | cons tree rest ih =>
    rw [List.cons_append, FormedAll, ih, FormedAll]
    -- Where the trees meet, the last one on the left is also that without the first one.
    cases rest with
    | nil => simp [FormedAll, beginsWithText, and_comm]
    | cons next rest =>
      rw [List.getLast?_cons_cons]
      simp only [beginsWithText, List.cons_append, List.head?_cons, and_assoc]

/-- Formed trees are formed in reverse order as well. -/
theorem formedAll_reverse {trees : List Tree} (formed : FormedAll trees) :
    FormedAll trees.reverse := by
  -- Two trees that were side by side still are.
  induction trees with
  | nil => trivial
  | cons tree rest ih =>
    obtain ⟨first, apart, formedRest⟩ := formed
    rw [List.reverse_cons, formedAll_append]
    refine ⟨ih formedRest, ⟨first, Bool.and_false _, trivial⟩, ?_⟩
    rw [List.getLast?_reverse, Bool.and_comm]
    simpa [beginsWithText] using apart

namespace Growth

/-- A forest under construction is formed, and so is each element that is open. -/
structure Formed (growth : Growth) : Prop where
  inner : FormedAll growth.inner
  opened : ∀ frame ∈ growth.opened, frame.1.Formed ∧ frame.1.isShort = false ∧
    isRaw frame.1.name = false ∧ FormedAll frame.2

variable {growth : Growth}

/-- A formed tree that is not text may be added anywhere. -/
theorem Formed.add (formed : growth.Formed) {tree : Tree} (fits : tree.Formed)
    (other : tree.isText = false) : (growth.add tree).Formed :=
  ⟨⟨fits, by rw [other]; rfl, formed.inner⟩, formed.opened⟩

/-- A text is added to the text in front of it, if there is one. -/
theorem Formed.addText (formed : growth.Formed) (text : Text) : (growth.addText text).Formed := by
  obtain ⟨inner, opened⟩ := growth
  unfold Growth.addText
  split
  · exact formed
  · -- The text in front stays the last tree, and is longer.
    rename_i front children rest _ same
    obtain ⟨⟨filled, bare⟩, apart, before⟩ : FormedAll (.node (.text front) children :: rest) :=
      same ▸ formed.inner
    exact ⟨⟨⟨by simp [filled], bare⟩, apart, before⟩, formed.opened⟩
  · rename_i filled noText
    refine ⟨⟨⟨filled, rfl⟩, ?_, formed.inner⟩, formed.opened⟩
    -- The last tree so far is no text.
    cases inner with
    | nil => rfl
    | cons tree rest =>
      obtain ⟨content, children⟩ := tree
      cases content with
      | text front => exact absurd rfl (noText _ _ _)
      | _ => rfl

/-- Elements that close become formed trees. -/
theorem Formed.close (formed : growth.Formed) (count : Nat) :
    (Growth.close count growth).Formed := by
  induction count generalizing growth with
  | zero => exact formed
  | succ count ih =>
    obtain ⟨inner, opened⟩ := growth
    cases opened with
    | nil => exact formed
    | cons frame opened =>
      -- What was read in the element becomes its children.
      obtain ⟨⟨tag, long, notRaw, before⟩, others⟩ := List.forall_mem_cons.mp formed.opened
      refine ih ⟨⟨⟨tag, ?_⟩, rfl, before⟩, others⟩
      rw [if_neg (by simp [long]), if_neg (by simp [notRaw])]
      exact formedAll_reverse formed.inner

/-- A formed token leads from a formed forest to a formed one. -/
theorem Formed.step (formed : growth.Formed) {token : Token} (fits : token.Formed) :
    (growth.step token).Formed := by
  cases token with
  | text body => exact formed.addText body
  | comment body => exact formed.add ⟨fits, rfl⟩ rfl
  | doctype body => exact formed.add ⟨fits.1, fits.2, rfl⟩ rfl
  | endTag name =>
    show (growth.endTag name).Formed
    unfold Growth.endTag
    split
    · exact formed.close _
    · exact formed
  | startTag e raw =>
    cases raw with
    | none =>
      obtain ⟨tag, notRaw⟩ := fits
      show (if e.isShort then growth.add (.node (.element e) []) else growth.enter e).Formed
      cases short : e.isShort with
      | true => exact formed.add ⟨tag, by rw [if_pos short]⟩ rfl
      | false =>
        -- Nothing is in the element yet, which waits with the trees in front of it.
        refine ⟨trivial, List.forall_mem_cons.mpr ⟨⟨tag, short, ?_, formed.inner⟩, formed.opened⟩⟩
        simpa [short] using notRaw
    | some content =>
      obtain ⟨tag, raw, absent⟩ := fits
      obtain ⟨long, isRaw⟩ := Bool.and_eq_true_iff.mp raw
      have whole {children : List Tree} (held : IsRawContent e.name children) :
          (Tree.node (.element e) children).Formed := by
        refine ⟨tag, ?_⟩
        rw [if_neg (by simpa using long), if_pos isRaw]
        exact held
      cases content with
      | nil => exact formed.add (whole (.inl rfl)) rfl
      | cons c rest =>
        exact formed.add (whole (.inr ⟨_, rfl, List.cons_ne_nil _ _, absent⟩)) rfl

/-- Formed tokens make a formed forest. -/
theorem Formed.foldl (formed : growth.Formed) {read : List Token}
    (fit : ∀ token ∈ read, token.Formed) : (read.foldl Growth.step growth).Formed := by
  induction read generalizing growth with
  | nil => exact formed
  | cons token rest ih =>
    obtain ⟨fits, fit⟩ := List.forall_mem_cons.mp fit
    exact ih (formed.step fits) fit

end Growth

/-- The forest of a source is formed. -/
theorem formedAll_of_parse {source : Text} {forest : List Tree}
    (read : parse source = .ok forest) : FormedAll forest := by
  cases all : tokens source with
  | error e =>
    rw [parse, all] at read
    cases read
  | ok tokens =>
    rw [parse, all] at read
    cases read
    -- Each token keeps the forest formed, and the elements that are left open close at the end.
    have start : Growth.Formed ⟨[], []⟩ := ⟨trivial, fun _ listed => nomatch listed⟩
    exact formedAll_reverse ((start.foldl (Token.formed_of_tokensFrom all)).close _).inner

end Templates.Markup
