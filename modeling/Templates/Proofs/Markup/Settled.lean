import Templates.Markup.Parser
import Templates.Proofs.Markup.Tag
import Templates.Proofs.Text.Words

/-!
What can be read from a source, and which markup keeps its meaning when it is read again.

Each piece of such markup is the next token of a source that begins with it, whatever comes behind.
-/

namespace Templates.Markup

/-- Whether a tree is a text. -/
def Tree.isText : Tree → Bool
  | .node (.text _) _ => true
  | _ => false

/-- Whether the first of some trees is a text. -/
def beginsWithText (trees : List Tree) : Bool :=
  trees.head?.any Tree.isText

/-- Whether an element never has anything below it when it is read. -/
def Element.isShort (e : Element) : Bool :=
  e.selfClosing || isVoid e.name

/-- How the end tag of an element with raw content begins, in small letters. -/
def rawClosing (name : Text) : Text :=
  "</".toList ++ Text.asciiLower name

/-- The beginning of an end tag is not empty. -/
theorem rawClosing_ne_nil (name : Text) : rawClosing name ≠ [] :=
  List.cons_ne_nil _ _

/-- The content of an element with raw content: nothing, or text without an end tag in it. -/
def IsRawContent (name : Text) (trees : List Tree) : Prop :=
  trees = [] ∨ ∃ text, trees = [.node (.text text) []] ∧ text ≠ [] ∧
    Text.contains (rawClosing name) (Text.asciiLower text) = false

mutual

/-- A tree as it can be read from a source. -/
def Tree.Formed : Tree → Prop
  | .node .fragment _ => False
  | .node (.text text) children => text ≠ [] ∧ children = []
  | .node (.comment text) children => Text.contains "-->" text = false ∧ children = []
  | .node (.doctype text) children =>
    Text.contains ">" text = false ∧ Text.startsWith "--" text = false ∧ children = []
  | .node (.element e) children =>
    e.Formed ∧
      if e.isShort then children = []
      else if isRaw e.name then IsRawContent e.name children
      else FormedAll children

/-- A forest as it can be read from a source: no text follows right behind another one. -/
def FormedAll : List Tree → Prop
  | [] => True
  | tree :: rest => tree.Formed ∧ (tree.isText && beginsWithText rest) = false ∧ FormedAll rest

end

mutual

/-- A tree with the quotes that it is written with. -/
def Tree.requoted : Tree → Tree
  | .node (.element e) children => .node (.element e.requoted) (requotedAll children)
  | .node content children => .node content (requotedAll children)

/-- A forest with the quotes that it is written with. -/
def requotedAll : List Tree → List Tree
  | [] => []
  | tree :: rest => tree.requoted :: requotedAll rest

end

/-- Whether a token is a text that leaves at least a given number of characters behind it. -/
def endsInText (count : Nat) : Except MarkupError (Token × Text) → Bool
  | .ok (.text _, rest) => count ≤ rest.length
  | _ => false

/-- Whether a text stays text in front of some markup: where an opening bracket stands in it, text
is read that ends in it. -/
def staysText (after : Text) : Text → Bool
  | [] => true
  | c :: rest =>
    (c ≠ '<' || endsInText after.length (Token.next '<' (rest ++ after))) && staysText after rest

/-- Whether a start tag is read as it is written: no name that begins with an equals sign follows an
attribute without a value, and no slash that belongs to a value stands at the end. -/
def Element.isSettled (e : Element) : Bool :=
  Token.keepsApart e.attributes && (e.selfClosing || (writeStart e).getLast? ≠ some '/')

/-- The end tag of an element. -/
def endTagOf (name : Text) : Text :=
  "</".toList ++ name ++ ['>']

mutual

/-- Whether the markup of a tree keeps its meaning when it is read in front of other markup. -/
def Tree.isSettled (after : Text) : Tree → Bool
  | .node (.text text) _ => staysText after text
  | .node (.element e) children =>
    e.isSettled && (isRaw e.name || areSettled (endTagOf e.name ++ after) children)
  | _ => true

/-- Whether the markup of a forest keeps its meaning when it is read in front of other markup. -/
def areSettled (after : Text) : List Tree → Bool
  | [] => true
  | tree :: rest => tree.isSettled (writeAll rest ++ after) && areSettled after rest

end

namespace Token

/-- The characters that belong to a token are passed over. -/
theorem tokensFrom_skip (front after : Text) :
    tokensFrom front.length (front ++ after) = tokensFrom 0 after := by
  induction front with
  | nil => rfl
  | cons c front ih => exact ih

/-- The tokens of a text are the first one and those of what follows it. -/
theorem tokens_of_next {c : Char} {front after : Text} {token : Token}
    (read : next c (front ++ after) = .ok (token, after)) :
    tokens (c :: (front ++ after)) = (tokens after).map (token :: ·) := by
  -- As many characters are skipped as the first token has behind its first one.
  have skipped : (front ++ after).length - after.length = front.length := by
    rw [List.length_append]
    omega
  unfold tokens
  rw [tokensFrom, read]
  simp only [skipped, tokensFrom_skip]
  cases tokensFrom 0 after <;> rfl

/-- A character other than an opening bracket begins a text. -/
theorem next_of_ne {c : Char} (other : c ≠ '<') (text : Text) :
    next c text = .ok (plain c text) := by
  -- All other ways to read on begin with an opening bracket.
  unfold next
  split
  all_goals first | rfl | exact absurd rfl other

/-- A bracket in front of a character that begins no markup is text. -/
theorem next_of_plain {c : Char} (noLetter : c.isAlpha = false) (noSlash : c ≠ '/')
    (noMark : c ≠ '!') (text : Text) : next '<' (c :: text) = .ok (plain '<' (c :: text)) := by
  -- Neither a name nor an end tag nor a declaration can begin there.
  rw [next, if_neg (by simp [noLetter])]
  · exact fun _ same => absurd same noMark
  · exact noMark
  · exact fun _ _ same => absurd same noSlash

/-- A bracket in front of a letter begins a start tag, with its raw content, or else it is text. -/
theorem next_of_letter {c : Char} (letter : c.isAlpha = true) (text : Text) :
    next '<' (c :: text) =
      match readTag (c :: text) with
      | .noTag => .ok (plain '<' (c :: text))
      | .cut => .error .cutCharacter
      | .read element rest =>
        if !element.selfClosing && !isVoid element.name && isRaw element.name then
          .ok (.startTag element (some (rawContent (rawClosing element.name) rest).1),
            (rawContent (rawClosing element.name) rest).2)
        else .ok (.startTag element none, rest) := by
  -- The letter tells the tag from all other markup.
  have noDoctype : c ≠ '!' := by
    rintro rfl
    cases letter
  have noEnd : c ≠ '/' := by
    rintro rfl
    cases letter
  rw [next, if_pos letter]
  · rfl
  · exact fun _ same => absurd same noDoctype
  · exact noDoctype
  · exact fun _ _ same => absurd same noEnd

/-- What the next token of a text can be, with what follows it: text that is left unchanged, a
comment or a doctype up to its end, an end tag, or a start tag with its raw content, if it has
any. -/
inductive Next (c : Char) (text rest : Text) : Token → Prop
  | text {front : Text} (filled : front ≠ []) (whole : c :: text = front ++ rest) :
    Next c text rest (.text front)
  | comment {inner body : Text} (begins : c :: text = "<!--".toList ++ inner)
    (found : Text.cut? "-->" inner = some (body, rest)) : Next c text rest (.comment body)
  | doctype {inner body : Text} (begins : c :: text = "<!".toList ++ inner)
    (noComment : ∀ more, inner ≠ '-' :: '-' :: more)
    (found : Text.cut? ">" inner = some (body, rest)) : Next c text rest (.doctype body)
  | endTag {name inner : Text} (begins : c :: text = "</".toList ++ name ++ inner)
    (behind : rest = behindBracket inner) : Next c text rest (.endTag name)
  | startTag {first : Char} {inner : Text} {e : Element}
    (begins : c :: text = '<' :: first :: inner) (letter : first.isAlpha = true)
    (tag : readTag (first :: inner) = .read e rest)
    (notRaw : (!e.isShort && isRaw e.name) = false) : Next c text rest (.startTag e none)
  | rawTag {first : Char} {inner after content : Text} {e : Element}
    (begins : c :: text = '<' :: first :: inner) (letter : first.isAlpha = true)
    (tag : readTag (first :: inner) = .read e after) (raw : (!e.isShort && isRaw e.name) = true)
    (held : rawContent (rawClosing e.name) after = (content, rest)) :
    Next c text rest (.startTag e (some content))

/-- The next token is one of these. -/
theorem next_cases {c : Char} {text rest : Text} {token : Token}
    (read : next c text = .ok (token, rest)) : Next c text rest token := by
  -- Where no markup begins or ends, text is what stands in front of the next bracket, or all.
  have part (same : plain c text = (token, rest)) : Next c text rest token := by
    cases same
    refine .text (List.cons_ne_nil _ _) ?_
    rw [List.cons_append, List.takeWhile_append_dropWhile]
  have all (same : (Token.text (c :: text), ([] : Text)) = (token, rest)) :
      Next c text rest token := by
    cases same
    exact .text (List.cons_ne_nil _ _) (List.append_nil _).symm
  unfold next at read
  split at read
  · split at read
    · rename_i found
      cases read
      exact .comment rfl found
    · exact all (Except.ok.inj read)
  · rename_i noComment
    split at read
    · rename_i found
      cases read
      exact .doctype rfl noComment found
    · exact all (Except.ok.inj read)
  · split at read
    · cases read
      refine .endTag ?_ rfl
      rw [List.append_assoc, List.takeWhile_append_dropWhile]
      rfl
    · exact part (Except.ok.inj read)
  · split at read
    · rename_i letter
      split at read
      · exact part (Except.ok.inj read)
      · cases read
      · -- Raw content is looked for behind a tag that is left open.
        rename_i e after tag
        have same : (!e.selfClosing && !isVoid e.name && isRaw e.name) =
            (!e.isShort && isRaw e.name) := by
          rw [Element.isShort, Bool.not_or]
        rw [same] at read
        split at read
        · rename_i raw
          cases read
          exact .rawTag rfl letter tag raw rfl
        · rename_i notRaw
          cases read
          exact .startTag rfl letter tag (by simpa using notRaw)
    · exact part (Except.ok.inj read)
  · exact part (Except.ok.inj read)

/-- A token that is a text is what was read, unchanged. -/
theorem eq_of_next_text {c : Char} {text front rest : Text}
    (read : next c text = .ok (.text front, rest)) :
    c :: text = front ++ rest ∧ front ≠ [] := by
  cases next_cases read with
  | text filled whole => exact ⟨whole, filled⟩

/-- A comment is read up to its end. -/
theorem next_comment {text : Text} (absent : Text.contains "-->" text = false) (after : Text) :
    next '<' ('!' :: '-' :: '-' :: (text ++ "-->".toList ++ after)) =
      .ok (.comment text, after) := by
  have found := Text.cut?_append (by decide) (by decide) absent after
  simp only [next, found]

/-- A doctype is read up to the next closing bracket. -/
theorem next_doctype {text : Text} (absent : Text.contains ">" text = false)
    (noComment : Text.startsWith "--" text = false) (after : Text) :
    next '<' ('!' :: (text ++ ">".toList ++ after)) = .ok (.doctype text, after) := by
  have found := Text.cut?_append (by decide) (by decide) absent after
  -- A text of no more than one hyphen is followed by the closing bracket.
  have other : ∀ rest, text ++ ">".toList ++ after ≠ '-' :: '-' :: rest := by
    intro rest same
    match text with
    | [] => cases same
    | [c] => cases same
    | c :: d :: more =>
      cases same
      simp [Text.startsWith, Text.strip?] at noComment
  rw [next, found]
  exact other

/-- An end tag is read up to its closing bracket. -/
theorem next_endTag {name : Text} (named : IsTagName name) (after : Text) :
    next '<' ('/' :: (name ++ ">".toList ++ after)) = .ok (.endTag name, after) := by
  -- The name is taken up to the closing bracket, which is then passed over.
  have inside := named.inTagName
  obtain ⟨first, rest, rfl, letter, others⟩ := named
  have stops : ∀ c, (">".toList ++ after).head? = some c → inTagName c = false := by
    intro c same
    cases same
    decide
  have read : next '<' ('/' :: first :: (rest ++ ">".toList ++ after)) =
      .ok (.endTag ((first :: rest ++ (">".toList ++ after)).takeWhile inTagName),
        behindBracket ((first :: rest ++ (">".toList ++ after)).dropWhile inTagName)) := by
    rw [next, if_pos (inside first List.mem_cons_self), List.append_assoc]
    rfl
  rw [Text.takeWhile_append inside stops, Text.dropWhile_append inside stops] at read
  exact read

/-- Raw content is cut where the end tag of its element begins, in letters of any case. -/
theorem rawContent_eq {closing : Text} (filled : closing ≠ []) (text : Text) :
    rawContent closing text =
      match Text.cut? closing (Text.asciiLower text) with
      | some (front, _) => (text.take front.length, behindBracket (text.drop front.length))
      | none => (text, []) := by
  induction text with
  | nil => simp [rawContent, Text.asciiLower, Text.cut?, filled]
  | cons c rest ih =>
    have lowered : Text.asciiLower (c :: rest) = c.toLower :: Text.asciiLower rest := rfl
    -- Lowering the beginning of the text is the beginning of the lowered text.
    have here : Text.asciiLower ((c :: rest).take closing.length) = closing ↔
        closing <+: c.toLower :: Text.asciiLower rest := by
      rw [List.prefix_iff_eq_take, ← lowered, Text.asciiLower, Text.asciiLower, List.map_take,
        eq_comm]
    rw [rawContent, lowered, Text.cut?]
    split
    · -- The end tag begins right here.
      rename_i found
      obtain ⟨after, same⟩ := here.mp found
      rw [← same, Text.strip?_append]
      rfl
    · -- The first character belongs to the content.
      rename_i missing
      have none : Text.strip? closing (c.toLower :: Text.asciiLower rest) = none := by
        rw [Option.eq_none_iff_forall_ne_some]
        intro after stripped
        exact missing (here.mpr ⟨after, (Text.eq_append_of_strip? stripped).symm⟩)
      rw [none, ih]
      cases Text.cut? closing (Text.asciiLower rest) <;> rfl

/-- The text in front of a place in the lowered text is lowered to what is in front of it there. -/
theorem asciiLower_take {needle text front back : Text}
    (cut : Text.cut? needle (Text.asciiLower text) = some (front, back)) :
    Text.asciiLower (text.take front.length) = front := by
  have whole := Text.eq_of_cut? cut
  rw [List.append_assoc] at whole
  rw [Text.asciiLower, List.map_take]
  show (Text.asciiLower text).take front.length = front
  rw [whole, List.take_left]

/-- The beginning of an end tag in small letters has its only opening bracket in front. -/
theorem rawClosing_alone {name : Text} (named : IsTagName name) :
    ∀ k < (rawClosing name).length, 0 < k → ¬(rawClosing name).drop k <+: rawClosing name := by
  -- An overlap would begin with a bracket behind the first one.
  intro k short later overlap
  obtain ⟨k, rfl⟩ : ∃ n, k = n + 1 := ⟨k - 1, by omega⟩
  have noBracket : '<' ∉ '/' :: Text.asciiLower name := by
    simp only [List.mem_cons, Text.asciiLower, List.mem_map, not_or, not_exists, not_and]
    refine ⟨by decide, fun c listed same => ?_⟩
    have inside := named.inTagName c listed
    rw [Text.eq_of_toLower (by decide) same] at inside
    cases inside
  have whole : rawClosing name = '<' :: '/' :: Text.asciiLower name := rfl
  rw [whole, List.drop_succ_cons] at overlap
  rw [whole, List.length_cons] at short
  -- What overlaps begins with the bracket, and is a part of what has none.
  cases rest : ('/' :: Text.asciiLower name).drop k with
  | nil =>
    have := List.drop_eq_nil_iff.mp rest
    omega
  | cons c rest' =>
    rw [rest] at overlap
    obtain ⟨more, same⟩ := overlap
    obtain ⟨rfl, _⟩ := List.cons.inj same
    exact noBracket (List.mem_of_mem_drop (rest ▸ List.mem_cons_self))

/-- Raw content that is written is read up to its end tag. -/
theorem rawContent_append {name text : Text} (named : IsTagName name)
    (absent : Text.contains (rawClosing name) (Text.asciiLower text) = false) (after : Text) :
    rawContent (rawClosing name) (text ++ (endTagOf name ++ after)) = (text, after) := by
  -- The search is made in small letters, where the first end tag is the one that was written.
  have lowered : Text.asciiLower (text ++ (endTagOf name ++ after)) =
      Text.asciiLower text ++ rawClosing name ++ Text.asciiLower ('>' :: after) := by
    simp [endTagOf, rawClosing, Text.asciiLower]
  have found := Text.cut?_append (rawClosing_ne_nil name) (rawClosing_alone named) absent
    (Text.asciiLower ('>' :: after))
  rw [rawContent_eq (rawClosing_ne_nil name), lowered, found]
  have length : (Text.asciiLower text).length = text.length := List.length_map _
  -- Nothing in the name of the end tag is a closing bracket.
  have inside : ∀ c ∈ "</".toList ++ name, decide (c ≠ '>') = true := by
    intro c listed
    rw [decide_eq_true_iff]
    rintro rfl
    obtain listed | listed := List.mem_append.mp listed
    · simp at listed
    · have inside := named.inTagName _ listed
      cases inside
  have stops : ∀ c, ('>' :: after).head? = some c → decide (c ≠ '>') = false := by
    rintro c same
    cases same
    rfl
  have behind : behindBracket (endTagOf name ++ after) = after := by
    have whole : endTagOf name ++ after = ("</".toList ++ name) ++ '>' :: after := by
      simp [endTagOf]
    rw [behindBracket, whole, Text.dropWhile_append inside stops]
    rfl
  simp only [length, List.take_left, List.drop_left, behind]

/-- A start tag is read up to its end, and raw content with it. -/
theorem next_startTag {e : Element} (formed : e.Formed) (settled : e.isSettled = true)
    (after : Text) :
    next '<' (e.name ++ (e.attributes.flatMap writeAttribute ++ (tagEnd e.selfClosing ++ after))) =
      if !e.isShort && isRaw e.name then
        .ok (.startTag e.requoted (some (rawContent (rawClosing e.name) after).1),
          (rawContent (rawClosing e.name) after).2)
      else .ok (.startTag e.requoted none, after) := by
  obtain ⟨apart, unslashed⟩ := Bool.and_eq_true_iff.mp settled
  have read := readTag_write formed apart (by simpa using unslashed) after
  obtain ⟨first, rest, name, letter, _⟩ := formed.name
  rw [name, List.cons_append] at read ⊢
  rw [next_of_letter letter, read]
  -- New quotes change neither the name nor the slash.
  have short : (!e.requoted.selfClosing && !isVoid e.requoted.name && isRaw e.requoted.name) =
      (!e.isShort && isRaw e.name) := by
    rw [Element.isShort, Bool.not_or]
    rfl
  simp only [short]
  rw [← name]
  rfl

end Token

end Templates.Markup
