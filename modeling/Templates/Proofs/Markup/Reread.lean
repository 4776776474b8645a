import Templates.Proofs.Markup.Settled

/-!
Forests that are written are read back, tree by tree.

The markup of a tree is a run of tokens that adds the tree to what was read before. Where a text
ends the next markup must begin, and nothing within the text may be taken for markup.
-/

namespace Templates.Markup

/-- Markup in front of other markup is read as some tokens, whatever comes behind. -/
def ReadsAs (written after : Text) (read : List Token) : Prop :=
  tokens (written ++ after) = (tokens after).map (read ++ ·)

namespace ReadsAs

/-- Nothing is read from nothing. -/
theorem nil (after : Text) : ReadsAs [] after [] := by
  unfold ReadsAs
  cases same : tokens after <;> simp [same, Except.map]

/-- Markup that is read as one token. -/
theorem single {c : Char} {written after : Text} {token : Token}
    (read : Token.next c (written ++ after) = .ok (token, after)) :
    ReadsAs (c :: written) after [token] :=
  Token.tokens_of_next read

/-- Markup is read piece by piece. -/
theorem append {front back after : Text} {early late : List Token}
    (first : ReadsAs front (back ++ after) early) (second : ReadsAs back after late) :
    ReadsAs (front ++ back) after (early ++ late) := by
  -- The first piece is read in front of the second one and all that follows.
  unfold ReadsAs at first second ⊢
  rw [List.append_assoc, first, second]
  cases tokens after with
  | error e => rfl
  | ok rest => exact congrArg Except.ok (List.append_assoc early late rest).symm

end ReadsAs

/-- What follows a text: nothing, or markup. -/
def EndsText (after : Text) : Prop :=
  ∀ c, after.head? = some c → c = '<'

/-- A text that stays text does so behind each of its parts. -/
theorem staysText_append {after front back : Text}
    (stays : staysText after (front ++ back) = true) : staysText after back = true := by
  -- Each character is looked at by itself, with all that stands behind it.
  induction front with
  | nil => exact stays
  | cons c front ih => exact ih (Bool.and_eq_true_iff.mp stays).2

/-- A token that ends in text is text with enough characters behind it. -/
theorem exists_of_endsInText {count : Nat} {read : Except MarkupError (Token × Text)}
    (ends : endsInText count read = true) :
    ∃ text rest, read = .ok (.text text, rest) ∧ count ≤ rest.length := by
  unfold endsInText at ends
  split at ends
  · exact ⟨_, _, rfl, of_decide_eq_true ends⟩
  · cases ends

/-- The first piece of a text that stays text ends in the text. -/
theorem exists_of_staysText {c : Char} {rest after : Text}
    (stays : staysText after (c :: rest) = true) (ends : EndsText after) :
    ∃ front back, rest = front ++ back ∧
      Token.next c (front ++ back ++ after) = .ok (.text (c :: front), back ++ after) := by
  by_cases bracket : c = '<'
  · -- A bracket is read as text that leaves all that follows the text.
    subst bracket
    have here := (Bool.and_eq_true_iff.mp stays).1
    obtain ⟨text, left, read, enough⟩ := exists_of_endsInText (by simpa using here)
    obtain ⟨whole, filled⟩ := Token.eq_of_next_text read
    obtain ⟨d, front, rfl⟩ := List.exists_cons_of_ne_nil filled
    obtain ⟨rfl, inner⟩ := List.cons.inj whole
    obtain ⟨more, same, rfl⟩ | ⟨back, rfl, rfl⟩ := List.append_eq_append_iff.mp inner
    · -- A piece that went on behind the text would leave too little.
      have nothing : more = [] := by
        rw [List.length_append] at enough
        exact List.length_eq_zero_iff.mp (by omega)
      subst nothing
      rw [List.append_nil] at same
      subst same
      exact ⟨front, [], (List.append_nil front).symm, by simpa using read⟩
    · exact ⟨front, back, rfl, read⟩
  · -- Any other character begins a text up to the next bracket.
    refine ⟨rest.takeWhile (· ≠ '<'), rest.dropWhile (· ≠ '<'),
      List.takeWhile_append_dropWhile.symm, ?_⟩
    have inside : ∀ d ∈ rest.takeWhile (· ≠ '<'), decide (d ≠ '<') = true := fun d listed =>
      List.all_eq_true.mp List.all_takeWhile d listed
    have stops : ∀ d, (rest.dropWhile (· ≠ '<') ++ after).head? = some d →
        decide (d ≠ '<') = false := by
      intro d next
      cases left : rest.dropWhile (· ≠ '<') with
      | nil =>
        -- Behind the whole text, markup follows.
        rw [left] at next
        rw [ends d next]
        rfl
      | cons e more =>
        -- Within the text, the search has stopped at a bracket.
        have stopped := List.head?_dropWhile_not (fun e : Char => decide (e ≠ '<')) rest
        rw [left] at next stopped
        cases next
        simpa using stopped
    rw [Token.next_of_ne bracket, Token.plain, List.append_assoc,
      Text.takeWhile_append inside stops, Text.dropWhile_append inside stops]

/-- A text is read as pieces of text, none of which is empty. -/
theorem readsAs_text {text after : Text} (stays : staysText after text = true)
    (ends : EndsText after) :
    ∃ pieces : List Text, ReadsAs text after (pieces.map .text) ∧ pieces.flatten = text ∧
      [] ∉ pieces := by
  -- Each piece leaves a shorter text, which stays text as well.
  induction size : text.length using Nat.strongRecOn generalizing text with
  | _ size ih =>
    subst size
    cases text with
    | nil => exact ⟨[], .nil after, rfl, List.not_mem_nil⟩
    | cons c rest =>
      obtain ⟨front, back, rfl, read⟩ := exists_of_staysText stays ends
      have shorter : back.length < (c :: (front ++ back)).length := by
        rw [List.length_cons, List.length_append]
        omega
      have later : staysText after back = true :=
        staysText_append (show staysText after ((c :: front) ++ back) = true from stays)
      obtain ⟨pieces, reads, whole, filled⟩ := ih _ shorter later rfl
      rw [List.append_assoc] at read
      refine ⟨(c :: front) :: pieces, (ReadsAs.single read).append reads, ?_, ?_⟩
      · rw [List.flatten_cons, whole]
        rfl
      · rw [List.mem_cons, not_or]
        exact ⟨(List.cons_ne_nil _ _).symm, filled⟩

namespace Growth

/-- Pieces of text join the text in front of them. -/
theorem foldl_joined {pieces : List Text} (filled : [] ∉ pieces) (front : Text)
    (children before : List Tree) (opened : List (Element × List Tree)) :
    (pieces.map Token.text).foldl step ⟨.node (.text front) children :: before, opened⟩ =
      ⟨.node (.text (front ++ pieces.flatten)) children :: before, opened⟩ := by
  -- The text in front grows with each piece.
  induction pieces generalizing front with
  | nil => simp
  | cons piece pieces ih =>
    obtain ⟨first, others⟩ := List.ne_and_not_mem_of_not_mem_cons filled
    obtain ⟨c, rest, rfl⟩ := List.exists_cons_of_ne_nil (Ne.symm first)
    have joined : step ⟨.node (.text front) children :: before, opened⟩ (.text (c :: rest)) =
        ⟨.node (.text (front ++ c :: rest)) children :: before, opened⟩ := rfl
    rw [List.map_cons, List.foldl_cons, joined, ih others]
    simp

/-- Pieces of text behind no other text make one text. -/
theorem foldl_text {pieces : List Text} (filled : [] ∉ pieces) (some : pieces ≠ [])
    {growth : Growth} (apart : beginsWithText growth.inner = false) :
    (pieces.map Token.text).foldl step growth = growth.add (.node (.text pieces.flatten) []) := by
  obtain ⟨piece, pieces, rfl⟩ := List.exists_cons_of_ne_nil some
  obtain ⟨first, others⟩ := List.ne_and_not_mem_of_not_mem_cons filled
  obtain ⟨c, rest, rfl⟩ := List.exists_cons_of_ne_nil (Ne.symm first)
  -- The first piece is a text of its own, and the others join it.
  have alone : step growth (.text (c :: rest)) = growth.add (.node (.text (c :: rest)) []) := by
    obtain ⟨inner, opened⟩ := growth
    cases inner with
    | nil => rfl
    | cons tree before =>
      obtain ⟨content, children⟩ := tree
      cases content with
      | text text => cases apart
      | _ => rfl
  rw [List.map_cons, List.foldl_cons, alone]
  exact foldl_joined others (c :: rest) [] growth.inner growth.opened

end Growth

/-- The start tag of an element, without raw content behind it, is one token. -/
theorem readsAs_startTag {e : Element} (formed : e.Formed) (settled : e.isSettled = true)
    (notRaw : (!e.isShort && isRaw e.name) = false) (after : Text) :
    ReadsAs (writeStart e ++ tagEnd e.selfClosing) after [.startTag e.requoted none] := by
  have read := Token.next_startTag formed settled after
  rw [notRaw, if_neg Bool.false_ne_true] at read
  have one : ReadsAs ('<' :: (e.name ++ (e.attributes.flatMap writeAttribute ++
      tagEnd e.selfClosing))) after [.startTag e.requoted none] :=
    .single (by simpa only [List.append_assoc] using read)
  simpa [writeStart] using one

/-- An element with raw content is one token. -/
theorem readsAs_raw {e : Element} {text : Text} (formed : e.Formed) (settled : e.isSettled = true)
    (raw : (!e.isShort && isRaw e.name) = true)
    (absent : Text.contains (rawClosing e.name) (Text.asciiLower text) = false) (after : Text) :
    ReadsAs (writeStart e ++ (tagEnd e.selfClosing ++ (text ++ endTagOf e.name))) after
      [.startTag e.requoted (some text)] := by
  have read := Token.next_startTag formed settled (text ++ (endTagOf e.name ++ after))
  rw [if_pos raw, Token.rawContent_append formed.name absent after] at read
  have one : ReadsAs ('<' :: (e.name ++ (e.attributes.flatMap writeAttribute ++
      (tagEnd e.selfClosing ++ (text ++ endTagOf e.name))))) after
      [.startTag e.requoted (some text)] :=
    .single (by simpa only [List.append_assoc] using read)
  simpa [writeStart] using one

/-- An end tag is one token. -/
theorem readsAs_endTag {name : Text} (named : IsTagName name) (after : Text) :
    ReadsAs (endTagOf name) after [.endTag name] := by
  have one : ReadsAs ('<' :: ('/' :: (name ++ ">".toList))) after [.endTag name] :=
    .single (Token.next_endTag named after)
  exact one

/-- A comment is one token. -/
theorem readsAs_comment {text : Text} (absent : Text.contains "-->" text = false) (after : Text) :
    ReadsAs ("<!--".toList ++ text ++ "-->".toList) after [.comment text] := by
  have one : ReadsAs ('<' :: ('!' :: '-' :: '-' :: (text ++ "-->".toList))) after [.comment text] :=
    .single (Token.next_comment absent after)
  exact one

/-- A doctype is one token. -/
theorem readsAs_doctype {text : Text} (absent : Text.contains ">" text = false)
    (noComment : Text.startsWith "--" text = false) (after : Text) :
    ReadsAs ("<!".toList ++ text ++ ['>']) after [.doctype text] := by
  have one : ReadsAs ('<' :: ('!' :: (text ++ ">".toList))) after [.doctype text] :=
    .single (Token.next_doctype absent noComment after)
  exact one

/-- An element without content is written as its start tag. -/
theorem write_short {e : Element} (short : e.isShort = true) :
    write (.node (.element e) []) = writeStart e ++ tagEnd e.selfClosing := by
  rw [Element.isShort, Bool.or_eq_true_iff] at short
  cases slash : e.selfClosing with
  | true => simp [write, slash, tagEnd]
  | false =>
    have filled : isVoid e.name = true := by simpa [slash] using short
    simp [write, slash, filled, tagEnd]

/-- Any other element is written with an end tag. -/
theorem write_long {e : Element} (long : e.isShort = false) (children : List Tree) :
    write (.node (.element e) children) =
      writeStart e ++ (tagEnd e.selfClosing ++ (writeAll children ++ endTagOf e.name)) := by
  obtain ⟨slash, filled⟩ := Bool.or_eq_false_iff.mp long
  simp [write, slash, filled, tagEnd, endTagOf]

/-- The markup of some trees is read as tokens that add the trees to what was read before. -/
structure Rereads (written after : Text) (trees : List Tree) (read : List Token) : Prop where
  reads : ReadsAs written after read
  grows : ∀ growth : Growth, (beginsWithText trees && beginsWithText growth.inner) = false →
    read.foldl Growth.step growth = ⟨trees.reverse ++ growth.inner, growth.opened⟩

namespace Rereads

/-- No trees are read from nothing. -/
theorem nil (after : Text) : Rereads [] after [] [] :=
  ⟨.nil after, fun _ _ => rfl⟩

/-- Trees are read one after the other. -/
theorem cons {front back after : Text} {tree : Tree} {rest : List Tree} {early late : List Token}
    (first : Rereads front (back ++ after) [tree] early) (others : Rereads back after rest late)
    (apart : (tree.isText && beginsWithText rest) = false) :
    Rereads (front ++ back) after (tree :: rest) (early ++ late) where
  reads := first.reads.append others.reads
  grows growth separate := by
    have behind : (beginsWithText rest && beginsWithText (tree :: growth.inner)) = false := by
      rwa [Bool.and_comm]
    have one : early.foldl Growth.step growth = ⟨tree :: growth.inner, growth.opened⟩ :=
      first.grows growth separate
    rw [List.foldl_append, one, others.grows _ behind]
    simp

/-- A tree that is one token, and no text, may be read anywhere. -/
theorem single {written after : Text} {tree : Tree} {token : Token}
    (reads : ReadsAs written after [token])
    (adds : ∀ growth : Growth, growth.step token = growth.add tree) :
    Rereads written after [tree] [token] :=
  ⟨reads, fun growth _ => adds growth⟩

/-- A text is read back. -/
theorem text {text after : Text} (filled : text ≠ []) (stays : staysText after text = true)
    (ends : EndsText after) : ∃ read, Rereads text after [.node (.text text) []] read := by
  -- The text is read in pieces, which join when they are added.
  obtain ⟨pieces, reads, rfl, solid⟩ := readsAs_text stays ends
  have some : pieces ≠ [] := by
    rintro rfl
    exact filled rfl
  exact ⟨_, reads, fun growth apart => Growth.foldl_text solid some apart⟩

/-- An element without content is read back. -/
theorem short {e : Element} (formed : e.Formed) (settled : e.isSettled = true)
    (short : e.isShort = true) (after : Text) :
    Rereads (write (.node (.element e) [])) after [.node (.element e.requoted) []]
      [.startTag e.requoted none] := by
  rw [write_short short]
  refine .single (readsAs_startTag formed settled (by rw [short]; rfl) after) fun growth => ?_
  exact if_pos short

/-- An element with raw content is read back. -/
theorem raw {e : Element} {children : List Tree} (formed : e.Formed) (settled : e.isSettled = true)
    (long : e.isShort = false) (isRaw : isRaw e.name = true)
    (content : IsRawContent e.name children) (after : Text) :
    ∃ read, Rereads (write (.node (.element e) children)) after
      [.node (.element e.requoted) children] read := by
  have raw : (!e.isShort && Markup.isRaw e.name) = true := by rw [long, isRaw]; rfl
  rw [write_long long]
  obtain rfl | ⟨text, rfl, filled, absent⟩ := content
  · -- Without content, the end tag follows at once.
    have nothing : Text.contains (rawClosing e.name) (Text.asciiLower []) = false := rfl
    exact ⟨_, .single (readsAs_raw formed settled raw nothing after) fun _ => rfl⟩
  · obtain ⟨c, rest, rfl⟩ := List.exists_cons_of_ne_nil filled
    have written : writeAll [.node (.text (c :: rest)) []] = c :: rest := by simp [writeAll, write]
    rw [written]
    exact ⟨_, .single (readsAs_raw formed settled raw absent after) fun _ => rfl⟩

/-- An element is read back with what is below it. -/
theorem long {e : Element} {children children' : List Tree} {after : Text} {read : List Token}
    (formed : e.Formed) (settled : e.isSettled = true) (long : e.isShort = false)
    (notRaw : isRaw e.name = false)
    (inner : Rereads (writeAll children) (endTagOf e.name ++ after) children' read) :
    Rereads (write (.node (.element e) children)) after [.node (.element e.requoted) children']
      ([.startTag e.requoted none] ++ (read ++ [.endTag e.name])) where
  reads := by
    rw [write_long long, ← List.append_assoc]
    refine .append (readsAs_startTag formed settled (by simp [notRaw]) _) (.append inner.reads ?_)
    exact readsAs_endTag formed.name after
  grows growth _ := by
    have enters : growth.step (.startTag e.requoted none) = growth.enter e.requoted :=
      if_neg (by rw [Bool.not_eq_true]; exact long)
    have grown := inner.grows (growth.enter e.requoted) (Bool.and_false _)
    have named : e.requoted.isNamed e.name = true := by
      simp [Element.isNamed, Element.requoted, Text.sameName]
    -- The end tag closes the element that was entered last.
    rw [List.singleton_append, List.foldl_cons, enters, List.foldl_append, grown]
    simp [Growth.enter, Growth.step, Growth.endTag, Growth.close, List.findIdx?_cons, named]

end Rereads

/-- A tree that is not text is written with a bracket in front. -/
theorem endsText_write {tree : Tree} (formed : tree.Formed) (other : tree.isText = false)
    (after : Text) : EndsText (write tree ++ after) := by
  -- Every kind of markup begins with the bracket.
  obtain ⟨content, children⟩ := tree
  intro c next
  cases content with
  | fragment => exact absurd formed (by simp [Tree.Formed])
  | text text => cases other
  | comment text => cases next; rfl
  | doctype text => cases next; rfl
  | element e =>
    rw [Tree.Formed] at formed
    cases short : e.isShort with
    | true =>
      rw [if_pos short] at formed
      rw [formed.2, write_short short] at next
      cases next
      rfl
    | false =>
      rw [write_long short] at next
      cases next
      rfl

/-- Markup begins behind a text, if no other text does. -/
theorem endsText_writeAll {forest : List Tree} (formed : FormedAll forest)
    (apart : beginsWithText forest = false) {after : Text} (ends : EndsText after) :
    EndsText (writeAll forest ++ after) := by
  cases forest with
  | nil => exact ends
  | cons tree rest =>
    rw [writeAll, List.append_assoc]
    exact endsText_write formed.1 apart _

/-- New quotes make no text of a tree that is none. -/
@[simp] theorem Tree.isText_requoted (tree : Tree) : tree.requoted.isText = tree.isText := by
  obtain ⟨content, children⟩ := tree
  cases content <;> rfl

/-- New quotes make no text of a forest that does not begin with one. -/
@[simp] theorem beginsWithText_requotedAll (trees : List Tree) :
    beginsWithText (requotedAll trees) = beginsWithText trees := by
  cases trees with
  | nil => rfl
  | cons tree rest => simp [beginsWithText, requotedAll]

/-- Raw content has no quotes to change. -/
theorem requotedAll_raw {name : Text} {trees : List Tree} (content : IsRawContent name trees) :
    requotedAll trees = trees := by
  obtain rfl | ⟨text, rfl, _⟩ := content <;> rfl

mutual

/-- A tree that is written is read back, if its markup keeps its meaning. -/
theorem Tree.rereads : ∀ (tree : Tree) (after : Text), tree.Formed → tree.isSettled after = true →
    (tree.isText = true → EndsText after) →
    ∃ read, Rereads (write tree) after [tree.requoted] read
  | .node .fragment children, after, formed, _, _ => absurd formed (by simp [Tree.Formed])
  | .node (.text text) children, after, formed, settled, ends => by
    obtain ⟨filled, rfl⟩ := formed
    exact Rereads.text filled settled (ends rfl)
  | .node (.comment text) children, after, formed, _, _ => by
    obtain ⟨absent, rfl⟩ := formed
    exact ⟨_, .single (readsAs_comment absent after) fun _ => rfl⟩
  | .node (.doctype text) children, after, formed, _, _ => by
    obtain ⟨absent, noComment, rfl⟩ := formed
    exact ⟨_, .single (readsAs_doctype absent noComment after) fun _ => rfl⟩
  | .node (.element e) children, after, formed, settled, _ => by
    obtain ⟨formedTag, content⟩ := formed
    obtain ⟨settledTag, inside⟩ := Bool.and_eq_true_iff.mp settled
    cases isShort : e.isShort with
    | true =>
      obtain rfl : children = [] := by simpa [isShort] using content
      exact ⟨_, .short formedTag settledTag isShort after⟩
    | false =>
      cases raw : isRaw e.name with
      | true =>
        have content : IsRawContent e.name children := by simpa [isShort, raw] using content
        rw [Tree.requoted, requotedAll_raw content]
        exact Rereads.raw formedTag settledTag isShort raw content after
      | false =>
        -- What is below the element is read in front of its end tag.
        have formedInside : FormedAll children := by simpa [isShort, raw] using content
        have settledInside : areSettled (endTagOf e.name ++ after) children = true := by
          simpa [raw] using inside
        obtain ⟨read, inner⟩ := rereads_writeAll children (endTagOf e.name ++ after) formedInside
          settledInside fun c next => by cases next; rfl
        exact ⟨_, .long formedTag settledTag isShort raw inner⟩

/-- A forest that is written is read back, if its markup keeps its meaning. -/
theorem rereads_writeAll : ∀ (forest : List Tree) (after : Text), FormedAll forest →
    areSettled after forest = true → EndsText after →
    ∃ read, Rereads (writeAll forest) after (requotedAll forest) read
  | [], after, _, _, _ => ⟨[], .nil after⟩
  | tree :: rest, after, formed, settled, ends => by
    obtain ⟨formedFirst, apart, formedRest⟩ := formed
    obtain ⟨settledFirst, settledRest⟩ := Bool.and_eq_true_iff.mp settled
    obtain ⟨late, others⟩ := rereads_writeAll rest after formedRest settledRest ends
    obtain ⟨early, first⟩ := tree.rereads (writeAll rest ++ after) formedFirst settledFirst
      fun isText => by
        -- Behind a text there is no other one.
        rw [isText, Bool.true_and] at apart
        exact endsText_writeAll formedRest apart ends
    exact ⟨early ++ late, first.cons others (by simpa using apart)⟩

end

/-- A forest that keeps its meaning is read from its markup, with the quotes that are written. -/
theorem parse_writeAll_settled {forest : List Tree} (formed : FormedAll forest)
    (settled : areSettled [] forest = true) :
    parse (writeAll forest) = .ok (requotedAll forest) := by
  obtain ⟨read, reads, grows⟩ :=
    rereads_writeAll forest [] formed settled fun _ next => nomatch next
  -- Behind the markup of the whole forest nothing is left to read.
  have all : tokens (writeAll forest) = .ok read := by
    have all := reads
    rw [ReadsAs, List.append_nil] at all
    rw [all]
    exact congrArg Except.ok (List.append_nil read)
  rw [parse, all]
  -- Nothing was open before, and nothing is left open.
  have grown := grows ⟨[], []⟩ (Bool.and_false _)
  show Except.ok (forestOf read) = _
  rw [forestOf, grown]
  simp [Growth.finish, Growth.close]

mutual

/-- New quotes do not change how a tree is written. -/
theorem Tree.write_requoted : ∀ tree : Tree, write tree.requoted = write tree
  | .node .fragment children => writeAll_requotedAll children
  | .node (.text _) _ => rfl
  | .node (.comment _) _ => rfl
  | .node (.doctype _) _ => rfl
  | .node (.element e) children => by
    -- Whether an end tag is written depends on whether there are children.
    have same : (requotedAll children).isEmpty = children.isEmpty := by cases children <;> rfl
    rw [Tree.requoted, write, write, writeStart_requoted, same, writeAll_requotedAll children]
    rfl

/-- New quotes do not change how a forest is written. -/
theorem writeAll_requotedAll : ∀ forest : List Tree,
    writeAll (requotedAll forest) = writeAll forest
  | [] => rfl
  | tree :: rest => by
    rw [requotedAll, writeAll, writeAll, tree.write_requoted, writeAll_requotedAll rest]

end

end Templates.Markup
