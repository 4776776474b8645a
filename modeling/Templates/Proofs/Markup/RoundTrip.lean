import Templates.Proofs.Markup.Copy
import Templates.Proofs.Markup.Formed
import Templates.Proofs.Markup.Reread

/-!
Round trips through markup.

A canonical forest is read from its markup unchanged. The forest of any source is read from its
markup with nothing but new quotes, as far as that markup keeps its meaning.
-/

namespace Templates.Markup

/-- Whether an attribute has a plain name and a value that fits between its quotes. A value without
quotes is of visible characters of one byte and does not end in a slash. -/
def Attribute.isCanonical (a : Attribute) : Bool :=
  !a.name.isEmpty && a.name.all (fun c => !Token.endsName c) &&
    match a.value, a.quote with
    | none, quote => quote = .bare
    | some value, .double => !value.elem '"'
    | some value, .single => !value.elem '\''
    | some value, .bare =>
      !value.isEmpty && value.getLast? ≠ some '/' &&
        value.all fun c => c.utf8Size = 1 && !Text.isBlank c && c ≠ '>' && c ≠ '"' && c ≠ '\''

/-- Whether the name of an element is that of a tag, and its attributes are canonical. -/
def Element.isCanonical (e : Element) : Bool :=
  e.name.head?.any Char.isAlpha && e.name.all Token.inTagName &&
    e.attributes.all Attribute.isCanonical

/-- Whether each opening bracket in a text is followed there by a character that begins no
markup. -/
def isPlain : Text → Bool
  | [] => true
  | c :: rest =>
    (c ≠ '<' || rest.head?.any fun d => !d.isAlpha && d ≠ '/' && d ≠ '!') && isPlain rest

/-- Whether some trees are the content of an element with raw content: nothing, or text without an
end tag of the element in it. -/
def isCanonicalRaw (name : Text) : List Tree → Bool
  | [] => true
  | [.node (.text text) []] =>
    !text.isEmpty && !Text.contains ("</".toList ++ Text.asciiLower name) (Text.asciiLower text)
  | _ => false

mutual

/-- Whether a tree has one markup, which means nothing else. -/
def Tree.isCanonical : Tree → Bool
  | .node .fragment _ => false
  | .node (.text text) children => !text.isEmpty && isPlain text && children.isEmpty
  | .node (.comment text) children => !Text.contains "-->" text && children.isEmpty
  | .node (.doctype text) children =>
    !Text.contains ">" text && !Text.startsWith "--" text && children.isEmpty
  | .node (.element e) children =>
    e.isCanonical &&
      if e.selfClosing || isVoid e.name then children.isEmpty
      else if isRaw e.name then isCanonicalRaw e.name children
      else areCanonical children

/-- Whether the trees of a forest are canonical, and no text follows right behind another one. -/
def areCanonical : List Tree → Bool
  | [] => true
  | tree :: rest =>
    tree.isCanonical && !(tree.isText && rest.head?.any Tree.isText) && areCanonical rest

end

namespace Attribute

/-- A value without quotes is canonical if none of its characters needs them and it ends in no
slash. -/
theorem isCanonical_bare {name value : Text} :
    isCanonical ⟨name, some value, .bare⟩ = true ↔
      isCanonical ⟨name, none, .bare⟩ = true ∧ value ≠ [] ∧ value.getLast? ≠ some '/' ∧
        ∀ c ∈ value, c.utf8Size = 1 ∧ Text.isBlank c = false ∧ c ≠ '>' ∧ c ≠ '"' ∧ c ≠ '\'' := by
  simp [isCanonical, and_assoc]

/-- The name of a canonical attribute is formed, and holds nothing that ends a name. -/
theorem name_of_isCanonical {a : Attribute} (canonical : a.isCanonical = true) :
    IsName a.name ∧ ∀ c ∈ a.name, Token.endsName c = false := by
  simp only [isCanonical, Bool.and_eq_true, Bool.not_eq_true', List.isEmpty_eq_false_iff,
    List.all_eq_true] at canonical
  -- The first character is plain as well, which is more than the name needs.
  obtain ⟨⟨filled, inside⟩, _⟩ := canonical
  refine ⟨?_, inside⟩
  obtain ⟨first, rest, same⟩ := List.exists_cons_of_ne_nil filled
  rw [same] at inside ⊢
  obtain ⟨head, others⟩ := List.forall_mem_cons.mp inside
  simp only [Token.endsName, Bool.or_eq_false_iff, decide_eq_false_iff_not] at head
  obtain ⟨⟨⟨⟨⟨solid, _⟩, bracket⟩, slash⟩, _⟩, _⟩ := head
  exact ⟨first, rest, rfl, solid, bracket, slash, others⟩

/-- A canonical attribute is formed, and keeps its quotes. -/
theorem formed_of_isCanonical {a : Attribute} (canonical : a.isCanonical = true) :
    a.Formed ∧ a.requoted = a := by
  have named := (name_of_isCanonical canonical).1
  obtain ⟨name, value, quote⟩ := a
  cases value with
  | none =>
    have bare : quote = .bare := by
      simp only [isCanonical, Bool.and_eq_true, decide_eq_true_eq] at canonical
      exact canonical.2
    subst bare
    exact ⟨⟨named, fun _ held => (nomatch held), fun _ => rfl⟩, rfl⟩
  | some value =>
    cases quote with
    | double =>
      have absent : '"' ∉ value := by
        simp only [isCanonical, Bool.and_eq_true] at canonical
        simpa using canonical.2
      exact ⟨⟨named, fun _ held => Option.some.inj held ▸ absent, fun none => nomatch none⟩, rfl⟩
    | single =>
      have absent : '\'' ∉ value := by
        simp only [isCanonical, Bool.and_eq_true] at canonical
        simpa using canonical.2
      exact ⟨⟨named, fun _ held => Option.some.inj held ▸ absent, fun none => nomatch none⟩, rfl⟩
    | bare =>
      obtain ⟨_, filled, _, plain⟩ := isCanonical_bare.mp canonical
      have fits : IsValue .bare value := by
        refine ⟨fun c listed => ?_, fun first => ?_, fun first => ?_⟩
        · obtain ⟨small, blank, bracket, _⟩ := plain c listed
          refine ⟨?_, bracket, small⟩
          -- A markup blank would be a blank.
          rw [Bool.eq_false_iff]
          intro markupBlank
          rw [Text.isBlank_of_isMarkupBlank markupBlank] at blank
          cases blank
        · exact (plain _ (List.mem_of_mem_head? first)).2.2.2.1 rfl
        · exact (plain _ (List.mem_of_mem_head? first)).2.2.2.2 rfl
      refine ⟨⟨named, fun _ held => Option.some.inj held ▸ fits, fun none => nomatch none⟩, ?_⟩
      -- Nothing in the value asks for quotes.
      have noQuotes : ¬(value.isEmpty || value.any fun c => Text.isBlank c || c = '"') = true := by
        simp only [Bool.or_eq_true, List.isEmpty_iff, List.any_eq_true, not_or, not_exists, not_and]
        refine ⟨filled, fun c listed => ?_⟩
        obtain ⟨_, blank, _, noDouble, _⟩ := plain c listed
        simp [blank, noDouble]
      exact if_neg noQuotes

/-- A canonical attribute is not written with a slash at its end. -/
theorem getLast?_writeAttribute {a : Attribute} (canonical : a.isCanonical = true) :
    (writeAttribute a).getLast? ≠ some '/' := by
  have quoted (front : Text) (quote : Char) (other : quote ≠ '/') :
      (front ++ [quote]).getLast? ≠ some '/' := by
    rw [List.getLast?_concat]
    exact fun same => other (Option.some.inj same)
  obtain ⟨name, value, quote⟩ := a
  cases value with
  | none =>
    -- The last character belongs to the name, or is the blank in front of it.
    intro last
    have listed : '/' ∈ ' ' :: name ++ [] := List.mem_of_getLast? last
    rw [List.append_nil] at listed
    obtain blank | listed := List.mem_cons.mp listed
    · cases blank
    · have inside := (name_of_isCanonical canonical).2 _ listed
      cases inside
  | some value =>
    have double : writeAttribute ⟨name, some value, .double⟩ =
        ' ' :: name ++ '=' :: '"' :: Text.replace "\"" "&quot;" value ++ ['"'] := by
      simp [writeAttribute, writeValue, writeDouble]
    cases quote with
    | double =>
      -- The last character is a quote.
      rw [double]
      exact quoted _ _ (by decide)
    | single =>
      have single : writeAttribute ⟨name, some value, .single⟩ =
          ' ' :: name ++ '=' :: '\'' :: Text.replace "'" "&#39;" value ++ ['\''] := by
        simp [writeAttribute, writeValue]
      rw [single]
      exact quoted _ _ (by decide)
    | bare =>
      obtain ⟨_, filled, last, _⟩ := isCanonical_bare.mp canonical
      -- The last character is a quote that comes in, or that of the value.
      by_cases quotes : (value.isEmpty || value.any fun c => Text.isBlank c || c = '"') = true
      · have same : writeAttribute ⟨name, some value, .bare⟩ =
            writeAttribute ⟨name, some value, .double⟩ := by
          simp only [writeAttribute, writeValue, if_pos quotes]
        rw [same, double]
        exact quoted _ _ (by decide)
      · have same : writeAttribute ⟨name, some value, .bare⟩ = (' ' :: name ++ ['=']) ++ value := by
          simp only [writeAttribute, writeValue, if_neg quotes]
          simp
        rw [same, List.getLast?_append_of_ne_nil _ filled]
        exact last

end Attribute

/-- Canonical attributes do not run into each other. -/
theorem keepsApart_of_isCanonical {attributes : List Attribute}
    (canonical : ∀ a ∈ attributes, a.isCanonical = true) :
    Token.keepsApart attributes = true := by
  fun_induction Token.keepsApart attributes with
  | case1 a b rest ih =>
    obtain ⟨_, others⟩ := List.forall_mem_cons.mp canonical
    rw [Bool.and_eq_true]
    refine ⟨?_, ih others⟩
    -- A name that begins with an equals sign would have something in it that ends a name.
    have named := (Attribute.name_of_isCanonical (others b List.mem_cons_self)).2
    have apart : b.name.head? ≠ some '=' := by
      intro first
      have inside := named _ (List.mem_of_mem_head? first)
      cases inside
    simp [apart]
  | case2 => rfl

/-- A canonical element is formed, keeps its quotes and is settled. -/
theorem Element.formed_of_isCanonical {e : Element} (canonical : e.isCanonical = true) :
    e.Formed ∧ e.requoted = e ∧ e.isSettled = true := by
  obtain ⟨name, attributes, slash⟩ := e
  simp only [isCanonical, Bool.and_eq_true, List.all_eq_true] at canonical
  obtain ⟨⟨letter, inside⟩, all⟩ := canonical
  refine ⟨⟨?_, fun a listed => (Attribute.formed_of_isCanonical (all a listed)).1⟩, ?_, ?_⟩
  · -- The name has its letter in front.
    cases name with
    | nil => cases letter
    | cons first rest => exact ⟨first, rest, rfl, letter, (List.forall_mem_cons.mp inside).2⟩
  · have same : attributes.map Attribute.requoted = attributes := by
      rw [List.map_congr_left fun a listed => (Attribute.formed_of_isCanonical (all a listed)).2,
        List.map_id']
    simp only [requoted, same]
  · rw [isSettled, keepsApart_of_isCanonical all, Bool.true_and, Bool.or_eq_true]
    refine .inr (decide_eq_true fun last => ?_)
    -- The start tag ends in its last attribute, or else in its name.
    obtain rfl | ⟨front, a, rfl⟩ := List.eq_nil_or_concat attributes
    · have listed : '/' ∈ '<' :: name ++ [] := List.mem_of_getLast? last
      rw [List.append_nil] at listed
      obtain bracket | listed := List.mem_cons.mp listed
      · cases bracket
      · have inside := inside _ listed
        cases inside
    · have filled : writeAttribute a ≠ [] := by simp [writeAttribute]
      rw [writeStart, List.concat_eq_append, List.flatMap_append, List.flatMap_singleton,
        ← List.append_assoc, List.getLast?_append_of_ne_nil _ filled] at last
      exact Attribute.getLast?_writeAttribute (all a (by simp)) last

/-- The next bracket is not behind the markup that follows a text. -/
theorem length_le_dropWhile {after : Text} (ends : EndsText after) (text : Text) :
    after.length ≤ ((text ++ after).dropWhile (· ≠ '<')).length := by
  -- The search goes through the text and stops where the markup begins, if not before.
  induction text with
  | nil =>
    cases after with
    | nil => exact Nat.le_refl 0
    | cons c after =>
      obtain rfl := ends c rfl
      exact Nat.le_refl _
  | cons c text ih =>
    rw [List.cons_append, List.dropWhile_cons]
    split
    · exact ih
    · rw [List.length_cons, List.length_append]
      omega

/-- A text whose brackets begin no markup stays text in front of any markup. -/
theorem staysText_of_isPlain {text after : Text} (plain : isPlain text = true)
    (ends : EndsText after) : staysText after text = true := by
  induction text with
  | nil => rfl
  | cons c rest ih =>
    obtain ⟨here, others⟩ := Bool.and_eq_true_iff.mp plain
    rw [staysText, ih others, Bool.and_true, Bool.or_eq_true]
    obtain other | follows := Bool.or_eq_true_iff.mp here
    · exact .inl other
    · -- The bracket is read as text up to the next one.
      right
      cases rest with
      | nil => cases follows
      | cons d rest =>
        have begins : d.isAlpha = false ∧ d ≠ '/' ∧ d ≠ '!' := by
          simpa [and_assoc] using follows
        obtain ⟨noLetter, noSlash, noMark⟩ := begins
        rw [List.cons_append, Token.next_of_plain noLetter noSlash noMark]
        exact decide_eq_true (length_le_dropWhile ends (d :: rest))

/-- Canonical raw content is formed. -/
theorem isRawContent_of_isCanonicalRaw {name : Text} {trees : List Tree}
    (canonical : isCanonicalRaw name trees = true) : IsRawContent name trees := by
  unfold isCanonicalRaw at canonical
  split at canonical
  · exact .inl rfl
  · rename_i text
    have held : text ≠ [] ∧
        Text.contains (rawClosing name) (Text.asciiLower text) = false := by
      simpa [rawClosing] using canonical
    exact .inr ⟨text, rfl, held⟩
  · cases canonical

mutual

/-- A canonical tree is formed, keeps its quotes and keeps its meaning in front of other markup. -/
theorem Tree.settled_of_isCanonical : ∀ (tree : Tree), tree.isCanonical = true →
    tree.Formed ∧ tree.requoted = tree ∧
      ∀ after, (tree.isText = true → EndsText after) → tree.isSettled after = true
  | .node .fragment _, canonical => nomatch canonical
  | .node (.text text) children, canonical => by
    obtain ⟨⟨filled, plain⟩, bare⟩ : (text ≠ [] ∧ isPlain text = true) ∧ children = [] := by
      simpa [Tree.isCanonical] using canonical
    subst bare
    exact ⟨⟨filled, rfl⟩, rfl, fun after ends => staysText_of_isPlain plain (ends rfl)⟩
  | .node (.comment text) children, canonical => by
    obtain ⟨absent, bare⟩ : Text.contains "-->" text = false ∧ children = [] := by
      simpa [Tree.isCanonical] using canonical
    subst bare
    exact ⟨⟨absent, rfl⟩, rfl, fun _ _ => rfl⟩
  | .node (.doctype text) children, canonical => by
    obtain ⟨⟨absent, noComment⟩, bare⟩ : (Text.contains ">" text = false ∧
        Text.startsWith "--" text = false) ∧ children = [] := by
      simpa [Tree.isCanonical] using canonical
    subst bare
    exact ⟨⟨absent, noComment, rfl⟩, rfl, fun _ _ => rfl⟩
  | .node (.element e) children, canonical => by
    obtain ⟨tag, content⟩ := Bool.and_eq_true_iff.mp canonical
    obtain ⟨formed, quotes, settled⟩ := Element.formed_of_isCanonical tag
    rw [Tree.Formed, Tree.requoted, quotes]
    cases short : e.isShort with
    | true =>
      -- Nothing is below the element.
      obtain rfl : children = [] := by
        rw [Element.isShort] at short
        simpa [short] using content
      refine ⟨⟨formed, if_pos rfl ▸ rfl⟩, rfl, fun after _ => ?_⟩
      rw [Tree.isSettled, settled, areSettled, Bool.or_true]
      rfl
    | false =>
      rw [Element.isShort] at short
      rw [if_neg (by simp [short])] at content
      rw [if_neg Bool.false_ne_true]
      cases raw : isRaw e.name with
      | true =>
        rw [if_pos raw] at content
        have held := isRawContent_of_isCanonicalRaw content
        refine ⟨⟨formed, held⟩, by rw [requotedAll_raw held], fun after _ => ?_⟩
        rw [Tree.isSettled, settled, raw]
        rfl
      | false =>
        rw [if_neg (by simp [raw])] at content
        -- What is below the element comes in front of its end tag, which ends any text.
        obtain ⟨formedInside, quotesInside, settledInside⟩ :=
          settled_of_areCanonical children content
        refine ⟨⟨formed, formedInside⟩, by rw [quotesInside], fun after _ => ?_⟩
        rw [Tree.isSettled, settled, raw, settledInside (endTagOf e.name ++ after)]
        · rfl
        · intro c next
          cases next
          rfl

/-- A canonical forest is formed, keeps its quotes and keeps its meaning in front of other
markup. -/
theorem settled_of_areCanonical : ∀ (forest : List Tree), areCanonical forest = true →
    FormedAll forest ∧ requotedAll forest = forest ∧
      ∀ after, EndsText after → areSettled after forest = true
  | [], _ => ⟨trivial, rfl, fun _ _ => rfl⟩
  | tree :: rest, canonical => by
    obtain ⟨here, others⟩ := Bool.and_eq_true_iff.mp canonical
    obtain ⟨first, apart⟩ := Bool.and_eq_true_iff.mp here
    obtain ⟨formed, quotes, settled⟩ := tree.settled_of_isCanonical first
    obtain ⟨formedRest, quotesRest, settledRest⟩ := settled_of_areCanonical rest others
    have separate : (tree.isText && beginsWithText rest) = false := Bool.not_eq_true' _ ▸ apart
    refine ⟨⟨formed, separate, formedRest⟩, by rw [requotedAll, quotes, quotesRest], ?_⟩
    intro after ends
    rw [areSettled, settledRest after ends, Bool.and_true]
    refine settled _ fun isText => ?_
    -- Behind a text there is no other one, so that what follows it begins with a bracket.
    rw [isText, Bool.true_and] at separate
    exact endsText_writeAll formedRest separate ends

end

/-- A canonical forest is read from its markup unchanged. -/
theorem parse_writeAll {forest : List Tree} (canonical : areCanonical forest = true) :
    parse (writeAll forest) = .ok forest := by
  obtain ⟨formed, quotes, settled⟩ := settled_of_areCanonical forest canonical
  have read := parse_writeAll_settled formed (settled [] fun _ next => nomatch next)
  rwa [quotes] at read

/-- The document of markup shows the trees that are read from it, and is written as they are. -/
theorem Document.parse_eq_ok {source : Text} {forest : List Tree}
    (read : Markup.parse source = .ok forest) :
    Document.parse source = .ok (ofForest forest) ∧
      (ofForest forest).markup = writeAll forest := by
  refine ⟨by rw [Document.parse, read]; rfl, ?_⟩
  rw [(shows_ofForest forest).markup, Forest.trees_plant]

/-- A document of canonical trees is read from its markup as the same trees, numbered anew, and they
are written as before. -/
theorem parse_markup_canonical {d : Document} {forest : Forest} (shows : d.Shows forest)
    (canonical : areCanonical forest.trees = true) :
    parse d.markup = .ok forest.trees ∧
      ∃ again, Document.parse d.markup = .ok again ∧
        again.Shows (Forest.plant 1 forest.trees) ∧ again.markup = d.markup := by
  -- The markup of the document is that of the trees it shows.
  have read := parse_writeAll canonical
  rw [← shows.markup] at read
  obtain ⟨again, markup⟩ := Document.parse_eq_ok read
  exact ⟨read, _, again, Document.shows_ofForest _, markup.trans shows.markup.symm⟩

/-- A page with all kinds of nodes, and with all kinds of quotes. -/
def canonicalPage : List Tree :=
  [.node (.doctype "DOCTYPE html".toList) [],
    .node (.element ⟨"p".toList, [.valued "class".toList "a'b".toList,
        ⟨"id".toList, some "\"".toList, .single⟩, ⟨"x".toList, some "a/b".toList, .bare⟩,
        .boolean "on".toList], false⟩)
      [.node (.text "1 < 2 ".toList) [], .node (.element ⟨"br".toList, [], true⟩) [],
        .node (.element ⟨"IMG".toList, [], false⟩) [],
        .node (.element ⟨"Script".toList, [], false⟩)
          [.node (.text "if (a</b>-1) <p>".toList) []]],
    .node (.comment " - <p> - ".toList) []]

/-- The page is read from its markup. -/
theorem parse_canonicalPage :
    (Document.ofForest canonicalPage).markup =
        ("<!DOCTYPE html><p class=\"a'b\" id='\"' x=a/b on>1 < 2 <br/><IMG>" ++
          "<Script>if (a</b>-1) <p></Script></p><!-- - <p> - -->").toList ∧
      parse (Document.ofForest canonicalPage).markup = .ok canonicalPage := by
  have shows := Document.shows_ofForest canonicalPage
  have canonical : areCanonical (Forest.plant 1 canonicalPage).trees = true := by
    rw [Forest.trees_plant]
    decide +kernel
  have read := (parse_markup_canonical shows canonical).1
  rw [Forest.trees_plant] at read
  exact ⟨by decide +kernel, read⟩

/-- The markup of a source when it has been read once. -/
def normalize (source : Text) : Except MarkupError Text :=
  (Document.parse source).map Document.markup

end Templates.Markup
