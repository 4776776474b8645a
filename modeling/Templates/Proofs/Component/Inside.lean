import Templates.Proofs.Component.Decoded
import Templates.Proofs.Component.Transfer
import Templates.Proofs.Markup.Exposed
import Templates.Proofs.Markup.Formed
import Templates.Proofs.Markup.Reread

/-!
An attribute of an element without children, set by hand or with a decoded address, and what is read
of its markup.

The attribute is read back and nothing else is, exactly if its value is one that stays inside the
tag. A value that is written between quotes always does.
-/

namespace Templates.Markup

open Markup.Token

namespace Attribute

/-- A name that has none of the characters that end one. -/
def IsPlainName (name : Text) : Prop :=
  name ≠ [] ∧ ∀ c ∈ name, endsName c = false

/-- An attribute with the quotes that it is written with, and its value as it is written between
them. -/
def asWritten (a : Attribute) : Attribute :=
  match a.value, a.quote with
  | none, _ => .boolean a.name
  | some value, .double => .valued a.name (Text.replace "\"" "&quot;" value)
  | some value, .single => ⟨a.name, some (Text.replace "'" "&#39;" value), .single⟩
  | some value, .bare =>
    if value.isEmpty || value.any (fun c => Text.isBlank c || c = '"') then
      .valued a.name (Text.replace "\"" "&quot;" value)
    else a

/-- A value without quotes stays inside the tag if none of its characters is a closing bracket or of
several bytes, and neither a single quote stands at its beginning nor a slash at its end. -/
def StaysInside (a : Attribute) : Prop :=
  ∀ value, a.value = some value → a.quote = .bare →
    (∀ c ∈ value, c ≠ '>' ∧ c.utf8Size = 1) ∧ value.head? ≠ some '\'' ∧ value.getLast? ≠ some '/'

/-- A plain name is one that can be read. -/
theorem IsPlainName.isName {name : Text} (plain : IsPlainName name) : IsName name := by
  obtain ⟨filled, ends⟩ := plain
  obtain ⟨first, rest, rfl⟩ := List.exists_cons_of_ne_nil filled
  have own := ends first List.mem_cons_self
  refine ⟨first, rest, rfl, ?_, ?_, ?_, fun c listed => ends c (List.mem_cons_of_mem _ listed)⟩
  · simp only [endsName, Bool.or_eq_false_iff] at own
    exact own.1.1.1.1.1
  · rintro rfl
    cases own
  · rintro rfl
    cases own

/-- The ways in which an attribute is written: without a value, between quotes that are not in the
value, or without quotes that the value would need. -/
inductive Written (name : Text) : Attribute → Prop
  | boolean : Written name (.boolean name)
  | double {value : Text} (absent : '"' ∉ value) : Written name (.valued name value)
  | single {value : Text} (absent : '\'' ∉ value) : Written name ⟨name, some value, .single⟩
  | bare {value : Text} (filled : value ≠ [])
    (solid : ∀ c ∈ value, Text.isBlank c = false ∧ c ≠ '"') : Written name ⟨name, some value, .bare⟩

/-- Every attribute is written in one of these ways. -/
theorem written_asWritten (a : Attribute) : Written a.name a.asWritten := by
  obtain ⟨name, value, quote⟩ := a
  cases value with
  | none => exact .boolean
  | some value =>
    cases quote with
    | double => exact .double (quote_notMem_replace value)
    | single => exact .single (Text.notMem_replace (by decide) value)
    | bare =>
      by_cases quoted : (value.isEmpty || value.any fun c => Text.isBlank c || c = '"') = true
      · -- The value needs quotes, and none is left in it.
        rw [asWritten]
        simp only [if_pos quoted]
        exact .double (quote_notMem_replace value)
      · rw [asWritten]
        simp only [if_neg quoted]
        obtain ⟨filled, solid⟩ : value ≠ [] ∧ ∀ c ∈ value, Text.isBlank c = false ∧ c ≠ '"' := by
          simpa using quoted
        exact .bare filled solid

/-- It is written the same a second time. -/
theorem writeAttribute_asWritten (a : Attribute) :
    writeAttribute a.asWritten = writeAttribute a := by
  obtain ⟨name, value, quote⟩ := a
  cases value with
  | none => rfl
  | some value =>
    -- What is written between quotes has none of them in it that would be replaced.
    have noDouble : Text.replace "\"" "&quot;" (Text.replace "\"" "&quot;" value) =
        Text.replace "\"" "&quot;" value :=
      Text.replace_of_notMem (quote_notMem_replace value) _
    have noSingle : Text.replace "'" "&#39;" (Text.replace "'" "&#39;" value) =
        Text.replace "'" "&#39;" value :=
      Text.replace_of_notMem (Text.notMem_replace (by decide) value) _
    cases quote with
    | double => simp only [asWritten, valued, writeAttribute, writeValue, writeDouble, noDouble]
    | single => simp only [asWritten, writeAttribute, writeValue, noSingle]
    | bare =>
      by_cases quoted : (value.isEmpty || value.any fun c => Text.isBlank c || c = '"') = true
      · simp only [asWritten, valued, writeAttribute, writeValue, writeDouble, if_pos quoted,
          noDouble]
      · simp only [asWritten, if_neg quoted]

namespace Written

variable {name : Text} {a : Attribute}

/-- An attribute keeps its name. -/
theorem name_eq (written : Written name a) : a.name = name := by
  cases written <;> rfl

/-- Only an empty value, a blank or a double quote asks for quotes. -/
theorem no_quotes {value : Text} (filled : value ≠ [])
    (solid : ∀ c ∈ value, Text.isBlank c = false ∧ c ≠ '"') :
    ¬(value.isEmpty || value.any fun c => Text.isBlank c || c = '"') = true := by
  simpa using And.intro filled solid

/-- A value that can stand without quotes is written without them. -/
theorem writeValue_bare {value : Text} (filled : value ≠ [])
    (solid : ∀ c ∈ value, Text.isBlank c = false ∧ c ≠ '"') : writeValue .bare value = value :=
  if_neg (no_quotes filled solid)

/-- It has the quotes that it is written with. -/
theorem requoted_eq (written : Written name a) : a.requoted = a := by
  cases written with
  | boolean | double | single => rfl
  | bare filled solid => exact if_neg (no_quotes filled solid)

/-- It can be read if its value stays inside the tag. -/
theorem formed (written : Written name a) (plain : IsPlainName name) (inside : a.StaysInside) :
    a.Formed where
  name := written.name_eq ▸ plain.isName
  value value held := by
    cases written with
    | boolean => cases held
    | double absent => cases held; exact absent
    | single absent => cases held; exact absent
    | bare filled solid =>
      cases held
      obtain ⟨narrow, noQuote, _⟩ := inside _ rfl rfl
      refine ⟨fun c listed => ⟨?_, narrow c listed⟩, fun first => ?_, noQuote⟩
      · -- A blank of markup would be a blank.
        rw [Bool.eq_false_iff]
        intro blank
        have other := (solid c listed).1
        rw [Text.isBlank_of_isMarkupBlank blank] at other
        cases other
      · exact (solid '"' (List.mem_of_mem_head? first)).2 rfl
  boolean none := by
    cases written with
    | boolean => rfl
    | double | single | bare => cases none

/-- It does not end in a slash if its value stays inside the tag. -/
theorem getLast?_ne_slash (written : Written name a) (plain : IsPlainName name)
    (inside : a.StaysInside) : (writeAttribute a).getLast? ≠ some '/' := by
  -- An attribute ends as its value does, or as its name does if it has none.
  have behind (value : Text) (filled : value ≠ []) :
      (' ' :: name ++ '=' :: value).getLast? = value.getLast? := by
    rw [List.getLast?_append_of_ne_nil _ (List.cons_ne_nil _ _),
      List.getLast?_cons_of_ne_nil filled]
  have quoted (mark : Char) (value : Text) :
      (' ' :: name ++ '=' :: (mark :: value ++ [mark])).getLast? = some mark := by
    rw [behind (mark :: value ++ [mark]) (List.cons_ne_nil _ _), List.getLast?_concat]
  cases written with
  | boolean =>
    obtain ⟨filled, ends⟩ := plain
    intro last
    have own : (' ' :: name ++ []).getLast? = some '/' := last
    rw [List.append_nil, List.getLast?_cons_of_ne_nil filled] at own
    cases ends '/' (List.mem_of_getLast? own)
  | @double value =>
    show (' ' :: name ++ '=' :: ('"' :: Text.replace "\"" "&quot;" value ++ ['"'])).getLast? ≠ _
    rw [quoted]
    decide
  | @single value =>
    show (' ' :: name ++ '=' :: ('\'' :: Text.replace "'" "&#39;" value ++ ['\''])).getLast? ≠ _
    rw [quoted]
    decide
  | @bare value filled solid =>
    obtain ⟨_, _, noSlash⟩ := inside _ rfl rfl
    show (' ' :: name ++ '=' :: writeValue .bare value).getLast? ≠ _
    rwa [writeValue_bare filled solid, behind _ filled]

end Written

end Attribute

/-- An element without children that has one attribute. -/
def Element.alone (tag : Text) (a : Attribute) : Element :=
  ⟨tag, [a], false⟩

variable {tag : Text} {a : Attribute}

/-- An element is written the same with its attribute as it is written. -/
theorem write_alone (tag : Text) (a : Attribute) :
    write (.node (.element (.alone tag a.asWritten)) []) =
      write (.node (.element (.alone tag a)) []) := by
  have start : writeStart (.alone tag a.asWritten) = writeStart (.alone tag a) := by
    simp only [writeStart, Element.alone, List.flatMap_singleton, a.writeAttribute_asWritten]
  rw [write, write, start]
  rfl

/-- A value that stays inside its tag is read back there, and nothing else is read. -/
theorem parse_alone (named : IsTagName tag) (encloses : isVoid tag = false)
    (plain : Attribute.IsPlainName a.name) (inside : a.asWritten.StaysInside) :
    parse (write (.node (.element (.alone tag a)) [])) =
      .ok [.node (.element (.alone tag a.asWritten)) []] := by
  have written := a.written_asWritten
  have formed : FormedAll [.node (.element (.alone tag a.asWritten)) []] := by
    refine ⟨⟨⟨named, ?_⟩, ?_⟩, rfl, trivial⟩
    · rintro b listed
      obtain rfl := List.mem_singleton.mp listed
      exact written.formed plain inside
    · have long : (Element.alone tag a.asWritten).isShort = false := encloses
      rw [long, if_neg Bool.false_ne_true]
      split
      · exact .inl rfl
      · trivial
  -- The tag ends as its attribute does.
  have noSlash : (writeStart (.alone tag a.asWritten)).getLast? ≠ some '/' := by
    have filled : writeAttribute a.asWritten ≠ [] := by simp [writeAttribute]
    rw [writeStart, Element.alone, List.flatMap_singleton, List.getLast?_append_of_ne_nil _ filled]
    exact written.getLast?_ne_slash plain inside
  have own : (Element.alone tag a.asWritten).isSettled = true := decide_eq_true noSlash
  have settled : areSettled [] [.node (.element (.alone tag a.asWritten)) []] = true := by
    simp [areSettled, Tree.isSettled, own]
  have read := parse_writeAll_settled formed settled
  have single : writeAll [.node (.element (.alone tag a.asWritten)) []] =
      write (.node (.element (.alone tag a)) []) := by
    rw [writeAll, writeAll, List.append_nil, write_alone]
  have same : requotedAll [.node (.element (.alone tag a.asWritten)) []] =
      [.node (.element (.alone tag a.asWritten)) []] := by
    simp [requotedAll, Tree.requoted, Element.requoted, Element.alone, written.requoted_eq]
  rwa [single, same] at read

/-- A slash at the end of a value without quotes is read as the end of the tag. -/
theorem readAttribute_slash {first : Char} {rest front : Text}
    (ends : ∀ c ∈ rest, endsName c = false) (held : Attribute.IsValue .bare front) (after : Text) :
    readAttribute first (rest ++ '=' :: (front ++ (tagEnd true ++ after))) =
      .read ⟨first :: rest, some front, .bare⟩ (tagEnd true ++ after) := by
  cases front with
  | nil =>
    -- Nothing stands between the equals sign and the end of the tag.
    refine readAttribute_value ends (fun c next => ?_) rfl
    cases next
    rfl
  | cons c front => exact readAttribute_bare ends held (.inr ⟨true, after, rfl⟩) fun _ => nofun

/-- An element whose tag ends in a slash that was meant for a value. -/
theorem readTag_slash {name front : Text} (named : IsTagName tag)
    (plain : Attribute.IsPlainName name) (held : Attribute.IsValue .bare front) (after : Text) :
    readTag (tag ++ (' ' :: name ++ '=' :: (front ++ (tagEnd true ++ after)))) =
      .read ⟨tag, [⟨name, some front, .bare⟩], true⟩ after := by
  obtain ⟨first, rest, rfl, blank, bracket, slash, ends⟩ := plain.isName
  have inside := named.inTagName
  have stops : ∀ c, (' ' :: first :: rest ++ '=' :: (front ++ (tagEnd true ++ after))).head? =
      some c → inTagName c = false := by
    intro c next
    cases next
    decide
  have trimmed : (' ' :: first :: rest ++ '=' :: (front ++ (tagEnd true ++ after))).dropWhile
      Text.isMarkupBlank = first :: (rest ++ '=' :: (front ++ (tagEnd true ++ after))) := by
    have space : Text.isMarkupBlank ' ' = true := rfl
    simp [space, blank]
  have step := readAttributes_attribute trimmed bracket slash
  -- Behind the attribute, the end of the tag is left to read.
  have all (fuel : Nat) : readAttributes (fuel + 2)
      (' ' :: first :: rest ++ '=' :: (front ++ (tagEnd true ++ after))) =
        .read ([⟨first :: rest, some front, .bare⟩], true) after := by
    rw [step, readAttribute_slash ends held]
    rfl
  unfold readTag
  rw [Text.takeWhile_append inside stops, Text.dropWhile_append inside stops]
  simp only [List.cons_append, List.length_cons] at all ⊢
  rw [all]

/-- An element with a slash at the end of its value is closed by that slash. -/
theorem parse_alone_slash {name front : Text} (named : IsTagName tag)
    (encloses : isVoid tag = false) (plain : Attribute.IsPlainName name)
    (held : Attribute.IsValue .bare front)
    (bare : writeValue .bare (front ++ ['/']) = front ++ ['/']) :
    parse (write (.node (.element (.alone tag ⟨name, some (front ++ ['/']), .bare⟩)) [])) =
      .ok [.node (.element ⟨tag, [⟨name, some front, .bare⟩], true⟩) []] := by
  -- The slash stands right in front of the bracket that was to end the tag.
  have text : write (.node (.element (.alone tag ⟨name, some (front ++ ['/']), .bare⟩)) []) =
      '<' :: (tag ++ (' ' :: name ++ '=' :: (front ++ tagEnd true))) ++ endTagOf tag ++ [] := by
    have long : (Element.alone tag ⟨name, some (front ++ ['/']), .bare⟩).isShort = false := encloses
    rw [write_long long]
    simp [writeStart, Element.alone, writeAttribute, bare, tagEnd, writeAll]
  have next : Token.next '<' ((tag ++ (' ' :: name ++ '=' :: (front ++ tagEnd true))) ++
      (endTagOf tag ++ [])) =
        .ok (.startTag ⟨tag, [⟨name, some front, .bare⟩], true⟩ none, endTagOf tag ++ []) := by
    have tagRead := readTag_slash named plain held (endTagOf tag ++ [])
    obtain ⟨c, rest, rfl, letter, _⟩ := named
    have start := Token.next_of_letter letter (rest ++ (' ' :: name ++ '=' :: (front ++
      (tagEnd true ++ (endTagOf (c :: rest) ++ [])))))
    rw [← List.cons_append, tagRead] at start
    simpa using start
  have reads := (ReadsAs.single next).append (readsAs_endTag named [])
  have all :
      tokens (write (.node (.element (.alone tag ⟨name, some (front ++ ['/']), .bare⟩)) [])) =
        .ok [.startTag ⟨tag, [⟨name, some front, .bare⟩], true⟩ none, .endTag tag] := by
    rw [text]
    exact reads
  rw [parse, all]
  rfl

/-- A value that is read back where it was written has stayed inside its tag. -/
theorem staysInside_of_parse (named : IsTagName tag) (encloses : isVoid tag = false)
    (plain : Attribute.IsPlainName a.name)
    (read : parse (write (.node (.element (.alone tag a)) [])) =
      .ok [.node (.element (.alone tag a.asWritten)) []]) : a.asWritten.StaysInside := by
  have formed : a.asWritten.Formed :=
    (formedAll_of_parse read).1.1.attributes _ (List.mem_singleton.mpr rfl)
  rw [← write_alone] at read
  intro value held noQuotes
  have fits : Attribute.IsValue .bare value := noQuotes ▸ formed.value value held
  refine ⟨fun c listed => (fits.1 c listed).2, fits.2.2, fun last => ?_⟩
  -- With the slash taken off, the rest of the value is read, and the element closes.
  obtain ⟨front, rfl⟩ := List.getLast?_eq_some_iff.mp last
  obtain ⟨narrow, noDouble, noSingle⟩ := fits
  have heldFront : Attribute.IsValue .bare front := by
    refine ⟨fun c listed => narrow c (List.mem_append_left _ listed), ?_, ?_⟩
    · cases front with
      | nil => nofun
      | cons c front => exact noDouble
    · cases front with
      | nil => nofun
      | cons c front => exact noSingle
  have written := a.written_asWritten
  generalize a.asWritten = b at read held noQuotes written
  cases written with
  | boolean => cases held
  | double | single => cases noQuotes
  | bare filled solid =>
    cases held
    rw [parse_alone_slash named encloses plain heldFront
      (Attribute.Written.writeValue_bare filled solid)] at read
    simp [Element.alone] at read

/-- A value is read back where it was written, with nothing else, exactly if it stays inside its
tag. -/
theorem parse_alone_iff (named : IsTagName tag) (encloses : isVoid tag = false)
    (plain : Attribute.IsPlainName a.name) :
    parse (write (.node (.element (.alone tag a)) [])) =
        .ok [.node (.element (.alone tag a.asWritten)) []] ↔ a.asWritten.StaysInside :=
  ⟨staysInside_of_parse named encloses plain, parse_alone named encloses plain⟩

namespace Document

variable {d : Document} {id : NodeId}

/-- The markup of an element without children is that of its tag alone. -/
theorem outer_childless {content : Content} (childless : d.children id = [])
    (own : d.content id = content) : d.outer id = write (.node content []) := by
  rw [outer, tree, ← own]
  cases d.size with
  | zero => rfl
  | succ fuel => rw [treeTo, childless, List.map_nil]

/-- The element a node is changes. -/
theorem content_mapElement {e : Element} (held : d.element? id = some e) (f : Element → Element) :
    (d.mapElement f id).content id = .element (f e) := by
  simp only [mapElement, held]
  rw [content_setContent (lt_size_of_element? held), if_pos rfl]

/-- A changed element keeps its children. -/
theorem children_mapElement (f : Element → Element) (x : NodeId) :
    (d.mapElement f id).children x = d.children x := by
  rw [mapElement]
  split
  · exact children_setContent d _ x
  · rfl

/-- A node that satisfies the condition is decoded, and any other one stays what it is. -/
theorem content_decodedAt (chosen : NodeId → Bool) (x : NodeId) :
    (d.decodedAt chosen).content x = if chosen x then (d.content x).decoded else d.content x := by
  rw [content, content, getElem?_decodedAt]
  -- A number without a node counts as an empty fragment, which has no addresses.
  cases d.nodes[x]? with
  | none => by_cases own : chosen x <;> simp [own, Content.decoded]
  | some node => by_cases own : chosen x <;> simp [own]

end Document

/-- A decoded attribute keeps its name. -/
theorem name_decodeAttribute (a : Attribute) : (Url.decodeAttribute a).name = a.name := by
  rw [Url.decodeAttribute]
  split <;> rfl

/-- An element without children that has just one attribute, whether it was set or is left with a
decoded address, is read back with that attribute as it is written and with nothing else, exactly if
the value as it is written stays inside the tag. -/
theorem parse_outer_alone_iff {tag : Text} (named : IsTagName tag) (encloses : isVoid tag = false)
    {a : Attribute} (plain : Attribute.IsPlainName a.name) {d : Document} {id : NodeId}
    (childless : d.children id = []) :
    (∀ e, d.element? id = some e → e.setAttribute a = .alone tag a →
      (parse ((d.setAttribute a id).outer id) =
          .ok [.node (.element (.alone tag a.asWritten)) []] ↔ a.asWritten.StaysInside)) ∧
    ∀ roots, id ∈ d.reached roots → d.element? id = some (.alone tag a) →
      (parse ((d.decodeUrls roots).outer id) =
          .ok [.node (.element (.alone tag (Url.decodeAttribute a).asWritten)) []] ↔
        (Url.decodeAttribute a).asWritten.StaysInside) := by
  constructor
  · intro e held only
    have kept : (d.setAttribute a id).children id = [] :=
      (Document.children_mapElement _ _).trans childless
    have own : (d.setAttribute a id).content id = .element (.alone tag a) := by
      rw [Document.setAttribute, Document.content_mapElement held, only]
    rw [Document.outer_childless kept own]
    exact parse_alone_iff named encloses plain
  · intro roots reached held
    have kept : (d.decodeUrls roots).children id = [] := by
      rw [Document.decodeUrls_eq, Document.children_decodedAt, childless]
    have own : (d.decodeUrls roots).content id =
        .element (.alone tag (Url.decodeAttribute a)) := by
      rw [Document.decodeUrls_eq, Document.content_decodedAt, if_pos (decide_eq_true reached),
        Document.content_of_element? held]
      rfl
    rw [Document.outer_childless kept own]
    exact parse_alone_iff named encloses (name_decodeAttribute a ▸ plain)

/-- A link without quotes around its address. -/
def bareLink (address : Text) : Document :=
  Document.ofForest
    [.node (.element (.alone "a".toList ⟨"href".toList, some address, .bare⟩)) []]

/-- A value with a single quote inside keeps no quotes, and an address with a slash at its end that
comes to hold quotes gets some. -/
theorem parse_outer_alone_bareLink :
    (bareLink "say%20%22hi%22/".toList).children 1 = [] ∧
      1 ∈ (bareLink "say%20%22hi%22/".toList).reached [0] ∧
      parse (((bareLink "say%20%22hi%22/".toList).setAttribute
          ⟨"HREF".toList, some "don't".toList, .bare⟩ 1).outer 1) =
        .ok [.node (.element (.alone "a".toList ⟨"HREF".toList, some "don't".toList, .bare⟩)) []] ∧
      parse (((bareLink "say%20%22hi%22/".toList).decodeUrls [0]).outer 1) =
        .ok [.node (.element (.alone "a".toList
          (.valued "href".toList "say &quot;hi&quot;/".toList))) []] := by
  have named : IsTagName "a".toList := ⟨'a', [], rfl, rfl, fun _ listed => nomatch listed⟩
  have plain (name : Text) (decided : (!name.isEmpty && name.all (!endsName ·)) = true) :
      Attribute.IsPlainName name := by
    simpa [Attribute.IsPlainName] using decided
  have childless : (bareLink "say%20%22hi%22/".toList).children 1 = [] := rfl
  have reached : 1 ∈ (bareLink "say%20%22hi%22/".toList).reached [0] := by decide
  have set := (parse_outer_alone_iff named rfl
    (a := ⟨"HREF".toList, some "don't".toList, .bare⟩) (plain _ rfl) childless).1 _ rfl rfl
  have left := (parse_outer_alone_iff named rfl
    (a := ⟨"href".toList, some "say%20%22hi%22/".toList, .bare⟩) (plain _ rfl) childless).2
      [0] reached rfl
  refine ⟨childless, reached, set.mpr ?_, left.mpr ?_⟩
  · intro value held _
    obtain rfl : "don't".toList = value := Option.some.inj held
    have narrow : "don't".toList.all (fun c => decide (c ≠ '>' ∧ c.utf8Size = 1)) = true := rfl
    refine ⟨fun c listed => ?_, by decide, by decide⟩
    exact of_decide_eq_true (List.all_eq_true.mp narrow c listed)
  · -- The value is written between quotes, so that nothing is asked of it.
    intro value _ bare
    exact absurd bare (by decide)

/-- An address in which a closing bracket comes up when it is decoded ends the tag early, so that
text is read behind it. -/
theorem bareLink_breaks_out :
    (bareLink "x&gt;y".toList).children 1 = [] ∧ 1 ∈ (bareLink "x&gt;y".toList).reached [0] ∧
      ((bareLink "x&gt;y".toList).decodeUrls [0]).markup = "<a href=x>y></a>".toList ∧
      ∀ a, parse (((bareLink "x&gt;y".toList).decodeUrls [0]).outer 1) ≠
        .ok [.node (.element (.alone "a".toList a)) []] := by
  have read : parse (((bareLink "x&gt;y".toList).decodeUrls [0]).outer 1) =
      .ok [.node (.element (.alone "a".toList ⟨"href".toList, some "x".toList, .bare⟩))
        [.node (.text "y>".toList) []]] := rfl
  refine ⟨rfl, by decide, rfl, fun a same => ?_⟩
  rw [read] at same
  cases same

end Templates.Markup
