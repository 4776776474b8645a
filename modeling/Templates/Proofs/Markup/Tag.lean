import Mathlib.Data.List.Basic
import Templates.Markup.Printer
import Templates.Markup.Token
import Templates.Proofs.Text.Search

/-!
Start tags that are written are read back.

A value without quotes may be written with quotes, and has them from then on.
-/

namespace Templates.Markup

open Markup.Token

/-- The name of a tag is a letter with other characters of such names behind it. -/
def IsTagName (name : Text) : Prop :=
  ∃ first rest, name = first :: rest ∧ first.isAlpha = true ∧ ∀ c ∈ rest, inTagName c = true

/-- All characters of the name of a tag are such characters. -/
theorem IsTagName.inTagName {name : Text} (named : IsTagName name) :
    ∀ c ∈ name, inTagName c = true := by
  -- The letter in front is one of these characters as well.
  obtain ⟨first, rest, rfl, letter, others⟩ := named
  refine List.forall_mem_cons.mpr ⟨?_, others⟩
  simp [Token.inTagName, Char.isAlphanum, letter]

namespace Attribute

/-- The first character of a name is no blank and cannot end a tag, and no other one ends a name. -/
def IsName (name : Text) : Prop :=
  ∃ first rest, name = first :: rest ∧ Text.isMarkupBlank first = false ∧ first ≠ '>' ∧
    first ≠ '/' ∧ ∀ c ∈ rest, endsName c = false

/-- A value does not hold what ends it. Without quotes around it, it is of characters of one byte
and begins with no quote. -/
def IsValue : Quote → Text → Prop
  | .double, value => '"' ∉ value
  | .single, value => '\'' ∉ value
  | .bare, value =>
    (∀ c ∈ value, Text.isMarkupBlank c = false ∧ c ≠ '>' ∧ c.utf8Size = 1) ∧
      value.head? ≠ some '"' ∧ value.head? ≠ some '\''

/-- An attribute as it is read: without a value it has no quotes. -/
structure Formed (a : Attribute) : Prop where
  name : IsName a.name
  value : ∀ value, a.value = some value → IsValue a.quote value
  boolean : a.value = none → a.quote = .bare

/-- An attribute with the quotes that its value is written with. -/
def requoted (a : Attribute) : Attribute :=
  match a.quote, a.value with
  | .bare, some value =>
    if value.isEmpty || value.any (fun c => Text.isBlank c || c = '"') then
      ⟨a.name, some (Text.replace "\"" "&quot;" value), .double⟩
    else a
  | _, _ => a

/-- No double quote is left in a value when all of them are replaced. -/
theorem quote_notMem_replace (value : Text) : '"' ∉ Text.replace "\"" "&quot;" value :=
  Text.notMem_replace (by decide) value

/-- New quotes do not change how an attribute is written. -/
theorem writeAttribute_requoted (a : Attribute) : writeAttribute a.requoted = writeAttribute a := by
  -- Only a value without quotes can gain some.
  unfold requoted
  split
  · rename_i value quote held
    split
    · -- No quote is left in the value that would have to be replaced a second time.
      rename_i quoted
      have stays : Text.replace "\"" "&quot;" (Text.replace "\"" "&quot;" value) =
          Text.replace "\"" "&quot;" value :=
        Text.replace_of_notMem (quote_notMem_replace value) _
      rw [writeAttribute, writeAttribute, held, quote]
      simp only [writeValue, writeDouble, stays, if_pos quoted]
    · rfl
  · rfl

end Attribute

/-- An element as it is read. -/
structure Element.Formed (e : Element) : Prop where
  name : IsTagName e.name
  attributes : ∀ a ∈ e.attributes, a.Formed

/-- An element with the quotes that the values of its attributes are written with. -/
def Element.requoted (e : Element) : Element :=
  { e with attributes := e.attributes.map Attribute.requoted }

/-- New quotes do not change how a start tag is written. -/
theorem writeStart_requoted (e : Element) : writeStart e.requoted = writeStart e := by
  simp only [writeStart, Element.requoted, List.flatMap_map, Attribute.writeAttribute_requoted]

/-- The end of a start tag. -/
def tagEnd (slash : Bool) : Text :=
  if slash then ['/', '>'] else ['>']

/-- What follows an attribute: a blank, or the end of the tag. -/
def BehindAttribute (tail : Text) : Prop :=
  (∃ rest, tail = ' ' :: rest) ∨ ∃ slash rest, tail = tagEnd slash ++ rest

/-- Attributes that are written begin with a blank, so that they follow another one. -/
theorem behindAttribute (attributes : List Attribute) (slash : Bool) (after : Text) :
    BehindAttribute (attributes.flatMap writeAttribute ++ (tagEnd slash ++ after)) := by
  cases attributes with
  | nil => exact .inr ⟨slash, after, rfl⟩
  | cons a rest => exact .inl ⟨_, rfl⟩

namespace Token

/-- A value between quotes ends at the next one. -/
theorem quotedValue_append {quote : Char} {value : Text} (absent : quote ∉ value) (rest : Text) :
    quotedValue quote (value ++ quote :: rest) = .read value rest := by
  -- The reader goes character by character, and so does the induction.
  induction value with
  | nil => rw [List.nil_append, quotedValue, if_pos rfl]
  | cons c value ih =>
    obtain ⟨other, absent⟩ := List.ne_and_not_mem_of_not_mem_cons absent
    rw [List.cons_append, quotedValue, if_neg (Ne.symm other), ih absent]

/-- A value without quotes ends where the attribute does, if its last character is not taken for a
part of the end of the tag. -/
theorem bareValue_append {value tail : Text}
    (plain : ∀ c ∈ value, Text.isMarkupBlank c = false ∧ c ≠ '>' ∧ c.utf8Size = 1)
    (behind : BehindAttribute tail)
    (apart : value.getLast? = some '/' → tail.head? ≠ some '>') :
    bareValue (value ++ tail) = .read value tail := by
  induction value with
  | nil =>
    -- A blank and both ends of a tag stop a value.
    obtain ⟨rest, rfl⟩ | ⟨slash, rest, rfl⟩ := behind
    · rfl
    · cases slash <;> rfl
  | cons c value ih =>
    -- No character of the value stops the reader, a slash at its end included.
    obtain ⟨blank, bracket, small⟩ := plain c List.mem_cons_self
    have later := ih (fun d listed => plain d (List.mem_cons_of_mem _ listed)) fun last => by
      refine apart ?_
      rw [List.getLast?_cons, last]
      rfl
    have slashed : ¬(c = '/' ∧ (value ++ tail).head? = some '>') := by
      rintro ⟨rfl, next⟩
      cases value with
      | nil => exact apart rfl next
      | cons d value =>
        obtain ⟨_, other, _⟩ := plain d (List.mem_cons_of_mem _ List.mem_cons_self)
        exact other (Option.some.inj next)
    rw [List.cons_append, bareValue, if_neg (by simpa [blank, bracket] using slashed),
      if_neg (by simp [small]), later]

/-- What follows an attribute ends its name. -/
theorem endsName_of_behind {tail : Text} (behind : BehindAttribute tail) {c : Char}
    (next : tail.head? = some c) : endsName c = true := by
  obtain ⟨rest, rfl⟩ | ⟨slash, rest, rfl⟩ := behind
  · cases next
    decide
  · cases slash <;> cases next <;> decide

/-- The value behind an equals sign and blanks, with its quotes. -/
def readValue (text : Text) : Quote × Part Text :=
  match text with
  | '"' :: inner => (.double, quotedValue '"' inner)
  | '\'' :: inner => (.single, quotedValue '\'' inner)
  | _ => (.bare, bareValue text)

/-- An attribute is a name, and a value if an equals sign follows. -/
theorem readAttribute_eq (first : Char) (text : Text) :
    readAttribute first text =
      match (text.dropWhile (!endsName ·)).dropWhile Text.isMarkupBlank with
      | '=' :: after =>
        match (readValue (after.dropWhile Text.isMarkupBlank)).2 with
        | .read value rest =>
          .read ⟨first :: text.takeWhile (!endsName ·), some value,
            (readValue (after.dropWhile Text.isMarkupBlank)).1⟩ rest
        | .noTag => .noTag
        | .cut => .cut
      | _ => .read (.boolean (first :: text.takeWhile (!endsName ·)))
          (text.dropWhile (!endsName ·)) :=
  rfl

/-- An attribute with a value ends where its value does. -/
theorem readAttribute_value {first : Char} {rest value text tail : Text} {quote : Quote}
    (ends : ∀ c ∈ rest, endsName c = false)
    (solid : ∀ c, text.head? = some c → Text.isMarkupBlank c = false)
    (read : readValue text = (quote, .read value tail)) :
    readAttribute first (rest ++ '=' :: text) = .read ⟨first :: rest, some value, quote⟩ tail := by
  have stops : ∀ c, ('=' :: text).head? = some c → (!endsName c) = false := by
    rintro c same
    cases same
    decide
  have inside : ∀ c ∈ rest, (!endsName c) = true := fun c listed => by simp [ends c listed]
  have equals : ('=' :: text).dropWhile Text.isMarkupBlank = '=' :: text := rfl
  have trimmed : text.dropWhile Text.isMarkupBlank = text :=
    Text.dropWhile_append (List.forall_mem_nil _) solid
  -- Behind the name there is nothing but the value.
  rw [readAttribute_eq, Text.takeWhile_append inside stops, Text.dropWhile_append inside stops,
    equals]
  simp only [trimmed, read]

/-- A value between quotes ends with them. -/
theorem readAttribute_quoted {first mark : Char} {rest value : Text} {quote : Quote}
    (ends : ∀ c ∈ rest, endsName c = false) (solid : Text.isMarkupBlank mark = false)
    (opens : ∀ inner, readValue (mark :: inner) = (quote, quotedValue mark inner))
    (absent : mark ∉ value) (tail : Text) :
    readAttribute first (rest ++ '=' :: (mark :: value ++ [mark] ++ tail)) =
      .read ⟨first :: rest, some value, quote⟩ tail := by
  have whole : mark :: value ++ [mark] ++ tail = mark :: (value ++ mark :: tail) := by simp
  rw [whole]
  refine readAttribute_value ends (fun c next => ?_) ?_
  · cases next
    exact solid
  · rw [opens, quotedValue_append absent]

/-- A value without quotes ends where its attribute does. -/
theorem readAttribute_bare {first c : Char} {rest value tail : Text}
    (ends : ∀ c ∈ rest, endsName c = false) (held : Attribute.IsValue .bare (c :: value))
    (behind : BehindAttribute tail)
    (apart : (c :: value).getLast? = some '/' → tail.head? ≠ some '>') :
    readAttribute first (rest ++ '=' :: (c :: value ++ tail)) =
      .read ⟨first :: rest, some (c :: value), .bare⟩ tail := by
  obtain ⟨plain, noDouble, noSingle⟩ := held
  refine readAttribute_value ends (fun d next => ?_) ?_
  · cases next
    exact (plain c List.mem_cons_self).1
  · -- The value does not begin with a quote.
    unfold readValue
    split
    · rename_i inner same
      exact absurd (congrArg List.head? same) noDouble
    · rename_i inner same
      exact absurd (congrArg List.head? same) noSingle
    · rw [bareValue_append plain behind apart]

/-- A value that is written is read back, with the quotes it is written with. -/
theorem readAttribute_writeValue {first : Char} {rest value tail : Text} {quote : Quote}
    (ends : ∀ c ∈ rest, endsName c = false) (held : Attribute.IsValue quote value)
    (behind : BehindAttribute tail)
    (apart : (writeValue quote value).getLast? = some '/' → tail.head? ≠ some '>') :
    readAttribute first (rest ++ '=' :: (writeValue quote value ++ tail)) =
      .read (Attribute.requoted ⟨first :: rest, some value, quote⟩) tail := by
  cases quote with
  | double =>
    -- There are no quotes in the value to replace.
    have stays : Text.replace "\"" "&quot;" value = value := Text.replace_of_notMem held _
    rw [writeValue, writeDouble, stays]
    exact readAttribute_quoted ends rfl (fun _ => rfl) held tail
  | single =>
    have stays : Text.replace "'" "&#39;" value = value := Text.replace_of_notMem held _
    rw [writeValue, stays]
    exact readAttribute_quoted ends rfl (fun _ => rfl) held tail
  | bare =>
    by_cases quotes : (value.isEmpty || value.any fun c => Text.isBlank c || c = '"') = true
    · -- The value gains quotes, and none is left within them.
      rw [writeValue, if_pos quotes, Attribute.requoted]
      simp only [if_pos quotes]
      exact readAttribute_quoted ends rfl (fun _ => rfl) (Attribute.quote_notMem_replace value) tail
    · -- The value stays as it is, and is not empty.
      rw [writeValue, if_neg quotes] at apart ⊢
      rw [Attribute.requoted]
      simp only [if_neg quotes]
      cases value with
      | nil => exact absurd rfl quotes
      | cons c value => exact readAttribute_bare ends held behind apart

/-- An attribute that is written is read back, if what follows does not change its meaning: without
a value it is not followed by an equals sign, and a slash at its end does not end the tag. -/
theorem readAttribute_write {a : Attribute} (formed : a.Formed) {tail : Text}
    (behind : BehindAttribute tail)
    (noValue : a.value = none → (tail.dropWhile Text.isMarkupBlank).head? ≠ some '=')
    (apart : (writeAttribute a).getLast? = some '/' → tail.head? ≠ some '>') :
    ∃ first rest, writeAttribute a ++ tail = ' ' :: first :: rest ∧
      Text.isMarkupBlank first = false ∧ first ≠ '>' ∧ first ≠ '/' ∧
        readAttribute first rest = .read a.requoted tail := by
  obtain ⟨first, rest, name, solid, bracket, slash, ends⟩ := formed.name
  obtain ⟨_, value, quote⟩ := a
  obtain rfl : _ = first :: rest := name
  cases value with
  | none =>
    obtain rfl : quote = .bare := formed.boolean rfl
    refine ⟨first, rest ++ tail, by simp [writeAttribute], solid, bracket, slash, ?_⟩
    -- Nothing that follows the name is taken for its value.
    have inside : ∀ c ∈ rest, (!endsName c) = true := fun c listed => by simp [ends c listed]
    have stops : ∀ c, tail.head? = some c → (!endsName c) = false := fun c next => by
      simp [endsName_of_behind behind next]
    rw [readAttribute_eq, Text.takeWhile_append inside stops, Text.dropWhile_append inside stops]
    split
    · rename_i after same
      exact absurd (by rw [same]; rfl) (noValue rfl)
    · rfl
  | some value =>
    refine ⟨first, rest ++ '=' :: (writeValue quote value ++ tail), by simp [writeAttribute], solid,
      bracket, slash, readAttribute_writeValue ends (formed.value value rfl) behind ?_⟩
    -- The attribute ends as its value does.
    intro last
    refine apart ?_
    rw [writeAttribute, List.getLast?_append, List.getLast?_cons, last]
    rfl

/-- Attributes without a value are not followed by a name that begins with an equals sign. -/
def keepsApart : List Attribute → Bool
  | a :: b :: rest => (a.value.isSome || b.name.head? ≠ some '=') && keepsApart (b :: rest)
  | _ => true

/-- What is written behind an attribute is either the end of the tag or another attribute, and
neither changes the meaning of the one in front. -/
theorem behind_of_keepsApart {a : Attribute} {rest : List Attribute}
    (formed : ∀ b ∈ rest, b.Formed) (apart : keepsApart (a :: rest) = true) {slash : Bool}
    (unslashed : slash = true ∨ ((a :: rest).flatMap writeAttribute).getLast? ≠ some '/')
    (after : Text) :
    (a.value = none → ((rest.flatMap writeAttribute ++ (tagEnd slash ++ after)).dropWhile
        Text.isMarkupBlank).head? ≠ some '=') ∧
      ((writeAttribute a).getLast? = some '/' →
        (rest.flatMap writeAttribute ++ (tagEnd slash ++ after)).head? ≠ some '>') ∧
      keepsApart rest = true ∧
      (slash = true ∨ (rest.flatMap writeAttribute).getLast? ≠ some '/') := by
  cases rest with
  | nil =>
    -- The end of the tag is no equals sign. If it is a bare bracket, no slash stands in front.
    refine ⟨fun _ => ?_, fun ends => ?_, rfl, .inr (by simp)⟩
    · cases slash <;> simp [tagEnd, Text.isMarkupBlank]
    · rw [List.flatMap_singleton, ends] at unslashed
      cases slash
      · simp at unslashed
      · simp [tagEnd]
  | cons b rest =>
    obtain ⟨next, apartRest⟩ := Bool.and_eq_true_iff.mp apart
    obtain ⟨first, name, same, solid, _⟩ := (formed b List.mem_cons_self).name
    refine ⟨fun none => ?_, fun _ => by simp [writeAttribute], apartRest, ?_⟩
    · -- The next attribute begins with a blank, and behind that with its name.
      have blank : Text.isMarkupBlank ' ' = true := rfl
      rw [same] at next
      simpa [writeAttribute, same, blank, solid, none] using next
    · -- The last attribute is the same without the first one.
      have more : (b :: rest).flatMap writeAttribute ≠ [] := by simp [writeAttribute]
      rwa [List.flatMap_cons, List.getLast?_append_of_ne_nil _ more] at unslashed

/-- Attributes that are written are read back up to the end of their tag. -/
theorem readAttributes_write {attributes : List Attribute} (formed : ∀ a ∈ attributes, a.Formed)
    (apart : keepsApart attributes = true) {slash : Bool}
    (unslashed : slash = true ∨ (attributes.flatMap writeAttribute).getLast? ≠ some '/')
    (after : Text) {fuel : Nat} (enough : attributes.length < fuel) :
    readAttributes fuel (attributes.flatMap writeAttribute ++ (tagEnd slash ++ after)) =
      .read (attributes.map Attribute.requoted, slash) after := by
  -- Each step reads one attribute, with one unit of fuel less for the others.
  induction attributes generalizing fuel with
  | nil =>
    obtain ⟨fuel, rfl⟩ : ∃ n, fuel = n + 1 := ⟨fuel - 1, by simp at enough; omega⟩
    cases slash <;> rfl
  | cons a rest ih =>
    obtain ⟨fuel, rfl⟩ : ∃ n, fuel = n + 1 := ⟨fuel - 1, by simp at enough; omega⟩
    have formedRest : ∀ b ∈ rest, b.Formed := fun b listed =>
      formed b (List.mem_cons_of_mem _ listed)
    obtain ⟨noValue, last, apartRest, unslashedRest⟩ :=
      behind_of_keepsApart formedRest apart unslashed after
    obtain ⟨first, inner, written, solid, bracket, noSlash, read⟩ :=
      readAttribute_write (formed a List.mem_cons_self) (behindAttribute rest slash after) noValue
        last
    have later := ih formedRest apartRest unslashedRest (Nat.lt_of_succ_lt_succ enough)
    have trimmed : (' ' :: first :: inner).dropWhile Text.isMarkupBlank = first :: inner := by
      have blank : Text.isMarkupBlank ' ' = true := rfl
      rw [List.dropWhile_cons, if_pos blank, List.dropWhile_cons, if_neg (by simp [solid])]
    -- Behind the blank neither a bracket nor a slash is seen, so that an attribute is read.
    rw [List.flatMap_cons, List.append_assoc, written, readAttributes, trimmed]
    split <;> rename_i same <;> cases same
    · exact absurd rfl bracket
    · exact absurd rfl noSlash
    · exact absurd rfl noSlash
    · rw [read]
      simp only [later]
      rfl

/-- A start tag is read as it is written. Only the quotes may be new. -/
theorem readTag_write {e : Element} (formed : e.Formed) (apart : keepsApart e.attributes = true)
    (unslashed : e.selfClosing = true ∨ (writeStart e).getLast? ≠ some '/') (after : Text) :
    readTag (e.name ++ (e.attributes.flatMap writeAttribute ++ (tagEnd e.selfClosing ++ after))) =
      .read e.requoted after := by
  -- The name ends where a blank or the end of the tag stands.
  have inside := formed.name.inTagName
  have stops : ∀ c, (e.attributes.flatMap writeAttribute ++
      (tagEnd e.selfClosing ++ after)).head? = some c → inTagName c = false := by
    intro c next
    obtain ⟨_, same⟩ | ⟨slash, _, same⟩ := behindAttribute e.attributes e.selfClosing after
    · rw [same] at next
      cases next
      decide
    · rw [same] at next
      cases slash <;> cases next <;> decide
  have unslashedList : e.selfClosing = true ∨
      (e.attributes.flatMap writeAttribute).getLast? ≠ some '/' := by
    refine unslashed.imp_right fun other last => other ?_
    rw [writeStart, List.getLast?_append, last]
    rfl
  -- There are fewer attributes than characters to read them from.
  have short : e.attributes.length ≤ (e.attributes.flatMap writeAttribute).length := by
    induction e.attributes with
    | nil => exact Nat.le_refl 0
    | cons a rest ih =>
      simp only [List.length_cons, List.flatMap_cons, List.length_append, writeAttribute]
      omega
  have enough : e.attributes.length < (e.attributes.flatMap writeAttribute ++
      (tagEnd e.selfClosing ++ after)).length + 1 := by
    rw [List.length_append]
    omega
  unfold readTag
  simp only [Text.takeWhile_append inside stops, Text.dropWhile_append inside stops,
    readAttributes_write formed.attributes apart unslashedList after enough]
  rfl

end Token

end Templates.Markup
