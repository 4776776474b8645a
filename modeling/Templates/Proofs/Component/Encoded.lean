import Templates.Component.Url
import Templates.Proofs.Expr.Delimited
import Templates.Proofs.Text.Scan

/-!
Addresses that are written with entities and percent signs are decoded to what they were.

An entity reaches to the first semicolon and a percent sign to the second digit behind it, so that
nothing that was written is misread together with what follows. Main statement: a text comes back
from its escaped form, from every form in percent signs, and from both one after the other.
-/

namespace Templates

namespace Text

/-- An entity is read up to its semicolon, whatever stands behind it. -/
theorem entityRule_named {name : Text} {c : Char} (closed : ';' ∉ name)
    (named : entity? name = some c) (rest : Text) :
    entityRule ('&' :: name ++ ';' :: rest) = some (c, rest) := by
  -- The first semicolon is the one behind the name.
  have found : cut? ";" (name ++ ';' :: rest) = some (name, rest) := cut?_of_notMem closed [] rest
  rw [List.cons_append, entityRule, found]
  simp [named]

/-- A character is read back from the way it is escaped, whatever stands behind it. -/
theorem unescape_escapeChar (c : Char) (rest : Text) :
    unescape (escapeChar c ++ rest) = c :: unescape rest := by
  -- What is written for a special character is an entity, and no other hit begins in it.
  have special {d : Char} (name : Text) (closed : ';' ∉ name) (named : entity? name = some d) :
      unescape ('&' :: name ++ [';'] ++ rest) = d :: unescape rest := by
    apply replaceHits_scan_hit
    · simp
    · have read := entityRule_named closed named rest
      simpa using read
  by_cases ampersand : c = '&'
  · subst ampersand
    exact special "amp".toList (by decide) rfl
  by_cases opening : c = '<'
  · subst opening
    exact special "lt".toList (by decide) rfl
  by_cases closing : c = '>'
  · subst closing
    exact special "gt".toList (by decide) rfl
  by_cases double : c = '"'
  · subst double
    exact special "quot".toList (by decide) rfl
  by_cases single : c = '\''
  · subst single
    exact special "#39".toList (by decide) (by decide)
  · -- Any other character is written as it is, and only an ampersand begins an entity.
    have kept : escapeChar c = [c] := by
      simp [escapeChar, ampersand, opening, closing, double, single]
    have passes : Passes entityRule [c] rest := by
      refine ⟨?_, trivial⟩
      unfold entityRule
      split
      · next same =>
        obtain ⟨rfl, _⟩ := List.cons.inj same
        exact absurd rfl ampersand
      · rfl
    rw [kept]
    exact passes.replaceHits

/-- An escaped text is read back as it was. -/
theorem unescape_escape (text : Text) : unescape (escape text) = text := by
  induction text with
  | nil => rfl
  | cons c text ih =>
    have split : escape (c :: text) = escapeChar c ++ escape text := rfl
    rw [split, unescape_escapeChar, ih]

/-- The characters that stand for themselves in every address: letters, digits and four signs. -/
def isUnreserved (c : Char) : Bool :=
  c.isAlphanum || c = '-' || c = '.' || c = '_' || c = '~'

/-- A text is written for bytes. A byte of an unreserved character is that character, and any other
is a percent sign with two hexadecimal digits, in letters of any case. -/
inductive Percented : List UInt8 → Text → Prop
  | nil : Percented [] []
  | unreserved {byte : UInt8} {bytes : List UInt8} {text : Text}
    (plain : isUnreserved (Char.ofUInt8 byte) = true) (behind : Percented bytes text) :
    Percented (byte :: bytes) (Char.ofUInt8 byte :: text)
  | reserved {byte : UInt8} {high low : Char} {bytes : List UInt8} {text : Text}
    (other : isUnreserved (Char.ofUInt8 byte) = false)
    (first : digit? high = some (byte.toNat / 16)) (second : digit? low = some (byte.toNat % 16))
    (behind : Percented bytes text) : Percented (byte :: bytes) ('%' :: high :: low :: text)

/-- A byte with capital digits behind its percent sign. -/
def percentByte (byte : UInt8) : Text :=
  if isUnreserved (Char.ofUInt8 byte) then [Char.ofUInt8 byte]
  else ['%', (Nat.digitChar (byte.toNat / 16)).toUpper, (Nat.digitChar (byte.toNat % 16)).toUpper]

/-- A text with percent signs for all that is reserved. -/
def percent (text : Text) : Text :=
  (encode text).flatMap percentByte

/-- Capital digits are read as the numbers that they are written for. -/
theorem digit?_capital : ∀ n < 16, digit? (Nat.digitChar n).toUpper = some n := by
  decide

/-- Capital digits are one way to write a text in percent signs. -/
theorem percented_percent (text : Text) : Percented (encode text) (percent text) := by
  unfold percent
  induction encode text with
  | nil => exact .nil
  | cons byte bytes ih =>
    rw [List.flatMap_cons, percentByte]
    split
    · next plain => exact .unreserved plain ih
    · next reserved =>
      -- Both halves of a byte are digits.
      have small := byte.toNat_lt
      have first := digit?_capital (byte.toNat / 16) (by omega)
      have second := digit?_capital (byte.toNat % 16) (by omega)
      exact .reserved (by simpa using reserved) first second ih

/-- An unreserved character is encoded in one byte. -/
theorem utf8Size_of_isUnreserved {c : Char} (plain : isUnreserved c = true) : c.utf8Size = 1 := by
  simp only [isUnreserved, Bool.or_eq_true, decide_eq_true_eq] at plain
  rcases plain with (((plain | rfl) | rfl) | rfl) | rfl
  · exact (Lexer.printing_of_isAlphanum plain).utf8Size
  all_goals rfl

/-- An unreserved character that a byte is the number of is encoded in that byte. -/
theorem utf8EncodeChar_unreserved {byte : UInt8} (plain : isUnreserved (Char.ofUInt8 byte) = true) :
    String.utf8EncodeChar (Char.ofUInt8 byte) = [byte] := by
  rw [String.utf8EncodeChar_eq_singleton (utf8Size_of_isUnreserved plain)]
  have number : (Char.ofUInt8 byte).val.toUInt8 = byte := UInt8.toUInt8_toUInt32 byte
  rw [number]

/-- The bytes that a text was written for are read back. -/
theorem Percented.percentBytes_eq {bytes : List UInt8} {text : Text}
    (written : Percented bytes text) : percentBytes 0 text = bytes := by
  induction written with
  | nil => rfl
  | @unreserved byte bytes text plain _ ih =>
    -- A percent sign is not one of these characters.
    have other : Char.ofUInt8 byte ≠ '%' := by
      intro same
      rw [same] at plain
      cases plain
    rw [percentBytes, if_neg other, utf8EncodeChar_unreserved plain, ih]
    rfl
  | @reserved byte high low bytes text _ first second _ ih =>
    -- The two digits make up the byte and are passed over.
    have read : percent? (high :: low :: text) = some (byte, text) := by
      have whole : byte.toNat / 16 * 16 + byte.toNat % 16 = byte.toNat := by omega
      simp [percent?, first, second, whole]
    rw [percentBytes, if_pos rfl, read]
    simp [percentBytes, ih]

/-- A text is read back from every way to write its bytes in percent signs. -/
theorem Percented.unpercent_eq {text address : Text} (written : Percented (encode text) address) :
    unpercent address = text := by
  rw [unpercent, written.percentBytes_eq, decode?_encode, Option.getD_some]

end Text

/-- Decoding undoes encoding, for every text. What is escaped is read back, and so is what is
written in percent signs, in digits of any case; an address that was escaped and then written in
percent signs is decoded to the text. One way to write a text so is always there. -/
theorem Url.decode_inverts (text : Text) :
    Text.unescape (Text.escape text) = text ∧
      (∀ address, Text.Percented (Text.encode text) address → Text.unpercent address = text) ∧
      (∀ address, Text.Percented (Text.encode (Text.escape text)) address →
        decode address = text) ∧
      Text.Percented (Text.encode text) (Text.percent text) ∧
      decode (Text.percent (Text.escape text)) = text := by
  have both {address : Text} (written : Text.Percented (Text.encode (Text.escape text)) address) :
      decode address = text := by
    rw [decode, written.unpercent_eq, Text.unescape_escape]
  refine ⟨Text.unescape_escape text, fun _ written => written.unpercent_eq, fun _ => both,
    Text.percented_percent text, ?_⟩
  exact both (Text.percented_percent (Text.escape text))

/-- Signs that have a meaning in entities and in escapes come back, and so does a character of two
bytes, from digits of either case. -/
theorem Url.decode_inverts_signs :
    Text.unpercent "a%25%3b%26%C3%a9".toList = "a%;&é".toList ∧
      decode "a%25%3B%26amp%3b%c3%A9".toList = "a%;&é".toList := by
  have raw : Text.Percented (Text.encode "a%;&é".toList) "a%25%3b%26%C3%a9".toList :=
    .unreserved (by decide) <| .reserved (by decide) (by decide) (by decide) <|
      .reserved (by decide) (by decide) (by decide) <|
      .reserved (by decide) (by decide) (by decide) <|
      .reserved (by decide) (by decide) (by decide) <|
      .reserved (by decide) (by decide) (by decide) .nil
  have escaped : Text.Percented (Text.encode (Text.escape "a%;&é".toList))
      "a%25%3B%26amp%3b%c3%A9".toList :=
    .unreserved (by decide) <| .reserved (by decide) (by decide) (by decide) <|
      .reserved (by decide) (by decide) (by decide) <|
      .reserved (by decide) (by decide) (by decide) <|
      .unreserved (by decide) <| .unreserved (by decide) <| .unreserved (by decide) <|
      .reserved (by decide) (by decide) (by decide) <|
      .reserved (by decide) (by decide) (by decide) <|
      .reserved (by decide) (by decide) (by decide) .nil
  exact ⟨(decode_inverts "a%;&é".toList).2.1 _ raw, (decode_inverts "a%;&é".toList).2.2.1 _ escaped⟩

end Templates
