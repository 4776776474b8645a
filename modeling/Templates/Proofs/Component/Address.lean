import Mathlib.Logic.Function.Iterate
import Templates.Component.Url
import Templates.Proofs.Text.Scan
import Templates.Proofs.Text.Search

/-!
Addresses that are decoded are shorter than before, or the same.

So an address that changes when it is decoded again never comes back.
-/

namespace Templates

namespace Text

/-- A text that bytes encode is encoded as these bytes. -/
theorem encode_of_decode? {bytes : List UInt8} {text : Text} (decoded : decode? bytes = some text) :
    encode text = bytes := by
  obtain ⟨chars, read, rfl⟩ := Option.map_eq_some_iff.mp decoded
  -- The decoder gives what the encoder makes these bytes of.
  have valid : bytes.toByteArray.utf8Decode?.isSome = true := by rw [read]; rfl
  have back := @ByteArray.utf8Encode_get_utf8Decode? _ valid
  rw [Option.get_of_eq_some valid read] at back
  have same : (encode chars.toList).toByteArray = bytes.toByteArray := back
  simpa using congrArg (fun array => array.data.toList) same

/-- Percent signs are resolved to no more bytes than there were. -/
theorem length_percentBytes_le (skip : Nat) (text : Text) :
    (percentBytes skip text).length ≤ bytes text := by
  -- Each character is passed over or resolved to at most the bytes that encode it.
  induction text generalizing skip with
  | nil => cases skip <;> simp [percentBytes]
  | cons c rest ih =>
    have own := c.utf8Size_pos
    cases skip with
    | succ skip =>
      have others := ih skip
      rw [percentBytes, bytes_cons]
      omega
    | zero =>
      have plain := ih 0
      have behind := ih 2
      rw [percentBytes, bytes_cons]
      split
      · split
        · rw [List.length_cons]
          omega
        · rw [List.length_append, String.length_utf8EncodeChar]
          omega
      · rw [List.length_append, String.length_utf8EncodeChar]
        omega

/-- Without a percent sign and digits a text is the bytes that encode it, and else there are fewer
bytes. -/
theorem percentBytes_eq_or_lt (text : Text) :
    percentBytes 0 text = encode text ∨ (percentBytes 0 text).length < bytes text := by
  induction text with
  | nil => exact .inl rfl
  | cons c rest ih =>
    have kept : encode (c :: rest) = String.utf8EncodeChar c ++ encode rest := rfl
    -- A character that stands for itself leaves it to the others.
    have plain : String.utf8EncodeChar c ++ percentBytes 0 rest = encode (c :: rest) ∨
        (String.utf8EncodeChar c ++ percentBytes 0 rest).length < bytes (c :: rest) := by
      rw [kept, List.length_append, bytes_cons, String.length_utf8EncodeChar]
      exact ih.imp (congrArg _) fun fewer => by omega
    rw [percentBytes]
    split
    · split
      · next byte after found =>
        -- Two digits go with the percent sign.
        obtain ⟨high, low, tail, rfl⟩ : ∃ high low tail, rest = high :: low :: tail := by
          match rest, found with
          | high :: low :: tail, _ => exact ⟨high, low, tail, rfl⟩
        have others := length_percentBytes_le 0 tail
        have own := c.utf8Size_pos
        have first := high.utf8Size_pos
        refine .inr ?_
        rw [percentBytes, percentBytes, List.length_cons]
        simp only [bytes_cons]
        omega
      · exact plain
    · exact plain

/-- A text with its percent signs resolved is the same or has fewer bytes. -/
theorem unpercent_eq_or_lt (text : Text) :
    unpercent text = text ∨ bytes (unpercent text) < bytes text := by
  unfold unpercent
  cases decoded : decode? (percentBytes 0 text) with
  | none => exact .inl rfl
  | some resolved =>
    have encoded := encode_of_decode? decoded
    obtain same | fewer := percentBytes_eq_or_lt text
    · -- The bytes that encode the text are read as the text.
      rw [same, decode?_encode] at decoded
      exact .inl (Option.some.inj decoded).symm
    · refine .inr ?_
      rw [Option.getD_some, ← length_encode, encoded]
      exact fewer

/-- A number below that of the last character of one byte is that of a character of one byte. -/
theorem utf8Size_of_character? {n : Nat} {c : Char} (small : n < 128)
    (found : character? n = some c) : c.utf8Size = 1 := by
  by_cases valid : n.isValidChar
  · rw [character?, dif_pos valid] at found
    obtain rfl := Option.some.inj found
    have number : (Char.ofNatAux n valid).val.toNat = n := rfl
    rw [Char.utf8Size_eq_one_iff, UInt32.le_iff_toNat_le, number]
    exact Nat.le_of_lt_succ small
  · rw [character?, dif_neg valid] at found
    cases found

/-- A single decimal digit is a number below ten. -/
theorem lt_of_natural? {digit : Char} {n : Nat} (read : natural? 10 [digit] = some n) : n < 10 := by
  have digits : continued? 10 0 [digit] = some n := by
    unfold natural? at read
    split at read
    · contradiction
    · contradiction
    · next plus =>
      obtain ⟨-, rfl⟩ := List.cons.inj plus
      contradiction
    · exact read
  unfold continued? at digits
  split at digits
  · next d _ =>
    split at digits
    · have same : 0 * 10 + d = n := Option.some.inj digits
      omega
    · cases digits
  · cases digits

/-- What an entity stands for is encoded in fewer bytes than the entity. -/
theorem utf8Size_lt_of_entity? {name : Text} {c : Char} (found : entity? name = some c) :
    c.utf8Size < bytes name + 2 := by
  have most := c.utf8Size_le_four
  -- Behind the mark for a base at least one digit stands.
  have based {mark : Char} {digits : Text} (read : (natural? 16 digits).bind character? = some c) :
      c.utf8Size < bytes ('#' :: mark :: digits) + 2 := by
    cases digits with
    | nil => cases read
    | cons digit digits =>
      have own := digit.utf8Size_pos
      have marked := mark.utf8Size_pos
      have sign : ('#' : Char).utf8Size = 1 := by decide
      simp only [bytes_cons, sign]
      omega
  -- Without such a mark, one digit is small, and more of them have enough bytes.
  have numbered {digits : Text} (read : (natural? 10 digits).bind character? = some c) :
      c.utf8Size < bytes ('#' :: digits) + 2 := by
    match digits, read with
    | [], read => cases read
    | [digit], read =>
      obtain ⟨n, number, stands⟩ := Option.bind_eq_some_iff.mp read
      have small := lt_of_natural? number
      rw [utf8Size_of_character? (by omega) stands]
      omega
    | first :: second :: digits, _ =>
      have own := first.utf8Size_pos
      have behind := second.utf8Size_pos
      have sign : ('#' : Char).utf8Size = 1 := by decide
      simp only [bytes_cons, sign]
      omega
  -- A name stands for a character of one byte.
  have plain {d : Char} (stands : some d = some c) (narrow : d.utf8Size = 1) :
      c.utf8Size < bytes name + 2 := by
    obtain rfl := Option.some.inj stands
    omega
  unfold entity? at found
  split at found
  · exact plain found (by decide)
  split at found
  · exact plain found (by decide)
  split at found
  · exact plain found (by decide)
  split at found
  · exact plain found (by decide)
  split at found
  · exact plain found (by decide)
  split at found
  · exact based found
  · exact based found
  · exact numbered found
  · cases found

/-- An entity is read off the front of a text with the ampersand and the first semicolon. -/
theorem eq_of_entityRule {text after : Text} {c : Char} (found : entityRule text = some (c, after)) :
    ∃ name, text = ('&' :: name ++ [';']) ++ after ∧ ';' ∉ name ∧ entity? name = some c := by
  unfold entityRule at found
  split at found
  · next rest =>
    split at found
    · next name behind cut =>
      obtain ⟨stood, named, same⟩ := Option.map_eq_some_iff.mp found
      obtain ⟨rfl, rfl⟩ := Prod.mk.inj same
      refine ⟨name, ?_, fun listed => ?_, named⟩
      · rw [eq_of_cut? cut]
        simp
      · -- The text is cut at its first semicolon.
        obtain ⟨front, back, rfl⟩ := List.append_of_mem listed
        have inside : contains ";" (front ++ ';' :: back) = true :=
          contains_iff.mpr ⟨front, back, by simp⟩
        rw [contains_of_cut? (by decide) cut] at inside
        cases inside
    · cases found
  · cases found

/-- A text with its entities resolved is the same or has fewer bytes. -/
theorem unescape_eq_or_lt (text : Text) :
    unescape text = text ∨ bytes (unescape text) < bytes text := by
  -- The entity at the front has fewer bytes already, so that no others need to be there.
  match text with
  | [] => exact .inl rfl
  | c :: rest =>
    cases found : entityRule (c :: rest) with
    | none =>
      have kept : unescape (c :: rest) = c :: unescape rest := by
        unfold unescape
        have passes : Passes entityRule [c] rest := ⟨found, trivial⟩
        exact passes.replaceHits
      rw [kept, bytes_cons, bytes_cons]
      exact (unescape_eq_or_lt rest).imp (congrArg _) fun fewer => by omega
    | some hit =>
      obtain ⟨stood, after⟩ := hit
      obtain ⟨name, whole, _, named⟩ := eq_of_entityRule found
      have resolved : unescape (c :: rest) = stood :: unescape after := by
        rw [whole] at found ⊢
        exact replaceHits_scan_hit (by simp) found
      have own := utf8Size_lt_of_entity? named
      have count := congrArg bytes whole
      have shorter : after.length < rest.length + 1 := by
        have lengths := congrArg List.length whole
        simp only [List.length_cons, List.length_append] at lengths
        omega
      have others : bytes (unescape after) ≤ bytes after :=
        (unescape_eq_or_lt after).elim (fun same => Nat.le_of_eq (congrArg bytes same))
          Nat.le_of_lt
      refine .inr ?_
      rw [resolved, count, bytes_cons, bytes_append, List.cons_append, bytes_cons, bytes_append]
      have mark : bytes [';'] = 1 := by decide
      have ampersand : ('&' : Char).utf8Size = 1 := by decide
      omega
termination_by text.length

end Text

namespace Url

/-- An address that is decoded is the same or has fewer bytes. -/
theorem decode_eq_or_lt (address : Text) :
    decode address = address ∨ Text.bytes (decode address) < Text.bytes address := by
  -- Both steps keep the text or make it shorter.
  obtain same | fewer := Text.unpercent_eq_or_lt address
  · rw [decode, same]
    exact Text.unescape_eq_or_lt address
  · refine .inr ?_
    obtain kept | less := Text.unescape_eq_or_lt (Text.unpercent address)
    · rwa [decode, kept]
    · exact Nat.lt_trans less fewer

/-- However often an address is decoded, it has no more bytes than before. -/
theorem bytes_iterate_decode_le (count : Nat) (address : Text) :
    Text.bytes (decode^[count] address) ≤ Text.bytes address := by
  induction count generalizing address with
  | zero => exact Nat.le_refl _
  | succ count ih =>
    have others := ih (decode address)
    rw [Function.iterate_succ_apply]
    obtain same | fewer := decode_eq_or_lt address
    · rwa [same] at others ⊢
    · omega

/-- An address that is decoded more than once is the same as after the first time exactly if it is
after the second time. -/
theorem iterate_decode_eq_iff (count : Nat) (address : Text) :
    decode^[count + 2] address = decode address ↔ decode (decode address) = decode address := by
  rw [Function.iterate_succ_apply]
  constructor
  · intro same
    obtain settled | fewer := decode_eq_or_lt (decode address)
    · exact settled
    · -- What has become shorter stays shorter.
      have others := bytes_iterate_decode_le count (decode (decode address))
      rw [← Function.iterate_succ_apply, same] at others
      omega
  · exact fun settled => Function.iterate_fixed settled (count + 1)

end Url

end Templates
