import Templates.Proofs.Component.Address
import Templates.Proofs.Component.Encoded

/-!
Addresses that are escaped after they have been written in percent signs.

Percent signs are resolved first, so that what looks like an entity behind them is resolved as well.
Main statement: such an address is decoded to its text without the entities that this one holds,
which is the text itself exactly if there are none.
-/

namespace Templates

namespace Text

/-- An entity stands somewhere in a text. -/
def HasEntity (text : Text) : Prop :=
  ∃ front name back c, text = front ++ ('&' :: name ++ ';' :: back) ∧ ';' ∉ name ∧
    entity? name = some c

/-- The rule for entities passes over a text exactly if it holds none. -/
theorem passes_entityRule_iff {text : Text} : Passes entityRule text [] ↔ ¬ HasEntity text := by
  rw [passes_iff]
  constructor
  · rintro missing ⟨front, name, back, c, rfl, closed, named⟩
    -- The rule would apply where the entity begins.
    have here := missing ('&' :: name ++ ';' :: back) (List.suffix_append _ _) (by simp)
    rw [entityRule_named closed named] at here
    cases here
  · rintro absent back ⟨front, rfl⟩ _
    cases found : entityRule back with
    | none => rfl
    | some hit =>
      obtain ⟨name, rfl, closed, named⟩ := eq_of_entityRule found
      refine absurd ⟨front, name, hit.2, hit.1, ?_, closed, named⟩ absent
      simp

/-- The rule for entities takes something off the front of a text. -/
theorem consumes_entityRule : Consumes entityRule := by
  intro text c rest found
  obtain ⟨name, whole, _⟩ := eq_of_entityRule found
  exact ⟨'&' :: name ++ [';'], by simp, whole⟩

/-- A text is the same with its entities resolved exactly if it holds none. -/
theorem unescape_eq_self_iff {text : Text} : unescape text = text ↔ ¬ HasEntity text := by
  rw [← passes_entityRule_iff]
  constructor
  · intro same
    obtain passes | ⟨front, mark, c, rest, rfl, filled, passes, found⟩ :=
      consumes_entityRule.passes_or_hit text
    · exact passes
    -- The first entity gives way to a character of fewer bytes, and nothing behind it grows.
    have resolved : unescape (front ++ (mark ++ rest)) = front ++ (c :: unescape rest) := by
      have hit : unescape (mark ++ rest) = c :: unescape rest := replaceHits_scan_hit filled found
      rw [← hit]
      exact passes.replaceHits
    rw [resolved, List.append_cancel_left_eq] at same
    obtain ⟨name, whole, _, named⟩ := eq_of_entityRule found
    have count := congrArg bytes same
    rw [List.append_cancel_right_eq] at whole
    have fewer := utf8Size_lt_of_entity? named
    have others : bytes (unescape rest) ≤ bytes rest :=
      (unescape_eq_or_lt rest).elim (fun kept => Nat.le_of_eq (congrArg bytes kept)) Nat.le_of_lt
    have ampersand : ('&' : Char).utf8Size = 1 := by decide
    have semicolon : (';' : Char).utf8Size = 1 := by decide
    simp only [whole, bytes_cons, bytes_append, bytes_nil, ampersand, semicolon] at count
    omega
  · intro passes
    have kept : replaceHits (fun c => [c]) (scan entityRule (text ++ [])) = text ++ [] :=
      passes.replaceHits
    rwa [List.append_nil] at kept

/-- The characters that are written as entities. -/
def specials : Text :=
  ['&', '<', '>', '"', '\'']

/-- Any other character is written as it is. -/
theorem escapeChar_of_notMem {c : Char} (plain : c ∉ specials) : escapeChar c = [c] := by
  simp only [specials, List.mem_cons, List.not_mem_nil, or_false, not_or] at plain
  obtain ⟨ampersand, opening, closing, double, single⟩ := plain
  simp [escapeChar, ampersand, opening, closing, double, single]

/-- An address in percent signs holds nothing that is written as an entity. -/
theorem Percented.escape_eq {bytes : List UInt8} {address : Text}
    (written : Percented bytes address) : escape address = address := by
  have reserved : ∀ c ∈ specials, isUnreserved c = false := by
    simpa using (by decide : specials.all (!isUnreserved ·))
  have noDigit : ∀ c ∈ specials, digit? c = none := by
    simpa using (by decide : specials.all (digit? · |>.isNone))
  -- A character is told from the special ones by what it is read as.
  have digit {c : Char} {n : Nat} (read : digit? c = some n) : escapeChar c = [c] := by
    apply escapeChar_of_notMem
    intro special
    rw [noDigit c special] at read
    cases read
  induction written with
  | nil => rfl
  | @unreserved byte _ _ plain _ ih =>
    have kept : escapeChar (Char.ofUInt8 byte) = [Char.ofUInt8 byte] := by
      apply escapeChar_of_notMem
      intro special
      rw [reserved _ special] at plain
      cases plain
    rw [escape, List.flatMap_cons, kept, List.singleton_append]
    exact congrArg _ ih
  | reserved _ first second _ ih =>
    have sign : escapeChar '%' = ['%'] := by decide
    rw [escape, List.flatMap_cons, List.flatMap_cons, List.flatMap_cons, sign, digit first,
      digit second]
    exact congrArg (fun rest => '%' :: _ :: _ :: rest) ih

end Text

/-- An address that is written in percent signs, in digits of any case, and then escaped is decoded
to its text with the entities of this one resolved. The text comes back exactly if it holds no
entity; escaping adds none, since percent signs leave nothing to escape. -/
theorem Url.decode_escape_percent (text : Text) :
    (∀ address, Text.Percented (Text.encode text) address →
      Text.escape address = address ∧ decode (Text.escape address) = Text.unescape text ∧
        (decode (Text.escape address) = text ↔ ¬ Text.HasEntity text)) ∧
      decode (Text.escape (Text.percent text)) = Text.unescape text ∧
      (decode (Text.escape (Text.percent text)) = text ↔ ¬ Text.HasEntity text) := by
  have each (address : Text) (written : Text.Percented (Text.encode text) address) :
      Text.escape address = address ∧ decode (Text.escape address) = Text.unescape text ∧
        (decode (Text.escape address) = text ↔ ¬ Text.HasEntity text) := by
    have resolved : decode (Text.escape address) = Text.unescape text := by
      rw [written.escape_eq, decode, written.unpercent_eq]
    refine ⟨written.escape_eq, resolved, ?_⟩
    rw [resolved]
    exact Text.unescape_eq_self_iff
  obtain ⟨_, both⟩ := each (Text.percent text) (Text.percented_percent text)
  exact ⟨each, both⟩

/-- An entity that is written in percent signs, in digits of either case, is resolved, and an
ampersand that begins none comes back. -/
theorem Url.decode_escape_percent_signs :
    Text.Percented (Text.encode "a&lt;é".toList) "a%26lt%3b%C3%a9".toList ∧
      decode (Text.escape "a%26lt%3b%C3%a9".toList) = "a<é".toList ∧
      ¬ Text.HasEntity "a&é;".toList ∧
      decode (Text.escape (Text.percent "a&é;".toList)) = "a&é;".toList := by
  have written : Text.Percented (Text.encode "a&lt;é".toList) "a%26lt%3b%C3%a9".toList :=
    .unreserved (by decide) <| .reserved (by decide) (by decide) (by decide) <|
      .unreserved (by decide) <| .unreserved (by decide) <|
      .reserved (by decide) (by decide) (by decide) <|
      .reserved (by decide) (by decide) (by decide) <|
      .reserved (by decide) (by decide) (by decide) .nil
  have resolved := ((decode_escape_percent "a&lt;é".toList).1 _ written).2.1
  have plain : ¬ Text.HasEntity "a&é;".toList := Text.unescape_eq_self_iff.mp (by decide +kernel)
  refine ⟨written, ?_, plain, (decode_escape_percent "a&é;".toList).2.2.mpr plain⟩
  rw [resolved]
  decide +kernel

/-- What looks like an entity behind percent signs is not left alone. -/
theorem Url.decode_resolves_entity :
    Text.escape (Text.percent "&amp;".toList) = "%26amp%3B".toList ∧
      decode "%26amp%3B".toList = "&".toList ∧
      decode (Text.escape (Text.percent "&amp;".toList)) ≠ "&amp;".toList := by
  decide +kernel

end Templates
