import Templates.Proofs.Text.Search
import Templates.Text.Blank
import Templates.Text.Bytes

/-!
Texts under a cursor that counts bytes.

A cursor may stand inside a character. A single byte can be looked at there, but no slice of the
text begins or ends there.
-/

namespace Templates.Text

/-- The two parts of a text at an offset, unless a character lies across it or the text is shorter.
-/
def splitAt? : Nat → Text → Option (Text × Text)
  | n, [] => if n = 0 then some ([], []) else none
  | n, c :: rest =>
    if n = 0 then some ([], c :: rest)
    else if c.utf8Size ≤ n then
      (splitAt? (n - c.utf8Size) rest).map fun (front, back) => (c :: front, back)
    else none

/-- The slice of a text from an offset on. -/
def from? (start : Nat) (text : Text) : Option Text :=
  (splitAt? start text).map Prod.snd

/-- The slice of a text up to an offset. -/
def upTo? (stop : Nat) (text : Text) : Option Text :=
  (splitAt? stop text).map Prod.fst

/-- The slice of a text between two offsets. -/
def between? (start stop : Nat) (text : Text) : Option Text :=
  if start ≤ stop then (from? start text).bind (upTo? (stop - start)) else none

/-- The offset at which a needle occurs first. -/
def find? (needle text : Text) : Option Nat :=
  (cut? needle text).map fun (front, _) => bytes front

/-- A character as its bytes, each taken for the character of its number. -/
def octetsOf (c : Char) : List Char :=
  (String.utf8EncodeChar c).map Char.ofUInt8

/-- A text as its bytes, each taken for the character of its number. -/
def octets (text : Text) : List Char :=
  (encode text).map Char.ofUInt8

/-- The byte under a cursor. -/
def peek (source : Text) (position : Nat) : Option Char :=
  (octets source)[position]?

/-- A cursor moves on while a test holds of the byte under it. -/
def skip (test : Char → Bool) (source : Text) (position : Nat) : Nat :=
  position + (((octets source).drop position).takeWhile test).length

/-! ### Slices -/

section Slices

variable {source text read rest : Text} {position start stop n : Nat}

/-- A text splits behind each of its beginnings. -/
theorem splitAt?_append (front back : Text) :
    splitAt? (bytes front) (front ++ back) = some (front, back) := by
  -- Each character takes its own bytes off the offset.
  induction front with
  | nil => cases back <;> rfl
  | cons c front ih =>
    have filled : c.utf8Size ≠ 0 := Nat.ne_of_gt c.utf8Size_pos
    simp [splitAt?, filled, ih]

/-- The parts of a text make it up, and the first one ends at the offset. -/
theorem eq_of_splitAt? {front back : Text} (split : splitAt? n text = some (front, back)) :
    text = front ++ back ∧ bytes front = n := by
  induction text generalizing n front with
  | nil =>
    simp only [splitAt?] at split
    split at split <;> simp_all
  | cons c text ih =>
    simp only [splitAt?] at split
    split at split
    · simp_all
    · split at split
      · rename_i fits
        obtain ⟨⟨begun, after⟩, parts, same⟩ := Option.map_eq_some_iff.mp split
        obtain ⟨rfl, rfl⟩ := Prod.mk.inj same
        obtain ⟨rfl, size⟩ := ih parts
        refine ⟨rfl, ?_⟩
        rw [bytes_cons, size]
        omega
      · cases split

/-- A slice is what follows a beginning of the text that ends at the offset. -/
theorem from?_eq_some_iff :
    from? start text = some rest ↔ ∃ front, text = front ++ rest ∧ bytes front = start := by
  constructor
  · intro found
    obtain ⟨⟨front, back⟩, split, rfl⟩ := Option.map_eq_some_iff.mp found
    exact ⟨front, eq_of_splitAt? split⟩
  · rintro ⟨front, rfl, rfl⟩
    rw [from?, splitAt?_append]
    rfl

/-- The whole text stands at its start. -/
theorem from?_zero (text : Text) : from? 0 text = some text :=
  from?_eq_some_iff.mpr ⟨[], rfl, rfl⟩

/-- Nothing stands at the end. -/
theorem from?_bytes (text : Text) : from? (bytes text) text = some [] :=
  from?_eq_some_iff.mpr ⟨text, (List.append_nil text).symm, rfl⟩

/-- A slice ends where the text does. -/
theorem bytes_of_from? (here : from? position source = some rest) :
    bytes source = position + bytes rest := by
  obtain ⟨front, rfl, rfl⟩ := from?_eq_some_iff.mp here
  exact bytes_append front rest

/-- A slice of a slice is a slice of the text. -/
theorem from?_add (here : from? position source = some text) (n : Nat) :
    from? (position + n) source = from? n text := by
  obtain ⟨front, rfl, rfl⟩ := from?_eq_some_iff.mp here
  -- Both sides ask for a beginning of the text, one of them with all that stands in front.
  apply Option.ext
  intro rest
  rw [from?_eq_some_iff, from?_eq_some_iff]
  constructor
  · rintro ⟨all, whole, size⟩
    obtain ⟨more, rfl, rfl⟩ | ⟨more, rfl, rfl⟩ := List.append_eq_append_iff.mp whole
    · rw [bytes_append] at size
      exact ⟨more, rfl, by omega⟩
    · -- Nothing of what stands in front is missing.
      rw [bytes_append] at size
      have nothing : more = [] := by
        cases more with
        | nil => rfl
        | cons c more =>
          have := c.utf8Size_pos
          rw [bytes_cons] at size
          omega
      subst nothing
      rw [bytes_nil] at size
      exact ⟨[], rfl, by rw [bytes_nil]; omega⟩
  · rintro ⟨begun, rfl, rfl⟩
    exact ⟨front ++ begun, (List.append_assoc ..).symm, bytes_append front begun⟩

/-- The cursor moves on behind what has been read. -/
theorem from?_forward (here : from? position source = some (read ++ rest)) :
    from? (position + bytes read) source = some rest := by
  rw [from?_add here]
  exact from?_eq_some_iff.mpr ⟨read, rfl, rfl⟩

/-- The cursor moves on behind a character. -/
theorem from?_next {c : Char} (here : from? position source = some (c :: rest)) :
    from? (position + c.utf8Size) source = some rest := by
  have moved : from? (position + bytes [c]) source = some rest := from?_forward here
  simpa using moved

/-- The cursor moves on behind a character of one byte. -/
theorem from?_succ {c : Char} (narrow : c.utf8Size = 1)
    (here : from? position source = some (c :: rest)) :
    from? (position + 1) source = some rest := by
  rw [← narrow]
  exact from?_next here

/-- No slice begins inside a character. -/
theorem from?_inside {c : Char} (here : from? position source = some (c :: rest)) (begun : 0 < n)
    (few : n < c.utf8Size) : from? (position + n) source = none := by
  -- The character neither begins behind the offset nor ends in front of it.
  rw [from?_add here, from?, splitAt?, if_neg (by omega), if_neg (by omega)]
  rfl

/-- A beginning of a text is the slice up to its end. -/
theorem upTo?_append (front back : Text) : upTo? (bytes front) (front ++ back) = some front := by
  rw [upTo?, splitAt?_append]
  rfl

/-- What stands between two offsets is a slice. -/
theorem between?_of_from? (begin : from? start source = some (read ++ rest))
    (finish : from? stop source = some rest) : between? start stop source = some read := by
  -- The second offset is as far behind the first as the slice is long.
  have first := bytes_of_from? begin
  have second := bytes_of_from? finish
  rw [bytes_append] at first
  have distance : stop - start = bytes read := by omega
  rw [between?, if_pos (by omega), begin, Option.bind_some, distance, upTo?_append]

/-- What is read between two offsets stands at the first one, in front of what stands at the second
one. -/
theorem exists_of_between? (cut : between? start stop source = some read) :
    ∃ rest, from? start source = some (read ++ rest) ∧ from? stop source = some rest := by
  rw [between?] at cut
  split at cut
  · rename_i ordered
    obtain ⟨whole, here, first⟩ := Option.bind_eq_some_iff.mp cut
    obtain ⟨⟨front, rest⟩, split, rfl⟩ := Option.map_eq_some_iff.mp first
    obtain ⟨rfl, size⟩ := eq_of_splitAt? split
    have moved := from?_forward here
    rw [size, Nat.add_sub_cancel' ordered] at moved
    exact ⟨rest, here, moved⟩
  · cases cut

/-- Between two offsets of which no one is inside of a character a slice can be taken. -/
theorem exists_between? (ordered : start ≤ stop) (begin : from? start source = some text)
    (finish : from? stop source = some rest) : ∃ read, between? start stop source = some read := by
  have moved := from?_add begin (stop - start)
  rw [Nat.add_sub_cancel' ordered, finish] at moved
  obtain ⟨read, rfl, -⟩ := from?_eq_some_iff.mp moved.symm
  exact ⟨read, between?_of_from? begin finish⟩

/-- A needle that is found begins there, and what stands in front of it is the first part. -/
theorem find?_of_cut? {needle front back : Text} (cut : cut? needle text = some (front, back)) :
    find? needle text = some (bytes front) := by
  rw [find?, cut]
  rfl

/-- A needle that is not there is not found. -/
theorem find?_eq_none {needle : Text} (missing : cut? needle text = none) :
    find? needle text = none := by
  rw [find?, missing]
  rfl

end Slices

/-! ### Bytes -/

/-- The bytes of the first character come first. -/
theorem octets_cons (c : Char) (rest : Text) : octets (c :: rest) = octetsOf c ++ octets rest := by
  simp [octets, octetsOf, encode]

/-- The bytes of a text that is put together. -/
theorem octets_append (front back : Text) :
    octets (front ++ back) = octets front ++ octets back := by
  simp [octets, encode]

/-- A character has as many bytes as its size says. -/
@[simp] theorem length_octetsOf (c : Char) : (octetsOf c).length = c.utf8Size := by
  rw [octetsOf, List.length_map, String.length_utf8EncodeChar]

/-- There are as many bytes as the measure of a text counts. -/
@[simp] theorem length_octets (text : Text) : (octets text).length = bytes text := by
  rw [octets, List.length_map, length_encode]

/-- No text has more characters than bytes. -/
theorem length_le_bytes (text : Text) : text.length ≤ bytes text := by
  induction text with
  | nil => exact Nat.le_refl 0
  | cons c text ih =>
    have := c.utf8Size_pos
    rw [List.length_cons, bytes_cons]
    omega

/-- A character of one byte is that byte. -/
theorem octetsOf_narrow {c : Char} (narrow : c.utf8Size = 1) : octetsOf c = [c] := by
  have small : c.val.toNat ≤ 127 := UInt32.le_iff_toNat_le.mp (Char.utf8Size_eq_one_iff.mp narrow)
  have byte : c.val.toUInt8.toNat = c.val.toNat := by
    rw [UInt32.toNat_toUInt8]
    exact Nat.mod_eq_of_lt (by omega)
  have number : Char.ofUInt8 c.val.toUInt8 = c := by
    apply Char.ext
    apply UInt32.toNat_inj.mp
    exact (UInt8.toNat_toUInt32 _).trans byte
  rw [octetsOf, String.utf8EncodeChar_eq_singleton narrow, List.map_cons, number, List.map_nil]

/-- No byte of a character of several bytes is a character of one byte. -/
theorem wide_of_mem_octetsOf {c d : Char} (wide : c.utf8Size ≠ 1) (member : d ∈ octetsOf c) :
    d.utf8Size ≠ 1 := by
  obtain ⟨byte, listed, rfl⟩ := List.mem_map.mp member
  rw [Ne, Char.utf8Size_eq_one_iff, UInt32.le_iff_toNat_le] at wide ⊢
  -- The encoding sets the highest bit of each of its bytes.
  have large : 128 ≤ byte.toNat := by
    grind [UInt8.toNat_ofNat', String.utf8EncodeChar]
  have number : (Char.ofUInt8 byte).val.toNat = byte.toNat := UInt8.toNat_toUInt32 byte
  have bound : (127 : UInt32).toNat = 127 := rfl
  omega

/-- A character has a first byte, and as many others as its size says. -/
theorem octetsOf_eq_cons (c : Char) :
    ∃ first more, octetsOf c = first :: more ∧ more.length + 1 = c.utf8Size := by
  have size := length_octetsOf c
  cases listed : octetsOf c with
  | nil =>
    rw [listed] at size
    exact absurd size.symm (Nat.ne_of_gt c.utf8Size_pos)
  | cons first more => exact ⟨first, more, rfl, by rw [← size, listed, List.length_cons]⟩

/-! ### Tests that can be made on bytes -/

/-- All characters of several bytes are treated alike by a test. -/
def Bytewise (test : Char → Bool) : Prop :=
  ∀ c d, c.utf8Size ≠ 1 → d.utf8Size ≠ 1 → test c = test d

namespace Bytewise

variable {test : Char → Bool}

/-- A test that only characters of one byte pass. -/
theorem of_narrow (narrow : ∀ c, test c = true → c.utf8Size = 1) : Bytewise test := by
  intro c d wide other
  rw [Bool.eq_false_iff.mpr (mt (narrow c) wide), Bool.eq_false_iff.mpr (mt (narrow d) other)]

/-- The opposite of a test. -/
theorem not (bytewise : Bytewise test) : Bytewise (!test ·) := fun c d wide other =>
  congrArg (! ·) (bytewise c d wide other)

/-- The comparison with a character of one byte. -/
theorem ne {mark : Char} (narrow : mark.utf8Size = 1) : Bytewise (· ≠ mark) := by
  intro c d wide other
  have first : c ≠ mark := fun same => wide (same ▸ narrow)
  have second : d ≠ mark := fun same => other (same ▸ narrow)
  simp [first, second]

/-- Each byte of a character passes a test if the character does. -/
theorem octetsOf (bytewise : Bytewise test) {c d : Char} (member : d ∈ octetsOf c) :
    test d = test c := by
  by_cases narrow : c.utf8Size = 1
  · rw [octetsOf_narrow narrow, List.mem_singleton] at member
    rw [member]
  · exact bytewise d c (wide_of_mem_octetsOf narrow member) narrow

/-- The bytes that pass a test at the front are those of the characters that do. -/
theorem takeWhile (bytewise : Bytewise test) (text : Text) :
    (octets text).takeWhile test = octets (text.takeWhile test) := by
  induction text with
  | nil => rfl
  | cons c text ih =>
    rw [octets_cons, List.takeWhile_cons]
    by_cases passes : test c = true
    · have all : ∀ d ∈ Text.octetsOf c, test d = true := fun d member =>
        (bytewise.octetsOf member).trans passes
      rw [if_pos passes, octets_cons, List.takeWhile_append_of_pos all, ih]
    · -- The first byte already fails.
      obtain ⟨first, more, bytes, -⟩ := octetsOf_eq_cons c
      have fails : ¬test first = true := by
        rwa [bytewise.octetsOf (bytes ▸ List.mem_cons_self)]
      rw [if_neg passes, bytes, List.cons_append, List.takeWhile_cons, if_neg fails]
      rfl

end Bytewise

/-- Blanks of markup are told from other characters by bytes. -/
theorem bytewise_isMarkupBlank : Bytewise isMarkupBlank :=
  .of_narrow fun _ => narrow_of_isMarkupBlank

/-! ### The cursor -/

section Cursor

variable {source text rest : Text} {position : Nat} {test : Char → Bool} {c mark : Char}

/-- The bytes from a cursor on are those of the slice that begins there. -/
theorem drop_octets (here : from? position source = some text) :
    (octets source).drop position = octets text := by
  obtain ⟨front, rfl, rfl⟩ := from?_eq_some_iff.mp here
  rw [octets_append, ← length_octets, List.drop_left]

/-- The byte under a cursor is the first one of the slice that begins there. -/
theorem peek_eq_head? (here : from? position source = some text) :
    peek source position = (octets text).head? := by
  rw [peek, ← drop_octets here, List.head?_drop]

/-- Nothing is under a cursor only at the end. -/
theorem peek_eq_none_iff (here : from? position source = some text) :
    peek source position = none ↔ text = [] := by
  rw [peek_eq_head? here, List.head?_eq_none_iff, ← List.length_eq_zero_iff, length_octets]
  cases text with
  | nil => simp
  | cons c text => simp [Nat.ne_of_gt c.utf8Size_pos]

/-- At a character, some byte is under a cursor. -/
theorem peek_ne_none (here : from? position source = some (c :: rest)) :
    peek source position ≠ none :=
  mt (peek_eq_none_iff here).mp (List.cons_ne_nil c rest)

/-- A test of the byte under a cursor is one of the character. -/
theorem any_peek (bytewise : Bytewise test) (here : from? position source = some text) :
    (peek source position).any test = text.head?.any test := by
  rw [peek_eq_head? here]
  cases text with
  | nil => rfl
  | cons c text =>
    rw [octets_cons]
    obtain ⟨first, more, bytes, -⟩ := octetsOf_eq_cons c
    rw [bytes]
    exact bytewise.octetsOf (bytes ▸ List.mem_cons_self)

/-- A test of the byte under a cursor, if there is one, is one of the character. -/
theorem all_peek (bytewise : Bytewise test) (here : from? position source = some text) :
    (peek source position).all test = text.head?.all test := by
  have asAny (seen : Option Char) : seen.all test = !seen.any (!test ·) := by
    cases seen <;> simp
  rw [asAny, asAny, any_peek bytewise.not here]

/-- A test of the last byte of a character is one of the character. -/
theorem any_peek_last (bytewise : Bytewise test) (here : from? position source = some (c :: rest)) :
    (peek source (position + c.utf8Size - 1)).any test = test c := by
  obtain ⟨first, more, bytes, size⟩ := octetsOf_eq_cons c
  have last : (octetsOf c)[c.utf8Size - 1]? = some ((octetsOf c).getLast (by simp [bytes])) := by
    rw [← length_octetsOf, List.getLast_eq_getElem, List.getElem?_eq_getElem]
  have behind : peek source (position + c.utf8Size - 1) = (octetsOf c)[c.utf8Size - 1]? := by
    have filled := c.utf8Size_pos
    have place : position + c.utf8Size - 1 = position + (c.utf8Size - 1) := by omega
    rw [peek, place, ← List.getElem?_drop, drop_octets here, octets_cons,
      List.getElem?_append_left (by rw [length_octetsOf]; omega)]
  rw [behind, last]
  exact bytewise.octetsOf (List.getLast_mem _)

/-- A character of one byte is under a cursor if it is the first one of the slice. -/
theorem peek_eq_some_iff (narrow : mark.utf8Size = 1) (here : from? position source = some text) :
    peek source position = some mark ↔ text.head? = some mark := by
  -- To be this character is a test that can be made on bytes.
  have asTest (seen : Option Char) :
      seen = some mark ↔ (seen.any fun c => !decide (c ≠ mark)) = true := by
    cases seen <;> simp
  rw [asTest, asTest, any_peek (Bytewise.ne narrow).not here]

/-- At a character, the byte under a cursor tells whether it is a given one of one byte. -/
theorem peek_cons_iff (narrow : mark.utf8Size = 1)
    (here : from? position source = some (c :: rest)) :
    peek source position = some mark ↔ c = mark := by
  rw [peek_eq_some_iff narrow here, List.head?_cons, Option.some.injEq]

/-- A cursor moves on while the characters pass a test. -/
theorem from?_skip (bytewise : Bytewise test) (here : from? position source = some text) :
    from? (skip test source position) source = some (text.dropWhile test) := by
  rw [skip, drop_octets here, bytewise.takeWhile, length_octets]
  have split : text.takeWhile test ++ text.dropWhile test = text := List.takeWhile_append_dropWhile
  exact from?_forward (by rw [split, here])

/-- A cursor that begins behind the first byte of a character does the same with what follows it. -/
theorem from?_skip_inside (bytewise : Bytewise test)
    (passes : c.utf8Size ≠ 1 → test c = true) (here : from? position source = some (c :: rest)) :
    from? (skip test source (position + 1)) source = some (rest.dropWhile test) := by
  by_cases narrow : c.utf8Size = 1
  · exact from?_skip bytewise (from?_succ narrow here)
  · -- The other bytes of the character pass the test, and the cursor comes to its end.
    obtain ⟨first, more, bytes, size⟩ := octetsOf_eq_cons c
    have others : ∀ d ∈ more, test d = true := fun d member =>
      (bytewise.octetsOf (bytes ▸ List.mem_cons_of_mem _ member)).trans (passes narrow)
    have ahead : (octets source).drop (position + 1) = more ++ octets rest := by
      rw [← List.drop_drop, drop_octets here, octets_cons, bytes]
      rfl
    rw [skip, ahead, List.takeWhile_append_of_pos others, bytewise.takeWhile, List.length_append,
      length_octets]
    have split : rest.takeWhile test ++ rest.dropWhile test = rest :=
      List.takeWhile_append_dropWhile
    have moved := from?_next here
    rw [← split] at moved
    have place : position + 1 + (more.length + Text.bytes (rest.takeWhile test)) =
        position + c.utf8Size + Text.bytes (rest.takeWhile test) := by omega
    rw [place]
    exact from?_forward moved

end Cursor

end Templates.Text
