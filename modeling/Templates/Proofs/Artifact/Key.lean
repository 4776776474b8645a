import Templates.Artifact.Key

/-! The characters of keys, none of which means anything in a path. -/

namespace Templates

namespace Base64

/-- Characters that bytes are written in. -/
def IsDigit (c : Char) : Prop :=
  c.isAlphanum ∨ c = '-' ∨ c = '_'

/-- Every digit is among these characters. -/
theorem isDigit_digit (n : Nat) : IsDigit (digit n) := by
  -- Numbers that are too large are written like the last one.
  by_cases small : n < 64
  · have all : ∀ n < 64, (digit n).isAlphanum ∨ digit n = '-' ∨ digit n = '_' := by decide
    exact all n small
  · right
    right
    unfold digit
    rw [if_neg (by omega), if_neg (by omega), if_neg (by omega), if_neg (by omega)]

/-- Bytes are written in these characters only. -/
theorem isDigit_of_mem_encode {bytes : List UInt8} {c : Char} (listed : c ∈ encode bytes) :
    IsDigit c := by
  -- All characters that a step of the encoding adds are digits.
  fun_induction encode bytes with
  | case1 a b c rest n ih =>
    simp only [List.mem_cons] at listed
    obtain rfl | rfl | rfl | rfl | listed := listed
    · exact isDigit_digit _
    · exact isDigit_digit _
    · exact isDigit_digit _
    · exact isDigit_digit _
    · exact ih listed
  | case2 a b n =>
    simp only [List.mem_cons, List.not_mem_nil, or_false] at listed
    obtain rfl | rfl | rfl := listed
    · exact isDigit_digit _
    · exact isDigit_digit _
    · exact isDigit_digit _
  | case3 a n =>
    simp only [List.mem_cons, List.not_mem_nil, or_false] at listed
    obtain rfl | rfl := listed
    · exact isDigit_digit _
    · exact isDigit_digit _
  | case4 => cases listed

end Base64

namespace ArtifactKey

/-- A key is a single name, wherever it stands in a path. -/
structure IsPlain (key : ArtifactKey) : Prop where
  noSlash : '/' ∉ key
  noEnd : '\x00' ∉ key

/-- The key of an identity is written in the characters for bytes. -/
theorem isDigit_of_mem_derive {identity : Text} {c : Char} (listed : c ∈ derive identity) :
    Base64.IsDigit c :=
  Base64.isDigit_of_mem_encode (List.mem_of_mem_drop listed)

/-- The key of an identity is a single name. -/
theorem isPlain_derive (identity : Text) : IsPlain (derive identity) where
  noSlash listed := absurd (isDigit_of_mem_derive listed) (by unfold Base64.IsDigit; decide)
  noEnd listed := absurd (isDigit_of_mem_derive listed) (by unfold Base64.IsDigit; decide)

/-- The file of a plain key is a single name. -/
theorem IsPlain.fileName {key : ArtifactKey} (plain : IsPlain key) :
    IsPlain (fileName key) where
  noSlash listed := (List.mem_append.mp listed).elim plain.noSlash (by decide)
  noEnd listed := (List.mem_append.mp listed).elim plain.noEnd (by decide)

/-- Different keys have different files. -/
theorem fileName_inj {key other : ArtifactKey} : fileName key = fileName other ↔ key = other :=
  List.append_left_inj _

/-- The name of a file has more than three characters, so that it is no dot, or two. -/
theorem three_lt_length_fileName (key : ArtifactKey) : 3 < (fileName key).length := by
  have parts : (fileName key).length = key.length + 4 := List.length_append
  omega

end ArtifactKey

end Templates
