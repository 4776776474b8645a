import Templates.Proofs.Artifact.Shelf
import Templates.Proofs.Text.Search

/-!
What a key tells about the identity it was derived from.

A key is a short name in safe characters, and so the file of an artifact lies in the directory of
its shelf. Bytes are read back from the digits that they are written in, so that of an identity
whose normal form fits into a key nothing but the normal form is lost.
-/

namespace Templates

namespace Base64

/-- The six bits that a digit stands for. -/
def value (c : Char) : Nat :=
  if c = '-' then 62
  else if c = '_' then 63
  else if c.isUpper then c.toNat - 'A'.toNat
  else if c.isLower then c.toNat - 'a'.toNat + 26
  else c.toNat - '0'.toNat + 52

/-- The bytes that digits stand for; bits that make up no byte are left out. -/
def decode : Text → List UInt8
  | a :: b :: c :: d :: rest =>
    let n := value a * 262144 + value b * 4096 + value c * 64 + value d
    .ofNat (n / 65536) :: .ofNat (n / 256 % 256) :: .ofNat (n % 256) :: decode rest
  | [a, b, c] =>
    let n := value a * 262144 + value b * 4096 + value c * 64
    [.ofNat (n / 65536), .ofNat (n / 256 % 256)]
  | [a, b] =>
    let n := value a * 262144 + value b * 4096
    [.ofNat (n / 65536)]
  | _ => []

/-- A digit stands for the number that is written with it. -/
theorem value_digit {n : Nat} (small : n < 64) : value (digit n) = n := by
  have all : ∀ n < 64, value (digit n) = n := by decide
  exact all n small

/-- A number of three bytes is made up of the four digits that it is written in. -/
theorem value_digits {n : Nat} (small : n < 16777216) :
    value (digit (n / 262144)) * 262144 + value (digit (n / 4096 % 64)) * 4096 +
      value (digit (n / 64 % 64)) * 64 + value (digit (n % 64)) = n := by
  -- Each digit has six bits, and four of them have as many as three bytes.
  rw [value_digit (by omega), value_digit (by omega), value_digit (by omega),
    value_digit (by omega)]
  omega

/-- A byte is the one that its number stands for. -/
theorem ofNat_eq (byte : UInt8) {n : Nat} (same : n = byte.toNat) : UInt8.ofNat n = byte := by
  rw [same, UInt8.ofNat_toNat]

/-- Bytes are read back from the digits that they are written in. -/
theorem decode_encode (bytes : List UInt8) : decode (encode bytes) = bytes := by
  -- What follows the first three bytes is written behind their digits.
  fun_induction encode bytes with
  | case1 a b c rest n ih =>
    have bounds := And.intro a.toNat_lt (And.intro b.toNat_lt c.toNat_lt)
    have number : n = a.toNat * 65536 + b.toNat * 256 + c.toNat := rfl
    rw [decode, value_digits (by omega), ih, ofNat_eq a (by omega), ofNat_eq b (by omega),
      ofNat_eq c (by omega)]
  | case2 a b n =>
    have bounds := And.intro a.toNat_lt b.toNat_lt
    have number : n = a.toNat * 65536 + b.toNat * 256 := rfl
    -- The bits of two bytes end inside of the third digit.
    rw [decode, value_digit (by omega), value_digit (by omega), value_digit (by omega),
      ofNat_eq a (by omega), ofNat_eq b (by omega)]
  | case3 a n =>
    have bound := a.toNat_lt
    have number : n = a.toNat * 65536 := rfl
    rw [decode, value_digit (by omega), value_digit (by omega), ofNat_eq a (by omega)]
  | case4 => rfl

/-- Every three bytes take four digits, and what is left of them one digit more than bytes. -/
theorem length_encode (bytes : List UInt8) :
    (encode bytes).length = (4 * bytes.length + 2) / 3 := by
  fun_induction encode bytes with
  | case1 a b c rest n ih =>
    simp only [List.length_cons, ih]
    omega
  | case2 a b n => simp
  | case3 a n => simp
  | case4 => rfl

end Base64

namespace Path

/-- A path names an entry right in a directory: behind the names along the directory it has one
more, which leads neither further down nor up. -/
structure IsChild (directory path : Path) : Prop where
  /-- Both start in the same place. -/
  start : isAbsolute path = isAbsolute directory
  /-- There is one name more. -/
  further : ∃ name, names path = names directory ++ [name] ∧
    '/' ∉ name ∧ name ≠ [] ∧ name ≠ ['.'] ∧ name ≠ ['.', '.']

/-- The names along a path are those of its parts that are more than a dot. -/
theorem names_eq {path : Path} {first : Text} {rest : List Text}
    (parts : split [] path = first :: rest) :
    names path = (if first.isEmpty then [] else [first]) ++
      rest.filter fun name => !name.isEmpty && name ≠ ['.'] := by
  rw [names, parts]

end Path

namespace Shelf

/-- The names along the path of an artifact are those along the directory and that of its file. -/
theorem names_pathOf (directory : Path) {key : ArtifactKey} (plain : key.IsPlain) :
    Path.names (pathOf directory key) =
      Path.names directory ++ [ArtifactKey.fileName key] := by
  -- The name of a file is neither empty nor a dot.
  have long := ArtifactKey.three_lt_length_fileName key
  have filled : (ArtifactKey.fileName key).isEmpty = false := by
    rw [List.isEmpty_eq_false_iff, ← List.length_pos_iff]
    omega
  have noDot : ArtifactKey.fileName key ≠ ['.'] := by
    intro same
    rw [same] at long
    exact absurd long (by decide)
  have parts := split_pathOf directory plain
  unfold along at parts
  split at parts
  · rename_i nothing
    rw [Path.names_eq parts, nothing, filled]
    rfl
  · split at parts
    · -- The directory ends in a slash, behind which there is no name.
      rename_i slash
      obtain ⟨front, rfl⟩ := List.getLast?_eq_some_iff.mp slash
      have cut : Path.split [] (front ++ ['/']) = Path.split [] front ++ [[]] :=
        Path.split_append_slash [] front []
      obtain ⟨first, rest, whole⟩ := List.exists_cons_of_ne_nil (Path.split_ne_nil [] front)
      rw [whole] at cut
      rw [cut, List.dropLast_concat] at parts
      rw [Path.names_eq parts, Path.names_eq cut]
      simp [filled, noDot]
    · obtain ⟨first, rest, whole⟩ := List.exists_cons_of_ne_nil (Path.split_ne_nil [] directory)
      rw [whole] at parts
      rw [Path.names_eq parts, Path.names_eq whole]
      simp [filled, noDot]

/-- The file of an artifact lies right in the directory of its shelf. -/
theorem isChild_pathOf (directory : Path) {key : ArtifactKey} (plain : key.IsPlain) :
    Path.IsChild directory (pathOf directory key) where
  start := isAbsolute_pathOf directory plain
  further := by
    -- Its name is longer than those that lead nowhere or up.
    have long := ArtifactKey.three_lt_length_fileName key
    refine ⟨_, names_pathOf directory plain, plain.fileName.noSlash, ?_, ?_, ?_⟩ <;>
      intro same <;> rw [same] at long <;> exact absurd long (by decide)

end Shelf

namespace ArtifactKey

/-- A text without its pairs of dots, which are removed from the left. -/
def withoutPairs : Text → Text
  | '.' :: '.' :: rest => withoutPairs rest
  | c :: rest => c :: withoutPairs rest
  | [] => []

/-- An identity comes to its normal form when separators become underscores and pairs of dots go. -/
theorem normalize_eq (identity : Text) : normalize identity =
    withoutPairs (identity.map fun c => if c = '/' ∨ c = '\\' then '_' else c) := by
  rw [normalize]
  generalize (identity.map fun c => if c = '/' ∨ c = '\\' then '_' else c) = text
  fun_induction withoutPairs text with
  | case1 rest ih =>
    rw [← ih]
    rfl
  | case2 c rest single ih =>
    -- No pair begins with this character.
    have alone : ¬ Text.startsWith "..".toList (c :: rest) = true := by
      rw [Text.startsWith_iff]
      rintro ⟨back, pair⟩
      obtain ⟨dot, behind⟩ := List.cons.inj pair
      exact single back dot.symm behind.symm
    rw [← ih, Text.replace, Text.replaceFrom, if_neg alone]
    rfl
  | case3 => rfl

/-- Keys are no longer than they may be. -/
theorem length_derive_le (identity : Text) : (derive identity).length ≤ maxLength := by
  rw [derive, List.length_drop]
  omega

/-- A normal form that fits into a key is written there in full. -/
theorem derive_eq {identity : Text} (fits : Text.bytes (normalize identity) ≤ 75) :
    derive identity = Base64.encode (Text.encode (normalize identity)) := by
  have length := Base64.length_encode (Text.encode (normalize identity))
  rw [Text.length_encode] at length
  have nothing : (Base64.encode (Text.encode (normalize identity))).length - maxLength = 0 := by
    rw [length, maxLength]
    omega
  rw [derive, nothing, List.drop_zero]

/-- Identities of the same key have the same normal form if both normal forms fit into a key. -/
theorem normalize_eq_of_derive {identity other : Text} (same : derive identity = derive other)
    (fits : Text.bytes (normalize identity) ≤ 75) (otherFits : Text.bytes (normalize other) ≤ 75) :
    normalize identity = normalize other := by
  -- The digits are read back as bytes, and the bytes as a text.
  rw [derive_eq fits, derive_eq otherFits] at same
  have bytes := congrArg Base64.decode same
  rw [Base64.decode_encode, Base64.decode_encode] at bytes
  have texts := congrArg Text.decode? bytes
  rwa [Text.decode?_encode, Text.decode?_encode, Option.some.injEq] at texts

/-- A normal form that leaves a place in its key free is that of no longer one. -/
theorem fits_of_derive {identity other : Text} (same : derive identity = derive other)
    (short : Text.bytes (normalize identity) < 75) : Text.bytes (normalize other) ≤ 75 := by
  -- The key of a normal form that does not fit is as long as keys can be.
  have length := congrArg List.length same
  rw [derive, derive, List.length_drop, List.length_drop, Base64.length_encode,
    Base64.length_encode, Text.length_encode, Text.length_encode, maxLength] at length
  omega

/-- A key has at most a hundred characters, which are letters, digits, hyphens and underscores, so
that its file lies right in the directory of a shelf, also where a disk finds it. Identities of the
same normal form have the same key, and the key tells the normal form of all identities whose normal
forms have at most seventy-five bytes. If one has less, the key tells it from all others. -/
theorem derive_tells_identity (directory : Path) (identity other : Text) :
    ((derive identity).length ≤ 100 ∧
      ∀ c ∈ derive identity, c.isAlphanum = true ∨ c = '-' ∨ c = '_') ∧
    (Path.IsChild directory (Shelf.pathOf directory (derive identity)) ∧
      ∀ (disk : Disk) (place : List Text),
        disk.locate (Shelf.pathOf directory (derive identity)) = .ok place →
          ∃ above, Shelf.Room directory disk above ∧
            place = fileName (derive identity) :: above) ∧
    normalize identity =
      withoutPairs (identity.map fun c => if c = '/' ∨ c = '\\' then '_' else c) ∧
    (normalize identity = normalize other → derive identity = derive other) ∧
    (derive identity = derive other → Text.bytes (normalize identity) ≤ 75 →
      Text.bytes (normalize other) ≤ 75 → normalize identity = normalize other) ∧
    (derive identity = derive other → Text.bytes (normalize identity) < 75 →
      normalize identity = normalize other) := by
  have plain := isPlain_derive identity
  refine ⟨⟨length_derive_le identity, fun c => isDigit_of_mem_derive⟩,
    ⟨Shelf.isChild_pathOf directory plain, fun disk place located => ?_⟩, normalize_eq identity,
    fun same => ?_, normalize_eq_of_derive, fun same short => ?_⟩
  · exact ((Shelf.locate_pathOf plain).mp located).2
  · -- Only the normal form is looked at.
    rw [derive, derive, same]
  · exact normalize_eq_of_derive same (Nat.le_of_lt short) (fits_of_derive same short)

/-- A way up is left out of the key of a view, and so is which of the separators stands in it. -/
theorem derive_tells_viewsHome :
    derive "../views\\home.html".toList = derive "_views/home.html".toList ∧
      Text.bytes (normalize "../views\\home.html".toList) ≤ 75 ∧
      Text.bytes (normalize "_views/home.html".toList) ≤ 75 ∧
      normalize "../views\\home.html".toList = normalize "_views/home.html".toList ∧
      Path.IsChild "cache/views/".toList
        (Shelf.pathOf "cache/views/".toList (derive "../views\\home.html".toList)) := by
  obtain ⟨-, ⟨child, -⟩, -, -, tells, -⟩ := derive_tells_identity "cache/views/".toList
    "../views\\home.html".toList "_views/home.html".toList
  have same : derive "../views\\home.html".toList = derive "_views/home.html".toList := by
    rfl
  have fits : Text.bytes (normalize "../views\\home.html".toList) ≤ 75 := by decide
  have otherFits : Text.bytes (normalize "_views/home.html".toList) ≤ 75 := by decide
  exact ⟨same, fits, otherFits, tells same fits otherFits, child⟩

end ArtifactKey

end Templates
