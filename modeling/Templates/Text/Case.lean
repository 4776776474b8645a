import Templates.Text.Basic
import Templates.Text.CaseTable
import Templates.Text.ClassTable

/-! Capital and small letters, in the full range of characters and in markup names. -/

namespace Templates.Text

/-- A code point lies in one of the ranges whose ends are listed in ascending order. -/
def inRanges : List Nat → Nat → Bool
  | first :: last :: rest, n => if n < first then false else n ≤ last || inRanges rest n
  | _, _ => false

/-- A code point lies in one of the strided ranges. -/
def inStrides (ranges : List (Nat × Nat × Nat)) (n : Nat) : Bool :=
  ranges.any fun (first, last, stride) => first ≤ n && n ≤ last && (n - first) % stride = 0

/-- The image of a code point under the first range that moves it. -/
def shift? (table : List CaseTable.Shift) (n : Nat) : Option Nat :=
  (table.find? fun s => s.first ≤ n && n ≤ s.last && (n - s.first) % s.stride = 0).map
    fun s => (Int.ofNat n + s.distance).toNat

/-- Letters and numbers of any script. -/
def isAlphanumeric (c : Char) : Bool :=
  inRanges ClassTable.alphanumeric c.toNat

/-- Characters with the property Uppercase. -/
def isUpper (c : Char) : Bool :=
  inStrides CaseTable.uppercase c.toNat

/-- Characters with the property Lowercase. -/
def isLower (c : Char) : Bool :=
  inStrides CaseTable.lowercase c.toNat

/-- The capital form of a character, which may be several characters. -/
def upperForm (c : Char) : Text :=
  match CaseTable.toUpperMany.lookup c.toNat with
  | some form => form.map Char.ofNat
  | none => [((shift? CaseTable.toUpper c.toNat).map Char.ofNat).getD c]

/-- The small form of a character; a dotted capital I keeps its dot as a second character. -/
def lowerForm (c : Char) : Text :=
  if c = '\u0130' then ['i', '\u0307']
  else [((shift? CaseTable.toLower c.toNat).map Char.ofNat).getD c]

/-- Every character in its capital form. -/
def toUpper (text : Text) : Text :=
  text.flatMap upperForm

/-- A text borders on a cased letter when one follows its case-ignorable beginning. -/
def bordersCased (text : Text) : Bool :=
  match text.dropWhile (fun c => inRanges ClassTable.ignorable c.toNat) with
  | c :: _ => inRanges ClassTable.cased c.toNat
  | [] => false

/-- Small forms, where a capital sigma depends on what was read before it, nearest first. -/
def toLowerAfter : Text → Text → Text
  | _, [] => []
  | front, c :: rest =>
    let form :=
      if c = 'Σ' then
        if bordersCased front && !bordersCased rest then ['ς'] else ['σ']
      else lowerForm c
    form ++ toLowerAfter (c :: front) rest

/-- Every character in its small form; a sigma at the end of a word takes its final form. -/
def toLower (text : Text) : Text :=
  toLowerAfter [] text

/-- A character stands for the whole class of characters that differ from it in case only. -/
def fold (c : Char) : Char :=
  ((shift? CaseTable.folded c.toNat).map Char.ofNat).getD c

/-- Removing an expected beginning whose letters may differ in case. -/
def stripCaseless? : Text → Text → Option Text
  | [], text => some text
  | _ :: _, [] => none
  | p :: start, c :: text => if fold p = fold c then stripCaseless? start text else none

/-- Markup names are compared after lowering the letters A to Z. -/
def asciiLower (text : Text) : Text :=
  text.map Char.toLower

/-- Two texts are equal when the case of the letters A to Z is set aside. -/
def sameName (left right : Text) : Bool :=
  asciiLower left = asciiLower right

end Templates.Text
