import Templates.Text.Basic

/-! The edit distance of two texts counts insertions, deletions and replacements of characters. -/

namespace Templates.Text

/-- The distances of a text's beginnings to a word extended by one character, computed from the
distances to the word itself. -/
def nextDistances (c : Char) : Nat → List Nat → Text → List Nat
  | left, diagonal :: above :: row, t :: text =>
    let here := min (min (above + 1) (left + 1)) (if t = c then diagonal else diagonal + 1)
    here :: nextDistances c here (above :: row) text
  | _, _, _ => []

/-- The distances of all beginnings of a text to a word, the shortest beginning first. -/
def distances (text : Text) : Text → List Nat → List Nat
  | [], row => row
  | c :: word, row =>
    let first := row.headD 0 + 1
    distances text word (first :: nextDistances c first row text)

/-- The edit distance of two texts. -/
def distance (left right : Text) : Nat :=
  (distances left right (List.range (left.length + 1))).getLastD 0

end Templates.Text
