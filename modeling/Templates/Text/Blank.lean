import Templates.Text.Basic

/-! Blank characters separate words; two sets of them are in use. -/

namespace Templates.Text

/-- The characters with the Unicode property White_Space. -/
def isBlank (c : Char) : Bool :=
  let n := c.toNat
  (9 ≤ n && n ≤ 13) || n = 0x20 || n = 0x85 || n = 0xA0 || n = 0x1680 ||
    (0x2000 ≤ n && n ≤ 0x200A) || n = 0x2028 || n = 0x2029 || n = 0x202F || n = 0x205F ||
    n = 0x3000

/-- The blank characters of markup: space, tab, newline, form feed and carriage return. -/
def isMarkupBlank (c : Char) : Bool :=
  c = ' ' || c = '\t' || c = '\n' || c = '\x0c' || c = '\r'

/-- Every markup blank is one byte. -/
theorem narrow_of_isMarkupBlank {c : Char} (blank : isMarkupBlank c = true) : c.utf8Size = 1 := by
  simp only [isMarkupBlank, Bool.or_eq_true, decide_eq_true_eq] at blank
  rcases blank with (((rfl | rfl) | rfl) | rfl) | rfl <;> rfl

/-- Every markup blank is blank. -/
theorem isBlank_of_isMarkupBlank {c : Char} (blank : isMarkupBlank c = true) :
    isBlank c = true := by
  -- There are five markup blanks, and each is in the larger set.
  simp only [isMarkupBlank, Bool.or_eq_true, decide_eq_true_eq] at blank
  rcases blank with (((rfl | rfl) | rfl) | rfl) | rfl <;> decide

/-- A text without its leading blanks. -/
def trimStart (text : Text) : Text :=
  text.dropWhile isBlank

/-- A text without its trailing blanks. -/
def trimEnd (text : Text) : Text :=
  (text.reverse.dropWhile isBlank).reverse

/-- A text without its leading and trailing blanks. -/
def trim (text : Text) : Text :=
  trimEnd (trimStart text)

/-- A text is blank when it holds blank characters only. -/
def isAllBlank (text : Text) : Bool :=
  text.all isBlank

end Templates.Text
