import Templates.Text.Case

/-! A text in double quotes shows control and combining characters by their code points. -/

namespace Templates.Text

/-- The hexadecimal digits of a number in small letters. -/
def hexadecimal (n : Nat) : Text :=
  Nat.toDigits 16 n

/-- Characters that would not show by themselves: all kinds of space but the plain one, controls,
and marks that attach to the character before them. -/
def needsCode (c : Char) : Bool :=
  c ≠ ' ' && (inRanges ClassTable.hidden c.toNat || inRanges ClassTable.extending c.toNat)

/-- How one character is written between double quotes. -/
def quoteChar (c : Char) : Text :=
  if c = '\x00' then "\\0"
  else if c = '\t' then "\\t"
  else if c = '\r' then "\\r"
  else if c = '\n' then "\\n"
  else if c = '\\' then "\\\\"
  else if c = '"' then "\\\""
  else if needsCode c then "\\u\x7b".toList ++ hexadecimal c.toNat ++ "\x7d".toList
  else [c]

/-- A text between double quotes. -/
def quote (text : Text) : Text :=
  '"' :: text.flatMap quoteChar ++ ['"']

end Templates.Text
