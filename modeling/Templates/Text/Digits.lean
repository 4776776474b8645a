import Templates.Text.Basic

/-! Numbers written in digits. -/

namespace Templates.Text

/-- The value of a hexadecimal digit. -/
def digit? (c : Char) : Option Nat :=
  if '0' ≤ c ∧ c ≤ '9' then some (c.toNat - '0'.toNat)
  else if 'a' ≤ c ∧ c ≤ 'f' then some (c.toNat - 'a'.toNat + 10)
  else if 'A' ≤ c ∧ c ≤ 'F' then some (c.toNat - 'A'.toNat + 10)
  else none

/-- Digits of a base continue a number read so far. -/
def continued? (base : Nat) (n : Nat) : Text → Option Nat
  | [] => some n
  | c :: rest =>
    match digit? c with
    | some d => if d < base then continued? base (n * base + d) rest else none
    | none => none

/-- The number written by at least one digit of a base, in front of which a plus sign may stand. -/
def natural? (base : Nat) : Text → Option Nat
  | [] => none
  | ['+'] => none
  | '+' :: rest => continued? base 0 rest
  | text => continued? base 0 text

/-- The number written by decimal digits. -/
def natural (digits : Text) : Nat :=
  digits.foldl (fun n d => n * 10 + (d.toNat - '0'.toNat)) 0

end Templates.Text
