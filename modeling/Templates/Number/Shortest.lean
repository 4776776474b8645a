import Templates.Number.Binary64
import Templates.Text.Basic

/-! The shortest decimal that reads back as a given binary fraction, and two ways to lay it out. -/

namespace Templates

/-- The decimal `digits · 10 ^ exponent`. -/
structure Decimal where
  digits : Nat
  exponent : Int
deriving DecidableEq, Repr

/-- Which of two equally near decimals is taken: the one with the even last digit or the larger. -/
inductive Tie where
  | even
  | up
deriving DecidableEq, Repr

namespace Decimal

/-- Without trailing zeros in its digits, of which there are at most `fuel`. -/
def reduce : Nat → Decimal → Decimal
  | 0, d => d
  | fuel + 1, d =>
    if d.digits ≠ 0 ∧ d.digits % 10 = 0 then reduce fuel ⟨d.digits / 10, d.exponent + 1⟩ else d

/-- A decimal with the given last place that rounds to the number, when there is one: of the two
neighbours of the number on that grid the nearer one that is close enough. -/
def onGrid? (tie : Tie) (x : Binary64) (place : Int) : Option Decimal :=
  let m := x.significand
  let a := twoTo x.exponent.toNat * tenTo (-place).toNat
  let b := twoTo (-x.exponent).toNat * tenTo place.toNat
  -- The number is m · a / b grid steps; quarters of a step keep the bounds whole.
  let value := 4 * m * a
  let below := if m = twoTo 52 ∧ x.exponent ≠ -1074 then a else 2 * a
  let above := 2 * a
  let closed := m % 2 = 0
  let floor := m * a / b
  let low := 4 * floor * b
  let high := 4 * (floor + 1) * b
  let lowFits := floor ≠ 0 ∧ (value < low + below ∨ closed ∧ value = low + below)
  let highFits := high < value + above ∨ closed ∧ high = value + above
  let lowNearer := value - low < high - value ∨
    value - low = high - value ∧ tie = .even ∧ floor % 2 = 0
  if lowFits ∧ (lowNearer ∨ ¬ highFits) then some ⟨floor, place⟩
  else if highFits then some ⟨floor + 1, place⟩
  else none

/-- The grids are tried from the coarsest down. -/
def search (tie : Tie) (x : Binary64) : Nat → Int → Decimal
  | 0, place => ⟨0, place⟩
  | fuel + 1, place => (onGrid? tie x place).getD (search tie x fuel (place - 1))

/-- The decimal with the fewest digits that rounds to the magnitude of a number. -/
def shortest (tie : Tie) (x : Binary64) : Decimal :=
  if x.isZero then ⟨0, 0⟩ else
  let power : Int := x.significand.log2 + x.exponent
  -- No power of ten above this place comes near the number.
  let start := power * 30103 / 100000 + 2
  reduce 20 (search tie x 30 start)

/-- Digits in full, without a power of ten. -/
def positional (d : Decimal) : Text :=
  let digits := Text.decimal d.digits
  if 0 ≤ d.exponent then digits ++ List.replicate d.exponent.toNat '0' else
  let places := (-d.exponent).toNat
  if places < digits.length then
    digits.take (digits.length - places) ++ '.' :: digits.drop (digits.length - places)
  else
    "0.".toList ++ List.replicate (places - digits.length) '0' ++ digits

/-- One digit before the point, and a power of ten with its sign. -/
def scientific (d : Decimal) : Text :=
  let digits := Text.decimal d.digits
  let power := d.exponent + digits.length - 1
  let front := match digits with
    | first :: rest@(_ :: _) => first :: '.' :: rest
    | _ => digits
  front ++ 'e' :: (if power < 0 then ['-'] else ['+']) ++ Text.decimal power.natAbs

end Decimal

namespace Binary64

/-- A number in full decimal digits, with a point only before a fraction; ties go up. -/
def plainText (x : Binary64) : Text :=
  (if x.negative then ['-'] else []) ++ (Decimal.shortest .up x).positional

/-- A number with a point or a power of ten: powers from -5 to 15 are written in full, and a whole
number ends in `.0`; ties go to the even digit. -/
def pointText (x : Binary64) : Text :=
  let d := Decimal.shortest .even x
  let power := d.exponent + (Text.decimal d.digits).length - 1
  let magnitude :=
    if power < -5 ∨ 16 ≤ power then d.scientific
    else if 0 ≤ d.exponent then d.positional ++ ".0".toList
    else d.positional
  (if x.negative then ['-'] else []) ++ magnitude

end Binary64

end Templates
