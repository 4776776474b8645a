/-!
Binary fractions of 64 bits: exact arithmetic on the numbers they stand for, then one rounding.
-/

namespace Templates

/-- A power of two. -/
def twoTo (n : Nat) : Nat :=
  Nat.pow 2 n

/-- A power of ten. -/
def tenTo (n : Nat) : Nat :=
  Nat.pow 10 n

/-- A finite number of the 64-bit format: a sign, and the other 63 bits read as a whole number. The
upper eleven of these give the exponent, so larger bit patterns are larger magnitudes. -/
structure Binary64 where
  negative : Bool
  pattern : Fin (2047 * twoTo 52)
deriving DecidableEq, Repr

/-- A result has a nearest finite number or lies beyond all of them. -/
inductive Rounded where
  | finite (x : Binary64)
  | infinite (negative : Bool)
deriving DecidableEq, Repr

/-- The nearest whole number to a quotient; of two nearest ones the even one. -/
def nearestEven (num den : Nat) : Nat :=
  let floor := num / den
  let twice := 2 * (num % den)
  if twice < den then floor
  else if den < twice then floor + 1
  else floor + floor % 2

namespace Binary64

/-- Zero, with a sign of its own. -/
def zero (negative : Bool) : Binary64 :=
  ⟨negative, ⟨0, by decide⟩⟩

/-- The whole number of last places in the magnitude. -/
def significand (x : Binary64) : Nat :=
  let fraction := x.pattern.val % twoTo 52
  if x.pattern.val < twoTo 52 then fraction else fraction + twoTo 52

/-- The last place of the magnitude is this power of two. -/
def exponent (x : Binary64) : Int :=
  (max 1 (x.pattern.val / twoTo 52) : Nat) - 1075

/-- The numerator of the magnitude over `den`. -/
def num (x : Binary64) : Nat :=
  x.significand * twoTo x.exponent.toNat

/-- A power of two below which no last place is needed. -/
def den (x : Binary64) : Nat :=
  twoTo (-x.exponent).toNat

/-- Numbers compare as their signed bit patterns do, so the two zeros are equal. -/
def order (x : Binary64) : Int :=
  if x.negative then -(x.pattern.val : Int) else x.pattern.val

/-- Numerical equality. -/
def same (x y : Binary64) : Bool :=
  x.order = y.order

/-- The number is zero, of either sign. -/
def isZero (x : Binary64) : Bool :=
  x.pattern.val = 0

/-- The power of two in the last place of the nearest number to a positive quotient. -/
def lastPlace (num den : Nat) : Int :=
  let guess : Int := (num.log2 : Int) - den.log2 - 53
  let k :=
    if num * twoTo (-guess).toNat < den * twoTo guess.toNat * twoTo 53 then guess else guess + 1
  max k (-1074)

/-- The nearest number to a quotient with a sign; of two nearest ones the even one. -/
def ofQuotient (negative : Bool) (num den : Nat) : Rounded :=
  if num = 0 then .finite (zero negative) else
  let k := lastPlace num den
  let m := nearestEven (num * twoTo (-k).toNat) (den * twoTo k.toNat)
  let pattern := (k + 1074).toNat * twoTo 52 + m
  if h : pattern < 2047 * twoTo 52 then .finite ⟨negative, ⟨pattern, h⟩⟩ else .infinite negative

/-- The nearest number to a signed quotient, where an exact zero takes the given sign. -/
def ofSigned (zeroSign : Bool) (num : Int) (den : Nat) : Rounded :=
  if num = 0 then .finite (zero zeroSign) else ofQuotient (num < 0) num.natAbs den

/-- The nearest number to an integer. -/
def ofInt (n : Int) : Rounded :=
  ofSigned false n 1

/-- The numerator over `den` with its sign. -/
def signedNum (x : Binary64) : Int :=
  if x.negative then -(x.num : Int) else x.num

/-- The number with the opposite sign. -/
def neg (x : Binary64) : Binary64 :=
  { x with negative := !x.negative }

/-- The rounded sum. -/
def add (x y : Binary64) : Rounded :=
  ofSigned (x.negative && y.negative) (x.signedNum * y.den + y.signedNum * x.den) (x.den * y.den)

/-- The rounded difference. -/
def sub (x y : Binary64) : Rounded :=
  x.add y.neg

/-- The rounded product. -/
def mul (x y : Binary64) : Rounded :=
  ofQuotient (x.negative != y.negative) (x.num * y.num) (x.den * y.den)

/-- The rounded quotient by a number that is not zero. -/
def div (x y : Binary64) : Rounded :=
  ofQuotient (x.negative != y.negative) (x.num * y.den) (x.den * y.num)

/-- What is left of the dividend after taking away the divisor as often as it fits; the sign is the
dividend's. -/
def rem (x y : Binary64) : Rounded :=
  ofQuotient x.negative (x.num * y.den % (y.num * x.den)) (x.den * y.den)

/-- The number has no fraction. -/
def isWhole (x : Binary64) : Bool :=
  x.num % x.den = 0

/-- The integer part, toward zero. -/
def truncate (x : Binary64) : Int :=
  let whole : Int := (x.num / x.den : Nat)
  if x.negative then -whole else whole

/-- The magnitude is below a whole number. -/
def isBelow (x : Binary64) (bound : Nat) : Bool :=
  x.num < bound * x.den

end Binary64

end Templates
