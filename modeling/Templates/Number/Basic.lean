import Templates.Number.Shortest

/-! Numbers of template data are integers or binary fractions, and the two are told apart. -/

namespace Templates

/-- An integer, or a finite binary fraction. -/
inductive Number where
  | whole (n : Int)
  | real (x : Binary64)
deriving DecidableEq, Repr

namespace Number

/-- The largest finite fraction with a sign. -/
def largest (negative : Bool) : Binary64 :=
  ⟨negative, ⟨2047 * twoTo 52 - 1, by decide⟩⟩

/-- The fraction nearest to a number. -/
def toBinary64 : Number → Binary64
  | .whole n =>
    match Binary64.ofInt n with
    | .finite x => x
    | .infinite negative => largest negative
  | .real x => x

/-- Integers compare with integers and fractions with fractions; no integer equals a fraction. -/
def same : Number → Number → Bool
  | .whole m, .whole n => m = n
  | .real x, .real y => x.same y
  | _, _ => false

/-- The fractions nearest to two numbers are equal. -/
def sameValue (m n : Number) : Bool :=
  m.toBinary64.same n.toBinary64

/-- A fraction without a fractional part, of a magnitude below 9 · 10^15, becomes an integer. -/
def ofFinite (x : Binary64) : Number :=
  if x.isWhole && x.isBelow 9000000000000000 then .whole x.truncate else .real x

/-- An integer that fits 64 bits with a sign. -/
def fitsSigned (n : Int) : Bool :=
  -twoTo 63 ≤ n && n < twoTo 63

/-- The integer a number stands for, as a signed one of 64 bits: fractions without a fractional part
count, and magnitudes beyond the range stop at its ends. -/
def toInteger? : Number → Option Int
  | .whole n => if fitsSigned n then some n else some (twoTo 63 - 1)
  | .real x => if x.isWhole then some (max (-twoTo 63) (min (twoTo 63 - 1) x.truncate)) else none

/-- The text that data is written with: an integer has no point and a fraction has one. -/
def text : Number → Text
  | .whole n => Text.ofInt n
  | .real x => x.pointText

/-- The text a page shows: a fraction without a fractional part, of a magnitude below 10^15, is
written as an integer, and no number has a power of ten. -/
def display : Number → Text
  | .whole n => Text.ofInt n
  | .real x =>
    if x.isWhole && x.isBelow 1000000000000000 then Text.ofInt x.truncate else x.plainText

end Number

end Templates
