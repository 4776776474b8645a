import Templates.Number.Basic
import Templates.Text.Digits

/-!
JSON numerals and the numbers they stand for.

Integers of 64 bits are exact. For all others the significant digits are gathered in 64 bits, digits
that do not fit are dropped, and one product or quotient with a power of ten gives the fraction.
-/

namespace Templates.Json

/-- A numeral: a sign, the digits before and behind the point, and a power of ten with its sign. -/
structure Numeral where
  negative : Bool
  whole : Text
  fraction : Option Text
  power : Option (Bool × Text)
deriving DecidableEq, Repr

namespace Numeral

/-- The significant digits gathered in 64 bits, and the power of ten still to apply. -/
structure Significand where
  digits : Nat
  power : Int
  full : Bool
deriving DecidableEq, Repr

/-- A digit is gathered if it fits. -/
def Significand.push (s : Significand) (c : Char) (power : Int) : Option Significand :=
  let digits := s.digits * 10 + (c.toNat - '0'.toNat)
  if digits < twoTo 64 then some ⟨digits, s.power + power, s.full⟩ else none

/-- Digits before the point: from the first one that does not fit, each counts as a power of ten. -/
def Significand.whole (s : Significand) : Text → Significand
  | [] => s
  | c :: rest =>
    if s.full then whole { s with power := s.power + 1 } rest
    else
      match s.push c 0 with
      | some next => next.whole rest
      | none => whole { s with power := s.power + 1, full := true } rest

/-- Digits behind the point: from the first one that does not fit, none counts. -/
def Significand.fraction (s : Significand) : Text → Significand
  | [] => s
  | c :: rest =>
    match s.push c (-1) with
    | some next => next.fraction rest
    | none => s

/-- A power of ten as a fraction; from 10^23 on it is the nearest one. -/
def powerOfTen (n : Nat) : Rounded :=
  Binary64.ofQuotient false (tenTo n) 1

/-- A fraction times a power of ten; powers beyond 10^308 are applied in steps. The result is none
when it is infinite. -/
def scale : Nat → Binary64 → Int → Option Binary64
  | 0, x, _ => some x
  | fuel + 1, x, power =>
    if power.natAbs ≤ 308 then
      match powerOfTen power.natAbs with
      | .infinite _ => none
      | .finite ten =>
        match if 0 ≤ power then x.mul ten else x.div ten with
        | .finite y => some y
        | .infinite _ => none
    else if x.isZero then some x
    else if 0 ≤ power then none
    else
      match powerOfTen 308 with
      | .infinite _ => none
      | .finite ten =>
        match x.div ten with
        | .finite y => scale fuel y (power + 308)
        | .infinite _ => none

/-- A fraction with the sign of the numeral. -/
def signed (numeral : Numeral) (x : Binary64) : Binary64 :=
  if numeral.negative then x.neg else x

/-- The number a numeral stands for, if there is one. -/
def number? (numeral : Numeral) : Option Number :=
  let whole := Significand.whole ⟨0, 0, false⟩ numeral.whole
  match numeral.fraction, numeral.power with
  | none, none =>
    if whole.full then fraction whole 0
    else if !numeral.negative then some (.whole whole.digits)
    else if whole.digits ≠ 0 ∧ whole.digits ≤ twoTo 63 then some (.whole (-whole.digits))
    else some (.real (signed numeral (Number.whole whole.digits).toBinary64))
  | _, power =>
    let all := whole.fraction (numeral.fraction.getD [])
    match power with
    | none => fraction all 0
    | some (below, digits) =>
      let n := Text.natural digits
      if n < twoTo 31 then fraction all (if below then -n else n)
      else if all.digits ≠ 0 ∧ !below then none
      else some (.real (Binary64.zero numeral.negative))
where
  fraction (s : Significand) (power : Int) : Option Number :=
    let total : Int := max (-twoTo 31) (min (twoTo 31 - 1) (s.power + power))
    (scale (total.natAbs / 308 + 2) (Number.whole s.digits).toBinary64 total).map
      fun x => .real (signed numeral x)

end Numeral

end Templates.Json
