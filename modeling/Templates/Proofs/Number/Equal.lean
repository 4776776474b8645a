import Mathlib.Algebra.Group.Nat.Defs
import Templates.Number.Basic
import Templates.Proofs.Text.Numeral

/-!
Numbers that compare as equal.

Main statements: no two of them are written alike, and in the form that arithmetic gives them they
are the same, since integers of up to 53 bits are fractions.
-/

namespace Templates

/-! ### How numbers are written -/

namespace Decimal

/-- A power of ten is written behind a letter. -/
theorem power_mem_scientific (d : Decimal) : 'e' ∈ d.scientific := by
  simp [scientific]

/-- A decimal with a fraction is written with a point. -/
theorem point_mem_positional {d : Decimal} (fraction : ¬ 0 ≤ d.exponent) : '.' ∈ d.positional := by
  unfold positional
  rw [if_neg fraction]
  -- The point stands between digits, or behind a zero that is put in front of them.
  dsimp only
  split <;> simp

end Decimal

namespace Binary64

/-- A fraction is written with a point or with a power of ten. -/
theorem point_or_power (x : Binary64) : '.' ∈ x.pointText ∨ 'e' ∈ x.pointText := by
  unfold pointText
  refine Or.imp (List.mem_append_right _) (List.mem_append_right _) ?_
  split
  · exact .inr (Decimal.power_mem_scientific _)
  · split
    · exact .inl (List.mem_append_right _ (by decide))
    · next fraction => exact .inl (Decimal.point_mem_positional fraction)

/-- No integer is written as a fraction is. -/
theorem ofInt_ne_pointText (n : Int) (x : Binary64) : Text.ofInt n ≠ x.pointText := by
  intro same
  have digits := fun c => same ▸ Text.mem_ofInt (n := n) (c := c)
  -- Neither the point nor the letter of a power is a digit or a minus sign.
  obtain point | power := x.point_or_power
  · exact absurd (digits '.' point) (by decide)
  · exact absurd (digits 'e' power) (by decide)

/-- Two fractions compare as equal if they are the same or both are zero. -/
theorem same_iff {x y : Binary64} :
    x.same y = true ↔ x = y ∨ x.isZero = true ∧ y.isZero = true := by
  obtain ⟨xSign, xPattern⟩ := x
  obtain ⟨ySign, yPattern⟩ := y
  -- Patterns count from zero up, with a sign in front.
  cases xSign <;> cases ySign <;>
    simp only [same, order, isZero, decide_eq_true_eq, mk.injEq, Fin.ext_iff] <;> simp <;> omega

/-- A zero is told by its sign. -/
theorem eq_zero_of_isZero {x : Binary64} (none : x.isZero = true) : x = zero x.negative := by
  obtain ⟨sign, pattern⟩ := x
  have value : pattern.val = 0 := by simpa [isZero] using none
  simp [zero, Fin.ext_iff, value]

/-- The two zeros are not written alike. -/
theorem pointText_zero : (zero true).pointText ≠ (zero false).pointText := by
  decide +kernel

/-- Of fractions that compare as equal no two are written alike. -/
theorem eq_of_pointText {x y : Binary64} (equal : x.same y = true)
    (alike : x.pointText = y.pointText) : x = y := by
  obtain same | ⟨left, right⟩ := same_iff.mp equal
  · exact same
  · rw [eq_zero_of_isZero left, eq_zero_of_isZero right] at alike ⊢
    -- The zeros that differ in their signs are written with them.
    cases xSign : x.negative <;> cases ySign : y.negative
    · rfl
    · rw [xSign, ySign] at alike
      exact absurd alike.symm pointText_zero
    · rw [xSign, ySign] at alike
      exact absurd alike pointText_zero
    · rfl

end Binary64

namespace Number

/-- Of numbers that compare as equal no two are written alike. -/
theorem text_inj {m n : Number} (equal : m.sameValue n = true) : m.text = n.text ↔ m = n := by
  refine ⟨fun alike => ?_, congrArg text⟩
  cases m with
  | whole m =>
    cases n with
    | whole n => rw [Text.ofInt_inj.mp alike]
    | real y => exact absurd alike (Binary64.ofInt_ne_pointText m y)
  | real x =>
    cases n with
    | whole n => exact absurd alike.symm (Binary64.ofInt_ne_pointText n x)
    | real y =>
      have same : x = y := Binary64.eq_of_pointText equal alike
      rw [same]

end Number

/-! ### Integers as fractions -/

namespace Binary64

/-- The number of last places that a significand may have. -/
theorem twoTo_52 : twoTo 52 = 4503599627370496 := rfl

/-- A pattern of an exponent and a significand with its first bit stands for these. -/
theorem parts_of_pattern {x : Binary64} {place m : Nat}
    (pattern : x.pattern.val = place * twoTo 52 + m) (low : twoTo 52 ≤ m)
    (high : m < 2 * twoTo 52) :
    x.significand = m ∧ x.exponent = (place : Int) - 1074 := by
  -- The first bit of the significand adds one to the exponent in the pattern.
  rw [significand, exponent, pattern]
  rw [twoTo_52] at low high ⊢
  rw [if_neg (by omega)]
  omega

/-- What needs no rounding stays. -/
theorem nearestEven_one (num : Nat) : nearestEven num 1 = num := by
  simp [nearestEven, Nat.mod_one]

section Exact

variable {n : Nat}

/-- Moved up to more bits, an integer has exactly that many. -/
theorem moved_bounds (some : n ≠ 0) {k : Nat} (few : n.log2 ≤ k) :
    2 ^ k ≤ n * 2 ^ (k - n.log2) ∧ n * 2 ^ (k - n.log2) < 2 ^ (k + 1) := by
  have below : 2 ^ n.log2 ≤ n := Nat.log2_self_le some
  have above : n < 2 ^ (n.log2 + 1) := Nat.lt_log2_self
  constructor
  · calc
      2 ^ k = 2 ^ n.log2 * 2 ^ (k - n.log2) := by rw [← Nat.pow_add, Nat.add_sub_of_le few]
      _ ≤ n * 2 ^ (k - n.log2) := Nat.mul_le_mul_right _ below
  · calc
      n * 2 ^ (k - n.log2) < 2 ^ (n.log2 + 1) * 2 ^ (k - n.log2) :=
        Nat.mul_lt_mul_of_pos_right above (Nat.two_pow_pos _)
      _ = 2 ^ (k + 1) := by rw [← Nat.pow_add]; congr 1; omega

/-- The last place of an integer of up to 53 bits. -/
theorem lastPlace_small (some : n ≠ 0) (small : n.log2 ≤ 53) :
    lastPlace n 1 = (n.log2 : Int) - 52 := by
  obtain ⟨moved, -⟩ := moved_bounds some small
  have places : (-((n.log2 : Int) - (1 : Nat).log2 - 53)).toNat = 53 - n.log2 := by
    rw [show (1 : Nat).log2 = 0 from rfl]
    omega
  have none : ((n.log2 : Int) - (1 : Nat).log2 - 53).toNat = 0 := by
    rw [show (1 : Nat).log2 = 0 from rfl]
    omega
  have reached : ¬ n * twoTo (53 - n.log2) < 1 * twoTo 0 * twoTo 53 := by
    rw [show 1 * twoTo 0 * twoTo 53 = 2 ^ 53 from rfl]
    exact Nat.not_lt.mpr moved
  rw [lastPlace, places, none, if_neg reached, show (1 : Nat).log2 = 0 from rfl]
  omega

/-- An integer of up to 53 bits is a fraction. -/
theorem ofQuotient_exact (some : n ≠ 0) (small : n ≤ 2 ^ 53) (negative : Bool) :
    ∃ x : Binary64, ofQuotient negative n 1 = .finite x ∧ x.negative = negative ∧
      x.num = n * x.den := by
  by_cases last : n = 2 ^ 53
  · -- The first integer of 54 bits has a zero in its last place.
    subst last
    refine ⟨⟨negative, ⟨1076 * twoTo 52, by decide⟩⟩, ?_, rfl, ?_⟩ <;>
      cases negative <;> decide +kernel
  have few : n.log2 ≤ 52 :=
    Nat.lt_succ_iff.mp ((Nat.log2_lt some).mpr (Nat.lt_of_le_of_ne small last))
  have place := lastPlace_small some (by omega)
  let m := n * 2 ^ (52 - n.log2)
  obtain ⟨low, high⟩ : twoTo 52 ≤ m ∧ m < 2 * twoTo 52 := moved_bounds some few
  have fits : (n.log2 + 1022) * twoTo 52 + m < 2047 * twoTo 52 := by
    rw [twoTo_52] at low high ⊢
    omega
  let x : Binary64 := ⟨negative, ⟨(n.log2 + 1022) * twoTo 52 + m, fits⟩⟩
  -- The significand is the integer moved to 53 bits, and the exponent moves it back.
  obtain ⟨significand, exponent⟩ := parts_of_pattern (x := x) rfl low high
  have up : (-((n.log2 : Int) - 52)).toNat = 52 - n.log2 := by omega
  have down : ((n.log2 : Int) - 52).toNat = 0 := by omega
  have shift : ((n.log2 : Int) - 52 + 1074).toNat = n.log2 + 1022 := by omega
  refine ⟨x, ?_, rfl, ?_⟩
  · rw [ofQuotient, if_neg some, place]
    dsimp only
    rw [up, down, shift, show 1 * twoTo 0 = 1 from rfl, nearestEven_one]
    exact dif_pos fits
  · have own : ((n.log2 + 1022 : Nat) : Int) - 1074 = (n.log2 : Int) - 52 := by omega
    rw [num, den, significand, exponent, own, up, down]
    exact Nat.mul_one m

end Exact

/-- An integer of up to 53 bits with a sign is a fraction. -/
theorem ofInt_exact {n : Int} (small : n.natAbs ≤ 2 ^ 53) :
    ∃ x : Binary64, ofInt n = .finite x ∧ x.signedNum = n * x.den := by
  by_cases none : n = 0
  · subst none
    have nothing : (zero false).num = 0 := Nat.zero_mul _
    exact ⟨zero false, rfl, by rw [signedNum, nothing, Int.zero_mul]; rfl⟩
  · obtain ⟨x, rounded, sign, exact⟩ :=
      ofQuotient_exact (Int.natAbs_ne_zero.mpr none) small (decide (n < 0))
    refine ⟨x, ?_, ?_⟩
    · rw [ofInt, ofSigned, if_neg none, rounded]
    · rw [signedNum, sign, exact, Int.natCast_mul]
      by_cases below : n < 0
      · rw [if_pos (decide_eq_true below), Int.ofNat_natAbs_of_nonpos (Int.le_of_lt below),
          Int.neg_mul, Int.neg_neg]
      · rw [if_neg (by simpa using below), Int.natAbs_of_nonneg (Int.not_lt.mp below)]

/-- The sign is no part of the magnitude. -/
theorem natAbs_signedNum (x : Binary64) : x.signedNum.natAbs = x.num := by
  rw [signedNum]
  split
  · rw [Int.natAbs_neg, Int.natAbs_natCast]
  · rw [Int.natAbs_natCast]

/-- The denominator of a fraction is a power of two. -/
theorem den_pos (x : Binary64) : 0 < x.den := Nat.two_pow_pos _

/-- A zero has no magnitude. -/
theorem num_of_isZero {x : Binary64} (none : x.isZero = true) : x.num = 0 := by
  rw [eq_zero_of_isZero none]
  exact Nat.zero_mul _

end Binary64

namespace Number

/-- An integer of up to 53 bits is compared as what it is. -/
theorem num_whole {n : Int} (small : n.natAbs ≤ 2 ^ 53) :
    (whole n).toBinary64.signedNum = n * (whole n).toBinary64.den := by
  obtain ⟨x, rounded, exact⟩ := Binary64.ofInt_exact small
  have fraction : (whole n).toBinary64 = x := by rw [toBinary64, rounded]
  rw [fraction, exact]

/-- Integers of up to 53 bits are the same if they compare as equal. -/
theorem whole_inj {m n : Int} (left : m.natAbs ≤ 2 ^ 53) (right : n.natAbs ≤ 2 ^ 53)
    (equal : (whole m).sameValue (whole n) = true) : m = n := by
  have leftNum := num_whole left
  have rightNum := num_whole right
  have leftDen := (whole m).toBinary64.den_pos
  have rightDen := (whole n).toBinary64.den_pos
  obtain same | ⟨leftZero, rightZero⟩ := Binary64.same_iff.mp equal
  · rw [same] at leftNum leftDen
    exact Int.eq_of_mul_eq_mul_right (by omega) (leftNum.symm.trans rightNum)
  · -- Nothing but zero is compared as a zero.
    have zero {k : Int} {x : Binary64} (num : x.signedNum = k * x.den) (none : x.isZero = true) :
        k = 0 := by
      have magnitude := x.natAbs_signedNum
      rw [Binary64.num_of_isZero none, Int.natAbs_eq_zero, num, Int.mul_eq_zero] at magnitude
      exact magnitude.resolve_right (by have := x.den_pos; omega)
    rw [zero leftNum leftZero, zero rightNum rightZero]

/-- The number is in the form that arithmetic gives it: an integer of a magnitude below 9 · 10^15,
or a fraction that is none. -/
def isSettled : Number → Bool
  | .whole n => n.natAbs < 9000000000000000
  | .real x => !(x.isWhole && x.isBelow 9000000000000000)

/-- Arithmetic gives numbers their form. -/
theorem ofFinite_settled (x : Binary64) : (ofFinite x).isSettled = true := by
  rw [ofFinite]
  split
  · next small =>
    have below : x.num < 9000000000000000 * x.den := by
      simpa [Binary64.isBelow] using (Bool.and_eq_true_iff.mp small).2
    have magnitude : x.truncate.natAbs = x.num / x.den := by
      rw [Binary64.truncate]
      split
      · rw [Int.natAbs_neg, Int.natAbs_natCast]
      · rw [Int.natAbs_natCast]
    rw [isSettled, magnitude, decide_eq_true_eq]
    exact Nat.div_lt_of_lt_mul (by rwa [Nat.mul_comm])
  · next large => rw [isSettled, Bool.eq_false_iff.mpr large, Bool.not_false]

/-- A fraction that is a small integer is given another form. -/
theorem not_settled {x : Binary64} {k : Nat} (num : x.num = k * x.den)
    (small : k < 9000000000000000) : (real x).isSettled = false := by
  have den := x.den_pos
  have isWhole : x.isWhole = true := by simp [Binary64.isWhole, num]
  have isBelow : x.isBelow 9000000000000000 = true := by
    simpa [Binary64.isBelow, num] using Nat.mul_lt_mul_of_pos_right small den
  rw [isSettled, isWhole, isBelow]
  rfl

/-- A zero is an integer. -/
theorem not_settled_zero {x : Binary64} (none : x.isZero = true) : (real x).isSettled = false := by
  have num : x.num = 0 * x.den := by rw [Binary64.num_of_isZero none, Nat.zero_mul]
  exact not_settled num (by decide)

/-- No fraction that keeps its form is compared as a small integer. -/
theorem whole_ne_real {n : Int} {x : Binary64} (settled : (whole n).isSettled = true)
    (own : (real x).isSettled = true) : (whole n).sameValue (real x) = false := by
  rw [Bool.eq_false_iff]
  intro equal
  have small : n.natAbs < 9000000000000000 := by simpa [isSettled] using settled
  -- Such a fraction is the integer itself or a zero.
  obtain same | ⟨-, none⟩ := Binary64.same_iff.mp equal
  · have num : x.num = n.natAbs * x.den := by
      have exact := num_whole (n := n) (by omega)
      have fraction : (whole n).toBinary64 = x := same
      rw [fraction] at exact
      rw [← Binary64.natAbs_signedNum, exact, Int.natAbs_mul, Int.natAbs_natCast]
    rw [not_settled num small] at own
    cases own
  · have zero : (real x).isSettled = false := not_settled_zero none
    rw [zero] at own
    cases own

/-- Numbers in the form that arithmetic gives are the same if they compare as equal. -/
theorem eq_of_settled {m n : Number} (left : m.isSettled = true) (right : n.isSettled = true)
    (equal : m.sameValue n = true) : m = n := by
  cases m with
  | whole a =>
    cases n with
    | whole b =>
      have small (k : Int) (settled : (whole k).isSettled = true) : k.natAbs ≤ 2 ^ 53 := by
        have below : k.natAbs < 9000000000000000 := by simpa [isSettled] using settled
        omega
      rw [whole_inj (small a left) (small b right) equal]
    | real y =>
      rw [whole_ne_real left right] at equal
      cases equal
  | real x =>
    cases n with
    | whole b =>
      have swapped : (whole b).sameValue (real x) = true := by
        simpa [sameValue, Binary64.same, eq_comm] using equal
      rw [whole_ne_real right left] at swapped
      cases swapped
    | real y =>
      obtain same | ⟨none, -⟩ := Binary64.same_iff.mp equal
      · exact congrArg real same
      · have zero : (real x).isSettled = false := not_settled_zero none
        rw [zero] at left
        cases left

end Number

end Templates
