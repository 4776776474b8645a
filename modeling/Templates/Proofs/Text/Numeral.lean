import Templates.Text.Digits

/-! Numbers that are written in decimal digits are read back, and nothing else is read as one. -/

namespace Templates.Text

/-- A decimal digit has its value. -/
theorem digit?_of_isDigit {c : Char} (isDigit : c.isDigit = true) :
    digit? c = some (c.toNat - '0'.toNat) := by
  have within : '0' ≤ c ∧ c ≤ '9' := by
    have values : 48 ≤ c.val ∧ c.val ≤ 57 := by simpa [Char.isDigit] using isDigit
    exact values
  rw [digit?, if_pos within]

/-- A decimal digit is below ten. -/
theorem lt_of_isDigit {c : Char} (isDigit : c.isDigit = true) : c.toNat - '0'.toNat < 10 := by
  have within : 48 ≤ c.val ∧ c.val ≤ 57 := by simpa [Char.isDigit] using isDigit
  have nine : c.toNat ≤ 57 := within.2
  have zero : '0'.toNat = 48 := rfl
  omega

/-- Decimal digits continue a number. -/
theorem continued?_digits {digits : Text} (decimal : ∀ c ∈ digits, c.isDigit = true) (n : Nat) :
    continued? 10 n digits = some (Nat.ofDigitChars 10 digits n) := by
  induction digits generalizing n with
  | nil => rfl
  | cons c rest ih =>
    obtain ⟨first, others⟩ := List.forall_mem_cons.mp decimal
    rw [continued?, digit?_of_isDigit first]
    dsimp only
    rw [if_pos (lt_of_isDigit first), ih others, Nat.ofDigitChars_cons, Nat.mul_comm]

/-- A text with a character that is no digit of the base is no number. -/
theorem continued?_eq_none {base : Nat} {c : Char} (foreign : (digit? c).all (base ≤ ·) = true)
    {text : Text} (listed : c ∈ text) (n : Nat) : continued? base n text = none := by
  induction text generalizing n with
  | nil => cases listed
  | cons d rest ih =>
    rw [continued?]
    rcases List.mem_cons.mp listed with rfl | later
    · cases found : digit? c with
      | none => rfl
      | some value =>
        have beyond : ¬ value < base := by simpa [found] using foreign
        exact if_neg beyond
    · cases digit? d with
      | none => rfl
      | some value => simp [ih later]

/-- Nor is it one with a sign in front. -/
theorem natural?_eq_none {base : Nat} {c : Char} (foreign : (digit? c).all (base ≤ ·) = true)
    (noSign : c ≠ '+') {text : Text} (listed : c ∈ text) : natural? base text = none := by
  fun_cases natural? base text with
  | case1 => rfl
  | case2 => rfl
  | case3 rest =>
    have later : c ∈ rest := by simpa [noSign] using listed
    exact continued?_eq_none foreign later 0
  | case4 => exact continued?_eq_none foreign listed 0

/-- What is written for a natural number are digits. -/
theorem isDigit_of_mem_decimal {n : Nat} {c : Char} (listed : c ∈ decimal n) : c.isDigit = true :=
  Nat.isDigit_of_mem_toDigits (by decide) (by decide) listed

/-- A natural number is read back from its digits. -/
theorem natural?_decimal (n : Nat) : natural? 10 (decimal n) = some n := by
  have digits : ∀ c ∈ decimal n, c.isDigit = true := fun _ => isDigit_of_mem_decimal
  have read : continued? 10 0 (decimal n) = some n := by
    rw [continued?_digits digits, decimal, Nat.ofDigitChars_toDigits (by decide) (by decide)]
  -- The first digit is no sign.
  cases written : decimal n with
  | nil => exact absurd written Nat.toDigits_ne_nil
  | cons c rest =>
    have isDigit : c.isDigit = true := digits c (written ▸ List.mem_cons_self)
    have noSign : ∀ others, c :: rest = '+' :: others → False := by
      rintro others ⟨⟩
      cases isDigit
    rw [written] at read
    rw [natural?, read]
    · simp
    · exact noSign []
    · exact noSign

/-- An integer is read back unless it is below zero. -/
theorem natural?_ofInt (n : Int) :
    natural? 10 (ofInt n) = if 0 ≤ n then some n.toNat else none := by
  cases n with
  | ofNat n => simp [ofInt, natural?_decimal]
  | negSucc n =>
    rw [if_neg (by omega)]
    rfl

/-- Integers are written in digits, behind a minus sign if they are below zero. -/
theorem mem_ofInt {n : Int} {c : Char} (listed : c ∈ ofInt n) : c = '-' ∨ c.isDigit = true := by
  cases n with
  | ofNat n => exact .inr (isDigit_of_mem_decimal listed)
  | negSucc n => exact (List.mem_cons.mp listed).imp_right isDigit_of_mem_decimal

/-- Natural numbers are written alike only if they are the same. -/
theorem decimal_inj {m n : Nat} : decimal m = decimal n ↔ m = n := by
  refine ⟨fun same => ?_, congrArg decimal⟩
  have read := natural?_decimal m
  rw [same, natural?_decimal] at read
  exact (Option.some.inj read).symm

/-- Integers are written alike only if they are the same. -/
theorem ofInt_inj {m n : Int} : ofInt m = ofInt n ↔ m = n := by
  -- No digits begin with a minus sign.
  have signed (k l : Nat) : decimal k ≠ '-' :: decimal l := by
    intro same
    have isDigit := isDigit_of_mem_decimal (n := k) (same ▸ List.mem_cons_self)
    cases isDigit
  cases m with
  | ofNat m =>
    cases n with
    | ofNat n => exact decimal_inj.trans Int.ofNat_inj.symm
    | negSucc n => simp [ofInt, signed]
  | negSucc m =>
    cases n with
    | ofNat n => simpa [ofInt] using Ne.symm (signed n (m + 1))
    | negSucc n => simp [ofInt, decimal_inj]

end Templates.Text
