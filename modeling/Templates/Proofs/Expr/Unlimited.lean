import Templates.Expr.Eval

/-!
No expression complains about a loop.

The only complaints that expressions let pass are those about unknown variables, so what a loop
complains about is never taken for null.
-/

namespace Templates

/-- A result that is not the complaint of a loop. -/
def Unlimited {α : Type} (result : Except EvalError α) : Prop :=
  ∀ limit, result ≠ .error (.loopLimit limit)

namespace Unlimited

variable {α β : Type} {result : Except EvalError α}

/-- A value is no complaint. -/
theorem ok (a : α) : Unlimited (.ok a) :=
  fun _ same => by cases same

/-- What follows on a result does not complain about a loop if neither does by itself. -/
theorem bind (unlimited : Unlimited result) {onward : α → Except EvalError β}
    (others : ∀ a, Unlimited (onward a)) : Unlimited (result >>= onward) := by
  cases result with
  | error e =>
    intro limit same
    exact unlimited limit (congrArg Except.error (Except.error.inj same))
  | ok a => exact others a

/-- What a result fails with that is no complaint of a loop. -/
theorem ne (unlimited : Unlimited result) {e : EvalError} (failed : result = .error e)
    (limit : Nat) : e ≠ .loopLimit limit :=
  fun same => unlimited limit (failed.trans (congrArg Except.error same))

/-- A complaint about a loop comes from what follows on a result that is none. -/
theorem exists_of_bind (unlimited : Unlimited result) {onward : α → Except EvalError β}
    {limit : Nat} (failed : result >>= onward = .error (.loopLimit limit)) :
    ∃ a, result = .ok a ∧ onward a = .error (.loopLimit limit) := by
  cases result with
  | error e => exact absurd (Except.error.inj failed) (unlimited.ne rfl limit)
  | ok a => exact ⟨a, rfl, failed⟩

/-- A function of the value changes nothing about the complaint. -/
theorem map (unlimited : Unlimited result) (f : α → β) : Unlimited (result.map f) := by
  cases result with
  | error e =>
    intro limit same
    exact unlimited limit (congrArg Except.error (Except.error.inj same))
  | ok a => exact ok (f a)

/-- A value that takes the place of an unknown variable is no complaint. -/
theorem lenient {result : Except EvalError Value} (unlimited : Unlimited result) :
    Unlimited (Templates.lenient result) := by
  unfold Templates.lenient
  split
  · exact ok Value.null
  · exact unlimited

end Unlimited

namespace Value

open Unlimited

/-- Counting entries complains about what has none. -/
theorem count_unlimited (value : Value) : Unlimited value.count := by
  cases value <;> simp [count, Unlimited]

/-- An arithmetic result may only be too large. -/
theorem ofRounded_unlimited (sign : Text) (rounded : Rounded) :
    Unlimited (ofRounded sign rounded) := by
  cases rounded <;> simp [ofRounded, Unlimited]

/-- Operands may only fail to be numbers. -/
theorem operands_unlimited (op : BinaryOp) (left right : Value) :
    Unlimited (operands op left right) := by
  unfold operands
  split <;> simp [Unlimited]

/-- Comparing complains about operands only. -/
theorem compare_unlimited (op : BinaryOp) (left right : Value) :
    Unlimited (compare op left right) := by
  unfold compare
  split
  · exact ok _
  · exact (operands_unlimited op left right).map _

/-- Dividing complains about operands, about zero and about a result that is too large. -/
theorem divide_unlimited (op : BinaryOp) (quotient : Binary64 → Binary64 → Rounded)
    (left right : Value) : Unlimited (divide op quotient left right) := by
  refine (operands_unlimited op left right).bind fun (a, b) => ?_
  show Unlimited (if b.isZero then _ else _)
  split
  · simp [Unlimited]
  · exact ofRounded_unlimited _ _

/-- No operator complains about a loop. -/
theorem binary_unlimited (op : BinaryOp) (left right : Value) :
    Unlimited (binary op left right) := by
  have arithmetic (f : Binary64 → Binary64 → Rounded) :
      Unlimited (operands op left right >>= fun pair => ofRounded op.text (f pair.1 pair.2)) :=
    (operands_unlimited op left right).bind fun _ => ofRounded_unlimited _ _
  -- Operators compute with numbers, compare, divide or always have a value.
  cases op with
  | add =>
    -- A text on either side is put together with the other operand.
    simp only [binary]
    split
    · exact ok _
    · exact ok _
    · exact arithmetic Binary64.add
  | subtract => exact arithmetic Binary64.sub
  | multiply => exact arithmetic Binary64.mul
  | divide => exact divide_unlimited _ _ left right
  | modulo => exact divide_unlimited _ _ left right
  | less | lessOrEqual | greater | greaterOrEqual => exact (compare_unlimited _ left right).map _
  | equals | notEquals | and | or | coalesce => exact ok _

end Value

namespace Expr

open Unlimited

/-- No expression complains about a loop. -/
theorem eval_unlimited (data : Data) (e : Expr) : Unlimited (e.eval data) := by
  induction e using Expr.eval.induct data with
  | case1 value => exact ok value
  | case2 name value found =>
    simp only [Expr.eval, found]
    exact ok value
  | case3 name missing => simp [Expr.eval, missing, Unlimited]
  | case4 object name ih => exact ih.map _
  | case5 object place ihObject ihPlace =>
    refine ihObject.bind fun container => ihPlace.bind fun found => ?_
    -- Only texts and numbers are names of members.
    split <;> exact ok _
  | case6 operand ih => exact ih.map _
  | case7 operand ih =>
    refine ih.bind fun value => ?_
    split
    · exact Value.ofRounded_unlimited _ _
    · simp [Unlimited]
  | case8 left right ihLeft ihRight =>
    -- What is let pass on the left is no complaint of a loop.
    refine ihLeft.lenient.bind fun first => ?_
    split
    · exact ihRight
    · exact ok first
  | case9 left right ihLeft ihRight =>
    refine ihLeft.bind fun first => ?_
    split
    · exact ihRight.map _
    · exact ok _
  | case10 left right ihLeft ihRight =>
    refine ihLeft.bind fun first => ?_
    split
    · exact ok _
    · exact ihRight.map _
  | case11 left op right isCoalesce isAnd isOr ihLeft ihRight =>
    have both := ihLeft.bind fun first => ihRight.bind fun second =>
      Value.binary_unlimited op first second
    rwa [Expr.eval] <;> assumption
  | case12 name arguments unknown => simp [Expr.eval, unknown, Unlimited]
  | case13 name x known ih =>
    simp only [Expr.eval, known]
    exact ih.lenient.map _
  | case14 name x other known ih ihOther =>
    simp only [Expr.eval, known]
    refine ih.lenient.bind fun value => ?_
    split
    · exact ihOther
    · exact ihOther
    · exact ok value
  | case15 name x known ih =>
    simp only [Expr.eval, known]
    exact ih.bind fun value => (Value.count_unlimited value).bind fun n => ok _
  | case16 name x known ih | case17 name x known ih | case18 name x known ih
  | case19 name x known ih =>
    simp only [Expr.eval, known]
    exact ih.map _
  | case20 name function arguments _ _ _ _ _ _ _ known =>
    rw [Expr.eval.eq_def]
    simp only [known]
    simp [Unlimited]

end Expr

end Templates
