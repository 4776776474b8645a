import Templates.Expr.Eval
import Templates.Expr.Parser
import Templates.Proofs.Number.Equal
import Templates.Proofs.Outcome

/-!
Members by number.

A number looks up a member by the text that data is written with, so numbers that compare as equal
can miss what the other one finds. Main statement: in records they find the same exactly if they are
the same number in the same form, and in lists exactly if they stand for the same place. Numbers in
the form that arithmetic gives are always the same.
-/

namespace Templates

namespace Number

/-- The place in a list that a number stands for: a fraction stands for none, even without a
fractional part. -/
def place? : Number → Option Nat
  | .whole n => if 0 ≤ n ∧ n < twoTo 64 then some n.toNat else none
  | .real _ => none

/-- Expressions for two numbers index a value alike, however they come to the numbers. -/
def IndexAlike (m n : Number) (container : Value) : Prop :=
  ∀ (data : Data) (object left right : Expr), object.eval data = .ok container →
    left.eval data = .ok (.number m) → right.eval data = .ok (.number n) →
      (Expr.index object left).eval data = (Expr.index object right).eval data

end Number

/-- What arithmetic gives as a number is in the form that it gives numbers. -/
theorem Value.settled_of_ofRounded {sign : Text} {result : Rounded} {n : Number}
    (gives : Value.ofRounded sign result = .ok (.number n)) : n.isSettled = true := by
  cases result with
  | infinite negative => cases gives
  | finite x =>
    obtain rfl : Number.ofFinite x = n := by simpa [Value.ofRounded] using gives
    exact Number.ofFinite_settled x

/-- A quotient or remainder is in the form that arithmetic gives. -/
theorem Value.settled_of_divide {op : BinaryOp} {quotient : Binary64 → Binary64 → Rounded}
    {left right : Value} {n : Number}
    (gives : Value.divide op quotient left right = .ok (.number n)) : n.isSettled = true := by
  obtain ⟨⟨a, b⟩, -, divided⟩ := exists_of_bind gives
  dsimp only at divided
  split at divided
  · cases divided
  · exact settled_of_ofRounded divided

/-- The operators other than coalescing give numbers in the form of arithmetic. -/
theorem Value.settled_of_binary {op : BinaryOp} (computes : op ≠ .coalesce) {left right : Value}
    {n : Number} (gives : Value.binary op left right = .ok (.number n)) : n.isSettled = true := by
  -- Comparisons and logical operators give no numbers at all.
  have compared {test : Ordering → Bool} :
      (Value.compare op left right).map (fun o => Value.bool (test o)) ≠ .ok (.number n) := by
    cases Value.compare op left right <;> simp [Except.map]
  have rounded {sign : Text} {operate : Binary64 × Binary64 → Rounded}
      (given : (do let pair ← Value.operands op left right
                   Value.ofRounded sign (operate pair)) = .ok (.number n)) :
      n.isSettled = true := by
    obtain ⟨pair, -, result⟩ := exists_of_bind given
    exact settled_of_ofRounded result
  cases op with
  | add =>
    simp only [Value.binary] at gives
    split at gives
    · cases gives
    · cases gives
    · exact rounded gives
  | subtract => exact rounded gives
  | multiply => exact rounded gives
  | divide => exact settled_of_divide gives
  | modulo => exact settled_of_divide gives
  | equals => cases gives
  | notEquals => cases gives
  | less => exact absurd gives compared
  | lessOrEqual => exact absurd gives compared
  | greater => exact absurd gives compared
  | greaterOrEqual => exact absurd gives compared
  | and => cases gives
  | or => cases gives
  | coalesce => exact absurd rfl computes

namespace Expr

/-- The value is computed from operands: no operand itself is handed on. -/
def isComputed : Expr → Bool
  | .unary _ _ => true
  | .binary _ op _ => op ≠ .coalesce
  | _ => false

/-- A computed number is in the form that arithmetic gives. -/
theorem settled_of_isComputed {e : Expr} (computed : e.isComputed = true) {data : Data} {n : Number}
    (gives : e.eval data = .ok (.number n)) : n.isSettled = true := by
  -- A logical operator gives a truth value, whichever operands it looks at.
  have mapped {result : Except EvalError Value} {test : Value → Bool} :
      result.map (fun value => Value.bool (test value)) ≠ .ok (.number n) := by
    cases result <;> simp [Except.map]
  cases e with
  | unary op operand =>
    cases op with
    | not => exact absurd gives mapped
    | negate =>
      obtain ⟨value, -, negated⟩ := exists_of_bind gives
      split at negated
      · exact Value.settled_of_ofRounded negated
      · cases negated
  | binary left op right =>
    have other : op ≠ .coalesce := by simpa [isComputed] using computed
    cases op with
    | coalesce => exact absurd rfl other
    | and =>
      obtain ⟨first, -, second⟩ := exists_of_bind gives
      split at second
      · exact absurd second mapped
      · cases second
    | or =>
      obtain ⟨first, -, second⟩ := exists_of_bind gives
      split at second
      · cases second
      · exact absurd second mapped
    | _ =>
      obtain ⟨first, -, rest⟩ := exists_of_bind gives
      obtain ⟨second, -, result⟩ := exists_of_bind rest
      exact Value.settled_of_binary other result
  | _ => cases computed

end Expr

namespace Number

/-- The text of a number is read as the place that the number stands for. -/
theorem place?_text (n : Number) : Value.place? n.text = n.place? := by
  cases n with
  | whole n =>
    rw [Value.place?, text, Text.natural?_ofInt, place?]
    by_cases sign : 0 ≤ n
    · have bound : n.toNat < twoTo 64 ↔ n < twoTo 64 := Int.toNat_lt sign
      simp [sign, Option.filter, bound]
    · simp [sign]
  | real x =>
    -- The point or the letter of a power is no digit.
    have unread : Text.natural? 10 x.pointText = none := by
      obtain point | power := x.point_or_power
      · exact Text.natural?_eq_none (c := '.') rfl (by decide) point
      · exact Text.natural?_eq_none (c := 'e') rfl (by decide) power
    rw [Value.place?, text, unread]
    rfl

/-- A list has under a number the item at the place that it stands for. -/
theorem member_list (n : Number) (items : List Value) :
    (Value.list items).member n.text = (n.place?.bind (items[·]?)).getD .null := by
  rw [Value.member, place?_text]

variable {m n : Number}

/-- What expressions give under a number depends on nothing but its text. -/
theorem indexAlike_iff {container : Value} :
    m.IndexAlike n container ↔ container.member m.text = container.member n.text := by
  constructor
  · intro alike
    exact Except.ok.inj <|
      alike [] (.literal container) (.literal (.number m)) (.literal (.number n)) rfl rfl rfl
  · intro same data object left right looked first second
    rw [Expr.eval, Expr.eval, looked, first, second]
    exact congrArg Except.ok same

/-- All records are indexed alike by two texts only if these are the same. -/
theorem text_of_records
    (alike : ∀ fields, (Value.record fields).member m.text = (Value.record fields).member n.text) :
    m.text = n.text := by
  -- The record has just the one field, and only its own name finds it.
  have found := alike [(m.text, .bool true)]
  by_cases same : m.text = n.text
  · exact same
  · simp [Value.member, Fields.get?, same] at found

/-- A place that finds its item in every list under another number is the one of that number. -/
theorem place_of_lists
    (alike : ∀ items, (Value.list items).member m.text = (Value.list items).member n.text)
    {i : Nat} (place : m.place? = some i) : n.place? = some i := by
  -- The list has something at its end only, and that is what the place finds.
  have found := alike (List.replicate i .null ++ [.bool true])
  rw [member_list, member_list, place] at found
  cases other : n.place? with
  | none => simp [other] at found
  | some j =>
    rw [other] at found
    by_cases before : j < i
    · simp [List.getElem?_append, before] at found
    · by_cases same : j = i
      · rw [same]
      · have behind : 0 < j - i := by omega
        obtain ⟨k, rest⟩ := Nat.exists_eq_add_of_lt behind
        simp [List.getElem?_append, before, rest] at found

end Number

/-- Numbers that compare as equal index all records alike exactly if they are the same number in the
same form, and all lists exactly if they stand for the same place. In the form of arithmetic, which
computed numbers have, they are the same. -/
theorem Expr.index_by_equal {m n : Number} (equal : m.sameValue n = true) :
    ((∀ fields, m.IndexAlike n (.record fields)) ↔ m = n) ∧
      ((∀ items, m.IndexAlike n (.list items)) ↔ m.place? = n.place?) ∧
      (m.isSettled = true → n.isSettled = true → m = n) ∧
      ∀ (data : Data) (left right : Expr), left.isComputed = true → right.isComputed = true →
        left.eval data = .ok (.number m) → right.eval data = .ok (.number n) → m = n := by
  simp only [Number.indexAlike_iff]
  refine ⟨⟨fun alike => ?_, fun same => ?_⟩, ⟨fun alike => ?_, fun same items => ?_⟩, ?_, ?_⟩
  · exact (Number.text_inj equal).mp (Number.text_of_records alike)
  · simp [same]
  · -- Each of the two numbers stands for the place of the other one.
    refine Option.ext fun i => ⟨Number.place_of_lists alike, Number.place_of_lists fun items => ?_⟩
    exact (alike items).symm
  · rw [Number.member_list, Number.member_list, same]
  · intro left right
    exact Number.eq_of_settled left right equal
  · intro data left right leftComputed rightComputed first second
    exact Number.eq_of_settled (settled_of_isComputed leftComputed first)
      (settled_of_isComputed rightComputed second) equal

/-- The number one as a fraction. -/
def Binary64.one : Binary64 :=
  ⟨false, ⟨1023 * twoTo 52, by decide⟩⟩

/-- The integer one and the fraction one are equal, and stand for different places. -/
theorem Expr.index_by_one :
    (Number.whole 1).sameValue (.real .one) = true ∧
      ¬ ∀ items, (Number.whole 1).IndexAlike (.real .one) (.list items) := by
  have equal : (Number.whole 1).sameValue (.real .one) = true := by decide +kernel
  obtain ⟨-, lists, -⟩ := Expr.index_by_equal equal
  have apart : (Number.whole 1).place? ≠ (Number.real .one).place? := by decide
  exact ⟨equal, fun alike => apart (lists.mp alike)⟩

/-- With a point the same number does not find the second item of a list. -/
theorem Expr.index_misses_fraction :
    let data : Data := [("xs".toList, .list [.number (.whole 10), .number (.whole 20)])]
    let found (n : Number) := (Expr.index (.var "xs".toList) (.literal (.number n))).eval data
    Literal.number? "1".toList = some (.whole 1) ∧
      Literal.number? "1.0".toList = some (.real .one) ∧
      Value.looseEquals (.number (.whole 1)) (.number (.real .one)) = true ∧
      found (.whole 1) = .ok (.number (.whole 20)) ∧ found (.real .one) = .ok .null := by
  intro data found
  refine ⟨by decide, by decide +kernel, by decide +kernel, rfl, ?_⟩
  exact congrArg Except.ok (Number.member_list (.real .one) _)

end Templates
