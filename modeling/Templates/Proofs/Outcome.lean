/-!
What is known of one step of a computation when the outcome of the whole is known.
-/

namespace Templates

variable {α β ε : Type}

/-- Steps that succeed together succeed one after the other. -/
theorem exists_of_bind {first : Except ε α} {next : α → Except ε β} {b : β}
    (done : first >>= next = .ok b) : ∃ a, first = .ok a ∧ next a = .ok b := by
  cases first with
  | error e => cases done
  | ok a => exact ⟨a, rfl, done⟩

/-- What is made of a result fails as the result does. -/
theorem map_eq_error_iff {f : α → β} {result : Except ε α} {error : ε} :
    result.map f = .error error ↔ result = .error error := by
  cases result <;> simp [Except.map]

/-- What a computation fails with. -/
def failure? : Except ε α → Option ε
  | .error error => some error
  | .ok _ => none

/-- A computation fails with what it is found to fail with. -/
theorem eq_error_of_failure? {result : Except ε α} {error : ε}
    (found : failure? result = some error) : result = .error error := by
  cases result with
  | error other => rw [Option.some.inj found]
  | ok a => cases found

end Templates
