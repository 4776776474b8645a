import Templates.Directive.Marker

/-! Expressions whose parentheses pair up are read whole by the search for the closing one. -/

namespace Templates

/-- What may stand between two quotes of one kind: a backslash takes the next character with it. -/
inductive Unquoted (quote : Char) : Text → Prop where
  | nil : Unquoted quote []
  | escaped (c : Char) {rest : Text} : Unquoted quote rest → Unquoted quote ('\\' :: c :: rest)
  | plain {c : Char} {rest : Text} :
    c ≠ quote → c ≠ '\\' → Unquoted quote rest → Unquoted quote (c :: rest)

/-- The two characters that begin and end a part in which parentheses do not count. -/
def IsQuote (c : Char) : Prop :=
  c = '"' ∨ c = '\''

instance (c : Char) : Decidable (IsQuote c) :=
  inferInstanceAs (Decidable (_ ∨ _))

/-- A quote is one byte. -/
theorem narrow_of_isQuote {quote : Char} (isQuote : IsQuote quote) : quote.utf8Size = 1 := by
  obtain rfl | rfl := isQuote <;> rfl

/-- A text whose quotes are closed and whose parentheses pair up outside of them. -/
inductive Balanced : Text → Prop where
  | nil : Balanced []
  | plain {c : Char} {rest : Text} :
    c ≠ '(' → c ≠ ')' → ¬ IsQuote c → Balanced rest → Balanced (c :: rest)
  | quoted {quote : Char} {body rest : Text} :
    IsQuote quote → Unquoted quote body → Balanced rest →
      Balanced (quote :: body ++ quote :: rest)
  | nested {inner rest : Text} :
    Balanced inner → Balanced rest → Balanced ('(' :: inner ++ ')' :: rest)

/-- A balanced text in front of another one keeps it balanced. -/
theorem Balanced.append {front back : Text} (first : Balanced front) (second : Balanced back) :
    Balanced (front ++ back) := by
  -- The constructors build a text from its front, so the back takes the place of the empty end.
  induction first with
  | nil => exact second
  | plain notOpen notClose notQuote _ ih => exact .plain notOpen notClose notQuote ih
  | quoted isQuote inside _ ih => simpa using Balanced.quoted isQuote inside ih
  | nested inside _ _ ih => simpa using Balanced.nested inside ih

namespace Marker

/-- A quote is no backslash, so it is never taken for the start of an escape. -/
theorem ne_backslash_of_isQuote {quote : Char} (isQuote : IsQuote quote) : quote ≠ '\\' := by
  rcases isQuote with rfl | rfl <;> decide

/-- A character in quotes that is no backslash ends them or leaves them open. -/
theorem balance?_inside {c : Char} (noEscape : c ≠ '\\') (depth : Nat) (quote : Char)
    (rest : Text) :
    balance? depth (some quote) (c :: rest) =
      (balance? depth (if c = quote then none else some quote) rest).map
        fun (inner, after) => (c :: inner, after) := by
  -- The first equation of the search asks for a backslash.
  rw [balance?]
  intro _ _ same
  exact absurd same noEscape

/-- The search goes on behind the quote that ends a quoted part, at the same depth. -/
theorem balance?_unquoted {quote : Char} (isQuote : IsQuote quote) {body : Text}
    (inside : Unquoted quote body) (depth : Nat) (rest : Text) :
    balance? depth (some quote) (body ++ quote :: rest) =
      (balance? depth none rest).map fun (inner, after) => (body ++ quote :: inner, after) := by
  -- The part is left at its first quote that no backslash takes away.
  induction inside with
  | nil =>
    simp [balance?_inside (ne_backslash_of_isQuote isQuote)]
  | escaped c _ ih =>
    simp only [List.cons_append, balance?, ih, Option.map_map]
    rfl
  | plain notQuote noEscape _ ih =>
    simp only [List.cons_append, balance?_inside noEscape, notQuote, if_false, ih, Option.map_map]
    rfl

/-- A balanced text inside of open parentheses is passed over without closing any of them. -/
theorem balance?_balanced {text : Text} (balanced : Balanced text) {depth : Nat}
    (inside : 1 ≤ depth) (rest : Text) :
    balance? depth none (text ++ rest) =
      (balance? depth none rest).map fun (inner, after) => (text ++ inner, after) := by
  -- A nested pair is entered one level deeper and left at the level it was entered from.
  induction balanced generalizing depth rest with
  | nil => simp
  | plain notOpen notClose notQuote _ ih =>
    simp only [IsQuote] at notQuote
    simp only [List.cons_append, balance?, notOpen, notClose, notQuote, false_and, if_false,
      ih inside, Option.map_map]
    rfl
  | @quoted quote body tail isQuote unquoted _ ih =>
    have notClose : quote ≠ ')' := by rcases isQuote with rfl | rfl <;> decide
    have notOpen : quote ≠ '(' := by rcases isQuote with rfl | rfl <;> decide
    have opens : quote = '"' ∨ quote = '\'' := isQuote
    simp only [List.cons_append, List.append_assoc, balance?, notOpen, notClose, opens, false_and,
      if_false, if_true, balance?_unquoted isQuote unquoted, ih inside, Option.map_map]
    rfl
  | @nested inner tail _ _ innerIh tailIh =>
    have deeper : ¬ depth + 1 ≤ 1 := by omega
    simp only [List.cons_append, List.append_assoc, balance?]
    simp [innerIh (Nat.le_add_left 1 depth), balance?, tailIh inside, Option.map_map, deeper]
    rfl

/-- The parenthesis behind a balanced text is the one that closes. -/
theorem balance?_close {text : Text} (balanced : Balanced text) (rest : Text) :
    balance? 1 none (text ++ ')' :: rest) = some (text, rest) := by
  rw [balance?_balanced balanced (Nat.le_refl 1)]
  simp [balance?]

end Marker

end Templates
