import Templates.Text.Blank

/-! Trimming takes away the blanks at the ends of a text, and nothing else. -/

namespace Templates.Text

/-- A text that is not empty after its leading blanks are gone begins with no blank. -/
theorem trimStart_of_head {c : Char} (marked : isBlank c = false) (rest : Text) :
    trimStart (c :: rest) = c :: rest :=
  List.dropWhile_cons_of_neg (by simp [marked])

/-- A blank in front of a text is trimmed. -/
theorem trimStart_of_blank {c : Char} (blank : isBlank c = true) (rest : Text) :
    trimStart (c :: rest) = trimStart rest :=
  List.dropWhile_cons_of_pos blank

/-- Leading blanks are trimmed all at once. -/
theorem trimStart_trimStart (text : Text) : trimStart (trimStart text) = trimStart text := by
  -- The second time there is no blank in front.
  induction text with
  | nil => rfl
  | cons c text ih =>
    cases blank : isBlank c with
    | true => rw [trimStart_of_blank blank, ih]
    | false => rw [trimStart_of_head blank, trimStart_of_head blank]

/-- A blank behind a text is trimmed. -/
theorem trimEnd_concat_blank {c : Char} (blank : isBlank c = true) (text : Text) :
    trimEnd (text ++ [c]) = trimEnd text := by
  simp [trimEnd, blank]

/-- A text that ends with no blank keeps its end. -/
theorem trimEnd_concat {c : Char} (marked : isBlank c = false) (text : Text) :
    trimEnd (text ++ [c]) = text ++ [c] := by
  simp [trimEnd, marked]

/-- Trailing blanks are trimmed all at once. -/
theorem trimEnd_trimEnd (text : Text) : trimEnd (trimEnd text) = trimEnd text := by
  -- The end of a text is trimmed like the front of its reverse.
  have once := trimStart_trimStart text.reverse
  simp only [trimStart] at once
  simp only [trimEnd, List.reverse_reverse, once]

/-- What is left of the end of a text is left behind any other text. -/
theorem trimEnd_append {back : Text} (stays : trimEnd back ≠ []) (front : Text) :
    trimEnd (front ++ back) = front ++ trimEnd back := by
  -- From the end the blanks stop before the front is reached.
  have filled : (back.reverse.dropWhile isBlank).isEmpty = false := by
    rw [trimEnd] at stays
    rw [List.isEmpty_eq_false_iff]
    exact fun empty => stays (by rw [empty]; rfl)
  rw [trimEnd, List.reverse_append, List.dropWhile_append, filled]
  simp [trimEnd]

/-- What is trimmed as a whole takes nothing with it. -/
theorem trimEnd_append_of_empty {back : Text} (empty : trimEnd back = []) (front : Text) :
    trimEnd (front ++ back) = trimEnd front := by
  -- From the end the blanks go on in the front.
  have dropped : back.reverse.dropWhile isBlank = [] := by
    rw [trimEnd, List.reverse_eq_nil_iff] at empty
    exact empty
  rw [trimEnd, List.reverse_append, List.dropWhile_append, dropped]
  rfl

/-- A text that begins with no blank still begins so after its trailing blanks are gone. -/
theorem trimEnd_cons {c : Char} (marked : isBlank c = false) (rest : Text) :
    trimEnd (c :: rest) = c :: trimEnd rest := by
  -- The character is kept by itself, and in front of anything that is kept.
  have first : trimEnd [c] = [c] := trimEnd_concat marked []
  by_cases empty : trimEnd rest = []
  · rw [empty, ← first]
    exact trimEnd_append_of_empty empty [c]
  · exact trimEnd_append empty [c]

/-- A trimmed text does not begin with a blank. -/
theorem trimStart_trim (text : Text) : trimStart (trim text) = trim text := by
  -- What is left of the front begins with no blank, and is not trimmed from the end.
  rw [trim]
  cases start : trimStart text with
  | nil => rfl
  | cons c rest =>
    have marked : isBlank c = false := by
      have head := List.head?_dropWhile_not isBlank text
      rw [show text.dropWhile isBlank = c :: rest from start] at head
      simpa using head
    rw [trimEnd_cons marked, trimStart_of_head marked]

/-- A trimmed text does not end with a blank. -/
theorem trimEnd_trim (text : Text) : trimEnd (trim text) = trim text :=
  trimEnd_trimEnd (trimStart text)

/-- All blanks at the ends of a text are trimmed at once. -/
theorem trim_trim (text : Text) : trim (trim text) = trim text := by
  rw [trim, trimStart_trim, trimEnd_trim]

/-- The ends of a text are trimmed in either order. -/
theorem trimStart_trimEnd (text : Text) : trimStart (trimEnd text) = trim text := by
  induction text with
  | nil => rfl
  | cons c rest ih =>
    cases blank : isBlank c with
    | false => rw [trim, trimStart_of_head blank, trimEnd_cons blank, trimStart_of_head blank]
    | true =>
      have whole : trim (c :: rest) = trim rest := by rw [trim, trimStart_of_blank blank, ← trim]
      rw [whole, ← ih]
      by_cases empty : trimEnd rest = []
      · -- A blank goes with the blanks behind it.
        have gone : trimEnd (c :: rest) = trimEnd [c] := trimEnd_append_of_empty empty [c]
        rw [gone, empty]
        exact congrArg trimStart (trimEnd_concat_blank blank [])
      · have kept : trimEnd (c :: rest) = c :: trimEnd rest := trimEnd_append empty [c]
        rw [kept, trimStart_of_blank blank]

/-- Trimming adds no characters. -/
theorem mem_of_mem_trim {c : Char} {text : Text} (member : c ∈ trim text) : c ∈ text := by
  -- Both trims take characters away.
  have inner : c ∈ (trimStart text).reverse :=
    (List.dropWhile_sublist isBlank).subset (List.mem_reverse.mp member)
  exact (List.dropWhile_sublist isBlank).subset (List.mem_reverse.mp inner)

/-- Nothing is left of a text without its leading blanks exactly when it is blank. -/
theorem trimStart_eq_nil_iff {text : Text} : trimStart text = [] ↔ isAllBlank text = true := by
  induction text with
  | nil => simp [trimStart, isAllBlank]
  | cons c text ih =>
    cases blank : isBlank c with
    | true => simpa [trimStart_of_blank blank, isAllBlank, blank] using ih
    | false => simp [trimStart_of_head blank, isAllBlank, blank]

/-- Nothing is left of a text without its trailing blanks exactly when it is blank. -/
theorem trimEnd_eq_nil_iff {text : Text} : trimEnd text = [] ↔ isAllBlank text = true := by
  -- A text is blank if its reverse is.
  rw [trimEnd, List.reverse_eq_nil_iff]
  have reversed : trimStart text.reverse = [] ↔ isAllBlank text.reverse = true :=
    trimStart_eq_nil_iff
  rwa [isAllBlank, List.all_reverse] at reversed

/-- Nothing is left of a trimmed text exactly when it is blank. -/
theorem trim_eq_nil_iff {text : Text} : trim text = [] ↔ isAllBlank text = true := by
  constructor
  · intro empty
    -- What was left of the front would be blank, but it begins with no blank.
    have blank := trimEnd_eq_nil_iff.mp empty
    rw [← trimStart_eq_nil_iff, trimStart_trimStart] at blank
    exact trimStart_eq_nil_iff.mp blank
  · intro blank
    rw [trim, trimStart_eq_nil_iff.mpr blank]
    rfl

/-- Blanks in front of a text are trimmed all at once. -/
theorem trimStart_append_of_blank {front : Text} (blank : isAllBlank front = true) (back : Text) :
    trimStart (front ++ back) = trimStart back :=
  List.dropWhile_append_of_pos (List.all_eq_true.mp blank)

/-- What is left of the front of a text is left in front of any other text. -/
theorem trimStart_append {front : Text} (stays : trimStart front ≠ []) (back : Text) :
    trimStart (front ++ back) = trimStart front ++ back := by
  have filled : (front.dropWhile isBlank).isEmpty = false := List.isEmpty_eq_false_iff.mpr stays
  rw [trimStart, List.dropWhile_append, filled]
  rfl

/-- A character that is no blank does not stand in a blank text. -/
theorem notMem_of_isAllBlank {c : Char} {text : Text} (blank : isAllBlank text = true)
    (marked : isBlank c = false) : c ∉ text := by
  intro member
  rw [List.all_eq_true.mp blank c member] at marked
  cases marked

/-- A text is what is left of its end and the blanks behind that. -/
theorem exists_trimEnd_append (text : Text) :
    ∃ blanks, isAllBlank blanks = true ∧ trimEnd text ++ blanks = text := by
  refine ⟨(text.reverse.takeWhile isBlank).reverse, ?_, ?_⟩
  · rw [isAllBlank, List.all_reverse]
    exact List.all_takeWhile
  · rw [trimEnd, ← List.reverse_append, List.takeWhile_append_dropWhile, List.reverse_reverse]

end Templates.Text
