import Templates.Text.Search

/-! A search finds the first occurrence of a text, and none is left in front of it. -/

namespace Templates.Text

/-- A text starts with another one if that is a first part of it. -/
theorem startsWith_iff {start text : Text} : startsWith start text = true ↔ start <+: text := by
  rw [startsWith, Option.isSome_iff_exists]
  constructor
  · rintro ⟨rest, stripped⟩
    exact ⟨rest, (eq_append_of_strip? stripped).symm⟩
  · rintro ⟨rest, rfl⟩
    exact ⟨rest, strip?_append start rest⟩

/-- A text without a needle does not begin with it, and neither does what follows its first
character hold it. -/
theorem contains_cons {needle : Text} {c : Char} {rest : Text}
    (absent : contains needle (c :: rest) = false) :
    strip? needle (c :: rest) = none ∧ contains needle rest = false := by
  -- The search looks at every position, the first one included.
  cases stripped : strip? needle (c :: rest) with
  | some after => simp [contains, cut?, stripped] at absent
  | none => simpa [contains, cut?, stripped] using absent

/-- A text contains what stands somewhere in it. -/
theorem contains_iff {needle text : Text} : contains needle text = true ↔ needle <:+: text := by
  induction text with
  | nil => cases needle <;> simp [contains, cut?]
  | cons c rest ih =>
    -- A needle stands at the front, or else in what follows the first character.
    rw [List.infix_cons_iff, ← startsWith_iff, ← ih]
    cases stripped : strip? needle (c :: rest) with
    | some after => simp [contains, cut?, startsWith, stripped]
    | none => simp [contains, cut?, startsWith, stripped]

/-- The two parts of a text that was cut, with the needle between them, make up the text. -/
theorem eq_of_cut? {needle text front back : Text} (cut : cut? needle text = some (front, back)) :
    text = front ++ needle ++ back := by
  -- The search walks along the text, so that the part in front grows with each step.
  induction text generalizing front with
  | nil =>
    -- Only the empty needle is found in the empty text.
    cases needle with
    | nil =>
      cases cut
      rfl
    | cons c needle => cases cut
  | cons c rest ih =>
    rw [cut?] at cut
    split at cut
    · -- The needle stands at the front, where nothing is passed over.
      rename_i after stripped
      cases cut
      exact eq_append_of_strip? stripped
    · -- Everything in front of a later occurrence is passed over.
      obtain ⟨⟨front', back'⟩, later, same⟩ := Option.map_eq_some_iff.mp cut
      cases same
      rw [ih later]
      rfl

/-- In front of the place where a text was cut there is no needle. -/
theorem contains_of_cut? {needle text front back : Text} (filled : needle ≠ [])
    (cut : cut? needle text = some (front, back)) : contains needle front = false := by
  have nowhere : contains needle [] = false := by
    simp [contains, cut?, filled]
  induction text generalizing front with
  | nil => simp [cut?, filled] at cut
  | cons c rest ih =>
    have whole := eq_of_cut? cut
    rw [cut?] at cut
    split at cut
    · -- Nothing is passed over, and the empty text holds no needle.
      cases cut
      exact nowhere
    · rename_i missing
      obtain ⟨⟨front', back'⟩, later, same⟩ := Option.map_eq_some_iff.mp cut
      cases same
      have inside := ih later
      -- An occurrence at the front of the part would be one at the front of the text.
      cases stripped : strip? needle (c :: front') with
      | none => simpa [contains, cut?, stripped] using inside
      | some after =>
        rw [whole, eq_append_of_strip? stripped, List.append_assoc, List.append_assoc,
          strip?_append] at missing
        cases missing

/-- A text that does not begin with a needle does not do so in front of another one either, unless
that one completes the needle. -/
theorem startsWith_append {needle front rest : Text} (filled : front ≠ [])
    (missing : startsWith needle front = false)
    (apart : ∀ k < needle.length, 0 < k → ¬needle.drop k <+: rest) :
    startsWith needle (front ++ rest) = false := by
  rw [Bool.eq_false_iff, Ne, startsWith_iff] at missing ⊢
  rintro ⟨after, whole⟩
  obtain ⟨between, same, -⟩ | ⟨between, same, behind⟩ := List.append_eq_append_iff.mp whole
  · -- The needle would lie in the text in front, which does not begin with it.
    exact missing ⟨between, same.symm⟩
  · -- The needle would begin in the text in front and end in what follows it.
    by_cases empty : between = []
    · rw [empty, List.append_nil] at same
      exact missing ⟨[], by rw [List.append_nil, same]⟩
    · have short : front.length < needle.length := by
        have := List.length_pos_iff.mpr empty
        rw [same, List.length_append]
        omega
      refine apart front.length short (List.length_pos_iff.mpr filled) ?_
      rw [same, List.drop_left, behind]
      exact List.prefix_append between after

/-- A needle is found behind a text that does not hold it, if no proper end of the needle is also a
beginning of it. -/
theorem cut?_append {needle front : Text} (filled : needle ≠ [])
    (alone : ∀ k < needle.length, 0 < k → ¬needle.drop k <+: needle)
    (absent : contains needle front = false) (back : Text) :
    cut? needle (front ++ needle ++ back) = some (front, back) := by
  -- What follows the text begins with the needle, which does not complete itself.
  have apart : ∀ k < needle.length, 0 < k → ¬needle.drop k <+: needle ++ back := by
    intro k short positive completes
    refine alone k short positive (List.prefix_of_prefix_length_le completes ⟨back, rfl⟩ ?_)
    rw [List.length_drop]
    omega
  induction front with
  | nil =>
    cases needle with
    | nil => exact absurd rfl filled
    | cons c needle =>
      -- The needle is found where it begins.
      have here := strip?_append (c :: needle) back
      rw [List.cons_append] at here
      rw [List.nil_append, List.cons_append, cut?, here]
  | cons c front ih =>
    obtain ⟨missing, absent⟩ := contains_cons absent
    have later := ih absent
    have skipped : strip? needle (c :: (front ++ needle ++ back)) = none := by
      have notHere : startsWith needle (c :: front) = false := by rw [startsWith, missing]; rfl
      have whole := startsWith_append (List.cons_ne_nil c front) notHere apart
      rw [startsWith, Option.isSome_eq_false_iff, Option.isNone_iff_eq_none] at whole
      rwa [List.append_assoc]
    rw [List.cons_append, List.cons_append, cut?, skipped, later]
    rfl

/-- A needle is found behind a text that does not hold its first character. -/
theorem cut?_of_notMem {c : Char} {front : Text} (absent : c ∉ front) (needle back : Text) :
    cut? (c :: needle) (front ++ (c :: needle ++ back)) = some (front, back) := by
  induction front with
  | nil =>
    have here := strip?_append (c :: needle) back
    rw [List.cons_append] at here ⊢
    rw [List.nil_append, cut?, here]
  | cons d front ih =>
    obtain ⟨other, absent⟩ := List.ne_and_not_mem_of_not_mem_cons absent
    have missing : strip? (c :: needle) (d :: (front ++ (c :: needle ++ back))) = none := by
      simp [strip?, other]
    rw [List.cons_append, cut?, missing, ih absent]
    rfl

/-- A needle is found where it stands, or in front of that. -/
theorem exists_cut?_le (needle front back : Text) :
    ∃ first after, cut? needle (front ++ (needle ++ back)) = some (first, after) ∧
      first.length ≤ front.length := by
  induction front with
  | nil =>
    have here := strip?_append needle back
    rw [List.nil_append]
    cases whole : needle ++ back with
    | nil =>
      obtain ⟨rfl, rfl⟩ := List.append_eq_nil_iff.mp whole
      exact ⟨[], [], rfl, Nat.le_refl 0⟩
    | cons c rest =>
      rw [whole] at here
      exact ⟨[], back, by rw [cut?, here], Nat.le_refl 0⟩
  | cons c front ih =>
    obtain ⟨first, after, cut, earlier⟩ := ih
    rw [List.cons_append, cut?]
    cases strip? needle (c :: (front ++ (needle ++ back))) with
    | some after => exact ⟨[], after, rfl, Nat.zero_le _⟩
    | none => exact ⟨c :: first, after, by rw [cut]; rfl, Nat.succ_le_succ earlier⟩

/-- What is stripped off a text is stripped off it with any other text behind it. -/
theorem strip?_append_right {start text rest : Text} (stripped : strip? start text = some rest)
    (back : Text) : strip? start (text ++ back) = some (rest ++ back) := by
  rw [eq_append_of_strip? stripped, List.append_assoc, strip?_append]

/-- A text is cut at the same place with any other text behind it. -/
theorem cut?_append_right {needle text front rest : Text}
    (cut : cut? needle text = some (front, rest)) (filled : needle ≠ []) (back : Text) :
    cut? needle (text ++ back) = some (front, rest ++ back) := by
  induction text generalizing front with
  | nil => simp [cut?, filled] at cut
  | cons c text ih =>
    have whole := eq_of_cut? cut
    rw [cut?] at cut
    rw [List.cons_append, cut?]
    cases stripped : strip? needle (c :: text) with
    | some after =>
      simp only [stripped] at cut
      cases cut
      have again := strip?_append_right stripped back
      rw [List.cons_append] at again
      simp only [again]
    | none =>
      simp only [stripped] at cut
      obtain ⟨⟨front', rest'⟩, later, same⟩ := Option.map_eq_some_iff.mp cut
      cases same
      -- The text is long enough for the needle, so that what follows it does not matter here.
      have missing : strip? needle (c :: (text ++ back)) = none := by
        cases found : strip? needle (c :: (text ++ back)) with
        | none => rfl
        | some after =>
          have long : needle.length ≤ (c :: text).length := by
            rw [whole]
            simp
            omega
          have begins : needle <+: (c :: text) ++ back := ⟨after, (eq_append_of_strip? found).symm⟩
          obtain ⟨after', same⟩ :=
            List.prefix_of_prefix_length_le begins (List.prefix_append (c :: text) back) long
          rw [← same, strip?_append] at stripped
          cases stripped
      simp only [missing, ih later, Option.map_some]

/-- A single character is replaced wherever it stands. -/
theorem replace_single (c : Char) (new text : Text) :
    replace [c] new text = text.flatMap fun d => if c = d then new else [d] := by
  -- A needle of one character leaves nothing to skip, so that each step reads one character.
  rw [replace]
  induction text with
  | nil => rfl
  | cons d rest ih =>
    rw [replaceFrom, List.flatMap_cons, ← ih]
    by_cases same : c = d
    · simp [startsWith, strip?, same]
    · simp [startsWith, strip?, same]

/-- A text without a character has nothing of it to replace. -/
theorem replace_of_notMem {c : Char} {text : Text} (absent : c ∉ text) (new : Text) :
    replace [c] new text = text := by
  rw [replace_single]
  induction text with
  | nil => rfl
  | cons d rest ih =>
    obtain ⟨other, absent⟩ := List.ne_and_not_mem_of_not_mem_cons absent
    rw [List.flatMap_cons, if_neg other, ih absent]
    rfl

/-- A character that was replaced by others is gone. -/
theorem notMem_replace {c : Char} {new : Text} (other : c ∉ new) (text : Text) :
    c ∉ replace [c] new text := by
  -- What stands in the new text either came in or was there, and was then another character.
  rw [replace_single, List.mem_flatMap]
  rintro ⟨d, -, listed⟩
  split at listed
  · exact other listed
  · rename_i different
    exact different (List.mem_singleton.mp listed)

/-- A text is split in one way only at the first place of a character. -/
theorem eq_of_first {c : Char} {front other back behind : Text} (absent : c ∉ front)
    (absentOther : c ∉ other) (same : front ++ c :: back = other ++ c :: behind) :
    front = other ∧ back = behind := by
  induction front generalizing other with
  | nil =>
    cases other with
    | nil => exact ⟨rfl, (List.cons.inj same).2⟩
    | cons d other =>
      obtain ⟨rfl, -⟩ := List.cons.inj same
      exact absurd List.mem_cons_self absentOther
  | cons d front ih =>
    obtain ⟨different, absent⟩ := List.ne_and_not_mem_of_not_mem_cons absent
    cases other with
    | nil =>
      obtain ⟨rfl, -⟩ := List.cons.inj same
      exact absurd rfl different
    | cons e other =>
      obtain ⟨heads, tails⟩ := List.cons.inj same
      obtain ⟨-, absentOther⟩ := List.ne_and_not_mem_of_not_mem_cons absentOther
      obtain ⟨rfl, rfl⟩ := ih absent absentOther tails
      exact ⟨by rw [heads], rfl⟩

/-- The characters in front of the first one that is not of a kind are taken. -/
theorem takeWhile_append {kind : Char → Bool} {front back : Text}
    (all : ∀ c ∈ front, kind c = true) (stops : ∀ c, back.head? = some c → kind c = false) :
    (front ++ back).takeWhile kind = front := by
  rw [List.takeWhile_append_of_pos all]
  cases back with
  | nil => simp
  | cons c back => simp [stops c rfl]

/-- What is left begins with the first character that is not of a kind. -/
theorem dropWhile_append {kind : Char → Bool} {front back : Text}
    (all : ∀ c ∈ front, kind c = true) (stops : ∀ c, back.head? = some c → kind c = false) :
    (front ++ back).dropWhile kind = back := by
  rw [List.dropWhile_append_of_pos all]
  cases back with
  | nil => rfl
  | cons c back => simp [stops c rfl]

end Templates.Text
