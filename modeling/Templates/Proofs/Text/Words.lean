import Templates.Text.Words

/-!
The characters of names that are lowered or spelled in other conventions.

Main statement: a name in snake case has no hyphen.
-/

namespace Templates.Text

/-- No letter becomes a character in front of the small ones when it is lowered. -/
theorem eq_of_toLower {c d : Char} (front : d.toNat < 97) (same : c.toLower = d) : c = d := by
  unfold Char.toLower at same
  split at same
  · -- A capital letter would become a small one, which is not in front of these.
    rename_i capital
    obtain ⟨above, below⟩ := capital
    have code := congrArg (fun d : Char => d.val.toNat) same
    simp only [ge_iff_le, UInt32.le_iff_toNat_le, UInt32.toNat_add] at above below code
    have firstCapital : 'A'.val.toNat = 65 := rfl
    have lastCapital : 'Z'.val.toNat = 90 := rfl
    have shift : ('a'.val - 'A'.val).toNat = 32 := rfl
    have number : d.val.toNat = d.toNat := rfl
    omega
  · exact same

/-- A character is a capital letter, or else it is its own small form. -/
theorem toLower_cases (c : Char) : (∃ n : Fin 26, c = Char.ofNat (65 + n)) ∨ c.toLower = c := by
  by_cases capital : c.val ≥ 65 ∧ c.val ≤ 90
  · have low : 65 ≤ c.toNat := capital.1
    have high : c.toNat ≤ 90 := capital.2
    refine .inl ⟨⟨c.toNat - 65, by omega⟩, ?_⟩
    have same : 65 + (c.toNat - 65) = c.toNat := by omega
    rw [same, Char.ofNat_toNat]
  · exact .inr (dif_neg capital)

/-- A letter and its small form differ in case only. -/
theorem fold_toLower (c : Char) : fold c.toLower = fold c := by
  have letters : ∀ n : Fin 26, fold (Char.ofNat (65 + n)).toLower = fold (Char.ofNat (65 + n)) := by
    decide +kernel
  rcases toLower_cases c with ⟨n, rfl⟩ | kept
  · exact letters n
  · rw [kept]

/-- A small form is its own small form. -/
theorem toLower_toLower (c : Char) : c.toLower.toLower = c.toLower := by
  have letters : ∀ n : Fin 26,
      (Char.ofNat (65 + n)).toLower.toLower = (Char.ofNat (65 + n)).toLower := by
    decide +kernel
  rcases toLower_cases c with ⟨n, rfl⟩ | kept
  · exact letters n
  · rw [kept, kept]

/-- A text in small letters stays as it is. -/
@[simp] theorem asciiLower_asciiLower (text : Text) :
    asciiLower (asciiLower text) = asciiLower text := by
  rw [asciiLower, asciiLower, List.map_map]
  exact List.map_congr_left fun c _ => toLower_toLower c

/-- A text is taken off the front of another that differs from it in the case of letters. -/
theorem isSome_stripCaseless? {start name rest : Text} (same : asciiLower name = start ++ rest)
    (back : Text) : (stripCaseless? start (name ++ back)).isSome = true := by
  induction start generalizing name with
  | nil => rfl
  | cons p start ih =>
    cases name with
    | nil => cases same
    | cons c name =>
      obtain ⟨first, others⟩ := List.cons.inj same
      rw [List.cons_append, stripCaseless?, if_pos (first ▸ fold_toLower c)]
      exact ih others

/-- The runs of a text consist of letters and numbers. -/
theorem alphanumeric_of_mem_runs {text run word : Text}
    (own : ∀ c ∈ run, isAlphanumeric c = true) (listed : word ∈ runs run text) :
    ∀ c ∈ word, isAlphanumeric c = true := by
  induction text generalizing run with
  | nil =>
    obtain rfl : word = run.reverse := List.mem_singleton.mp listed
    exact fun c within => own c (List.mem_reverse.mp within)
  | cons c rest ih =>
    rw [runs] at listed
    split at listed
    · next letter => exact ih (List.forall_mem_cons.mpr ⟨letter, own⟩) listed
    · -- The run ends, and the next one has no characters yet.
      obtain rfl | later := List.mem_cons.mp listed
      · exact fun c within => own c (List.mem_reverse.mp within)
      · exact ih (by simp) later

/-- The parts of a run have no other characters. -/
theorem mem_of_mem_splitRun {mode : WordMode} {front text word : Text}
    (listed : word ∈ splitRun mode front text) {c : Char} (within : c ∈ word) :
    c ∈ front ∨ c ∈ text := by
  fun_induction splitRun mode front text with
  | case1 => cases listed
  | case2 =>
    obtain rfl := List.mem_singleton.mp listed
    exact .inl (List.mem_reverse.mp within)
  | case3 mode front last =>
    obtain rfl := List.mem_singleton.mp listed
    simpa using within
  | case4 mode front first next rest mode' breaks ih =>
    obtain rfl | later := List.mem_cons.mp listed
    · have inside : c ∈ front ∨ c = first := by simpa using within
      exact inside.imp_right fun (same : c = first) => same ▸ List.mem_cons_self
    · obtain none | behind := ih later
      · cases none
      · exact .inr (List.mem_cons_of_mem _ behind)
  | case5 mode front first next rest mode' stays breaks ih =>
    obtain rfl | later := List.mem_cons.mp listed
    · exact .inl (List.mem_reverse.mp within)
    · obtain one | behind := ih later
      · exact .inr (List.mem_singleton.mp one ▸ List.mem_cons_self)
      · exact .inr (List.mem_cons_of_mem _ behind)
  | case6 mode front first next rest mode' stays goes ih =>
    obtain inside | behind := ih listed
    · obtain rfl | early := List.mem_cons.mp inside
      · exact .inr List.mem_cons_self
      · exact .inl early
    · exact .inr (List.mem_cons_of_mem _ behind)

/-- Words consist of letters and numbers. -/
theorem alphanumeric_of_mem_words {name word : Text} (listed : word ∈ words name) :
    ∀ c ∈ word, isAlphanumeric c = true := by
  obtain ⟨run, isRun, inRun⟩ := List.mem_flatMap.mp listed
  intro c within
  obtain none | inside := mem_of_mem_splitRun inRun within
  · cases none
  · exact alphanumeric_of_mem_runs (by simp) isRun c inside

/-- A number stands for the character that has it, or else for the first of all characters. -/
theorem toNat_ofNat (n : Nat) : (Char.ofNat n).toNat = n ∨ (Char.ofNat n).toNat = 0 := by
  by_cases valid : n.isValidChar
  · left
    rw [Char.ofNat, dif_pos valid]
    rfl
  · right
    rw [Char.ofNat, dif_neg valid]
    rfl

/-- No character becomes a hyphen when its number is moved. -/
theorem hyphen_lt_of_shift? {n m : Nat} (shifted : shift? CaseTable.toLower n = some m) :
    '-'.toNat < m := by
  obtain ⟨s, found, rfl⟩ := Option.map_eq_some_iff.mp shifted
  -- All ranges of the table move to numbers above the hyphen.
  have above : ∀ s ∈ CaseTable.toLower, 45 < (s.first : Int) + s.distance := by decide +kernel
  have range := above s (List.mem_of_find?_eq_some found)
  have inside : s.first ≤ n := by
    have tests := List.find?_some found
    simp only [Bool.and_eq_true, decide_eq_true_eq] at tests
    exact tests.1.1
  have hyphen : '-'.toNat = 45 := rfl
  have number : Int.ofNat n = n := rfl
  omega

/-- The hyphen is the small form of no other character. -/
theorem eq_hyphen_of_lowerForm {c : Char} (listed : '-' ∈ lowerForm c) : c = '-' := by
  rw [lowerForm] at listed
  split at listed
  · cases (by decide : '-' ∉ ['i', '\u0307']) listed
  · have form := List.mem_singleton.mp listed
    cases shifted : shift? CaseTable.toLower c.toNat with
    | none => rw [shifted] at form; exact form.symm
    | some n =>
      have above := hyphen_lt_of_shift? shifted
      have same : '-' = Char.ofNat n := by simpa [shifted] using form
      have hyphen : '-'.toNat = 45 := rfl
      obtain number | number := toNat_ofNat n
      all_goals
        rw [← same] at number
        omega

/-- A word in small letters has hyphens only where it had them before. -/
theorem hyphen_of_mem_lowerWord {word : Text} (listed : '-' ∈ lowerWord word) : '-' ∈ word := by
  fun_induction lowerWord word with
  | case1 => exact listed
  | case2 => cases (by decide : '-' ∉ ['ς']) listed
  | case3 c rest _ ih =>
    obtain first | later := List.mem_append.mp listed
    · exact eq_hyphen_of_lowerForm first ▸ List.mem_cons_self
    · exact List.mem_cons_of_mem _ (ih later)

/-- What is between the words is a separator. -/
theorem mem_intercalate {separator : Text} {pieces : List Text} {c : Char}
    (listed : c ∈ List.intercalate separator pieces) :
    c ∈ separator ∨ ∃ piece ∈ pieces, c ∈ piece := by
  induction pieces with
  | nil => simp [List.intercalate] at listed
  | cons first rest ih =>
    cases rest with
    | nil => exact .inr ⟨first, List.mem_cons_self, by simpa [List.intercalate] using listed⟩
    | cons second rest =>
      have joined : List.intercalate separator (first :: second :: rest) =
          first ++ (separator ++ List.intercalate separator (second :: rest)) := by
        simp [List.intercalate]
      rw [joined, List.mem_append, List.mem_append] at listed
      obtain own | between | behind := listed
      · exact .inr ⟨first, List.mem_cons_self, own⟩
      · exact .inl between
      · obtain between | ⟨piece, later, inside⟩ := ih behind
        · exact .inl between
        · exact .inr ⟨piece, List.mem_cons_of_mem _ later, inside⟩

/-- A name in snake case has no hyphen. -/
theorem hyphen_notMem_snakeCase (name : Text) : '-' ∉ snakeCase name := by
  intro listed
  obtain separator | ⟨word, small, inside⟩ := mem_intercalate listed
  · cases (by decide : '-' ∉ ['_']) separator
  · obtain ⟨own, isWord, rfl⟩ := List.mem_map.mp small
    have letter := alphanumeric_of_mem_words isWord '-' (hyphen_of_mem_lowerWord inside)
    cases (by decide : isAlphanumeric '-' = false).symm.trans letter

end Templates.Text
