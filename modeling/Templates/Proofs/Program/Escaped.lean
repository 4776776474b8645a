import Templates.Proofs.Program.Runs

/-!
Escaped echoes bring no markup into a page.

Whatever way a program takes through its statements, its output is made of its own texts and of
pieces that markup sees as bare text.
-/

namespace Templates

namespace Text

/-- The entities that escaping writes. -/
def entities : List Text :=
  ["&amp;", "&lt;", "&gt;", "&quot;", "&#39;"]

/-- A text without brackets and quotes, in which each ampersand starts an entity. -/
def Bare (text : Text) : Prop :=
  (∀ c ∈ text, c ≠ '<' ∧ c ≠ '>' ∧ c ≠ '"' ∧ c ≠ '\'') ∧
    ∀ front rest, text = front ++ '&' :: rest → ∃ entity ∈ entities, entity <+: '&' :: rest

namespace Bare

/-- An empty text is bare. -/
theorem nil : Bare [] := by
  refine ⟨fun _ listed => (List.not_mem_nil listed).elim, fun front _ split => ?_⟩
  cases front <;> cases split

/-- A character in front of a bare text. -/
theorem cons {c : Char} {text : Text} (plain : c ≠ '<' ∧ c ≠ '>' ∧ c ≠ '"' ∧ c ≠ '\'')
    (starts : c = '&' → ∃ entity ∈ entities, entity <+: c :: text) (bare : Bare text) :
    Bare (c :: text) := by
  -- An ampersand is the first character, or stands in the rest of the text.
  refine ⟨List.forall_mem_cons.mpr ⟨plain, bare.1⟩, fun front rest split => ?_⟩
  cases front with
  | nil =>
    obtain ⟨rfl, rfl⟩ := List.cons.inj split
    exact starts rfl
  | cons _ front => exact bare.2 front rest (List.cons.inj split).2

/-- Letters in front of a bare text. -/
theorem append {front text : Text}
    (plain : ∀ c ∈ front, (c ≠ '<' ∧ c ≠ '>' ∧ c ≠ '"' ∧ c ≠ '\'') ∧ c ≠ '&')
    (bare : Bare text) : Bare (front ++ text) := by
  induction front with
  | nil => exact bare
  | cons c front ih =>
    obtain ⟨first, rest⟩ := List.forall_mem_cons.mp plain
    exact cons first.1 (fun same => absurd same first.2) (ih rest)

/-- An entity in front of a bare text. -/
theorem entity {entity text : Text} (listed : entity ∈ entities) (bare : Bare text) :
    Bare (entity ++ text) := by
  -- Behind its ampersand an entity has letters, digits and signs without a meaning of their own.
  obtain ⟨name, rfl, plain⟩ : ∃ name, entity = '&' :: name ∧
      name.all (fun c => (c ≠ '<' ∧ c ≠ '>' ∧ c ≠ '"' ∧ c ≠ '\'') ∧ c ≠ '&') = true := by
    simp only [entities, List.mem_cons, List.not_mem_nil, or_false] at listed
    obtain rfl | rfl | rfl | rfl | rfl := listed
    all_goals exact ⟨_, rfl, rfl⟩
  have behind : Bare (name ++ text) := bare.append fun c member =>
    of_decide_eq_true (List.all_eq_true.mp plain c member)
  exact cons (by decide) (fun _ => ⟨_, listed, List.prefix_append _ _⟩) behind

end Bare

/-- What is escaped is bare. -/
theorem bare_escape (text : Text) : Bare (escape text) := by
  -- Each character is written as an entity or is none of those that need one.
  induction text with
  | nil => exact .nil
  | cons c text ih =>
    rw [escape, List.flatMap_cons, ← escape, escapeChar]
    split
    · exact ih.entity (by decide)
    split
    · exact ih.entity (by decide)
    split
    · exact ih.entity (by decide)
    split
    · exact ih.entity (by decide)
    split
    · exact ih.entity (by decide)
    · exact ih.append (by simp [*])

end Text

/-- A scope in which each piece of the output is a text of a program or bare. -/
def Scope.IsSafe (program : Program) (scope : Scope) : Prop :=
  ∀ piece ∈ scope.pieces, .text piece ∈ program.atoms ∨ piece.Bare

/-- All that a program without raw echoes writes leaves its output safe. -/
theorem Program.respects_safe {program : Program}
    (escaped : ∀ value, .echo value false ∉ program.atoms) :
    Respects (fun s t => s = t ∧ s.IsSafe program) program.atoms where
  bind := by
    rintro s _ ⟨rfl, safe⟩ name value
    exact ⟨rfl, safe⟩
  text := by
    rintro s _ ⟨rfl, safe⟩ content listed
    exact ⟨rfl, List.forall_mem_cons.mpr ⟨.inl listed, safe⟩⟩
  echo := by
    rintro s _ ⟨rfl, safe⟩ value raw listed shown
    -- Only escaped values are echoed, and what they show is bare.
    cases raw with
    | false => exact absurd listed (escaped value)
    | true =>
      exact ⟨rfl, List.forall_mem_cons.mpr ⟨.inr (Text.bare_escape shown.display), safe⟩⟩
  eval := by
    rintro s _ ⟨rfl, safe⟩ e listed
    rfl

/-- The output of a program without raw echoes is put together from texts of the program, each of
them whole, and from bare pieces. -/
theorem Program.exists_pieces_of_render {limit : Nat} {program : Program} {d : Data} {output : Text}
    (escaped : ∀ value, .echo value false ∉ program.atoms)
    (rendered : program.render limit d = .ok output) :
    ∃ pieces : List Text, output = pieces.flatten ∧
      ∀ piece ∈ pieces, .text piece ∈ program.atoms ∨ piece.Bare := by
  -- The run is compared with itself, from a scope in which nothing is written.
  have begins : (⟨d, []⟩ : Scope).IsSafe program := fun _ listed => (List.not_mem_nil listed).elim
  have ends := runAll_keeps limit program (program.respects_safe escaped) _ _ ⟨rfl, begins⟩
  rw [Program.render] at rendered
  cases run : runAll limit program ⟨d, []⟩ with
  | error e =>
    rw [run] at rendered
    cases rendered
  | ok last =>
    rw [run] at ends rendered
    obtain rfl := Except.ok.inj rendered
    cases ends with
    | ok ends =>
      obtain ⟨_, _, safe⟩ := ends
      refine ⟨last.2.pieces.reverse, rfl, fun piece listed => ?_⟩
      exact safe piece (List.mem_reverse.mp listed)

/-- A list of notes. -/
def noteList : Program :=
  [.foreach (.var "notes".toList) none "note".toList
    [.text "<li>".toList, .echo (.call "json".toList [.var "note".toList]) true,
      .text "</li>".toList]]

/-- A note that would close the item which it is shown in. -/
theorem render_noteList :
    (∀ value, .echo value false ∉ noteList.atoms) ∧
    noteList.render 9 [("notes".toList, .list [.text "</li>".toList, .text "&".toList])] =
      .ok "<li>&quot;&lt;/li&gt;&quot;</li><li>&quot;&amp;&quot;</li>".toList ∧
    ∃ pieces : List Text,
      "<li>&quot;&lt;/li&gt;&quot;</li><li>&quot;&amp;&quot;</li>".toList = pieces.flatten ∧
        ∀ piece ∈ pieces, .text piece ∈ noteList.atoms ∨ piece.Bare := by
  have pieces : noteList.atoms =
      [.expr (.var "notes".toList), .text "<li>".toList,
        .echo (.call "json".toList [.var "note".toList]) true, .text "</li>".toList] := rfl
  have escaped : ∀ value, .echo value false ∉ noteList.atoms := by
    rw [pieces]
    simp
  have rendered :
      noteList.render 9 [("notes".toList, .list [.text "</li>".toList, .text "&".toList])] =
        .ok "<li>&quot;&lt;/li&gt;&quot;</li><li>&quot;&amp;&quot;</li>".toList := rfl
  exact ⟨escaped, rendered, Program.exists_pieces_of_render escaped rendered⟩

end Templates
