import Templates.Proofs.Program.Through

/-!
What a statement that leaves puts an end to.

Inside of a loop or a switch it ends the innermost one, which the statements behind it do not
notice. Main statement: a run is complete, so that text behind the program is written too, unless
it comes to a statement that leaves in no loop and no switch.
-/

namespace Templates

/-- A run of statements comes to one that leaves, behind others that run to their end and inside of
choices only, and in which scope. -/
inductive Strays (limit : Nat) : List Node → Scope → Scope → Prop where
  | here {front back : List Node} {s t : Scope} :
    Through (Node.run limit) front s t → Strays limit (front ++ .leave :: back) s t
  | inside {front back otherwise body : List Node} {branches : List (Expr × List Node)}
      {s t u : Scope} :
    Through (Node.run limit) front s t → Enters limit (.choice branches otherwise) t body t →
      Strays limit body t u → Strays limit (front ++ .choice branches otherwise :: back) s u

mutual

/-- A statement leaves, or holds one that leaves in no loop and no switch. -/
def Node.mayStray : Node → Bool
  | .leave => true
  | .choice branches otherwise => branchesMayStray branches || mayStray otherwise
  | _ => false

/-- One of some statements leaves, or holds one that leaves in no loop and no switch. -/
def mayStray : List Node → Bool
  | [] => false
  | node :: rest => node.mayStray || mayStray rest

/-- One of some branches holds a statement that leaves in no loop and no switch. -/
def branchesMayStray : List (Expr × List Node) → Bool
  | [] => false
  | (_, body) :: rest => mayStray body || branchesMayStray rest

end

section

variable {limit : Nat}

/-- A loop or a switch does not leave what is around it. -/
theorem Node.run_ne_left {node : Node} (confines : node.confines = true) (s t : Scope) :
    node.run limit s ≠ .ok (.left, t) := by
  intro left
  -- The last thing such a statement does is to go on with a scope.
  cases node with
  | text | echo | choice | assign | leave => cases confines
  | foreach | switch =>
    rw [Node.run] at left
    obtain ⟨_, -, left⟩ := exists_of_bind left
    obtain ⟨_, -, left⟩ := exists_of_bind left
    obtain ⟨_, -, left⟩ := exists_of_bind left
    cases left
  | range | whileLoop | doWhileLoop =>
    rw [Node.run_loop rfl] at left
    obtain ⟨_, -, left⟩ := exists_of_bind left
    obtain ⟨_, -, left⟩ := exists_of_bind left
    cases left

/-- A statement that leaves does so itself, or is a choice that begins a body that leaves. -/
theorem Node.run_eq_left {node : Node} {s t : Scope} (left : node.run limit s = .ok (.left, t)) :
    node = .leave ∧ t = s ∨
      ∃ branches otherwise body, node = .choice branches otherwise ∧
        Enters limit node s body s ∧ runAll limit body s = .ok (.left, t) := by
  cases node with
  | foreach | range | whileLoop | doWhileLoop | switch =>
    exact absurd left (Node.run_ne_left rfl s t)
  | text =>
    rw [Node.run] at left
    cases left
  | echo | assign =>
    rw [Node.run] at left
    obtain ⟨_, -, left⟩ := exists_of_bind left
    cases left
  | leave =>
    rw [Node.run] at left
    cases left
    exact .inl ⟨rfl, rfl⟩
  | choice branches otherwise =>
    rw [Node.run] at left
    rcases runBranches_cases limit (runAll limit otherwise) branches s with
      ⟨front, condition, body, back, rfl, others, taken, same⟩ | ⟨others, same⟩ | ⟨_, e, -, same⟩
    · exact .inr ⟨_, _, body, rfl, .branch others taken, same.symm.trans left⟩
    · exact .inr ⟨_, _, otherwise, rfl, .otherwise others, same.symm.trans left⟩
    · cases same.symm.trans left

/-- Statements leave exactly when they come to one that does so in no loop and no switch. -/
theorem runAll_eq_left_iff {nodes : List Node} {s t : Scope} :
    runAll limit nodes s = .ok (.left, t) ↔ Strays limit nodes s t := by
  constructor
  · intro left
    -- The statement that leaves is looked for in ever smaller bodies.
    induction size : sizeOf nodes using Nat.strongRecOn generalizing nodes s with
    | ind n ih =>
      rcases runAll_cases limit nodes s with
        ⟨_, -, whole⟩ | ⟨front, node, back, u, rfl, through, -, there⟩
      · cases whole.symm.trans left
      rcases node.run_eq_left (there.symm.trans left) with
        ⟨rfl, rfl⟩ | ⟨branches, otherwise, body, rfl, enters, inside⟩
      · exact .here through
      · have smaller := enters.sizeOf_lt
        have listed : Node.choice branches otherwise ∈
            front ++ .choice branches otherwise :: back :=
          List.mem_append_right front (.head back)
        have whole := List.sizeOf_lt_of_mem listed
        exact .inside through enters (ih (sizeOf body) (by omega) inside rfl)
  · intro strays
    induction strays with
    | here through =>
      rw [runAll_append through, runAll, Node.run]
    | inside through enters _ ih =>
      rw [runAll_append through, runAll, enters.run_choice, ih]

/-- Statements that do not leave run through. -/
theorem through_of_runAll {nodes : List Node} {s t : Scope}
    (ran : runAll limit nodes s = .ok (.done, t)) : Through (Node.run limit) nodes s t := by
  rcases runAll_cases limit nodes s with ⟨u, through, whole⟩ | ⟨_, node, _, u, -, -, stops, there⟩
  · cases whole.symm.trans ran
    exact through
  · exact absurd (there.symm.trans ran) (stops t)

/-- What is behind a statement that leaves makes no difference. -/
theorem Strays.append {nodes : List Node} {s t : Scope} (strays : Strays limit nodes s t)
    (more : List Node) : Strays limit (nodes ++ more) s t := by
  cases strays with
  | here through =>
    rw [List.append_assoc]
    exact .here through
  | inside through enters strays =>
    rw [List.append_assoc]
    exact .inside through enters strays

/-- Statements leave where one of their parts does. -/
theorem mayStray_append (front back : List Node) :
    mayStray (front ++ back) = (mayStray front || mayStray back) := by
  induction front with
  | nil => simp [mayStray]
  | cons node front ih => simp [mayStray, ih, Bool.or_assoc]

/-- A branch with a statement that leaves is one of some branches. -/
theorem branchesMayStray_append {body : List Node} (stray : mayStray body = true)
    (front back : List (Expr × List Node)) (condition : Expr) :
    branchesMayStray (front ++ (condition, body) :: back) = true := by
  induction front with
  | nil => simp [branchesMayStray, stray]
  | cons branch front ih =>
    obtain ⟨other, inside⟩ := branch
    simp [branchesMayStray, ih]

/-- A choice that begins a body with a statement that leaves holds that statement. -/
theorem Enters.mayStray_choice {branches : List (Expr × List Node)} {otherwise body : List Node}
    {s t : Scope} (enters : Enters limit (.choice branches otherwise) s body t)
    (stray : mayStray body = true) : (Node.choice branches otherwise).mayStray = true := by
  cases enters with
  | branch others taken => simp [Node.mayStray, branchesMayStray_append stray]
  | otherwise others => simp [Node.mayStray, stray]
  | round isLoop => cases isLoop

/-- A statement that leaves in no loop and no switch is seen in the program. -/
theorem Strays.mayStray {nodes : List Node} {s t : Scope} (strays : Strays limit nodes s t) :
    mayStray nodes = true := by
  induction strays with
  | here through => simp [mayStray_append, Templates.mayStray, Node.mayStray]
  | inside through enters _ ih =>
    simp [mayStray_append, Templates.mayStray, enters.mayStray_choice ih]

/-- What is written last stands at the end of the output. -/
theorem Scope.output_write (text : Text) (scope : Scope) :
    (scope.write text).output = scope.output ++ text := by
  simp [Scope.output, Scope.write]

end

/-- A statement that leaves ends the innermost loop or switch around it, and nothing else. Text
behind a program whose render succeeds is written behind its output, unless the run comes to a
statement that leaves in no loop and no switch, and only then is the rest of the page lost. What is
behind a loop or a switch that is left by its body runs on in the scope in which it was left. -/
theorem Program.leave_confined (limit : Nat) :
    (∀ (program : Program) (data : Data) (out : Text), program.render limit data = .ok out →
      ((¬ ∃ s, Strays limit program ⟨data, []⟩ s) →
        ∀ text, Program.render limit (program ++ [.text text]) data = .ok (out ++ text)) ∧
      ((∃ s, Strays limit program ⟨data, []⟩ s) →
        ∀ more, Program.render limit (program ++ more) data = .ok out)) ∧
    (∀ program : Program, mayStray program = false → ∀ s t, ¬ Strays limit program s t) ∧
    ∀ (node : Node) (body : List Node) (s t u : Scope), node.confines = true →
      Enters limit node s body t → Strays limit body t u →
      ∀ back, runAll limit (node :: back) s = runAll limit back u := by
  refine ⟨fun program data out written => ⟨fun none text => ?_, fun ⟨s, strays⟩ more => ?_⟩,
    fun program no s t strays => ?_, fun node body s t u confines enters strays back => ?_⟩
  · cases ran : runAll limit program ⟨data, []⟩ with
    | error e => simp [Program.render, ran, Except.map] at written
    | ok ending =>
      obtain ⟨flow, s⟩ := ending
      have same : s.output = out := by simpa [Program.render, ran, Except.map] using written
      cases flow with
      | left => exact absurd ⟨s, runAll_eq_left_iff.mp ran⟩ none
      | done =>
        -- The program runs through, and the text is next.
        have onward := runAll_append (through_of_runAll ran) [.text text]
        simp [Program.render, onward, runAll, Node.run, Except.map, Scope.output_write, same]
  · have whole := runAll_eq_left_iff.mpr strays
    have longer := runAll_eq_left_iff.mpr (strays.append more)
    rw [Program.render, whole] at written
    rw [Program.render, longer]
    exact written
  · rw [strays.mayStray] at no
    cases no
  · have left := enters.run_left confines (runAll_eq_left_iff.mpr strays)
    rw [runAll, left]

/-- A page that leaves has an output, but the text behind it is lost. -/
theorem render_cut_off :
    Program.render 10 [.leave] [] = .ok [] ∧
      Program.render 10 ([.leave] ++ [.text "x".toList]) [] ≠ .ok ([] ++ "x".toList) := by
  refine ⟨rfl, ?_⟩
  intro kept
  cases kept

/-- A case that is left in a choice. -/
def leftCase : List Node :=
  [.echo (.var "item".toList) true, .choice [(.literal (.bool true), [.leave])] [],
    .text "?".toList]

/-- A switch whose first case is left. -/
def itemSwitch : Node :=
  .switch (.var "item".toList)
    [(some (.literal (.text "a".toList)), leftCase), (none, [.text "n".toList])]

/-- A loop with a switch in it, which is left for the first item. -/
def itemLoop : Node :=
  .foreach (.var "items".toList) none "item".toList [itemSwitch, .text ";".toList]

/-- The loop goes on behind the switch that is left, and so does the page behind the loop. Only
where nothing is around it does a statement that leaves end the page. -/
theorem leave_confined_itemSwitch :
    let data : Data := [("items".toList, .list [.text "a".toList, .text "b".toList])]
    let scope : Scope := ⟨[("item".toList, .text "a".toList)], []⟩
    Program.render 10 [itemLoop] data = .ok "a;n;".toList ∧
      mayStray [itemLoop] = false ∧
      Program.render 10 ([itemLoop] ++ [.text "!".toList]) data = .ok ("a;n;".toList ++ "!".toList) ∧
      runAll 10 (itemSwitch :: [.text ";".toList]) scope =
        runAll 10 [.text ";".toList] (scope.write "a".toList) ∧
      Program.render 10 ([.leave] ++ [.text "!".toList]) [] = .ok [] := by
  intro data scope
  obtain ⟨complete, unseen, confined⟩ := Program.leave_confined 10
  have written : Program.render 10 [itemLoop] data = .ok "a;n;".toList := rfl
  have no : ¬ ∃ s, Strays 10 [itemLoop] ⟨data, []⟩ s := fun ⟨s, strays⟩ =>
    unseen [itemLoop] rfl _ s strays
  -- The first case is begun, and its choice leaves behind the echo.
  have enters : Enters 10 itemSwitch scope leftCase scope :=
    .case rfl rfl (show _ = [] ++ (some (.literal (.text "a".toList)), leftCase) :: _ from rfl) .nil
  have echoed : Through (Node.run 10) [.echo (.var "item".toList) true] scope
      (scope.write "a".toList) := .cons rfl .nil
  have taken : Enters 10 (.choice ([] ++ (.literal (.bool true), [.leave]) :: []) [])
      (scope.write "a".toList) [.leave] (scope.write "a".toList) :=
    .branch (List.forall_mem_nil _) rfl
  have alone : Strays 10 ([] ++ .leave :: []) (scope.write "a".toList) (scope.write "a".toList) :=
    .here .nil
  have strays : Strays 10 leftCase scope (scope.write "a".toList) := .inside echoed taken alone
  refine ⟨written, rfl, (complete [itemLoop] data _ written).1 no _,
    confined itemSwitch leftCase scope scope _ rfl enters strays _, ?_⟩
  have ended : Program.render 10 [.leave] [] = .ok [] := rfl
  exact (complete [.leave] [] [] ended).2 ⟨_, .here .nil⟩ _

end Templates
