import Templates.Proofs.Expr.Unlimited
import Templates.Proofs.Program.Rounds
import Templates.Proofs.Outcome

/-!
Which statements a run comes to, and in which scopes.

A statement is begun behind others that ran to their end, or in the body of a statement that was
begun. Main statement: a run complains about a loop exactly when it comes to a loop that has one more
round due than the limit allows.
-/

namespace Templates

/-- Pieces that run one after the other, each of them to its end. -/
inductive Through {α : Type} (run : α → Body) : List α → Scope → Scope → Prop where
  | nil {s : Scope} : Through run [] s s
  | cons {a : α} {rest : List α} {s t u : Scope} :
    run a s = .ok (.done, t) → Through run rest t u → Through run (a :: rest) s u

namespace Body

/-- Pieces run one after the other until one leaves. -/
def inTurn {α : Type} (run : α → Body) : List α → Scope → Except EvalError Scope
  | [], scope => .ok scope
  | a :: rest, scope => goOn (inTurn run rest) (run a scope)

variable {α : Type} {run : α → Body} {e : EvalError}

/-- What fails behind a round failed in it, or the round ran to its end. -/
theorem goOn_eq_error {onward : Scope → Except EvalError Scope}
    {ending : Except EvalError (Flow × Scope)} (failed : goOn onward ending = .error e) :
    ending = .error e ∨ ∃ s, ending = .ok (.done, s) ∧ onward s = .error e := by
  cases ending with
  | error e' => exact .inl (congrArg Except.error (Except.error.inj failed))
  | ok ending =>
    obtain ⟨flow, s⟩ := ending
    cases flow with
    | left => cases failed
    | done => exact .inr ⟨s, rfl, failed⟩

/-- Behind pieces that ran to their end the others go on. -/
theorem inTurn_append {front : List α} {s t : Scope} (through : Through run front s t)
    (back : List α) : inTurn run (front ++ back) s = inTurn run back t := by
  induction through with
  | nil => rfl
  | cons ran _ ih => rw [List.cons_append, inTurn, ran, goOn, ih]

/-- Pieces fail in the first of them that fails. -/
theorem inTurn_eq_error {pieces : List α} {s : Scope} (failed : inTurn run pieces s = .error e) :
    ∃ front a back t, pieces = front ++ a :: back ∧ Through run front s t ∧
      run a t = .error e := by
  induction pieces generalizing s with
  | nil => cases failed
  | cons a rest ih =>
    rcases goOn_eq_error failed with here | ⟨t, ran, later⟩
    · exact ⟨[], a, rest, s, rfl, .nil, here⟩
    · obtain ⟨front, b, back, u, rfl, through, there⟩ := ih later
      exact ⟨a :: front, b, back, u, rfl, .cons ran through, there⟩

end Body

/-- The scope in which the body of a loop runs for an entry. -/
def Scope.bindEntry (key : Option Text) (item : Text) (entry : Value × Value) (scope : Scope) :
    Scope :=
  (match key with
    | some key => scope.bind key entry.1
    | none => scope).bind item entry.2

/-- The body of a loop runs for an entry. -/
def entryRound (limit : Nat) (key : Option Text) (item : Text) (body : List Node)
    (entry : Value × Value) : Body := fun scope =>
  runAll limit body (scope.bindEntry key item entry)

/-- The body of a case runs. -/
def caseRound (limit : Nat) (case : Option Expr × List Node) : Body :=
  runAll limit case.2

/-- The body that a statement begins, and in which scope. -/
inductive Enters (limit : Nat) : Node → Scope → List Node → Scope → Prop where
  | branch {front back : List (Expr × List Node)} {condition : Expr} {body otherwise : List Node}
      {s : Scope} :
    (∀ other ∈ front, holds other.1 s = .ok false) → holds condition s = .ok true →
      Enters limit (.choice (front ++ (condition, body) :: back) otherwise) s body s
  | otherwise {branches : List (Expr × List Node)} {otherwise : List Node} {s : Scope} :
    (∀ other ∈ branches, holds other.1 s = .ok false) →
      Enters limit (.choice branches otherwise) s otherwise s
  | entry {iterable : Expr} {key : Option Text} {item : Text} {body : List Node} {s t : Scope}
      {collection : Value} {front back : List (Value × Value)} {entry : Value × Value} :
    s.eval iterable = .ok collection → collection.entries = .ok (front ++ entry :: back) →
      Through (entryRound limit key item body) front s t →
      Enters limit (.foreach iterable key item body) s body (t.bindEntry key item entry)
  | round {node : Node} {loop : Loop} {rounds : Rounds} {k : Nat} {s inner : Scope} :
    node.loop? = some loop → loop.rounds s = .ok rounds → k < limit →
      Due rounds (runAll limit loop.body) s k inner → Enters limit node s loop.body inner
  | case {subject : Expr} {cases front back : List (Option Expr × List Node)}
      {test : Option Expr} {body : List Node} {s t : Scope} {value : Value} {start : Nat} :
    s.eval subject = .ok value → startingCase s value (cases.map Prod.fst) = .ok start →
      cases.drop start = front ++ (test, body) :: back →
      Through (caseRound limit) front s t →
      Enters limit (.switch subject cases) s body t

/-- The statements that a run of others comes to, and in which scopes. -/
inductive Executes (limit : Nat) : List Node → Scope → Node → Scope → Prop where
  | here {front back : List Node} {node : Node} {s t : Scope} :
    Through (Node.run limit) front s t → Executes limit (front ++ node :: back) s node t
  | inside {front back body : List Node} {node inner : Node} {s t u v : Scope} :
    Through (Node.run limit) front s t → Enters limit node t body u →
      Executes limit body u inner v → Executes limit (front ++ node :: back) s inner v

/-- The statements that are left by a statement in their body: loops and switches. -/
def Node.confines : Node → Bool
  | .foreach .. | .range .. | .whileLoop .. | .doWhileLoop .. | .switch .. => true
  | .text .. | .echo .. | .choice .. | .assign .. | .leave => false

/-- A statement is a loop that has one more round due than the limit allows. -/
def Node.Exceeds (limit : Nat) (node : Node) (scope : Scope) : Prop :=
  ∃ loop, node.loop? = some loop ∧ loop.Exceeds limit scope

/-! ### How statements run that begin others -/

section

variable {limit : Nat}

/-- A loop over entries takes them in turn. -/
theorem forEach_eq_inTurn (key : Option Text) (item : Text) (body : List Node)
    (entries : List (Value × Value)) (s : Scope) :
    Body.forEach key item (fun scope => runAll limit body scope) entries s =
      Body.inTurn (entryRound limit key item body) entries s := by
  induction entries generalizing s with
  | nil => rfl
  | cons entry rest ih =>
    cases key <;> exact Body.goOn_congr ih _

/-- A switch takes its cases in turn, from the one it starts with. -/
theorem runCases_eq_inTurn (start : Nat) (cases : List (Option Expr × List Node)) (s : Scope) :
    runCases limit start cases s = Body.inTurn (caseRound limit) (cases.drop start) s := by
  induction cases generalizing start s with
  | nil => cases start <;> simp [runCases, Body.inTurn]
  | cons case rest ih =>
    cases start with
    | zero =>
      rw [runCases]
      exact Body.goOn_congr (ih 0) _
    | succ start => rw [runCases, ih, List.drop_succ_cons]

/-- A loop over the entries of a collection takes them in turn. -/
theorem Node.run_foreach {iterable : Expr} {s : Scope} {collection : Value}
    {entries : List (Value × Value)} (looked : s.eval iterable = .ok collection)
    (listed : collection.entries = .ok entries) (key : Option Text) (item : Text)
    (body : List Node) :
    (Node.foreach iterable key item body).run limit s =
      (Body.inTurn (entryRound limit key item body) entries s).map (.done, ·) := by
  rw [Node.run, looked]
  show collection.entries >>= _ = _
  rw [listed, ← forEach_eq_inTurn]
  rfl

/-- A switch takes the cases from the one it starts with in turn. -/
theorem Node.run_switch {subject : Expr} {s : Scope} {value : Value}
    {cases : List (Option Expr × List Node)} {start : Nat} (looked : s.eval subject = .ok value)
    (started : startingCase s value (cases.map Prod.fst) = .ok start) :
    (Node.switch subject cases).run limit s =
      (Body.inTurn (caseRound limit) (cases.drop start) s).map (.done, ·) := by
  rw [Node.run, looked]
  show startingCase s value (cases.map Prod.fst) >>= _ = _
  rw [started, ← runCases_eq_inTurn]
  rfl

/-- Branches whose conditions do not hold are passed over. -/
theorem runBranches_append {front : List (Expr × List Node)} {s : Scope}
    (others : ∀ other ∈ front, holds other.1 s = .ok false) (otherwise : Body)
    (back : List (Expr × List Node)) :
    runBranches limit otherwise (front ++ back) s = runBranches limit otherwise back s := by
  induction front with
  | nil => rfl
  | cons other front ih =>
    obtain ⟨test, inside⟩ := other
    have first : holds test s = .ok false := others _ (.head front)
    rw [List.cons_append, runBranches]
    simp only [first]
    exact ih fun other listed => others other (.tail _ listed)

/-- Behind statements that ran to their end a run goes on. -/
theorem runAll_append {front : List Node} {s t : Scope}
    (through : Through (Node.run limit) front s t) (back : List Node) :
    runAll limit (front ++ back) s = runAll limit back t := by
  induction through with
  | nil => rfl
  | cons ran _ ih =>
    rw [List.cons_append, runAll]
    simp only [ran, ih]

end

/-! ### Where a run stops -/

/-- Statements run to the end, or up to one that does not run to its end. -/
theorem runAll_cases (limit : Nat) (nodes : List Node) (s : Scope) :
    (∃ t, Through (Node.run limit) nodes s t ∧ runAll limit nodes s = .ok (.done, t)) ∨
      ∃ front node back t, nodes = front ++ node :: back ∧ Through (Node.run limit) front s t ∧
        (∀ u, node.run limit t ≠ .ok (.done, u)) ∧
        runAll limit nodes s = node.run limit t := by
  induction nodes generalizing s with
  | nil => exact .inl ⟨s, .nil, by rw [runAll]⟩
  | cons node rest ih =>
    -- Only behind a statement that runs to its end do the others run.
    cases ran : node.run limit s with
    | error e => exact .inr ⟨[], node, rest, s, rfl, .nil, by simp [ran], by simp [runAll, ran]⟩
    | ok ending =>
      obtain ⟨flow, t⟩ := ending
      cases flow with
      | left => exact .inr ⟨[], node, rest, s, rfl, .nil, by simp [ran], by simp [runAll, ran]⟩
      | done =>
        have goesOn : runAll limit (node :: rest) s = runAll limit rest t := by simp [runAll, ran]
        rcases ih t with ⟨u, through, whole⟩ | ⟨front, other, back, u, rfl, through, stops, there⟩
        · exact .inl ⟨u, .cons ran through, goesOn.trans whole⟩
        · exact .inr ⟨node :: front, other, back, u, rfl, .cons ran through, stops,
            goesOn.trans there⟩

/-- A choice takes the first branch whose condition holds, or what is left, or it fails with a
condition. -/
theorem runBranches_cases (limit : Nat) (otherwise : Body) (branches : List (Expr × List Node))
    (s : Scope) :
    (∃ front condition body back, branches = front ++ (condition, body) :: back ∧
        (∀ other ∈ front, holds other.1 s = .ok false) ∧ holds condition s = .ok true ∧
        runBranches limit otherwise branches s = runAll limit body s) ∨
      ((∀ other ∈ branches, holds other.1 s = .ok false) ∧
        runBranches limit otherwise branches s = otherwise s) ∨
      ∃ condition e, holds condition s = .error e ∧
        runBranches limit otherwise branches s = .error e := by
  induction branches with
  | nil => exact .inr (.inl ⟨List.forall_mem_nil _, by rw [runBranches]⟩)
  | cons branch rest ih =>
    obtain ⟨condition, body⟩ := branch
    cases tested : holds condition s with
    | error e => exact .inr (.inr ⟨condition, e, tested, by simp [runBranches, tested]⟩)
    | ok taken =>
      cases taken with
      | true =>
        exact .inl ⟨[], condition, body, rest, rfl, List.forall_mem_nil _, tested,
          by simp [runBranches, tested]⟩
      | false =>
        have goesOn : runBranches limit otherwise ((condition, body) :: rest) s =
            runBranches limit otherwise rest s := by simp [runBranches, tested]
        rw [goesOn]
        -- The condition joins those that do not hold.
        rcases ih with ⟨front, next, inside, back, rfl, others, taken, there⟩ |
          ⟨others, there⟩ | failed
        · exact .inl ⟨(condition, body) :: front, next, inside, back, rfl,
            List.forall_mem_cons.mpr ⟨tested, others⟩, taken, there⟩
        · exact .inr (.inl ⟨List.forall_mem_cons.mpr ⟨tested, others⟩, there⟩)
        · exact .inr (.inr failed)

/-! ### What becomes of a statement that begins a body -/

section

variable {limit : Nat}

/-- A choice does what the body does that it begins. -/
theorem Enters.run_choice {branches : List (Expr × List Node)} {otherwise body : List Node}
    {s t : Scope} (enters : Enters limit (.choice branches otherwise) s body t) :
    (Node.choice branches otherwise).run limit s = runAll limit body t := by
  cases enters with
  | branch others taken =>
    rw [Node.run, runBranches_append others, runBranches]
    simp only [taken]
  | @otherwise branches otherwise _ others =>
    have last : runBranches limit (runAll limit otherwise) (branches ++ []) s =
        runBranches limit (runAll limit otherwise) [] s := runBranches_append others _ []
    rw [List.append_nil] at last
    rw [Node.run, last, runBranches]
  | round isLoop => cases isLoop

/-- A loop or a switch goes on behind the body that it begins, if that ran to its end. -/
theorem Enters.run_confined {node : Node} {body : List Node} {s t : Scope}
    (enters : Enters limit node s body t) (confines : node.confines = true) :
    ∃ onward, node.run limit s =
      (Body.goOn onward (runAll limit body t)).map (Flow.done, ·) := by
  cases enters with
  | branch | otherwise => cases confines
  | entry looked listed through =>
    rw [Node.run_foreach looked listed, Body.inTurn_append through, Body.inTurn]
    exact ⟨_, rfl⟩
  | @round _ loop rounds k _ _ isLoop begun few due =>
    -- The rounds in front of this one have used up a part of the limit.
    obtain ⟨here, passed, due⟩ := due
    obtain ⟨count, split⟩ := Nat.exists_eq_add_of_lt few
    have used : Body.inRounds limit rounds (runAll limit loop.body) (k + (count + 1)) 0 s =
        Body.inRounds limit rounds (runAll limit loop.body) (count + 1) k here :=
      Body.inRounds_of_passed passed (count + 1)
    rw [← Nat.add_assoc, ← split, Body.inRounds] at used
    simp only [due] at used
    rw [Node.run_begun isLoop begun, used]
    exact ⟨_, rfl⟩
  | case looked started rest through =>
    rw [Node.run_switch looked started, rest, Body.inTurn_append through, Body.inTurn]
    exact ⟨_, rfl⟩

/-- What begins a body is a choice, a loop or a switch. -/
theorem Enters.choice_or_confines {node : Node} {body : List Node} {s t : Scope}
    (enters : Enters limit node s body t) :
    (∃ branches otherwise, node = .choice branches otherwise) ∨ node.confines = true := by
  cases enters with
  | branch | otherwise => exact .inl ⟨_, _, rfl⟩
  | entry | case => exact .inr rfl
  | round isLoop =>
    cases node with
    | whileLoop | doWhileLoop | range => exact .inr rfl
    | text | echo | choice | foreach | switch | assign | leave => cases isLoop

variable {e : EvalError}

/-- A statement fails with the body that it begins. -/
theorem Enters.run_error {node : Node} {body : List Node} {s t : Scope}
    (enters : Enters limit node s body t) (failed : runAll limit body t = .error e) :
    node.run limit s = .error e := by
  rcases enters.choice_or_confines with ⟨branches, otherwise, rfl⟩ | confines
  · rw [enters.run_choice, failed]
  · obtain ⟨onward, ran⟩ := enters.run_confined confines
    rw [ran, failed]
    rfl

/-- A loop or a switch ends where its body leaves. -/
theorem Enters.run_left {node : Node} {body : List Node} {s t u : Scope}
    (enters : Enters limit node s body t) (confines : node.confines = true)
    (left : runAll limit body t = .ok (.left, u)) : node.run limit s = .ok (.done, u) := by
  obtain ⟨onward, ran⟩ := enters.run_confined confines
  rw [ran, left]
  rfl

/-- A run fails with what a statement fails with that it comes to. -/
theorem Executes.runAll_error {nodes : List Node} {node : Node} {s t : Scope}
    (executes : Executes limit nodes s node t) (failed : node.run limit t = .error e) :
    runAll limit nodes s = .error e := by
  -- The statement is in the list or in the body of one that fails with it.
  induction executes with
  | here through =>
    rw [runAll_append through, runAll]
    simp only [failed]
  | inside through enters _ ih =>
    rw [runAll_append through, runAll]
    simp only [enters.run_error (ih failed)]

end

/-! ### What a run complains about -/

section

variable {limit l : Nat}

/-- Whether a condition holds is no matter of a loop. -/
theorem holds_unlimited (condition : Expr) (s : Scope) : Unlimited (holds condition s) :=
  (Expr.eval_unlimited s.data condition).map _

/-- What has no entries is no matter of a loop. -/
theorem Value.entries_unlimited (value : Value) : Unlimited value.entries := by
  cases value <;> simp [Value.entries, Unlimited]

/-- What is no bound is no matter of a loop. -/
theorem Value.bound_unlimited (value : Value) : Unlimited value.bound := by
  cases value with
  | number n =>
    rw [Value.bound]
    split <;> simp [Unlimited]
  | null | bool | text | list | record => simp [Value.bound, Unlimited]

/-- The case that a switch starts with is no matter of a loop. -/
theorem startingCase_unlimited (s : Scope) (subject : Value) (tests : List (Option Expr)) :
    Unlimited (startingCase s subject tests) := by
  have matching (place : Nat) : Unlimited (matchingCase? s subject place tests) := by
    induction tests generalizing place with
    | nil => exact .ok _
    | cons test rest ih =>
      cases test with
      | none => exact ih (place + 1)
      | some test =>
        rw [matchingCase?]
        cases looked : s.eval test with
        | error e =>
          intro limit same
          exact Expr.eval_unlimited s.data test limit (looked.trans (by simpa using same))
        | ok value =>
          simp only
          split
          · exact .ok _
          · exact ih (place + 1)
  refine (matching 0).bind fun found => ?_
  cases found <;> exact .ok _

/-- The rounds of a loop are known without running one. -/
theorem Loop.rounds_unlimited {node : Node} {loop : Loop} (isLoop : node.loop? = some loop)
    (s : Scope) : Unlimited (loop.rounds s) := by
  cases node with
  | whileLoop | doWhileLoop =>
    cases isLoop
    exact .ok _
  | range counter start stop inclusive body =>
    cases isLoop
    have bound (e : Expr) : Unlimited (s.eval e >>= Value.bound) :=
      (Expr.eval_unlimited s.data e).bind Value.bound_unlimited
    exact (Expr.eval_unlimited s.data start).bind fun first =>
      (Value.bound_unlimited first).bind fun first =>
        (Expr.eval_unlimited s.data stop).bind fun last =>
          (Value.bound_unlimited last).bind fun last => .ok _
  | text | echo | choice | foreach | switch | assign | leave => cases isLoop

/-- A counter that has come to the end of a range is no complaint. -/
theorem Rounds.counted_unlimited (counter : Text) (start stop : Int) (k : Nat) (s : Scope) :
    Unlimited (counted counter start stop k s) := by
  rw [counted]
  split <;> exact .ok _

/-- Whether a body is due is told without running it. -/
theorem Loop.due_unlimited {node : Node} {loop : Loop} (isLoop : node.loop? = some loop)
    {s : Scope} {rounds : Rounds} (begun : loop.rounds s = .ok rounds) (k : Nat) (t : Scope) :
    Unlimited (rounds k t) := by
  cases node with
  | whileLoop condition body =>
    cases isLoop
    cases begun
    exact (holds_unlimited condition t).map _
  | doWhileLoop body condition =>
    cases isLoop
    cases begun
    -- Before the first round nothing is looked at.
    cases k with
    | zero => exact .ok _
    | succ k => exact (holds_unlimited condition t).map _
  | range counter start stop inclusive body =>
    cases isLoop
    obtain ⟨_, -, begun⟩ := exists_of_bind begun
    obtain ⟨first, -, begun⟩ := exists_of_bind begun
    obtain ⟨_, -, begun⟩ := exists_of_bind begun
    obtain ⟨last, -, begun⟩ := exists_of_bind begun
    cases begun
    exact Rounds.counted_unlimited _ _ _ k t
  | text | echo | choice | foreach | switch | assign | leave => cases isLoop

/-- A loop that complains exceeds the limit, or begins a body that complains. -/
theorem Node.loop_exceeds_or_enters {node : Node} {loop : Loop} (isLoop : node.loop? = some loop)
    {s : Scope} (failed : node.run limit s = .error (.loopLimit l)) :
    l = limit ∧ node.Exceeds limit s ∨
      ∃ body t, Enters limit node s body t ∧ runAll limit body t = .error (.loopLimit l) := by
  by_cases exceeds : loop.Exceeds limit s
  · -- The complaint of the loop itself names the limit.
    have own := failed.symm.trans (run_of_exceeds isLoop exceeds)
    cases own
    exact .inl ⟨rfl, loop, isLoop, exceeds⟩
  · rcases run_of_not_exceeds isLoop exceeds with
      ⟨e, unbegun, ran⟩ | ⟨rounds, starts, result, begun, few, ends, ran⟩
    · have same := Except.error.inj (ran.symm.trans failed)
      exact absurd same ((loop.rounds_unlimited isLoop s).ne unbegun l)
    · have fails := map_eq_error_iff.mp (ran.symm.trans failed)
      -- Of the ways in which a loop ends by itself only a body can have complained.
      cases ends with
      | ended | left => cases fails
      | @untested k t e passed due =>
        have own := Loop.due_unlimited isLoop begun starts t
        exact absurd (Except.error.inj fails) (own.ne due l)
      | @failed k inner e due there =>
        obtain rfl := Except.error.inj fails
        exact .inr ⟨loop.body, inner, .round isLoop begun (by omega) due, there⟩

/-- A statement that complains about a loop is a loop that exceeds the limit, or begins a body that
complains. -/
theorem Node.exceeds_or_enters {node : Node} {s : Scope}
    (failed : node.run limit s = .error (.loopLimit l)) :
    l = limit ∧ node.Exceeds limit s ∨
      ∃ body t, Enters limit node s body t ∧ runAll limit body t = .error (.loopLimit l) := by
  cases node with
  | whileLoop | doWhileLoop | range => exact loop_exceeds_or_enters rfl failed
  | text | leave =>
    rw [Node.run] at failed
    cases failed
  | echo value escaped =>
    rw [Node.run] at failed
    exact absurd failed (((Expr.eval_unlimited s.data value).bind fun _ => .ok _) l)
  | assign name value =>
    rw [Node.run] at failed
    exact absurd failed (((Expr.eval_unlimited s.data value).bind fun _ => .ok _) l)
  | choice branches otherwise =>
    rw [Node.run] at failed
    rcases runBranches_cases limit (runAll limit otherwise) branches s with
      ⟨front, condition, body, back, rfl, others, taken, same⟩ | ⟨others, same⟩ |
      ⟨condition, e, untested, same⟩
    · exact .inr ⟨body, s, .branch others taken, same.symm.trans failed⟩
    · exact .inr ⟨otherwise, s, .otherwise others, same.symm.trans failed⟩
    · have own := Except.error.inj (same.symm.trans failed)
      exact absurd own ((holds_unlimited condition s).ne untested l)
  | foreach iterable key item body =>
    have inside := failed
    rw [Node.run] at inside
    obtain ⟨collection, looked, inside⟩ := (Expr.eval_unlimited s.data iterable).exists_of_bind inside
    obtain ⟨entries, listed, -⟩ := collection.entries_unlimited.exists_of_bind inside
    rw [run_foreach looked listed] at failed
    obtain ⟨front, entry, back, t, rfl, through, there⟩ :=
      Body.inTurn_eq_error (map_eq_error_iff.mp failed)
    exact .inr ⟨body, _, .entry looked listed through, there⟩
  | switch subject cases =>
    have inside := failed
    rw [Node.run] at inside
    obtain ⟨value, looked, inside⟩ := (Expr.eval_unlimited s.data subject).exists_of_bind inside
    obtain ⟨start, started, -⟩ := (startingCase_unlimited s value _).exists_of_bind inside
    rw [run_switch looked started] at failed
    obtain ⟨front, case, back, t, rest, through, there⟩ :=
      Body.inTurn_eq_error (map_eq_error_iff.mp failed)
    exact .inr ⟨case.2, t, .case looked started rest through, there⟩

/-- A body is smaller than the statement that begins it. -/
theorem Enters.sizeOf_lt {node : Node} {body : List Node} {s t : Scope}
    (enters : Enters limit node s body t) : sizeOf body < sizeOf node := by
  cases enters with
  | @branch front back condition _ otherwise _ _ =>
    have listed : (condition, body) ∈ front ++ (condition, body) :: back := by simp
    have smaller := List.sizeOf_lt_of_mem listed
    simp only [Prod.mk.sizeOf_spec, Node.choice.sizeOf_spec] at smaller ⊢
    omega
  | otherwise | entry =>
    simp only [Node.choice.sizeOf_spec, Node.foreach.sizeOf_spec]
    omega
  | @round _ loop _ _ _ _ isLoop _ _ _ =>
    cases node with
    | whileLoop | doWhileLoop | range =>
      cases isLoop
      simp only [Node.whileLoop.sizeOf_spec, Node.doWhileLoop.sizeOf_spec, Node.range.sizeOf_spec]
      omega
    | text | echo | choice | foreach | switch | assign | leave => cases isLoop
  | @case subject cases front back test _ _ _ _ start _ _ rest _ =>
    have listed : (test, body) ∈ cases := by
      have member : (test, body) ∈ cases.drop start := by simp [rest]
      exact List.mem_of_mem_drop member
    have smaller := List.sizeOf_lt_of_mem listed
    simp only [Prod.mk.sizeOf_spec, Node.switch.sizeOf_spec] at smaller ⊢
    omega

/-- A run complains about a loop when it comes to one that exceeds the limit, and only then. -/
theorem runAll_eq_loopLimit_iff {nodes : List Node} {s : Scope} :
    runAll limit nodes s = .error (.loopLimit l) ↔
      l = limit ∧ ∃ node t, Executes limit nodes s node t ∧ node.Exceeds limit t := by
  constructor
  · intro failed
    -- The complaint is followed into ever smaller bodies.
    induction size : sizeOf nodes using Nat.strongRecOn generalizing nodes s with
    | ind n ih =>
      rcases runAll_cases limit nodes s with
        ⟨_, -, whole⟩ | ⟨front, node, back, t, rfl, through, -, there⟩
      · cases whole.symm.trans failed
      rcases node.exceeds_or_enters (there.symm.trans failed) with ⟨rfl, exceeds⟩ | ⟨body, u, enters, inside⟩
      · exact ⟨rfl, node, t, .here through, exceeds⟩
      · have listed : node ∈ front ++ node :: back := by simp
        have smaller : sizeOf body < n :=
          size ▸ Nat.lt_trans enters.sizeOf_lt (List.sizeOf_lt_of_mem listed)
        obtain ⟨rfl, other, v, executes, exceeds⟩ := ih (sizeOf body) smaller inside rfl
        exact ⟨rfl, other, v, .inside through enters executes, exceeds⟩
  · rintro ⟨rfl, node, t, executes, loop, isLoop, exceeds⟩
    exact executes.runAll_error (node.run_of_exceeds isLoop exceeds)

end

end Templates
