import Templates.Proofs.Program.Through

/-!
Limits of loops are guards, and nothing but guards.

Main statement: what a program writes or fails with under a limit is the same under every higher
limit, unless it complains about the limit. It does so exactly when it comes to a loop that has one
more round due than the limit allows, and every other loop ends by itself with no more rounds than
that.
-/

namespace Templates

/-- The second result is the first one, unless that one is the complaint about a limit. -/
inductive Curbed {α : Type} (limit : Nat) : Except EvalError α → Except EvalError α → Prop where
  | same (x : Except EvalError α) : Curbed limit x x
  | complaint (y : Except EvalError α) : Curbed limit (.error (.loopLimit limit)) y

namespace Curbed

variable {α β : Type} {limit : Nat} {x y : Except EvalError α}

/-- A result that is no complaint stays what it is. -/
theorem eq_of_ne (curbed : Curbed limit x y) (other : x ≠ .error (.loopLimit limit)) :
    y = x := by
  cases curbed with
  | same => rfl
  | complaint => exact absurd rfl other

/-- What follows on a result is curbed if both are. -/
theorem bind (curbed : Curbed limit x y) {f g : α → Except EvalError β}
    (onward : ∀ a, Curbed limit (f a) (g a)) : Curbed limit (x >>= f) (y >>= g) := by
  cases curbed with
  | same =>
    cases x with
    | error e => exact same _
    | ok a => exact onward a
  | complaint => exact complaint _

/-- What is made of the value of a curbed result is curbed. -/
theorem map (curbed : Curbed limit x y) (f : α → β) : Curbed limit (x.map f) (y.map f) := by
  cases curbed with
  | same => exact same _
  | complaint => exact complaint _

/-- A loop that goes on behind a round is curbed if both are. -/
theorem goOn {x y : Except EvalError (Flow × Scope)} (curbed : Curbed limit x y)
    {onward other : Scope → Except EvalError Scope}
    (onwards : ∀ s, Curbed limit (onward s) (other s)) :
    Curbed limit (Body.goOn onward x) (Body.goOn other y) := by
  cases curbed with
  | same =>
    cases x with
    | error e => exact same _
    | ok ending =>
      obtain ⟨flow, s⟩ := ending
      cases flow with
      | left => exact same _
      | done => exact onwards s
  | complaint => exact complaint _

variable {n m : Nat}

/-- A loop with more rounds left goes on for longer. -/
theorem inRounds {rounds : Rounds} {body other : Body}
    (bodies : ∀ s, Curbed n (body s) (other s)) {few many : Nat} (more : few ≤ many) (k : Nat)
    (s : Scope) :
    Curbed n (Body.inRounds n rounds body few k s) (Body.inRounds m rounds other many k s) := by
  induction few generalizing many k s with
  | zero =>
    cases due : rounds k s with
    | error e =>
      cases many <;> simp only [Body.inRounds, due] <;> exact same _
    | ok next =>
      cases next with
      | none => cases many <;> simp only [Body.inRounds, due] <;> exact same _
      | some inner =>
        -- The first loop has no round left for the one that is due.
        rw [Body.inRounds]
        simp only [due]
        exact complaint _
  | succ few ih =>
    obtain ⟨many, rfl⟩ := Nat.exists_eq_add_of_lt more
    rw [Body.inRounds, Body.inRounds]
    split
    · exact same _
    · exact same _
    · exact (bodies _).goOn fun t => ih (Nat.le_add_right few many) (k + 1) t

/-- Pieces that run in turn are curbed if each of them is. -/
theorem inTurn {run other : α → Body} (pieces : List α)
    (each : ∀ a ∈ pieces, ∀ s, Curbed n (run a s) (other a s)) (s : Scope) :
    Curbed n (Body.inTurn run pieces s) (Body.inTurn other pieces s) := by
  induction pieces generalizing s with
  | nil => exact same _
  | cons a rest ih =>
    obtain ⟨first, others⟩ := List.forall_mem_cons.mp each
    exact (first s).goOn fun t => ih others t

end Curbed

section

variable {n m : Nat}

/-- A loop is curbed if its body is. -/
theorem Node.run_curbed_loop (higher : n ≤ m) {node : Node} {loop : Loop}
    (isLoop : node.loop? = some loop)
    (inside : ∀ s, Curbed n (runAll n loop.body s) (runAll m loop.body s)) (s : Scope) :
    Curbed n (node.run n s) (node.run m s) := by
  -- Both runs have one and the same course of rounds to go.
  rw [run_loop isLoop, run_loop isLoop]
  exact .bind (.same _) fun rounds => (Curbed.inRounds inside higher 0 s).bind fun _ => .same _

mutual

/-- A statement runs alike under a higher limit. -/
theorem Node.run_curbed (higher : n ≤ m) :
    (node : Node) → ∀ s, Curbed n (node.run n s) (node.run m s)
  | .text _, s | .echo _ _, s | .assign _ _, s | .leave, s => by
    rw [Node.run, Node.run]
    exact .same _
  | .choice branches otherwise, s => by
    rw [Node.run, Node.run]
    exact runBranches_curbed higher branches (runAll_curbed higher otherwise) s
  | .foreach iterable key item body, s => by
    simp only [Node.run, forEach_eq_inTurn]
    refine .bind (.same _) fun collection => .bind (.same _) fun entries => .bind ?_ fun _ => .same _
    exact .inTurn entries (fun entry _ t => runAll_curbed higher body _) s
  | .range _ _ _ _ body, s => Node.run_curbed_loop higher rfl (runAll_curbed higher body) s
  | .whileLoop _ body, s => Node.run_curbed_loop higher rfl (runAll_curbed higher body) s
  | .doWhileLoop body _, s => Node.run_curbed_loop higher rfl (runAll_curbed higher body) s
  | .switch subject cases, s => by
    simp only [Node.run, runCases_eq_inTurn]
    refine .bind (.same _) fun value => .bind (.same _) fun start => .bind ?_ fun _ => .same _
    exact .inTurn _ (fun case listed t =>
      cases_curbed higher cases case (List.mem_of_mem_drop listed) t) s

/-- Statements run alike under a higher limit. -/
theorem runAll_curbed (higher : n ≤ m) :
    (nodes : List Node) → ∀ s, Curbed n (runAll n nodes s) (runAll m nodes s)
  | [], s => by
    rw [runAll, runAll]
    exact .same _
  | node :: rest, s => by
    have first := Node.run_curbed higher node s
    rw [runAll, runAll]
    generalize node.run n s = x, node.run m s = y at first
    cases first with
    | complaint => exact .complaint _
    | same =>
      cases x with
      | error e => exact .same _
      | ok ending =>
        obtain ⟨flow, t⟩ := ending
        -- Only behind a statement that ran to its end do the others run.
        cases flow with
        | left => exact .same _
        | done => exact runAll_curbed higher rest t

/-- Branches run alike under a higher limit. -/
theorem runBranches_curbed (higher : n ≤ m) :
    (branches : List (Expr × List Node)) → {first second : Body} →
    (∀ s, Curbed n (first s) (second s)) →
    ∀ s, Curbed n (runBranches n first branches s) (runBranches m second branches s)
  | [], _, _, otherwise, s => by
    rw [runBranches, runBranches]
    exact otherwise s
  | (condition, body) :: rest, _, _, otherwise, s => by
    rw [runBranches, runBranches]
    split
    · exact .same _
    · exact runAll_curbed higher body s
    · exact runBranches_curbed higher rest otherwise s

/-- Cases run alike under a higher limit. -/
theorem cases_curbed (higher : n ≤ m) :
    (cases : List (Option Expr × List Node)) → ∀ case ∈ cases,
    ∀ s, Curbed n (caseRound n case s) (caseRound m case s)
  | [], _, listed, _ => nomatch listed
  | (test, body) :: rest, case, listed, s => by
    rcases List.mem_cons.mp listed with rfl | listed
    · exact runAll_curbed higher body s
    · exact cases_curbed higher rest case listed s

end

end

/-- Limits of loops are pure guards: a program that does not complain about its limit writes the same
or fails with the same under every higher one. It complains exactly when it comes to a loop that has
one more round due than the limit allows. Every other run of a loop fails before its first round or
ends by itself, after no more starts of its body than the limit says. -/
theorem Program.limit_guards (program : Program) (data : Data) :
    (∀ n m, n ≤ m → program.render n data ≠ .error (.loopLimit n) →
      program.render m data = program.render n data) ∧
    (∀ limit l, program.render limit data = .error (.loopLimit l) ↔
      l = limit ∧ ∃ node s, Executes limit program ⟨data, []⟩ node s ∧ node.Exceeds limit s) ∧
    ∀ (limit : Nat) (node : Node) (loop : Loop) (s : Scope), node.loop? = some loop →
      (loop.Exceeds limit s → node.run limit s = .error (.loopLimit limit)) ∧
      (¬ loop.Exceeds limit s →
        (∃ e, loop.rounds s = .error e ∧ node.run limit s = .error e) ∨
        ∃ rounds starts result, loop.rounds s = .ok rounds ∧ starts ≤ limit ∧
          Ends rounds (runAll limit loop.body) s starts result ∧
          (∀ other result', Ends rounds (runAll limit loop.body) s other result' →
            other = starts ∧ result' = result) ∧
          node.run limit s = result.map (.done, ·)) := by
  refine ⟨fun n m higher other => ?_, fun limit l => ?_, fun limit node loop s isLoop => ?_⟩
  · have curbed := runAll_curbed higher program ⟨data, []⟩
    exact (curbed.map fun ending => ending.2.output).eq_of_ne other
  · rw [← runAll_eq_loopLimit_iff, Program.render]
    exact map_eq_error_iff
  · refine ⟨node.run_of_exceeds isLoop, fun within => ?_⟩
    rcases node.run_of_not_exceeds isLoop within with
      unbegun | ⟨rounds, starts, result, begun, few, ends, ran⟩
    · exact .inl unbegun
    · exact .inr ⟨rounds, starts, result, begun, few, ends, fun _ _ => ends.unique, ran⟩

/-- Two loops in a loop. The first of them changes the counter of the outer one, which is bound anew
for each round all the same. -/
def outerLoop : Node :=
  .range "i".toList (.literal (.number (.whole 0))) (.literal (.number (.whole 2))) false
    [.whileLoop (.binary (.var "i".toList) .less (.literal (.number (.whole 1))))
      [.echo (.var "i".toList) true, .assign "i".toList (.literal (.number (.whole 5)))],
      .range "j".toList (.literal (.number (.whole 0))) (.literal (.number (.whole 2))) false
        [.echo (.var "j".toList) true]]

/-- The inner loops count from nothing each time that they are begun, so two rounds are enough for
each of the three. One round is not enough. -/
theorem limit_guards_nestedRounds :
    Program.render 2 [outerLoop] [] = .ok "00101".toList ∧
      Program.render 9 [outerLoop] [] = .ok "00101".toList ∧
      (∃ rounds starts result, starts ≤ 2 ∧
        ∃ loop, outerLoop.loop? = some loop ∧
          Ends rounds (runAll 2 loop.body) ⟨[], []⟩ starts result) ∧
      Program.render 1 [outerLoop] [] = .error (.loopLimit 1) ∧
      ∃ node s loop, Executes 1 [outerLoop] ⟨[], []⟩ node s ∧ node.loop? = some loop ∧
        loop.Exceeds 1 s ∧ node.run 1 s = .error (.loopLimit 1) := by
  have enough : Program.render 2 [outerLoop] [] = .ok "00101".toList := rfl
  have few : Program.render 1 [outerLoop] [] = .error (.loopLimit 1) := rfl
  obtain ⟨higher, complains, rounds⟩ := Program.limit_guards [outerLoop] []
  have more := higher 2 9 (by decide) (by rw [enough]; nofun)
  obtain ⟨-, node, s, executes, loop, isLoop, exceeds⟩ := (complains 1 1).mp few
  have failed := (rounds 1 node loop s isLoop).1 exceeds
  refine ⟨enough, more.trans enough, ?_, few, node, s, loop, executes, isLoop, exceeds, failed⟩
  -- The outer loop does not complain about two rounds, so it ends by itself.
  cases isOuter : outerLoop.loop? with
  | none => cases isOuter
  | some outer =>
    obtain ⟨complaint, ends⟩ := rounds 2 outerLoop outer ⟨[], []⟩ isOuter
    have within : ¬ outer.Exceeds 2 ⟨[], []⟩ := by
      intro exceeds
      have same := complaint exceeds
      cases same
    rcases ends within with ⟨e, -, ran⟩ | ⟨rounds, starts, result, -, few, ends, -, -⟩
    · cases ran
    · exact ⟨rounds, starts, result, few, outer, rfl, ends⟩

end Templates
