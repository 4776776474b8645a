import Templates.Program.Render

/-!
Loops go from round to round.

The three kinds of loops differ in when their body is due once more. Apart from that all of them run
alike: up to a limit that each run of a loop counts for itself, with one complaint in place of the
first round beyond it. Main statement: how a loop runs, told without the limit and then with it.
-/

namespace Templates

/-- When the body of a loop is due: after a number of rounds and in a scope, the scope in which it
starts once more, if it does. -/
abbrev Rounds := Nat → Scope → Except EvalError (Option Scope)

namespace Rounds

/-- The body is due while a test holds. -/
def testedBefore (test : Scope → Except EvalError Bool) : Rounds := fun _ scope =>
  (test scope).map fun holds => if holds then some scope else none

/-- The body is due at first, and then while a test holds. -/
def testedAfter (test : Scope → Except EvalError Bool) : Rounds
  | 0, scope => .ok (some scope)
  | _ + 1, scope => (test scope).map fun holds => if holds then some scope else none

/-- The body is due for each integer from one up to but not including another, which a variable is
bound to. -/
def counted (counter : Text) (start stop : Int) : Rounds := fun rounds scope =>
  if start + rounds < stop then
    .ok (some (scope.bind counter (.number (.whole (start + rounds)))))
  else .ok none

end Rounds

/-- What a loop runs, and when, which may depend on where it is begun. -/
structure Loop where
  body : List Node
  rounds : Scope → Except EvalError Rounds

/-- The loop that a statement is, if its rounds are counted. -/
def Node.loop? : Node → Option Loop
  | .whileLoop condition body => some ⟨body, fun _ => .ok (.testedBefore (holds condition))⟩
  | .doWhileLoop body condition => some ⟨body, fun _ => .ok (.testedAfter (holds condition))⟩
  | .range counter start stop inclusive body => some ⟨body, fun scope => do
      let start ← (← scope.eval start).bound
      let stop ← (← scope.eval stop).bound
      return .counted counter start (if inclusive then min (stop + 1) (twoTo 63 - 1) else stop)⟩
  | _ => none

section

variable (rounds : Rounds) (body : Body) (first : Scope)

/-- A number of rounds are over, each of which ran to its end, and have led to a scope. -/
inductive Passed : Nat → Scope → Prop where
  | none : Passed 0 first
  | round {k : Nat} {s inner after : Scope} :
    Passed k s → rounds k s = .ok (some inner) → body inner = .ok (.done, after) →
      Passed (k + 1) after

/-- After a number of rounds the body is due once more, in a scope. -/
def Due (k : Nat) (inner : Scope) : Prop :=
  ∃ s, Passed rounds body first k s ∧ rounds k s = .ok (some inner)

/-- How a loop ends by itself: how often its body was started, and with which result. -/
inductive Ends : Nat → Except EvalError Scope → Prop where
  | ended {k : Nat} {s : Scope} :
    Passed rounds body first k s → rounds k s = .ok none → Ends k (.ok s)
  | untested {k : Nat} {s : Scope} {e : EvalError} :
    Passed rounds body first k s → rounds k s = .error e → Ends k (.error e)
  | left {k : Nat} {inner after : Scope} :
    Due rounds body first k inner → body inner = .ok (.left, after) → Ends (k + 1) (.ok after)
  | failed {k : Nat} {inner : Scope} {e : EvalError} :
    Due rounds body first k inner → body inner = .error e → Ends (k + 1) (.error e)

end

namespace Body

/-- What comes of a round: the loop goes on if the round ran to its end. -/
def goOn (onward : Scope → Except EvalError Scope) :
    Except EvalError (Flow × Scope) → Except EvalError Scope
  | .error e => .error e
  | .ok (.left, scope) => .ok scope
  | .ok (.done, scope) => onward scope

/-- Loops that go on alike are the same. -/
theorem goOn_congr {onward other : Scope → Except EvalError Scope}
    (same : ∀ s, onward s = other s) (ending : Except EvalError (Flow × Scope)) :
    goOn onward ending = goOn other ending := by
  rw [funext same]

/-- A body runs in rounds, of which a number are over and no more than another may follow. -/
def inRounds (limit : Nat) (rounds : Rounds) (body : Body) :
    Nat → Nat → Scope → Except EvalError Scope
  | 0, k, scope =>
    match rounds k scope with
    | .error e => .error e
    | .ok none => .ok scope
    | .ok (some _) => .error (.loopLimit limit)
  | count + 1, k, scope =>
    match rounds k scope with
    | .error e => .error e
    | .ok none => .ok scope
    | .ok (some inner) => goOn (inRounds limit rounds body count (k + 1)) (body inner)

variable (limit : Nat) (body : Body)

/-- A loop with its test in front goes in rounds. -/
theorem whileTrue_eq_inRounds (test : Scope → Except EvalError Bool) (count k : Nat)
    (scope : Scope) :
    whileTrue limit test body count scope =
      inRounds limit (.testedBefore test) body count k scope := by
  induction count generalizing k scope with
  | zero =>
    rw [whileTrue, inRounds, Rounds.testedBefore]
    cases test scope with
    | error e => rfl
    | ok holds => cases holds <;> rfl
  | succ count ih =>
    rw [whileTrue, inRounds, Rounds.testedBefore]
    cases test scope with
    | error e => rfl
    | ok holds =>
      cases holds with
      | false => rfl
      | true => exact goOn_congr (ih (k + 1)) (body scope)

/-- Behind its first round, a loop with its test at the end goes on as one with its test in front. -/
theorem doWhileTrue_succ (test : Scope → Except EvalError Bool) (count : Nat) (scope : Scope) :
    doWhileTrue limit test body (count + 1) scope =
      goOn (whileTrue limit test body count) (body scope) := by
  induction count generalizing scope with
  | zero =>
    rw [doWhileTrue]
    refine goOn_congr (fun after => ?_) (body scope)
    rw [whileTrue]
    cases test after with
    | error e => rfl
    | ok holds => cases holds <;> rfl
  | succ count ih =>
    rw [doWhileTrue]
    refine goOn_congr (fun after => ?_) (body scope)
    rw [whileTrue]
    cases test after with
    | error e => rfl
    | ok holds =>
      cases holds with
      | false => rfl
      | true => exact ih after

/-- A loop with its test at the end goes in rounds: the test is due between two of them. -/
theorem doWhileTrue_eq_inRounds (test : Scope → Except EvalError Bool) (count : Nat)
    (scope : Scope) :
    doWhileTrue limit test body count scope =
      inRounds limit (.testedAfter test) body count 0 scope := by
  -- Behind a round the body is due when the test holds.
  have goesOn (count k : Nat) (scope : Scope) :
      whileTrue limit test body count scope =
        inRounds limit (.testedAfter test) body count (k + 1) scope := by
    induction count generalizing k scope with
    | zero =>
      rw [whileTrue, inRounds, Rounds.testedAfter]
      cases test scope with
      | error e => rfl
      | ok holds => cases holds <;> rfl
    | succ count ih =>
      rw [whileTrue, inRounds, Rounds.testedAfter]
      cases test scope with
      | error e => rfl
      | ok holds =>
        cases holds with
        | false => rfl
        | true => exact goOn_congr (ih (k + 1)) (body scope)
  cases count with
  | zero => rfl
  | succ count =>
    rw [doWhileTrue_succ, inRounds, Rounds.testedAfter]
    exact goOn_congr (goesOn count 0) (body scope)

/-- A loop over integers goes in rounds. -/
theorem countUp_eq_inRounds (counter : Text) (start stop : Int) (count k : Nat) (scope : Scope) :
    countUp limit counter stop body count (start + k) scope =
      inRounds limit (.counted counter start stop) body count k scope := by
  induction count generalizing k scope with
  | zero =>
    rw [countUp, inRounds, Rounds.counted]
    split <;> rfl
  | succ count ih =>
    have next : start + (k : Int) + 1 = start + ((k + 1 : Nat) : Int) := by omega
    rw [countUp, inRounds, Rounds.counted]
    split
    · rw [next]
      exact goOn_congr (ih (k + 1)) _
    · rfl

variable {limit body} {rounds : Rounds} {first : Scope}

/-- Rounds that are over have used up as much of the count. -/
theorem inRounds_of_passed {k : Nat} {s : Scope} (passed : Passed rounds body first k s)
    (count : Nat) :
    inRounds limit rounds body (k + count) 0 first = inRounds limit rounds body count k s := by
  induction passed generalizing count with
  | none => rw [Nat.zero_add]
  | @round k s inner after passed due ran ih =>
    rw [Nat.add_right_comm, Nat.add_assoc, ih, inRounds]
    simp only [due, ran, goOn]

/-- How a loop runs on behind rounds that are over: it ends by itself, or one more round is due when
the count is used up. -/
theorem inRounds_cases {k : Nat} {s : Scope} (passed : Passed rounds body first k s)
    (count : Nat) :
    (∃ starts ≤ k + count,
        Ends rounds body first starts (inRounds limit rounds body count k s)) ∨
      ∃ inner, Due rounds body first (k + count) inner := by
  induction count generalizing k s with
  | zero =>
    rw [inRounds]
    cases due : rounds k s with
    | error e => exact .inl ⟨k, by omega, .untested passed due⟩
    | ok next =>
      cases next with
      | none => exact .inl ⟨k, by omega, .ended passed due⟩
      | some inner => exact .inr ⟨inner, s, passed, due⟩
  | succ count ih =>
    rw [inRounds]
    cases due : rounds k s with
    | error e => exact .inl ⟨k, by omega, .untested passed due⟩
    | ok next =>
      cases next with
      | none => exact .inl ⟨k, by omega, .ended passed due⟩
      | some inner =>
        have isDue : Due rounds body first k inner := ⟨s, passed, due⟩
        simp only
        cases ran : body inner with
        | error e => exact .inl ⟨k + 1, by omega, .failed isDue ran⟩
        | ok ending =>
          obtain ⟨flow, after⟩ := ending
          cases flow with
          | left => exact .inl ⟨k + 1, by omega, .left isDue ran⟩
          | done =>
            have onward := ih (.round passed due ran)
            rwa [Nat.add_right_comm, Nat.add_assoc] at onward

/-- A loop that ends by itself within the limit does so. -/
theorem inRounds_of_ends {starts : Nat} {result : Except EvalError Scope}
    (ends : Ends rounds body first starts result) (within : starts ≤ limit) :
    inRounds limit rounds body limit 0 first = result := by
  -- What is left of the count is enough for the last round.
  cases ends with
  | @ended k s passed due =>
    obtain ⟨count, rfl⟩ := Nat.exists_eq_add_of_le within
    rw [inRounds_of_passed passed]
    cases count <;> simp only [inRounds, due]
  | @untested k s e passed due =>
    obtain ⟨count, rfl⟩ := Nat.exists_eq_add_of_le within
    rw [inRounds_of_passed passed]
    cases count <;> simp only [inRounds, due]
  | @left k inner after isDue ran =>
    obtain ⟨count, rfl⟩ := Nat.exists_eq_add_of_le within
    obtain ⟨s, passed, due⟩ := isDue
    rw [Nat.add_right_comm, Nat.add_assoc, inRounds_of_passed passed, inRounds]
    simp only [due, ran, goOn]
  | @failed k inner e isDue ran =>
    obtain ⟨count, rfl⟩ := Nat.exists_eq_add_of_le within
    obtain ⟨s, passed, due⟩ := isDue
    rw [Nat.add_right_comm, Nat.add_assoc, inRounds_of_passed passed, inRounds]
    simp only [due, ran, goOn]

/-- A loop complains when one more round is due beyond the limit. -/
theorem inRounds_of_due {inner : Scope} (isDue : Due rounds body first limit inner) :
    inRounds limit rounds body limit 0 first = .error (.loopLimit limit) := by
  obtain ⟨s, passed, due⟩ := isDue
  have used : inRounds limit rounds body (limit + 0) 0 first = inRounds limit rounds body 0 limit s :=
    inRounds_of_passed passed 0
  rw [Nat.add_zero] at used
  rw [used, inRounds]
  simp only [due]

end Body

/-- A statement that is a loop runs in rounds, as many of which as the limit says may follow on its
beginning. -/
theorem Node.run_loop {node : Node} {loop : Loop} (isLoop : node.loop? = some loop) (limit : Nat)
    (scope : Scope) :
    node.run limit scope = (do
      let rounds ← loop.rounds scope
      let scope ← Body.inRounds limit rounds (runAll limit loop.body) limit 0 scope
      return (.done, scope)) := by
  -- One case for each kind of loop.
  cases node with
  | whileLoop condition body =>
    cases isLoop
    rw [Node.run, Body.whileTrue_eq_inRounds limit _ (holds condition) limit 0]
    rfl
  | doWhileLoop body condition =>
    cases isLoop
    rw [Node.run, Body.doWhileTrue_eq_inRounds]
    rfl
  | range counter start stop inclusive body =>
    cases isLoop
    -- Before the first round the counter is at the start.
    have counts (first last : Int) (s : Scope) :
        Body.countUp limit counter last (fun s => runAll limit body s) limit first s =
          Body.inRounds limit (.counted counter first last) (runAll limit body) limit 0 s := by
      have start := Body.countUp_eq_inRounds limit (runAll limit body) counter first last limit 0 s
      rwa [Int.natCast_zero, Int.add_zero] at start
    simp only [Node.run, counts, bind_assoc, pure_bind]
  | text | echo | choice | foreach | switch | assign | leave => cases isLoop

namespace Passed

variable {rounds : Rounds} {body : Body} {first : Scope} {k : Nat} {s : Scope}

/-- A number of rounds leads to one scope. -/
theorem unique {t : Scope} (passed : Passed rounds body first k s)
    (other : Passed rounds body first k t) : s = t := by
  induction passed generalizing t with
  | none =>
    cases other
    rfl
  | round _ due ran ih =>
    cases other with
    | round earlier due' ran' =>
      obtain rfl := ih earlier
      obtain rfl := Option.some.inj (Except.ok.inj (due.symm.trans due'))
      exact congrArg Prod.snd (Except.ok.inj (ran.symm.trans ran'))

/-- After each round but the last one the next one was due, and ran to its end. -/
theorem due_of_lt (passed : Passed rounds body first k s) {j : Nat} (earlier : j < k) :
    ∃ inner after, Due rounds body first j inner ∧ body inner = .ok (.done, after) := by
  induction passed with
  | none => exact absurd earlier (Nat.not_lt_zero j)
  | @round k s inner after before due ran ih =>
    rcases Nat.lt_succ_iff_lt_or_eq.mp earlier with earlier | rfl
    · exact ih earlier
    · exact ⟨inner, after, ⟨s, before, due⟩, ran⟩

end Passed

/-- A body is due in one scope. -/
theorem Due.unique {rounds : Rounds} {body : Body} {first : Scope} {k : Nat} {inner other : Scope}
    (isDue : Due rounds body first k inner) (alsoDue : Due rounds body first k other) :
    inner = other := by
  obtain ⟨s, passed, due⟩ := isDue
  obtain ⟨t, passed', due'⟩ := alsoDue
  obtain rfl := passed.unique passed'
  exact Option.some.inj (Except.ok.inj (due.symm.trans due'))

namespace Ends

variable {rounds : Rounds} {body : Body} {first : Scope} {starts : Nat}
  {result : Except EvalError Scope}

/-- A loop that ends was due at each of its starts. -/
theorem due_of_lt (ends : Ends rounds body first starts result) {j : Nat} (earlier : j < starts) :
    ∃ inner, Due rounds body first j inner := by
  have before {k : Nat} {s : Scope} (passed : Passed rounds body first k s) (earlier : j < k) :
      ∃ inner, Due rounds body first j inner := by
    obtain ⟨inner, -, due, -⟩ := passed.due_of_lt earlier
    exact ⟨inner, due⟩
  cases ends with
  | ended passed _ | untested passed _ => exact before passed earlier
  | @left k inner _ due _ | @failed k inner _ due _ =>
    rcases Nat.lt_succ_iff_lt_or_eq.mp earlier with earlier | rfl
    · obtain ⟨s, passed, -⟩ := due
      exact before passed earlier
    · exact ⟨inner, due⟩

/-- Each round of a loop that ends ran to its end, but for the last one. -/
theorem done_of_lt (ends : Ends rounds body first starts result) {j : Nat}
    (earlier : j + 1 < starts) :
    ∃ inner after, Due rounds body first j inner ∧ body inner = .ok (.done, after) := by
  cases ends with
  | ended passed _ | untested passed _ => exact passed.due_of_lt (by omega)
  | left due _ | failed due _ =>
    obtain ⟨s, passed, -⟩ := due
    exact passed.due_of_lt (by omega)

/-- A loop that ends after a number of starts has no more of them. -/
theorem starts_le (ends : Ends rounds body first starts result) {more : Nat}
    {other : Except EvalError Scope} (others : Ends rounds body first more other) :
    more ≤ starts := by
  apply Nat.le_of_not_lt
  intro exceeds
  -- The place where the loop ends would be one where it goes on.
  cases ends with
  | @ended k s passed due | @untested k s e passed due =>
    obtain ⟨inner, t, passed', due'⟩ := others.due_of_lt exceeds
    obtain rfl := passed.unique passed'
    cases due.symm.trans due'
  | @left k inner after due ran | @failed k inner e due ran =>
    obtain ⟨inner', after', due', ran'⟩ := others.done_of_lt exceeds
    obtain rfl := due.unique due'
    cases ran.symm.trans ran'

/-- How a loop ends by itself, and after how many starts of its body, is settled by its beginning. -/
theorem unique (ends : Ends rounds body first starts result) {more : Nat}
    {other : Except EvalError Scope} (others : Ends rounds body first more other) :
    more = starts ∧ other = result := by
  refine ⟨Nat.le_antisymm (ends.starts_le others) (others.starts_le ends), ?_⟩
  -- Both results are what comes of the loop under a limit that it does not reach.
  have one := Body.inRounds_of_ends ends (Nat.le_max_left starts more)
  have two := Body.inRounds_of_ends others (Nat.le_max_right starts more)
  exact two.symm.trans one

end Ends

/-- A loop that is begun in a scope has one more round due after as many as the limit says. -/
def Loop.Exceeds (limit : Nat) (loop : Loop) (scope : Scope) : Prop :=
  ∃ rounds inner, loop.rounds scope = .ok rounds ∧
    Due rounds (runAll limit loop.body) scope limit inner

section

variable {node : Node} {loop : Loop} (isLoop : node.loop? = some loop) {limit : Nat} {scope : Scope}

include isLoop

/-- A loop whose rounds are known runs in these. -/
theorem Node.run_begun {rounds : Rounds} (begun : loop.rounds scope = .ok rounds) :
    node.run limit scope =
      (Body.inRounds limit rounds (runAll limit loop.body) limit 0 scope).map (.done, ·) := by
  rw [run_loop isLoop, begun]
  rfl

/-- A loop whose rounds are not known fails before the first one. -/
theorem Node.run_unbegun {e : EvalError} (unbegun : loop.rounds scope = .error e) :
    node.run limit scope = .error e := by
  rw [run_loop isLoop, unbegun]
  rfl

/-- A loop with one more round due beyond the limit complains about it. -/
theorem Node.run_of_exceeds (exceeds : loop.Exceeds limit scope) :
    node.run limit scope = .error (.loopLimit limit) := by
  obtain ⟨rounds, inner, begun, due⟩ := exceeds
  rw [run_begun isLoop begun, Body.inRounds_of_due due]
  rfl

/-- All other loops fail before their first round or end by themselves, with no more starts of their
body than the limit says. -/
theorem Node.run_of_not_exceeds (within : ¬ loop.Exceeds limit scope) :
    (∃ e, loop.rounds scope = .error e ∧ node.run limit scope = .error e) ∨
      ∃ rounds starts result, loop.rounds scope = .ok rounds ∧ starts ≤ limit ∧
        Ends rounds (runAll limit loop.body) scope starts result ∧
        node.run limit scope = result.map (.done, ·) := by
  cases begun : loop.rounds scope with
  | error e => exact .inl ⟨e, rfl, run_unbegun isLoop begun⟩
  | ok rounds =>
    -- The loop is at its beginning, where no round is over.
    have start : Passed rounds (runAll limit loop.body) scope 0 scope := .none
    rcases Body.inRounds_cases start limit with ⟨starts, few, ends⟩ | ⟨inner, due⟩
    · rw [Nat.zero_add] at few
      exact .inr ⟨rounds, starts, _, rfl, few, ends, run_begun isLoop begun⟩
    · rw [Nat.zero_add] at due
      exact absurd ⟨rounds, inner, begun, due⟩ within

end

end Templates
