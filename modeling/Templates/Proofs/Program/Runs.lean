import Templates.Program.Render

/-!
What two runs of one program have in common.

A relation between scopes that each piece of a program respects is kept by the program. In related
scopes it fails with one error, or ends in one way in scopes that are related again.
-/

namespace Templates

/-- A piece of a program: what it writes, or an expression that it looks at. -/
inductive Atom where
  | text (content : Text)
  | echo (value : Expr) (escaped : Bool)
  | expr (e : Expr)

/-- The expression of a piece. -/
def Atom.expression? : Atom → Option Expr
  | .text _ => none
  | .echo value _ => some value
  | .expr e => some e

mutual

/-- The pieces of a statement and of all that stands in it. -/
def Node.atoms : Node → List Atom
  | .text content => [.text content]
  | .echo value escaped => [.echo value escaped]
  | .choice branches otherwise => branchAtoms branches ++ atomsAll otherwise
  | .foreach iterable _ _ body => .expr iterable :: atomsAll body
  | .range _ start stop _ body => .expr start :: .expr stop :: atomsAll body
  | .whileLoop condition body => .expr condition :: atomsAll body
  | .doWhileLoop body condition => .expr condition :: atomsAll body
  | .switch subject cases => .expr subject :: caseAtoms cases
  | .assign _ value => [.expr value]
  | .leave => []

/-- The pieces of statements. -/
def atomsAll : List Node → List Atom
  | [] => []
  | node :: rest => node.atoms ++ atomsAll rest

/-- The pieces of branches. -/
def branchAtoms : List (Expr × List Node) → List Atom
  | [] => []
  | (condition, body) :: rest => .expr condition :: (atomsAll body ++ branchAtoms rest)

/-- The pieces of cases. -/
def caseAtoms : List (Option Expr × List Node) → List Atom
  | [] => []
  | (none, body) :: rest => atomsAll body ++ caseAtoms rest
  | (some test, body) :: rest => .expr test :: (atomsAll body ++ caseAtoms rest)

end

/-- The pieces of a program. -/
def Program.atoms (program : Program) : List Atom :=
  atomsAll program

/-- What an echo shows of a value. -/
def Value.echoed (escaped : Bool) (value : Value) : Text :=
  if escaped then Text.escape value.display else value.display

/-- Results that go abreast: one error, or two values that are related. -/
inductive Abreast {α : Type} (R : α → α → Prop) : Except EvalError α → Except EvalError α → Prop
  | error (e : EvalError) : Abreast R (.error e) (.error e)
  | ok {a b : α} (related : R a b) : Abreast R (.ok a) (.ok b)

namespace Abreast

variable {α β : Type} {R : α → α → Prop} {S : β → β → Prop}

/-- What goes on abreast from related values goes on alike from results that go abreast. -/
theorem bind {x y : Except EvalError α} (abreast : Abreast R x y) {f g : α → Except EvalError β}
    (onward : ∀ a b, R a b → Abreast S (f a) (g b)) : Abreast S (x >>= f) (y >>= g) := by
  cases abreast with
  | error e => exact .error e
  | ok related => exact onward _ _ related

/-- What goes on abreast from one value goes on so from one result. -/
theorem bind_of_eq {x y : Except EvalError α} (same : x = y) {f g : α → Except EvalError β}
    (onward : ∀ a, Abreast S (f a) (g a)) : Abreast S (x >>= f) (y >>= g) := by
  subst same
  cases x with
  | error e => exact .error e
  | ok a => exact onward a

/-- Related values that a function takes to one value are not told apart. -/
theorem map_eq {x y : Except EvalError α} (abreast : Abreast R x y) {f : α → β}
    (same : ∀ a b, R a b → f a = f b) : x.map f = y.map f := by
  cases abreast with
  | error e => rfl
  | ok related => exact congrArg Except.ok (same _ _ related)

end Abreast

/-- The two ends of a body: both done or both left, in related scopes. -/
def SameEnd (R : Scope → Scope → Prop) (a b : Flow × Scope) : Prop :=
  a.1 = b.1 ∧ R a.2 b.2

/-- A body in related scopes ends alike. -/
def Body.Keeps (R : Scope → Scope → Prop) (body : Body) : Prop :=
  ∀ s t, R s t → Abreast (SameEnd R) (body s) (body t)

/-- A relation between scopes that is kept when a variable is bound and when one of some pieces
writes, and that makes no difference to the expressions of these pieces. -/
structure Respects (R : Scope → Scope → Prop) (atoms : List Atom) : Prop where
  bind : ∀ {s t}, R s t → ∀ name value, R (s.bind name value) (t.bind name value)
  text : ∀ {s t}, R s t → ∀ content, .text content ∈ atoms → R (s.write content) (t.write content)
  echo : ∀ {s t}, R s t → ∀ value escaped, .echo value escaped ∈ atoms → ∀ shown : Value,
    R (s.write (shown.echoed escaped)) (t.write (shown.echoed escaped))
  eval : ∀ {s t}, R s t → ∀ e ∈ atoms.filterMap Atom.expression?, s.eval e = t.eval e

namespace Respects

variable {R : Scope → Scope → Prop} {atoms more : List Atom}

/-- What respects pieces respects fewer of them. -/
theorem mono (respects : Respects R more) (sub : atoms ⊆ more) : Respects R atoms where
  bind := respects.bind
  text related content listed := respects.text related content (sub listed)
  echo related value escaped listed := respects.echo related value escaped (sub listed)
  eval related e listed := respects.eval related e (List.filterMap_subset _ sub listed)

/-- Pieces of two parts are respected in each. -/
theorem split (respects : Respects R (atoms ++ more)) : Respects R atoms ∧ Respects R more :=
  ⟨respects.mono (List.subset_append_left _ _), respects.mono (List.subset_append_right _ _)⟩

/-- An expression in front of pieces is looked at alike, and they are respected. -/
theorem uncons {e : Expr} (respects : Respects R (.expr e :: more)) :
    (∀ {s t}, R s t → s.eval e = t.eval e) ∧ Respects R more :=
  ⟨fun related => respects.eval related e (by simp [Atom.expression?]),
    respects.mono (List.subset_cons_self _ _)⟩

end Respects

namespace Body.Keeps

variable {R : Scope → Scope → Prop} {body : Body}

/-- The ways in which a body ends in related scopes. -/
theorem cases (keeps : body.Keeps R) {s t : Scope} (related : R s t) :
    (∃ e, body s = .error e ∧ body t = .error e) ∨
      (∃ a b, body s = .ok (.left, a) ∧ body t = .ok (.left, b) ∧ R a b) ∨
      ∃ a b, body s = .ok (.done, a) ∧ body t = .ok (.done, b) ∧ R a b := by
  -- Both results are built by the same constructor, and both ends have the same flow.
  have ends := keeps s t related
  generalize body s = x, body t = y at ends
  cases ends with
  | error e => exact .inl ⟨e, rfl, rfl⟩
  | @ok a b ends =>
    obtain ⟨flow, a⟩ := a
    obtain ⟨_, b⟩ := b
    obtain ⟨rfl, after⟩ := ends
    cases flow with
    | left => exact .inr (.inl ⟨a, b, rfl, rfl, after⟩)
    | done => exact .inr (.inr ⟨a, b, rfl, rfl, after⟩)

/-- A loop goes on alike behind a round that ran to its end. -/
theorem goOn (keeps : body.Keeps R) {s t : Scope} (related : R s t)
    {onward : Scope → Except EvalError Scope}
    (abreast : ∀ a b, R a b → Abreast R (onward a) (onward b)) :
    Abreast R
      (match body s with
        | .error e => .error e
        | .ok (.left, scope) => .ok scope
        | .ok (.done, scope) => onward scope)
      (match body t with
        | .error e => .error e
        | .ok (.left, scope) => .ok scope
        | .ok (.done, scope) => onward scope) := by
  obtain ⟨e, left, right⟩ | ⟨a, b, left, right, after⟩ | ⟨a, b, left, right, after⟩ :=
    keeps.cases related
  · rw [left, right]
    exact .error e
  · rw [left, right]
    exact .ok after
  · rw [left, right]
    exact abreast a b after

/-- A body that runs while a test holds. -/
theorem whileTrue (keeps : body.Keeps R) {test : Scope → Except EvalError Bool}
    (tests : ∀ s t, R s t → test s = test t) (limit count : Nat) {s t : Scope} (related : R s t) :
    Abreast R (Body.whileTrue limit test body count s)
      (Body.whileTrue limit test body count t) := by
  -- The test decides alike before each round, and each round leads to related scopes.
  induction count generalizing s t with
  | zero =>
    rw [Body.whileTrue, Body.whileTrue, tests s t related]
    split
    · exact .error _
    · exact .ok related
    · exact .error _
  | succ count ih =>
    rw [Body.whileTrue, Body.whileTrue, tests s t related]
    split
    · exact .error _
    · exact .ok related
    · exact keeps.goOn related fun a b after => ih after

/-- A body that runs once and again while a test holds. -/
theorem doWhileTrue (keeps : body.Keeps R) {test : Scope → Except EvalError Bool}
    (tests : ∀ s t, R s t → test s = test t) (limit count : Nat) {s t : Scope} (related : R s t) :
    Abreast R (Body.doWhileTrue limit test body count s)
      (Body.doWhileTrue limit test body count t) := by
  induction count generalizing s t with
  | zero => exact .error _
  | succ count ih =>
    -- The test looks at the scopes that the round has led to.
    rw [Body.doWhileTrue, Body.doWhileTrue]
    refine keeps.goOn related fun a b after => ?_
    rw [tests a b after]
    split
    · exact .error _
    · exact .ok after
    · exact ih after

/-- A body that runs for each integer of a range. -/
theorem countUp (keeps : body.Keeps R)
    (binds : ∀ {s t}, R s t → ∀ name value, R (s.bind name value) (t.bind name value))
    (limit : Nat) (counter : Text) (stop : Int) (count : Nat) (current : Int) {s t : Scope}
    (related : R s t) :
    Abreast R (Body.countUp limit counter stop body count current s)
      (Body.countUp limit counter stop body count current t) := by
  -- Whether a round is due depends on the counter, and it is bound alike for each one.
  induction count generalizing current s t with
  | zero =>
    rw [Body.countUp, Body.countUp]
    split
    · exact .error _
    · exact .ok related
  | succ count ih =>
    rw [Body.countUp, Body.countUp]
    split
    · exact keeps.goOn (binds related counter (.number (.whole current)))
        fun a b after => ih (current + 1) after
    · exact .ok related

/-- A body that runs for each entry of a collection. -/
theorem forEach (keeps : body.Keeps R)
    (binds : ∀ {s t}, R s t → ∀ name value, R (s.bind name value) (t.bind name value))
    (key : Option Text) (item : Text) (entries : List (Value × Value)) {s t : Scope}
    (related : R s t) :
    Abreast R (Body.forEach key item body entries s) (Body.forEach key item body entries t) := by
  induction entries generalizing s t with
  | nil => exact .ok related
  | cons entry rest ih =>
    obtain ⟨place, value⟩ := entry
    -- The scopes are related still when the variables of the loop are bound.
    cases key with
    | none => exact keeps.goOn (binds related item value) fun a b after => ih after
    | some key =>
      exact keeps.goOn (binds (binds related key place) item value) fun a b after => ih after

end Body.Keeps

namespace Respects

variable {R : Scope → Scope → Prop}

/-- A condition holds in both scopes or in none. -/
theorem holds {condition : Expr} {atoms : List Atom}
    (respects : Respects R (.expr condition :: atoms)) {s t : Scope} (related : R s t) :
    Templates.holds condition s = Templates.holds condition t :=
  congrArg (Except.map Value.truthy) (respects.uncons.1 related)

/-- A switch finds the same case. -/
theorem matchingCase? {cases : List (Option Expr × List Node)}
    (respects : Respects R (caseAtoms cases)) {s t : Scope} (related : R s t) (subject : Value)
    (place : Nat) :
    Templates.matchingCase? s subject place (cases.map Prod.fst) =
      Templates.matchingCase? t subject place (cases.map Prod.fst) := by
  induction cases generalizing place with
  | nil => rfl
  | cons case rest ih =>
    obtain ⟨test, body⟩ := case
    -- A default is passed over, and a test has one value in both scopes.
    cases test with
    | none => exact ih respects.split.2 (place + 1)
    | some test =>
      obtain ⟨looked, respects⟩ := respects.uncons
      simp only [List.map_cons, Templates.matchingCase?, looked related,
        ih respects.split.2 (place + 1)]

end Respects

section

variable {R : Scope → Scope → Prop} (limit : Nat)

mutual

/-- A statement whose pieces are respected. -/
theorem Node.run_keeps : (node : Node) → Respects R node.atoms → (node.run limit).Keeps R
  | .text content, respects, s, t, related => by
    rw [Node.run, Node.run]
    exact .ok ⟨rfl, respects.text related content (List.mem_singleton_self _)⟩
  | .echo value escaped, respects, s, t, related => by
    rw [Node.run, Node.run]
    refine .bind_of_eq (respects.eval related value (by simp [Node.atoms, Atom.expression?])) ?_
    intro shown
    exact .ok ⟨rfl, respects.echo related value escaped (List.mem_singleton_self _) shown⟩
  | .choice branches otherwise, respects, s, t, related => by
    rw [Node.run, Node.run]
    obtain ⟨first, last⟩ := respects.split
    exact runBranches_keeps branches first (runAll_keeps otherwise last) s t related
  | .foreach iterable key item body, respects, s, t, related => by
    rw [Node.run, Node.run]
    obtain ⟨looked, inside⟩ := respects.uncons
    -- Both loops are over the entries of one collection.
    refine .bind_of_eq (looked related) fun collection => .bind_of_eq rfl fun entries => ?_
    exact .bind ((runAll_keeps body inside).forEach respects.bind key item entries related)
      fun a b after => .ok ⟨rfl, after⟩
  | .range counter start stop inclusive body, respects, s, t, related => by
    rw [Node.run, Node.run]
    obtain ⟨lookedFirst, respectsLast⟩ := respects.uncons
    obtain ⟨lookedLast, inside⟩ := respectsLast.uncons
    -- Both loops are over one range.
    refine .bind_of_eq (lookedFirst related) fun first => .bind_of_eq rfl fun first => ?_
    refine .bind_of_eq (lookedLast related) fun last => .bind_of_eq rfl fun last => ?_
    refine .bind ?_ fun a b after => .ok ⟨rfl, after⟩
    exact (runAll_keeps body inside).countUp respects.bind limit counter _ limit first related
  | .whileLoop condition body, respects, s, t, related => by
    rw [Node.run, Node.run]
    exact .bind ((runAll_keeps body respects.uncons.2).whileTrue (fun s t => respects.holds)
      limit limit related) fun a b after => .ok ⟨rfl, after⟩
  | .doWhileLoop body condition, respects, s, t, related => by
    rw [Node.run, Node.run]
    exact .bind ((runAll_keeps body respects.uncons.2).doWhileTrue (fun s t => respects.holds)
      limit limit related) fun a b after => .ok ⟨rfl, after⟩
  | .switch subject cases, respects, s, t, related => by
    rw [Node.run, Node.run]
    obtain ⟨looked, inside⟩ := respects.uncons
    -- Both switches begin with one case.
    refine .bind_of_eq (looked related) fun subject => ?_
    refine .bind_of_eq (congrArg (· >>= _) (inside.matchingCase? related subject 0)) fun place => ?_
    exact .bind (runCases_keeps cases inside place s t related) fun a b after => .ok ⟨rfl, after⟩
  | .assign name value, respects, s, t, related => by
    rw [Node.run, Node.run]
    refine .bind_of_eq (respects.uncons.1 related) fun bound => ?_
    exact .ok ⟨rfl, respects.bind related name bound⟩
  | .leave, _, s, t, related => by
    rw [Node.run, Node.run]
    exact .ok ⟨rfl, related⟩

/-- Statements whose pieces are respected. -/
theorem runAll_keeps : (nodes : List Node) → Respects R (atomsAll nodes) →
    (runAll limit nodes).Keeps R
  | [], _, s, t, related => by
    rw [runAll, runAll]
    exact .ok ⟨rfl, related⟩
  | node :: rest, respects, s, t, related => by
    rw [runAll, runAll]
    obtain ⟨first, last⟩ := respects.split
    obtain ⟨e, left, right⟩ | ⟨a, b, left, right, after⟩ | ⟨a, b, left, right, after⟩ :=
      (node.run_keeps first).cases related
    · rw [left, right]
      exact .error e
    · rw [left, right]
      exact .ok ⟨rfl, after⟩
    · rw [left, right]
      exact runAll_keeps rest last a b after

/-- Branches whose pieces are respected, in front of a body. -/
theorem runBranches_keeps : (branches : List (Expr × List Node)) →
    Respects R (branchAtoms branches) → {otherwise : Body} → otherwise.Keeps R →
    (runBranches limit otherwise branches).Keeps R
  | [], _, otherwise, keeps, s, t, related => by
    rw [runBranches, runBranches]
    exact keeps s t related
  | (condition, body) :: rest, respects, otherwise, keeps, s, t, related => by
    rw [runBranches, runBranches, respects.holds related]
    obtain ⟨first, last⟩ := respects.uncons.2.split
    split
    · exact .error _
    · exact runAll_keeps body first s t related
    · exact runBranches_keeps rest last keeps s t related

/-- Cases whose pieces are respected. -/
theorem runCases_keeps : (cases : List (Option Expr × List Node)) →
    Respects R (caseAtoms cases) → (skip : Nat) → (s t : Scope) → R s t →
    Abreast R (runCases limit skip cases s) (runCases limit skip cases t)
  | [], _, skip, s, t, related => by
    rw [runCases, runCases]
    exact .ok related
  | (test, body) :: rest, respects, skip, s, t, related => by
    have inside : Respects R (atomsAll body ++ caseAtoms rest) := by
      cases test with
      | none => exact respects
      | some test => exact respects.uncons.2
    obtain ⟨first, last⟩ := inside.split
    cases skip with
    | succ skip =>
      rw [runCases, runCases]
      exact runCases_keeps rest last skip s t related
    | zero =>
      rw [runCases, runCases]
      exact (runAll_keeps body first).goOn related fun a b after =>
        runCases_keeps rest last 0 a b after

end

end

end Templates
