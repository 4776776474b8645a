import Templates.Proofs.Program.Runs

/-!
Renders depend on the named variables only.

Data that agree on the names that a program mentions go through its runs side by side. Whatever
loops and assignments bind, they bind alike.
-/

namespace Templates

mutual

/-- The names of the variables in an expression. -/
def Expr.variables : Expr → List Text
  | .literal _ => []
  | .var name => [name]
  | .member object _ => object.variables
  | .index object place => object.variables ++ place.variables
  | .unary _ operand => operand.variables
  | .binary left _ right => left.variables ++ right.variables
  | .call _ arguments => variablesAll arguments

/-- The names of the variables in expressions. -/
def variablesAll : List Expr → List Text
  | [] => []
  | e :: rest => e.variables ++ variablesAll rest

end

/-- The names of the variables in the expressions of a program. -/
def Program.variables (program : Program) : List Text :=
  (program.atoms.filterMap Atom.expression?).flatMap Expr.variables

/-- Data in which each of some names has the same value or is missing. -/
def AgreeOn (names : List Text) (d other : Data) : Prop :=
  ∀ name ∈ names, d.get? name = other.get? name

namespace AgreeOn

variable {names more : List Text} {d other : Data}

/-- Data that agree on names agree on fewer of them. -/
theorem mono (agree : AgreeOn more d other) (sub : names ⊆ more) : AgreeOn names d other :=
  fun name listed => agree name (sub listed)

/-- Data that agree on two lists of names agree on each. -/
theorem split (agree : AgreeOn (names ++ more) d other) :
    AgreeOn names d other ∧ AgreeOn more d other :=
  ⟨agree.mono (List.subset_append_left _ _), agree.mono (List.subset_append_right _ _)⟩

/-- Data agree still when a variable is bound in both. -/
theorem insert (agree : AgreeOn names d other) (name : Text) (value : Value) :
    AgreeOn names (d.insert name value) (other.insert name value) := by
  intro sought listed
  -- The name just bound has the new value in both, and all others have the old ones.
  by_cases same : sought = name
  · rw [same, Fields.get?_insert_self, Fields.get?_insert_self]
  · rw [Fields.get?_insert_of_ne same, Fields.get?_insert_of_ne same]
    exact agree sought listed

end AgreeOn

/-- The value of an expression depends on its variables only. -/
theorem Expr.eval_congr {d other : Data} (x : Expr) (agree : AgreeOn x.variables d other) :
    x.eval d = x.eval other := by
  -- Every operand that is looked at has the same value, and so has what is made of them.
  induction x using Expr.eval.induct d with
  | case1 value => rfl
  | case2 name value found => simp only [Expr.eval, agree name (List.mem_singleton_self _)]
  | case3 name missing => simp only [Expr.eval, agree name (List.mem_singleton_self _)]
  | case4 object name ih => simp only [Expr.eval, ih agree]
  | case5 object place ihObject ihPlace =>
    simp only [Expr.eval, ihObject agree.split.1, ihPlace agree.split.2]
  | case6 operand ih => simp only [Expr.eval, ih agree]
  | case7 operand ih => simp only [Expr.eval, ih agree]
  | case8 left right ihLeft ihRight | case9 left right ihLeft ihRight
  | case10 left right ihLeft ihRight | case11 left op right _ _ _ ihLeft ihRight =>
    simp only [Expr.eval, ihLeft agree.split.1, ihRight agree.split.2]
  | case12 name arguments unknown => simp only [Expr.eval, unknown]
  | case13 name x known ih | case15 name x known ih | case16 name x known ih
  | case17 name x known ih | case18 name x known ih | case19 name x known ih =>
    simp only [Expr.eval, known, ih agree.split.1]
  | case14 name x other known ih ihOther =>
    simp only [Expr.eval, known, ih agree.split.1, ihOther agree.split.2.split.1]
  | case20 name function arguments _ _ _ _ _ _ _ known =>
    -- A wrong number of arguments is all that is seen of them.
    rw [Expr.eval.eq_def, Expr.eval.eq_def]
    simp only [known]

/-- Scopes with the same output so far and with data that agree on some names. -/
structure Beside (names : List Text) (s t : Scope) : Prop where
  pieces : s.pieces = t.pieces
  data : AgreeOn names s.data t.data

/-- Going side by side on all names of a program is respected by its pieces. -/
theorem Program.respects_beside (program : Program) :
    Respects (Beside program.variables) program.atoms where
  bind beside name value := ⟨beside.pieces, beside.data.insert name value⟩
  text beside content _ := ⟨congrArg (content :: ·) beside.pieces, beside.data⟩
  echo beside _ _ _ _ := ⟨congrArg (_ :: ·) beside.pieces, beside.data⟩
  eval beside e listed :=
    e.eval_congr (beside.data.mono fun _ named => List.mem_flatMap.mpr ⟨e, listed, named⟩)

/-- A program gives the same output, or fails in the same way, with any two data that agree on the
names of the variables in its expressions. -/
theorem Program.render_eq_of_agree (limit : Nat) (program : Program) {d other : Data}
    (agree : ∀ name ∈ program.variables, d.get? name = other.get? name) :
    program.render limit d = program.render limit other := by
  -- At the start nothing is written, and at the end only what is written counts.
  have begins : Beside program.variables ⟨d, []⟩ ⟨other, []⟩ := ⟨rfl, agree⟩
  refine (runAll_keeps limit program program.respects_beside _ _ begins).map_eq ?_
  rintro ⟨_, s⟩ ⟨_, t⟩ ⟨_, beside⟩
  exact congrArg (fun pieces => pieces.reverse.flatten) beside.pieces

/-- A list of items, in front of the last one that the loop has bound. -/
def itemList : Program :=
  [.foreach (.var "items".toList) (some "place".toList) "item".toList
      [.echo (.var "item".toList) true, .assign "last".toList (.var "item".toList)],
    .text "!".toList, .echo (.var "item".toList) true]

/-- Two items. -/
def twoItems : Data :=
  [("items".toList, .list [.text ['a'], .text ['b']])]

/-- Two items, beside variables with the names that the list gives to others. -/
def besideItems : Data :=
  twoItems ++ [("last".toList, .bool true), ("place".toList, .text ['c'])]

/-- What is only bound, and what no expression names, makes no difference. -/
theorem render_itemList :
    (∀ name ∈ itemList.variables, twoItems.get? name = besideItems.get? name) ∧
    itemList.render 9 twoItems = itemList.render 9 besideItems ∧
    itemList.render 9 twoItems = .ok "ab!b".toList := by
  have names : itemList.variables = ["items", "item", "item", "item"].map String.toList := rfl
  have agree : ∀ name ∈ itemList.variables, twoItems.get? name = besideItems.get? name := by
    rw [names]
    simp [twoItems, besideItems, Fields.get?]
  exact ⟨agree, itemList.render_eq_of_agree 9 agree, rfl⟩

end Templates
