import Templates.Expr.Eval
import Templates.Program.Parser
import Templates.Text.Entities

/-!
Programs write text.

Loops count their rounds against a limit, each run of a loop on its own, and variables a loop or an
assignment binds stay bound behind it.
-/

namespace Templates

/-- The variables of a render, and what it has written so far, the last piece first. -/
structure Scope where
  data : Data
  pieces : List Text
deriving Repr

/-- Whether a body ran to its end or left the loop or switch around it. -/
inductive Flow where
  | done
  | left
deriving DecidableEq, Repr

namespace Scope

/-- A piece of text is written. -/
def write (text : Text) (scope : Scope) : Scope :=
  { scope with pieces := text :: scope.pieces }

/-- A variable is bound. -/
def bind (name : Text) (value : Value) (scope : Scope) : Scope :=
  { scope with data := scope.data.insert name value }

/-- All that was written, in order. -/
def output (scope : Scope) : Text :=
  scope.pieces.reverse.flatten

/-- The value of an expression with the variables bound at present. -/
def eval (scope : Scope) (e : Expr) : Except EvalError Value :=
  e.eval scope.data

end Scope

/-- A body is given a scope and passes it on. -/
abbrev Body := Scope → Except EvalError (Flow × Scope)

namespace Body

/-- A body runs while a test holds, at most as often as the count says. -/
def whileTrue (limit : Nat) (test : Scope → Except EvalError Bool) (body : Body) :
    Nat → Scope → Except EvalError Scope
  | 0, scope =>
    match test scope with
    | .error e => .error e
    | .ok false => .ok scope
    | .ok true => .error (.loopLimit limit)
  | count + 1, scope =>
    match test scope with
    | .error e => .error e
    | .ok false => .ok scope
    | .ok true =>
      match body scope with
      | .error e => .error e
      | .ok (.left, scope) => .ok scope
      | .ok (.done, scope) => whileTrue limit test body count scope

/-- A body runs once and again while a test holds, at most as often as the count says. -/
def doWhileTrue (limit : Nat) (test : Scope → Except EvalError Bool) (body : Body) :
    Nat → Scope → Except EvalError Scope
  | 0, _ => .error (.loopLimit limit)
  | count + 1, scope =>
    match body scope with
    | .error e => .error e
    | .ok (.left, scope) => .ok scope
    | .ok (.done, scope) =>
      match test scope with
      | .error e => .error e
      | .ok false => .ok scope
      | .ok true => doWhileTrue limit test body count scope

/-- A body runs for each integer from one up to but not including another, at most as often as the
count says. -/
def countUp (limit : Nat) (counter : Text) (stop : Int) (body : Body) :
    Nat → Int → Scope → Except EvalError Scope
  | 0, current, scope => if current < stop then .error (.loopLimit limit) else .ok scope
  | count + 1, current, scope =>
    if current < stop then
      match body (scope.bind counter (.number (.whole current))) with
      | .error e => .error e
      | .ok (.left, scope) => .ok scope
      | .ok (.done, scope) => countUp limit counter stop body count (current + 1) scope
    else .ok scope

/-- A body runs for each entry of a collection. -/
def forEach (key : Option Text) (item : Text) (body : Body) :
    List (Value × Value) → Scope → Except EvalError Scope
  | [], scope => .ok scope
  | (place, value) :: rest, scope =>
    let scope := match key with
      | some key => scope.bind key place
      | none => scope
    match body (scope.bind item value) with
    | .error e => .error e
    | .ok (.left, scope) => .ok scope
    | .ok (.done, scope) => forEach key item body rest scope

end Body

/-- Values with their places in a list, counted from a first one. -/
def numbered : Nat → List Value → List (Value × Value)
  | _, [] => []
  | n, value :: rest => (.number (.whole n), value) :: numbered (n + 1) rest

/-- The entries of a collection with their places or names; null has none. -/
def Value.entries : Value → Except EvalError (List (Value × Value))
  | .null => .ok []
  | .list items => .ok (numbered 0 items)
  | .record fields => .ok (fields.map fun (name, value) => (.text name, value))
  | value => .error (.notIterable value.kind)

/-- A bound of a range as an integer. -/
def Value.bound : Value → Except EvalError Int
  | .number n =>
    match n.toInteger? with
    | some bound => .ok bound
    | none => .error (.boundNotInteger n)
  | value => .error (.boundNotNumber value.kind)

/-- The first case whose test equals the subject, counted from a given place. -/
def matchingCase? (scope : Scope) (subject : Value) :
    Nat → List (Option Expr) → Except EvalError (Option Nat)
  | _, [] => .ok none
  | place, none :: rest => matchingCase? scope subject (place + 1) rest
  | place, some test :: rest =>
    match scope.eval test with
    | .error e => .error e
    | .ok value =>
      if subject.looseEquals value then .ok (some place)
      else matchingCase? scope subject (place + 1) rest

/-- The case a switch starts with: the first that equals the subject, or else the first default;
with neither, a place behind all cases. -/
def startingCase (scope : Scope) (subject : Value) (tests : List (Option Expr)) :
    Except EvalError Nat := do
  match ← matchingCase? scope subject 0 tests with
  | some place => return place
  | none => return tests.findIdx Option.isNone

/-- Whether an expression counts as true in a scope. -/
def holds (condition : Expr) (scope : Scope) : Except EvalError Bool :=
  (scope.eval condition).map Value.truthy

mutual

/-- One statement runs. -/
def Node.run (limit : Nat) : Node → Body
  | .text content, scope => .ok (.done, scope.write content)
  | .echo value escaped, scope => do
    let text := (← scope.eval value).display
    return (.done, scope.write (if escaped then Text.escape text else text))
  | .choice branches otherwise, scope =>
    runBranches limit (fun scope => runAll limit otherwise scope) branches scope
  | .foreach iterable key item body, scope => do
    let entries ← (← scope.eval iterable).entries
    let scope ← Body.forEach key item (fun scope => runAll limit body scope) entries scope
    return (.done, scope)
  | .range counter start stop inclusive body, scope => do
    let start ← (← scope.eval start).bound
    let stop ← (← scope.eval stop).bound
    -- The integer behind the last one of 64 bits is never reached.
    let stop := if inclusive then min (stop + 1) (twoTo 63 - 1) else stop
    let scope ←
      Body.countUp limit counter stop (fun scope => runAll limit body scope) limit start scope
    return (.done, scope)
  | .whileLoop condition body, scope => do
    let scope ← Body.whileTrue limit (holds condition) (fun scope => runAll limit body scope)
      limit scope
    return (.done, scope)
  | .doWhileLoop body condition, scope => do
    let scope ← Body.doWhileTrue limit (holds condition) (fun scope => runAll limit body scope)
      limit scope
    return (.done, scope)
  | .switch subject cases, scope => do
    let subject ← scope.eval subject
    let start ← startingCase scope subject (cases.map Prod.fst)
    let scope ← runCases limit start cases scope
    return (.done, scope)
  | .assign name value, scope => do
    let value ← scope.eval value
    return (.done, scope.bind name value)
  | .leave, scope => .ok (.left, scope)

/-- Statements run in order until one leaves. -/
def runAll (limit : Nat) : List Node → Body
  | [], scope => .ok (.done, scope)
  | node :: rest, scope =>
    match node.run limit scope with
    | .error e => .error e
    | .ok (.left, scope) => .ok (.left, scope)
    | .ok (.done, scope) => runAll limit rest scope

/-- The first branch whose condition holds runs, or else a last body. -/
def runBranches (limit : Nat) (otherwise : Body) : List (Expr × List Node) → Body
  | [], scope => otherwise scope
  | (condition, body) :: rest, scope =>
    match holds condition scope with
    | .error e => .error e
    | .ok true => runAll limit body scope
    | .ok false => runBranches limit otherwise rest scope

/-- Cases behind a number of others run in order until one leaves. -/
def runCases (limit : Nat) : Nat → List (Option Expr × List Node) → Scope → Except EvalError Scope
  | _, [], scope => .ok scope
  | skip + 1, _ :: rest, scope => runCases limit skip rest scope
  | 0, (_, body) :: rest, scope =>
    match runAll limit body scope with
    | .error e => .error e
    | .ok (.left, scope) => .ok scope
    | .ok (.done, scope) => runCases limit 0 rest scope

end

/-- What a program writes with the data at hand. A statement that leaves the page ends it. -/
def Program.render (limit : Nat) (program : Program) (data : Data) : Except EvalError Text :=
  (runAll limit program ⟨data, []⟩).map fun (_, scope) => scope.output

/-- Reasons why an artifact cannot be rendered. -/
inductive RenderError where
  | program (error : ProgramError)
  | eval (error : EvalError)
deriving DecidableEq, Repr

/-- The wording of an error. -/
def RenderError.message : RenderError → Text
  | .program error => error.message
  | .eval error => error.message

/-- What an artifact writes with the data at hand. -/
def render (limit : Nat) (artifact : Text) (data : Data) : Except RenderError Text := do
  let program ← (Program.read artifact).mapError .program
  (program.render limit data).mapError .eval

end Templates
