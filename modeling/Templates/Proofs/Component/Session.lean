import Templates.Component.Expand

/-! Sessions that succeed, step by step, and the calls that they make. -/

namespace Templates

open Markup

namespace Session

variable {σ α β : Type}

/-- A session takes a state to a result and another state. -/
def Runs (work : Session σ α) (before : σ) (result : α) (after : σ) : Prop :=
  work.run before = (.ok result, after)

/-- A session of nothing but a result leaves its state. -/
theorem runs_pure {before after : σ} {value result : α} :
    Runs (pure value) before result after ↔ result = value ∧ after = before := by
  show ((.ok value, before) : Except Error α × σ) = (.ok result, after) ↔ _
  simp [eq_comm]

/-- A session starts with its first part, and fails if that does. -/
theorem run_bind (first : Session σ α) (next : α → Session σ β) (before : σ) :
    (first >>= next).run before =
      match first.run before with
      | (.ok value, between) => (next value).run between
      | (.error e, between) => (.error e, between) := by
  show (first.run >>= ExceptT.bindCont next) before = _
  show (let (value, between) := first.run before; ExceptT.bindCont next value between) = _
  rcases first.run before with ⟨_ | value, between⟩ <;> rfl

/-- A session whose first part succeeds goes on with the other one. -/
theorem Runs.run_bind {first : Session σ α} {before between : σ} {value : α}
    (runs : Runs first before value between) (next : α → Session σ β) :
    (first >>= next).run before = (next value).run between := by
  unfold Runs at runs
  rw [Session.run_bind, runs]

/-- Two sessions run one after the other. -/
theorem runs_bind {first : Session σ α} {next : α → Session σ β} {before after : σ} {result : β} :
    Runs (first >>= next) before result after ↔
      ∃ value between, Runs first before value between ∧
        Runs (next value) between result after := by
  constructor
  · intro runs
    unfold Runs at runs
    rw [run_bind] at runs
    rcases one : first.run before with ⟨e | value, between⟩
    · -- An error of the first session would be an error of both.
      rw [one] at runs
      cases runs
    · rw [one] at runs
      exact ⟨value, between, one, runs⟩
  · rintro ⟨value, between, one, more⟩
    unfold Runs
    rw [one.run_bind]
    exact more

/-- Sessions of the elements of a list run one after the other. -/
theorem runs_mapM_cons {work : α → Session σ β} {first : α} {rest : List α} {before after : σ}
    {results : List β} :
    Runs ((first :: rest).mapM work) before results after ↔
      ∃ result others between, results = result :: others ∧
        Runs (work first) before result between ∧
          Runs (rest.mapM work) between others after := by
  simp only [List.mapM_cons, runs_bind, runs_pure]
  constructor
  · rintro ⟨result, between, one, others, last, more, rfl, rfl⟩
    exact ⟨result, others, between, rfl, one, more⟩
  · rintro ⟨result, others, between, rfl, one, more⟩
    exact ⟨result, between, one, others, after, more, rfl, rfl⟩

/-- Sessions of two lists run one after the other. -/
theorem runs_mapM_append {work : α → Session σ β} {front back : List α} {before after : σ}
    {results : List β} :
    Runs ((front ++ back).mapM work) before results after ↔
      ∃ first others between, results = first ++ others ∧
        Runs (front.mapM work) before first between ∧
          Runs (back.mapM work) between others after := by
  simp only [List.mapM_append, runs_bind, runs_pure]
  constructor
  · rintro ⟨first, between, one, others, last, more, rfl, rfl⟩
    exact ⟨first, others, between, rfl, one, more⟩
  · rintro ⟨first, others, between, rfl, one, more⟩
    exact ⟨first, between, one, others, after, more, rfl, rfl⟩

/-- Each element has a result. -/
theorem length_of_runs_mapM {work : α → Session σ β} {list : List α} {before after : σ}
    {results : List β} (runs : Runs (list.mapM work) before results after) :
    results.length = list.length := by
  -- Each session adds one result.
  induction list generalizing before results with
  | nil =>
    rw [List.mapM_nil, runs_pure] at runs
    rw [runs.1]
    rfl
  | cons first rest ih =>
    obtain ⟨result, others, between, rfl, _, more⟩ := runs_mapM_cons.mp runs
    rw [List.length_cons, List.length_cons, ih more]

end Session

/-- A renderer that answers like another one and also writes down its calls. -/
def ComponentRenderer.recorded {σ : Type} (renderer : ComponentRenderer σ) :
    ComponentRenderer (σ × List Call) := fun call =>
  fun (state : σ × List Call) =>
    let (answer, after) := (renderer call).run state.1
    (answer, (after, state.2 ++ [call]))

/-- What a call is answered with: the markup of a component, and the fragment that it is read as. -/
abbrev Answer := Rendered × Document

namespace Expander

variable {σ : Type}

/-- A call is answered, and its markup is read. -/
def respond (renderer : ComponentRenderer σ) (call : Call) : Session σ Answer := do
  let rendered ← renderer call
  let fragment ← parsing rendered.html
  return (rendered, fragment)

/-- A document that is read leaves the state of the session. -/
theorem runs_parsing {source : Text} {before after : σ} {d : Document} :
    Session.Runs (parsing source) before d after ↔
      Document.parse source = .ok d ∧ after = before := by
  -- Reading changes no state, and an error is one of the session.
  unfold parsing
  cases Document.parse source with
  | ok read =>
    show Session.Runs (pure read) before d after ↔ _
    rw [Session.runs_pure]
    simp [eq_comm]
  | error e =>
    constructor
    · intro wrong
      cases wrong
    · rintro ⟨wrong, _⟩
      cases wrong

/-- A call is answered with what the renderer gives and the document of its markup. -/
theorem runs_respond {renderer : ComponentRenderer σ} {call : Call} {before after : σ}
    {answer : Answer} :
    Session.Runs (respond renderer call) before answer after ↔
      Session.Runs (renderer call) before answer.1 after ∧
        Document.parse answer.1.html = .ok answer.2 := by
  simp only [respond, Session.runs_bind, Session.runs_pure, runs_parsing]
  constructor
  · rintro ⟨rendered, between, called, fragment, last, ⟨read, rfl⟩, rfl, rfl⟩
    exact ⟨called, read⟩
  · rintro ⟨called, read⟩
    exact ⟨answer.1, after, called, answer.2, after, ⟨read, rfl⟩, rfl, rfl⟩

end Expander

end Templates
