import Templates.Proofs.Component.Bond
import Templates.Proofs.Engine.Complaint

/-!
The stack of a session.

A session can be run on any state that holds a stack of tags, and then shows more of itself than its
last stack: on a record, all stacks that it has had. Whatever state it is run on, it goes on in the
same way, and leaves the stack as it has found it.
-/

namespace Templates

/-- A state that holds a stack of tags. -/
structure Stacking (σ : Type) where
  stack : σ → TagStack
  enter : Text → σ → σ
  leave : σ → σ
  stack_enter : ∀ tag s, stack (enter tag s) = tag :: stack s
  stack_leave : ∀ s, stack (leave s) = (stack s).tail

namespace Stacking

variable {σ α : Type}

/-- A stack by itself. -/
def alone : Stacking TagStack where
  stack s := s
  enter tag s := tag :: s
  leave s := s.tail
  stack_enter _ _ := rfl
  stack_leave _ := rfl

/-- A session goes inside of a component and comes out again, whatever happens there. -/
def inside (stacking : Stacking σ) (tag : Text) (work : Session σ α) : Session σ α :=
  fun (s : σ) =>
    let (result, after) := work.run (stacking.enter tag s)
    (result, stacking.leave after)

/-- Inside of a component a session has its tag on the stack. -/
theorem run_inside (stacking : Stacking σ) (tag : Text) (work : Session σ α) (s : σ) :
    (stacking.inside tag work).run s =
      ((work.run (stacking.enter tag s)).1,
        stacking.leave (work.run (stacking.enter tag s)).2) :=
  rfl

end Stacking

/-- Sessions that match inside of a component match when they have come out of it. -/
theorem Bond.Matched.inside {σ τ α : Type} {stacking : Stacking σ} {stacking' : Stacking τ}
    {inner outer : Bond σ τ} {tag : Text} {work : Session σ α} {work' : Session τ α} {s : σ} {t : τ}
    (matched : inner.Matched (work.run (stacking.enter tag s)) (work'.run (stacking'.enter tag t)))
    (states : ∀ s t, inner.states s t → outer.states (stacking.leave s) (stacking'.leave t))
    (errors : ∀ e e', inner.errors e e' → outer.errors e e')
    (excused : ∀ e t, inner.excused e t → outer.excused e (stacking'.leave t)) :
    outer.Matched ((stacking.inside tag work).run s) ((stacking'.inside tag work').run t) := by
  rw [stacking.run_inside, stacking'.run_inside]
  generalize work.run (stacking.enter tag s) = x, work'.run (stacking'.enter tag t) = y at matched
  cases matched with
  | ok related => exact .ok (states _ _ related)
  | error same related => exact .error (errors _ _ same) (states _ _ related)
  | excused isExcused => exact .excused (excused _ _ isExcused)

namespace Workshop

variable {σ τ : Type}

/-- The artifact of a source, given how the uses of components are answered. -/
def compileOn (workshop : Workshop) (renderer : ComponentRenderer σ) (source origin : Text) :
    Session σ Text := do
  let text ← .settled (Layout.resolve workshop.files workshop.config source origin)
  let text ← workshop.expander.expand renderer text
  .settled (workshop.directives.compile workshop.config.maxDepth (Echo.compile text))

/-- The use of a component is answered with its template as it renders. -/
def answerOn (workshop : Workshop) (page : Text → Blueprint → Data → Session σ Text) :
    ComponentRenderer σ := fun call => do
  let blueprint ← .settled (workshop.blueprint false call.tag)
  let html ← page call.tag blueprint call.properties
  return ⟨html, blueprint.hidden⟩

/-- A component is looked into only if the session is not inside of it, nor of too many others. -/
def guarded (workshop : Workshop) (stacking : Stacking σ) (tag : Text) (work : Session σ Text) :
    Session σ Text := do
  let stack := stacking.stack (← get)
  if stack.contains tag then throw (.componentLoop tag (tag :: stack).reverse)
  else if workshop.config.maxDepth ≤ stack.length then
    throw (.tooDeep .components workshop.config.maxDepth)
  else work

/-- The template of a component is compiled inside of it, and then rendered. -/
def visit (workshop : Workshop) (stacking : Stacking σ)
    (page : Text → Blueprint → Data → Session σ Text) (tag : Text) (blueprint : Blueprint)
    (data : Data) : Session σ Text := do
  let artifact ← stacking.inside tag
    (workshop.compileOn (workshop.answerOn page) blueprint.text blueprint.origin)
  .settled <| (render workshop.config.maxLoopIterations artifact (blueprint.data data)).mapError
    .render

/-- The page of a component's template, where the first argument bounds how deep others may nest in
it. -/
def pageOn (workshop : Workshop) (stacking : Stacking σ) :
    Nat → Text → Blueprint → Data → Session σ Text
  | 0, tag, _, _ => workshop.guarded stacking tag
      (throw (.tooDeep .components workshop.config.maxDepth))
  | depth + 1, tag, blueprint, data => workshop.guarded stacking tag
      (workshop.visit stacking (workshop.pageOn stacking depth) tag blueprint data)

/-- On a stack by itself a template becomes the page that it becomes. -/
theorem pageOn_alone (workshop : Workshop) (depth : Nat) :
    workshop.pageOn .alone depth = workshop.page depth := by
  induction depth with
  | zero => rfl
  | succ depth ih =>
    -- The components inside of a component have become pages alike.
    funext tag blueprint data
    rw [pageOn, ih]
    rfl

variable {workshop : Workshop} {stacking : Stacking σ} {stacking' : Stacking τ}

/-- A component that the session is inside of, or that is too deep, is an error. -/
theorem run_guarded (tag : Text) (work : Session σ Text) (s : σ) :
    (workshop.guarded stacking tag work).run s =
      if tag ∈ stacking.stack s then
        (.error (.componentLoop tag (tag :: stacking.stack s).reverse), s)
      else if workshop.config.maxDepth ≤ (stacking.stack s).length then
        (.error (.tooDeep .components workshop.config.maxDepth), s)
      else work.run s := by
  show (if (stacking.stack s).contains tag then throw _ else if _ then throw _ else work :
    Session σ Text).run s = _
  simp only [List.contains_iff_mem]
  split
  · rfl
  · split
    · rfl
    · rfl

/-- Sessions on two kinds of states that go together: for each stack, the states with this stack are
related, and the errors. -/
structure Follows (workshop : Workshop) (stacking : Stacking σ) (stacking' : Stacking τ)
    (states : TagStack → σ → τ → Prop) (errors : TagStack → Error → Error → Prop) : Prop where
  onStack : ∀ {stack s t}, states stack s t → stacking.stack s = stack ∧ stacking'.stack t = stack
  enter : ∀ {stack s t tag}, tag ∉ stack → stack.length < workshop.config.maxDepth →
    states stack s t → states (tag :: stack) (stacking.enter tag s) (stacking'.enter tag t)
  leave : ∀ {stack s t tag}, states (tag :: stack) s t →
    states stack (stacking.leave s) (stacking'.leave t)
  outer : ∀ {stack tag e e'}, errors (tag :: stack) e e' → errors stack e e'
  borne : ∀ {stack e}, workshop.Complaint stack e → errors stack e e

namespace Follows

variable {states : TagStack → σ → τ → Prop} {errors : TagStack → Error → Error → Prop}
  (follows : workshop.Follows stacking stacking' states errors)
  {inner : Text → Blueprint → Data → Session σ Text}
  {inner' : Text → Blueprint → Data → Session τ Text} {stack : TagStack} {tag : Text}

include follows

/-- The uses of components are answered alike when their pages are. -/
theorem answer (pages : ∀ tag blueprint data,
      (Bond.strict (states stack) (errors stack)).Holds (inner tag blueprint data)
        (inner' tag blueprint data)) (call : Call) :
    (Bond.strict (states stack) (errors stack)).Holds (workshop.answerOn inner call)
      (workshop.answerOn inner' call) := by
  have found : (Bond.strict (states stack) (errors stack)).Holds
      (Session.settled (workshop.blueprint false call.tag))
      (Session.settled (workshop.blueprint false call.tag)) :=
    .settled fun e failed => follows.borne (complaint_of_blueprint failed)
  exact found.bind fun blueprint => (pages _ _ _).bind fun html => .pure _

/-- Sources are compiled alike when the pages of components are. -/
theorem compile (pages : ∀ tag blueprint data,
      (Bond.strict (states stack) (errors stack)).Holds (inner tag blueprint data)
        (inner' tag blueprint data)) (source origin : Text) :
    (Bond.strict (states stack) (errors stack)).Holds
      (workshop.compileOn (workshop.answerOn inner) source origin)
      (workshop.compileOn (workshop.answerOn inner') source origin) := by
  -- All errors of the stages are complaints of the session.
  have own {e : Error} (isOwn : e.IsOwn) : errors stack e e := follows.borne (.own isOwn)
  have resolved : (Bond.strict (states stack) (errors stack)).Holds
      (Session.settled (Layout.resolve workshop.files workshop.config source origin))
      (Session.settled (Layout.resolve workshop.files workshop.config source origin)) :=
    .settled fun e failed => own (Layout.isOwn_of_resolve failed)
  have expanded (text : Text) : (Bond.strict (states stack) (errors stack)).Holds
      (workshop.expander.expand (workshop.answerOn inner) text)
      (workshop.expander.expand (workshop.answerOn inner') text) :=
    .expand (follows.answer pages) (fun e => own trivial) (own trivial) text
  refine resolved.bind fun text => (expanded text).bind fun text => Bond.Holds.settled ?_
  exact fun e failed => own (Directives.isOwn_of_passes failed)

/-- Components are looked into alike when the pages of those inside are, and what goes wrong goes
wrong inside. -/
theorem visit (outside : tag ∉ stack) (room : stack.length < workshop.config.maxDepth)
    (pages : ∀ tag' blueprint data,
      (Bond.strict (states (tag :: stack)) (errors (tag :: stack))).Holds
        (inner tag' blueprint data) (inner' tag' blueprint data))
    (blueprint : Blueprint) (data : Data) :
    (Bond.strict (states stack) (errors (tag :: stack))).Holds
      (workshop.visit stacking inner tag blueprint data)
      (workshop.visit stacking' inner' tag blueprint data) := by
  refine Bond.Holds.bind ⟨nofun, fun s t related => ?_⟩ fun artifact =>
    Bond.Holds.settled fun e failed => follows.borne (.own ?_)
  · -- What has gone together inside goes together when the session has come out.
    have matched := (follows.compile pages blueprint.text blueprint.origin).matched _ _
      (follows.enter outside room related)
    exact matched.inside (fun _ _ => follows.leave) (fun _ _ same => same) nofun
  · cases rendered : render workshop.config.maxLoopIterations artifact (blueprint.data data) with
    | ok text => simp [rendered, Except.mapError] at failed
    | error e' =>
      simp only [rendered, Except.mapError, Except.error.injEq] at failed
      rw [← failed]
      trivial

/-- Components are looked into alike when nothing is wrong with that. -/
theorem guarded {work : Session σ Text} {work' : Session τ Text}
    (works : tag ∉ stack → stack.length < workshop.config.maxDepth →
      (Bond.strict (states stack) (errors (tag :: stack))).Holds work work') :
    (Bond.strict (states stack) (errors stack)).Holds (workshop.guarded stacking tag work)
      (workshop.guarded stacking' tag work') where
  lasting := nofun
  matched s t related := by
    -- Both sessions look at the same stack.
    obtain ⟨own, other⟩ := follows.onStack related
    rw [run_guarded, run_guarded, own, other]
    by_cases inside : tag ∈ stack
    · rw [if_pos inside, if_pos inside]
      exact .error (follows.borne (.loop inside (List.suffix_refl stack))) related
    · rw [if_neg inside, if_neg inside]
      by_cases deep : workshop.config.maxDepth ≤ stack.length
      · rw [if_pos deep, if_pos deep]
        exact .error (follows.borne (.own trivial)) related
      · rw [if_neg deep, if_neg deep]
        have holds := (works inside (Nat.lt_of_not_le deep)).mono fun _ _ => follows.outer
        exact holds.matched s t related

/-- Templates become pages alike, however deep others may nest in them, as long as that is deep
enough. -/
theorem page {depth depth' : Nat} (enough : workshop.config.maxDepth ≤ depth + stack.length)
    (enough' : workshop.config.maxDepth ≤ depth' + stack.length) (tag : Text)
    (blueprint : Blueprint) (data : Data) :
    (Bond.strict (states stack) (errors stack)).Holds
      (workshop.pageOn stacking depth tag blueprint data)
      (workshop.pageOn stacking' depth' tag blueprint data) := by
  -- The stack grows by one tag when a component is looked into.
  induction depth generalizing depth' stack tag blueprint data with
  | zero =>
    cases depth' with
    | zero => exact follows.guarded fun _ room => by omega
    | succ depth' => exact follows.guarded fun _ room => by omega
  | succ depth ih =>
    cases depth' with
    | zero => exact follows.guarded fun _ room => by omega
    | succ depth' =>
      refine follows.guarded fun outside room => follows.visit outside room ?_ blueprint data
      intro tag' blueprint data
      exact ih (by simp; omega) (by simp; omega) tag' blueprint data

end Follows

/-- A session and itself, with a stack that it leaves as it has found it, and complaints. -/
abbrev steady (workshop : Workshop) (stacking : Stacking σ) (stack : TagStack) : Bond σ σ :=
  .strict (fun s t => s = t ∧ stacking.stack s = stack)
    (fun e e' => e = e' ∧ workshop.Complaint stack e)

/-- A session goes together with itself. -/
theorem follows_self (workshop : Workshop) (stacking : Stacking σ) :
    workshop.Follows stacking stacking (fun stack s t => s = t ∧ stacking.stack s = stack)
      (fun stack e e' => e = e' ∧ workshop.Complaint stack e) where
  onStack := by
    rintro stack s t ⟨rfl, same⟩
    exact ⟨same, same⟩
  enter := by
    rintro stack s t tag - - ⟨rfl, same⟩
    exact ⟨rfl, by rw [stacking.stack_enter, same]⟩
  leave := by
    rintro stack s t tag ⟨rfl, same⟩
    exact ⟨rfl, by rw [stacking.stack_leave, same, List.tail_cons]⟩
  outer := by
    rintro stack tag e e' ⟨rfl, complaint⟩
    exact ⟨rfl, complaint.outer⟩
  borne complaint := ⟨rfl, complaint⟩

/-- What goes together with itself leaves the stack, and has the errors that it may have. -/
theorem eq_of_matched_self {α : Type} {stacking : Stacking σ} {stack : TagStack}
    {expected : Error → Prop} {x y : Except Error α × σ}
    (matched : (Bond.strict (fun s t => s = t ∧ stacking.stack s = stack)
      (fun e e' => e = e' ∧ expected e)).Matched x y) :
    x = y ∧ stacking.stack x.2 = stack ∧ ∀ e, x.1 = .error e → expected e := by
  cases matched with
  | ok related => exact ⟨by rw [related.1], related.2, nofun⟩
  | error same related =>
    refine ⟨by rw [same.1, related.1], related.2, ?_⟩
    rintro _ ⟨⟩
    exact same.2
  | excused excused => exact excused.elim

/-- Pages of components that nest as deep as is allowed. -/
def pagesOn (workshop : Workshop) (stacking : Stacking σ) :
    Text → Blueprint → Data → Session σ Text :=
  workshop.pageOn stacking workshop.config.maxDepth

/-- Pages of components are made alike on every stack. -/
theorem Follows.pages {states : TagStack → σ → τ → Prop} {errors : TagStack → Error → Error → Prop}
    (follows : workshop.Follows stacking stacking' states errors) (stack : TagStack) (tag : Text)
    (blueprint : Blueprint) (data : Data) :
    (Bond.strict (states stack) (errors stack)).Holds
      (workshop.pagesOn stacking tag blueprint data)
      (workshop.pagesOn stacking' tag blueprint data) :=
  follows.page (Nat.le_add_right _ _) (Nat.le_add_right _ _) tag blueprint data

/-- The pages of the components inside of a component are made like its own. -/
theorem pagesOn_eq (workshop : Workshop) (stacking : Stacking σ) (tag : Text)
    (blueprint : Blueprint) (data : Data) :
    workshop.pagesOn stacking tag blueprint data = workshop.guarded stacking tag
      (workshop.visit stacking (workshop.pagesOn stacking) tag blueprint data) := by
  have follows := workshop.follows_self stacking
  have holds (stack : TagStack) :
      (workshop.steady stacking stack).Holds
        (workshop.pagesOn stacking tag blueprint data)
        (workshop.guarded stacking tag
          (workshop.visit stacking (workshop.pagesOn stacking) tag blueprint data)) := by
    unfold pagesOn
    rcases deepest : workshop.config.maxDepth with _ | depth
    · exact follows.guarded fun _ room => by omega
    · -- Inside of the component there is one tag more, and one level less is needed.
      refine follows.guarded fun outside room => follows.visit outside room ?_ blueprint data
      exact follows.page (by simp; omega) (by simp; omega)
  funext s
  exact (eq_of_matched_self ((holds _).matched s s ⟨rfl, rfl⟩)).1

/-- No other way to make pages makes those of the components inside like their own. -/
theorem eq_pagesOn {stacking : Stacking σ} {other : Text → Blueprint → Data → Session σ Text}
    (solves : ∀ tag blueprint data, other tag blueprint data =
      workshop.guarded stacking tag (workshop.visit stacking other tag blueprint data)) :
    other = workshop.pagesOn stacking := by
  have follows := workshop.follows_self stacking
  -- By induction on the number of components that may still be entered.
  have holds (room : Nat) (stack : TagStack)
      (enough : workshop.config.maxDepth ≤ room + stack.length) (tag : Text)
      (blueprint : Blueprint) (data : Data) :
      (workshop.steady stacking stack).Holds
        (other tag blueprint data) (workshop.pagesOn stacking tag blueprint data) := by
    induction room generalizing stack tag blueprint data with
    | zero =>
      rw [solves, pagesOn_eq]
      exact follows.guarded fun _ free => by omega
    | succ room ih =>
      rw [solves, pagesOn_eq]
      refine follows.guarded fun outside free => follows.visit outside free ?_ blueprint data
      exact fun tag' blueprint data => ih _ (by simp; omega) tag' blueprint data
  funext tag blueprint data s
  have matched := (holds workshop.config.maxDepth (stacking.stack s) (Nat.le_add_right _ _) tag
    blueprint data).matched s s ⟨rfl, rfl⟩
  exact (eq_of_matched_self matched).1

end Workshop

/-- A stack and all stacks that there were before, the last one first. -/
structure Record where
  now : TagStack
  past : List TagStack
deriving DecidableEq, Repr

namespace Record

/-- A stack without tags, before which there was none. -/
def empty : Record := ⟨[], []⟩

/-- All stacks that there have been. -/
def all (record : Record) : List TagStack := record.now :: record.past

end Record

/-- A stack that is written down whenever it changes. -/
def Stacking.recorded : Stacking Record where
  stack record := record.now
  enter tag record := ⟨tag :: record.now, record.all⟩
  leave record := ⟨record.now.tail, record.all⟩
  stack_enter _ _ := rfl
  stack_leave _ := rfl

/-- A session that is recorded goes on as it does without that. What holds of its record when it
starts holds of it at the end, if it is kept whenever a component is entered or left. -/
theorem Workshop.follows_recorded {workshop : Workshop} {keeps : Record → Prop}
    (enter : ∀ record tag, tag ∉ record.now → record.now.length < workshop.config.maxDepth →
      keeps record → keeps (Stacking.recorded.enter tag record))
    (leave : ∀ record, keeps record → keeps (Stacking.recorded.leave record)) :
    workshop.Follows .recorded .alone
      (fun stack record alone => record.now = stack ∧ alone = stack ∧ keeps record)
      (fun _ e e' => e = e') where
  onStack related := ⟨related.1, related.2.1⟩
  enter := by
    rintro stack record _ tag outside room ⟨rfl, rfl, kept⟩
    exact ⟨rfl, rfl, enter record tag outside room kept⟩
  leave := by
    rintro stack record _ tag ⟨same, rfl, kept⟩
    refine ⟨?_, rfl, leave record kept⟩
    show record.now.tail = stack
    rw [same, List.tail_cons]
  outer same := same
  borne _ := rfl

end Templates
