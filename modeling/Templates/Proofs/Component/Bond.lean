import Templates.Proofs.Component.Session

/-!
Two sessions side by side.

A bond says how their states are related, and their errors. If two renderers keep to a bond, so do
the expansions of a source with them. What holds of one session whatever happens in it is a bond of
the session with itself.
-/

namespace Templates

open Markup

namespace Session

variable {σ α β : Type}

/-- A session that has its result from the beginning. -/
def settled (result : Except Error α) : Session σ α :=
  ExceptT.mk (pure result)

/-- What is settled at the end leaves the state. -/
theorem run_bind_settled (first : Session σ α) (next : α → Except Error β) (before : σ) :
    ((first >>= fun value => settled (next value)).run before).2 = (first.run before).2 := by
  rw [run_bind]
  rcases first.run before with ⟨_ | value, between⟩ <;> rfl

end Session

/-- How two sessions go together: the relations between their states and between their errors, and
the errors of the first one that say nothing about the other, when that ends in some state. -/
structure Bond (σ τ : Type) where
  states : σ → τ → Prop
  errors : Error → Error → Prop
  excused : Error → τ → Prop

namespace Bond

variable {σ τ α β : Type} {bond : Bond σ τ}

/-- Two sessions end with one result or with related errors, in related states, or the first one has
an excuse. -/
inductive Matched (bond : Bond σ τ) {α : Type} :
    Except Error α × σ → Except Error α × τ → Prop
  | ok {result : α} {s : σ} {t : τ} (states : bond.states s t) :
    Matched bond (.ok result, s) (.ok result, t)
  | error {e e' : Error} {s : σ} {t : τ} (errors : bond.errors e e') (states : bond.states s t) :
    Matched bond (.error e, s) (.error e', t)
  | excused {e : Error} {s : σ} {outcome : Except Error α} {t : τ} (excused : bond.excused e t) :
    Matched bond (.error e, s) (outcome, t)

/-- Two sessions keep to a bond: started in related states they match when they end, and an excuse
is not lost by the second one. -/
structure Holds (bond : Bond σ τ) (left : Session σ α) (right : Session τ α) : Prop where
  lasting : ∀ e t, bond.excused e t → bond.excused e (right.run t).2
  matched : ∀ s t, bond.states s t → bond.Matched (left.run s) (right.run t)

/-- A bond without excuses. -/
def strict (states : σ → τ → Prop) (errors : Error → Error → Prop) : Bond σ τ :=
  ⟨states, errors, fun _ _ => False⟩

/-- A bond that is only about the excuses which a session keeps. -/
def keeping (bond : Bond σ τ) : Bond τ τ :=
  ⟨fun _ _ => False, fun _ _ => True, bond.excused⟩

/-- Without excuses sessions whose errors are the same end with the same result. -/
theorem Matched.of_strict {states : σ → τ → Prop} {x : Except Error α × σ}
    {y : Except Error α × τ} (matched : (strict states fun e e' => e = e').Matched x y) :
    x.1 = y.1 ∧ states x.2 y.2 := by
  cases matched with
  | ok states => exact ⟨rfl, states⟩
  | error same states => exact ⟨congrArg _ same, states⟩
  | excused excused => exact excused.elim

/-- One result keeps to a bond with itself if its error does. -/
theorem Holds.settled {result : Except Error α}
    (borne : ∀ e, result = .error e → bond.errors e e) :
    bond.Holds (Session.settled result) (Session.settled result) where
  lasting _ _ excused := excused
  matched s t states := by
    cases result with
    | ok value => exact .ok states
    | error e => exact .error (borne e rfl) states

/-- A value keeps to every bond. -/
theorem Holds.pure (value : α) : bond.Holds (Pure.pure value) (Pure.pure value) :=
  show bond.Holds (Session.settled (.ok value)) (Session.settled (.ok value)) from .settled nofun

/-- An error keeps to a bond if it is related to itself. -/
theorem Holds.throw {e : Error} (borne : bond.errors e e) :
    bond.Holds (α := α) (Session.settled (.error e)) (Session.settled (.error e)) := by
  refine Holds.settled fun e' same => ?_
  obtain rfl := Except.error.inj same
  exact borne

/-- Behind an error that is always excused every session will do that loses no excuse. -/
theorem Holds.of_excused {e : Error} {right : Session τ α}
    (lasting : ∀ e t, bond.excused e t → bond.excused e (right.run t).2)
    (excused : ∀ t, bond.excused e t) : bond.Holds (Session.settled (.error e)) right where
  lasting := lasting
  matched _ _ _ := .excused (excused _)

/-- Sessions that keep to a bond one after the other keep to it together. -/
theorem Holds.bind {left : Session σ α} {right : Session τ α} {f : α → Session σ β}
    {g : α → Session τ β} (first : bond.Holds left right) (next : ∀ a, bond.Holds (f a) (g a)) :
    bond.Holds (left >>= f) (right >>= g) where
  lasting e t excused := by
    -- The first part keeps the excuse, and then the second one does if it is run.
    have between := first.lasting e t excused
    rw [Session.run_bind]
    generalize right.run t = outcome at between
    rcases outcome with ⟨_ | value, after⟩
    · exact between
    · exact (next value).lasting e after between
  matched s t states := by
    rw [Session.run_bind, Session.run_bind]
    have outcome := first.matched s t states
    generalize left.run s = x, right.run t = y at outcome
    cases outcome with
    | ok states => exact (next _).matched _ _ states
    | error errors states => exact .error errors states
    | @excused e s outcome t excused =>
      -- The second session may go on, but the excuse lasts.
      cases outcome with
      | error e' => exact .excused excused
      | ok value =>
        exact .excused ((next value).lasting e t excused)

/-- Without excuses a bond that allows more errors is kept as well. -/
theorem Holds.mono {states : σ → τ → Prop} {errors errors' : Error → Error → Prop}
    {left : Session σ α} {right : Session τ α} (holds : (strict states errors).Holds left right)
    (more : ∀ e e', errors e e' → errors' e e') : (strict states errors').Holds left right where
  lasting := nofun
  matched s t related := by
    have outcome := holds.matched s t related
    generalize left.run s = x, right.run t = y at outcome
    cases outcome with
    | ok states => exact .ok states
    | error errors states => exact .error (more _ _ errors) states
    | excused excused => exact excused.elim

/-- A session keeps an excuse for as long as the sessions do that it consists of. -/
theorem Holds.keeping {left : Session σ α} {right : Session τ α} (holds : bond.Holds left right) :
    bond.keeping.Holds right right where
  lasting := holds.lasting
  matched _ _ := False.elim

end Bond

namespace Expander

/-- An expander that may need another number of passes. -/
def withDepth (depth : Nat) (expander : Expander) : Expander :=
  { expander with maxDepth := depth }

variable {σ τ : Type} {bond : Bond σ τ} {renderer : ComponentRenderer σ}
  {renderer' : ComponentRenderer τ} {expander : Expander}

/-- Tags give way alike, however many passes may be needed. -/
theorem expandTags_withDepth (expander : Expander) (depth : Nat) (renderer : ComponentRenderer σ)
    (tags produced : List NodeId) (page : Document) :
    (expander.withDepth depth).expandTags renderer tags produced page =
      expander.expandTags renderer tags produced page := by
  induction tags generalizing produced page with
  | nil => rfl
  | cons tag rest ih =>
    simp only [expandTags, ih]
    rfl

variable {count : Nat} {produced : List NodeId} {page : Document}

/-- No pass is needed when no tag is left. -/
theorem passes_done (none : page.findElements expander.isCustom = []) :
    expander.passes renderer count produced page = pure (produced, page) := by
  unfold passes
  rw [none]

/-- When no pass is left, tags are too many. -/
theorem passes_zero (some : page.findElements expander.isCustom ≠ []) :
    expander.passes renderer 0 produced page =
      Session.settled (.error (.tooDeep .expansion expander.maxDepth)) := by
  unfold passes
  split
  · contradiction
  · rfl
  · contradiction

/-- A pass replaces the tags that are there when it starts. -/
theorem passes_succ (some : page.findElements expander.isCustom ≠ []) :
    expander.passes renderer (count + 1) produced page = (do
      let next ← expander.expandTags renderer (page.findElements expander.isCustom) produced page
      expander.passes renderer count next.1 next.2) := by
  obtain ⟨tag, tags, found⟩ := List.exists_cons_of_ne_nil some
  rw [found, passes.eq_def]
  dsimp only
  rw [found]

end Expander

namespace Bond

variable {σ τ : Type} {bond : Bond σ τ} {renderer : ComponentRenderer σ}
  {renderer' : ComponentRenderer τ} {expander : Expander}

/-- A source is read alike. -/
theorem Holds.parsing (borne : ∀ e, bond.errors (.markup e) (.markup e)) (source : Text) :
    bond.Holds (Expander.parsing source) (Expander.parsing source) := by
  unfold Expander.parsing
  cases Document.parse source with
  | ok d => exact .pure d
  | error e => exact .throw (borne e)

section

variable (calls : ∀ call, bond.Holds (renderer call) (renderer' call))
  (borne : ∀ e, bond.errors (.markup e) (.markup e))

include calls borne

/-- A tag gives way alike. -/
theorem Holds.expandTag (tag : NodeId) (page : Document) :
    bond.Holds (expander.expandTag renderer tag page) (expander.expandTag renderer' tag page) := by
  unfold Expander.expandTag
  cases page.element? tag with
  | none => exact .pure _
  | some e =>
    refine (calls _).bind fun rendered => ?_
    exact (Holds.parsing borne _).bind fun fragment => .pure _

/-- Tags give way alike. -/
theorem Holds.expandTags (tags produced : List NodeId) (page : Document) :
    bond.Holds (expander.expandTags renderer tags produced page)
      (expander.expandTags renderer' tags produced page) := by
  -- One tag after the other, as far as they are still there.
  induction tags generalizing produced page with
  | nil => exact .pure _
  | cons tag rest ih =>
    unfold Expander.expandTags
    cases page.isAttached tag with
    | false => exact ih produced page
    | true => exact (Holds.expandTag calls borne tag page).bind fun next => ih _ next.2

/-- Passes go on alike, and end alike if the complaint about too many of them keeps to the bond. -/
theorem Holds.passes (spent : bond.errors (.tooDeep .expansion expander.maxDepth)
      (.tooDeep .expansion expander.maxDepth)) (count : Nat) (produced : List NodeId)
    (page : Document) :
    bond.Holds (expander.passes renderer count produced page)
      (expander.passes renderer' count produced page) := by
  -- Both look at the same document, so that both are done or both go on.
  induction count generalizing produced page with
  | zero =>
    by_cases found : page.findElements expander.isCustom = []
    · rw [Expander.passes_done found, Expander.passes_done found]
      exact .pure _
    · rw [Expander.passes_zero found, Expander.passes_zero found]
      exact .throw spent
  | succ count ih =>
    by_cases found : page.findElements expander.isCustom = []
    · rw [Expander.passes_done found, Expander.passes_done found]
      exact .pure _
    · rw [Expander.passes_succ found, Expander.passes_succ found]
      exact (Holds.expandTags calls borne _ produced page).bind fun next => ih _ next.2

/-- More passes do no harm if the complaint about too many of them is excused. -/
theorem Holds.passes_withDepth {deeper : Nat}
    (spent : ∀ t, bond.excused (.tooDeep .expansion expander.maxDepth) t) {count count' : Nat}
    (more : count ≤ count') (produced : List NodeId) (page : Document) :
    bond.Holds (expander.passes renderer count produced page)
      ((expander.withDepth deeper).passes renderer' count' produced page) := by
  have same : (expander.withDepth deeper).isCustom = expander.isCustom := rfl
  -- When the first session has a pass left the second one has one as well.
  induction count generalizing count' produced page with
  | zero =>
    by_cases found : page.findElements expander.isCustom = []
    · rw [Expander.passes_done found, Expander.passes_done (same ▸ found)]
      exact .pure _
    · -- The passes that the second session still makes lose no excuse.
      have passes : bond.keeping.Holds
          ((expander.withDepth deeper).passes renderer' count' produced page)
          ((expander.withDepth deeper).passes renderer' count' produced page) :=
        .passes (fun call => (calls call).keeping) (fun _ => trivial) trivial count' produced page
      rw [Expander.passes_zero found]
      exact .of_excused passes.lasting spent
  | succ count ih =>
    obtain ⟨count', rfl⟩ := Nat.exists_eq_add_of_le' (Nat.le_trans (Nat.le_add_left 1 count) more)
    by_cases found : page.findElements expander.isCustom = []
    · rw [Expander.passes_done found, Expander.passes_done (same ▸ found)]
      exact .pure _
    · rw [Expander.passes_succ found, Expander.passes_succ (same ▸ found),
        Expander.expandTags_withDepth, same]
      exact (Holds.expandTags calls borne _ produced page).bind fun next =>
        ih (Nat.le_of_succ_le_succ more) _ next.2

/-- A source is expanded alike if the complaint about too many passes keeps to the bond. -/
theorem Holds.expand (spent : bond.errors (.tooDeep .expansion expander.maxDepth)
      (.tooDeep .expansion expander.maxDepth)) (source : Text) :
    bond.Holds (expander.expand renderer source) (expander.expand renderer' source) := by
  unfold Expander.expand
  dsimp only
  -- A source without live tags is not even read.
  split
  · refine (Holds.parsing borne _).bind fun page => ?_
    exact (Holds.passes calls borne spent _ _ page).bind fun next => .pure _
  · exact .pure _

/-- A source is expanded alike by more passes if the complaint about too many of them is excused. -/
theorem Holds.expand_withDepth {deeper : Nat}
    (spent : ∀ t, bond.excused (.tooDeep .expansion expander.maxDepth) t)
    (more : expander.maxDepth ≤ deeper) (source : Text) :
    bond.Holds (expander.expand renderer source)
      ((expander.withDepth deeper).expand renderer' source) := by
  unfold Expander.expand
  dsimp only
  have same : (expander.withDepth deeper).isLive = expander.isLive := rfl
  have clean : (expander.withDepth deeper).withoutCommented = expander.withoutCommented := rfl
  rw [same, clean]
  split
  · refine (Holds.parsing borne _).bind fun page => ?_
    exact (Holds.passes_withDepth calls borne spent more _ page).bind fun next => .pure _
  · exact .pure _

end

end Bond

end Templates
