import Templates.Proofs.Engine.Balance
import Templates.Proofs.Engine.Identity

/-!
A greater bound on depth.

The bound is read by includes, by the passes of expansions, by components inside of each other, by
directives inside of each other, and by the passes of directives. Each of them can only refuse to go
on. So a greater bound does not change what a smaller one has not refused. An engine has one bound
for all of them.
-/

namespace Templates

/-- What comes out under a bound is what comes out under another one, or the complaint that
something other than components exceeds the bound. -/
inductive AgreesBelow (limit : Nat) {α : Type} : Except Error α → Except Error α → Prop
  | same {result : Except Error α} : AgreesBelow limit result result
  | refused {what : Depth} {higher : Except Error α} (other : what ≠ .components) :
    AgreesBelow limit (.error (.tooDeep what limit)) higher

/-- What is made from results that agree agrees. -/
theorem AgreesBelow.map {α β : Type} {limit : Nat} {lower higher : Except Error α} {f : α → β}
    (agree : AgreesBelow limit lower higher) :
    AgreesBelow limit (lower.map f) (higher.map f) := by
  cases agree with
  | same => exact .same
  | refused other => exact .refused other

/-- Settings with another bound on depth. -/
def Config.withDepth (depth : Nat) (config : Config) : Config :=
  { config with maxDepth := depth }

namespace Layout

/-- Replacements that agree are put in alike. -/
theorem agrees_spliceAll {α : Type} {limit : Nat} {splice splice' : α → Except Error Text}
    (agree : ∀ value, AgreesBelow limit (splice value) (splice' value))
    (pieces : List (Text.Piece α)) :
    AgreesBelow limit (spliceAll splice pieces) (spliceAll splice' pieces) := by
  -- The first replacement that is refused decides.
  induction pieces with
  | nil => exact .same
  | cons piece pieces ih =>
    cases piece with
    | plain c => exact ih.map
    | hit value =>
      have here := agree value
      rw [spliceAll, spliceAll]
      generalize splice value = x, splice' value = y at here
      cases here with
      | refused other => exact .refused other
      | same =>
        cases x with
        | error e => exact .same
        | ok text => exact ih.map

variable (files : Files) (config : Config) {limit limit' : Nat}

/-- Includes that may nest deeper are resolved as before. -/
theorem agrees_expandIncludes {depth depth' : Nat} (more : depth ≤ depth') (chain : List Text)
    (source : Text) :
    AgreesBelow limit (expandIncludes files (config.withDepth limit) depth chain source)
      (expandIncludes files (config.withDepth limit') depth' chain source) := by
  induction depth generalizing depth' chain source with
  | zero => exact .refused nofun
  | succ depth ih =>
    obtain ⟨depth', rfl⟩ := Nat.exists_eq_add_of_le' (Nat.le_trans (Nat.le_add_left 1 depth) more)
    refine agrees_spliceAll (fun target => ?_) _
    -- The path of a file does not depend on the bound.
    have path (bound : Nat) :
        (config.withDepth bound).viewPath target = config.viewPath target := rfl
    dsimp only
    rw [path limit, path limit']
    split
    · exact .same
    · rcases files.read (config.viewPath target) with (_ | _) | text
      · exact .same
      · exact .same
      · exact ih (Nat.le_of_succ_le_succ more) _ text

/-- A layout is resolved as before when includes may nest deeper. -/
theorem agrees_resolve (more : limit ≤ limit') (source origin : Text) :
    AgreesBelow limit (resolve files (config.withDepth limit) source origin)
      (resolve files (config.withDepth limit') source origin) :=
  (agrees_expandIncludes files config more [origin] source).map

end Layout

namespace Directives

/-- Replacements that agree are put together alike. -/
theorem agrees_applyAll {limit : Nat} {apply apply' : Edit → Except Error Text}
    (agree : ∀ edit, AgreesBelow limit (apply edit) (apply' edit)) (edits : List Edit) :
    AgreesBelow limit (applyAll apply edits) (applyAll apply' edits) := by
  induction edits with
  | nil => exact .same
  | cons edit edits ih =>
    have here := agree edit
    rw [applyAll, applyAll]
    generalize apply edit = x, apply' edit = y at here
    cases here with
    | refused other => exact .refused other
    | same =>
      cases x with
      | error e => exact .same
      | ok text =>
        dsimp only
        generalize applyAll apply edits = x, applyAll apply' edits = y at ih
        cases ih with
        | refused other => exact .refused other
        | same => exact .same

variable {directives : Directives} {limit limit' : Nat}

/-- Blocks that may nest deeper are replaced as before. -/
theorem agrees_pass {depth depth' : Nat} (more : depth ≤ depth') (source : Text) :
    AgreesBelow limit (directives.pass limit depth source)
      (directives.pass limit' depth' source) := by
  induction depth generalizing depth' source with
  | zero => exact .refused nofun
  | succ depth ih =>
    obtain ⟨depth', rfl⟩ := Nat.exists_eq_add_of_le' (Nat.le_trans (Nat.le_add_left 1 depth) more)
    refine agrees_applyAll (fun edit => ?_) _
    cases edit with
    | keep text => exact .same
    | single marker => exact .same
    | block opener body closer =>
      -- Only the body of a block is compiled under the bound.
      have inner := ih (Nat.le_of_succ_le_succ more) body
      rw [applyEdit, applyEdit]
      generalize directives.pass limit depth body = x, directives.pass limit' depth' body = y
        at inner
      cases inner with
      | refused other => exact .refused other
      | same => exact .same

/-- Passes that may be more go on as before. -/
theorem agrees_passes {count count' : Nat} (deeper : limit ≤ limit') (more : count ≤ count')
    (source : Text) :
    AgreesBelow limit (directives.passes limit count source)
      (directives.passes limit' count' source) := by
  induction count generalizing count' source with
  | zero => exact .refused nofun
  | succ count ih =>
    obtain ⟨count', rfl⟩ := Nat.exists_eq_add_of_le' (Nat.le_trans (Nat.le_add_left 1 count) more)
    have first : AgreesBelow limit (directives.pass limit limit source)
        (directives.pass limit' limit' source) := agrees_pass deeper source
    rw [passes, passes]
    generalize directives.pass limit limit source = x, directives.pass limit' limit' source = y
      at first
    cases first with
    | refused other => exact .refused other
    | same =>
      cases x with
      | error e => exact .same
      | ok next =>
        dsimp only
        split
        · exact .same
        · exact ih (Nat.le_of_succ_le_succ more) next

end Directives

namespace Workshop

/-- A workshop with another bound on depth. -/
def withDepth (depth : Nat) (workshop : Workshop) : Workshop :=
  { workshop with
    config := workshop.config.withDepth depth
    expander := workshop.expander.withDepth depth }

/-- Two recorded sessions, of which the first one has a smaller bound, go on in the same way until
the first one exceeds it. If that is for its components, the second one gets that deep. -/
def deepening (limit : Nat) (stack : TagStack) : Bond Record Record where
  states record record' := record = record' ∧ record.now = stack
  errors e e' := e = e'
  excused e record := ∃ what, e = .tooDeep what limit ∧
    (what = .components → ∃ deep ∈ record.all, limit < deep.length)

end Workshop

/-- Results that agree keep to the bond. -/
theorem Bond.Holds.of_agrees {α : Type} {limit : Nat} {stack : TagStack}
    {lower higher : Except Error α} (agree : AgreesBelow limit lower higher) :
    (Workshop.deepening limit stack).Holds (Session.settled lower) (Session.settled higher) where
  lasting _ _ excused := excused
  matched record record' related := by
    cases agree with
    | refused other => exact .excused ⟨_, rfl, fun same => absurd same other⟩
    | same =>
      cases lower with
      | ok value => exact .ok related
      | error e => exact .error rfl related

namespace Workshop

variable {workshop : Workshop} {limit limit' : Nat} {stack old : TagStack} {record : Record}

/-- A record that holds a stack goes on to do so. -/
theorem follows_holding (workshop : Workshop) (old : TagStack) :
    workshop.Follows .recorded .alone
      (fun stack record alone => record.now = stack ∧ alone = stack ∧ old ∈ record.all)
      (fun _ e e' => e = e') :=
  follows_recorded (fun _ _ _ _ => List.mem_cons_of_mem _) (fun _ => List.mem_cons_of_mem _)

/-- A stack stays in the record while the page of a component is made. -/
theorem mem_run_pagesOn (tag : Text) (blueprint : Blueprint) (data : Data)
    (held : old ∈ record.all) :
    old ∈ ((workshop.pagesOn .recorded tag blueprint data).run record).2.all := by
  have holds := (workshop.follows_holding old).pages record.now tag blueprint data
  exact (holds.matched record record.now ⟨rfl, rfl, held⟩).of_strict.2.2.2

/-- A stack is in the record when the template of a component has been compiled and rendered if it
is there inside of the component. -/
theorem mem_run_visit (workshop : Workshop) (tag : Text) (blueprint : Blueprint) (data : Data)
    (held : old ∈ (Stacking.recorded.enter tag record).all) :
    old ∈ ((workshop.visit .recorded (workshop.pagesOn .recorded) tag blueprint data).run
      record).2.all := by
  have pages := (workshop.follows_holding old).pages (tag :: record.now)
  have compiled := (workshop.follows_holding old).compile pages blueprint.text blueprint.origin
  have inside := (compiled.matched (Stacking.recorded.enter tag record) (tag :: record.now)
    ⟨rfl, rfl, held⟩).of_strict.2.2.2
  rw [visit, Session.run_bind_settled, Stacking.run_inside]
  exact List.mem_cons_of_mem _ inside

/-- An excuse is about stacks in the record. -/
theorem excused_of_mem {e : Error} {after : Record}
    (kept : ∀ old ∈ record.all, old ∈ after.all)
    (excused : (deepening limit stack).excused e record) :
    (deepening limit stack).excused e after := by
  obtain ⟨what, told, deep⟩ := excused
  refine ⟨what, told, fun isComponents => ?_⟩
  obtain ⟨old, held, longer⟩ := deep isComponents
  exact ⟨old, kept old held, longer⟩

section

variable (pages : ∀ tag blueprint data, (deepening limit stack).Holds
  ((workshop.withDepth limit).pagesOn .recorded tag blueprint data)
  ((workshop.withDepth limit').pagesOn .recorded tag blueprint data))

include pages

/-- Under a greater bound a source is compiled as before if the pages of components are made as
before. -/
theorem deepening_compile (more : limit ≤ limit') (source origin : Text) :
    (deepening limit stack).Holds
      ((workshop.withDepth limit).compileOn
        ((workshop.withDepth limit).answerOn ((workshop.withDepth limit).pagesOn .recorded))
        source origin)
      ((workshop.withDepth limit').compileOn
        ((workshop.withDepth limit').answerOn ((workshop.withDepth limit').pagesOn .recorded))
        source origin) := by
  have answers (call : Call) : (deepening limit stack).Holds
      ((workshop.withDepth limit).answerOn ((workshop.withDepth limit).pagesOn .recorded) call)
      ((workshop.withDepth limit').answerOn ((workshop.withDepth limit').pagesOn .recorded)
        call) := by
    -- The template of a component does not depend on the bound.
    have found : (deepening limit stack).Holds
        (Session.settled ((workshop.withDepth limit).blueprint false call.tag))
        (Session.settled ((workshop.withDepth limit').blueprint false call.tag)) :=
      Bond.Holds.settled fun _ _ => rfl
    exact found.bind fun blueprint => (pages _ _ _).bind fun html => .pure _
  have resolved := Layout.agrees_resolve workshop.files workshop.config more source origin
  refine (Bond.Holds.of_agrees resolved).bind fun text => ?_
  have expanded : (deepening limit stack).Holds
      ((workshop.withDepth limit).expander.expand _ text)
      ((workshop.withDepth limit').expander.expand _ text) :=
    .expand_withDepth answers (fun _ => rfl) (fun _ => ⟨.expansion, rfl, nofun⟩) more text
  exact expanded.bind fun text => .of_agrees (Directives.agrees_passes more more _)

end

/-- Under a greater bound the template of a component is compiled and rendered as before if the
pages of the components inside of it are made as before. -/
theorem deepening_visit (more : limit ≤ limit') {tag : Text}
    (pages : ∀ tag' blueprint data, (deepening limit (tag :: stack)).Holds
      ((workshop.withDepth limit).pagesOn .recorded tag' blueprint data)
      ((workshop.withDepth limit').pagesOn .recorded tag' blueprint data))
    (blueprint : Blueprint) (data : Data) :
    (deepening limit stack).Holds
      ((workshop.withDepth limit).visit .recorded ((workshop.withDepth limit).pagesOn .recorded) tag
        blueprint data)
      ((workshop.withDepth limit').visit .recorded ((workshop.withDepth limit').pagesOn .recorded)
        tag blueprint data) := by
  have compiled := deepening_compile pages more blueprint.text blueprint.origin
  refine Bond.Holds.bind ⟨?_, ?_⟩ fun artifact => .settled fun _ _ => rfl
  · -- The second session goes inside and comes out again, and its record grows by that.
    intro e record excused
    have entered : (deepening limit (tag :: stack)).excused e
        (Stacking.recorded.enter tag record) :=
      excused_of_mem (fun _ => List.mem_cons_of_mem _) excused
    exact excused_of_mem (fun _ => List.mem_cons_of_mem _) (compiled.lasting e _ entered)
  · rintro record _ ⟨rfl, rfl⟩
    refine (compiled.matched (Stacking.recorded.enter tag record) _ ⟨rfl, rfl⟩).inside ?_
      (fun _ _ same => same) fun e after => excused_of_mem fun _ => List.mem_cons_of_mem _
    rintro after _ ⟨rfl, now⟩
    exact ⟨rfl, congrArg List.tail now⟩

/-- Under a greater bound the page of a component is made as before if that is so for its template
inside of components that are not too many. -/
theorem deepening_page (more : limit < limit') (tag : Text) (blueprint : Blueprint) (data : Data)
    (visits : tag ∉ stack → stack.length < limit → (deepening limit stack).Holds
      ((workshop.withDepth limit).visit .recorded ((workshop.withDepth limit).pagesOn .recorded) tag
        blueprint data)
      ((workshop.withDepth limit').visit .recorded ((workshop.withDepth limit').pagesOn .recorded)
        tag blueprint data)) :
    (deepening limit stack).Holds
      ((workshop.withDepth limit).pagesOn .recorded tag blueprint data)
      ((workshop.withDepth limit').pagesOn .recorded tag blueprint data) where
  lasting e record := excused_of_mem fun _ => mem_run_pagesOn tag blueprint data
  matched := by
    rintro record _ ⟨rfl, rfl⟩
    have below : (workshop.withDepth limit).config.maxDepth = limit := rfl
    have above : (workshop.withDepth limit').config.maxDepth = limit' := rfl
    have now : Stacking.recorded.stack record = record.now := rfl
    rw [pagesOn_eq, pagesOn_eq, run_guarded, run_guarded, below, above, now]
    by_cases inside : tag ∈ record.now
    · rw [if_pos inside, if_pos inside]
      exact .error rfl ⟨rfl, rfl⟩
    · rw [if_neg inside, if_neg inside]
      by_cases deep : limit ≤ record.now.length
      · rw [if_pos deep]
        by_cases deeper : limit' ≤ record.now.length
        · -- The stack is too long already.
          rw [if_pos deeper]
          have longer := Nat.lt_of_lt_of_le more deeper
          exact .excused ⟨_, rfl, fun _ => ⟨record.now, List.mem_cons_self, longer⟩⟩
        · -- With the tag of the component it becomes so.
          rw [if_neg deeper]
          have held := (workshop.withDepth limit').mem_run_visit tag blueprint data
            (List.mem_cons_self (a := tag :: record.now) (l := record.all))
          exact .excused ⟨_, rfl, fun _ => ⟨tag :: record.now, held, Nat.lt_succ_of_le deep⟩⟩
      · have open' : ¬limit' ≤ record.now.length := fun deeper =>
          deep (Nat.le_trans (Nat.le_of_lt more) deeper)
        rw [if_neg deep, if_neg open']
        exact (visits inside (Nat.lt_of_not_le deep)).matched record record ⟨rfl, rfl⟩

/-- Under a greater bound the pages of components are made as before. -/
theorem deepening_pagesOn (workshop : Workshop) (more : limit < limit') (stack : TagStack)
    (tag : Text) (blueprint : Blueprint) (data : Data) :
    (deepening limit stack).Holds
      ((workshop.withDepth limit).pagesOn .recorded tag blueprint data)
      ((workshop.withDepth limit').pagesOn .recorded tag blueprint data) := by
  -- By induction on the number of components that may still be entered under the smaller bound.
  generalize isRoom : limit - stack.length = room
  induction room generalizing stack tag blueprint data with
  | zero => exact deepening_page more tag blueprint data fun _ free => by omega
  | succ room ih =>
    refine deepening_page more tag blueprint data fun _ free => ?_
    have shorter : limit - (tag :: stack).length = room := by
      rw [List.length_cons]
      omega
    exact deepening_visit (Nat.le_of_lt more)
      (fun tag' blueprint data => ih (tag :: stack) tag' blueprint data shorter) blueprint data

/-- Under a greater bound a source has the same artifact and the same record, or something exceeds
the smaller bound. If that is components, then they nest deeper under the greater one. -/
theorem recordCompile_withDepth (workshop : Workshop) (more : limit < limit')
    (source origin : Text) :
    (workshop.withDepth limit).recordCompile source origin =
        (workshop.withDepth limit').recordCompile source origin ∨
      ∃ what, ((workshop.withDepth limit).recordCompile source origin).1 =
          .error (.tooDeep what limit) ∧
        (what = .components →
          ∃ deep ∈ ((workshop.withDepth limit').recordCompile source origin).2.all,
            limit < deep.length) := by
  have holds := deepening_compile (workshop.deepening_pagesOn more []) (Nat.le_of_lt more) source
    origin
  have matched := holds.matched .empty .empty ⟨rfl, rfl⟩
  unfold recordCompile
  revert matched
  generalize ((workshop.withDepth limit).compileOn _ source origin).run Record.empty = x,
    ((workshop.withDepth limit').compileOn _ source origin).run Record.empty = y
  intro matched
  cases matched with
  | ok related => exact .inl (by rw [related.1])
  | error same related => exact .inl (by rw [same, related.1])
  | excused excused =>
    obtain ⟨what, rfl, deep⟩ := excused
    exact .inr ⟨what, rfl, deep⟩

/-- A bound on depth only refuses. Under a greater bound a source has the same artifact, or fails
with the same error, unless something exceeds the smaller one. What has been compiled is compiled to
the same artifact under every greater bound. -/
theorem compile_withDepth (workshop : Workshop) (more : limit ≤ limit') (source origin : Text) :
    ((workshop.withDepth limit).compile source origin =
        (workshop.withDepth limit').compile source origin ∨
      ∃ what, (workshop.withDepth limit).compile source origin = .error (.tooDeep what limit)) ∧
    ∀ artifact, (workshop.withDepth limit).compile source origin = .ok artifact →
      (workshop.withDepth limit').compile source origin = .ok artifact := by
  have either : (workshop.withDepth limit).compile source origin =
        (workshop.withDepth limit').compile source origin ∨
      ∃ what, (workshop.withDepth limit).compile source origin =
        .error (.tooDeep what limit) := by
    rcases Nat.eq_or_lt_of_le more with rfl | more
    · exact .inl rfl
    · rw [← (recordCompile_sound _ source origin).1, ← (recordCompile_sound _ source origin).1]
      rcases workshop.recordCompile_withDepth more source origin with same | ⟨what, refused, -⟩
      · exact .inl (congrArg Prod.fst same)
      · exact .inr ⟨what, refused⟩
  refine ⟨either, fun artifact compiled => ?_⟩
  rcases either with same | ⟨what, refused⟩
  · exact same ▸ compiled
  · cases refused.symm.trans compiled

end Workshop

/-- An expander is created with the number of passes that it may need. -/
theorem Expander.maxDepth_of_create {word : Text} {depth : Nat} {expander : Expander}
    (created : Expander.create word depth = .ok expander) : expander.maxDepth = depth := by
  rw [Expander.create] at created
  split at created
  · cases created
  · obtain rfl := Except.ok.inj created
    rfl

namespace Engine

variable {σ : Type} {engine : Engine σ}

/-- An engine with something new in it has been written with that. -/
theorem exists_of_ok {α : Type} {new : Except Error α} {write : α → Engine σ} {after : Engine σ}
    (done : (do return write (← new)) = Except.ok after) : ∃ a, new = .ok a ∧ write a = after := by
  cases new with
  | error e => cases done
  | ok a => exact ⟨a, rfl, Except.ok.inj done⟩

/-- The expander of an engine that has been created has the bound of the engine. -/
theorem maxDepth_of_create {config : Config} {files : σ → Files} {shelf : Shelf σ} {state : σ}
    (created : create config files shelf state = .ok engine) :
    engine.expander.maxDepth = engine.config.maxDepth := by
  obtain ⟨-, expander, fallback, made, rfl⟩ := exists_of_create created
  exact Expander.maxDepth_of_create made

/-- An engine has one bound for all that may nest, whatever is registered with it and set. -/
theorem Made.withDepth (made : engine.Made) :
    engine.workshop.withDepth engine.config.maxDepth = engine.workshop := by
  have same : engine.expander.maxDepth = engine.config.maxDepth := by
    induction made with
    | create created => exact maxDepth_of_create created
    | registerDirective _ registered ih =>
      obtain ⟨directives, -, rfl⟩ := exists_of_ok registered
      exact ih
    | registerComponent _ registered ih =>
      obtain ⟨components, -, rfl⟩ := exists_of_ok registered
      exact ih
    | setFallback _ isSet ih =>
      obtain ⟨path, rfl⟩ := exists_of_setFallback isSet
      exact ih
    | setPrefix _ isSet ih =>
      -- The new expander is created with the bound of the engine.
      obtain ⟨expander, isExpander, rfl⟩ := exists_of_ok isSet
      exact Expander.maxDepth_of_create isExpander
    | setDirectory _ directory ih => exact ih
    | resumed _ state writes ih => exact ih
  have expander : engine.expander.withDepth engine.config.maxDepth = engine.expander := by
    rw [← same]
    rfl
  show { engine.workshop with expander := engine.expander.withDepth engine.config.maxDepth } = _
  rw [expander]
  rfl

end Engine

namespace Workshop

/-- A workshop with a part to include that uses a component which uses another one. -/
def layered : Workshop where
  config := {}
  files := Memory.files [("views/part.html".toList, "<app-card></app-card>".toList)]
  directives := Directive.builtins
  components :=
    ⟨[("card".toList, ⟨.template (.inline "<b><app-pin></app-pin></b>".toList), []⟩),
      ("pin".toList, ⟨.template (.inline ['*']), []⟩)], none⟩
  expander := ⟨"app".toList, 32⟩

/-- A page that goes through all that a bound is for needs a depth of two, and no more. -/
theorem compile_layered :
    2 ≤ 5 ∧
      (layered.withDepth 2).compile "<!-- include part --> @if(a) x @endif".toList [] =
        .ok "<b>*</b> <% if a %> x <% endif %>".toList ∧
      (layered.withDepth 5).compile "<!-- include part --> @if(a) x @endif".toList [] =
        .ok "<b>*</b> <% if a %> x <% endif %>".toList := by
  have compiled : (layered.withDepth 2).compile "<!-- include part --> @if(a) x @endif".toList [] =
      .ok "<b>*</b> <% if a %> x <% endif %>".toList := by decide +kernel
  have more : 2 ≤ 5 := by decide
  exact ⟨more, compiled, (layered.compile_withDepth more _ []).2 _ compiled⟩

end Workshop

end Templates
