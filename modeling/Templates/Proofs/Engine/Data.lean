import Templates.Proofs.Engine.Balance
import Templates.Proofs.Engine.Hidden
import Templates.Proofs.Fields

/-!
What the template of a component is rendered with.

Defaults, attributes and what a factory computes are put one over the other. Main statement: which
of them each name of the data has its value from.
-/

namespace Templates

open Markup

/-- The default of the last property of a name. -/
def lastDefault (name : Text) (properties : List Property) : Option Value :=
  ((properties.filter fun p => p.name = name).getLast?).map Property.default

/-- The default of a name, given a definition and the properties that are declared with it. What the
factory declares goes before that. -/
def Definition.default? (definition : Definition) (declared : List Property) (name : Text) :
    Option Value :=
  match definition with
  | .template _ => lastDefault name declared
  | .factory f => (lastDefault name f.properties).or (lastDefault name declared)

/-- The value of a name that the factory, if there is one, computes from what it is handed. -/
def Definition.computed? (definition : Definition) (handed : Data) (name : Text) : Option Value :=
  definition.factory?.bind fun f => Fields.last? name (f.data handed)

/-- The value of a name that the attributes of a tag give: that of the last one of this name, or
with a hyphen and this name in snake case. -/
def Call.given? (call : Call) (name : Text) : Option Value :=
  ((call.attributes.filter fun a => Reaches a.1 name).getLast?).map fun a => .text a.2

/-- Of the properties of a name the last one has the default that counts. -/
theorem Component.get?_defaults (component : Component) (name : Text) :
    component.defaults.get? name = lastDefault name component.properties := by
  rw [defaults, Fields.ofList, Fields.get?_insertAll, Fields.get?_nil, Option.or_none, Fields.last?,
    List.filter_map, List.getLast?_map, Option.map_map]
  rfl

/-- Of properties in two lists those in the second one come last. -/
theorem lastDefault_append (name : Text) (front back : List Property) :
    lastDefault name (front ++ back) = (lastDefault name back).or (lastDefault name front) := by
  rw [lastDefault, lastDefault, lastDefault, List.filter_append, List.getLast?_append,
    Option.map_or]

/-- A name without a default is that of no property. -/
theorem lastDefault_eq_none {name : Text} {properties : List Property} :
    lastDefault name properties = none ↔ properties.any (·.name = name) = false := by
  simp [lastDefault]

/-- A component that is declared has the defaults of its factory, and others as they are declared.
-/
theorem Component.get?_defaults_declare (definition : Definition) (declared : List Property)
    (name : Text) :
    (declare definition declared).defaults.get? name = definition.default? declared name := by
  rw [get?_defaults]
  cases definition with
  | template template => rfl
  | factory f =>
    have properties : (declare (.factory f) declared).properties =
      f.properties ++ declared.filter fun p => !f.properties.any (·.name = p.name) := rfl
    rw [properties, lastDefault_append, Definition.default?]
    cases own : lastDefault name f.properties with
    | none =>
      -- The factory leaves all that are declared with the name.
      have kept (p : Property) (named : p.name = name) :
          (!f.properties.any (·.name = p.name)) = true := by
        rw [named, lastDefault_eq_none.mp own]
        rfl
      have same : lastDefault name (declared.filter fun p => !f.properties.any (·.name = p.name)) =
          lastDefault name declared := by
        rw [lastDefault, lastDefault, List.filter_filter]
        refine congrArg (fun list => (List.getLast? list).map Property.default) ?_
        refine List.filter_congr fun p _ => ?_
        by_cases named : p.name = name
        · rw [kept p named, Bool.and_true]
        · simp [named]
      rw [same, Option.or_none, Option.none_or]
    | some value =>
      -- The factory has one of the name, so that none is left of those declared.
      have left : lastDefault name
          (declared.filter fun p => !f.properties.any (·.name = p.name)) = none := by
        refine lastDefault_eq_none.mpr (List.any_eq_false.mpr fun p listed named => ?_)
        have alone : f.properties.any (·.name = p.name) = false := by
          simpa using (List.mem_filter.mp listed).2
        rw [of_decide_eq_true named] at alone
        rw [lastDefault_eq_none.mpr alone] at own
        cases own
      rw [left, Option.none_or, Option.some_or]

/-- What the attributes of a tag give has ascending names. -/
theorem Call.ascending_properties (call : Call) : call.properties.Ascending := by
  rw [Call.properties]
  -- Each attribute is entered under one name or two.
  induction call.attributes using List.reverseRecOn with
  | nil => exact List.Pairwise.nil
  | append_singleton front a ih =>
    rw [List.foldl_append, List.foldl_cons, List.foldl_nil]
    have entered := ih.insert a.1 (.text a.2)
    by_cases hyphen : '-' ∈ a.1
    · simpa only [if_pos hyphen] using entered.insert (Text.snakeCase a.1) (.text a.2)
    · simpa only [if_neg hyphen] using entered

/-- The defaults of a component with what a tag gives over them. -/
def Component.handed (component : Component) (call : Call) : Data :=
  component.defaults.insertAll call.properties

/-- The data that a factory is handed has ascending names. -/
theorem Component.ascending_handed (component : Component) (call : Call) :
    (component.handed call).Ascending := by
  have none : Fields.Ascending ([] : Data) := List.Pairwise.nil
  exact (none.insertAll _).insertAll _

/-- A factory is handed the value that the tag gives, or else the default. -/
theorem Component.get?_handed (definition : Definition) (declared : List Property) (call : Call)
    (name : Text) :
    ((declare definition declared).handed call).get? name =
      (call.given? name).or (definition.default? declared name) := by
  rw [handed, Fields.get?_insertAll, ← call.ascending_properties.get?_eq_last?,
    Call.get?_properties, get?_defaults_declare, Call.given?]

/-- What data becomes when a factory, if there is one, has put its own over it. -/
def Definition.completed (definition : Definition) (handed : Data) : Data :=
  match definition.factory? with
  | none => handed
  | some f => handed.insertAll (f.data handed)

/-- What a factory computes is put in its place. -/
theorem Definition.ascending_completed (definition : Definition) {handed : Data}
    (ascending : handed.Ascending) : (definition.completed handed).Ascending := by
  cases definition with
  | template template => exact ascending
  | factory f => exact ascending.insertAll _

/-- A name has the value that the factory computes, or else the one that it is handed. -/
theorem Definition.get?_completed (definition : Definition) (handed : Data) (name : Text) :
    (definition.completed handed).get? name =
      (definition.computed? handed name).or (handed.get? name) := by
  cases definition with
  | template template => rfl
  | factory f => exact Fields.get?_insertAll _ _ _

namespace Workshop

variable {workshop : Workshop} {call : Call} {stack : TagStack} {blueprint : Blueprint}

/-- A component that the session may go into has its template compiled there, and rendered. -/
theorem run_page_of_room (outside : call.tag ∉ stack)
    (room : stack.length < workshop.config.maxDepth) (blueprint : Blueprint) (given : Data) :
    (workshop.page workshop.config.maxDepth call.tag blueprint given).run stack =
      (do
        let artifact ← ((workshop.compileWith workshop.renderer blueprint.text
          blueprint.origin).run (call.tag :: stack)).1
        (render workshop.config.maxLoopIterations artifact (blueprint.data given)).mapError .render,
      stack) := by
  have steady := (workshop.follows_self .alone).compile (workshop.steady_page (call.tag :: stack))
    blueprint.text blueprint.origin
  have balanced := (run_of_steady steady).1
  -- The tag that is put on the stack is there in the end, and is taken off again.
  have inside : (Stacking.alone.inside call.tag (workshop.compileOn
        (workshop.answerOn (workshop.page workshop.config.maxDepth)) blueprint.text
        blueprint.origin)).run stack =
      (((workshop.compileWith workshop.renderer blueprint.text blueprint.origin).run
        (call.tag :: stack)).1, stack) := by
    rw [Stacking.run_inside]
    exact congrArg (Prod.mk _) (congrArg List.tail balanced)
  rw [run_page, if_neg outside, if_neg (Nat.not_le.mpr room), visit, Session.run_bind, inside]
  cases ((workshop.compileWith workshop.renderer blueprint.text blueprint.origin).run
    (call.tag :: stack)).1 <;> rfl

/-- A use of a component is answered with what comes of its template. -/
theorem run_answer {pages : Text → Blueprint → Data → Session TagStack Text}
    (found : workshop.blueprint false call.tag = .ok blueprint) {result : Except Error Text}
    {after : TagStack}
    (paged : (pages call.tag blueprint call.properties).run stack = (result, after)) :
    (workshop.answer pages call).run stack =
      (result.map fun html => ⟨html, blueprint.hidden⟩, after) := by
  have begins : (given (workshop.blueprint false call.tag)).run stack = (.ok blueprint, stack) := by
    rw [found]
    rfl
  rw [answer, Session.run_bind, begins]
  show (pages call.tag blueprint call.properties >>= _).run stack = _
  rw [Session.run_bind, paged]
  cases result <;> rfl

/-- The template of a declared component is rendered with what its factory makes of the defaults and
the attributes. -/
theorem data_blueprint {definition : Definition} {declared : List Property}
    (resolved : workshop.resolve false call.tag =
      .ok (.registered (.declare definition declared)))
    (found : workshop.blueprint false call.tag = .ok blueprint) :
    blueprint.data call.properties =
      definition.completed ((Component.declare definition declared).handed call) := by
  obtain ⟨defaults, -, factory⟩ := parts_blueprint resolved found
  have definition' : (Component.declare definition declared).definition = definition := by
    cases definition <;> rfl
  rw [Blueprint.data, defaults, factory, definition']
  rfl

end Workshop

/-- What the template of a registered component is rendered with. A factory is handed the defaults
of the properties with the attributes of the tag over them: of those that give a value to one name
the last one counts, and of the properties of one name also the last one, where those of the factory
go before all others. What the factory computes goes before what it is handed. -/
theorem Workshop.renderer_data {workshop : Workshop} {call : Call} {definition : Definition}
    {declared : List Property}
    (resolved : workshop.resolve false call.tag =
      .ok (.registered (.declare definition declared))) :
    ∃ handed data : Data, handed.Ascending ∧ data.Ascending ∧
      (∀ name, handed.get? name = (call.given? name).or (definition.default? declared name)) ∧
      (∀ name, data.get? name = (definition.computed? handed name).or (handed.get? name)) ∧
      ∀ blueprint, workshop.blueprint false call.tag = .ok blueprint →
        ∀ stack : TagStack, call.tag ∉ stack → stack.length < workshop.config.maxDepth →
          (workshop.renderer call).run stack =
            (do
              let artifact ← ((workshop.compileWith workshop.renderer blueprint.text
                blueprint.origin).run (call.tag :: stack)).1
              let html ← (render workshop.config.maxLoopIterations artifact data).mapError .render
              return ⟨html, blueprint.hidden⟩, stack) := by
  refine ⟨(Component.declare definition declared).handed call,
    definition.completed ((Component.declare definition declared).handed call),
    Component.ascending_handed _ call,
    definition.ascending_completed (Component.ascending_handed _ call),
    Component.get?_handed definition declared call, definition.get?_completed _, ?_⟩
  intro blueprint found stack outside room
  have data := Workshop.data_blueprint resolved found
  have page := Workshop.run_page_of_room outside room blueprint call.properties
  rw [data] at page
  refine (run_answer found page).trans (congrArg (fun result => (result, stack)) ?_)
  -- The markup is that of the page, if the compilation and the render have succeeded.
  show (fun html => (⟨html, blueprint.hidden⟩ : Rendered)) <$>
    ((_ : Except Error Text) >>= _ : Except Error Text) = _
  rw [map_bind]
  simp only [map_eq_pure_bind]

namespace Workshop

/-- A component whose factory gives the size another name. -/
def label : Definition :=
  .factory
    { template := .inline
        "\x7b\x7b kind \x7d\x7d \x7b\x7b tone \x7d\x7d \x7b\x7b user_name \x7d\x7d".toList
      properties := [⟨"size".toList, .text ['m'], false⟩]
      data := fun handed =>
        (handed.get? "size".toList).toList.map fun size => ("kind".toList, size) }

/-- Properties of one name, and some that the factory has its own values for. -/
def labelProperties : List Property :=
  [⟨"size".toList, .text ['s'], false⟩, ⟨"kind".toList, .text "plain".toList, false⟩,
    ⟨"tone".toList, .text "dark".toList, false⟩, ⟨"tone".toList, .text "light".toList, false⟩]

/-- A workshop with that component. -/
def labelled : Workshop :=
  { badged with components := ⟨[("label".toList, .declare label labelProperties)], none⟩ }

/-- A use of it that gives one property its value twice. -/
def labelCall : Call :=
  ⟨"label".toList, [("user-name".toList, "Zed".toList), ("user_name".toList, "Ann".toList)]⟩

/-- What the factory computes, the last default and the last attribute are on the page. -/
theorem renderer_data_label :
    ∃ handed data : Data,
      handed.get? "size".toList = some (.text ['m']) ∧
      handed.get? "kind".toList = some (.text "plain".toList) ∧
      data.get? "kind".toList = some (.text ['m']) ∧
      data.get? "tone".toList = some (.text "light".toList) ∧
      data.get? "user_name".toList = some (.text "Ann".toList) ∧
      data.get? "color".toList = none ∧
      ∃ artifact, render labelled.config.maxLoopIterations artifact data =
        .ok "m light Ann".toList := by
  have resolved : labelled.resolve false labelCall.tag =
      .ok (.registered (.declare label labelProperties)) := rfl
  obtain ⟨handed, data, -, -, given, all, page⟩ := renderer_data resolved
  have size : handed.get? "size".toList = some (.text ['m']) := (given _).trans rfl
  have computed (name : Text) :
      label.computed? handed name = Fields.last? name [("kind".toList, .text ['m'])] := by
    show Fields.last? name ((handed.get? "size".toList).toList.map _) = _
    rw [size]
    rfl
  refine ⟨handed, data, size, (given _).trans rfl, ?_, ?_, ?_, ?_, ?_⟩
  · rw [all, computed]
    rfl
  · rw [all, computed, given]
    rfl
  · rw [all, computed, given]
    rfl
  · rw [all, computed, given]
    rfl
  · have answered : (labelled.renderer labelCall).run [] =
        (.ok ⟨"m light Ann".toList, []⟩, []) := by
      have runs : @Eq (Except Error Rendered × TagStack) ((labelled.renderer labelCall).run [])
          (.ok ⟨"m light Ann".toList, []⟩, []) := by
        decide +kernel
      exact runs
    have room : ([] : TagStack).length < labelled.config.maxDepth := by decide
    rw [page _ rfl [] List.not_mem_nil room] at answered
    obtain ⟨artifact, _, rest⟩ := exists_of_bind (Prod.mk.inj answered).1
    obtain ⟨html, rendered, done⟩ := exists_of_bind rest
    obtain rfl : html = "m light Ann".toList :=
      congrArg Rendered.html (Except.ok.inj done)
    refine ⟨artifact, ?_⟩
    cases outcome : render labelled.config.maxLoopIterations artifact data with
    | error e =>
      rw [outcome] at rendered
      cases rendered
    | ok html =>
      rw [outcome] at rendered
      exact congrArg Except.ok (Except.ok.inj rendered)

end Workshop

end Templates
