import Templates.Proofs.Echo.Markers
import Templates.Proofs.Engine.Plain
import Templates.Proofs.Engine.Reuse
import Templates.Proofs.Program.Pieces

/-!
Engines leave sources alone in which nothing is theirs.

Without comments of a layout, custom tags and names of directives only expressions in braces are
rewritten. Without these, and without tags, a source is its own artifact and its own page.
-/

namespace Templates

/-- An artifact without tags is a program that writes it. -/
theorem Program.read_untagged {artifact : Text} (filled : artifact ≠ [])
    (noTag : Text.contains "<%".toList artifact = false) :
    Program.read artifact = .ok [.text artifact] := by
  -- The text is pending up to the end of the artifact.
  have noPercent : ([] : Text).head? ≠ some '%' := by decide
  have cut := Segment.segmentsFrom_text noTag noPercent 0 []
  rw [List.append_nil, List.append_nil] at cut
  have pending : artifact.reverse ≠ [] := by simpa using filled
  have whole : segments artifact = .ok [.text artifact] := by
    rw [segments, cut, Segment.segmentsFrom, Segment.withText_of_ne_nil pending,
      List.reverse_reverse]
  rw [Program.read, whole]
  rfl

/-- An artifact without tags is its own page. -/
theorem render_untagged {artifact : Text} (noTag : Text.contains "<%".toList artifact = false)
    (limit : Nat) (data : Data) : render limit artifact data = .ok artifact := by
  by_cases empty : artifact = []
  · subst empty
    rfl
  · have written : Program.render limit [.text artifact] data = .ok artifact := by
      simp [Program.render, runAll, Node.run, Scope.write, Scope.output, Except.map]
    rw [render, Program.read_untagged empty noTag]
    show (Program.render limit [.text artifact] data).mapError RenderError.eval = _
    rw [written]
    rfl

namespace Engine

variable {σ : Type} {engine : Engine σ}

/-- Engines as they come about: one is created, things are registered with it and set, and its files
and artifacts change. -/
inductive Made : Engine σ → Prop
  | create {config : Config} {files : σ → Files} {shelf : Shelf σ} {state : σ} {engine : Engine σ}
    (created : Engine.create config files shelf state = .ok engine) : Made engine
  | registerDirective {engine after : Engine σ} (made : Made engine) {directive : Directive}
    (registered : engine.registerDirective directive = .ok after) : Made after
  | registerComponent {engine after : Engine σ} (made : Made engine) {tag : Text}
    {component : Component} (registered : engine.registerComponent tag component = .ok after) :
    Made after
  | setFallback {engine after : Engine σ} (made : Made engine) {view : Text}
    (isSet : engine.setFallback view = .ok after) : Made after
  | setPrefix {engine after : Engine σ} (made : Made engine) {word : Text}
    (isSet : engine.setPrefix word = .ok after) : Made after
  | setDirectory {engine : Engine σ} (made : Made engine) (directory : Path) :
    Made (engine.setDirectory directory)
  | resumed {engine : Engine σ} (made : Made engine) (state : σ) (writes : Nat) :
    Made (engine.resumed state writes)

/-- A fallback changes nothing else. -/
theorem exists_of_setFallback {after : Engine σ} {view : Text}
    (isSet : engine.setFallback view = .ok after) :
    ∃ path, { engine with fallback := some path } = after := by
  rw [setFallback] at isSet
  split at isSet
  · exact ⟨_, Except.ok.inj isSet⟩
  · cases isSet

/-- A fallback changes no settings. -/
theorem config_of_setFallback {after : Engine σ} {view : Text}
    (isSet : engine.setFallback view = .ok after) : after.config = engine.config := by
  obtain ⟨path, rfl⟩ := exists_of_setFallback isSet
  rfl

/-- An engine with something new in it, whatever that is, has as much room for nested templates. -/
theorem maxDepth_of_ok {α : Type} {new : Except Error α} {write : α → Engine σ} {after : Engine σ}
    (done : (do return write (← new)) = Except.ok after)
    (keeps : ∀ a, (write a).config.maxDepth = engine.config.maxDepth) :
    after.config.maxDepth = engine.config.maxDepth := by
  cases new with
  | error e => cases done
  | ok a =>
    obtain rfl := Except.ok.inj done
    exact keeps a

/-- An engine is created with settings that it can work with, an expander for their custom tags and
their directory of components. -/
theorem exists_of_create {config : Config} {files : σ → Files} {shelf : Shelf σ} {state : σ}
    (created : create config files shelf state = .ok engine) :
    config.validate = .ok () ∧ ∃ expander fallback,
      Expander.create config.componentPrefix config.maxDepth = .ok expander ∧
      { config, files, shelf, state, expander, fallback
        directives := Directive.builtins
        components := ⟨[], config.autoloadComponents⟩
        writes := 0 } = engine := by
  rw [create] at created
  cases valid : config.validate with
  | error e =>
    rw [valid] at created
    cases created
  | ok _ =>
    refine ⟨rfl, ?_⟩
    cases made : Expander.create config.componentPrefix config.maxDepth with
    | error e =>
      rw [valid, made] at created
      cases created
    | ok expander =>
      rw [valid, made] at created
      -- A fallback of the settings is looked up last.
      cases fallback : config.fallbackView with
      | none =>
        rw [fallback] at created
        exact ⟨expander, none, rfl, Except.ok.inj created⟩
      | some view =>
        rw [fallback] at created
        obtain ⟨path, same⟩ := exists_of_setFallback created
        exact ⟨expander, some path, rfl, same⟩

/-- An engine keeps the settings that it was created with, and they give it room. -/
theorem config_of_create {config : Config} {files : σ → Files} {shelf : Shelf σ} {state : σ}
    (created : create config files shelf state = .ok engine) :
    engine.config = config ∧ 0 < config.maxDepth := by
  obtain ⟨valid, expander, fallback, -, rfl⟩ := exists_of_create created
  refine ⟨rfl, Nat.pos_of_ne_zero fun zero => ?_⟩
  rw [Config.validate, if_pos zero] at valid
  split at valid <;> cases valid

/-- An engine has room for nested templates. -/
theorem Made.deep (made : engine.Made) : 0 < engine.config.maxDepth := by
  induction made with
  | @create config files shelf state engine created =>
    obtain ⟨same, deep⟩ := config_of_create created
    rwa [same]
  | registerDirective _ registered ih =>
    rw [Engine.registerDirective] at registered
    rwa [maxDepth_of_ok registered fun _ => rfl]
  | registerComponent _ registered ih =>
    rw [Engine.registerComponent] at registered
    rwa [maxDepth_of_ok registered fun _ => rfl]
  | setFallback _ isSet ih => rwa [config_of_setFallback isSet]
  | setPrefix _ isSet ih =>
    rw [Engine.setPrefix] at isSet
    rwa [maxDepth_of_ok isSet fun _ => rfl]
  | setDirectory _ directory ih => exact ih
  | resumed _ state writes ih => exact ih

/-- A source without comments of a layout and custom tags, no marker of which has the name of a
directive, is compiled to itself with its expressions in tags. If it has no braces and no tags, it
is its own artifact, which gives the source back whatever the data are. -/
theorem Made.compile_eq_echo (made : engine.Made) {source : Text}
    (plain : engine.workshop.IsPlain source)
    (unknown : ∀ found, .marker found ∈ Mark.scan source →
      engine.directives.get? found.name = none) :
    (∀ origin, engine.workshop.compile source origin = .ok (Echo.compile source)) ∧
      (∀ renderer origin stack, (engine.workshop.compileWith renderer source origin).run stack =
        (.ok (Echo.compile source), stack)) ∧
      (Text.contains "\x7b\x7b".toList source = false →
        Text.contains "\x7b!!".toList source = false → Text.contains "<%".toList source = false →
          Echo.compile source = source ∧
            ∀ data, Templates.render engine.config.maxLoopIterations source data = .ok source) := by
  -- What braces become brings no marker with it, so there is nothing to replace behind them.
  have idle : engine.directives.isIdle (Echo.compile source) = true := by
    apply Directives.isIdle_of_names
    rw [Echo.names_compile]
    intro name listed
    obtain ⟨mark, member, named⟩ := List.mem_filterMap.mp listed
    cases mark with
    | plain c => cases named
    | marker found =>
      obtain rfl := Option.some.inj named
      exact unknown found member
  have directed : engine.directives.compile engine.config.maxDepth (Echo.compile source) =
      .ok (Echo.compile source) := Directives.compile_of_isIdle idle made.deep
  refine ⟨fun origin => ?_, fun renderer origin stack => ?_, fun noEscaped noRaw noTag => ?_⟩
  · exact (plain.compile_eq made.deep origin).trans directed
  · exact (plain.run_compileWith made.deep renderer origin stack).trans (by rw [← directed]; rfl)
  · exact ⟨Echo.compile_unbraced noRaw noEscaped, render_untagged noTag _⟩

/-- An engine without files, with a directive beside the builtin ones. -/
def clockEngine : Engine (Fields Text) where
  config := {}
  directives := Directive.builtins.insert "clock".toList (.word "clock")
  components := ⟨[], none⟩
  expander := ⟨"app".toList, 32⟩
  fallback := none
  files _ := Memory.files []
  shelf := Shelf.inMemory
  state := []
  writes := 0

/-- Braces that do not belong together, at signs, a comment and the end of a tag. -/
def strayMarks : Text :=
  "\x7d @home(x) \x7b a@b !!\x7d<!-- app --> %> <app>".toList

/-- A source that looks much like what is rewritten comes through byte for byte. -/
theorem compile_strayMarks :
    clockEngine.Made ∧ clockEngine.workshop.IsPlain strayMarks ∧
      (∀ found, .marker found ∈ Mark.scan strayMarks →
        clockEngine.directives.get? found.name = none) ∧
      clockEngine.workshop.compile strayMarks [] = .ok strayMarks ∧
      ∀ data, Templates.render clockEngine.config.maxLoopIterations strayMarks data =
        .ok strayMarks := by
  have created : Engine.create {} (fun _ => Memory.files []) Shelf.inMemory [] =
      .ok { clockEngine with directives := Directive.builtins } := rfl
  have registered : registerDirective (.word "clock")
      { clockEngine with directives := Directive.builtins } = .ok clockEngine := rfl
  have made : clockEngine.Made := .registerDirective (.create created) registered
  have plain : clockEngine.workshop.IsPlain strayMarks :=
    ⟨by decide +kernel, by decide +kernel, by decide +kernel, by decide +kernel, by decide +kernel⟩
  have unknown : ∀ found, .marker found ∈ Mark.scan strayMarks →
      clockEngine.directives.get? found.name = none := by
    have free : (Mark.names (Mark.scan strayMarks)).all
        (fun name => (clockEngine.directives.get? name).isNone) = true := by decide +kernel
    intro found member
    have listed : found.name ∈ Mark.names (Mark.scan strayMarks) :=
      List.mem_filterMap.mpr ⟨_, member, rfl⟩
    exact Option.isNone_iff_eq_none.mp (List.all_eq_true.mp free _ listed)
  obtain ⟨compiled, -, unchanged⟩ := made.compile_eq_echo plain unknown
  obtain ⟨same, rendered⟩ := unchanged (by decide +kernel) (by decide +kernel) (by decide +kernel)
  exact ⟨made, plain, unknown, (compiled []).trans (congrArg Except.ok same), rendered⟩

end Engine

end Templates
