import Templates.Artifact.Shelf
import Templates.Directive.Builtin
import Templates.Engine.Workshop

/-! An engine compiles sources, keeps their artifacts and renders them. -/

namespace Templates

/-- An engine: its settings and what has been registered with it, and a state from which templates
are read and in which artifacts are kept. -/
structure Engine (σ : Type) where
  config : Config
  directives : Directives
  components : Components
  expander : Expander
  fallback : Option Path
  files : σ → Files
  shelf : Shelf σ
  state : σ
  /-- The number of artifacts that have been saved. -/
  writes : Nat

namespace Engine

variable {σ : Type}

/-- What the compilation of a source depends on. -/
def workshop (engine : Engine σ) : Workshop where
  config := engine.config
  files := engine.files engine.state
  directives := engine.directives
  components := engine.components
  expander := engine.expander

/-- A view stands in for missing ones; it must be there itself. -/
def setFallback (view : Text) (engine : Engine σ) : Except Error (Engine σ) :=
  let path := engine.config.viewPath view
  if (engine.files engine.state).isFile path then .ok { engine with fallback := some path }
  else .error (.viewMissing view)

/-- An engine that starts with the built-in directives and without components. -/
def create (config : Config) (files : σ → Files) (shelf : Shelf σ) (state : σ) :
    Except Error (Engine σ) := do
  config.validate
  let expander ← Expander.create config.componentPrefix config.maxDepth
  let engine : Engine σ :=
    { config, files, shelf, state, expander
      directives := Directive.builtins
      components := ⟨[], config.autoloadComponents⟩
      fallback := none
      writes := 0 }
  match config.fallbackView with
  | some view => engine.setFallback view
  | none => return engine

/-- A directive is registered. -/
def registerDirective (directive : Directive) (engine : Engine σ) : Except Error (Engine σ) := do
  return { engine with directives := ← engine.directives.register directive }

/-- A component is registered. -/
def registerComponent (tag : Text) (component : Component) (engine : Engine σ) :
    Except Error (Engine σ) := do
  return { engine with components := ← engine.components.register tag component }

/-- Custom tags begin with another word from now on. -/
def setPrefix (word : Text) (engine : Engine σ) : Except Error (Engine σ) := do
  let expander ← Expander.create word engine.config.maxDepth
  return { engine with
    expander := expander
    config := { engine.config with componentPrefix := expander.tagPrefix } }

/-- Components are looked up in another directory from now on. -/
def setDirectory (directory : Path) (engine : Engine σ) : Engine σ :=
  { engine with
    config := { engine.config with autoloadComponents := some directory }
    components := { engine.components with directory := some directory } }

/-- All artifacts are removed; the result tells whether that was possible. -/
def clear (engine : Engine σ) : Bool × Engine σ :=
  let (cleared, state) := engine.shelf.clear engine.state
  (cleared, { engine with state := state })

/-- The key of a source. -/
def keyOf (engine : Engine σ) (source : TemplateSource) : ArtifactKey :=
  ArtifactKey.derive (source.identity engine.config)

/-- The text of a source. -/
def load (engine : Engine σ) : TemplateSource → Except Error Text
  | .view name => engine.workshop.files.readView (engine.config.viewPath name) name
  | .file path => engine.workshop.files.readView path path
  | .named _ markup => .ok markup
  | .unnamed markup => .ok markup

/-- The artifact of a source, computed anew. -/
def compileText (engine : Engine σ) (source : TemplateSource) : Except Error Text := do
  let text ← engine.load source
  engine.workshop.compile text (source.identity engine.config)

/-- An artifact is saved under a key. -/
def save (key : ArtifactKey) (artifact : Text) (engine : Engine σ) :
    Except Error Unit × Engine σ :=
  match engine.shelf.save key artifact engine.state with
  | (true, state) => (.ok (), { engine with state := state, writes := engine.writes + 1 })
  | (false, state) => (.error .storage, { engine with state := state })

/-- A source has its artifact under a key from now on. An artifact that is there already stays, if
reuse is allowed, and then the source is not read. -/
def compile (source : TemplateSource) (engine : Engine σ) : Except Error ArtifactKey × Engine σ :=
  let key := engine.keyOf source
  match engine.shelf.reusable? engine.config.useCached key engine.state with
  | some _ => (.ok key, engine)
  | none =>
    match engine.compileText source with
    | .error e => (.error e, engine)
    | .ok artifact =>
      match engine.save key artifact with
      | (.ok (), engine) => (.ok key, engine)
      | (.error e, engine) => (.error e, engine)

/-- The page of an artifact. -/
def render (engine : Engine σ) (key : ArtifactKey) (data : Data) : Except Error Text := do
  let artifact ← engine.shelf.fetch key engine.state
  (Templates.render engine.config.maxLoopIterations artifact data).mapError .render

/-- The page of a source. -/
def renderSource (source : TemplateSource) (data : Data) (engine : Engine σ) :
    Except Error Text × Engine σ :=
  match engine.compile source with
  | (.ok key, engine) => (engine.render key data, engine)
  | (.error e, engine) => (.error e, engine)

/-- The page of a view. The fallback stands in for a view that is missing, unless that is to be
told. -/
def make (view : Text) (data : Data) (engine : Engine σ) : Except Error Text × Engine σ :=
  match engine.compile (.view view) with
  | (.ok key, engine) => (engine.render key data, engine)
  | (.error e, engine) =>
    match engine.fallback with
    | some path =>
      if e.isViewMissing && !engine.config.throwNotFound then engine.renderSource (.file path) data
      else (.error e, engine)
    | none => (.error e, engine)

/-- The page of markup without a name. -/
def renderInline (markup : Text) (data : Data) (engine : Engine σ) :
    Except Error Text × Engine σ :=
  engine.renderSource (.unnamed markup) data

/-- The page of a component, whose tag may be given with its common beginning. -/
def component (engine : Engine σ) (tag : Text) (data : Data) : Except Error Text :=
  let start := engine.config.componentPrefix ++ ['-']
  engine.workshop.component ((Text.strip? start tag).getD tag) data

end Engine

end Templates
