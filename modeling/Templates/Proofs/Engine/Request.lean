import Templates.Proofs.Engine.Reuse

/-!
Engines serve requests one after the other, while their templates may change.

Whatever they are asked for, the places of artifacts, the keys of sources and the decision on reuse
stay the same, and only compilations and clearing touch the artifacts.
-/

namespace Templates

/-- What an engine can be asked for, or what happens to its templates between two requests. -/
inductive Request (σ : Type) where
  | compile (source : TemplateSource)
  | make (view : Text) (data : Data)
  | renderInline (markup : Text) (data : Data)
  | render (key : ArtifactKey) (data : Data)
  | component (tag : Text) (data : Data)
  | registerDirective (directive : Directive)
  | registerComponent (tag : Text) (component : Component)
  | setFallback (view : Text)
  | setPrefix (word : Text)
  | setDirectory (directory : Path)
  | clear
  | changeFiles (files : σ → Files)

/-- A source that is compiled, and the engine as it is then. -/
structure Compilation (σ : Type) where
  engine : Engine σ
  source : TemplateSource

namespace Compilation

variable {σ : Type} (compilation : Compilation σ)

/-- The key of the source. -/
def key : ArtifactKey :=
  compilation.engine.keyOf compilation.source

/-- What the source compiles to. -/
def artifact : Except Error Text :=
  compilation.engine.compileText compilation.source

/-- Whether the source is answered with a key. -/
def succeeds : Bool :=
  (compilation.engine.compile compilation.source).1.isOk

/-- Whether an artifact that is there already is used again. -/
def reuses : Bool :=
  (compilation.engine.shelf.reusable? compilation.engine.config.useCached compilation.key
    compilation.engine.state).isSome

/-- Whether the source is answered with an artifact that was not there before. -/
def isFresh : Bool :=
  compilation.succeeds && !compilation.reuses

end Compilation

namespace Engine

variable {σ : Type}

/-- An engine after a change, which leaves it as it is when it fails. -/
def changed (engine : Engine σ) : Except Error (Engine σ) → Engine σ
  | .ok after => after
  | .error _ => engine

/-- An engine after a request. -/
def serve (engine : Engine σ) : Request σ → Engine σ
  | .compile source => (engine.compile source).2
  | .make view data => (engine.make view data).2
  | .renderInline markup data => (engine.renderInline markup data).2
  | .render _ _ => engine
  | .component _ _ => engine
  | .registerDirective directive => engine.changed (engine.registerDirective directive)
  | .registerComponent tag component => engine.changed (engine.registerComponent tag component)
  | .setFallback view => engine.changed (engine.setFallback view)
  | .setPrefix word => engine.changed (engine.setPrefix word)
  | .setDirectory directory => engine.setDirectory directory
  | .clear => engine.clear.2
  | .changeFiles files => { engine with files := files }

/-- The compilation of the fallback, where it stands in for a view that is answered like this. -/
def standIn : Except Error ArtifactKey × Engine σ → List (Compilation σ)
  | (.ok _, _) => []
  | (.error e, engine) =>
    match engine.fallback with
    | some path =>
      if e.isViewMissing && !engine.config.throwNotFound then [⟨engine, .file path⟩] else []
    | none => []

/-- The compilations that a request comes to, in order. -/
def compilations (engine : Engine σ) : Request σ → List (Compilation σ)
  | .compile source => [⟨engine, source⟩]
  | .make view _ => ⟨engine, .view view⟩ :: standIn (engine.compile (.view view))
  | .renderInline markup _ => [⟨engine, .unnamed markup⟩]
  | _ => []

/-- An engine after several requests. -/
def serveAll (requests : List (Request σ)) (engine : Engine σ) : Engine σ :=
  requests.foldl serve engine

/-- All compilations that several requests come to, in order. -/
def allCompilations : List (Request σ) → Engine σ → List (Compilation σ)
  | [], _ => []
  | request :: rest, engine =>
    engine.compilations request ++ allCompilations rest (engine.serve request)

/-- The first request is served by itself, and the others by the engine that it leaves. -/
theorem serveAll_cons (request : Request σ) (rest : List (Request σ)) (engine : Engine σ) :
    serveAll (request :: rest) engine = serveAll rest (engine.serve request) := rfl

/-- Requests are served one part after the other. -/
theorem serveAll_append (front back : List (Request σ)) (engine : Engine σ) :
    serveAll (front ++ back) engine = serveAll back (serveAll front engine) :=
  List.foldl_append

/-- Compilations of some sources in a row lead from one engine to another. -/
inductive Compiles : Engine σ → List (Compilation σ) → Engine σ → Prop
  | nil (engine : Engine σ) : Compiles engine [] engine
  | cons {engine after : Engine σ} {source : TemplateSource} {rest : List (Compilation σ)} :
    Compiles (engine.compile source).2 rest after → Compiles engine (⟨engine, source⟩ :: rest) after

/-- One source leads to the engine after its compilation. -/
theorem Compiles.single (engine : Engine σ) (source : TemplateSource) :
    Compiles engine [⟨engine, source⟩] (engine.compile source).2 :=
  .cons (.nil _)

/-- Rendering a source compiles it and nothing else. -/
theorem snd_renderSource (engine : Engine σ) (source : TemplateSource) (data : Data) :
    (engine.renderSource source data).2 = (engine.compile source).2 := by
  unfold renderSource
  rcases engine.compile source with ⟨_ | _, _⟩ <;> rfl

/-- Making a view comes to its compilation, and to that of the fallback when it stands in. -/
theorem compiles_make (engine : Engine σ) (view : Text) (data : Data) :
    Compiles engine (engine.compilations (.make view data)) (engine.make view data).2 := by
  refine .cons ?_
  unfold make
  rcases engine.compile (.view view) with ⟨e | key, after⟩
  · -- An error is told, unless there is a fallback that stands in.
    unfold standIn
    dsimp only
    cases after.fallback with
    | none => exact .nil after
    | some path =>
      dsimp only
      split
      · rw [snd_renderSource]
        exact .single after (.file path)
      · exact .nil after
  · exact .nil after

/-- Compilations lead to an engine that has another state and number of saved artifacts at most. -/
theorem Compiles.exists_resumed {engine after : Engine σ} {done : List (Compilation σ)}
    (compiles : Compiles engine done after) :
    ∃ state writes, engine.resumed state writes = after := by
  -- What a later compilation writes takes the place of what an earlier one wrote.
  induction compiles with
  | nil engine => exact ⟨engine.state, engine.writes, rfl⟩
  | @cons engine after source rest _ ih =>
    obtain ⟨state, writes, first, -⟩ := engine.compile_resumed source
    obtain ⟨state', writes', rfl⟩ := ih
    rw [first]
    exact ⟨state', writes', rfl⟩

/-- What no request changes: the places of artifacts, their keys, and whether they may be used
again. -/
structure Fixed (engine after : Engine σ) : Prop where
  shelf : after.shelf = engine.shelf
  useCached : after.config.useCached = engine.config.useCached
  keyOf : ∀ source, after.keyOf source = engine.keyOf source

/-- An engine has what it has. -/
theorem Fixed.refl (engine : Engine σ) : Fixed engine engine :=
  ⟨rfl, rfl, fun _ => rfl⟩

/-- What does not change in two steps does not change in both. -/
theorem Fixed.trans {engine between after : Engine σ} (first : Fixed engine between)
    (second : Fixed between after) : Fixed engine after where
  shelf := second.shelf.trans first.shelf
  useCached := second.useCached.trans first.useCached
  keyOf source := (second.keyOf source).trans (first.keyOf source)

/-- Compilations change none of it. -/
theorem Compiles.fixed {engine after : Engine σ} {done : List (Compilation σ)}
    (compiles : Compiles engine done after) : Fixed engine after := by
  obtain ⟨state, writes, rfl⟩ := compiles.exists_resumed
  exact ⟨rfl, rfl, fun _ => rfl⟩

/-- Something new in an engine that is no artifact. -/
structure Reset (engine after : Engine σ) : Prop where
  fixed : Fixed engine after
  state : after.state = engine.state
  writes : after.writes = engine.writes

/-- Nothing new is no artifact either. -/
theorem Reset.refl (engine : Engine σ) : Reset engine engine :=
  ⟨.refl engine, rfl, rfl⟩

/-- A change with a new part in it is no artifact when it is none for any such part. -/
theorem reset_changed {α : Type} {engine : Engine σ} {new : Except Error α} {write : α → Engine σ}
    (resets : ∀ part, Reset engine (write part)) :
    Reset engine (engine.changed (do return write (← new))) := by
  cases new with
  | error _ => exact .refl engine
  | ok part => exact resets part

/-- A new fallback is no artifact. -/
theorem reset_setFallback (engine : Engine σ) (view : Text) :
    Reset engine (engine.changed (engine.setFallback view)) := by
  rw [setFallback]
  split
  · exact ⟨⟨rfl, rfl, fun _ => rfl⟩, rfl, rfl⟩
  · exact .refl engine

/-- A request comes to compilations, or clears the shelf, or makes something new that is no
artifact. -/
theorem serve_cases (engine : Engine σ) (request : Request σ) :
    Compiles engine (engine.compilations request) (engine.serve request) ∨
      (engine.compilations request = [] ∧
        ((request = .clear ∧ engine.serve request = engine.clear.2) ∨
          Reset engine (engine.serve request))) := by
  cases request with
  | compile source => exact .inl (.single engine source)
  | make view data => exact .inl (engine.compiles_make view data)
  | renderInline markup data =>
    left
    rw [serve, renderInline, snd_renderSource]
    exact .single engine _
  | render key data => exact .inl (.nil engine)
  | component tag data => exact .inl (.nil engine)
  | registerDirective directive =>
    refine .inr ⟨rfl, .inr (reset_changed fun _ => ?_)⟩
    exact ⟨⟨rfl, rfl, fun _ => rfl⟩, rfl, rfl⟩
  | registerComponent tag component =>
    refine .inr ⟨rfl, .inr (reset_changed fun _ => ?_)⟩
    exact ⟨⟨rfl, rfl, fun _ => rfl⟩, rfl, rfl⟩
  | setFallback view => exact .inr ⟨rfl, .inr (engine.reset_setFallback view)⟩
  | setPrefix word =>
    -- A key depends on the place and the extension of views, and not on the prefix of tags.
    refine .inr ⟨rfl, .inr (reset_changed fun _ => ?_)⟩
    exact ⟨⟨rfl, rfl, fun source => by cases source <;> rfl⟩, rfl, rfl⟩
  | setDirectory directory =>
    refine .inr ⟨rfl, .inr ⟨⟨rfl, rfl, fun source => ?_⟩, rfl, rfl⟩⟩
    cases source <;> rfl
  | clear => exact .inr ⟨rfl, .inl ⟨rfl, rfl⟩⟩
  | changeFiles files => exact .inr ⟨rfl, .inr ⟨⟨rfl, rfl, fun _ => rfl⟩, rfl, rfl⟩⟩

/-- No request changes the places of artifacts, their keys, or whether they may be used again. -/
theorem fixed_serve (engine : Engine σ) (request : Request σ) :
    Fixed engine (engine.serve request) := by
  obtain compiles | ⟨-, ⟨-, cleared⟩ | reset⟩ := engine.serve_cases request
  · exact compiles.fixed
  · -- Clearing changes the state of the shelf alone.
    rw [cleared]
    exact ⟨rfl, rfl, fun _ => rfl⟩
  · exact reset.fixed

/-- Nor do several requests. -/
theorem fixed_serveAll (requests : List (Request σ)) (engine : Engine σ) :
    Fixed engine (serveAll requests engine) := by
  induction requests generalizing engine with
  | nil => exact .refl engine
  | cons request rest ih => exact (engine.fixed_serve request).trans (ih (engine.serve request))

end Engine

end Templates
