import Templates.Engine.Basic

/-! What a source compiles to does not depend on whether artifacts may be used again. -/

namespace Templates

namespace Config

/-- Settings that allow artifacts to be used again, or do not. -/
def withReuse (reuse : Bool) (config : Config) : Config :=
  { config with useCached := reuse }

end Config

/-- Includes are expanded alike. -/
theorem Layout.expandIncludes_withReuse (files : Files) (config : Config) (reuse : Bool)
    (depth : Nat) (chain : List Text) (source : Text) :
    expandIncludes files (config.withReuse reuse) depth chain source =
      expandIncludes files config depth chain source := by
  -- The paths of the included files and the bound are the same, and so are their own includes.
  induction depth generalizing chain source with
  | zero => rfl
  | succ depth ih =>
    simp only [expandIncludes, ih]
    rfl

/-- Layouts are resolved alike. -/
theorem Layout.resolve_withReuse (files : Files) (config : Config) (reuse : Bool)
    (source origin : Text) :
    resolve files (config.withReuse reuse) source origin = resolve files config source origin :=
  congrArg _ (expandIncludes_withReuse files config reuse config.maxDepth [origin] source)

namespace Workshop

/-- A workshop whose artifacts may be used again, or may not. -/
def withReuse (reuse : Bool) (workshop : Workshop) : Workshop :=
  { workshop with config := workshop.config.withReuse reuse }

/-- Sources are compiled alike by the same renderer. -/
theorem compileWith_withReuse (workshop : Workshop) (reuse : Bool)
    (renderer : ComponentRenderer TagStack) (source origin : Text) :
    (workshop.withReuse reuse).compileWith renderer source origin =
      workshop.compileWith renderer source origin := by
  show (do
    let text ← given (Layout.resolve workshop.files (workshop.config.withReuse reuse) source origin)
    let text ← workshop.expander.expand renderer text
    given (workshop.directives.compile workshop.config.maxDepth (Echo.compile text))) = _
  -- Only the layout looks at the settings of a file.
  rw [Layout.resolve_withReuse]
  rfl

/-- Components are rendered alike, however deep they nest. -/
theorem page_withReuse (workshop : Workshop) (reuse : Bool) (depth : Nat) :
    (workshop.withReuse reuse).page depth = workshop.page depth := by
  -- The components inside are rendered alike by induction, and so the template compiles alike.
  induction depth with
  | zero => rfl
  | succ depth ih =>
    funext tag blueprint data
    have renderers : ((workshop.withReuse reuse).answer fun tag blueprint data =>
        (workshop.withReuse reuse).page depth tag blueprint data) =
          workshop.answer fun tag blueprint data => workshop.page depth tag blueprint data := by
      rw [ih]
      rfl
    simp only [page, renderers, compileWith_withReuse]
    rfl

/-- Sources are compiled alike. -/
theorem compile_withReuse (workshop : Workshop) (reuse : Bool) (source origin : Text) :
    (workshop.withReuse reuse).compile source origin = workshop.compile source origin := by
  -- The renderer of components is the same, and so is everything that it is used in.
  have renderers : (workshop.withReuse reuse).answer
      ((workshop.withReuse reuse).page workshop.config.maxDepth) =
        workshop.answer (workshop.page workshop.config.maxDepth) := by
    rw [page_withReuse]
    rfl
  show ((workshop.withReuse reuse).compileWith ((workshop.withReuse reuse).answer
    ((workshop.withReuse reuse).page workshop.config.maxDepth)) source origin []).1 = _
  rw [renderers, compileWith_withReuse]
  rfl

end Workshop

namespace Engine

variable {σ : Type}

/-- An engine that never uses an artifact again. -/
def uncached (engine : Engine σ) : Engine σ :=
  { engine with config := engine.config.withReuse false }

/-- An engine compiles a source alike, whether it uses artifacts again or not. -/
theorem compileText_uncached (engine : Engine σ) (source : TemplateSource) :
    engine.uncached.compileText source = engine.compileText source := by
  -- A source is loaded alike, and the workshop compiles it alike.
  show (engine.uncached.load source >>= fun text =>
    (engine.workshop.withReuse false).compile text (source.identity engine.config)) = _
  simp only [Workshop.compile_withReuse]
  cases source <;> rfl

end Engine

end Templates
