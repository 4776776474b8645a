import Templates.Proofs.Engine.Balance
import Templates.Proofs.Engine.Reuse

/-!
When the fallback stands in for a view.

It does so for a view whose file is missing. But the error that tells this is also what a component
complains with when the file of its template is missing, and then the fallback stands in for a view
that is there.
-/

namespace Templates

namespace Workshop

variable {workshop : Workshop} {source origin : Text} {file : Path}

/-- A view that a compilation misses is the template of a component, and its file is missing. -/
theorem isTemplate_of_compile
    (failed : workshop.compile source origin = .error (.viewMissing file)) :
    workshop.IsTemplate file ∧ workshop.files.read file = .error .missing := by
  have complaint := complaint_of_compile failed
  generalize told : Error.viewMissing file = e at complaint
  cases complaint with
  | loop inside above => cases told
  | template isTemplate missing =>
    cases told
    exact ⟨isTemplate, missing⟩
  | own own =>
    subst told
    exact own.elim

end Workshop

namespace Engine

variable {σ : Type} {engine : Engine σ} {view : Text} {path : Path} {e : Error}

/-- The file of a view as it is read. -/
def readsView (engine : Engine σ) (view : Text) : Except ReadError Text :=
  engine.workshop.files.read (engine.config.viewPath view)

/-- The artifact of a view that has been read. -/
def compileView (engine : Engine σ) (view text : Text) : Except Error Text :=
  engine.workshop.compile text ((TemplateSource.view view).identity engine.config)

/-- No artifact of a view can be reused, and its file is missing, or that of the template of a
component which is used in compiling it. -/
def Misses (engine : Engine σ) (view : Text) : Prop :=
  engine.shelf.reusable? engine.config.useCached (engine.keyOf (.view view)) engine.state = none ∧
    (engine.readsView view = .error .missing ∨
      ∃ text file, engine.readsView view = .ok text ∧
        engine.compileView view text = .error (.viewMissing file))

/-- A view is read and then compiled. -/
theorem compileText_view (engine : Engine σ) (view : Text) :
    engine.compileText (.view view) =
      match engine.readsView view with
      | .ok text => engine.compileView view text
      | .error .missing => .error (.viewMissing view)
      | .error .storage => .error .storage := by
  unfold compileText load Files.readView
  show (match engine.readsView view with
    | .ok content => .ok content
    | .error .missing => .error (.viewMissing view)
    | .error .storage => .error .storage : Except Error Text) >>= _ = _
  split <;> rfl

/-- A view is missed when its artifact is needed and some view is missing for it. -/
theorem misses_iff :
    engine.Misses view ↔
      engine.shelf.reusable? engine.config.useCached (engine.keyOf (.view view)) engine.state =
        none ∧ ∃ file, engine.compileText (.view view) = .error (.viewMissing file) := by
  rw [Misses, compileText_view]
  refine and_congr_right fun _ => ?_
  constructor
  · rintro (missing | ⟨text, file, read, failed⟩)
    · exact ⟨view, by rw [missing]⟩
    · exact ⟨file, by rw [read]; exact failed⟩
  · rintro ⟨file, failed⟩
    split at failed
    · rename_i text read
      exact .inr ⟨text, file, read, failed⟩
    · rename_i missing
      exact .inl missing
    · cases failed

/-- A compilation fails because no view is missing if the view is not missed. -/
theorem isViewMissing_of_compile {after : Engine σ} (found : ¬engine.Misses view)
    (failed : engine.compile (.view view) = (.error e, after)) : e.isViewMissing = false := by
  unfold compile save at failed
  dsimp only at failed
  split at failed
  · cases failed
  · rename_i fresh
    split at failed
    · rename_i e' text
      cases failed
      cases e with
      | viewMissing file => exact absurd (misses_iff.mpr ⟨fresh, file, text⟩) found
      | _ => rfl
    · -- What has been compiled can only not be saved.
      split at failed
      · cases failed
      · rename_i unsaved
        split at unsaved
        · cases unsaved
        · cases unsaved
          cases failed
          rfl

/-- The fallback is rendered for a view that is missed. -/
theorem make_of_misses (fallback : engine.fallback = some path)
    (off : engine.config.throwNotFound = false) (misses : engine.Misses view) (data : Data) :
    engine.make view data = engine.renderSource (.file path) data := by
  obtain ⟨fresh, file, failed⟩ := misses_iff.mp misses
  unfold make
  rw [compile_failed fresh failed]
  dsimp only
  rw [fallback, off]
  rfl

/-- Without a view that is missed nothing stands in for it. -/
theorem make_of_not_misses (found : ¬engine.Misses view) (data : Data) :
    engine.make view data = engine.renderSource (.view view) data := by
  unfold make renderSource
  rcases compiled : engine.compile (.view view) with ⟨e | key, after⟩
  · have other := isViewMissing_of_compile found compiled
    dsimp only
    rw [other]
    cases after.fallback <;> rfl
  · rfl

/-- With a fallback that may be used, it is rendered for a view that is missed, and for every other
view its own page, or the error that stands in the way of it. A view is missed when its file is
missing, but also when it is there and the file of the template of a component is not. All other
errors in compiling a view that is there are told, and leave the engine as it is. If no template is
missing then a view is missed exactly when no artifact of it can be reused and its file is
missing. -/
theorem make_stands_in (engine : Engine σ) (fallback : engine.fallback = some path)
    (off : engine.config.throwNotFound = false) (view : Text) (data : Data) :
    (engine.Misses view → engine.make view data = engine.renderSource (.file path) data) ∧
    (¬engine.Misses view → engine.make view data = engine.renderSource (.view view) data) ∧
    (∀ text file, engine.compileView view text = .error (.viewMissing file) →
      engine.workshop.IsTemplate file ∧ engine.workshop.files.read file = .error .missing) ∧
    (∀ text e,
      engine.shelf.reusable? engine.config.useCached (engine.keyOf (.view view)) engine.state =
        none →
      engine.readsView view = .ok text → engine.compileView view text = .error e →
      (∀ file, e ≠ .viewMissing file) → engine.make view data = (.error e, engine)) ∧
    ((∀ file, engine.workshop.IsTemplate file →
        engine.workshop.files.read file ≠ .error .missing) →
      (engine.Misses view ↔
        engine.shelf.reusable? engine.config.useCached (engine.keyOf (.view view)) engine.state =
          none ∧ engine.readsView view = .error .missing)) := by
  refine ⟨fun misses => make_of_misses fallback off misses data,
    fun found => make_of_not_misses found data, fun _ _ => Workshop.isTemplate_of_compile, ?_, ?_⟩
  · intro text e fresh read failed other
    have artifact : engine.compileText (.view view) = .error e := by
      rw [compileText_view, read]
      exact failed
    have found : ¬engine.Misses view := by
      intro misses
      obtain ⟨-, file, missing⟩ := misses_iff.mp misses
      exact other file (Except.error.inj (artifact.symm.trans missing))
    rw [make_of_not_misses found, renderSource, compile_failed fresh artifact]
  · intro complete
    refine and_congr_right fun _ => ?_
    constructor
    · rintro (missing | ⟨text, file, -, failed⟩)
      · exact missing
      · -- The template of a component would be missing.
        obtain ⟨isTemplate, missing⟩ := Workshop.isTemplate_of_compile failed
        exact absurd missing (complete file isTemplate)
    · exact .inl

/-- An engine with a page and a fallback, and a component whose template has no file. -/
def brokenCard : Engine (Fields Text) where
  config := { throwNotFound := false, fallbackView := some "404".toList }
  directives := Directive.builtins
  components := ⟨[("card".toList, ⟨.template (.view "card".toList), []⟩)], none⟩
  expander := ⟨"app".toList, 32⟩
  fallback := some "views/404.html".toList
  files _ := Memory.files [("views/404.html".toList, "gone".toList),
    ("views/page.html".toList, "<app-card></app-card>".toList)]
  shelf := Shelf.inMemory
  state := []
  writes := 0

/-- The page is there and uses the component, which is told when the page is compiled; but the
fallback is rendered in its place. -/
theorem make_hides_broken_component :
    brokenCard.fallback = some "views/404.html".toList ∧
      brokenCard.config.throwNotFound = false ∧
      brokenCard.readsView "page".toList = .ok "<app-card></app-card>".toList ∧
      (brokenCard.compile (.view "page".toList)).1 =
        .error (.viewMissing "views/components/card.html".toList) ∧
      (brokenCard.make "page".toList []).1 = .ok "gone".toList :=
  ⟨rfl, rfl, by decide +kernel, by decide +kernel, by decide +kernel⟩

/-- The fallback stands in for a page without a file, but not for a page that can be compiled. -/
theorem make_stands_in_brokenCard :
    brokenCard.make "none".toList [] =
        brokenCard.renderSource (.file "views/404.html".toList) [] ∧
      brokenCard.make "404".toList [] = brokenCard.renderSource (.view "404".toList) [] := by
  have absent : brokenCard.readsView "none".toList = .error .missing := by decide +kernel
  obtain ⟨fallsBack, -⟩ := brokenCard.make_stands_in rfl rfl "none".toList []
  obtain ⟨-, stays, -⟩ := brokenCard.make_stands_in rfl rfl "404".toList []
  refine ⟨fallsBack ⟨rfl, .inl absent⟩, stays ?_⟩
  rintro ⟨-, missing | ⟨text, file, read, failed⟩⟩
  · have there : brokenCard.readsView "404".toList = .ok "gone".toList := by decide +kernel
    cases there.symm.trans missing
  · have there : brokenCard.readsView "404".toList = .ok "gone".toList := by decide +kernel
    cases there.symm.trans read
    have compiled : brokenCard.compileView "404".toList "gone".toList = .ok "gone".toList := by
      decide +kernel
    cases compiled.symm.trans failed

end Engine

end Templates
