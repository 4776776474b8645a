import Templates.Component.Expand
import Templates.Component.Registry
import Templates.Config
import Templates.Directive.Compile
import Templates.Echo
import Templates.Layout.Block

/-!
Sources become artifacts: layouts are resolved, components expanded, and expressions and directives
rewritten to statement tags.

The template of a component is compiled and rendered in the same way, so a session keeps the tags of
the components it is inside of.
-/

namespace Templates

/-- All that the compilation of a source depends on. -/
structure Workshop where
  config : Config
  files : Files
  directives : Directives
  components : Components
  expander : Expander

/-- The template of a component, and what its render needs. -/
structure Blueprint where
  text : Text
  origin : Text
  defaults : Data
  hidden : List Text
  factory : Option Factory

/-- The tags of the components that a session is inside of, the innermost one first. -/
abbrev TagStack := List Text

namespace Blueprint

/-- A template without properties. -/
def plain (text origin : Text) : Blueprint :=
  ⟨text, origin, [], [], none⟩

/-- What a template is rendered with: defaults, what its tag gives, and what its factory adds. -/
def data (blueprint : Blueprint) (given : Data) : Data :=
  let all := blueprint.defaults.insertAll given
  match blueprint.factory with
  | none => all
  | some factory => all.insertAll (factory.data all)

end Blueprint

/-- The properties that the attributes of a tag give; a name with hyphens is also spelled in snake
case. -/
def Call.properties (call : Call) : Data :=
  call.attributes.foldl (fun data (name, value) =>
    let data := Fields.insert name (.text value) data
    if '-' ∈ name then Fields.insert (Text.snakeCase name) (.text value) data else data) []

namespace Workshop

/-- The template of a component that has been registered. -/
def registered (workshop : Workshop) (tag : Text) (component : Component) :
    Except Error Blueprint := do
  let factory := match component.definition with
    | .template _ => none
    | .factory f => some f
  match component.template with
  | .inline markup =>
    return ⟨markup, "component:".toList ++ tag, component.defaults, component.hidden, factory⟩
  | .view name =>
    let path := workshop.config.componentViewPath name
    let text ← workshop.files.readView path path
    return ⟨text, path, component.defaults, component.hidden, factory⟩

/-- The template in a file. -/
def inFile (workshop : Workshop) (path : Path) : Except Error Blueprint := do
  let text ← workshop.files.readView path path
  return .plain text path

/-- What a tag stands for. With `direct` the directory of component templates is searched last. -/
def resolve (workshop : Workshop) (direct : Bool) (tag : Text) : Except Error Resolved :=
  match workshop.components.resolve workshop.files tag workshop.config.extension with
  | .ok found => .ok found
  | .error e =>
    let path := workshop.config.componentViewPath tag
    if direct && workshop.files.isFile path then .ok (.file path) else .error e

/-- The template of a component. -/
def blueprint (workshop : Workshop) (direct : Bool) (tag : Text) : Except Error Blueprint :=
  match workshop.resolve direct tag with
  | .error e => .error e
  | .ok (.registered component) => workshop.registered tag component
  | .ok (.file path) => workshop.inFile path

/-- A session goes inside of a component and comes out again, whatever happens there. -/
def inside {α : Type} (tag : Text) (work : Session TagStack α) : Session TagStack α :=
  fun (stack : TagStack) =>
    let (result, after) := work.run (tag :: stack)
    (result, after.tail)

/-- A result that does not depend on the session. -/
def given {α : Type} (result : Except Error α) : Session TagStack α :=
  ExceptT.mk (pure result)

/-- The artifact of a source, given how the uses of components are answered. -/
def compileWith (workshop : Workshop) (renderer : ComponentRenderer TagStack)
    (source origin : Text) : Session TagStack Text := do
  let text ← given (Layout.resolve workshop.files workshop.config source origin)
  let text ← workshop.expander.expand renderer text
  given (workshop.directives.compile workshop.config.maxDepth (Echo.compile text))

/-- The use of a component is answered with its template as it renders. -/
def answer (workshop : Workshop) (page : Text → Blueprint → Data → Session TagStack Text) :
    ComponentRenderer TagStack := fun call => do
  let blueprint ← given (workshop.blueprint false call.tag)
  let html ← page call.tag blueprint call.properties
  return ⟨html, blueprint.hidden⟩

/-- The page of a component's template. A component may not be inside of itself, and the first
argument bounds how deep others may nest in it. -/
def page (workshop : Workshop) : Nat → Text → Blueprint → Data → Session TagStack Text
  | depth, tag, blueprint, data => do
    let stack ← get
    if stack.contains tag then throw (.componentLoop tag (tag :: stack).reverse)
    else if workshop.config.maxDepth ≤ stack.length then
      throw (.tooDeep .components workshop.config.maxDepth)
    else
      match depth with
      | 0 => throw (.tooDeep .components workshop.config.maxDepth)
      | depth + 1 =>
        let renderer := workshop.answer fun tag blueprint data =>
          page workshop depth tag blueprint data
        let artifact ←
          inside tag (workshop.compileWith renderer blueprint.text blueprint.origin)
        given <| (render workshop.config.maxLoopIterations artifact (blueprint.data data)).mapError
          .render

/-- The artifact of a source. -/
def compile (workshop : Workshop) (source origin : Text) : Except Error Text :=
  let renderer := workshop.answer (workshop.page workshop.config.maxDepth)
  ((workshop.compileWith renderer source origin).run []).1

/-- The page of a component by itself. -/
def component (workshop : Workshop) (tag : Text) (data : Data) : Except Error Text := do
  let blueprint ← workshop.blueprint true tag
  ((workshop.page workshop.config.maxDepth tag blueprint data).run []).1

end Workshop

end Templates
