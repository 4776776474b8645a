import Templates.Component.Basic
import Templates.Files
import Templates.Text.Blank
import Templates.Text.Distance
import Templates.Text.Words

/-! Components are found by their tags, or else by the names of template files. -/

namespace Templates

/-- Components by their tags, and the directory where others are looked up. -/
structure Components where
  registered : Fields Component
  directory : Option Path

/-- What a tag stands for. -/
inductive Resolved where
  | registered (component : Component)
  | file (path : Path)

/-- The nearer of two candidates, which come with their distances; of equally near ones the first in
the order of texts. -/
def nearer (left right : Nat × Text) : Nat × Text :=
  if right.1 < left.1 ∨ right.1 = left.1 ∧ Text.before right.2 left.2 then right else left

/-- The candidate nearest to a text, among those no more than three edits away. -/
def closestMatch? (target : Text) (candidates : List Text) : Option Text :=
  match (candidates.map fun c => (Text.distance target c, c)).filter (·.1 ≤ 3) with
  | [] => none
  | first :: rest => some (rest.foldl nearer first).2

namespace Components

/-- No components. -/
def empty : Components :=
  ⟨[], none⟩

/-- A component of a new tag, which may not be blank. -/
def register (tag : Text) (component : Component) (components : Components) :
    Except Error Components :=
  let tag := Text.trim tag
  if tag.isEmpty then .error (.blankArgument .componentTag)
  else if (components.registered.get? tag).isSome then .error (.componentTaken tag)
  else .ok { components with registered := components.registered.insert tag component }

/-- The component of a tag; a tag in letters of other case will do if there is no exact one. -/
def get? (tag : Text) (components : Components) : Option Component :=
  match components.registered.get? tag with
  | some component => some component
  | none =>
    (components.registered.find? fun (other, _) => Text.sameName other tag).map Prod.snd

/-- The tags in order. -/
def tags (components : Components) : List Text :=
  components.registered.names

/-- The file of a tag in the directory of components: the name in capitals comes first. -/
def lookUp? (files : Files) (tag extension : Text) (components : Components) : Option Path :=
  match components.directory with
  | none => none
  | some directory =>
    ([Text.pascalCase tag, Text.kebabCase tag].map fun name =>
      Path.join directory (name ++ '.' :: extension)).find? files.isFile

/-- The complaint about a tag that stands for nothing. -/
def missing (tag : Text) (components : Components) : Error :=
  .componentMissing tag <|
    (match closestMatch? tag components.tags with
      | some candidate => [.similar candidate]
      | none => []) ++
    (match components.directory with
      | some directory => [.lookedUpIn directory]
      | none => [])

/-- What a tag stands for. -/
def resolve (files : Files) (tag extension : Text) (components : Components) :
    Except Error Resolved :=
  match components.get? tag, components.lookUp? files tag extension with
  | some component, _ => .ok (.registered component)
  | none, some path => .ok (.file path)
  | none, none => .error (components.missing tag)

end Components

end Templates
