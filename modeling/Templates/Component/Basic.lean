import Templates.Text.Quoted
import Templates.Value.Basic

/-! Components: templates that custom tags stand for. -/

namespace Templates

/-- A property that a component declares. A hidden one reaches the template but not the markup. -/
structure Property where
  name : Text
  default : Value
  hidden : Bool
deriving Repr

/-- Where the template of a component is: in the file of a view, or in memory. -/
inductive ComponentTemplate where
  | view (name : Text)
  | inline (markup : Text)
deriving DecidableEq, Repr

/-- A component that computes some of its data from its properties. -/
structure Factory where
  template : ComponentTemplate
  properties : List Property
  data : Data → Data

/-- What a component is. -/
inductive Definition where
  | template (template : ComponentTemplate)
  | factory (factory : Factory)

/-- A component with all its properties, those its factory declares first. -/
structure Component where
  definition : Definition
  properties : List Property

namespace Definition

/-- The wording of a definition's description. -/
def describe : Definition → Text
  | .template (.view name) => "View(".toList ++ Text.quote name ++ [')']
  | .template (.inline markup) => "Inline(".toList ++ Text.quote markup ++ [')']
  | .factory _ => "Factory(..)"

end Definition

namespace Component

/-- A component with properties declared for it; those of its factory come first and stand in for
declared ones of the same name. -/
def declare (definition : Definition) (properties : List Property) : Component :=
  match definition with
  | .template _ => ⟨definition, properties⟩
  | .factory f =>
    ⟨definition, f.properties ++ properties.filter fun p => !f.properties.any (·.name = p.name)⟩

/-- The properties with their defaults. -/
def defaults (component : Component) : Data :=
  Fields.ofList (component.properties.map fun p => (p.name, p.default))

/-- The names of the hidden properties. -/
def hidden (component : Component) : List Text :=
  (component.properties.filter (·.hidden)).map (·.name)

/-- The template. -/
def template (component : Component) : ComponentTemplate :=
  match component.definition with
  | .template template => template
  | .factory f => f.template

end Component

end Templates
