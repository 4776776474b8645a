import Templates.Error
import Templates.Fields

/-! Directives give markers their meaning. -/

namespace Templates

/-- The shape of the markers that a directive is for: `@name(e) ... @endname`, `@name(e)` or
`@name`. -/
inductive DirectiveKind where
  | block
  | single
  | bare
deriving DecidableEq, Repr

/-- A handler writes the replacement of a marker from its expression and its body, or says what is
wrong with them. -/
abbrev Handler := Option Text → Option Text → Except Text Text

/-- A directive. -/
structure Directive where
  name : Text
  kind : DirectiveKind
  handler : Handler

/-- Directives by their names. -/
abbrev Directives := Fields Directive

namespace Directive

/-- The replacement of a marker, where a complaint of the handler names the directive. -/
def apply (directive : Directive) (expression body : Option Text) : Except Error Text :=
  (directive.handler expression body).mapError (.directiveFailed directive.name)

/-- The wording of a directive's description. -/
def describe (directive : Directive) : Text :=
  let kind : String := match directive.kind with
    | .block => "Block"
    | .single => "SingleLine"
    | .bare => "Terminating"
  "Directive \x7b name: ".toList ++ Text.quote directive.name ++ ", kind: ".toList ++ kind.toList ++
    ", .. \x7d".toList

end Directive

namespace Directives

/-- A directive of a new name, which may not be blank. -/
def register (directive : Directive) (directives : Directives) : Except Error Directives :=
  if Text.isAllBlank directive.name then .error (.blankArgument .directiveName)
  else if (directives.get? directive.name).isSome then .error (.directiveTaken directive.name)
  else .ok (directives.insert directive.name directive)

/-- The directive of a name. -/
def find (name : Text) (directives : Directives) : Except Error Directive :=
  match directives.get? name with
  | some directive => .ok directive
  | none => .error (.directiveUnknown name)

/-- The directive of a name and a kind. -/
def ofKind? (name : Text) (kind : DirectiveKind) (directives : Directives) : Option Directive :=
  (directives.get? name).filter fun directive => directive.kind = kind

end Directives

end Templates
