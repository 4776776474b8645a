import Templates.Config
import Templates.Json.Tree

/-! Settings are read from JSON, as an object or as a list in a fixed order. -/

namespace Templates.Config

/-- The settings in the order in which a list gives them. -/
def fieldNames : List Text :=
  ["viewsPath".toList, "cachePath".toList, "useCached".toList, "throwNotFound".toList,
    "componentPrefix".toList, "componentsDir".toList, "autoloadComponents".toList,
    "fallbackView".toList, "extension".toList, "maxDepth".toList, "maxLoopIterations".toList]

/-- A setting takes a value of its own kind. -/
def set? (config : Config) (name : Text) (value : Value) : Option Config :=
  match String.ofList name, value with
  | "viewsPath", .text t => some { config with viewsPath := t }
  | "cachePath", .text t => some { config with cachePath := t }
  | "useCached", .bool b => some { config with useCached := b }
  | "throwNotFound", .bool b => some { config with throwNotFound := b }
  | "componentPrefix", .text t => some { config with componentPrefix := t }
  | "componentsDir", .text t => some { config with componentsDir := t }
  | "autoloadComponents", .text t => some { config with autoloadComponents := some t }
  | "autoloadComponents", .null => some { config with autoloadComponents := none }
  | "fallbackView", .text t => some { config with fallbackView := some t }
  | "fallbackView", .null => some { config with fallbackView := none }
  | "extension", .text t => some { config with extension := t }
  | "maxDepth", .number (.whole (.ofNat n)) => some { config with maxDepth := n }
  | "maxLoopIterations", .number (.whole (.ofNat n)) => some { config with maxLoopIterations := n }
  | _, _ => none

/-- The fields of an object, each setting at most once. Other fields do not count, whatever they
hold, as long as their names are texts. -/
def ofFields? : List Text → Config → List (Option Text × Json.Tree) → Option Config
  | _, config, [] => some config
  | _, _, (none, _) :: _ => none
  | seen, config, (some name, tree) :: rest =>
    if !fieldNames.contains name then ofFields? seen config rest
    else if seen.contains name then none
    else do
      let config ← config.set? name (← tree.value? 128)
      ofFields? (name :: seen) config rest

/-- The items of a list, as many settings as there are. -/
def ofItems? : List Text → Config → List Json.Tree → Option Config
  | _, config, [] => some config
  | [], _, _ :: _ => none
  | name :: names, config, tree :: rest => do
    let config ← config.set? name (← tree.value? 128)
    ofItems? names config rest

/-- The settings a JSON text holds. -/
def read? (text : Text) : Option Config :=
  match Json.Tree.read? text with
  | some (.object fields) => ofFields? [] {} fields
  | some (.array items) => ofItems? fieldNames {} items
  | _ => none

/-- The settings of a directory, given the text of its file of settings if there is one. -/
def load (directory : Path) (text : Option Text) : Except Error Config :=
  match text with
  | none => .ok (relativeTo directory {})
  | some text =>
    match read? text with
    | none => .error (.config .unreadable)
    | some config =>
      match config.validate with
      | .error e => .error e
      | .ok () => .ok (config.relativeTo directory)

end Templates.Config
