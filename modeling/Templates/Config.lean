import Templates.Error
import Templates.Path
import Templates.Text.Blank

/-! The settings of an engine. -/

namespace Templates

/-- Where templates and artifacts are, what component tags look like, and how deep they may nest. -/
structure Config where
  viewsPath : Path := "views"
  cachePath : Path := "cache"
  useCached : Bool := false
  throwNotFound : Bool := true
  componentPrefix : Text := "app"
  componentsDir : Path := "components"
  autoloadComponents : Option Path := none
  fallbackView : Option Text := none
  extension : Text := "html"
  maxDepth : Nat := 32
  maxLoopIterations : Nat := 10000
deriving DecidableEq, Repr

namespace Config

/-- Settings an engine can work with. -/
def validate (config : Config) : Except Error Unit :=
  if Text.isAllBlank config.componentPrefix then .error (.config .blankPrefix)
  else if config.maxDepth = 0 then .error (.config .zeroDepth)
  else .ok ()

/-- Settings whose relative paths start from a directory. -/
def relativeTo (directory : Path) (config : Config) : Config :=
  { config with
    viewsPath := Path.join directory config.viewsPath
    cachePath := Path.join directory config.cachePath
    autoloadComponents := config.autoloadComponents.map (Path.join directory) }

/-- The directory of the artifacts. -/
def cacheDir (config : Config) : Path :=
  Path.join config.cachePath "views"

/-- The directory of the component templates. -/
def componentsPath (config : Config) : Path :=
  Path.join config.viewsPath config.componentsDir

/-- A name that ends in the extension of templates. -/
def withExtension (config : Config) (name : Text) : Text :=
  let ending := '.' :: config.extension
  if ending.reverse.isPrefixOf name.reverse then name else name ++ ending

/-- A path without slashes in front. -/
def unrooted (name : Text) : Text :=
  name.dropWhile (· = '/')

/-- The template file of a view, whose name may hold spaces that do not count. -/
def viewPath (config : Config) (view : Text) : Path :=
  Path.join config.viewsPath (config.withExtension (unrooted (view.filter (· ≠ ' '))))

/-- The template file of a component view. -/
def componentViewPath (config : Config) (view : Text) : Path :=
  Path.join config.componentsPath (config.withExtension (unrooted view))

end Config

end Templates
