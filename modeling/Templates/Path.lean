import Templates.Text.Basic

/-! Paths are texts, in which a slash separates the names of directories. -/

namespace Templates

/-- A path as it is written. -/
abbrev Path := Text

namespace Path

/-- A path from the root of all directories. -/
def isAbsolute (path : Path) : Bool :=
  path.head? = some '/'

/-- A path below a directory; an absolute path stands for itself. -/
def join (directory path : Path) : Path :=
  if isAbsolute path then path
  else if directory.isEmpty || directory.getLast? = some '/' then directory ++ path
  else directory ++ '/' :: path

/-- The texts between the slashes of a path, the first one given in reverse. -/
def split : Text → Path → List Text
  | name, [] => [name.reverse]
  | name, c :: rest => if c = '/' then name.reverse :: split [] rest else split (c :: name) rest

/-- The names along a path. A dot stands for nothing, but at the beginning it counts as a name. -/
def names (path : Path) : List Text :=
  match split [] path with
  | [] => []
  | first :: rest =>
    (if first.isEmpty then [] else [first]) ++ rest.filter fun name => !name.isEmpty && name ≠ ['.']

/-- A path that is read from its end, without the slashes and dots that it ends in. -/
def withoutEnd : Path → Path
  | '/' :: rest => withoutEnd rest
  | '.' :: '/' :: rest => withoutEnd rest
  | path => path

/-- The directory that holds the entry a path names. Slashes and dots at the end of a path name
nothing, so they go before its last name does. -/
def parent (path : Path) : Path :=
  let above := (withoutEnd ((withoutEnd path.reverse).dropWhile (· ≠ '/'))).reverse
  if above.isEmpty && isAbsolute path then ['/'] else above

/-- Whether the last name of a path is a dot, whatever slashes follow it. -/
def endsInDot (path : Path) : Bool :=
  match path.reverse.dropWhile (· = '/') with
  | ['.'] => true
  | '.' :: '/' :: _ => true
  | _ => false

/-- What two paths have in common if they name the same file. -/
def key (path : Path) : Bool × List Text :=
  (isAbsolute path, names path)

/-- Whether two paths name the same file. -/
def same (left right : Path) : Bool :=
  key left = key right

end Path

end Templates
