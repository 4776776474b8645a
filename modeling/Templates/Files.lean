import Templates.Error
import Templates.Path

/-! Where templates are read from. -/

namespace Templates

/-- Reasons why a file cannot be read: it is not there, or something else is wrong with it. -/
inductive ReadError where
  | missing
  | storage
deriving DecidableEq, Repr

/-- A view of stored files. -/
structure Files where
  isFile : Path → Bool
  read : Path → Except ReadError Text

/-- Files in memory; of two for the same path the first one counts. -/
abbrev Memory := List (Path × Text)

namespace Memory

/-- The content of a file. -/
def get? (path : Path) : Memory → Option Text
  | [] => none
  | (other, content) :: rest => if Path.same other path then some content else get? path rest

/-- A file is added or replaced. -/
def put (path : Path) (content : Text) (memory : Memory) : Memory :=
  (path, content) :: memory

/-- Files in memory as templates are read from them. -/
def files (memory : Memory) : Files where
  isFile path := (memory.get? path).isSome
  read path :=
    match memory.get? path with
    | some content => .ok content
    | none => .error .missing

end Memory

namespace Files

/-- The template of a view, whose name an error tells. -/
def readView (files : Files) (path : Path) (view : Text) : Except Error Text :=
  match files.read path with
  | .ok content => .ok content
  | .error .missing => .error (.viewMissing view)
  | .error .storage => .error .storage

end Files

end Templates
