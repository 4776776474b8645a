import Templates.Fields
import Templates.Files

/-! Directories and files as a tree, and paths that are followed in it step by step. -/

namespace Templates

/-- A file, which may hold something other than text, or a directory. -/
inductive Entry where
  | file (content : Option Text)
  | directory (entries : List (Text × Entry))
deriving Repr, Inhabited

namespace Entry

/-- The entry at the end of a list of names. -/
def get? : List Text → Entry → Option Entry
  | [], entry => some entry
  | name :: rest, .directory entries => (Fields.get? name entries).bind (get? rest)
  | _ :: _, .file _ => none

/-- The tree with a new entry at the end of a list of names, and directories on the way to it. -/
def put : Entry → List Text → Entry → Entry
  | _, [], new => new
  | .directory entries, name :: rest, new =>
    .directory (Fields.insert name
      (put ((Fields.get? name entries).getD (.directory [])) rest new) entries)
  | .file content, _ :: _, _ => .file content
termination_by structural _ names => names

/-- Whether an entry is a file. -/
def isFile : Entry → Bool
  | .file _ => true
  | .directory _ => false

end Entry

/-- All entries, and the names of the directory in which relative paths start. -/
structure Disk where
  root : Entry
  here : List Text
deriving Repr

namespace Disk

/-- A disk with an empty working directory. -/
def empty : Disk :=
  ⟨.directory [("work".toList, .directory [])], ["work".toList]⟩

/-- The longest name of a file and the longest path, in bytes. -/
def maxName : Nat := 255

/-- The bytes of the longest path and the one that ends it. -/
def maxPath : Nat := 4096

/-- Names are followed from a directory, which is given by its own names in reverse. All but the
last entry on the way must be directories, and that one as well if a slash follows it. -/
def follow (root : Entry) : List Text → List Text → Except ReadError (List Text)
  | place, [] => .ok place
  | place, name :: rest =>
    match root.get? place.reverse with
    | none => .error .missing
    | some (.file _) => .error .storage
    | some (.directory _) =>
      if name = [] ∨ name = ['.'] then follow root place rest
      else if name = ['.', '.'] then follow root place.tail rest
      else if maxName < Text.bytes name then .error .storage
      else follow root (name :: place) rest

/-- The names of the entry that a path leads to, in reverse. -/
def locate (path : Path) (disk : Disk) : Except ReadError (List Text) :=
  if path.isEmpty then .error .missing
  else if '\x00' ∈ path ∨ maxPath ≤ Text.bytes path then .error .storage
  else
    let start := if Path.isAbsolute path then [] else disk.here.reverse
    follow disk.root start (Path.split [] path)

/-- The entry that a path leads to. -/
def find (path : Path) (disk : Disk) : Except ReadError Entry :=
  match disk.locate path with
  | .error e => .error e
  | .ok place =>
    match disk.root.get? place.reverse with
    | some entry => .ok entry
    | none => .error .missing

/-- The text of a file. -/
def read (path : Path) (disk : Disk) : Except ReadError Text :=
  match disk.find path with
  | .ok (.file (some content)) => .ok content
  | .ok _ => .error .storage
  | .error e => .error e

/-- Whether a path leads to a file. -/
def isFile (path : Path) (disk : Disk) : Bool :=
  match disk.find path with
  | .ok entry => entry.isFile
  | .error _ => false

/-- The files of a disk as templates are read from them. -/
def files (disk : Disk) : Files where
  isFile path := disk.isFile path
  read path := disk.read path

/-- A file is written into an existing directory; the result tells whether that was possible. -/
def writeEntry (path : Path) (content : Option Text) (disk : Disk) : Bool × Disk :=
  match disk.locate path with
  | .error _ => (false, disk)
  | .ok place =>
    match disk.root.get? place.reverse with
    | some (.directory _) => (false, disk)
    | _ => (true, { disk with root := disk.root.put place.reverse (.file content) })

/-- A text is written to a file in an existing directory. -/
def write (path : Path) (content : Text) (disk : Disk) : Bool × Disk :=
  disk.writeEntry path (some content)

/-- Names are followed, and directories are made where there is nothing. -/
def makeAlong : List Text → List Text → Disk → Bool × Disk
  | _, [], disk => (true, disk)
  | place, name :: rest, disk =>
    if name = [] ∨ name = ['.'] then makeAlong place rest disk
    else if name = ['.', '.'] then makeAlong place.tail rest disk
    else if maxName < Text.bytes name then (false, disk)
    else
      let place := name :: place
      match disk.root.get? place.reverse with
      | some (.file _) => (false, disk)
      | some (.directory _) => makeAlong place rest disk
      | none =>
        makeAlong place rest { disk with root := disk.root.put place.reverse (.directory []) }

/-- Whether a path leads to a directory. -/
def isDirectory (path : Path) (disk : Disk) : Bool :=
  match disk.find path with
  | .ok entry => !entry.isFile
  | .error _ => false

/-- A directory is made with all directories on the way to it; the result tells whether that was
possible. A dot at the end of a path asks for a directory that is there already, so that only the
directories in front of it are made. -/
def makeDirectory (path : Path) (disk : Disk) : Bool × Disk :=
  let start := if Path.isAbsolute path then [] else disk.here.reverse
  if path.isEmpty then (true, disk)
  else if '\x00' ∈ path ∨ maxPath ≤ Text.bytes path then (false, disk)
  else if Path.endsInDot path then
    let (made, disk) := makeAlong start (Path.split [] (Path.parent path)) disk
    (made && disk.isDirectory path, disk)
  else makeAlong start (Path.split [] path) disk

/-- A file is written after the directories in which it lies have been made. -/
def addEntry (path : Path) (content : Option Text) (disk : Disk) : Bool × Disk :=
  (disk.makeDirectory (Path.parent path)).2.writeEntry path content

/-- The names in a directory, in order. -/
def list (path : Path) (disk : Disk) : Except ReadError (List Text) :=
  match disk.find path with
  | .ok (.directory entries) => .ok (Fields.names entries)
  | .ok (.file _) => .error .storage
  | .error e => .error e

/-- The files in a directory are removed, and its directories stay. Where there is nothing nothing
has to be removed, but where there is a file nothing can be. -/
def clear (path : Path) (disk : Disk) : Bool × Disk :=
  match disk.locate path with
  | .error .missing => (true, disk)
  | .error .storage => (false, disk)
  | .ok place =>
    match disk.root.get? place.reverse with
    | none => (true, disk)
    | some (.file _) => (false, disk)
    | some (.directory entries) =>
      let kept := entries.filter fun (_, entry) => !entry.isFile
      (true, { disk with root := disk.root.put place.reverse (.directory kept) })

end Disk

end Templates
