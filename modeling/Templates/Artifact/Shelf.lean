import Templates.Artifact.Key
import Templates.Disk

/-! Artifacts are kept on a shelf, from which they can be taken again or all be removed. -/

namespace Templates

/-- A place for artifacts inside a larger state. Saving and clearing tell whether they were
possible. -/
structure Shelf (σ : Type) where
  load : ArtifactKey → σ → Except ReadError Text
  save : ArtifactKey → Text → σ → Bool × σ
  clear : σ → Bool × σ

namespace Shelf

/-- A shelf in memory, where everything is possible. -/
def inMemory : Shelf (Fields Text) where
  load key kept :=
    match kept.get? key with
    | some text => .ok text
    | none => .error .missing
  save key text kept := (true, kept.insert key text)
  clear _ := (true, [])

/-- The path of an artifact in a directory. -/
def pathOf (directory : Path) (key : ArtifactKey) : Path :=
  Path.join directory (ArtifactKey.fileName key)

/-- A directory of a disk as a shelf. It is made when something is saved. -/
def onDisk (directory : Path) : Shelf Disk where
  load key disk := disk.read (pathOf directory key)
  save key text disk :=
    match disk.makeDirectory directory with
    | (false, disk) => (false, disk)
    | (true, disk) => disk.write (pathOf directory key) text
  clear disk := disk.clear directory

variable {σ : Type}

/-- An artifact that must be there. -/
def fetch (shelf : Shelf σ) (key : ArtifactKey) (state : σ) : Except Error Text :=
  match shelf.load key state with
  | .ok text => .ok text
  | .error .missing => .error (.artifactMissing key)
  | .error .storage => .error .storage

/-- An artifact that may be used again, when such use is allowed. -/
def reusable? (shelf : Shelf σ) (useCached : Bool) (key : ArtifactKey) (state : σ) : Option Text :=
  if useCached then (shelf.load key state).toOption else none

end Shelf

end Templates
