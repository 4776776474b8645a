import Mathlib.Logic.Function.Basic
import Mathlib.Logic.Function.Iterate
import Templates.Artifact.Shelf
import Templates.Proofs.Artifact.Key
import Templates.Proofs.Disk.Walk

/-!
A directory of a disk keeps artifacts like a table.

An artifact that was saved is loaded under its key, whatever is saved under other keys, and a key
under which nothing could be saved keeps what it had.
-/

namespace Templates

namespace Shelf

/-- The names along a directory, without the empty one that a slash at its end leaves. -/
def along (directory : Path) : List Text :=
  if directory = [] then []
  else if directory.getLast? = some '/' then (Path.split [] directory).dropLast
  else Path.split [] directory

/-- The directory in which a path starts, its names in reverse. -/
def start (directory : Path) (disk : Disk) : List Text :=
  if Path.isAbsolute directory then [] else disk.here.reverse

/-- The directory of a shelf is there, and its names in reverse are these. -/
structure Room (directory : Path) (disk : Disk) (place : List Text) : Prop where
  led : Disk.follow disk.root (start directory disk) (along directory) = .ok place
  held : Entry.IsDirectory (disk.root.get? place.reverse)

/-- An artifact has a path that a disk accepts. -/
structure Fits (directory : Path) (key : ArtifactKey) : Prop where
  noEnd : '\x00' ∉ directory
  path : Text.bytes (pathOf directory key) < Disk.maxPath
  name : Text.bytes (ArtifactKey.fileName key) ≤ Disk.maxName

/-- A directory lies in one place. -/
theorem Room.unique {directory : Path} {disk : Disk} {place other : List Text}
    (room : Room directory disk place) (again : Room directory disk other) : other = place := by
  have same := again.led
  rw [room.led] at same
  cases same
  rfl

/-- The file of an artifact is relative to its directory. -/
theorem isAbsolute_fileName {key : ArtifactKey} (plain : key.IsPlain) :
    Path.isAbsolute (ArtifactKey.fileName key) = false := by
  -- The first character is no slash, since none is.
  have noSlash := plain.fileName.noSlash
  cases named : ArtifactKey.fileName key with
  | nil => rfl
  | cons c rest =>
    rw [named] at noSlash
    have other := List.ne_of_not_mem_cons noSlash
    simpa [Path.isAbsolute] using Ne.symm other

/-- The path of an artifact begins with the directory. -/
theorem pathOf_eq (directory : Path) {key : ArtifactKey} (plain : key.IsPlain) :
    pathOf directory key =
      if directory = [] ∨ directory.getLast? = some '/' then
        directory ++ ArtifactKey.fileName key
      else directory ++ '/' :: ArtifactKey.fileName key := by
  -- A slash is put between the two unless one is there or there is nothing to separate.
  unfold pathOf Path.join
  rw [if_neg (by simp [isAbsolute_fileName plain])]
  by_cases nothing : directory = []
  · simp [nothing]
  by_cases slash : directory.getLast? = some '/'
  · simp [slash]
  · simp [nothing, slash]

/-- The names along the path of an artifact are those along the directory and its own. -/
theorem split_pathOf (directory : Path) {key : ArtifactKey} (plain : key.IsPlain) :
    Path.split [] (pathOf directory key) =
      along directory ++ [ArtifactKey.fileName key] := by
  -- The slash in front of the name is that of the directory, or the one that was put between.
  have single := Path.split_eq_singleton plain.fileName.noSlash []
  rw [pathOf_eq directory plain]
  unfold along
  by_cases nothing : directory = []
  · simpa [nothing] using single
  by_cases slash : directory.getLast? = some '/'
  · obtain ⟨front, rfl⟩ := List.getLast?_eq_some_iff.mp slash
    have cut := Path.split_append_slash [] front []
    have joined := Path.split_append_slash [] front (ArtifactKey.fileName key)
    rw [if_pos (.inr slash), if_neg nothing, if_pos slash, cut, List.append_assoc]
    rw [show ['/'] ++ ArtifactKey.fileName key = '/' :: ArtifactKey.fileName key from rfl]
    rw [joined, single]
    simp [Path.split]
  · rw [if_neg (by simp [nothing, slash]), if_neg nothing, if_neg slash,
      Path.split_append_slash, single]
    rfl

/-- The path of an artifact starts where the directory does. -/
theorem isAbsolute_pathOf (directory : Path) {key : ArtifactKey} (plain : key.IsPlain) :
    Path.isAbsolute (pathOf directory key) = Path.isAbsolute directory := by
  -- The first character is that of the directory if there is one.
  rw [pathOf_eq directory plain]
  cases directory with
  | nil => exact isAbsolute_fileName plain
  | cons c directory => split <;> rfl

/-- The characters of an artifact's path are no end of a text if none of the directory is. -/
theorem noEnd_pathOf (directory : Path) {key : ArtifactKey} (plain : key.IsPlain) :
    '\x00' ∈ pathOf directory key ↔ '\x00' ∈ directory := by
  have noEnd := plain.fileName.noEnd
  rw [pathOf_eq directory plain]
  split <;> simp [noEnd]

/-- An artifact's path is as long as that of the directory at least. -/
theorem bytes_le_bytes_pathOf (directory : Path) {key : ArtifactKey} (plain : key.IsPlain) :
    Text.bytes directory ≤ Text.bytes (pathOf directory key) := by
  rw [pathOf_eq directory plain]
  split <;> simp

/-- The name of an artifact's file leads from the directory to an entry of that name. -/
theorem advance_fileName {place next : List Text} {key : ArtifactKey} :
    Disk.advance place (ArtifactKey.fileName key) = some next ↔
      Text.bytes (ArtifactKey.fileName key) ≤ Disk.maxName ∧
        next = ArtifactKey.fileName key :: place := by
  -- A name of more than three characters is neither empty nor made of dots.
  have length := ArtifactKey.three_lt_length_fileName key
  have different {name : Text} (short : name.length ≤ 2) : ArtifactKey.fileName key ≠ name := by
    rintro rfl
    omega
  unfold Disk.advance
  rw [if_neg, if_neg (different (by decide))]
  · by_cases long : Disk.maxName < Text.bytes (ArtifactKey.fileName key)
    · rw [if_pos long]
      constructor
      · rintro ⟨⟩
      · rintro ⟨short, _⟩
        omega
    · rw [if_neg long, Option.some.injEq]
      constructor
      · rintro rfl
        exact ⟨by omega, rfl⟩
      · rintro ⟨_, rfl⟩
        rfl
  · rintro (same | same)
    · exact different (by decide) same
    · exact different (by decide) same

/-- The path of an artifact leads to its name in the directory. -/
theorem locate_pathOf {directory : Path} {disk : Disk} {key : ArtifactKey} (plain : key.IsPlain)
    {place : List Text} :
    disk.locate (pathOf directory key) = .ok place ↔
      Fits directory key ∧
        ∃ above, Room directory disk above ∧ place = ArtifactKey.fileName key :: above := by
  have filled : (pathOf directory key).isEmpty = false := by
    have length := ArtifactKey.three_lt_length_fileName key
    rw [List.isEmpty_eq_false_iff, ← List.length_pos_iff, pathOf_eq directory plain]
    split <;> simp only [List.length_append, List.length_cons] <;> omega
  unfold Disk.locate
  rw [if_neg (by simp [filled])]
  -- A path that is too long or holds the end of a text leads nowhere.
  by_cases bad : '\x00' ∈ pathOf directory key ∨ Disk.maxPath ≤ Text.bytes (pathOf directory key)
  · rw [if_pos bad]
    constructor
    · intro wrong
      cases wrong
    · rintro ⟨fits, _⟩
      rw [noEnd_pathOf directory plain] at bad
      have path := fits.path
      exact (bad.elim fits.noEnd (by omega)).elim
  rw [if_neg bad, isAbsolute_pathOf directory plain, split_pathOf directory plain]
  rw [not_or, noEnd_pathOf directory plain] at bad
  dsimp only
  -- The way goes through the directory, and ends with the name of the file.
  rw [Disk.follow_append_eq_ok_iff]
  constructor
  · rintro ⟨above, led, last⟩
    obtain ⟨held, next, step, done⟩ := Disk.follow_cons_eq_ok_iff.mp last
    cases done
    obtain ⟨short, rfl⟩ := advance_fileName.mp step
    exact ⟨⟨bad.1, by omega, short⟩, above, ⟨led, held⟩, rfl⟩
  · rintro ⟨fits, above, room, rfl⟩
    refine ⟨above, room.led, Disk.follow_cons_eq_ok_iff.mpr ⟨room.held, _, ?_, rfl⟩⟩
    exact advance_fileName.mpr ⟨fits.name, rfl⟩

/-- A directory that is there is where its path leads to. -/
theorem Room.locate {directory : Path} {disk : Disk} {place : List Text}
    (room : Room directory disk place) (filled : directory ≠ []) (noEnd : '\x00' ∉ directory)
    (short : Text.bytes directory < Disk.maxPath) : disk.locate directory = .ok place := by
  -- The path of the directory passes the tests that the longer one of an artifact does.
  have bad : ¬('\x00' ∈ directory ∨ Disk.maxPath ≤ Text.bytes directory) := by
    rintro (listed | long)
    · exact noEnd listed
    · omega
  unfold Disk.locate
  rw [if_neg (by simpa using filled), if_neg bad]
  have led := room.led
  unfold along at led
  rw [if_neg filled] at led
  by_cases slash : directory.getLast? = some '/'
  · -- The empty name behind the last slash leads nowhere else.
    rw [if_pos slash] at led
    obtain ⟨front, rfl⟩ := List.getLast?_eq_some_iff.mp slash
    have cut : Path.split [] (front ++ ['/']) = Path.split [] front ++ [[]] :=
      Path.split_append_slash [] front []
    rw [cut, List.dropLast_concat] at led
    dsimp only
    rw [cut, Disk.follow_append_eq_ok_iff]
    exact ⟨place, led, Disk.follow_cons_eq_ok_iff.mpr ⟨room.held, place, rfl, rfl⟩⟩
  · rw [if_neg slash] at led
    exact led

/-- A directory is not made where artifacts may lie in it already. -/
theorem Room.makeDirectory {directory : Path} {disk : Disk} {place : List Text}
    (room : Room directory disk place) {key : ArtifactKey} (plain : key.IsPlain)
    (fits : Fits directory key) : disk.makeDirectory directory = (true, disk) := by
  -- The empty path is that of the directory one is in, which is never made.
  by_cases filled : directory = []
  · subst filled
    rfl
  · have short := bytes_le_bytes_pathOf directory plain
    have path := fits.path
    have led := room.locate filled fits.noEnd (by omega)
    exact Disk.makeDirectory_of_locate led room.held

/-- What is loaded from a shelf is the text of a file in its directory. -/
theorem load_onDisk {directory : Path} {disk : Disk} {key : ArtifactKey} (plain : key.IsPlain)
    {text : Text} :
    (onDisk directory).load key disk = .ok text ↔
      Fits directory key ∧ ∃ above, Room directory disk above ∧
        disk.root.get? (above.reverse ++ [ArtifactKey.fileName key]) =
          some (.file (some text)) := by
  show disk.read (pathOf directory key) = .ok text ↔ _
  -- The path of the artifact leads to the file if it leads anywhere.
  rw [Disk.read_eq_ok_iff]
  constructor
  · rintro ⟨place, led, there⟩
    obtain ⟨fits, above, room, rfl⟩ := (locate_pathOf plain).mp led
    exact ⟨fits, above, room, by rwa [List.reverse_cons] at there⟩
  · rintro ⟨fits, above, room, there⟩
    refine ⟨_, (locate_pathOf plain).mpr ⟨fits, above, room, rfl⟩, ?_⟩
    rwa [List.reverse_cons]

/-- A disk with a text in a file of a directory. -/
def withFile (disk : Disk) (above : List Text) (key : ArtifactKey) (text : Text) : Disk :=
  { disk with
    root := disk.root.put (above.reverse ++ [ArtifactKey.fileName key]) (.file (some text)) }

/-- Saving makes the directory of a shelf before it writes. -/
theorem save_onDisk_eq (directory : Path) (disk : Disk) (key : ArtifactKey) (text : Text) :
    (onDisk directory).save key text disk =
      if (disk.makeDirectory directory).1 then
        (disk.makeDirectory directory).2.write (pathOf directory key) text
      else (false, (disk.makeDirectory directory).2) := by
  rw [onDisk]
  dsimp only
  rcases disk.makeDirectory directory with ⟨_ | _, made⟩ <;> rfl

/-- Saving makes the directory of a shelf and puts a file in it where no directory is. -/
theorem save_onDisk {directory : Path} {disk after : Disk} {key : ArtifactKey}
    (plain : key.IsPlain) {text : Text} :
    (onDisk directory).save key text disk = (true, after) ↔
      ∃ made, disk.makeDirectory directory = (true, made) ∧ Fits directory key ∧
        ∃ above, Room directory made above ∧
          ¬Entry.IsDirectory (made.root.get? (above.reverse ++ [ArtifactKey.fileName key])) ∧
          after = withFile made above key text := by
  -- The directory is made first, and the path is looked up on the disk that has it.
  rw [save_onDisk_eq]
  rcases disk.makeDirectory directory with ⟨_ | _, made⟩
  · simp
  · simp only [if_true, Prod.mk.injEq, true_and, exists_eq_left', Disk.write_eq_true_iff]
    constructor
    · rintro ⟨place, led, free, same⟩
      obtain ⟨fits, above, room, rfl⟩ := (locate_pathOf plain).mp led
      rw [List.reverse_cons] at free same
      exact ⟨fits, above, room, free, same⟩
    · rintro ⟨fits, above, room, free, same⟩
      refine ⟨_, (locate_pathOf plain).mpr ⟨fits, above, room, rfl⟩, ?_⟩
      rw [List.reverse_cons]
      exact ⟨free, same⟩

/-- A failure to save makes the directory of a shelf at most. -/
theorem eq_makeDirectory_of_save {directory : Path} {disk after : Disk} {key : ArtifactKey}
    {text : Text} (failed : (onDisk directory).save key text disk = (false, after)) :
    after = (disk.makeDirectory directory).2 := by
  -- Nothing is written if the directory could not be made, or if the file could not be.
  rw [save_onDisk_eq] at failed
  split at failed
  · exact Disk.eq_of_write_eq_false failed
  · cases failed
    rfl

/-- A directory stays where it is when a file is put in it. -/
theorem Room.withFile {directory : Path} {disk : Disk} {above : List Text}
    (room : Room directory disk above) {key : ArtifactKey}
    (free : ¬Entry.IsDirectory (disk.root.get? (above.reverse ++ [ArtifactKey.fileName key])))
    (text : Text) : Room directory (withFile disk above key text) above where
  led := Disk.follow_put free room.led
  held := Entry.isDirectory_get?_put free room.held

/-- A result as an option is the value of a success. -/
theorem toOption_eq_some_iff {ε α : Type} {result : Except ε α} {value : α} :
    result.toOption = some value ↔ result = .ok value := by
  cases result <;> simp [Except.toOption]

/-- A file that was put in a directory is loaded, and the other files are as before. -/
theorem load_withFile {directory : Path} {disk : Disk} {above : List Text}
    (room : Room directory disk above) {key other : ArtifactKey}
    (free : ¬Entry.IsDirectory (disk.root.get? (above.reverse ++ [ArtifactKey.fileName key])))
    (fits : Fits directory key) (plain : other.IsPlain) (text : Text) :
    ((onDisk directory).load other (withFile disk above key text)).toOption =
      if other = key then some text else ((onDisk directory).load other disk).toOption := by
  have still := room.withFile free text
  by_cases same : other = key
  · -- The file is found where it was put.
    subst same
    rw [if_pos rfl]
    have loaded : (onDisk directory).load other (Shelf.withFile disk above other text) = .ok text :=
      (load_onDisk plain).mpr ⟨fits, above, still, Entry.get?_put_self room.held _⟩
    rw [loaded]
    rfl
  · -- The directory is the same place before and after, and no other name in it has changed.
    rw [if_neg same]
    apply Option.ext
    intro found
    have different : ArtifactKey.fileName other ≠ ArtifactKey.fileName key :=
      mt ArtifactKey.fileName_inj.mp same
    have kept : (Shelf.withFile disk above key text).root.get?
        (above.reverse ++ [ArtifactKey.fileName other]) =
          disk.root.get? (above.reverse ++ [ArtifactKey.fileName other]) :=
      Entry.get?_put_of_ne room.held different
    rw [toOption_eq_some_iff, toOption_eq_some_iff, load_onDisk plain, load_onDisk plain]
    constructor
    · rintro ⟨fits, place, room', there⟩
      cases still.unique room'
      exact ⟨fits, above, room, kept.symm.trans there⟩
    · rintro ⟨fits, place, room', there⟩
      cases room.unique room'
      exact ⟨fits, above, still, kept.trans there⟩

/-- What is on a shelf, key by key. -/
abbrev Table := ArtifactKey → Option Text

/-- A shelf keeps artifacts like a table: what is loaded stands in the table, and saving replaces
one entry, or none if it fails. It does not fail where something was saved before. -/
structure Keeps {σ : Type} (shelf : Shelf σ) (holds : Table → σ → Prop) : Prop where
  load : ∀ {table state key}, holds table state → key.IsPlain →
    (shelf.load key state).toOption = table key
  saved : ∀ {table state key text after}, holds table state → key.IsPlain →
    shelf.save key text state = (true, after) → holds (Function.update table key (some text)) after
  failed : ∀ {table state key text after}, holds table state → key.IsPlain →
    shelf.save key text state = (false, after) → holds table after
  again : ∀ {table state key text old}, holds table state → key.IsPlain → table key = some old →
    ∃ after, shelf.save key text state = (true, after)

/-- A directory holds the artifacts of a table and no others, and still does when it is made, which
may uncover what a path through missing directories leads to. -/
def Holds (directory : Path) (table : Table) (disk : Disk) : Prop :=
  ∀ times key, key.IsPlain →
    ((onDisk directory).load key
      ((fun disk => (Disk.makeDirectory directory disk).2)^[times] disk)).toOption = table key

/-- A shelf in a larger state is a directory of the disk in that state. -/
structure LiesIn {σ : Type} (shelf : Shelf σ) (directory : Path) (disk : σ → Disk) : Prop where
  load : ∀ key state, shelf.load key state = (onDisk directory).load key (disk state)
  save : ∀ key text state,
    ((shelf.save key text state).1, disk (shelf.save key text state).2) =
      (onDisk directory).save key text (disk state)

/-- What a directory holds stays when the directory is made. -/
theorem Holds.make {directory : Path} {table : Table} {disk : Disk}
    (holds : Holds directory table disk) : Holds directory table (disk.makeDirectory directory).2 :=
  fun times key plain => holds (times + 1) key plain

/-- A directory that is there already holds what is loaded from it. -/
theorem holds_of_load {directory : Path} {table : Table} {disk : Disk}
    (there : disk.makeDirectory directory = (true, disk))
    (loads : ∀ key : ArtifactKey, key.IsPlain →
      ((onDisk directory).load key disk).toOption = table key) : Holds directory table disk := by
  intro times key plain
  have fixed : ((fun disk => (Disk.makeDirectory directory disk).2)^[times]) disk = disk :=
    Function.iterate_fixed (congrArg Prod.snd there) times
  rw [fixed]
  exact loads key plain

/-- A directory of a disk keeps artifacts like a table. -/
theorem keeps_onDisk (directory : Path) : Keeps (onDisk directory) (Holds directory) where
  load holds plain := holds 0 _ plain
  saved := by
    intro table disk key text after holds plain saved
    -- What was saved is loaded, and saving has made the directory for good.
    obtain ⟨made, making, fits, above, room, free, rfl⟩ := (save_onDisk plain).mp saved
    refine holds_of_load ((room.withFile free text).makeDirectory plain fits) ?_
    intro other plainly
    have before := holds 1 other plainly
    rw [Function.iterate_one, making] at before
    rw [load_withFile room free fits plainly, before, Function.update_apply]
  failed := by
    intro table disk key text after holds plain failed
    -- A failure has made the directory at most.
    rw [eq_makeDirectory_of_save failed]
    exact holds.make
  again := by
    intro table disk key text old holds plain there
    -- Where an artifact was loaded from a file there is room for another text.
    have loaded : ((onDisk directory).load key disk).toOption = table key := holds 0 key plain
    rw [there, toOption_eq_some_iff] at loaded
    obtain ⟨fits, above, room, file⟩ := (load_onDisk plain).mp loaded
    refine ⟨_, (save_onDisk plain).mpr
      ⟨disk, room.makeDirectory plain fits, fits, above, room, ?_, rfl⟩⟩
    rw [file]
    rintro ⟨entries, wrong⟩
    cases wrong

/-- A shelf in a directory keeps artifacts like a table. -/
theorem LiesIn.keeps {σ : Type} {shelf : Shelf σ} {directory : Path} {disk : σ → Disk}
    (lies : shelf.LiesIn directory disk) :
    Keeps shelf fun table state => Holds directory table (disk state) := by
  -- All three operations are those of the directory, seen through the disk of the state.
  have kept := keeps_onDisk directory
  refine ⟨?_, ?_, ?_, ?_⟩
  · intro table state key holds plain
    rw [lies.load]
    exact kept.load holds plain
  · intro table state key text after holds plain saved
    have same := lies.save key text state
    rw [saved] at same
    exact kept.saved holds plain same.symm
  · intro table state key text after holds plain failed
    have same := lies.save key text state
    rw [failed] at same
    exact kept.failed holds plain same.symm
  · intro table state key text old holds plain there
    obtain ⟨after, saved⟩ :
        ∃ after, (onDisk directory).save key text (disk state) = (true, after) :=
      kept.again holds plain there
    have same := lies.save key text state
    rw [saved] at same
    have possible : (shelf.save key text state).1 = true := congrArg Prod.fst same
    exact ⟨(shelf.save key text state).2, Prod.ext possible rfl⟩

end Shelf

end Templates
