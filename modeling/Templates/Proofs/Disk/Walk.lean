import Templates.Disk

/-!
Ways through a disk: where they lead, what stays on them, and when nothing is made on them.

On each way an entry is looked up in a tree of entries, into which another one may have been put.
-/

namespace Templates.Entry

/-- An entry that holds others. -/
def IsDirectory (entry : Option Entry) : Prop :=
  ∃ entries, entry = some (.directory entries)

/-- Names are looked up one after the other. -/
theorem get?_append (names rest : List Text) (entry : Entry) :
    entry.get? (names ++ rest) = (entry.get? names).bind (get? rest) := by
  -- The first name is looked up on both sides, and what follows it by induction.
  induction names generalizing entry with
  | nil => rfl
  | cons name names ih =>
    cases entry with
    | file content => rfl
    | directory entries =>
      rw [List.cons_append, get?, get?, Option.bind_assoc]
      exact congrArg _ (funext fun entry => ih entry)

/-- A name in a directory is looked up among its entries. -/
theorem get?_concat {entry : Entry} {names : List Text} {entries : Fields Entry}
    (above : entry.get? names = some (.directory entries)) (name : Text) :
    entry.get? (names ++ [name]) = entries.get? name := by
  -- The last name is looked up in the directory that the others lead to.
  rw [get?_append, above]
  show (Fields.get? name entries).bind (get? []) = _
  cases Fields.get? name entries <;> rfl

/-- Something is found below directories only. -/
theorem isDirectory_of_get?_cons {entry found : Entry} {name : Text} {rest : List Text}
    (there : entry.get? (name :: rest) = some found) : IsDirectory (some entry) := by
  -- A file has nothing below it.
  cases entry with
  | file content => cases there
  | directory entries => exact ⟨entries, rfl⟩

/-- A directory that an entry is put into has that entry from then on. -/
theorem get?_put {entry new : Entry} {names : List Text} {entries : Fields Entry}
    (above : entry.get? names = some (.directory entries)) (name : Text) :
    (entry.put (names ++ [name]) new).get? names =
      some (.directory (entries.insert name new)) := by
  -- On the way to the directory one entry is replaced at each level, by the one of the induction.
  induction names generalizing entry with
  | nil =>
    cases above
    rfl
  | cons first names ih =>
    obtain ⟨outer, same⟩ := isDirectory_of_get?_cons above
    cases same
    obtain ⟨inner, found, below⟩ := Option.bind_eq_some_iff.mp above
    rw [List.cons_append, put, get?, Fields.get?_insert_self, found]
    exact ih below

/-- An entry is found where it was put. -/
theorem get?_put_self {entry new : Entry} {names : List Text}
    (above : IsDirectory (entry.get? names)) (name : Text) :
    (entry.put (names ++ [name]) new).get? (names ++ [name]) = some new := by
  obtain ⟨entries, above⟩ := above
  rw [get?_concat (get?_put above name), Fields.get?_insert_self]

/-- The other entries of a directory stay when an entry is put into it. -/
theorem get?_put_of_ne {entry new : Entry} {names : List Text} {name other : Text}
    (above : IsDirectory (entry.get? names)) (different : other ≠ name) :
    (entry.put (names ++ [name]) new).get? (names ++ [other]) =
      entry.get? (names ++ [other]) := by
  obtain ⟨entries, above⟩ := above
  rw [get?_concat (get?_put above name), Fields.get?_insert_of_ne different, get?_concat above]

/-- Directories stay directories when an entry is put where none of them is. -/
theorem isDirectory_get?_put {entry new : Entry} {names target : List Text}
    (free : ¬IsDirectory (entry.get? target)) (held : IsDirectory (entry.get? names)) :
    IsDirectory ((entry.put target new).get? names) := by
  -- The two ways go together for a while: the target does not end on that part, and where the
  -- directory does it holds others still.
  induction target generalizing entry names with
  | nil =>
    cases names with
    | nil => exact absurd held free
    | cons name names =>
      obtain ⟨entries, found⟩ := held
      exact absurd (isDirectory_of_get?_cons found) free
  | cons first target ih =>
    cases names with
    | nil =>
      obtain ⟨entries, same⟩ := held
      cases same
      exact ⟨_, rfl⟩
    | cons name names =>
      obtain ⟨entries, found⟩ := held
      obtain ⟨outer, same⟩ := isDirectory_of_get?_cons found
      cases same
      by_cases same : name = first
      · subst same
        -- An entry on the way is replaced by one that keeps its directories.
        obtain ⟨inner, there, below⟩ := Option.bind_eq_some_iff.mp found
        have free : ¬IsDirectory (inner.get? target) := by
          rw [get?, there] at free
          exact free
        rw [put, get?, Fields.get?_insert_self, there]
        exact ih free ⟨entries, below⟩
      · rw [put, get?, Fields.get?_insert_of_ne same]
        exact ⟨entries, found⟩

end Templates.Entry

namespace Templates

namespace Path

/-- A slash ends a name, and what follows it is split by itself. -/
theorem split_append_slash (name front back : Text) :
    split name (front ++ '/' :: back) = split name front ++ split [] back := by
  -- The name in front of the slash grows until a slash ends it.
  induction front generalizing name with
  | nil => simp [split]
  | cons c front ih =>
    by_cases slash : c = '/'
    · simp [split, slash, ih]
    · simp [split, slash, ih]

/-- A text without slashes is a single name. -/
theorem split_eq_singleton {text : Text} (plain : '/' ∉ text) (name : Text) :
    split name text = [name.reverse ++ text] := by
  -- Without a slash the name grows up to the end of the text.
  induction text generalizing name with
  | nil => simp [split]
  | cons c text ih =>
    obtain ⟨other, plain⟩ := List.ne_and_not_mem_of_not_mem_cons plain
    rw [split, if_neg (Ne.symm other), ih plain]
    simp

/-- A path has at least one name, which may be empty. -/
theorem split_ne_nil (name : Text) (path : Path) : split name path ≠ [] := by
  -- The last name has no slash behind it.
  induction path generalizing name with
  | nil => simp [split]
  | cons c path ih =>
    by_cases slash : c = '/'
    · simp [split, slash]
    · simpa [split, slash] using ih (c :: name)

/-- What is left of a reversed path follows a slash, unless nothing was removed from its end. -/
theorem withoutEnd_eq (path : Path) :
    withoutEnd path = path ∨ ∃ front, path = front ++ '/' :: withoutEnd path := by
  -- Each step removes a slash, alone or behind a dot, in front of all that is removed later.
  fun_induction withoutEnd path with
  | case1 rest ih =>
    right
    obtain same | ⟨front, same⟩ := ih
    · exact ⟨[], by rw [same]; rfl⟩
    · refine ⟨'/' :: front, ?_⟩
      rw [List.cons_append, ← same]
  | case2 rest ih =>
    right
    obtain same | ⟨front, same⟩ := ih
    · exact ⟨['.'], by rw [same]; rfl⟩
    · refine ⟨'.' :: '/' :: front, ?_⟩
      rw [List.cons_append, List.cons_append, ← same]
  | case3 path _ _ => exact .inl rfl

/-- A path goes on with a slash where its parent ends, unless the parent is a root or empty. -/
theorem parent_eq (path : Path) :
    parent path = [] ∨ parent path = ['/'] ∨ ∃ rest, path = parent path ++ '/' :: rest := by
  -- What is removed from the end goes back to a slash, if a slash is left in front of the name.
  obtain ⟨front, whole⟩ : ∃ front, path.reverse =
      front ++ (withoutEnd path.reverse).dropWhile (· ≠ '/') := by
    obtain same | ⟨front, same⟩ := withoutEnd_eq path.reverse
    · refine ⟨(withoutEnd path.reverse).takeWhile (· ≠ '/'), ?_⟩
      rw [List.takeWhile_append_dropWhile, same]
    · refine ⟨front ++ '/' :: (withoutEnd path.reverse).takeWhile (· ≠ '/'), ?_⟩
      rw [List.append_assoc, List.cons_append, List.takeWhile_append_dropWhile, ← same]
  unfold parent
  cases left : (withoutEnd path.reverse).dropWhile (· ≠ '/') with
  | nil =>
    by_cases rooted : isAbsolute path = true
    · exact .inr (.inl (by simp [withoutEnd, rooted]))
    · exact .inl (by simp [withoutEnd, rooted])
  | cons c rest =>
    -- What is left ends with a slash, in front of which the parent ends.
    have slash : c = '/' := by
      have held := List.head?_dropWhile_not (· ≠ '/') (withoutEnd path.reverse)
      rw [left] at held
      simpa using held
    subst slash
    rw [left] at whole
    obtain ⟨behind, whole⟩ : ∃ behind, path = (withoutEnd rest).reverse ++ '/' :: behind := by
      rw [List.reverse_eq_iff] at whole
      obtain same | ⟨between, same⟩ := withoutEnd_eq rest
      · refine ⟨front.reverse, ?_⟩
        rw [whole, same]
        simp
      · refine ⟨between.reverse ++ '/' :: front.reverse, ?_⟩
        rw [whole, List.reverse_append, List.reverse_cons, congrArg List.reverse same]
        simp
    rw [withoutEnd]
    dsimp only
    split
    · exact .inr (.inl rfl)
    · exact .inr (.inr ⟨behind, whole⟩)

end Path

namespace Disk

/-- Where a name leads from a directory, if it is not too long. -/
def advance (place : List Text) (name : Text) : Option (List Text) :=
  if name = [] ∨ name = ['.'] then some place
  else if name = ['.', '.'] then some place.tail
  else if maxName < Text.bytes name then none
  else some (name :: place)

/-- A name is followed from a directory to where it leads. -/
theorem follow_cons_eq_ok_iff {root : Entry} {place last : List Text} {name : Text}
    {rest : List Text} :
    follow root place (name :: rest) = .ok last ↔
      Entry.IsDirectory (root.get? place.reverse) ∧
        ∃ next, advance place name = some next ∧ follow root next rest = .ok last := by
  -- The same three tests decide where the name leads and whether it fails.
  unfold advance
  rw [follow]
  cases root.get? place.reverse with
  | none => simp [Entry.IsDirectory]
  | some entry =>
    cases entry with
    | file content => simp [Entry.IsDirectory]
    | directory entries =>
      by_cases skip : name = [] ∨ name = ['.']
      · simp [Entry.IsDirectory, skip]
      by_cases up : name = ['.', '.']
      · simp [Entry.IsDirectory, up]
      by_cases long : maxName < Text.bytes name
      · simp [Entry.IsDirectory, skip, up, long]
      · simp [Entry.IsDirectory, skip, up, long]

/-- Names are followed in two parts. -/
theorem follow_append_eq_ok_iff {root : Entry} {names rest place last : List Text} :
    follow root place (names ++ rest) = .ok last ↔
      ∃ between, follow root place names = .ok between ∧
        follow root between rest = .ok last := by
  -- Both sides take the same first step, and then the induction hypothesis applies.
  induction names generalizing place with
  | nil => simp [follow]
  | cons name names ih =>
    rw [List.cons_append, follow_cons_eq_ok_iff]
    constructor
    · rintro ⟨held, next, step, led⟩
      obtain ⟨between, front, back⟩ := ih.mp led
      exact ⟨between, follow_cons_eq_ok_iff.mpr ⟨held, next, step, front⟩, back⟩
    · rintro ⟨between, front, back⟩
      obtain ⟨held, next, step, front⟩ := follow_cons_eq_ok_iff.mp front
      exact ⟨held, next, step, ih.mpr ⟨between, front, back⟩⟩

/-- A way stays the same when an entry is put where no directory is. -/
theorem follow_put {root new : Entry} {target : List Text}
    (free : ¬Entry.IsDirectory (root.get? target)) {names place last : List Text}
    (led : follow root place names = .ok last) :
    follow (root.put target new) place names = .ok last := by
  -- All entries on the way are directories, which they stay.
  induction names generalizing place with
  | nil => exact led
  | cons name names ih =>
    obtain ⟨held, next, step, led⟩ := follow_cons_eq_ok_iff.mp led
    exact follow_cons_eq_ok_iff.mpr ⟨Entry.isDirectory_get?_put free held, next, step, ih led⟩

/-- A name that leads to a directory makes nothing. -/
theorem makeAlong_cons {disk : Disk} {place next : List Text} {name : Text}
    (step : advance place name = some next)
    (held : Entry.IsDirectory (disk.root.get? next.reverse)) (rest : List Text) :
    makeAlong place (name :: rest) disk = makeAlong next rest disk := by
  -- The name is looked at by the same tests, and the directory it leads to is there.
  obtain ⟨entries, held⟩ := held
  unfold advance at step
  rw [makeAlong]
  by_cases skip : name = [] ∨ name = ['.']
  · rw [if_pos skip] at step ⊢
    cases step
    rfl
  rw [if_neg skip] at step ⊢
  by_cases up : name = ['.', '.']
  · rw [if_pos up] at step ⊢
    cases step
    rfl
  rw [if_neg up] at step ⊢
  by_cases long : maxName < Text.bytes name
  · rw [if_pos long] at step
    cases step
  · rw [if_neg long] at step ⊢
    cases step
    dsimp only
    rw [held]

/-- Nothing has to be made along names that lead through directories to a directory. -/
theorem makeAlong_of_follow {disk : Disk} {names place last : List Text}
    (led : follow disk.root place names = .ok last)
    (held : Entry.IsDirectory (disk.root.get? last.reverse)) :
    makeAlong place names disk = (true, disk) := by
  -- Each name leads to the directory from which the next one is followed.
  induction names generalizing place with
  | nil => rfl
  | cons name names ih =>
    obtain ⟨_, next, step, led⟩ := follow_cons_eq_ok_iff.mp led
    have reached : Entry.IsDirectory (disk.root.get? next.reverse) := by
      cases names with
      | nil =>
        cases led
        exact held
      | cons second names => exact (follow_cons_eq_ok_iff.mp led).1
    rw [makeAlong_cons step reached, ih led]

/-- A text is read where a path leads to a file that holds it. -/
theorem read_eq_ok_iff {path : Path} {disk : Disk} {text : Text} :
    disk.read path = .ok text ↔ ∃ place, disk.locate path = .ok place ∧
      disk.root.get? place.reverse = some (.file (some text)) := by
  -- Only a file with a text can be read.
  unfold read find
  cases disk.locate path with
  | error e => simp
  | ok place =>
    cases there : disk.root.get? place.reverse with
    | none => simp [there]
    | some entry =>
      cases entry with
      | directory entries => simp [there]
      | file content => cases content <;> simp [there]

/-- A path leads to a directory if one is found at its end. -/
theorem isDirectory_of_locate {path : Path} {disk : Disk} {place : List Text}
    (led : disk.locate path = .ok place)
    (held : Entry.IsDirectory (disk.root.get? place.reverse)) : disk.isDirectory path = true := by
  -- What is found at the end is what the path leads to.
  obtain ⟨entries, held⟩ := held
  unfold isDirectory find
  rw [led]
  dsimp only
  rw [held]
  rfl

/-- Nothing has to be made for a path that leads to a directory. -/
theorem makeDirectory_of_locate {path : Path} {disk : Disk} {place : List Text}
    (led : disk.locate path = .ok place)
    (held : Entry.IsDirectory (disk.root.get? place.reverse)) :
    disk.makeDirectory path = (true, disk) := by
  have there := isDirectory_of_locate led held
  unfold locate at led
  unfold makeDirectory
  -- A path that leads somewhere is neither empty nor too long.
  by_cases nothing : path.isEmpty = true
  · rw [if_pos nothing] at led
    cases led
  rw [if_neg nothing] at led ⊢
  by_cases bad : '\x00' ∈ path ∨ maxPath ≤ Text.bytes path
  · rw [if_pos bad] at led
    cases led
  rw [if_neg bad] at led ⊢
  dsimp only at led ⊢
  by_cases dot : Path.endsInDot path = true
  · -- Only the directories in front are made, along a first part of the way to the directory.
    rw [if_pos dot]
    have front : makeAlong (if Path.isAbsolute path = true then [] else disk.here.reverse)
        (Path.split [] (Path.parent path)) disk = (true, disk) := by
      obtain above | above | ⟨rest, above⟩ := Path.parent_eq path
      · rw [above]
        simp [Path.split, makeAlong]
      · rw [above]
        simp [Path.split, makeAlong]
      · rw [above, Path.split_append_slash, ← above] at led
        obtain ⟨between, front, back⟩ := follow_append_eq_ok_iff.mp led
        obtain ⟨name, names, cut⟩ := List.exists_cons_of_ne_nil (Path.split_ne_nil [] rest)
        rw [cut] at back
        exact makeAlong_of_follow front (follow_cons_eq_ok_iff.mp back).1
    rw [front]
    dsimp only
    rw [there]
    rfl
  · rw [if_neg dot]
    exact makeAlong_of_follow led held

/-- A text is written where a path leads to no directory. -/
theorem write_eq_true_iff {path : Path} {disk after : Disk} {text : Text} :
    disk.write path text = (true, after) ↔ ∃ place, disk.locate path = .ok place ∧
      ¬Entry.IsDirectory (disk.root.get? place.reverse) ∧
        after = { disk with root := disk.root.put place.reverse (.file (some text)) } := by
  -- Only a directory at the end of the path keeps a text from being written.
  unfold write writeEntry
  cases disk.locate path with
  | error e => simp
  | ok place =>
    cases there : disk.root.get? place.reverse with
    | none => simp [there, Entry.IsDirectory, eq_comm]
    | some entry =>
      cases entry with
      | directory entries => simp [there, Entry.IsDirectory]
      | file content => simp [there, Entry.IsDirectory, eq_comm]

/-- A disk stays as it is when nothing could be written. -/
theorem eq_of_write_eq_false {path : Path} {disk after : Disk} {text : Text}
    (failed : disk.write path text = (false, after)) : after = disk := by
  -- Both failures come before anything is put anywhere.
  unfold write writeEntry at failed
  cases led : disk.locate path with
  | error e =>
    rw [led] at failed
    cases failed
    rfl
  | ok place =>
    rw [led] at failed
    dsimp only at failed
    split at failed
    · cases failed
      rfl
    · cases failed

end Disk

end Templates
