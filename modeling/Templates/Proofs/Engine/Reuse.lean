import Templates.Proofs.Artifact.Shelf
import Templates.Proofs.Engine.Uncached

/-!
Artifacts that are used again are those of the first source that was answered with their key.

A source that no other one shares its key with is rendered as if it were compiled anew.
-/

namespace Templates.Engine

variable {σ : Type}

/-- The key that is answered is that of the source. -/
theorem eq_keyOf_of_compile {engine : Engine σ} {source : TemplateSource} {key : ArtifactKey}
    (answered : (engine.compile source).1 = .ok key) : key = engine.keyOf source := by
  -- All ways to succeed end with the key of the source.
  unfold compile at answered
  dsimp only at answered
  split at answered
  · cases answered
    rfl
  · split at answered
    · cases answered
    · split at answered
      · cases answered
        rfl
      · cases answered

/-- An engine that has a state and a number of saved artifacts from now on. -/
def resumed (engine : Engine σ) (state : σ) (writes : Nat) : Engine σ :=
  { engine with state := state, writes := writes }

/-- Compiling a source saves an artifact at most, and changes nothing else. -/
theorem compile_resumed (engine : Engine σ) (source : TemplateSource) :
    ∃ state writes, (engine.compile source).2 = engine.resumed state writes ∧
      (state = engine.state ∨
        ∃ key text, state = (engine.shelf.save key text engine.state).2) := by
  -- Only saving changes anything, and it is the last step.
  unfold compile save
  dsimp only
  split
  · exact ⟨_, _, rfl, .inl rfl⟩
  · split
    · exact ⟨_, _, rfl, .inl rfl⟩
    · rename_i artifact _
      cases saved : engine.shelf.save (engine.keyOf source) artifact engine.state with
      | mk possible state =>
        have after := (congrArg Prod.snd saved).symm
        cases possible with
        | false => exact ⟨state, _, rfl, .inr ⟨_, _, after⟩⟩
        | true => exact ⟨state, _, rfl, .inr ⟨_, _, after⟩⟩

/-- A source whose artifact is used again is not compiled. -/
theorem compile_reused {engine : Engine σ} {source : TemplateSource} {old : Text}
    (there : engine.shelf.reusable? engine.config.useCached (engine.keyOf source) engine.state =
      some old) : engine.compile source = (.ok (engine.keyOf source), engine) := by
  unfold compile
  dsimp only
  rw [there]

/-- What cannot be compiled leaves the engine as it is. -/
theorem compile_failed {engine : Engine σ} {source : TemplateSource} {e : Error}
    (fresh : engine.shelf.reusable? engine.config.useCached (engine.keyOf source) engine.state =
      none) (failed : engine.compileText source = .error e) :
    engine.compile source = (.error e, engine) := by
  unfold compile
  dsimp only
  rw [fresh, failed]

/-- A source whose artifact is not used again is compiled, and its artifact is saved. -/
theorem compile_anew {engine : Engine σ} {source : TemplateSource} {artifact : Text} {after : σ}
    (fresh : engine.shelf.reusable? engine.config.useCached (engine.keyOf source) engine.state =
      none)
    (text : engine.compileText source = .ok artifact)
    (saved : engine.shelf.save (engine.keyOf source) artifact engine.state = (true, after)) :
    engine.compile source =
      (.ok (engine.keyOf source), engine.resumed after (engine.writes + 1)) := by
  unfold compile save
  dsimp only
  rw [fresh, text]
  dsimp only
  rw [saved]
  rfl

/-- A source is answered by an artifact that is there, by an error that leaves all artifacts, or by
its own artifact, which is there from then on. -/
theorem compile_cases {engine : Engine σ} {holds : Shelf.Table → σ → Prop}
    (keeps : engine.shelf.Keeps holds) {table : Shelf.Table} (held : holds table engine.state)
    (reuse : engine.config.useCached = true) (source : TemplateSource) :
    (∃ old, table (engine.keyOf source) = some old ∧
      engine.compile source = (.ok (engine.keyOf source), engine)) ∨
    (∃ error state, engine.compile source = (.error error, engine.resumed state engine.writes) ∧
      holds table state) ∨
    (table (engine.keyOf source) = none ∧ ∃ artifact state,
      engine.compileText source = .ok artifact ∧
      engine.compile source =
        (.ok (engine.keyOf source), engine.resumed state (engine.writes + 1)) ∧
      holds (Function.update table (engine.keyOf source) (some artifact)) state) := by
  have plain : (engine.keyOf source).IsPlain := ArtifactKey.isPlain_derive _
  -- What is loaded for the key is what the table has under it.
  have loaded := keeps.load held plain
  have reused : engine.shelf.reusable? engine.config.useCached (engine.keyOf source) engine.state =
      table (engine.keyOf source) := by
    rw [Shelf.reusable?, if_pos reuse, loaded]
  cases there : table (engine.keyOf source) with
  | some old =>
    rw [there] at reused
    exact .inl ⟨old, rfl, compile_reused reused⟩
  | none =>
    rw [there] at reused
    right
    cases text : engine.compileText source with
    | error e =>
      refine .inl ⟨e, engine.state, ?_, held⟩
      unfold compile
      dsimp only
      rw [reused, text]
      rfl
    | ok artifact =>
      rcases saved : engine.shelf.save (engine.keyOf source) artifact engine.state with
        ⟨_ | _, state⟩
      · refine .inl ⟨.storage, state, ?_, keeps.failed held plain saved⟩
        unfold compile save
        dsimp only
        rw [reused, text]
        dsimp only
        rw [saved]
        rfl
      · right
        exact ⟨rfl, artifact, state, rfl, compile_anew reused text saved,
          keeps.saved held plain saved⟩

/-- Sources with the answers they got, in order. -/
abbrev Answers := List (TemplateSource × Except Error ArtifactKey)

/-- Sources are compiled one after the other. -/
def compileAll : List TemplateSource → Engine σ → Answers × Engine σ
  | [], engine => ([], engine)
  | source :: rest, engine =>
    let (answer, engine) := engine.compile source
    let (answers, engine) := compileAll rest engine
    ((source, answer) :: answers, engine)

/-- The first source is compiled by itself, and the others by the engine that it leaves. -/
theorem compileAll_cons (source : TemplateSource) (rest : List TemplateSource)
    (engine : Engine σ) :
    compileAll (source :: rest) engine =
      ((source, (engine.compile source).1) :: (compileAll rest (engine.compile source).2).1,
        (compileAll rest (engine.compile source).2).2) := rfl

/-- All sources are answered. -/
theorem map_fst_compileAll (sources : List TemplateSource) (engine : Engine σ) :
    (compileAll sources engine).1.map Prod.fst = sources := by
  -- Each source is put down with its answer.
  induction sources generalizing engine with
  | nil => rfl
  | cons source rest ih => exact congrArg (source :: ·) (ih (engine.compile source).2)

/-- The source of an answer is among the compiled ones. -/
theorem mem_of_mem_compileAll {sources : List TemplateSource} {engine : Engine σ}
    {source : TemplateSource} {answer : Except Error ArtifactKey}
    (answered : (source, answer) ∈ (compileAll sources engine).1) : source ∈ sources := by
  rw [← map_fst_compileAll sources engine]
  exact List.mem_map_of_mem answered

/-- What a source compiles to stays the same while some of the sources are compiled in order: the
templates that it is made of do not change. -/
def Steady (engine : Engine σ) (sources : List TemplateSource) : Prop :=
  ∀ earlier, earlier <+: sources → ∀ source ∈ sources,
    (compileAll earlier engine).2.compileText source = engine.compileText source

/-- Sources stay steady after the first of them. -/
theorem Steady.tail {engine : Engine σ} {source : TemplateSource} {rest : List TemplateSource}
    (steady : engine.Steady (source :: rest)) : (engine.compile source).2.Steady rest := by
  -- The sources compiled up to then are those of the rest with the first one in front.
  intro earlier before other listed
  have now := steady (source :: earlier) (List.cons_prefix_cons.mpr ⟨rfl, before⟩) other
    (List.mem_cons_of_mem _ listed)
  have first := steady [source] (List.cons_prefix_cons.mpr ⟨rfl, List.nil_prefix⟩) other
    (List.mem_cons_of_mem _ listed)
  exact now.trans first.symm

/-- The first source that is answered with a key. -/
def FirstWith (key : ArtifactKey) (answers : Answers) (first : TemplateSource) : Prop :=
  ∃ before behind, answers = before ++ (first, .ok key) :: behind ∧
    ∀ other, (other, .ok key) ∉ before

/-- The first source is among the answered ones. -/
theorem FirstWith.mem {key : ArtifactKey} {answers : Answers} {first : TemplateSource}
    (found : FirstWith key answers first) : (first, .ok key) ∈ answers := by
  obtain ⟨before, behind, rfl, _⟩ := found
  exact List.mem_append_right _ List.mem_cons_self

/-- Later answers do not change which source comes first. -/
theorem FirstWith.append_right {key : ArtifactKey} {answers : Answers} {first : TemplateSource}
    (found : FirstWith key answers first) (later : Answers) :
    FirstWith key (answers ++ later) first := by
  obtain ⟨before, behind, rfl, fresh⟩ := found
  exact ⟨before, behind ++ later, by simp, fresh⟩

/-- Earlier answers with other keys do not change which source comes first. -/
theorem FirstWith.append_left {key : ArtifactKey} {answers earlier : Answers}
    {first : TemplateSource} (found : FirstWith key answers first)
    (others : ∀ other, (other, .ok key) ∉ earlier) : FirstWith key (earlier ++ answers) first := by
  obtain ⟨before, behind, rfl, fresh⟩ := found
  refine ⟨earlier ++ before, behind, by simp, ?_⟩
  intro other listed
  exact (List.mem_append.mp listed).elim (others other) (fresh other)

/-- A table has been filled by sources that were answered: a key without an artifact has that of the
first source answered with it, and the other keys are as they were. -/
structure Filled (texts : TemplateSource → Except Error Text) (answers : Answers)
    (table filled : Shelf.Table) : Prop where
  kept : ∀ {key old}, table key = some old → filled key = some old
  added : ∀ {key source}, table key = none → (source, .ok key) ∈ answers →
    ∃ first artifact, FirstWith key answers first ∧ texts first = .ok artifact ∧
      filled key = some artifact
  absent : ∀ {key}, table key = none → (∀ source, (source, .ok key) ∉ answers) → filled key = none

/-- Nothing is added without answers. -/
theorem Filled.nil (texts : TemplateSource → Except Error Text) (table : Shelf.Table) :
    Filled texts [] table table where
  kept there := there
  added _ listed := nomatch listed
  absent free _ := free

/-- Answers to some sources and then to others fill a table one after the other. -/
theorem Filled.append {texts : TemplateSource → Except Error Text} {answers later : Answers}
    {table between filled : Shelf.Table} (front : Filled texts answers table between)
    (back : Filled texts later between filled) :
    Filled texts (answers ++ later) table filled where
  kept there := back.kept (front.kept there)
  added := by
    intro key source free listed
    by_cases early : ∃ other, (other, .ok key) ∈ answers
    · -- A key that is answered early keeps the artifact of its first source.
      obtain ⟨other, early⟩ := early
      obtain ⟨first, artifact, found, text, stored⟩ := front.added free early
      exact ⟨first, artifact, found.append_right later, text, back.kept stored⟩
    · -- Any other key has the artifact of the first source that is answered later.
      have others : ∀ other, (other, .ok key) ∉ answers := not_exists.mp early
      have late := (List.mem_append.mp listed).resolve_left (others source)
      obtain ⟨first, artifact, found, text, stored⟩ := back.added (front.absent free others) late
      exact ⟨first, artifact, found.append_left others, text, stored⟩
  absent free others :=
    back.absent
      (front.absent free fun source listed => others source (List.mem_append_left _ listed))
      fun source listed => others source (List.mem_append_right _ listed)

/-- The texts of the answered sources are all that counts. -/
theorem Filled.congr {texts others : TemplateSource → Except Error Text} {answers : Answers}
    {table filled : Shelf.Table} (fills : Filled texts answers table filled)
    (same : ∀ source answer, (source, answer) ∈ answers → texts source = others source) :
    Filled others answers table filled where
  kept := fills.kept
  added free listed := by
    obtain ⟨first, artifact, found, text, stored⟩ := fills.added free listed
    exact ⟨first, artifact, found, (same first _ found.mem).symm.trans text, stored⟩
  absent := fills.absent

/-- A source fills a table with its own artifact, unless there is one under its key already or it
is answered by an error. -/
theorem compile_filled {engine : Engine σ} {holds : Shelf.Table → σ → Prop}
    (keeps : engine.shelf.Keeps holds) {table : Shelf.Table} (held : holds table engine.state)
    (reuse : engine.config.useCached = true) (source : TemplateSource) :
    ∃ filled state writes, (engine.compile source).2 = engine.resumed state writes ∧
      holds filled state ∧
      Filled engine.compileText [(source, (engine.compile source).1)] table filled := by
  obtain ⟨old, there, compiled⟩ | ⟨error, state, compiled, kept⟩ |
    ⟨free, artifact, state, text, compiled, kept⟩ := compile_cases keeps held reuse source
  · -- An artifact that is there already stays, and the source adds nothing to the table.
    rw [compiled]
    refine ⟨table, engine.state, engine.writes, rfl, held, fun there => there, ?_,
      fun free _ => free⟩
    intro key other free listed
    cases List.mem_singleton.mp listed
    rw [there] at free
    cases free
  · -- An error answers with no key.
    rw [compiled]
    refine ⟨table, state, engine.writes, rfl, kept, fun there => there, ?_, fun free _ => free⟩
    intro key other free listed
    cases List.mem_singleton.mp listed
  · -- The source is the first one that is answered with its key.
    rw [compiled]
    refine ⟨_, state, engine.writes + 1, rfl, kept, ?_, ?_, ?_⟩
    · intro key old there
      rw [Function.update_of_ne, there]
      rintro rfl
      rw [free] at there
      cases there
    · intro key other _ listed
      cases List.mem_singleton.mp listed
      refine ⟨source, artifact, ⟨[], [], rfl, fun _ listed => nomatch listed⟩, text, ?_⟩
      exact Function.update_self ..
    · intro key there others
      rw [Function.update_of_ne, there]
      rintro rfl
      exact others source (List.mem_singleton.mpr rfl)

/-- Compiling sources one after the other fills a table with the artifacts of those that are
answered first with their keys. -/
theorem compileAll_filled {holds : Shelf.Table → σ → Prop} {sources : List TemplateSource}
    (engine : Engine σ) (keeps : engine.shelf.Keeps holds) {table : Shelf.Table}
    (held : holds table engine.state) (reuse : engine.config.useCached = true)
    (steady : engine.Steady sources) :
    ∃ filled state writes, (compileAll sources engine).2 = engine.resumed state writes ∧
      holds filled state ∧
        Filled engine.compileText (compileAll sources engine).1 table filled := by
  -- The induction is on the sources, with the engine and the table as the first one leaves them.
  induction sources generalizing engine table with
  | nil => exact ⟨table, engine.state, engine.writes, rfl, held, .nil _ _⟩
  | cons source rest ih =>
    obtain ⟨between, state, writes, after, held, first⟩ := compile_filled keeps held reuse source
    have later := steady.tail
    have same : ∀ other ∈ rest,
        (engine.resumed state writes).compileText other = engine.compileText other := by
      intro other listed
      rw [← after]
      exact steady [source] (List.cons_prefix_cons.mpr ⟨rfl, List.nil_prefix⟩) other
        (List.mem_cons_of_mem _ listed)
    rw [after] at later
    obtain ⟨filled, state', writes', last, held, others⟩ :=
      ih (engine.resumed state writes) keeps held reuse later
    rw [compileAll_cons, after]
    refine ⟨filled, state', writes', last, held, first.append (others.congr ?_)⟩
    intro other answer listed
    exact same other (mem_of_mem_compileAll listed)

/-- The keys of sources stay the same while sources are compiled. -/
theorem eq_keyOf_of_mem_compileAll {sources : List TemplateSource} {engine : Engine σ}
    {source : TemplateSource} {key : ArtifactKey}
    (answered : (source, .ok key) ∈ (compileAll sources engine).1) :
    key = engine.keyOf source := by
  -- A key depends on the settings, which no source changes.
  induction sources generalizing engine with
  | nil => cases answered
  | cons first rest ih =>
    rw [compileAll_cons] at answered
    obtain same | answered := List.mem_cons.mp answered
    · obtain ⟨rfl, found⟩ := Prod.mk.inj same
      exact eq_keyOf_of_compile found.symm
    · obtain ⟨state, writes, resumed, _⟩ := compile_resumed engine first
      rw [resumed] at answered
      have later : key = (engine.resumed state writes).keyOf source := ih answered
      exact later

/-- An artifact that is loaded is rendered. -/
theorem render_of_load (engine : Engine σ) {key : ArtifactKey} {artifact : Text}
    (loaded : engine.shelf.load key engine.state = .ok artifact) (data : Data) :
    engine.render key data =
      (Templates.render engine.config.maxLoopIterations artifact data).mapError .render := by
  unfold render Shelf.fetch
  rw [loaded]
  rfl

/-- An engine that uses no artifact again renders what a source compiles to. -/
theorem renderSource_uncached (engine : Engine σ) {holds : Shelf.Table → σ → Prop}
    (keeps : engine.shelf.Keeps holds) {table : Shelf.Table} (held : holds table engine.state)
    {source : TemplateSource} {old artifact : Text}
    (there : table (engine.keyOf source) = some old)
    (text : engine.compileText source = .ok artifact) (data : Data) :
    (engine.uncached.renderSource source data).1 =
      (Templates.render engine.config.maxLoopIterations artifact data).mapError .render := by
  -- The artifact is saved again under its key, from where it is loaded and rendered.
  have plain : (engine.keyOf source).IsPlain := ArtifactKey.isPlain_derive _
  obtain ⟨after, saved⟩ : ∃ after,
      engine.shelf.save (engine.keyOf source) artifact engine.state = (true, after) :=
    keeps.again held plain there
  have anew : engine.uncached.compileText source = .ok artifact := by
    rw [compileText_uncached, text]
  have compiled : engine.uncached.compile source =
      (.ok (engine.keyOf source), engine.uncached.resumed after (engine.writes + 1)) :=
    compile_anew rfl anew saved
  have loaded := keeps.load (keeps.saved held plain saved) plain
  rw [Function.update_self, Shelf.toOption_eq_some_iff] at loaded
  unfold renderSource
  rw [compiled]
  exact (engine.uncached.resumed after (engine.writes + 1)).render_of_load loaded data

/-- What a source compiles to depends on no more of a state than its templates. -/
theorem compileText_resumed (engine : Engine σ) {state : σ}
    (same : engine.files state = engine.files engine.state) (writes : Nat)
    (source : TemplateSource) :
    (engine.resumed state writes).compileText source = engine.compileText source := by
  -- Only the template files are looked up in the state.
  have workshops : (engine.resumed state writes).workshop = engine.workshop := by
    show { engine.workshop with files := engine.files state } = engine.workshop
    rw [same]
    rfl
  unfold compileText
  cases source <;> simp only [load, workshops] <;> rfl

/-- Sources are steady if saving an artifact leaves the templates alone. -/
theorem steady_of_files {engine : Engine σ}
    (apart : ∀ key text state,
      engine.files (engine.shelf.save key text state).2 = engine.files state)
    (sources : List TemplateSource) : engine.Steady sources := by
  intro earlier before other _
  clear before
  -- Each of the sources compiled earlier leaves the templates, and with them the other source.
  induction earlier generalizing engine with
  | nil => rfl
  | cons source rest ih =>
    obtain ⟨state, writes, resumed, after⟩ := compile_resumed engine source
    have same : engine.files state = engine.files engine.state := by
      obtain rfl | ⟨key, text, rfl⟩ := after
      · rfl
      · exact apart key text engine.state
    rw [compileAll_cons, resumed]
    have later : (compileAll rest (engine.resumed state writes)).2.compileText other =
        (engine.resumed state writes).compileText other := ih apart
    exact later.trans (engine.compileText_resumed same writes other)

/-- Under a key is the text that a source compiles to, and the page rendered from it is the one of
an engine that uses no artifact again. -/
def Serves (engine after : Engine σ) (key : ArtifactKey) (source : TemplateSource) : Prop :=
  ∃ artifact, engine.compileText source = .ok artifact ∧
    after.shelf.load key after.state = .ok artifact ∧
    ∀ data, after.render key data = (after.uncached.renderSource source data).1

/-- With an empty shelf at the start, a key that answers a source is its own, and under it is what
the first source answered with this key compiles to. That is what the source itself compiles to if
and only if both compile alike, and so it is if all sources with this key do. -/
theorem compileAll_serves {engine : Engine σ} {directory : Path} {disk : σ → Disk}
    (shelved : engine.shelf.LiesIn directory disk) (reuse : engine.config.useCached = true)
    (bare : Shelf.Holds directory (fun _ => none) (disk engine.state))
    {sources : List TemplateSource} (steady : engine.Steady sources)
    {source : TemplateSource} {key : ArtifactKey}
    (answered : (source, .ok key) ∈ (compileAll sources engine).1) :
    key = engine.keyOf source ∧
      (∃ first, FirstWith key (compileAll sources engine).1 first ∧
        engine.Serves (compileAll sources engine).2 key first ∧
        (engine.Serves (compileAll sources engine).2 key source ↔
          engine.compileText source = engine.compileText first)) ∧
      ((∀ other ∈ sources, engine.keyOf other = key →
          engine.compileText other = engine.compileText source) →
        engine.Serves (compileAll sources engine).2 key source) := by
  obtain ⟨filled, state, writes, after, held, fills⟩ :=
    engine.compileAll_filled shelved.keeps bare reuse steady
  have own := eq_keyOf_of_mem_compileAll answered
  obtain ⟨first, artifact, found, text, stored⟩ := fills.added rfl answered
  have ownFirst : key = engine.keyOf first := eq_keyOf_of_mem_compileAll found.mem
  have plain : key.IsPlain := own ▸ ArtifactKey.isPlain_derive _
  have loaded := shelved.keeps.load held plain
  rw [stored, Shelf.toOption_eq_some_iff] at loaded
  -- Whatever compiles to the text under the key and has that key is served from it.
  have served {other : TemplateSource} (key' : key = engine.keyOf other)
      (listed : other ∈ sources) (text : engine.compileText other = .ok artifact) :
      engine.Serves (compileAll sources engine).2 key other := by
    refine ⟨artifact, text, by rw [after]; exact loaded, ?_⟩
    intro data
    have still := (steady sources (List.prefix_refl sources) other listed).trans text
    rw [after] at still ⊢
    rw [(engine.resumed state writes).render_of_load loaded]
    exact ((engine.resumed state writes).renderSource_uncached shelved.keeps held
      (key' ▸ stored) still data).symm
  have alike : engine.compileText source = engine.compileText first →
      engine.Serves (compileAll sources engine).2 key source := fun same =>
    served own (mem_of_mem_compileAll answered) (same.trans text)
  refine ⟨own,
    ⟨first, found, served ownFirst (mem_of_mem_compileAll found.mem) text, ?_, alike⟩, ?_⟩
  · rintro ⟨other, compiled, there, _⟩
    rw [after] at there
    have same := there.symm.trans loaded
    rw [Except.ok.injEq] at same
    rw [compiled, text, same]
  · intro alone
    exact alike (alone first (mem_of_mem_compileAll found.mem) ownFirst.symm).symm

/-- The template files of two views whose names differ in a separator. -/
def twinFiles : Memory :=
  [("views/a/b.html".toList, "one".toList), ("views/a_b.html".toList, "two".toList)]

/-- The first of the two views. -/
def nested : TemplateSource := .view "a/b".toList

/-- The second of the two views. -/
def flat : TemplateSource := .view "a_b".toList

/-- The key of both views. -/
def twinKey : ArtifactKey := "dmlld3NfYV9iLmh0bWw".toList

/-- An engine with the two views in memory and an empty disk for its artifacts. -/
def twins : Engine Disk where
  config := { useCached := true }
  directives := Directive.builtins
  components := ⟨[], none⟩
  expander := ⟨"app".toList, 32⟩
  fallback := none
  files _ := twinFiles.files
  shelf := Shelf.onDisk "cache/views".toList
  state := Disk.empty
  writes := 0

/-- The disk of the engine once the directory of its artifacts is there. -/
def readyDisk : Disk :=
  ⟨.directory [("work".toList, .directory [("cache".toList, .directory
    [("views".toList, .directory [])])])], ["work".toList]⟩

/-- The disk of the engine has no artifacts, neither before nor after their directory is made. -/
theorem holds_twins : Shelf.Holds "cache/views".toList (fun _ => none) twins.state := by
  -- The directory is there once it is made, and empty.
  have room : Shelf.Room "cache/views".toList readyDisk
      ["views".toList, "cache".toList, "work".toList] := ⟨rfl, [], rfl⟩
  have ready : Shelf.Holds "cache/views".toList (fun _ => none) readyDisk := by
    refine Shelf.holds_of_load rfl ?_
    intro key plain
    apply Option.eq_none_iff_forall_ne_some.mpr
    intro text loaded
    rw [Shelf.toOption_eq_some_iff] at loaded
    obtain ⟨_, above, found, there⟩ := (Shelf.load_onDisk plain).mp loaded
    cases room.unique found
    have vacant : readyDisk.root.get? ["work".toList, "cache".toList, "views".toList] =
        some (.directory []) := rfl
    rw [show [_, _, _].reverse = ["work".toList, "cache".toList, "views".toList] from rfl,
      Entry.get?_concat vacant] at there
    cases there
  intro times key plain
  cases times with
  | zero =>
    -- Before that, no path leads into it.
    apply Option.eq_none_iff_forall_ne_some.mpr
    intro text loaded
    obtain ⟨_, above, found, _⟩ :=
      (Shelf.load_onDisk plain).mp (Shelf.toOption_eq_some_iff.mp loaded)
    cases found.led
  | succ times => exact ready times key plain

/-- The disk of the engine once the artifact of the first view is there. -/
def servedDisk : Disk :=
  ⟨.directory [("work".toList, .directory [("cache".toList, .directory
    [("views".toList, .directory
      [("dmlld3NfYV9iLmh0bWw.tpl".toList, .file (some "one".toList))])])])], ["work".toList]⟩

/-- The first view has the key. -/
theorem keyOf_nested : twins.keyOf nested = twinKey := by decide +kernel

/-- The second view has the key as well. -/
theorem keyOf_flat : twins.keyOf flat = twinKey := by decide +kernel

/-- The first view is compiled, and its artifact is saved. -/
theorem compile_nested : twins.compile nested = (.ok twinKey, twins.resumed servedDisk 1) := by
  have text : twins.compileText nested = .ok "one".toList := rfl
  rw [← keyOf_nested]
  refine compile_anew ?_ text ?_
  · rw [keyOf_nested]
    rfl
  · rw [keyOf_nested]
    rfl

/-- The second view is answered by the artifact of the first one. -/
theorem compile_flat : (twins.resumed servedDisk 1).compile flat =
    (.ok twinKey, twins.resumed servedDisk 1) := by
  have same : (twins.resumed servedDisk 1).keyOf flat = twinKey := keyOf_flat
  have there : (twins.resumed servedDisk 1).shelf.reusable? true twinKey servedDisk =
      some "one".toList := rfl
  rw [← same] at there
  rw [compile_reused there, same]

/-- The views are answered in order. -/
theorem compileAll_twins :
    compileAll [nested, flat] twins =
      ([(nested, .ok twinKey), (flat, .ok twinKey)], twins.resumed servedDisk 1) := by
  rw [compileAll_cons, compile_nested, compileAll_cons, compile_flat]
  rfl

/-- Two views in different files share a key, and the second one is served the first one's text. -/
theorem not_serves_twin :
    twins.shelf.LiesIn "cache/views".toList id ∧ twins.config.useCached = true ∧
      Shelf.Holds "cache/views".toList (fun _ => none) twins.state ∧
      twins.Steady [nested, flat] ∧
      (compileAll [nested, flat] twins).1 = [(nested, .ok twinKey), (flat, .ok twinKey)] ∧
      twins.compileText nested = .ok "one".toList ∧ twins.compileText flat = .ok "two".toList ∧
      (compileAll [nested, flat] twins).2.shelf.load twinKey
        (compileAll [nested, flat] twins).2.state = .ok "one".toList ∧
      ¬twins.Serves (compileAll [nested, flat] twins).2 twinKey flat := by
  -- The text under the key is that of the first view, and the second one compiles to another.
  have loaded : (twins.resumed servedDisk 1).shelf.load twinKey servedDisk =
      .ok "one".toList := rfl
  have text : twins.compileText flat = .ok "two".toList := rfl
  rw [compileAll_twins]
  refine ⟨⟨fun _ _ => rfl, fun _ _ _ => rfl⟩, rfl, holds_twins,
    steady_of_files (fun _ _ _ => rfl) _, rfl, rfl, text, loaded, ?_⟩
  rintro ⟨artifact, compiled, there, _⟩
  rw [text] at compiled
  cases compiled
  cases loaded.symm.trans there

/-- A view that is compiled again after other markup is served its own text. -/
theorem serves_again :
    twins.shelf.LiesIn "cache/views".toList id ∧ twins.config.useCached = true ∧
      Shelf.Holds "cache/views".toList (fun _ => none) twins.state ∧
      twins.Steady [nested, .unnamed "one".toList, nested] ∧
      (nested, .ok twinKey) ∈
        (compileAll [nested, .unnamed "one".toList, nested] twins).1 ∧
      (∀ other ∈ [nested, .unnamed "one".toList, nested], twins.keyOf other = twinKey →
        twins.compileText other = twins.compileText nested) ∧
      twins.Serves (compileAll [nested, .unnamed "one".toList, nested] twins).2 twinKey nested := by
  have shelved : twins.shelf.LiesIn "cache/views".toList id := ⟨fun _ _ => rfl, fun _ _ _ => rfl⟩
  have steady : twins.Steady [nested, .unnamed "one".toList, nested] :=
    steady_of_files (fun _ _ _ => rfl) _
  -- The first view comes before everything else, so that it is answered by its own artifact.
  have answered : (nested, .ok twinKey) ∈
      (compileAll [nested, .unnamed "one".toList, nested] twins).1 := by
    rw [compileAll_cons, compile_nested]
    exact List.mem_cons_self
  have alike : ∀ other ∈ [nested, .unnamed "one".toList, nested], twins.keyOf other = twinKey →
      twins.compileText other = twins.compileText nested := by
    -- The markup in between has another key.
    intro other listed same
    simp only [List.mem_cons, List.not_mem_nil, or_false] at listed
    obtain rfl | rfl | rfl := listed
    · rfl
    · exact absurd same (by decide +kernel)
    · rfl
  exact ⟨shelved, rfl, holds_twins, steady, answered, alike,
    (compileAll_serves shelved rfl holds_twins steady answered).2.2 alike⟩

end Templates.Engine
