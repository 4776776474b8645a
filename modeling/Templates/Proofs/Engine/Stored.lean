import Mathlib.Data.List.Basic
import Templates.Proofs.Engine.Request

/-!
What stands on the shelf of an engine while it serves requests.

Only compilations put artifacts there, each a complete one under the key of its source, and they are
counted. One that is refused changes nothing. Where artifacts may be used again, they stay as they
are until the shelf is cleared, and then all of them are gone.
-/

namespace Templates

namespace Shelf

/-- A shelf is a table, on which every operation succeeds. -/
structure IsTable {σ : Type} (shelf : Shelf σ) (table : σ → Table) : Prop where
  load : ∀ key state, shelf.load key state =
    match table state key with
    | some text => .ok text
    | none => .error .missing
  possible : ∀ key text state, (shelf.save key text state).1 = true
  saved : ∀ key text state,
    table (shelf.save key text state).2 = Function.update (table state) key (some text)
  cleared : ∀ state, (shelf.clear state).1 = true
  bare : ∀ state key, table (shelf.clear state).2 key = none

/-- A shelf in memory is a table. -/
theorem isTable_inMemory : inMemory.IsTable fun kept key => kept.get? key where
  load key kept := by
    show (match kept.get? key with
      | some text => .ok text
      | none => .error .missing : Except ReadError Text) = _
    cases kept.get? key <;> rfl
  possible _ _ _ := rfl
  saved key text kept := by
    -- A new artifact is found under its own key, and all others are where they were.
    funext other
    by_cases same : other = key
    · subst same
      rw [Function.update_self]
      exact Fields.get?_insert_self ..
    · rw [Function.update_of_ne same]
      exact Fields.get?_insert_of_ne same ..
  cleared _ := rfl
  bare _ _ := rfl

end Shelf

namespace Engine

variable {σ : Type} {engine after : Engine σ} {table : σ → Shelf.Table}

/-- What may be used again is what the table has under the key, if reuse is allowed at all. -/
theorem reusable_eq (shelved : engine.shelf.IsTable table) (source : TemplateSource) :
    engine.shelf.reusable? engine.config.useCached (engine.keyOf source) engine.state =
      if engine.config.useCached then table engine.state (engine.keyOf source) else none := by
  rw [Shelf.reusable?, shelved.load]
  cases table engine.state (engine.keyOf source) <;> rfl

/-- A source is answered by an artifact that is there, or by an error, and then the engine stays as
it is, or it is compiled anew, and its artifact takes the place under its key. -/
theorem compile_table (shelved : engine.shelf.IsTable table) (source : TemplateSource) :
    (Compilation.reuses ⟨engine, source⟩ = true ∧
      engine.compile source = (.ok (engine.keyOf source), engine)) ∨
    (Compilation.reuses ⟨engine, source⟩ = false ∧
      ∃ e, engine.compile source = (.error e, engine)) ∨
    (Compilation.reuses ⟨engine, source⟩ = false ∧
      ∃ artifact state, engine.compileText source = .ok artifact ∧
        engine.compile source =
          (.ok (engine.keyOf source), engine.resumed state (engine.writes + 1)) ∧
        table state =
          Function.update (table engine.state) (engine.keyOf source) (some artifact)) := by
  unfold Compilation.reuses Compilation.key
  dsimp only
  cases there : engine.shelf.reusable? engine.config.useCached (engine.keyOf source)
      engine.state with
  | some old => exact .inl ⟨rfl, compile_reused there⟩
  | none =>
    right
    cases text : engine.compileText source with
    | error e => exact .inl ⟨rfl, e, compile_failed there text⟩
    | ok artifact =>
      -- Saving succeeds, so that there is no other way to fail.
      have possible := shelved.possible (engine.keyOf source) artifact engine.state
      refine .inr ⟨rfl, artifact, _, rfl, compile_anew there text (Prod.ext possible rfl), ?_⟩
      exact shelved.saved (engine.keyOf source) artifact engine.state

/-- An error in compiling a source leaves the engine as it is. -/
theorem eq_of_compile_error (shelved : engine.shelf.IsTable table) {source : TemplateSource}
    {e : Error} (failed : (engine.compile source).1 = .error e) :
    (engine.compile source).2 = engine := by
  obtain ⟨-, compiled⟩ | ⟨-, _, compiled⟩ | ⟨-, artifact, state, -, compiled, -⟩ :=
    compile_table shelved source
  · rw [compiled]
  · rw [compiled]
  · rw [compiled] at failed
    cases failed

/-- The artifacts and the number of saved ones are those that were there and what has been compiled
since: every artifact was there before or is that of a fresh compilation, and each of these is
counted. -/
structure Accounts (table : σ → Shelf.Table) (engine after : Engine σ)
    (done : List (Compilation σ)) : Prop where
  stored : ∀ key text, table after.state key = some text →
    table engine.state key = some text ∨
      ∃ compilation ∈ done, compilation.isFresh = true ∧ compilation.key = key ∧
        compilation.artifact = .ok text
  counted : after.writes = engine.writes + done.countP Compilation.isFresh

/-- What is no artifact adds none. -/
theorem Reset.accounts (reset : Reset engine after) (table : σ → Shelf.Table) :
    Accounts table engine after [] where
  stored key text there := by
    rw [reset.state] at there
    exact .inl there
  counted := by rw [reset.writes]; rfl

/-- Clearing the shelf adds nothing. -/
theorem accounts_clear (shelved : engine.shelf.IsTable table) :
    Accounts table engine engine.clear.2 [] where
  stored key text there := by
    have gone := shelved.bare engine.state key
    rw [show table engine.clear.2.state key = none from gone] at there
    cases there
  counted := rfl

/-- What is added in two parts is added in all. -/
theorem Accounts.append {between : Engine σ} {front back : List (Compilation σ)}
    (first : Accounts table engine between front) (second : Accounts table between after back) :
    Accounts table engine after (front ++ back) where
  stored key text there := by
    -- An artifact of the end comes from the back, or it was there in between.
    obtain middle | ⟨compilation, listed, found⟩ := second.stored key text there
    · obtain early | ⟨compilation, listed, found⟩ := first.stored key text middle
      · exact .inl early
      · exact .inr ⟨compilation, List.mem_append_left _ listed, found⟩
    · exact .inr ⟨compilation, List.mem_append_right _ listed, found⟩
  counted := by
    rw [second.counted, first.counted, List.countP_append]
    omega

/-- One compilation adds its own artifact if it is a fresh one, and else nothing. -/
theorem accounts_compile (shelved : engine.shelf.IsTable table) (source : TemplateSource) :
    Accounts table engine (engine.compile source).2 [⟨engine, source⟩] := by
  have fresh : Compilation.isFresh ⟨engine, source⟩ =
      ((engine.compile source).1.isOk && !Compilation.reuses ⟨engine, source⟩) := rfl
  obtain ⟨reused, compiled⟩ | ⟨-, e, compiled⟩ | ⟨anew, artifact, state, text, compiled, table'⟩ :=
    compile_table shelved source
  · rw [reused, Bool.not_true, Bool.and_false] at fresh
    rw [compiled]
    exact ⟨fun _ _ there => .inl there, by simp [fresh]⟩
  · have refused : Compilation.isFresh ⟨engine, source⟩ = false := by
      rw [fresh, compiled]
      rfl
    rw [compiled]
    exact ⟨fun _ _ there => .inl there, by simp [refused]⟩
  · have added : Compilation.isFresh ⟨engine, source⟩ = true := by
      rw [fresh, compiled, anew]
      rfl
    rw [compiled]
    refine ⟨fun key text' there => ?_, by simp [added, resumed]⟩
    -- Under the key of the source is its own artifact, and the others were there before.
    rw [show table (engine.resumed state (engine.writes + 1)).state = table state from rfl, table',
      Function.update_apply] at there
    split at there
    · rename_i same
      cases there
      exact .inr ⟨_, List.mem_singleton_self _, added, same.symm, text⟩
    · exact .inl there

/-- Compilations add their artifacts. -/
theorem Compiles.accounts {done : List (Compilation σ)} (compiles : Compiles engine done after)
    (shelved : engine.shelf.IsTable table) : Accounts table engine after done := by
  induction compiles with
  | nil engine => exact (Reset.refl engine).accounts table
  | @cons engine after source rest _ ih =>
    -- The shelf is the same after the first source.
    have same := (Compiles.single engine source).fixed.shelf
    exact (accounts_compile shelved source).append (ih (same ▸ shelved))

/-- A request adds the artifacts of its compilations. -/
theorem accounts_serve (shelved : engine.shelf.IsTable table) (request : Request σ) :
    Accounts table engine (engine.serve request) (engine.compilations request) := by
  obtain compiles | ⟨none, ⟨-, cleared⟩ | reset⟩ := engine.serve_cases request
  · exact compiles.accounts shelved
  · rw [none, cleared]
    exact accounts_clear shelved
  · rw [none]
    exact reset.accounts table

/-- Several requests add the artifacts of all their compilations. -/
theorem accounts_serveAll (requests : List (Request σ)) (shelved : engine.shelf.IsTable table) :
    Accounts table engine (serveAll requests engine) (allCompilations requests engine) := by
  -- The induction is on the requests, with the engine as the first one leaves it.
  induction requests generalizing engine with
  | nil => exact (Reset.refl engine).accounts table
  | cons request rest ih =>
    have same := (engine.fixed_serve request).shelf
    exact (accounts_serve shelved request).append (ih (same ▸ shelved))

/-- An artifact that may be used again is not replaced by a compilation. -/
theorem kept_compile (shelved : engine.shelf.IsTable table)
    (reuse : engine.config.useCached = true) {key : ArtifactKey} {text : Text}
    (there : table engine.state key = some text) (source : TemplateSource) :
    table (engine.compile source).2.state key = some text := by
  obtain ⟨-, compiled⟩ | ⟨-, _, compiled⟩ | ⟨anew, artifact, state, -, compiled, table'⟩ :=
    compile_table shelved source
  · rw [compiled]
    exact there
  · rw [compiled]
    exact there
  · -- A source with that key would have been answered by the artifact.
    have other : key ≠ engine.keyOf source := by
      rintro rfl
      unfold Compilation.reuses Compilation.key at anew
      rw [reusable_eq shelved, if_pos reuse, there] at anew
      cases anew
    rw [compiled]
    show table state key = some text
    rw [table', Function.update_of_ne other, there]

/-- Nor is it by several compilations. -/
theorem Compiles.kept {done : List (Compilation σ)} (compiles : Compiles engine done after)
    (shelved : engine.shelf.IsTable table) (reuse : engine.config.useCached = true)
    {key : ArtifactKey} {text : Text} (there : table engine.state key = some text) :
    table after.state key = some text := by
  induction compiles with
  | nil engine => exact there
  | @cons engine after source rest _ ih =>
    have fixed := (Compiles.single engine source).fixed
    exact ih (fixed.shelf ▸ shelved) (fixed.useCached.trans reuse)
      (kept_compile shelved reuse there source)

/-- An artifact that may be used again stays as it is until the shelf is cleared. -/
theorem kept_serveAll {requests : List (Request σ)} (unclear : .clear ∉ requests)
    (shelved : engine.shelf.IsTable table) (reuse : engine.config.useCached = true)
    {key : ArtifactKey} {text : Text} (there : table engine.state key = some text) :
    table (serveAll requests engine).state key = some text := by
  induction requests generalizing engine with
  | nil => exact there
  | cons request rest ih =>
    obtain ⟨other, unclear⟩ := List.ne_and_not_mem_of_not_mem_cons unclear
    have fixed := engine.fixed_serve request
    have still : table (engine.serve request).state key = some text := by
      obtain compiles | ⟨-, ⟨isClear, -⟩ | reset⟩ := engine.serve_cases request
      · exact compiles.kept shelved reuse there
      · exact absurd isClear.symm other
      · rw [reset.state]
        exact there
    exact ih unclear (fixed.shelf ▸ shelved) (fixed.useCached.trans reuse) still

/-- An artifact under the key of a source that has just been compiled. -/
theorem stored_of_compile (shelved : engine.shelf.IsTable table)
    (reuse : engine.config.useCached = true) {source : TemplateSource} {key : ArtifactKey}
    (answered : (engine.compile source).1 = .ok key) :
    key = engine.keyOf source ∧ ∃ text, table (engine.compile source).2.state key = some text := by
  have own := eq_keyOf_of_compile answered
  subst own
  refine ⟨rfl, ?_⟩
  obtain ⟨reused, compiled⟩ | ⟨-, e, compiled⟩ | ⟨-, artifact, state, -, compiled, table'⟩ :=
    compile_table shelved source
  · -- What is used again was there before.
    unfold Compilation.reuses Compilation.key at reused
    rw [reusable_eq shelved, if_pos reuse, Option.isSome_iff_exists] at reused
    rw [compiled]
    exact reused
  · rw [compiled] at answered
    cases answered
  · rw [compiled]
    refine ⟨artifact, ?_⟩
    show table state (engine.keyOf source) = some artifact
    rw [table', Function.update_self]

/-- A source whose key has an artifact is answered by it, and the engine stays as it is. -/
theorem compile_of_stored (shelved : engine.shelf.IsTable table)
    (reuse : engine.config.useCached = true) {source : TemplateSource} {text : Text}
    (there : table engine.state (engine.keyOf source) = some text) :
    engine.compile source = (.ok (engine.keyOf source), engine) := by
  have reusable := reusable_eq shelved source
  rw [if_pos reuse, there] at reusable
  exact compile_reused reusable

/-- On a shelf that is a table, whatever requests have been served: every artifact was there before
or is all that a source with its key compiled to, in one of the compilations; as many artifacts have
been saved as compilations succeeded that did not use an old one again; a compilation that fails
leaves the engine as it is. Where artifacts may be used again, a source that has been compiled is
answered with the same key until the shelf is cleared, nothing is saved, and its artifact stays as
it is, whatever happens to the templates. On a shelf that has been cleared nothing is found. -/
theorem serveAll_accounts {engine : Engine σ} {table : σ → Shelf.Table}
    (shelved : engine.shelf.IsTable table) (requests : List (Request σ)) :
    (∀ key text, table (serveAll requests engine).state key = some text →
      table engine.state key = some text ∨
        ∃ compilation ∈ allCompilations requests engine, compilation.isFresh = true ∧
          compilation.key = key ∧ compilation.artifact = .ok text) ∧
    (serveAll requests engine).writes =
      engine.writes + (allCompilations requests engine).countP Compilation.isFresh ∧
    (∀ source e, ((serveAll requests engine).compile source).1 = .error e →
      ((serveAll requests engine).compile source).2 = serveAll requests engine) ∧
    (engine.config.useCached = true →
      ∀ source key later, ((serveAll requests engine).compile source).1 = .ok key →
        .clear ∉ later →
        (serveAll (requests ++ .compile source :: later) engine).compile source =
          (.ok key, serveAll (requests ++ .compile source :: later) engine) ∧
        ∃ text, table (serveAll (requests ++ [.compile source]) engine).state key = some text ∧
          table (serveAll (requests ++ .compile source :: later) engine).state key = some text) ∧
    ((serveAll requests engine).clear.1 = true →
      ∀ key, engine.shelf.fetch key (serveAll requests engine).clear.2.state =
        .error (.artifactMissing key)) := by
  have accounts := accounts_serveAll requests shelved
  have fixed := fixed_serveAll requests engine
  have shelvedThen : (serveAll requests engine).shelf.IsTable table := fixed.shelf ▸ shelved
  refine ⟨accounts.stored, accounts.counted, fun _ _ => eq_of_compile_error shelvedThen, ?_, ?_⟩
  · intro reuse source key later answered unclear
    have reuseThen := fixed.useCached.trans reuse
    obtain ⟨rfl, text, stored⟩ := stored_of_compile shelvedThen reuseThen answered
    -- The engine behind the first compilation is left alone by what comes later.
    have first := (serveAll requests engine).fixed_serve (.compile source)
    have others := fixed_serveAll later ((serveAll requests engine).serve (.compile source))
    have all := first.trans others
    have still := kept_serveAll unclear (first.shelf ▸ shelvedThen)
      (first.useCached.trans reuseThen) stored
    rw [serveAll_append, serveAll_append, serveAll_cons]
    refine ⟨?_, text, stored, still⟩
    rw [← all.keyOf source] at still ⊢
    exact compile_of_stored (all.shelf ▸ shelvedThen) (all.useCached.trans reuseThen) still
  · intro _ key
    have gone := shelvedThen.bare (serveAll requests engine).state key
    rw [Shelf.fetch, shelved.load]
    rw [show table (serveAll requests engine).clear.2.state key = none from gone]

/-- An engine with a page in memory, whose artifacts may be used again. -/
def pantry : Engine (Fields Text) where
  config := { useCached := true }
  directives := Directive.builtins
  components := ⟨[], none⟩
  expander := ⟨"app".toList, 32⟩
  fallback := none
  files _ := Memory.files [("views/page.html".toList, "\x7b\x7b a \x7d\x7d".toList)]
  shelf := Shelf.inMemory
  state := []
  writes := 0

/-- The page of the engine. -/
def pantryPage : TemplateSource := .view "page".toList

/-- The page is refused under a name that it does not have, then compiled, and then its file is
gone. -/
def pantryRequests : List (Request (Fields Text)) :=
  [.make "none".toList [], .compile pantryPage, .setPrefix "x".toList,
    .changeFiles fun _ => Memory.files []]

/-- The page is answered with its artifact when its file is gone, one artifact has been saved, and
after clearing there is none. -/
theorem serveAll_pantry :
    pantry.shelf.IsTable (fun kept key => kept.get? key) ∧
      (serveAll pantryRequests pantry).writes = 1 ∧
      (serveAll pantryRequests pantry).compile pantryPage =
        (.ok (pantry.keyOf pantryPage), serveAll pantryRequests pantry) ∧
      (serveAll pantryRequests pantry).state.get? (pantry.keyOf pantryPage) =
        some "<%= a %>".toList ∧
      pantry.shelf.fetch (pantry.keyOf pantryPage)
          (serveAll pantryRequests pantry).clear.2.state =
        .error (.artifactMissing (pantry.keyOf pantryPage)) := by
  have shelved : pantry.shelf.IsTable fun kept key => kept.get? key := Shelf.isTable_inMemory
  -- The first request is refused, and the second one compiles the page.
  obtain ⟨-, -, -, again, -⟩ := serveAll_accounts shelved [.make "none".toList []]
  have answered : ((serveAll [.make "none".toList []] pantry).compile pantryPage).1 =
      .ok (pantry.keyOf pantryPage) := by decide +kernel
  obtain ⟨same, text, stored, kept⟩ := again rfl pantryPage _
    [.setPrefix "x".toList, .changeFiles fun _ => Memory.files []] answered (by simp)
  obtain ⟨-, counted, -, -, gone⟩ := serveAll_accounts shelved pantryRequests
  have fresh : (allCompilations pantryRequests pantry).countP Compilation.isFresh = 1 := by
    decide +kernel
  have written : (serveAll [.make "none".toList [], .compile pantryPage] pantry).state.get?
      (pantry.keyOf pantryPage) = some "<%= a %>".toList := by decide +kernel
  obtain rfl := Option.some.inj (stored.symm.trans written)
  exact ⟨shelved, by rw [counted, fresh]; rfl, same, kept, gone rfl _⟩

end Engine

end Templates
