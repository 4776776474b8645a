import Mathlib.Data.List.Basic
import Templates.Proofs.Engine.Identity
import Templates.Proofs.Engine.Request
import Templates.Proofs.Text.Trim

/-!
Settings of an engine that are kept in two places.

The directory of components is always the same in both. The beginning of custom tags is so once it
has been set anew, but an engine is created with what its settings say, while its expander takes no
blanks around it and no capital letters.
-/

namespace Templates

namespace Expander

/-- The beginning of custom tags as an expander keeps it. -/
def normalize (word : Text) : Text :=
  Text.asciiLower (Text.trim word)

/-- Only what is blank cannot be the beginning of custom tags. -/
theorem create_eq (word : Text) (maxDepth : Nat) :
    create word maxDepth =
      if Text.isAllBlank word then .error (.blankArgument .componentPrefix)
      else .ok ⟨normalize word, maxDepth⟩ := by
  have blank : normalize word = [] ↔ Text.isAllBlank word = true := by
    rw [normalize, Text.asciiLower, List.map_eq_nil_iff, Text.trim_eq_nil_iff]
  rw [create, show Text.asciiLower (Text.trim word) = normalize word from rfl]
  split
  · rename_i empty
    rw [if_pos (blank.mp empty)]
  · rename_i filled
    rw [if_neg fun isBlank => filled (blank.mpr isBlank)]

/-- An element is a custom tag, and a use of a component, exactly when its name in small letters is
the tag of the component behind the common beginning. -/
theorem isCustom_and_tag_iff (expander : Expander) (e : Markup.Element) (tag : Text) :
    expander.isCustom e = true ∧ (expander.callOf e).tag = tag ↔
      Text.asciiLower e.name = expander.start ++ tag := by
  unfold isCustom callOf Text.startsWith
  dsimp only
  constructor
  · rintro ⟨custom, same⟩
    obtain ⟨rest, stripped⟩ := Option.isSome_iff_exists.mp custom
    rw [stripped] at same
    obtain rfl : rest = tag := same
    exact Text.eq_append_of_strip? stripped
  · intro name
    rw [name, Text.strip?_append]
    exact ⟨rfl, rfl⟩

end Expander

namespace Engine

variable {σ : Type} {engine after : Engine σ}

/-- The word that was given last for the beginning of custom tags, where blank ones do not count. -/
def givenPrefix : List (Request σ) → Text → Text
  | [], word => word
  | .setPrefix new :: rest, word => givenPrefix rest (if Text.isAllBlank new then word else new)
  | _ :: rest, word => givenPrefix rest word

/-- A new word for the beginning of custom tags that is not blank. -/
def SetsPrefix (requests : List (Request σ)) : Prop :=
  ∃ word, .setPrefix word ∈ requests ∧ Text.isAllBlank word = false

/-- The beginning of custom tags is the same in the settings and in the expander. -/
def PrefixAgrees (engine : Engine σ) : Prop :=
  engine.config.componentPrefix = engine.expander.tagPrefix

/-- The directory of components is the same in the settings and where components are looked up. -/
def DirectoryAgrees (engine : Engine σ) : Prop :=
  engine.config.autoloadComponents = engine.components.directory

/-- Nothing has changed about the two settings. -/
structure Unset (engine after : Engine σ) : Prop where
  prefixes : after.config.componentPrefix = engine.config.componentPrefix
  expander : after.expander = engine.expander
  directories : after.config.autoloadComponents = engine.config.autoloadComponents
  lookup : after.components.directory = engine.components.directory

/-- A change that fails or leaves the two settings changes nothing about them. -/
theorem unset_changed {α : Type} {new : Except Error α} {write : α → Engine σ}
    (leaves : ∀ part, new = .ok part → Unset engine (write part)) :
    Unset engine (engine.changed (do return write (← new))) := by
  cases isNew : new with
  | error _ => exact ⟨rfl, rfl, rfl, rfl⟩
  | ok part => exact leaves part isNew

/-- A new component is looked up where the others are. -/
theorem directory_register {components after : Components} {tag : Text} {component : Component}
    (registered : components.register tag component = .ok after) :
    after.directory = components.directory := by
  unfold Components.register at registered
  dsimp only at registered
  split at registered
  · cases registered
  · split at registered
    · cases registered
    · cases registered
      rfl

/-- Compilations change nothing about the two settings. -/
theorem Compiles.unset {done : List (Compilation σ)} (compiles : Compiles engine done after) :
    Unset engine after := by
  obtain ⟨state, writes, rfl⟩ := compiles.exists_resumed
  exact ⟨rfl, rfl, rfl, rfl⟩

/-- The two settings are changed by the requests for it only, and in both places. -/
theorem serve_settings (engine : Engine σ) (request : Request σ) :
    (∃ word, request = .setPrefix word ∧ Text.isAllBlank word = false ∧
      engine.serve request = { engine with
        expander := ⟨Expander.normalize word, engine.config.maxDepth⟩
        config := { engine.config with componentPrefix := Expander.normalize word } }) ∨
    (∃ directory, request = .setDirectory directory ∧
      engine.serve request = engine.setDirectory directory) ∨
    ((∀ word, request = .setPrefix word → Text.isAllBlank word = true) ∧
      Unset engine (engine.serve request)) := by
  cases request with
  | compile source => exact .inr (.inr ⟨by simp, (Compiles.single engine source).unset⟩)
  | make view data => exact .inr (.inr ⟨by simp, (engine.compiles_make view data).unset⟩)
  | renderInline markup data =>
    refine .inr (.inr ⟨by simp, ?_⟩)
    rw [serve, renderInline, snd_renderSource]
    exact (Compiles.single engine _).unset
  | render key data => exact .inr (.inr ⟨by simp, ⟨rfl, rfl, rfl, rfl⟩⟩)
  | component tag data => exact .inr (.inr ⟨by simp, ⟨rfl, rfl, rfl, rfl⟩⟩)
  | registerDirective directive =>
    exact .inr (.inr ⟨by simp, unset_changed fun _ _ => ⟨rfl, rfl, rfl, rfl⟩⟩)
  | registerComponent tag component =>
    refine .inr (.inr ⟨by simp, unset_changed fun components registered => ?_⟩)
    exact ⟨rfl, rfl, rfl, directory_register registered⟩
  | setFallback view =>
    -- The fallback is kept by itself, and not in the settings.
    refine .inr (.inr ⟨by simp, ?_⟩)
    rw [serve]
    cases isSet : engine.setFallback view with
    | error _ => exact ⟨rfl, rfl, rfl, rfl⟩
    | ok after =>
      obtain ⟨path, rfl⟩ := exists_of_setFallback isSet
      exact ⟨rfl, rfl, rfl, rfl⟩
  | setPrefix word =>
    rw [serve, setPrefix, Expander.create_eq]
    cases blank : Text.isAllBlank word with
    | true =>
      -- A blank word is refused.
      refine .inr (.inr ⟨?_, ⟨rfl, rfl, rfl, rfl⟩⟩)
      rintro _ ⟨⟩
      exact blank
    | false => exact .inl ⟨word, rfl, blank, rfl⟩
  | setDirectory directory => exact .inr (.inl ⟨directory, rfl, rfl⟩)
  | clear => exact .inr (.inr ⟨by simp, ⟨rfl, rfl, rfl, rfl⟩⟩)
  | changeFiles files => exact .inr (.inr ⟨by simp, ⟨rfl, rfl, rfl, rfl⟩⟩)

/-- The directory of components stays the same in both places. -/
theorem directoryAgrees_serveAll (requests : List (Request σ)) (agrees : engine.DirectoryAgrees) :
    (serveAll requests engine).DirectoryAgrees := by
  induction requests generalizing engine with
  | nil => exact agrees
  | cons request rest ih =>
    refine ih ?_
    unfold DirectoryAgrees at agrees ⊢
    obtain ⟨word, -, -, after⟩ | ⟨directory, -, after⟩ | ⟨-, unset⟩ := engine.serve_settings request
    · rw [after]
      exact agrees
    · rw [after]
      rfl
    · rw [unset.directories, unset.lookup, agrees]

/-- Once the beginning of custom tags is the same in both places it stays so. -/
theorem prefixAgrees_serveAll (requests : List (Request σ)) (agrees : engine.PrefixAgrees) :
    (serveAll requests engine).PrefixAgrees := by
  induction requests generalizing engine with
  | nil => exact agrees
  | cons request rest ih =>
    refine ih ?_
    unfold PrefixAgrees at agrees ⊢
    obtain ⟨word, -, -, after⟩ | ⟨directory, -, after⟩ | ⟨-, unset⟩ := engine.serve_settings request
    · rw [after]
    · rw [after]
      exact agrees
    · rw [unset.prefixes, unset.expander, agrees]

/-- A new word for the beginning of custom tags is the same in both places from then on. -/
theorem prefixAgrees_of_setsPrefix {requests : List (Request σ)} (sets : SetsPrefix requests) :
    (serveAll requests engine).PrefixAgrees := by
  obtain ⟨word, listed, filled⟩ := sets
  -- Whatever came before the word, both places have it afterwards.
  obtain ⟨front, back, rfl⟩ := List.append_of_mem listed
  rw [serveAll_append, serveAll_cons]
  refine prefixAgrees_serveAll back ?_
  unfold PrefixAgrees
  rw [serve, setPrefix, Expander.create_eq, filled]
  rfl

/-- Without a new word the beginning of custom tags stays as it is in both places. -/
theorem prefix_of_not_setsPrefix {requests : List (Request σ)} (kept : ¬SetsPrefix requests) :
    (serveAll requests engine).config.componentPrefix = engine.config.componentPrefix ∧
      (serveAll requests engine).expander.tagPrefix = engine.expander.tagPrefix := by
  induction requests generalizing engine with
  | nil => exact ⟨rfl, rfl⟩
  | cons request rest ih =>
    have later : ¬SetsPrefix rest := fun ⟨word, listed, filled⟩ =>
      kept ⟨word, List.mem_cons_of_mem _ listed, filled⟩
    obtain ⟨prefixes, tagPrefixes⟩ := @ih (engine.serve request) later
    rw [serveAll_cons, prefixes, tagPrefixes]
    obtain ⟨word, same, filled, -⟩ | ⟨directory, -, after⟩ | ⟨-, unset⟩ :=
      engine.serve_settings request
    · exact absurd ⟨word, same ▸ List.mem_cons_self, filled⟩ kept
    · rw [after]
      exact ⟨rfl, rfl⟩
    · exact ⟨unset.prefixes, congrArg Expander.tagPrefix unset.expander⟩

/-- The expander has the word that was given last. -/
theorem tagPrefix_serveAll (requests : List (Request σ)) {word : Text}
    (given : engine.expander.tagPrefix = Expander.normalize word) :
    (serveAll requests engine).expander.tagPrefix =
      Expander.normalize (givenPrefix requests word) := by
  induction requests generalizing engine word with
  | nil => exact given
  | cons request rest ih =>
    obtain ⟨new, rfl, filled, after⟩ | ⟨directory, rfl, after⟩ | ⟨blank, unset⟩ :=
      engine.serve_settings request
    · rw [givenPrefix, filled]
      exact ih (by rw [after]; rfl)
    · exact ih (by rw [after]; exact given)
    · -- A request that changes nothing gives no word, or a blank one, which does not count.
      have same : givenPrefix (request :: rest) word = givenPrefix rest word := by
        cases request with
        | setPrefix new => rw [givenPrefix, if_pos (blank new rfl)]
        | _ => rfl
      rw [same]
      exact ih (by rw [unset.expander, given])

/-- A tag that is given with the common beginning stands for the component without it, and so does a
tag that does not have this beginning itself. -/
theorem component_of_agrees (agrees : engine.PrefixAgrees) (tag : Text) (data : Data) :
    engine.component (engine.expander.start ++ tag) data = engine.workshop.component tag data ∧
      (Text.startsWith engine.expander.start tag = false →
        engine.component tag data = engine.workshop.component tag data) := by
  unfold component
  dsimp only
  rw [show engine.config.componentPrefix ++ ['-'] = engine.expander.start from
    congrArg (· ++ ['-']) agrees]
  refine ⟨by rw [Text.strip?_append]; rfl, fun other => ?_⟩
  rw [Text.startsWith, Option.isSome_eq_false_iff, Option.isNone_iff_eq_none] at other
  rw [other]
  rfl

/-- For an engine that has been created and whatever it has served since: the directory of
components is the same in both places; the expander has the word that was given last for the
beginning of custom tags, without blanks around it and in small letters; and the settings have the
same exactly if a new word has been given or the first one was written like that. Then a component
is the same with the beginning in front of its tag, with which the expander knows it in markup, and
without, unless its own tag has this beginning. -/
theorem settings_agree {config : Config} {files : σ → Files} {shelf : Shelf σ} {state : σ}
    (created : create config files shelf state = .ok engine) (requests : List (Request σ)) :
    (serveAll requests engine).DirectoryAgrees ∧
    (serveAll requests engine).expander.tagPrefix =
      Expander.normalize (givenPrefix requests config.componentPrefix) ∧
    ((serveAll requests engine).PrefixAgrees ↔
      SetsPrefix requests ∨ Expander.normalize config.componentPrefix = config.componentPrefix) ∧
    (∀ e tag,
      (serveAll requests engine).expander.isCustom e = true ∧
          ((serveAll requests engine).expander.callOf e).tag = tag ↔
        Text.asciiLower e.name = (serveAll requests engine).expander.start ++ tag) ∧
    ((serveAll requests engine).PrefixAgrees → ∀ tag data,
      (serveAll requests engine).component
          ((serveAll requests engine).expander.start ++ tag) data =
        (serveAll requests engine).workshop.component tag data ∧
      (Text.startsWith (serveAll requests engine).expander.start tag = false →
        (serveAll requests engine).component tag data =
          (serveAll requests engine).component
            ((serveAll requests engine).expander.start ++ tag) data)) := by
  obtain ⟨valid, expander, fallback, made, rfl⟩ := exists_of_create created
  rw [Expander.create_eq] at made
  split at made
  · cases made
  obtain rfl := Except.ok.inj made
  refine ⟨directoryAgrees_serveAll requests rfl, tagPrefix_serveAll requests rfl, ?_,
    Expander.isCustom_and_tag_iff _, fun agrees tag data => ?_⟩
  · by_cases sets : SetsPrefix requests
    · exact iff_of_true (prefixAgrees_of_setsPrefix sets) (.inl sets)
    · -- Both places are as they were in the beginning.
      obtain ⟨prefixes, tagPrefixes⟩ := prefix_of_not_setsPrefix sets
      rw [PrefixAgrees, prefixes, tagPrefixes, or_iff_right sets]
      exact eq_comm
  · obtain ⟨long, short⟩ := component_of_agrees agrees tag data
    exact ⟨long, fun other => (short other).trans long.symm⟩

/-- An engine for custom tags whose beginning is given with a capital letter. -/
def capitalEngine : Engine (Fields Text) where
  config := { componentPrefix := "App".toList }
  directives := Directive.builtins
  components := ⟨[], none⟩
  expander := ⟨"app".toList, 32⟩
  fallback := none
  files _ := Memory.files []
  shelf := Shelf.inMemory
  state := []
  writes := 0

/-- A component is registered with the engine. -/
def cardRequest : Request (Fields Text) :=
  .registerComponent "card".toList ⟨.template (.inline ['x']), []⟩

/-- The settings keep the capital letter that the expander does not, so that the component is not
found with the beginning that custom tags have. -/
theorem component_misses_capital :
    create { componentPrefix := "App".toList } (fun _ => Memory.files []) Shelf.inMemory [] =
        .ok capitalEngine ∧
      ¬(serveAll [cardRequest] capitalEngine).PrefixAgrees ∧
      (serveAll [cardRequest] capitalEngine).expander.start = "app-".toList ∧
      (serveAll [cardRequest] capitalEngine).component "card".toList [] = .ok ['x'] ∧
      (serveAll [cardRequest] capitalEngine).component "app-card".toList [] =
        .error (.componentMissing "app-card".toList []) :=
  ⟨rfl, show ¬"App".toList = "app".toList by decide, rfl, by decide +kernel, by decide +kernel⟩

/-- The component is registered, then the beginning of custom tags is set anew, and then to a blank
word, which is refused. -/
def newWords : List (Request (Fields Text)) :=
  [cardRequest, .setPrefix " UI ".toList, .setPrefix [' ']]

/-- The component is found with the new beginning and without. -/
theorem settings_agree_renamed :
    create { componentPrefix := "App".toList } (fun _ => Memory.files []) Shelf.inMemory [] =
        .ok capitalEngine ∧
      (serveAll newWords capitalEngine).expander.start = "ui-".toList ∧
      (serveAll newWords capitalEngine).PrefixAgrees ∧
      (serveAll newWords capitalEngine).component "ui-card".toList [] = .ok ['x'] ∧
      (serveAll newWords capitalEngine).component "card".toList [] =
        (serveAll newWords capitalEngine).component "ui-card".toList [] := by
  have created : create { componentPrefix := "App".toList } (fun _ => Memory.files [])
      Shelf.inMemory [] = .ok capitalEngine := rfl
  obtain ⟨-, -, agrees, -, found⟩ := settings_agree created newWords
  have now := agrees.mpr (.inl ⟨" UI ".toList, by simp [newWords], rfl⟩)
  exact ⟨created, rfl, now, by decide +kernel, (found now "card".toList []).2 (by decide)⟩

end Engine

end Templates
