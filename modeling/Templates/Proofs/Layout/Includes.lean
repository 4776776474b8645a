import Mathlib.Data.List.Nodup
import Templates.Layout.Block
import Templates.Proofs.Text.Scan

/-!
What a source with includes comes to.

A source leads along the paths of files, each of which the text before it asks for. When no path of
includes comes back to a file it has passed, nor grows too long, nor ends at a file that cannot be
read, each include gives way to the expansion of its file. Otherwise the source is refused. The chain
of files holds the origin from the beginning, so it is one longer than the path of includes that
leads to a file, and a source whose files nest as deep as the bound says is refused.
-/

namespace Templates.Layout

open Text

/-- The paths of the files that a source asks for, in order. -/
def asked (config : Config) (source : Text) : List Path :=
  (hits (scan includeRule source)).map config.viewPath

/-- A source leads along paths to a text: the text before a path asks for it, and the last text is
that of the file at the last path. -/
inductive Leads (files : Files) (config : Config) : Text → List Path → Text → Prop
  | here {source : Text} : Leads files config source [] source
  | onward {source text last : Text} {path : Path} {paths : List Path} :
    path ∈ asked config source → files.read path = .ok text →
      Leads files config text paths last → Leads files config source (path :: paths) last

/-- Paths on which a source includes one file after another, where the last file need not be there
to be read. -/
def IncludePath (files : Files) (config : Config) (source : Text) (paths : List Path) : Prop :=
  ∃ front text, Leads files config source front text ∧
    (paths = front ∨ ∃ path ∈ asked config text, paths = front ++ [path])

/-- A source expands to itself with the expansion of each file in place of the comments that include
it. -/
inductive Expands (files : Files) (config : Config) : Text → Text → Prop
  | splice {source : Text} {texts expansions : Text → Text} :
    (∀ target ∈ hits (scan includeRule source),
      files.read (config.viewPath target) = .ok (texts target)) →
    (∀ target ∈ hits (scan includeRule source),
      Expands files config (texts target) (expansions target)) →
    Expands files config source (replaceHits expansions (scan includeRule source))

/-- Behind a chain of files, no path of includes comes back to a file, grows too long, or holds a
file that cannot be read. -/
def Admissible (files : Files) (config : Config) (chain : List Path) (source : Text) : Prop :=
  ∀ paths, IncludePath files config source paths →
    (chain ++ paths).Nodup ∧ (chain ++ paths).length ≤ config.maxDepth ∧
      ∀ path ∈ paths, ∃ text, files.read path = .ok text

variable {files : Files} {config : Config} {source text out : Text} {path origin : Path}
  {paths chain : List Path} {depth : Nat}

/-- The file at a path that a source asks for is that of one of its targets. -/
theorem mem_asked : path ∈ asked config source ↔
    ∃ target ∈ hits (scan includeRule source), config.viewPath target = path :=
  List.mem_map

/-- Ways of includes are put together. -/
theorem Leads.append {last : Text} {more : List Path} (first : Leads files config source paths text)
    (second : Leads files config text more last) :
    Leads files config source (paths ++ more) last := by
  induction first with
  | here => exact second
  | onward asks read _ ih => exact .onward asks read (ih second)

namespace IncludePath

/-- Every source has the path that goes nowhere. -/
theorem nil : IncludePath files config source [] :=
  ⟨[], source, .here, .inl rfl⟩

/-- What a source asks for is a path by itself. -/
theorem single (asks : path ∈ asked config source) : IncludePath files config source [path] :=
  ⟨[], source, .here, .inr ⟨path, asks, rfl⟩⟩

/-- A path of the text of a file goes on from the path of the file. -/
theorem cons (asks : path ∈ asked config source) (read : files.read path = .ok text)
    (below : IncludePath files config text paths) :
    IncludePath files config source (path :: paths) := by
  obtain ⟨front, last, leads, ends⟩ := below
  refine ⟨path :: front, last, .onward asks read leads, ?_⟩
  rcases ends with rfl | ⟨other, asksOther, rfl⟩
  · exact .inl rfl
  · exact .inr ⟨other, asksOther, rfl⟩

/-- A path goes nowhere, or first to a file that the source asks for and then on from its text, as
far as that can be read. -/
theorem cases (includes : IncludePath files config source paths) :
    paths = [] ∨ ∃ path rest, path ∈ asked config source ∧ paths = path :: rest ∧
      (rest = [] ∨ ∃ text, files.read path = .ok text ∧ IncludePath files config text rest) := by
  obtain ⟨front, last, leads, ends⟩ := includes
  cases leads with
  | here =>
    rcases ends with rfl | ⟨path, asks, rfl⟩
    · exact .inl rfl
    · exact .inr ⟨path, [], asks, rfl, .inl rfl⟩
  | onward asks read leads =>
    -- What follows the first file is a path of its text.
    rcases ends with rfl | ⟨other, asksOther, rfl⟩
    · exact .inr ⟨_, _, asks, rfl, .inr ⟨_, read, _, _, leads, .inl rfl⟩⟩
    · exact .inr ⟨_, _, asks, rfl, .inr ⟨_, read, _, _, leads, .inr ⟨other, asksOther, rfl⟩⟩⟩

end IncludePath

/-- All hits are replaced when each of them can be. -/
theorem spliceAll_eq_ok {α : Type} {splice : α → Except Error Text} {new : α → Text}
    {pieces : List (Text.Piece α)} (each : ∀ value ∈ hits pieces, splice value = .ok (new value)) :
    spliceAll splice pieces = .ok (replaceHits new pieces) := by
  induction pieces with
  | nil => rfl
  | cons piece pieces ih =>
    cases piece with
    | plain c => simp [spliceAll, ih each, Except.map, replaceHits]
    | hit value =>
      obtain ⟨here, others⟩ := List.forall_mem_cons.mp each
      simp [spliceAll, here, ih others, Except.map, replaceHits]

/-- Where all hits are replaced each of them can be. -/
theorem exists_of_spliceAll {α : Type} {splice : α → Except Error Text} {pieces : List (Text.Piece α)}
    (all : spliceAll splice pieces = .ok out) :
    ∃ new : α → Text, (∀ value ∈ hits pieces, splice value = .ok (new value)) ∧
      out = replaceHits new pieces := by
  -- The replacement of a value is what it is answered with.
  have each : ∀ value ∈ hits pieces, splice value = .ok ((splice value).toOption.getD []) := by
    induction pieces generalizing out with
    | nil => simp [hits]
    | cons piece pieces ih =>
      cases piece with
      | plain c =>
        cases others : spliceAll splice pieces with
        | error e => simp [spliceAll, others, Except.map] at all
        | ok rest => exact ih others
      | hit value =>
        cases here : splice value with
        | error e => simp [spliceAll, here] at all
        | ok new =>
          cases others : spliceAll splice pieces with
          | error e => simp [spliceAll, here, others, Except.map] at all
          | ok rest =>
            intro other member
            rcases List.mem_cons.mp member with rfl | member
            · simp [here, Except.toOption]
            · exact ih others other member
  refine ⟨_, each, ?_⟩
  rw [spliceAll_eq_ok each] at all
  exact (Except.ok.inj all).symm

/-- Where not all hits are replaced one of them cannot be. -/
theorem exists_of_spliceAll_error {α : Type} {splice : α → Except Error Text}
    {pieces : List (Text.Piece α)} {e : Error} (failed : spliceAll splice pieces = .error e) :
    ∃ value ∈ hits pieces, splice value = .error e := by
  induction pieces with
  | nil => cases failed
  | cons piece pieces ih =>
    cases piece with
    | plain c =>
      cases others : spliceAll splice pieces with
      | ok rest => simp [spliceAll, others, Except.map] at failed
      | error e' =>
        simp only [spliceAll, others, Except.map, Except.error.injEq] at failed
        exact ih (failed ▸ others)
    | hit value =>
      cases here : splice value with
      | error e' =>
        simp only [spliceAll, here, Except.error.injEq] at failed
        exact ⟨value, List.mem_cons_self, failed ▸ here⟩
      | ok text =>
        cases others : spliceAll splice pieces with
        | ok rest => simp [spliceAll, here, others, Except.map] at failed
        | error e' =>
          simp only [spliceAll, here, others, Except.map, Except.error.injEq] at failed
          obtain ⟨other, member, fails⟩ := ih (failed ▸ others)
          exact ⟨other, List.mem_cons_of_mem _ member, fails⟩

/-- A source is expanded one level deeper when each file it asks for is not in the chain, can be
read, and is expanded itself with the chain that leads to it. -/
theorem expandIncludes_succ_eq_ok_iff :
    expandIncludes files config (depth + 1) chain source = .ok out ↔
      ∃ texts new : Text → Text,
        (∀ target ∈ hits (scan includeRule source),
          config.viewPath target ∉ chain ∧
          files.read (config.viewPath target) = .ok (texts target) ∧
          expandIncludes files config depth (chain ++ [config.viewPath target]) (texts target) =
            .ok (new target)) ∧
        out = replaceHits new (scan includeRule source) := by
  rw [expandIncludes]
  constructor
  · intro expanded
    obtain ⟨new, each, written⟩ := exists_of_spliceAll expanded
    refine ⟨fun target => (files.read (config.viewPath target)).toOption.getD [], new, ?_, written⟩
    intro target member
    have answered := each target member
    dsimp only at answered
    split at answered
    · cases answered
    · rename_i fresh
      split at answered
      · rename_i text read
        refine ⟨by simpa using fresh, by simp [read, Except.toOption], ?_⟩
        simpa [read, Except.toOption] using answered
      · cases answered
      · cases answered
  · intro ⟨texts, new, each, written⟩
    subst written
    apply spliceAll_eq_ok
    intro target member
    obtain ⟨fresh, read, expanded⟩ := each target member
    simp [fresh, read, expanded]

namespace Expands

/-- A source has one expansion only. -/
theorem unique {first second : Text} (one : Expands files config source first)
    (other : Expands files config source second) : first = second := by
  -- Both put the same expansions in place of the same comments.
  induction one generalizing second with
  | @splice source texts expansions read _ ih =>
    cases other with
    | @splice _ texts' expansions' read' expands' =>
      apply replaceHits_congr
      intro target member
      have same : texts target = texts' target := by
        have both := (read target member).symm.trans (read' target member)
        exact Except.ok.inj both
      apply ih target member
      rw [same]
      exact expands' target member

end Expands

/-- An expanded source is what it expands to. -/
theorem expands_of_expandIncludes
    (expanded : expandIncludes files config depth chain source = .ok out) :
    Expands files config source out := by
  induction depth generalizing chain source out with
  | zero => cases expanded
  | succ depth ih =>
    obtain ⟨texts, new, each, rfl⟩ := expandIncludes_succ_eq_ok_iff.mp expanded
    apply Expands.splice
    · intro target member
      exact (each target member).2.1
    · intro target member
      exact ih (each target member).2.2

/-- The chain of an expanded source and the paths of its includes are admissible together. As much
longer as the chain may grow, as many levels deeper goes the expansion. -/
theorem admissible_of_expandIncludes (bounded : depth + chain.length = config.maxDepth + 1)
    (distinct : chain.Nodup)
    (expanded : expandIncludes files config depth chain source = .ok out) :
    Admissible files config chain source := by
  induction depth generalizing chain source out with
  | zero => cases expanded
  | succ depth ih =>
    obtain ⟨texts, new, each, rfl⟩ := expandIncludes_succ_eq_ok_iff.mp expanded
    intro paths includes
    rcases includes.cases with rfl | ⟨path, rest, asks, rfl, behind⟩
    · -- Nothing is added to the chain.
      refine ⟨by simpa using distinct, by simp; omega, by simp⟩
    · obtain ⟨target, member, rfl⟩ := mem_asked.mp asks
      obtain ⟨fresh, read, below⟩ := each target member
      -- The rest of the path is one of the file, behind the chain with the file in it.
      have longer : Admissible files config (chain ++ [config.viewPath target]) (texts target) := by
        refine ih (by simp; omega) ?_ below
        rw [List.nodup_append]
        simp [distinct]
        intro other inChain same
        exact fresh (same ▸ inChain)
      have inside : IncludePath files config (texts target) rest := by
        rcases behind with rfl | ⟨text, readAgain, inside⟩
        · exact .nil
        · rw [read] at readAgain
          cases readAgain
          exact inside
      obtain ⟨nodup, short, readable⟩ := longer rest inside
      rw [List.append_assoc, List.singleton_append] at nodup short
      refine ⟨nodup, short, ?_⟩
      intro path onPath
      rcases List.mem_cons.mp onPath with rfl | onRest
      · exact ⟨_, read⟩
      · exact readable path onRest

/-- An admissible source is expanded. -/
theorem expandIncludes_of_admissible (bounded : depth + chain.length = config.maxDepth + 1)
    (admissible : Admissible files config chain source) :
    ∃ out, expandIncludes files config depth chain source = .ok out := by
  induction depth generalizing chain source with
  | zero =>
    -- The chain alone would be too long.
    have short := (admissible [] .nil).2.1
    simp at short
    omega
  | succ depth ih =>
    -- Each file can be read and is admissible behind the chain with the file in it.
    have each : ∀ target ∈ hits (scan includeRule source), ∃ text new,
        config.viewPath target ∉ chain ∧ files.read (config.viewPath target) = .ok text ∧
          expandIncludes files config depth (chain ++ [config.viewPath target]) text = .ok new := by
      intro target member
      have asks : config.viewPath target ∈ asked config source := mem_asked.mpr ⟨target, member, rfl⟩
      obtain ⟨nodup, -, readable⟩ := admissible _ (.single asks)
      obtain ⟨text, read⟩ := readable _ (List.mem_singleton_self _)
      have below : Admissible files config (chain ++ [config.viewPath target]) text := by
        intro paths includes
        obtain ⟨nodup, short, readable⟩ := admissible _ (.cons asks read includes)
        rw [List.append_assoc, List.singleton_append]
        exact ⟨nodup, short, fun path onPath => readable path (List.mem_cons_of_mem _ onPath)⟩
      obtain ⟨new, expanded⟩ := ih (by simp; omega) below
      refine ⟨text, new, ?_, read, expanded⟩
      intro inChain
      exact (List.nodup_append.mp nodup).2.2 _ inChain _ (List.mem_singleton_self _) rfl
    choose! texts new each using each
    exact ⟨_, expandIncludes_succ_eq_ok_iff.mpr ⟨texts, new, each, rfl⟩⟩

/-- A source that leads to a text which leads back to itself is not admissible. -/
theorem not_admissible_of_cycle {cycle : List Path} (leads : Leads files config source paths text)
    (back : Leads files config text (path :: cycle) text) :
    ¬Admissible files config chain source := by
  -- The cycle is gone through twice, which passes its first file again.
  intro admissible
  have twice : Leads files config source (paths ++ ((path :: cycle) ++ (path :: cycle))) text :=
    leads.append (back.append back)
  obtain ⟨nodup, -, -⟩ := admissible _ ⟨_, text, twice, .inl rfl⟩
  have cycles := (List.nodup_append.mp (List.nodup_append.mp nodup).2.1).2.1
  exact (List.nodup_append.mp cycles).2.2 path List.mem_cons_self path List.mem_cons_self rfl

/-- What a source that asks for no other files leads along is admissible with it. -/
theorem Admissible.of_subset {other : Text} (admissible : Admissible files config chain source)
    (fewer : asked config other ⊆ asked config source) : Admissible files config chain other := by
  intro paths includes
  rcases includes.cases with rfl | ⟨path, rest, asks, rfl, behind⟩
  · exact admissible [] .nil
  · -- The other source may ask for the file more often, but the paths behind it are the same.
    apply admissible
    rcases behind with rfl | ⟨text, read, inside⟩
    · exact .single (fewer asks)
    · exact .cons (fewer asks) read inside

/-- A source is expanded exactly when on every path of its includes the files differ from each other
and from the origin, can be read, and are not too many. Its expansion is then the only one it has.
How often it asks for a file does not matter, and a source that leads into a cycle never resolves. -/
theorem expandIncludes_exact (files : Files) (config : Config) (source : Text) (origin : Path) :
    ((∃ out, expandIncludes files config config.maxDepth [origin] source = .ok out) ↔
        ∀ paths, IncludePath files config source paths →
          (origin :: paths).Nodup ∧ (origin :: paths).length ≤ config.maxDepth ∧
            ∀ path ∈ paths, ∃ text, files.read path = .ok text) ∧
      (∀ out, expandIncludes files config config.maxDepth [origin] source = .ok out →
        ∀ text, Expands files config source text ↔ text = out) ∧
      (∀ other, asked config other ⊆ asked config source →
        (∃ out, expandIncludes files config config.maxDepth [origin] source = .ok out) →
        ∃ out, expandIncludes files config config.maxDepth [origin] other = .ok out) ∧
      ∀ paths text path cycle, Leads files config source paths text →
        Leads files config text (path :: cycle) text →
        ∀ out, resolve files config source origin ≠ .ok out := by
  -- The chain of the source is its origin, which may grow up to the depth that is allowed.
  have bounded : config.maxDepth + [origin].length = config.maxDepth + 1 := rfl
  have expanded (source : Text) :
      (∃ out, expandIncludes files config config.maxDepth [origin] source = .ok out) ↔
        Admissible files config [origin] source := by
    constructor
    · intro ⟨out, expanded⟩
      exact admissible_of_expandIncludes bounded (List.nodup_singleton origin) expanded
    · exact expandIncludes_of_admissible bounded
  refine ⟨expanded source, ?_, ?_, ?_⟩
  · intro out isOut text
    have expands := expands_of_expandIncludes isOut
    constructor
    · intro other
      exact other.unique expands
    · intro same
      rw [same]
      exact expands
  · intro other fewer isExpanded
    rw [expanded] at isExpanded ⊢
    exact isExpanded.of_subset fewer
  · intro paths text path cycle leads back out resolved
    -- What resolves has been expanded.
    cases isExpanded : expandIncludes files config config.maxDepth [origin] source with
    | error e => simp [resolve, isExpanded, Except.map] at resolved
    | ok included =>
      have admissible := (expanded source).mp ⟨included, isExpanded⟩
      exact not_admissible_of_cycle leads back admissible

end Templates.Layout

namespace Templates.Layout

/-- The files that a source includes inside of each other nest as deep as a number says. On each
path of includes they differ from each other and from the origin, and all of them can be read. -/
structure Nests (files : Files) (config : Config) (origin : Path) (source : Text) (depth : Nat) :
    Prop where
  distinct : ∀ paths, IncludePath files config source paths → (origin :: paths).Nodup
  readable : ∀ paths, IncludePath files config source paths →
    ∀ path ∈ paths, ∃ text, files.read path = .ok text
  within : ∀ paths, IncludePath files config source paths → paths.length ≤ depth
  reached : ∃ paths, IncludePath files config source paths ∧ paths.length = depth

variable {files : Files} {config : Config} {source : Text} {origin : Path} {chain : List Path}
  {depth : Nat} {e : Error}

/-- When no path of includes comes back to a file, nor holds one that cannot be read, then only the
depth is a reason to refuse a source. -/
theorem eq_tooDeep_of_expandIncludes
    (distinct : ∀ paths, IncludePath files config source paths → (chain ++ paths).Nodup)
    (readable : ∀ paths, IncludePath files config source paths →
      ∀ path ∈ paths, ∃ text, files.read path = .ok text)
    (failed : expandIncludes files config depth chain source = .error e) :
    e = .tooDeep .includes config.maxDepth := by
  induction depth generalizing chain source with
  | zero =>
    cases failed
    rfl
  | succ depth ih =>
    rw [expandIncludes] at failed
    obtain ⟨target, member, fails⟩ := exists_of_spliceAll_error failed
    have asks : config.viewPath target ∈ asked config source := mem_asked.mpr ⟨target, member, rfl⟩
    obtain ⟨text, read⟩ := readable _ (.single asks) _ (List.mem_singleton_self _)
    have fresh : config.viewPath target ∉ chain := by
      intro inChain
      have apart := (List.nodup_append.mp (distinct _ (.single asks))).2.2
      exact apart _ inChain _ (List.mem_singleton_self _) rfl
    -- The file is not in the chain and can be read, so its own text is refused.
    simp only [List.contains_iff_mem, fresh, if_false, read] at fails
    refine ih ?_ ?_ fails
    · intro paths includes
      rw [List.append_assoc, List.singleton_append]
      exact distinct _ (.cons asks read includes)
    · intro paths includes path onPath
      exact readable _ (.cons asks read includes) path (List.mem_cons_of_mem _ onPath)

/-- A source resolves if its files nest less deep than the bound says, and otherwise the complaint
is that they nest too deep. -/
theorem Nests.resolve (nests : Nests files config origin source depth) :
    (depth < config.maxDepth → ∃ out, resolve files config source origin = .ok out) ∧
      (config.maxDepth ≤ depth →
        resolve files config source origin = .error (.tooDeep .includes config.maxDepth)) := by
  have bounded : config.maxDepth + [origin].length = config.maxDepth + 1 := rfl
  constructor
  · intro shallow
    have admissible : Admissible files config [origin] source := fun paths includes => by
      refine ⟨nests.distinct paths includes, ?_, nests.readable paths includes⟩
      have within := nests.within paths includes
      rw [List.singleton_append, List.length_cons]
      omega
    obtain ⟨out, expanded⟩ := expandIncludes_of_admissible bounded admissible
    rw [Layout.resolve, expanded]
    exact ⟨_, rfl⟩
  · intro deep
    cases expanded : expandIncludes files config config.maxDepth [origin] source with
    | ok out =>
      -- The longest path would be admissible.
      obtain ⟨paths, includes, length⟩ := nests.reached
      have short := (admissible_of_expandIncludes bounded (List.nodup_singleton origin) expanded
        paths includes).2.1
      rw [List.singleton_append, List.length_cons] at short
      omega
    | error e =>
      rw [Layout.resolve, expanded,
        eq_tooDeep_of_expandIncludes nests.distinct nests.readable expanded]
      rfl

end Templates.Layout
