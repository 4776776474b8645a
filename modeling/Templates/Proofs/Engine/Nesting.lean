import Templates.Proofs.Directive.Nested
import Templates.Proofs.Engine.Depth
import Templates.Proofs.Layout.Includes

/-!
What a bound on depth allows.

Components may nest as deep as the bound says. Includes and blocks may not: the chain of files holds
the page itself, and the body of a block counts as one level more although no block is in it. The
pass that replaces nothing counts as well, so that no directive is compiled under a bound of one.
-/

namespace Templates

namespace Layout

variable {files : Files} {config : Config} {source text : Text} {paths : List Path} {origin : Path}
  {depth : Nat}

/-- Where a source leads does not depend on the bound. -/
theorem Leads.withDepth (limit : Nat) (leads : Leads files config source paths text) :
    Leads files (config.withDepth limit) source paths text := by
  induction leads with
  | here => exact .here
  | onward asks read _ ih => exact .onward asks read ih

/-- The paths of includes do not depend on the bound. -/
theorem IncludePath.withDepth (limit : Nat) (includes : IncludePath files config source paths) :
    IncludePath files (config.withDepth limit) source paths := by
  obtain ⟨front, text, leads, ends⟩ := includes
  exact ⟨front, text, leads.withDepth limit, ends⟩

/-- How deep files nest does not depend on the bound. -/
theorem Nests.withDepth (limit : Nat) (nests : Nests files config origin source depth) :
    Nests files (config.withDepth limit) origin source depth := by
  have back {paths : List Path}
      (includes : IncludePath files (config.withDepth limit) source paths) :
      IncludePath files config source paths := includes.withDepth config.maxDepth
  obtain ⟨paths, includes, length⟩ := nests.reached
  exact ⟨fun paths includes => nests.distinct paths (back includes),
    fun paths includes => nests.readable paths (back includes),
    fun paths includes => nests.within paths (back includes),
    paths, includes.withDepth limit, length⟩

end Layout

namespace Workshop

variable {workshop : Workshop} {limit depth : Nat} {source origin artifact : Text}

/-- Components of a source that is compiled under some bound nest too deep under another one exactly
when their stacks get longer than that, if nothing else is too deep. -/
theorem compile_of_recordCompile
    (compiled : ((workshop.withDepth depth).recordCompile source origin).1 = .ok artifact)
    (others : ∀ what, what ≠ .components →
      (workshop.withDepth limit).compile source origin ≠ .error (.tooDeep what limit)) :
    ((∀ stack ∈ ((workshop.withDepth depth).recordCompile source origin).2.all,
        stack.length ≤ limit) →
      (workshop.withDepth limit).compile source origin = .ok artifact) ∧
    ((∃ stack ∈ ((workshop.withDepth depth).recordCompile source origin).2.all,
        limit < stack.length) →
      (workshop.withDepth limit).compile source origin = .error (.tooDeep .components limit)) := by
  obtain ⟨own, -, bounded⟩ := (workshop.withDepth limit).recordCompile_sound source origin
  obtain ⟨-, -, sound⟩ := (workshop.withDepth depth).recordCompile_sound source origin
  rw [← own] at others ⊢
  -- A stack of a recorded compilation is never longer than its bound.
  have absurdly {limit' : Nat} {record : Record} (sound : record.IsSound limit') {stack : TagStack}
      (held : stack ∈ record.all) (longer : limit' < stack.length) : False :=
    Nat.not_le_of_lt longer (sound stack held).2
  rcases Nat.lt_trichotomy limit depth with less | rfl | more
  · rcases workshop.recordCompile_withDepth less source origin with same | ⟨what, refused, deep⟩
    · rw [same] at bounded ⊢
      refine ⟨fun _ => compiled, ?_⟩
      rintro ⟨stack, held, longer⟩
      exact (absurdly bounded held longer).elim
    · -- The complaint can only be about components, and then a stack is too long.
      obtain rfl : what = .components :=
        Classical.byContradiction fun other => others what other refused
      obtain ⟨stack, held, longer⟩ := deep rfl
      refine ⟨fun short => ?_, fun _ => refused⟩
      exact absurd (short stack held) (Nat.not_le_of_lt longer)
  · refine ⟨fun _ => compiled, ?_⟩
    rintro ⟨stack, held, longer⟩
    exact (absurdly sound held longer).elim
  · rcases workshop.recordCompile_withDepth more source origin with same | ⟨what, refused, -⟩
    · refine ⟨fun _ => same ▸ compiled, ?_⟩
      rintro ⟨stack, held, longer⟩
      exact (absurdly sound held (Nat.lt_trans more longer)).elim
    · cases refused.symm.trans compiled

/-- What a bound on depth allows. Files may nest in each other less deep than the bound says, blocks
less deep than it says and only if there may be two passes, and components as deep as it says. The
complaint is otherwise that the depth is exceeded by them. -/
theorem nesting_allowed (workshop : Workshop) (limit : Nat) (positive : 1 ≤ limit) :
    (∀ source origin depth, Layout.Nests workshop.files workshop.config origin source depth →
      (depth < limit → ∃ out, Layout.resolve workshop.files (workshop.config.withDepth limit) source
        origin = .ok out) ∧
      (limit ≤ depth → Layout.resolve workshop.files (workshop.config.withDepth limit) source
        origin = .error (.tooDeep .includes limit))) ∧
    (∀ (template : Template) out, template.WellFormed workshop.directives →
      template.translate workshop.directives = .ok out →
      workshop.directives.isIdle out = true →
      (limit ≤ template.nesting → workshop.directives.compile limit template.source =
        .error (.tooDeep .directiveNesting limit)) ∧
      (template.nesting < limit → out = template.source ∨ 2 ≤ limit →
        workshop.directives.compile limit template.source = .ok out) ∧
      (template.nesting < limit → out ≠ template.source → limit < 2 →
        workshop.directives.compile limit template.source =
          .error (.tooDeep .directivePasses limit))) ∧
    (∀ source origin artifact depth,
      ((workshop.withDepth depth).recordCompile source origin).1 = .ok artifact →
      (∀ what, what ≠ .components →
        (workshop.withDepth limit).compile source origin ≠ .error (.tooDeep what limit)) →
      ((∀ stack ∈ ((workshop.withDepth depth).recordCompile source origin).2.all,
          stack.length ≤ limit) →
        (workshop.withDepth limit).compile source origin = .ok artifact) ∧
      ((∃ stack ∈ ((workshop.withDepth depth).recordCompile source origin).2.all,
          limit < stack.length) →
        (workshop.withDepth limit).compile source origin =
          .error (.tooDeep .components limit))) := by
  refine ⟨?_, ?_, ?_⟩
  · intro source origin depth nests
    exact (nests.withDepth limit).resolve
  · intro template out wellFormed translated idle
    exact wellFormed.compile translated idle positive
  · intro source origin artifact depth compiled others
    exact compile_of_recordCompile compiled others

/-- A page that includes the part. -/
def partPage : Text :=
  "<!-- include part -->".toList

/-- A block with a text in it. -/
def oneBlock : Template :=
  .block "if".toList ['a'] (.text " x ".toList .done) .done

/-- The page includes one file, which includes no other. -/
theorem nests_partPage :
    Layout.Nests layered.files layered.config "page".toList partPage 1 := by
  have asked : Layout.asked layered.config partPage = ["views/part.html".toList] := by
    decide +kernel
  have read : layered.files.read "views/part.html".toList = .ok "<app-card></app-card>".toList := by
    decide +kernel
  have none : Layout.asked layered.config "<app-card></app-card>".toList = [] := by decide +kernel
  have only {paths : List Path}
      (includes : Layout.IncludePath layered.files layered.config partPage paths) :
      paths = [] ∨ paths = ["views/part.html".toList] := by
    rcases includes.cases with rfl | ⟨path, rest, asks, rfl, behind⟩
    · exact .inl rfl
    · rw [asked] at asks
      obtain rfl := List.mem_singleton.mp asks
      refine .inr ?_
      rcases behind with rfl | ⟨text, again, inside⟩
      · rfl
      · -- The text of the part asks for nothing.
        obtain rfl := Except.ok.inj (read.symm.trans again)
        rcases inside.cases with rfl | ⟨path, rest, asks, -⟩
        · rfl
        · rw [none] at asks
          cases asks
  refine ⟨?_, ?_, ?_, _, .single (asked ▸ List.mem_singleton_self _), rfl⟩
  · intro paths includes
    rcases only includes with rfl | rfl <;> decide
  · intro paths includes path onPath
    rcases only includes with rfl | rfl
    · cases onPath
    · obtain rfl := List.mem_singleton.mp onPath
      exact ⟨_, read⟩
  · intro paths includes
    rcases only includes with rfl | rfl <;> decide

/-- Under a bound of one, which an engine can work with, neither a page with one include is compiled
nor one with one directive, but a component is. -/
theorem bound_of_one_refuses :
    (layered.withDepth 1).config.validate = .ok () ∧
      Layout.Nests layered.files layered.config "page".toList partPage 1 ∧
      Layout.resolve layered.files (layered.config.withDepth 1) partPage "page".toList =
        .error (.tooDeep .includes 1) ∧
      oneBlock.nesting = 1 ∧
      (layered.withDepth 1).compile oneBlock.source "page".toList =
        .error (.tooDeep .directiveNesting 1) ∧
      (layered.withDepth 1).compile "@set(a = 1)".toList "page".toList =
        .error (.tooDeep .directivePasses 1) ∧
      (layered.withDepth 1).compile "<app-pin></app-pin>".toList "page".toList = .ok ['*'] :=
  ⟨by decide +kernel, nests_partPage, by decide +kernel, rfl, by decide +kernel, by decide +kernel,
    by decide +kernel⟩

/-- Under a bound of two the page is resolved and the block is compiled, and so is a component that
uses another one; under a bound of one the components are too deep. -/
theorem nesting_allowed_layered :
    (∃ out, Layout.resolve layered.files (layered.config.withDepth 2) partPage "page".toList =
        .ok out) ∧
      Directives.compile Directive.builtins 2 oneBlock.source =
        .ok "<% if a %> x <% endif %>".toList ∧
      (layered.withDepth 2).compile "<app-card></app-card>".toList "page".toList =
        .ok "<b>*</b>".toList ∧
      (layered.withDepth 1).compile "<app-card></app-card>".toList "page".toList =
        .error (.tooDeep .components 1) := by
  obtain ⟨includes, blocks, components⟩ := layered.nesting_allowed 2 (by decide)
  obtain ⟨-, -, tooMany⟩ := layered.nesting_allowed 1 (by decide)
  have wellFormed : oneBlock.WellFormed layered.directives := by
    have isName : Template.IsName "if".toList := ⟨rfl, List.all_eq_true.mp rfl, rfl⟩
    have balanced : Balanced ['a'] := .plain (by decide) (by decide) (by decide) .nil
    refine ⟨⟨isName, by decide +kernel, balanced, ⟨by decide, trivial⟩, trivial⟩, ?_⟩
    simp [oneBlock, Template.Spaced, Template.EndsName, Template.source]
  have translated : oneBlock.translate layered.directives =
      .ok "<% if a %> x <% endif %>".toList := by decide +kernel
  have compiled := (blocks oneBlock _ wellFormed translated (by decide +kernel)).2.1 (by decide)
    (.inr (by decide))
  -- The card holds a pin, so that the longest stack has two tags.
  have recorded : (layered.withDepth 3).recordCompile "<app-card></app-card>".toList "page".toList =
      (.ok "<b>*</b>".toList,
        ⟨[], [["card".toList], ["pin".toList, "card".toList], ["card".toList], []]⟩) := by
    decide +kernel
  have within : ∀ what, what ≠ .components →
      (layered.withDepth 2).compile "<app-card></app-card>".toList "page".toList ≠
        .error (.tooDeep what 2) := by
    have done : (layered.withDepth 2).compile "<app-card></app-card>".toList "page".toList =
        .ok "<b>*</b>".toList := by decide +kernel
    rw [done]
    intro what _ refused
    cases refused
  have within' : ∀ what, what ≠ .components →
      (layered.withDepth 1).compile "<app-card></app-card>".toList "page".toList ≠
        .error (.tooDeep what 1) := by
    have refused : (layered.withDepth 1).compile "<app-card></app-card>".toList "page".toList =
        .error (.tooDeep .components 1) := by decide +kernel
    rw [refused]
    intro what other same
    cases same
    exact other rfl
  refine ⟨(includes _ _ _ nests_partPage).1 (by decide), compiled,
    (components _ _ _ 3 (by rw [recorded]) within).1 ?_,
    (tooMany _ _ _ 3 (by rw [recorded]) within').2 ?_⟩
  · rw [recorded]
    decide
  · rw [recorded]
    exact ⟨["pin".toList, "card".toList], by decide, by decide⟩

end Workshop

end Templates
