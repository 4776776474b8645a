import Templates.Engine.Workshop
import Templates.Proofs.Component.Spared
import Templates.Proofs.Layout.Blocks

/-!
Sources without comments of a layout and without custom tags.

They go through layouts and components unchanged, and nothing but expressions in braces and
directives is rewritten in them.
-/

namespace Templates

open Layout Text

/-- A source that includes nothing and has no blocks resolves to itself. -/
theorem Layout.resolve_plain (files : Files) {config : Config} (deep : 0 < config.maxDepth)
    {source : Text} (noInclude : hits (scan includeRule source) = [])
    (noBlock : hits (scan blockRule source) = []) (noYield : hits (scan yieldRule source) = [])
    (origin : Text) : resolve files config source origin = .ok source := by
  obtain ⟨depth, isDepth⟩ := Nat.exists_eq_add_one.mpr deep
  rw [hits_scan_eq_nil_iff] at noInclude noBlock noYield
  have included : expandIncludes files config config.maxDepth [origin] source = .ok source := by
    rw [isDepth, expandIncludes, noInclude.scan_alone, spliceAll_plain]
  -- All characters of the source stand outside of blocks, and none asks for one.
  have extracted : extract [] (scan blockRule source) = (source, []) := by
    have whole := extract_plain [] source []
    rw [List.append_nil, ← noBlock.scan_alone] at whole
    rw [whole]
    simp [extract]
  rw [resolve, included]
  refine congrArg Except.ok ?_
  rw [resolveBlocks, extracted]
  show replaceHits _ (scan yieldRule source) = source
  rw [noYield.scan_alone, replaceHits_plain]

/-- A source without custom tags, in comments or outside of them, is expanded to itself. -/
theorem Expander.expand_plain {σ : Type} (expander : Expander) (renderer : ComponentRenderer σ)
    {source : Text} (noCommented : hits (scan expander.commentedRule source) = [])
    (noLive : hits (scan expander.liveRule source) = []) :
    expander.expand renderer source = pure source := by
  have dead : expander.isLive source = false := by simp [isLive, noLive]
  rw [expand, withoutCommented_eq noCommented, dead]
  rfl

namespace Workshop

/-- A source in which nothing is found that layouts or components take care of. -/
structure IsPlain (workshop : Workshop) (source : Text) : Prop where
  noInclude : hits (scan includeRule source) = []
  noBlock : hits (scan blockRule source) = []
  noYield : hits (scan yieldRule source) = []
  noCommented : hits (scan workshop.expander.commentedRule source) = []
  noLive : hits (scan workshop.expander.liveRule source) = []

variable {workshop : Workshop} {source : Text}

/-- Nothing is compiled where no chain of includes may begin. -/
theorem maxDepth_of_compile {origin out : Text}
    (compiled : workshop.compile source origin = .ok out) : 0 < workshop.config.maxDepth := by
  apply Nat.pos_of_ne_zero
  intro zero
  -- The layout complains before anything else is done.
  have refused : Layout.resolve workshop.files workshop.config source origin =
      .error (.tooDeep .includes workshop.config.maxDepth) := by
    rw [Layout.resolve, zero, expandIncludes, Except.map, zero]
  rw [compile, compileWith, refused] at compiled
  cases compiled

/-- Whatever answers the uses of components, only expressions in braces and directives are rewritten
in a plain source, and a session goes on as it was. -/
theorem IsPlain.run_compileWith (plain : workshop.IsPlain source)
    (deep : 0 < workshop.config.maxDepth) (renderer : ComponentRenderer TagStack) (origin : Text)
    (stack : TagStack) :
    (workshop.compileWith renderer source origin).run stack =
      (workshop.directives.compile workshop.config.maxDepth (Echo.compile source), stack) := by
  have resolved := resolve_plain workshop.files deep plain.noInclude plain.noBlock plain.noYield
    origin
  have expanded := workshop.expander.expand_plain renderer plain.noCommented plain.noLive
  rw [compileWith, resolved]
  show (workshop.expander.expand renderer source >>= fun text =>
    given (workshop.directives.compile workshop.config.maxDepth (Echo.compile text))).run stack = _
  rw [expanded]
  rfl

/-- Only expressions in braces and directives are rewritten in a plain source. -/
theorem IsPlain.compile_eq (plain : workshop.IsPlain source) (deep : 0 < workshop.config.maxDepth)
    (origin : Text) :
    workshop.compile source origin =
      workshop.directives.compile workshop.config.maxDepth (Echo.compile source) :=
  congrArg Prod.fst (plain.run_compileWith deep _ origin [])

end Workshop

end Templates
