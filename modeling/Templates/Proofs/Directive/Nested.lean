import Templates.Proofs.Directive.Idle
import Templates.Proofs.Directive.Pass
import Templates.Proofs.Outcome

/-!
How deep blocks may nest.

The body of a block is compiled by a pass of its own, which is one level deeper even if no block is
in it. A template whose blocks nest as deep as the bound says is refused. Behind the pass that
replaces something there must be another one, which replaces nothing.
-/

namespace Templates

open Directives

namespace Template

variable {directives : Directives} {template : Template} {out : Text} {e : Error} {depth : Nat}

/-- Where no directive complains, parts are refused when one of the bodies that nest too deep is. -/
theorem Laid.applyAll_deep {marks : List Mark} {edits : List Edit}
    (laid : Laid directives template marks edits)
    (translated : template.translate directives = .ok out)
    {inner : Text → Except Error Text}
    (bodies : ∀ body : Template, WellFormed directives body → body.nesting < depth →
      inner body.source = body.translate directives)
    (refused : ∀ (body : Template) out, WellFormed directives body →
      body.translate directives = .ok out → depth ≤ body.nesting → inner body.source = .error e)
    (deep : depth < template.nesting) :
    Directives.applyAll (applyEdit directives inner) edits = .error e := by
  -- What stands in front of the block that is refused is replaced without a complaint.
  induction laid generalizing out with
  | done => exact absurd deep (Nat.not_lt_zero depth)
  | text content _ ih =>
    obtain ⟨others, behind, -⟩ := exists_of_bind translated
    rw [applyAll_keep, ih behind deep]
    rfl
  | single expression _ _ _ ih =>
    obtain ⟨first, answered, more⟩ := exists_of_bind translated
    obtain ⟨others, behind, -⟩ := exists_of_bind more
    rw [applyAll_cons, applyEdit_single, Option.map_some, answered, ih behind deep]
    rfl
  | bare _ _ _ ih =>
    obtain ⟨first, answered, more⟩ := exists_of_bind translated
    obtain ⟨others, behind, -⟩ := exists_of_bind more
    rw [applyAll_cons, applyEdit_single, Option.map_none, answered, ih behind deep]
    rfl
  | @block name expression _ _ _ body rest _ _ _ _ _ _ wellFormed _ _ _ ih =>
    obtain ⟨text, inside, more⟩ := exists_of_bind translated
    obtain ⟨first, answered, more⟩ := exists_of_bind more
    obtain ⟨others, behind, -⟩ := exists_of_bind more
    rw [applyAll_cons, applyEdit_block]
    rcases Nat.lt_or_ge body.nesting depth with shallow | tooDeep
    · -- The block is replaced, and one behind it nests too deep.
      have later : depth < rest.nesting := by
        simp only [nesting] at deep
        omega
      rw [bodies body wellFormed shallow, inside, ih behind later]
      show (Template.answer directives name _ _ >>= _) = _
      rw [answered]
      rfl
    · rw [refused body text wellFormed inside tooDeep]
      rfl

/-- A pass refuses a template whose blocks nest as deep as it may go, or deeper. -/
theorem pass_deep (maxDepth : Nat) (wellFormed : WellFormed directives template)
    (translated : template.translate directives = .ok out) (deep : depth ≤ template.nesting) :
    directives.pass maxDepth depth template.source =
      .error (.tooDeep .directiveNesting maxDepth) := by
  induction depth generalizing template out with
  | zero => rfl
  | succ depth ih =>
    obtain ⟨marks, laid⟩ := wellFormed.plan
    rw [Directives.pass]
    refine laid.applyAll_deep translated (fun body formed => ?_) (fun body out formed => ?_) deep
    · exact pass_source maxDepth formed
    · exact ih formed

/-- A template in which no directive complains, and whose translation is not rewritten again, is
compiled if its blocks nest less deep than the bound says, and if there may be a second pass when
something has been replaced. Otherwise the complaint is that the blocks nest too deep, or that the
passes are too many. -/
theorem WellFormed.compile (wellFormed : WellFormed directives template)
    (translated : template.translate directives = .ok out)
    (idle : directives.isIdle out = true) {limit : Nat} (positive : 1 ≤ limit) :
    (limit ≤ template.nesting → directives.compile limit template.source =
        .error (.tooDeep .directiveNesting limit)) ∧
      (template.nesting < limit → out = template.source ∨ 2 ≤ limit →
        directives.compile limit template.source = .ok out) ∧
      (template.nesting < limit → out ≠ template.source → limit < 2 →
        directives.compile limit template.source = .error (.tooDeep .directivePasses limit)) := by
  obtain ⟨count, rfl⟩ := Nat.exists_eq_add_of_le' positive
  refine ⟨?_, ?_, ?_⟩
  · intro deep
    rw [Directives.compile, passes, pass_deep _ wellFormed translated deep]
  · intro shallow enough
    rw [Directives.compile, passes, pass_source _ wellFormed shallow, translated]
    dsimp only
    by_cases same : out = template.source
    · rw [if_pos same]
    · -- The second pass finds nothing to replace.
      have another : 1 ≤ count := Nat.le_of_succ_le_succ (enough.resolve_left same)
      obtain ⟨more, rfl⟩ := Nat.exists_eq_add_of_le' another
      rw [if_neg same, passes, pass_of_isIdle idle]
      exact if_pos rfl
  · intro shallow changed few
    obtain rfl : count = 0 := by omega
    rw [Directives.compile, passes, pass_source _ wellFormed shallow, translated]
    exact if_neg changed

end Template

end Templates
