import Templates.Proofs.Component.Bond
import Templates.Proofs.Component.Pass
import Templates.Proofs.Markup.Opened
import Templates.Proofs.Markup.RoundTrip
import Templates.Proofs.Markup.Verbatim

/-!
Sources without custom tags that are expanded all the same.

Whether a source may hold custom tags is seen from its text, where a comment, an attribute or the
content of a script may look like one. Main statement: such a source is read and written, which is
all that happens to it.
-/

namespace Templates

open Markup

namespace Expander

variable {σ : Type} {expander : Expander} {source : Text}

/-- A source in which no comment holds a custom tag stays as it is in the first step. -/
theorem withoutCommented_eq
    (noCommented : Text.hits (Text.scan expander.commentedRule source) = []) :
    expander.withoutCommented source = source := by
  rw [Text.hits_scan_eq_nil_iff] at noCommented
  rw [withoutCommented, noCommented.scan_alone, Text.replaceHits_plain]

/-- A source is live if the beginning of a custom tag stands somewhere in it, whatever it is there.
-/
theorem isLive_iff :
    expander.isLive source = true ↔
      ∃ back, back <:+ source ∧
        (Text.stripCaseless? ('<' :: expander.start) back).isSome = true := by
  have dead : expander.isLive source = false ↔
      Text.hits (Text.scan expander.liveRule source) = [] := by simp [isLive]
  rw [← Bool.not_eq_false, dead, Text.hits_scan_eq_nil_iff, Text.passes_iff]
  constructor
  · intro found
    push Not at found
    obtain ⟨back, ends, -, some⟩ := found
    refine ⟨back, ends, Option.isSome_iff_ne_none.mpr fun none => some ?_⟩
    rw [liveRule, none]
    rfl
  · rintro ⟨back, ends, found⟩ missing
    have filled : back ≠ [] := by
      rintro rfl
      cases found
    have none := missing back ends filled
    rw [liveRule, Option.map_eq_none_iff] at none
    rw [none] at found
    cases found

/-- No custom tag is missed: a source with one among its elements is live. -/
theorem isLive_of_isCustom {forest : List Tree} {e : Element}
    (read : Markup.parse source = .ok forest) (listed : e ∈ elementsAll forest)
    (custom : expander.isCustom e = true) : expander.isLive source = true := by
  obtain ⟨_, ends, rest, rfl⟩ := exists_of_mem_elementsAll read listed
  -- The name stands behind its bracket in letters of any case.
  have begins : Text.asciiLower ('<' :: e.name) =
      ('<' :: expander.start) ++ (expander.callOf e).tag := by
    rw [List.cons_append, ← name_eq custom]
    rfl
  exact isLive_iff.mpr ⟨_, ends, Text.isSome_stripCaseless? begins rest⟩

/-- A source that has no custom tag among its elements is at most read and written. -/
theorem expand_untagged {forest : List Tree} (renderer : ComponentRenderer σ)
    (kept : expander.withoutCommented source = source)
    (read : Markup.parse source = .ok forest)
    (noTag : ∀ e ∈ elementsAll forest, expander.isCustom e = false) :
    expander.expand renderer source =
      pure (if expander.isLive source then writeAll forest else source) := by
  obtain ⟨parsed, markup⟩ := Document.parse_eq_ok read
  have none : (Document.ofForest forest).findElements expander.isCustom = [] := by
    rw [findElements_eq (Document.shows_ofForest forest)]
    exact Forest.marked_eq_nil (by rwa [Forest.trees_plant])
  unfold expand
  rw [kept]
  dsimp only
  split
  · -- The first pass finds nothing, so that no address is decoded either.
    have reading : (parsing source : Session σ Document) = pure (.ofForest forest) := by
      rw [parsing, parsed]
    rw [reading, pure_bind, passes_done none, pure_bind]
    exact congrArg pure markup
  · rfl

/-- What becomes of a source without custom tags, whatever comments, attributes or the content of
scripts in it look like: no component is used, and nothing can go wrong but that the source cannot
be read. A source in which a custom tag does not even seem to begin is left as it is. Others are
written as they are read. This changes nothing if no tag begins in them at all, or if they are
canonical. -/
theorem expand_spares (expander : Expander) {source : Text} {forest : List Tree}
    (noCommented : Text.hits (Text.scan expander.commentedRule source) = [])
    (read : Markup.parse source = .ok forest)
    (noTag : ∀ e ∈ elementsAll forest, expander.isCustom e = false) :
    (∀ (σ : Type) (renderer : ComponentRenderer σ), expander.expand renderer source =
      pure (if expander.isLive source then writeAll forest else source)) ∧
    (expander.isLive source = true ↔ ∃ back, back <:+ source ∧
      (Text.stripCaseless? ('<' :: expander.start) back).isSome = true) ∧
    (Token.beginsTags [] source = false → writeAll forest = source) ∧
    (∀ trees, areCanonical trees = true → source = writeAll trees → writeAll forest = source) := by
  refine ⟨fun σ renderer => ?_, isLive_iff, fun noTags => ?_, ?_⟩
  · exact expand_untagged renderer (withoutCommented_eq noCommented) read noTag
  · have same := normalize_verbatim noTags
    obtain ⟨parsed, markup⟩ := Document.parse_eq_ok read
    rw [Markup.normalize, parsed] at same
    exact markup.symm.trans (Except.ok.inj same)
  · rintro trees canonical rfl
    rw [parse_writeAll canonical] at read
    rw [Except.ok.inj read]

/-- An expander for the tags of an application. -/
def appTags : Expander :=
  ⟨"app".toList, 8⟩

/-- A paragraph, one of whose attributes looks like a custom tag. -/
def tooltip : List Tree :=
  [.node (.element ⟨['p'], [.valued "title".toList "<app-card>".toList], false⟩)
    [.node (.text "hi".toList) []]]

/-- A custom tag in the value of an attribute is none, and the element is left as it is. -/
theorem expand_spares_tooltip :
    writeAll tooltip = "<p title=\"<app-card>\">hi</p>".toList ∧
      appTags.isLive (writeAll tooltip) = true ∧
      ∀ (σ : Type) (renderer : ComponentRenderer σ),
        appTags.expand renderer (writeAll tooltip) = pure (writeAll tooltip) := by
  have canonical : areCanonical tooltip = true := by decide
  have noCommented :
      Text.hits (Text.scan appTags.commentedRule (writeAll tooltip)) = [] := by decide +kernel
  have noTag : ∀ e ∈ elementsAll tooltip, appTags.isCustom e = false := by decide +kernel
  obtain ⟨spared, -, -, same⟩ := expand_spares appTags noCommented (parse_writeAll canonical) noTag
  refine ⟨by decide +kernel, by decide +kernel, fun σ renderer => (spared σ renderer).trans ?_⟩
  rw [same tooltip canonical rfl, ite_self]

/-- A comment that speaks of a custom tag and an open paragraph. -/
def mention : Text :=
  "<!-- see <app-card> --><p>hi".toList

/-- A custom tag that a comment speaks of is none, nor is the comment taken for a commented tag. But
the paragraph behind it is closed. -/
theorem expand_closes_paragraph :
    Text.hits (Text.scan appTags.commentedRule mention) = [] ∧
      Markup.parse mention = .ok [.node (.comment " see <app-card> ".toList) [],
        .node (.element ⟨['p'], [], false⟩) [.node (.text "hi".toList) []]] ∧
      appTags.isCustom ⟨['p'], [], false⟩ = false ∧
      "<!-- see <app-card> --><p>hi</p>".toList ≠ mention ∧
      ∀ (σ : Type) (renderer : ComponentRenderer σ),
        appTags.expand renderer mention = pure "<!-- see <app-card> --><p>hi</p>".toList := by
  have read : Markup.parse mention = .ok [.node (.comment " see <app-card> ".toList) [],
      .node (.element ⟨['p'], [], false⟩) [.node (.text "hi".toList) []]] := by
    rfl
  have noCommented : Text.hits (Text.scan appTags.commentedRule mention) = [] := by decide +kernel
  refine ⟨noCommented, read, by decide +kernel, by decide, fun σ renderer => ?_⟩
  have live : appTags.isLive mention = true := by decide +kernel
  have kept : appTags.withoutCommented mention = mention := withoutCommented_eq noCommented
  rw [expand_untagged renderer kept read (by decide +kernel), if_pos live]
  exact congrArg pure (by decide +kernel)

end Expander

end Templates
