import Templates.Proofs.Directive.Respaced
import Templates.Proofs.Echo.Braces
import Templates.Proofs.Expr.Delimited

/-!
Rewriting expressions in braces keeps the markers of a source.

A tag takes the place of braces and of the blanks next to them. Neither means anything to markers,
and what stands in the braces stays.
-/

namespace Templates

open Marker

/-- Blanks do not belong to names. -/
theorem Marker.continuesName_of_isBlank {c : Char} (blank : Text.isBlank c = true) :
    continuesName c = false := by
  -- Names are printed.
  rw [Bool.eq_false_iff]
  intro continues
  have printing : Lexer.Printing c := by
    simp only [continuesName, Char.isAlphanum, Bool.or_eq_true, decide_eq_true_eq] at continues
    rcases continues with ((letter | digit) | rfl) | rfl
    · exact Lexer.printing_of_isAlpha letter
    · exact Lexer.printing_of_isDigit digit
    · decide
    · decide
  rw [Lexer.not_isBlank_of_printing printing] at blank
  cases blank

/-- Blanks are inert. -/
theorem Marker.isInert_of_isBlank {c : Char} (blank : Text.isBlank c = true) :
    isInert c = true := by
  rw [isInert, Bool.not_eq_true', Bool.eq_false_iff, Ne, List.contains_iff_mem]
  intro meant
  have marked : "@()\"'\\".toList.all (!Text.isBlank ·) = true := by decide
  have same := List.all_eq_true.mp marked c meant
  rw [blank] at same
  cases same

namespace Gap

variable {gap blanks : Text}

/-- Blanks may stand behind a gap. -/
theorem append_blanks (isGap : Gap gap) (blank : Text.isAllBlank blanks = true) :
    Gap (gap ++ blanks) where
  filled := by simp [isGap.filled]
  ends c first := by
    obtain ⟨d, gap, rfl⟩ := List.exists_cons_of_ne_nil isGap.filled
    exact isGap.ends c first
  inert := List.forall_mem_append.mpr ⟨isGap.inert, fun c member =>
    isInert_of_isBlank (List.all_eq_true.mp blank c member)⟩

/-- Blanks may stand in front of a gap. -/
theorem blanks_append (isGap : Gap gap) (blank : Text.isAllBlank blanks = true) :
    Gap (blanks ++ gap) where
  filled := by simp [isGap.filled]
  ends c first := by
    cases blanks with
    | nil => exact isGap.ends c first
    | cons d blanks =>
      obtain rfl : d = c := Option.some.inj first
      exact continuesName_of_isBlank (List.all_eq_true.mp blank d List.mem_cons_self)
  inert := List.forall_mem_append.mpr ⟨fun c member =>
    isInert_of_isBlank (List.all_eq_true.mp blank c member), isGap.inert⟩

end Gap

namespace Echo

open Text

/-- A rule for braces reads something off the front of a text. -/
theorem consumes_rule {opening : Text} (filled : opening ≠ []) (closing : Text) :
    Consumes (rule opening closing) := by
  intro text braced rest found
  obtain ⟨blanks, body, -, -, raw, whole⟩ := exists_of_rule found
  exact ⟨braced.raw, by simp [raw, filled], whole⟩

/-- A source is respaced when tags take the place of braces. -/
theorem respaced_replaceHits {opening closing tag : Text} (opens : Gap opening)
    (closes : Gap closing) (isTag : Gap tag) (source : Text) :
    Respaced source (replaceHits (write tag) (scan (rule opening closing) source)) := by
  -- The source is gone through from hit to hit.
  rcases (consumes_rule opens.filled closing).passes_or_hit source with
    passed | ⟨front, mark, braced, rest, rfl, filled, passed, hit⟩
  · rw [passed.scan_alone, replaceHits_plain]
    exact .refl source
  · have smaller := length_lt_of_filled front filled rest
    have later := respaced_replaceHits opens closes isTag rest
    rw [passed.replaceHits, replaceHits_scan_hit filled hit]
    refine .append_left ?_ front
    obtain ⟨blanks, body, blank, trimmed, raw, whole⟩ := exists_of_rule hit
    obtain rfl : mark = braced.raw := List.append_cancel_right whole
    rw [write]
    split
    · exact later.append_left _
    · -- The expression stays between two gaps.
      obtain ⟨behind, blankBehind, split⟩ := exists_trimEnd_append body
      have ends : Gap " %>".toList := ⟨by decide, by rintro c ⟨⟩; rfl, List.all_eq_true.mp rfl⟩
      have respaced := (Respaced.gap (closes.blanks_append blankBehind) ends later).append_left
        (trimEnd body)
      have begins : Gap (tag ++ [' ']) := isTag.append_blanks rfl
      have written := Respaced.gap (opens.append_blanks blank) begins respaced
      rw [raw, trimmed]
      rw [← List.append_assoc (trimEnd body), ← List.append_assoc (trimEnd body), split] at written
      simpa using written
termination_by source.length

/-- Braces and the beginnings of tags are gaps. -/
theorem gap_signs :
    ∀ sign ∈ ["\x7b!!", "!!\x7d", "<%-", "\x7b\x7b", "\x7d\x7d", "<%="], Gap sign.toList := by
  intro sign listed
  simp only [List.mem_cons, List.not_mem_nil, or_false] at listed
  obtain rfl | rfl | rfl | rfl | rfl | rfl := listed
  all_goals exact ⟨by decide, by rintro c ⟨⟩; rfl, List.all_eq_true.mp rfl⟩

/-- The markers of a source have the names that they have when its expressions are in tags. -/
theorem names_compile (source : Text) :
    Mark.names (Mark.scan (compile source)) = Mark.names (Mark.scan source) := by
  have raw : Respaced source (compileRaw source) :=
    respaced_replaceHits (gap_signs _ (by simp)) (gap_signs _ (by simp)) (gap_signs _ (by simp))
      source
  have escaped : Respaced (compileRaw source) (compile source) :=
    respaced_replaceHits (gap_signs _ (by simp)) (gap_signs _ (by simp)) (gap_signs _ (by simp))
      (compileRaw source)
  exact ((raw.names true true).trans (escaped.names true true)).symm

/-- Without braces nothing is rewritten. -/
theorem compile_unbraced {source : Text} (noRaw : contains "\x7b!!" source = false)
    (noEscaped : contains "\x7b\x7b" source = false) : compile source = source := by
  have unfinished (needle : Text) : ∀ k < needle.length, 0 < k → ¬ needle.drop k <+: [] := by
    intro k inside _ start
    rw [List.prefix_nil, List.drop_eq_nil_iff] at start
    omega
  have raw : compileRaw source = source := by
    rw [compileRaw, ((needs_rule _ _).passes noRaw (unfinished _)).scan_alone, replaceHits_plain]
  rw [compile, raw, compileEscaped,
    ((needs_rule _ _).passes noEscaped (unfinished _)).scan_alone, replaceHits_plain]

end Echo

end Templates
