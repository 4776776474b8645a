import Templates.Proofs.Directive.Idle
import Templates.Proofs.Directive.Pass

/-!
A block at the very beginning of another one.

An opener right behind another marker has no blank in front of it, so that the pass over the whole
source does not see it, whereas the pass over the body of the outer block does. That pass is only
made with the body that the first one has found, and if both blocks have the same name that body
ends at the closer of the inner block.
-/

namespace Templates

open Directives Marker

namespace Template

/-- The names that markers can have. -/
structure IsWord (name : Text) : Prop where
  starts : name.head?.any startsName = true
  continues : ∀ c ∈ name, continuesName c = true

/-- A block with another one in its body, each given by its name and its expression, and the texts
in the inner block and behind it. -/
structure TwoBlocks where
  outer : Text
  first : Text
  inner : Text
  second : Text
  body : Text
  rest : Text

namespace TwoBlocks

/-- The body of the outer block, with a text in front of the inner block and a blank behind it. -/
def content (p : TwoBlocks) (gap : Text) : Text :=
  gap ++ (opener p.inner p.second ++ (p.body ++ ('@' :: closing p.inner ++ ' ' :: p.rest)))

/-- The two blocks as they are written. -/
def source (p : TwoBlocks) (gap : Text) : Text :=
  opener p.outer p.first ++ (p.content gap ++ '@' :: closing p.outer)

/-- The directives of both blocks are there, and markers are only where they are meant to be. -/
structure Fits (p : TwoBlocks) (directives : Directives) : Prop where
  outerName : IsWord p.outer
  innerName : IsWord p.inner
  outerBlock : (directives.ofKind? p.outer .block).isSome = true
  innerBlock : (directives.ofKind? p.inner .block).isSome = true
  firstBalanced : Balanced p.first
  secondBalanced : Balanced p.second
  firstTrimmed : Text.trim p.first = p.first
  secondTrimmed : Text.trim p.second = p.second
  bodyPlain : '@' ∉ p.body
  restPlain : '@' ∉ p.rest

variable {p : TwoBlocks} {directives : Directives}

/-- The opener of the inner block, which may have anything in front of it. -/
def innerOpener (p : TwoBlocks) (leading trailing : Bool) : Marker :=
  ⟨p.inner, some (Text.trim p.second), leading, trailing, opener p.inner p.second⟩

/-- The marks between the opener and the closer of the outer block. -/
def marks (p : TwoBlocks) (gap : Text) (leading trailing : Bool) : List Mark :=
  gap.map .plain ++ .marker (p.innerOpener leading trailing) ::
    (p.body.map .plain ++ .marker (closingMarker p.inner (clearAfter false p.body) true) ::
      (' ' :: p.rest).map .plain)

/-- A blank in front of a text holds no at sign. -/
theorem Fits.behindPlain (fits : p.Fits directives) : '@' ∉ ' ' :: p.rest := by
  simp [fits.restPlain]

/-- A scan of the body of the outer block finds its marks and goes on behind it. -/
theorem Fits.scan (fits : p.Fits directives) {gap : Text} (plain : '@' ∉ gap) (clear : Bool)
    (after : Text) :
    ∃ trailing, Mark.scanFrom clear 0 (p.content gap ++ after) =
      p.marks gap (clearAfter clear gap) trailing ++
        Mark.scanFrom (clearAfter false (' ' :: p.rest)) 0 after := by
  -- Neither does the expression of the opener go on, nor the name of the closer.
  obtain ⟨starts, continues⟩ := closing_isName fits.innerName.continues
  have ends : EndsName (' ' :: p.rest ++ after) := endsName_of_isClear rfl
  have opened := Mark.scanFrom_opener fits.innerName.starts fits.innerName.continues
    fits.secondBalanced (clearAfter clear gap)
  have bare := Mark.scanFrom_bare starts continues (clearAfter false p.body) ends
  refine ⟨isClear (p.body ++ ('@' :: closing p.inner ++ (' ' :: p.rest ++ after))), ?_⟩
  rw [content, List.append_assoc, Mark.scanFrom_plain plain, List.append_assoc, opened,
    List.append_assoc, Mark.scanFrom_plain fits.bodyPlain, List.append_assoc, bare,
    Mark.scanFrom_plain fits.behindPlain]
  simp only [marks, innerOpener, closingMarker, List.append_assoc, List.cons_append]
  rfl

/-- The marks of the body of the outer block put together are the body. -/
theorem text_marks (p : TwoBlocks) (gap : Text) (leading trailing : Bool) :
    Mark.text (p.marks gap leading trailing) = p.content gap := by
  have plain (content : Text) : (content.map Mark.plain).flatMap Mark.raw = content := by
    simp [List.flatMap_map, Mark.raw]
  simp only [Mark.text, marks, content, List.flatMap_append, List.flatMap_cons, plain, Mark.raw,
    innerOpener, closingMarker]

/-- There are two markers in the body of the outer block. -/
theorem markers_marks (p : TwoBlocks) (gap : Text) (leading trailing : Bool) :
    Mark.markers (p.marks gap leading trailing) = 2 := by
  simp only [marks, Mark.markers_append, Mark.markers_plain, Mark.markers]

/-- An opener with a blank in front of it waits for its closer. -/
theorem Fits.step_open (fits : p.Fits directives) (trailing : Bool) (pairing : Pairing)
    (place : Nat) :
    pairing.step directives place (p.innerOpener true trailing) =
      { pairing with opened := (place, p.inner) :: pairing.opened } :=
  step_openingMarker fits.innerBlock p.second trailing pairing place

/-- An opener with anything else in front of it is passed over. -/
theorem step_hidden (p : TwoBlocks) (directives : Directives) (trailing : Bool)
    (pairing : Pairing) (place : Nat) :
    pairing.step directives place (p.innerOpener false trailing) = pairing := by
  simp [Pairing.step, Marker.closes?, innerOpener, opensBlock]

end TwoBlocks

/-- A closer of another name than those of all open blocks is passed over. -/
theorem step_unmatched {directives : Directives} {name : Text} (filled : name ≠ [])
    (leading trailing : Bool) {pairing : Pairing} (other : ∀ block ∈ pairing.opened, block.2 ≠ name)
    (place : Nat) :
    pairing.step directives place (closingMarker name leading trailing) = pairing := by
  have nothing : pairing.opened.dropWhile (fun block => block.2 ≠ name) = [] := by
    have all := fun block listed => decide_eq_true (other block listed)
    rw [← List.append_nil pairing.opened, List.dropWhile_append_of_pos all]
    rfl
  simp only [Pairing.step, closes?_closingMarker filled]
  rw [nothing]

/-- A closer takes the innermost opener of its name, and its pair takes the place of those that are
in the block. -/
theorem step_innermost {directives : Directives} {name : Text} (filled : name ≠ [])
    (leading trailing : Bool) (opened : List (Nat × Text)) {pairs : List (Nat × Nat)} {start : Nat}
    (inside : ∀ pair ∈ pairs, start < pair.1) (place : Nat) :
    Pairing.step directives ⟨(start, name) :: opened, pairs⟩ place
        (closingMarker name leading trailing) =
      ⟨opened, [(start, place)]⟩ := by
  -- Nothing has been paired in front of the block.
  have before : ∀ pair ∈ ([] : List (Nat × Nat)), pair.1 < start := by simp
  have closed := @step_closingMarker directives name filled leading trailing opened _ _ _ place
    inside before
  rwa [List.append_nil] at closed

/-- A pair that comes first is a part of the source, with all marks between its markers. -/
theorem edits_pair (directives : Directives) {place close : Nat} (pairs : List (Nat × Nat))
    (opener closer : Marker) (inside rest : List Mark)
    (count : place + 1 + Mark.markers inside = close) :
    Directives.edits directives place ((place, close) :: pairs) none
        (.marker opener :: (inside ++ .marker closer :: rest)) =
      .block opener (Mark.text inside) closer ::
        Directives.edits directives (close + 1) pairs none rest := by
  rw [Directives.edits, if_pos rfl,
    edits_inside _ _ _ _ _ _ (Nat.le_of_eq count), Directives.edits, if_pos count, count]
  simp

/-- A pass over a text without at signs leaves it as it is. -/
theorem pass_plain (directives : Directives) {content : Text} (plain : '@' ∉ content)
    (maxDepth depth : Nat) : directives.pass maxDepth (depth + 1) content = .ok content := by
  refine pass_of_isIdle (isIdle_of_isForeign ?_) maxDepth depth
  have scanned := Mark.scanFrom_plain plain true []
  rw [List.append_nil] at scanned
  simp [Mark.scan, scanned, Mark.scanFrom, isForeign]

/-- A pass over a source with one block and nothing else to replace puts the answer of its directive
in the place of the block. -/
theorem pass_oneBlock {directives : Directives}
    {source before name expression body inner out : Text}
    {trailing : Bool} {closer : Marker} {rest : List Edit} {maxDepth depth : Nat}
    (parts : plan directives source = before.map (fun c => .keep [c]) ++
      .block (openingMarker name expression trailing) body closer :: rest)
    (kept : rest.all Edit.isKept = true)
    (passed : directives.pass maxDepth depth body = .ok inner)
    (answered : answer directives name (some (Text.trim expression)) (some inner) = .ok out) :
    directives.pass maxDepth (depth + 1) source =
      .ok (before ++ (out ++ rest.flatMap Edit.source)) := by
  have replaced : applyEdit directives (directives.pass maxDepth depth)
      (.block (openingMarker name expression trailing) body closer) = .ok out := by
    rw [applyEdit_block, passed]
    exact answered
  rw [Directives.pass, parts, applyAll_keep, applyAll_cons, replaced, applyAll_of_isKept kept]
  rfl

/-- Parts of a text that is kept are kept. -/
theorem isKept_text (content : Text) :
    (content.map fun c => Edit.keep [c]).all Edit.isKept = true := by
  simp [Edit.isKept]

/-- Parts of a text that is kept make up the text. -/
theorem source_text (content : Text) :
    (content.map fun c => Edit.keep [c]).flatMap Edit.source = content := by
  simp [List.flatMap_map, Edit.source]

namespace TwoBlocks

variable {p : TwoBlocks} {directives : Directives}

/-- Behind the body of the outer block its inner block is paired if the opener of that is seen. -/
theorem Fits.run_seen (fits : p.Fits directives) (gap : Text) (trailing : Bool) (place : Nat)
    (opened : List (Nat × Text)) (rest : List Mark) :
    Pairing.run directives place ⟨opened, []⟩ (p.marks gap true trailing ++ rest) =
      Pairing.run directives (place + 2) ⟨opened, [(place, place + 1)]⟩ rest := by
  rw [marks, List.append_assoc, run_plain, List.cons_append, Pairing.run, fits.step_open,
    List.append_assoc, run_plain, List.cons_append, Pairing.run, run_plain,
    step_innermost (ne_nil_of_starts fits.innerName.starts) _ _ _ (by simp)]

/-- Otherwise only the closer of the inner block is looked at. -/
theorem run_hidden (p : TwoBlocks) (directives : Directives) (gap : Text) (trailing : Bool)
    (place : Nat) (pairing : Pairing) (rest : List Mark) :
    Pairing.run directives place pairing (p.marks gap false trailing ++ rest) =
      Pairing.run directives (place + 2)
        (pairing.step directives (place + 1) (closingMarker p.inner (clearAfter false p.body) true))
        rest := by
  rw [marks, List.append_assoc, run_plain, List.cons_append, Pairing.run, step_hidden,
    List.append_assoc, run_plain, List.cons_append, Pairing.run, run_plain]

/-- A scan of both blocks finds the markers of the outer one around the marks of its body. -/
theorem Fits.scan_source (fits : p.Fits directives) {gap : Text} (plain : '@' ∉ gap) :
    ∃ afterOpener trailing, Mark.scan (p.source gap) =
      .marker (openingMarker p.outer p.first afterOpener) ::
        (p.marks gap (clearAfter false gap) trailing ++
          [.marker (closingMarker p.outer (clearAfter false (' ' :: p.rest)) true)]) := by
  obtain ⟨starts, continues⟩ := closing_isName fits.outerName.continues
  obtain ⟨trailing, inside⟩ := fits.scan plain false ('@' :: closing p.outer)
  -- Nothing follows the last closer.
  have last := Mark.scanFrom_bare starts continues (clearAfter false (' ' :: p.rest))
    (show EndsName [] from fun c first => by cases first)
  rw [List.append_nil] at last
  refine ⟨isClear (p.content gap ++ '@' :: closing p.outer), trailing, ?_⟩
  rw [Mark.scan, source, Mark.scanFrom_opener fits.outerName.starts fits.outerName.continues
    fits.firstBalanced, inside, last]
  rfl

/-- The outer block is the only part of the source if its body is the one that it was written with:
the inner opener is seen, or the inner closer looks for another name. -/
theorem Fits.plan_source (fits : p.Fits directives) {gap : Text} (plain : '@' ∉ gap)
    (told : clearAfter false gap = true ∨ p.inner ≠ p.outer) :
    ∃ afterOpener closer, plan directives (p.source gap) =
      [.block (openingMarker p.outer p.first afterOpener) (p.content gap) closer] := by
  obtain ⟨afterOpener, trailing, scanned⟩ := fits.scan_source plain
  have outerFilled := ne_nil_of_starts fits.outerName.starts
  have innerFilled := ne_nil_of_starts fits.innerName.starts
  have pairs : outermostPairs directives (Mark.scan (p.source gap)) = [(0, 3)] := by
    rw [outermostPairs, scanned, Pairing.run, step_openingMarker fits.outerBlock]
    cases clear : clearAfter false gap with
    | true =>
      rw [fits.run_seen, Pairing.run, step_innermost outerFilled _ _ _ (by simp)]
      rfl
    | false =>
      -- The closer of the inner block finds no opener of its name.
      have other : ∀ block ∈ [(0, p.outer)], block.2 ≠ p.inner := by
        simpa using Ne.symm (told.resolve_left (by simp [clear]))
      rw [run_hidden, step_unmatched innerFilled _ _ other, Pairing.run,
        step_innermost outerFilled _ _ _ (by simp)]
      rfl
  refine ⟨afterOpener, closingMarker p.outer (clearAfter false (' ' :: p.rest)) true, ?_⟩
  rw [plan, pairs, scanned, edits_pair directives _ _ _ _ _ (by rw [markers_marks]), text_marks]
  rfl

/-- Parts of a text that is kept are its characters. -/
theorem edits_text (directives : Directives) (place : Nat) (content : Text) :
    Directives.edits directives place [] none (content.map .plain) =
      content.map fun c => .keep [c] := by
  have parts := edits_plain directives place [] content []
  rwa [List.append_nil, Directives.edits, List.append_nil] at parts

/-- In the body of the outer block, which is scanned by itself, the opener of the inner one is seen
also if nothing is in front of it. -/
theorem Fits.plan_content (fits : p.Fits directives) {gap : Text} (plain : '@' ∉ gap)
    (clear : clearAfter true gap = true) :
    ∃ afterOpener closer, plan directives (p.content gap) =
      gap.map (fun c => .keep [c]) ++
        .block (openingMarker p.inner p.second afterOpener) p.body closer ::
          (' ' :: p.rest).map fun c => .keep [c] := by
  obtain ⟨trailing, scanned⟩ := fits.scan plain true []
  have marks_eq : Mark.scan (p.content gap) = p.marks gap true trailing := by
    rw [clear] at scanned
    simpa [Mark.scan, Mark.scanFrom] using scanned
  have pairs : outermostPairs directives (Mark.scan (p.content gap)) = [(0, 1)] := by
    have run := fits.run_seen gap trailing 0 [] []
    rw [List.append_nil] at run
    rw [outermostPairs, marks_eq, run]
    rfl
  refine ⟨trailing, closingMarker p.inner (clearAfter false p.body) true, ?_⟩
  have inside : Mark.text (p.body.map .plain) = p.body := by
    simp [Mark.text, List.flatMap_map, Mark.raw]
  rw [plan, pairs, marks_eq, marks, edits_plain,
    edits_pair directives _ _ _ _ _ (by rw [Mark.markers_plain]), inside, edits_text]
  rfl

/-- If both blocks have the same name and no opener is seen in between, the outer one ends at the
closer of the inner one. -/
theorem Fits.plan_same (fits : p.Fits directives) (same : p.inner = p.outer)
    (noBare : directives.ofKind? (closing p.outer) .bare = none) :
    ∃ afterOpener closer, plan directives (p.source []) =
      .block (openingMarker p.outer p.first afterOpener)
          (opener p.inner p.second ++ p.body) closer ::
        ((' ' :: p.rest).map (fun c => .keep [c]) ++ [.keep ('@' :: closing p.outer)]) := by
  obtain ⟨afterOpener, trailing, scanned⟩ := fits.scan_source List.not_mem_nil
  have filled := ne_nil_of_starts fits.outerName.starts
  have hidden : clearAfter false [] = false := rfl
  rw [hidden] at scanned
  have pairs : outermostPairs directives (Mark.scan (p.source [])) = [(0, 2)] := by
    -- The second closer finds no opener any more.
    have none : ∀ block ∈ ([] : List (Nat × Text)), block.2 ≠ p.outer := by simp
    rw [outermostPairs, scanned, Pairing.run, step_openingMarker fits.outerBlock, run_hidden, same,
      step_innermost filled _ _ _ (by simp), Pairing.run, step_unmatched filled _ _ none]
    rfl
  have inside : Mark.text (.marker (p.innerOpener false trailing) :: p.body.map .plain) =
      opener p.inner p.second ++ p.body := by
    simp [Mark.text, List.flatMap_map, Mark.raw, innerOpener]
  have stays : alone directives (closingMarker p.outer (clearAfter false (' ' :: p.rest)) true) =
      .keep ('@' :: closing p.outer) := by
    rw [alone, if_neg]
    · rfl
    · simp [isReplaced, closingMarker, noBare]
  have shape : p.marks [] false trailing ++
      [.marker (closingMarker p.outer (clearAfter false (' ' :: p.rest)) true)] =
      (.marker (p.innerOpener false trailing) :: p.body.map .plain) ++
        .marker (closingMarker p.inner (clearAfter false p.body) true) ::
          ((' ' :: p.rest).map .plain ++
            [.marker (closingMarker p.outer (clearAfter false (' ' :: p.rest)) true)]) := by
    simp [marks]
  refine ⟨afterOpener, closingMarker p.inner (clearAfter false p.body) true, ?_⟩
  rw [plan, pairs, scanned, shape, edits_pair directives _ _ _ _ _
    (by rw [Mark.markers, Mark.markers_plain]), inside, edits_plain, Directives.edits, stays]
  rfl

/-- A pass leaves a block without its closer as it is. -/
theorem Fits.pass_unclosed (fits : p.Fits directives) (maxDepth depth : Nat) :
    directives.pass maxDepth (depth + 1) (opener p.inner p.second ++ p.body) =
      .ok (opener p.inner p.second ++ p.body) := by
  have rest := Mark.scanFrom_plain fits.bodyPlain false []
  rw [List.append_nil, Mark.scanFrom, List.append_nil] at rest
  have scanned : Mark.scan (opener p.inner p.second ++ p.body) =
      .marker (openingMarker p.inner p.second (isClear p.body)) :: p.body.map .plain := by
    rw [Mark.scan, Mark.scanFrom_opener fits.innerName.starts fits.innerName.continues
      fits.secondBalanced, rest]
    rfl
  have pairs : outermostPairs directives (Mark.scan (opener p.inner p.second ++ p.body)) = [] := by
    have run := run_plain directives 1 ⟨[(0, p.inner)], []⟩ p.body []
    rw [List.append_nil] at run
    rw [outermostPairs, scanned, Pairing.run, step_openingMarker fits.innerBlock, run]
    rfl
  -- A directive for blocks does not replace an opener by itself.
  have notSingle := ofKind?_of_ne fits.innerBlock (show DirectiveKind.block ≠ .single by decide)
  refine pass_of_isIdle ?_ maxDepth depth
  rw [isIdle, plan, pairs, scanned]
  refine isKept_edits (fun marker listed => ?_) 0
  rcases List.mem_cons.mp listed with first | other
  · obtain rfl := Mark.marker.inj first
    simp [isReplaced, openingMarker, notSingle]
  · simp at other

/-- Two blocks of which the inner one is right behind the opener of the outer one nest as with a
blank in between if their names differ. If they have the same name, then the outer block ends at the
closer of the inner one, whose opener stays in the body, and the other closer stays behind it unless
a directive without an expression has its name. -/
theorem Fits.pass_adjacent (fits : p.Fits directives)
    {wrap wrapInner : Option Text → Option Text → Text}
    (answers : ∀ expression body,
      answer directives p.outer expression body = .ok (wrap expression body))
    (innerAnswers : ∀ expression body,
      answer directives p.inner expression body = .ok (wrapInner expression body))
    (maxDepth : Nat) {depth : Nat} (deep : 2 < depth) :
    (p.inner ≠ p.outer → directives.pass maxDepth depth (p.source []) =
      .ok (wrap (some p.first) (some (wrapInner (some p.second) (some p.body) ++ ' ' :: p.rest)))) ∧
    (p.inner = p.outer → directives.ofKind? (closing p.outer) .bare = none →
      directives.pass maxDepth depth (p.source []) =
        .ok (wrap (some p.first) (some (opener p.inner p.second ++ p.body)) ++
          (' ' :: p.rest ++ '@' :: closing p.outer))) ∧
    ∀ gap, '@' ∉ gap → clearAfter false gap = true →
      directives.pass maxDepth depth (p.source gap) =
        .ok (wrap (some p.first)
          (some (gap ++ wrapInner (some p.second) (some p.body) ++ ' ' :: p.rest))) := by
  obtain ⟨depth, rfl⟩ : ∃ more, depth = more + 3 := ⟨depth - 3, by omega⟩
  have nested {gap : Text} (plain : '@' ∉ gap) (clear : clearAfter true gap = true)
      (told : clearAfter false gap = true ∨ p.inner ≠ p.outer) :
      directives.pass maxDepth (depth + 3) (p.source gap) =
        .ok (wrap (some p.first)
          (some (gap ++ wrapInner (some p.second) (some p.body) ++ ' ' :: p.rest))) := by
    obtain ⟨_, _, outerParts⟩ := fits.plan_source plain told
    obtain ⟨_, _, innerParts⟩ := fits.plan_content plain clear
    have inside := pass_oneBlock innerParts (isKept_text _)
      (pass_plain directives fits.bodyPlain maxDepth depth) (innerAnswers _ _)
    have outside := @pass_oneBlock directives _ [] _ _ _ _ _ _ _ [] _ _ outerParts rfl inside
      (answers _ _)
    rw [outside, fits.firstTrimmed, fits.secondTrimmed, source_text]
    simp
  refine ⟨fun differ => ?_, fun same noBare => ?_, fun gap plain clear => ?_⟩
  · exact nested List.not_mem_nil rfl (Or.inr differ)
  · obtain ⟨_, _, parts⟩ := fits.plan_same same noBare
    have kept : ((' ' :: p.rest).map (fun c => Edit.keep [c]) ++
        [Edit.keep ('@' :: closing p.outer)]).all Edit.isKept = true := by
      rw [List.all_append, isKept_text]
      rfl
    -- The body of the outer block holds an opener without a closer.
    have outside := @pass_oneBlock directives _ [] _ _ _ _ _ _ _ _ _ _ parts kept
      (fits.pass_unclosed maxDepth (depth + 1)) (answers _ _)
    rw [outside, fits.firstTrimmed, List.flatMap_append, source_text]
    simp [Edit.source]
  · exact nested plain (clearAfter_mono (fun _ => rfl) gap clear) (Or.inl clear)

/-- Two blocks in brackets, the inner one in the outer one. -/
def nestedWraps : TwoBlocks :=
  ⟨"wrap".toList, "a".toList, "wrap".toList, "b".toList, "u".toList, "v".toList⟩

/-- The outer one of two blocks in brackets ends at the first closer, unless a blank is in front of
the inner one. -/
theorem pass_nestedWraps :
    nestedWraps.Fits brackets ∧
      (∀ expression body,
        answer brackets nestedWraps.outer expression body = .ok (bracket [] expression body)) ∧
      brackets.pass 3 3 "@wrap(a)@wrap(b)u@endwrap v@endwrap".toList =
        .ok "[a:@wrap(b)u] v@endwrap".toList ∧
      brackets.pass 3 3 "@wrap(a) @wrap(b)u@endwrap v@endwrap".toList =
        .ok "[a: [b:u] v]".toList := by
  have word : IsWord "wrap".toList := ⟨rfl, List.all_eq_true.mp rfl⟩
  have first : Balanced "a".toList := .plain (by decide) (by decide) (by decide) .nil
  have second : Balanced "b".toList := .plain (by decide) (by decide) (by decide) .nil
  have fits : nestedWraps.Fits brackets :=
    ⟨word, word, rfl, rfl, first, second, rfl, rfl, by decide, by decide⟩
  have answers : ∀ expression body,
      answer brackets nestedWraps.outer expression body = .ok (bracket [] expression body) :=
    fun _ _ => rfl
  obtain ⟨-, same, apart⟩ := fits.pass_adjacent answers answers 3 (show 2 < 3 by decide)
  exact ⟨fits, answers, same rfl rfl, apart [' '] (by decide) rfl⟩

/-- Of two conditions, the inner one right behind the opener of the outer one, the inner one is left
as it is written. -/
theorem pass_adjacentConditions :
    Directive.builtins.pass 32 32 "@if(a)@if(b)u@endif v@endif".toList =
        .ok "<% if a %>@if(b)u<% endif %> v@endif".toList ∧
      Directive.builtins.pass 32 32 "@if(a)@if(b)u@endif v@endif".toList ≠
        .ok "<% if a %><% if b %>u<% endif %> v<% endif %>".toList := by
  have passed : Directive.builtins.pass 32 32 "@if(a)@if(b)u@endif v@endif".toList =
      .ok "<% if a %>@if(b)u<% endif %> v@endif".toList := rfl
  refine ⟨passed, fun claimed => ?_⟩
  rw [passed] at claimed
  exact absurd (Except.ok.inj claimed) (by decide)

end TwoBlocks

end Template

end Templates
