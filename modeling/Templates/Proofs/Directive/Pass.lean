import Templates.Proofs.Directive.Pairing

/-!
A pass over a written template gives what the template stands for.

Every block goes to its directive with its own expression and with what its own body stands for,
however blocks of equal and of different names are nested in each other.
-/

namespace Templates

open Directives

namespace Template

/-- Texts outside of blocks are kept. -/
theorem edits_plain (directives : Directives) (place : Nat) (pairs : List (Nat × Nat))
    (content : Text) (rest : List Mark) :
    Directives.edits directives place pairs none (content.map .plain ++ rest) =
      content.map (fun c => .keep [c]) ++ Directives.edits directives place pairs none rest := by
  induction content with
  | nil => rfl
  | cons c content ih => simp only [List.map_cons, List.cons_append, Directives.edits, ih]

/-- A marker in front of all pairs is a part by itself. -/
theorem edits_marker {directives : Directives} {place : Nat} {pairs : List (Nat × Nat)}
    (later : ∀ pair ∈ pairs, place < pair.1) (marker : Marker) (rest : List Mark) :
    Directives.edits directives place pairs none (.marker marker :: rest) =
      alone directives marker :: Directives.edits directives (place + 1) pairs none rest := by
  -- The next block begins at a later marker, if there is one.
  cases pairs with
  | nil => rfl
  | cons pair pairs =>
    have notHere : place ≠ pair.1 := Nat.ne_of_lt (later pair (by simp))
    simp [Directives.edits, notHere]

/-- Marks in front of the closer of a block belong to its body. -/
theorem edits_inside (directives : Directives) {place close : Nat} (pairs : List (Nat × Nat))
    (opener : Marker) (body inner rest : List Mark) (before : place + Mark.markers inner ≤ close) :
    Directives.edits directives place pairs (some (opener, close, body)) (inner ++ rest) =
      Directives.edits directives (place + Mark.markers inner) pairs
        (some (opener, close, inner.reverse ++ body)) rest := by
  -- A block goes on until the count of markers reaches that of its closer.
  induction inner generalizing place body with
  | nil => rfl
  | cons mark inner ih =>
    cases mark with
    | plain c =>
      rw [List.cons_append, Directives.edits, ih (.plain c :: body) before]
      simp [Mark.markers]
    | marker m =>
      simp only [Mark.markers] at before
      have notClose : place ≠ close := by omega
      rw [List.cons_append, Directives.edits, if_neg notClose,
        ih (.marker m :: body) (show place + 1 + Mark.markers inner ≤ close by omega)]
      simp [Mark.markers, show place + 1 + Mark.markers inner = place + (Mark.markers inner + 1) by
        omega]

/-- A marker by itself is replaced. -/
theorem alone_loneMarker {directives : Directives} {name : Text} {expression : Option Text}
    (known : (directives.ofKind? name (loneKind expression)).isSome = true) :
    alone directives (loneMarker name expression) = .single (loneMarker name expression) := by
  -- Its directive is known for a marker of this shape.
  have replaced : isReplaced directives (loneMarker name expression) = true := by
    cases expression <;> exact known
  rw [alone, if_pos replaced]

/-- A marker by itself in front of a template is a part by itself. -/
theorem edits_loneMarker {directives : Directives} {name : Text} {expression : Option Text}
    (known : (directives.ofKind? name (loneKind expression)).isSome = true) (tail : Template)
    {place : Nat} {later : List (Nat × Nat)}
    (behind : ∀ pair ∈ later, place + 1 + tail.markers ≤ pair.1) (rest : List Mark) :
    Directives.edits directives place (tail.pairs (place + 1) ++ later) none
        (.marker (loneMarker name expression) :: rest) =
      .single (loneMarker name expression) ::
        Directives.edits directives (place + 1) (tail.pairs (place + 1) ++ later) none rest := by
  -- All pairs are those of the template or come behind it.
  have front : ∀ pair ∈ tail.pairs (place + 1) ++ later, place < pair.1 := by
    intro pair member
    rcases List.mem_append.mp member with own | other
    · exact le_of_mem_pairs tail own
    · have := behind pair other
      omega
  rw [edits_marker front, alone_loneMarker known]

/-- The parts of a source begin with those of a template at its front. -/
theorem Laid.edits_append {directives : Directives} {template : Template} {marks : List Mark}
    {edits : List Edit} (laid : Laid directives template marks edits) {place : Nat}
    {later : List (Nat × Nat)} (behind : ∀ pair ∈ later, place + template.markers ≤ pair.1)
    (rest : List Mark) :
    Directives.edits directives place (template.pairs place ++ later) none (marks ++ rest) =
      edits ++ Directives.edits directives (place + template.markers) later none rest := by
  -- A block is entered at its opener and left at its closer, whatever its body holds.
  induction laid generalizing place later rest with
  | done => rfl
  | text content _ ih =>
    rw [List.append_assoc, edits_plain, pairs, ih behind, List.append_assoc]
    rfl
  | @single name expression tail _ _ _ known _ ih =>
    have count : place + (tail.markers + 1) = place + 1 + tail.markers := by omega
    simp only [markers, count] at behind
    have replaced := @edits_loneMarker directives name (some expression) known tail
    rw [List.cons_append, pairs, replaced behind, ih behind, markers, count]
    rfl
  | @bare name tail _ _ _ known _ ih =>
    have count : place + (tail.markers + 1) = place + 1 + tail.markers := by omega
    simp only [markers, count] at behind
    have replaced := @edits_loneMarker directives name none known tail
    rw [List.cons_append, pairs, replaced behind, ih behind, markers, count]
    rfl
  | @block name expression _ _ _ body tail inner _ _ _ _ _ _ innerLaid _ _ ih =>
    have count : place + (body.markers + tail.markers + 2) =
        place + body.markers + 2 + tail.markers := by omega
    simp only [markers, count] at behind
    have size := innerLaid.markers_eq
    have close : place + 1 + Mark.markers inner = place + body.markers + 1 := by omega
    rw [List.cons_append, pairs, List.cons_append, Directives.edits, if_pos rfl, List.append_assoc,
      edits_inside _ _ _ _ _ _ (Nat.le_of_eq close), List.cons_append, Directives.edits,
      if_pos close, close, ih behind, markers, count]
    simp [innerLaid.text_eq]

/-- A pass over a well formed template edits the parts of the template. -/
theorem WellFormed.plan {directives : Directives} {template : Template}
    (wellFormed : WellFormed directives template) :
    ∃ marks, Laid directives template marks (Directives.plan directives template.source) := by
  -- The whole source is scanned, and no pairs come behind those of the template.
  obtain ⟨marks, edits, _, laid, scanned⟩ := wellFormed.known.scan wellFormed.spaced
  rw [List.append_nil] at scanned
  have scanned : Mark.scan template.source = marks := by
    simpa [Mark.scan, Mark.scanFrom] using scanned
  have nothing : ∀ pair ∈ ([] : List (Nat × Nat)), 0 + template.markers ≤ pair.1 := by simp
  have parts := laid.edits_append nothing []
  simp only [List.append_nil, Directives.edits] at parts
  exact ⟨marks, by rw [Directives.plan, scanned, laid.outermostPairs, parts]; exact laid⟩

end Template

namespace Directives

/-- Parts that are kept come out as they are. -/
theorem applyAll_keep (directives : Directives) (inner : Text → Except Error Text) (content : Text)
    (edits : List Edit) :
    applyAll (applyEdit directives inner) (content.map (fun c => .keep [c]) ++ edits) =
      (do return content ++ (← applyAll (applyEdit directives inner) edits)) := by
  -- Each character is put in front of what becomes of the others.
  induction content with
  | nil =>
    cases rest : applyAll (applyEdit directives inner) edits <;>
      simp [rest, Bind.bind, Except.bind, Pure.pure, Except.pure]
  | cons c content ih =>
    simp only [List.map_cons, List.cons_append, applyAll, applyEdit, ih]
    cases rest : applyAll (applyEdit directives inner) edits <;>
      simp [Bind.bind, Except.bind, Pure.pure, Except.pure]

/-- The first part is replaced before the others. -/
theorem applyAll_cons (apply : Edit → Except Error Text) (edit : Edit) (edits : List Edit) :
    applyAll apply (edit :: edits) = (do
      let first ← apply edit
      return first ++ (← applyAll apply edits)) := by
  -- The first complaint is that of the first part, if it complains.
  cases first : apply edit with
  | error e => simp [applyAll, first, Bind.bind, Except.bind]
  | ok text =>
    cases rest : applyAll apply edits <;>
      simp [applyAll, first, rest, Bind.bind, Except.bind, Pure.pure, Except.pure]

/-- A marker by itself is replaced by what its directive answers. -/
theorem applyEdit_marker (directives : Directives) (inner : Text → Except Error Text)
    (marker : Marker) :
    applyEdit directives inner (.single marker) =
      Template.answer directives marker.name marker.expression none := by
  cases found : directives.find marker.name <;>
    simp [applyEdit, Template.answer, found, Bind.bind, Except.bind]

/-- A block is replaced by what its directive answers, given its body as compiled. -/
theorem applyEdit_markers (directives : Directives) (inner : Text → Except Error Text)
    (opener : Marker) (body : Text) (closer : Marker) :
    applyEdit directives inner (.block opener body closer) = (do
      let body ← inner body
      Template.answer directives opener.name opener.expression (some body)) := by
  cases compiled : inner body with
  | error e => simp [applyEdit, compiled, Bind.bind, Except.bind]
  | ok text =>
    cases found : directives.find opener.name <;>
      simp [applyEdit, Template.answer, compiled, found, Bind.bind, Except.bind]

/-- A written marker by itself is replaced by the answer to what it holds. -/
theorem applyEdit_single (directives : Directives) (inner : Text → Except Error Text)
    (name : Text) (expression : Option Text) :
    applyEdit directives inner (.single (Template.loneMarker name expression)) =
      Template.answer directives name (expression.map Text.trim) none :=
  applyEdit_marker directives inner _

/-- A written block is replaced by the answer to what it holds. -/
theorem applyEdit_block (directives : Directives) (inner : Text → Except Error Text)
    (name expression : Text) (trailing : Bool) (body : Text) (closer : Marker) :
    applyEdit directives inner
        (.block (Template.openingMarker name expression trailing) body closer) = (do
      let body ← inner body
      Template.answer directives name (some (Text.trim expression)) (some body)) :=
  applyEdit_markers directives inner _ body closer

end Directives

namespace Template

/-- The parts of a template become what it stands for when bodies of its blocks do. -/
theorem Laid.applyAll {directives : Directives} {template : Template} {marks : List Mark}
    {edits : List Edit} (laid : Laid directives template marks edits)
    {inner : Text → Except Error Text} {depth : Nat}
    (bodies : ∀ body : Template, WellFormed directives body → body.nesting < depth →
      inner body.source = body.translate directives)
    (shallow : template.nesting ≤ depth) :
    Directives.applyAll (applyEdit directives inner) edits = template.translate directives := by
  -- The body of a block nests less deep than the block.
  induction laid with
  | done => rfl
  | text content _ ih => rw [applyAll_keep, translate, ih shallow]
  | single expression _ _ _ ih => rw [applyAll_cons, applyEdit_single, translate, ih shallow]; rfl
  | bare _ _ _ ih => rw [applyAll_cons, applyEdit_single, translate, ih shallow]; rfl
  | block expression _ _ _ _ _ wellFormed _ _ _ ih =>
    simp only [nesting] at shallow
    rw [applyAll_cons, applyEdit_block, translate, bodies _ wellFormed (by omega),
      ih (by omega), bind_assoc]

/-- A pass over a written template gives what the template stands for, or the complaint that its
directives make. -/
theorem pass_source {directives : Directives} (maxDepth : Nat) {depth : Nat} {template : Template}
    (wellFormed : WellFormed directives template) (shallow : template.nesting < depth) :
    directives.pass maxDepth depth template.source = template.translate directives := by
  -- The bodies of blocks are compiled by passes that may nest one level less deep.
  induction depth generalizing template with
  | zero => omega
  | succ depth ih =>
    obtain ⟨marks, laid⟩ := wellFormed.plan
    rw [Directives.pass]
    exact laid.applyAll (fun body formed nests => ih formed nests) (Nat.le_of_lt_succ shallow)

/-- Directives that never complain and write what a function says. -/
def Answers (directives : Directives) (write : Text → Option Text → Option Text → Text) : Prop :=
  ∀ name directive, directives.find name = .ok directive →
    ∀ expression body, directive.handler expression body = .ok (write name expression body)

/-- A directive that never complains gives its answer. -/
theorem Answers.answer {directives : Directives}
    {write : Text → Option Text → Option Text → Text} (answers : Answers directives write)
    {name : Text} {kind : DirectiveKind} (known : (directives.ofKind? name kind).isSome = true)
    (expression body : Option Text) :
    Template.answer directives name expression body = .ok (write name expression body) := by
  cases found : directives.get? name with
  | none => simp [ofKind?, found] at known
  | some directive =>
    have located : directives.find name = .ok directive := by simp [find, found]
    rw [Template.answer, located]
    show directive.apply expression body = _
    rw [Directive.apply, answers name directive located]
    rfl

/-- With directives that never complain there is a translation without complaints. -/
theorem Known.translate_eq {directives : Directives}
    {write : Text → Option Text → Option Text → Text} (answers : Answers directives write)
    {template : Template} (known : template.Known directives) (trimmed : template.Trimmed) :
    template.translate directives = .ok (template.translation write) := by
  -- Each part is answered by itself, and no part complains.
  induction template with
  | done => rfl
  | text content rest ih => rw [translate, ih known.2 trimmed]; rfl
  | single name expression rest ih =>
    obtain ⟨-, isSingle, -, others⟩ := known
    rw [translate, trimmed.1, answers.answer isSingle, ih others trimmed.2]
    rfl
  | bare name rest ih =>
    obtain ⟨-, isBare, others⟩ := known
    rw [translate, answers.answer isBare, ih others trimmed]
    rfl
  | block name expression body rest bodyIh restIh =>
    obtain ⟨-, isBlock, -, inside, others⟩ := known
    rw [translate, trimmed.1, bodyIh inside trimmed.2.1, restIh others trimmed.2.2]
    simp only [Bind.bind, Except.bind, answers.answer isBlock]
    rfl

/-- A pass over a written template gives its translation: texts stay, a block is written from its
expression and the translation of its own body, and other markers are written from what they
hold. -/
theorem pass_source_eq_translation {directives : Directives}
    {write : Text → Option Text → Option Text → Text} (answers : Answers directives write)
    {template : Template} (wellFormed : WellFormed directives template)
    (trimmed : template.Trimmed) (maxDepth : Nat) {depth : Nat}
    (shallow : template.nesting < depth) :
    directives.pass maxDepth depth template.source = .ok (template.translation write) := by
  rw [pass_source maxDepth wellFormed shallow]
  exact wellFormed.known.translate_eq answers trimmed

/-- What a block in brackets comes out as. -/
def bracket (_ : Text) (expression body : Option Text) : Text :=
  '[' :: expression.getD [] ++ ':' :: body.getD [] ++ [']']

/-- A directive that puts brackets around its expression and its body. -/
def brackets : Directives :=
  [("wrap".toList, ⟨"wrap".toList, .block, fun expression body =>
    .ok (bracket [] expression body)⟩)]

/-- A block inside of another one of the same name. -/
def nestedBrackets : Template :=
  block "wrap".toList "a".toList
    (text " x ".toList
      (block "wrap".toList "f(')')".toList (text " y ".toList done) (text " z ".toList done)))
    done

/-- The inner of two blocks of one name ends at the first of the two closers. -/
theorem pass_nestedBrackets :
    Answers brackets bracket ∧ WellFormed brackets nestedBrackets ∧ nestedBrackets.Trimmed ∧
      nestedBrackets.nesting < 3 ∧
      brackets.pass 3 3 "@wrap(a) x @wrap(f(')')) y @endwrap z @endwrap".toList =
        .ok "[a: x [f(')'): y ] z ]".toList := by
  have answers : Answers brackets bracket := by
    intro name directive found expression body
    -- There is no other directive in the list.
    by_cases same : "wrap".toList = name
    · simp only [find, brackets, Fields.get?, if_pos same, Except.ok.injEq] at found
      subst found
      rfl
    · simp only [find, brackets, Fields.get?, if_neg same] at found
      cases found
  have isName : IsName "wrap".toList := ⟨rfl, List.all_eq_true.mp rfl, rfl⟩
  have letter : Balanced "a".toList := .plain (by decide) (by decide) (by decide) .nil
  have call : Balanced "f(')')".toList := by
    -- The closing parenthesis in quotes does not count.
    have quoted : Balanced ['\'', ')', '\''] :=
      .quoted (Or.inr rfl) (.plain (by decide) (by decide) .nil) .nil
    exact .plain (by decide) (by decide) (by decide) (.nested quoted .nil)
  have known : nestedBrackets.Known brackets :=
    ⟨isName, rfl, letter, ⟨by decide, isName, rfl, call, ⟨by decide, trivial⟩, by decide, trivial⟩,
      trivial⟩
  have spaced : Spaced true [] nestedBrackets := by
    simp [nestedBrackets, Spaced, clearAfter, Text.isMarkupBlank, EndsName, source,
      Marker.continuesName]
  have trimmed : nestedBrackets.Trimmed := ⟨rfl, ⟨rfl, trivial, trivial⟩, trivial⟩
  exact ⟨answers, ⟨known, spaced⟩, trimmed, by decide,
    pass_source_eq_translation answers ⟨known, spaced⟩ trimmed 3 (by decide)⟩

end Template

end Templates
