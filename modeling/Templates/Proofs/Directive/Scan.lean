import Templates.Proofs.Directive.Template

/-!
A scan of a written template finds its markers and the parts that a pass edits.

The markers that open and close blocks may have anything next to them, so what a scan notes about
their neighbours is left open.
-/

namespace Templates

open Marker Directives

namespace Template

/-- The marker at the front of a block. -/
def openingMarker (name expression : Text) (trailing : Bool) : Marker :=
  ⟨name, some (Text.trim expression), true, trailing, opener name expression⟩

/-- The marker at the end of a block. -/
def closingMarker (name : Text) (leading trailing : Bool) : Marker :=
  ⟨closing name, none, leading, trailing, '@' :: closing name⟩

/-- A marker that is replaced by itself. -/
def loneMarker (name : Text) (expression : Option Text) : Marker :=
  ⟨name, expression.map Text.trim, true, true,
    match expression with
    | some e => opener name e
    | none => '@' :: name⟩

/-- The marks that a scan finds in a template, and the parts that a pass edits. -/
inductive Laid (directives : Directives) : Template → List Mark → List Edit → Prop where
  | done : Laid directives done [] []
  | text (content : Text) {rest : Template} {marks : List Mark} {edits : List Edit} :
    Laid directives rest marks edits →
      Laid directives (text content rest) (content.map .plain ++ marks)
        (content.map (fun c => .keep [c]) ++ edits)
  | single {name : Text} (expression : Text) {rest : Template} {marks : List Mark}
    {edits : List Edit} :
    IsName name → (directives.ofKind? name .single).isSome = true →
    Laid directives rest marks edits →
      Laid directives (single name expression rest)
        (.marker (loneMarker name (some expression)) :: marks)
        (.single (loneMarker name (some expression)) :: edits)
  | bare {name : Text} {rest : Template} {marks : List Mark} {edits : List Edit} :
    IsName name → (directives.ofKind? name .bare).isSome = true → Laid directives rest marks edits →
      Laid directives (bare name rest) (.marker (loneMarker name none) :: marks)
        (.single (loneMarker name none) :: edits)
  | block {name : Text} (expression : Text) (afterOpener beforeCloser afterCloser : Bool)
    {body rest : Template} {inner marks : List Mark} {innerEdits edits : List Edit} :
    IsName name → (directives.ofKind? name .block).isSome = true → WellFormed directives body →
      Laid directives body inner innerEdits → Laid directives rest marks edits →
        Laid directives (block name expression body rest)
          (.marker (openingMarker name expression afterOpener) ::
            (inner ++ .marker (closingMarker name beforeCloser afterCloser) :: marks))
          (.block (openingMarker name expression afterOpener) body.source
            (closingMarker name beforeCloser afterCloser) :: edits)

/-- The marks of a template put together give its source back. -/
theorem Laid.text_eq {directives : Directives} {template : Template} {marks : List Mark}
    {edits : List Edit} (laid : Laid directives template marks edits) :
    Mark.text marks = template.source := by
  -- Each mark remembers how it was written.
  induction laid with
  | done => rfl
  | text content _ ih =>
    have plain : (content.map Mark.plain).flatMap Mark.raw = content := by
      simp [List.flatMap_map, Mark.raw]
    simp only [Mark.text] at ih
    simp [Mark.text, source, plain, ih]
  | single expression _ _ _ ih =>
    simp only [Mark.text] at ih
    simp [Mark.text, source, Mark.raw, loneMarker, ih]
  | bare _ _ _ ih =>
    simp only [Mark.text] at ih
    simp [Mark.text, source, Mark.raw, loneMarker, ih]
  | block expression _ _ _ _ _ _ _ _ bodyIh restIh =>
    simp only [Mark.text] at bodyIh restIh
    simp [Mark.text, source, Mark.raw, openingMarker, closingMarker, bodyIh, restIh]

end Template

namespace Marker

/-- A name that may go on is read up to a text that ends it. -/
theorem takeWhile_name {name after : Text} (continues : ∀ c ∈ name, continuesName c = true)
    (ends : ∀ c ∈ after.head?, continuesName c = false) :
    (name ++ after).takeWhile continuesName = name ∧
      (name ++ after).dropWhile continuesName = after := by
  -- What follows the name does not go on with it.
  rw [List.takeWhile_append_of_pos continues, List.dropWhile_append_of_pos continues]
  cases after with
  | nil => simp
  | cons c rest => simp [ends c rfl]

/-- A name with a balanced expression in parentheses is a marker with that expression. -/
theorem read_opener {name expression : Text} (continues : ∀ c ∈ name, continuesName c = true)
    (balanced : Balanced expression) (leading : Bool) (after : Text) :
    read leading (name ++ ('(' :: expression ++ ')' :: after)) =
      (⟨name, some (Text.trim expression), leading, isClear after,
        Template.opener name expression⟩, after) := by
  -- The parenthesis ends the name, and the search for the closing one takes the expression.
  have ends : ∀ c ∈ ('(' :: expression ++ ')' :: after).head?, continuesName c = false := by
    simp [continuesName]
  obtain ⟨taken, dropped⟩ := takeWhile_name continues ends
  simp only [read, taken, dropped]
  simp [balance?_close balanced, Template.opener]

/-- A name without an expression behind it is a bare marker. -/
theorem read_bare {name : Text} (continues : ∀ c ∈ name, continuesName c = true) (leading : Bool)
    {after : Text} (ends : Template.EndsName after) :
    read leading (name ++ after) =
      (⟨name, none, leading, isClear after, '@' :: name⟩, after) := by
  obtain ⟨taken, dropped⟩ := takeWhile_name continues fun c first => (ends c first).1
  simp only [read, taken, dropped]
  -- Only a parenthesis behind the name would be looked at more closely.
  split
  · rename_i rest
    exact absurd rfl (ends '(' rfl).2
  · rfl

/-- A blank ends a name and is no expression of it. -/
theorem endsName_of_isClear {text : Text} (clear : isClear text = true) :
    Template.EndsName text := by
  -- None of the blanks goes on with a name.
  intro c first
  cases text with
  | nil => simp at first
  | cons head rest =>
    obtain rfl : head = c := by simpa using first
    simp only [isClear, Text.isMarkupBlank, Bool.or_eq_true, decide_eq_true_eq] at clear
    rcases clear with (((rfl | rfl) | rfl) | rfl) | rfl <;> decide

end Marker

namespace Mark

open Template

/-- Characters that belong to a marker are passed over. -/
theorem scanFrom_skip (clear : Bool) (skipped rest : Text) :
    scanFrom clear skipped.length (skipped ++ rest) =
      scanFrom (clearAfter clear skipped) 0 rest := by
  -- Each character that is passed over tells whether it is clear behind it.
  induction skipped generalizing clear with
  | nil => rfl
  | cons c skipped ih => exact ih _

/-- Characters other than at signs stand for themselves. -/
theorem scanFrom_plain {content : Text} (plain : '@' ∉ content) (clear : Bool) (rest : Text) :
    scanFrom clear 0 (content ++ rest) =
      content.map .plain ++ scanFrom (clearAfter clear content) 0 rest := by
  -- Only an at sign could begin a marker.
  induction content generalizing clear with
  | nil => rfl
  | cons c content ih =>
    have noAt : c ≠ '@' := fun same => plain (by simp [same])
    have others : '@' ∉ content := fun member => plain (by simp [member])
    simp [scanFrom, noAt, clearAfter, ih others]

/-- An at sign in front of a name begins the marker that is read there. -/
theorem scanFrom_marker {clear : Bool} {body rest : Text} {marker : Marker}
    (starts : (body ++ rest).head?.any startsName = true)
    (found : Marker.read clear (body ++ rest) = (marker, rest)) :
    scanFrom clear 0 ('@' :: (body ++ rest)) =
      .marker marker :: scanFrom (clearAfter false body) 0 rest := by
  -- The characters of the marker that was read are passed over.
  have count : (body ++ rest).length - rest.length = body.length := by simp
  rw [scanFrom, if_pos ⟨rfl, starts⟩]
  simp only [found, count]
  rw [scanFrom_skip]

/-- No name character is blank. -/
theorem isMarkupBlank_of_continuesName {c : Char} (continues : continuesName c = true) :
    Text.isMarkupBlank c = false := by
  -- The five blanks are no name characters.
  rw [Bool.eq_false_iff]
  intro blank
  simp only [Text.isMarkupBlank, Bool.or_eq_true, decide_eq_true_eq] at blank
  rcases blank with (((rfl | rfl) | rfl) | rfl) | rfl <;> simp [continuesName] at continues

/-- Nothing is clear right behind a name. -/
theorem clearAfter_name {name : Text} (continues : ∀ c ∈ name, continuesName c = true) :
    clearAfter false name = false := by
  -- The last character of the name is no blank, like all others.
  induction name with
  | nil => rfl
  | cons c name ih =>
    simp only [clearAfter, isMarkupBlank_of_continuesName (continues c (by simp))]
    exact ih fun c member => continues c (by simp [member])

/-- An opener is one marker, and nothing is clear right behind it. -/
theorem scanFrom_opener {name expression : Text} (starts : name.head?.any startsName = true)
    (continues : ∀ c ∈ name, continuesName c = true) (balanced : Balanced expression) (clear : Bool)
    (rest : Text) :
    scanFrom clear 0 (opener name expression ++ rest) =
      .marker ⟨name, some (Text.trim expression), clear, isClear rest, opener name expression⟩ ::
        scanFrom false 0 rest := by
  -- The opener is a marker that is read up to its closing parenthesis.
  have shape : opener name expression ++ rest =
      '@' :: ((name ++ ('(' :: expression ++ [')'])) ++ rest) := by simp [opener]
  have first : ((name ++ ('(' :: expression ++ [')'])) ++ rest).head?.any startsName = true := by
    cases name <;> simp_all
  have found : Marker.read clear ((name ++ ('(' :: expression ++ [')'])) ++ rest) =
      (⟨name, some (Text.trim expression), clear, isClear rest, opener name expression⟩,
        rest) := by
    simpa using read_opener continues balanced clear rest
  rw [shape, scanFrom_marker first found]
  -- The last character of the opener is a parenthesis.
  have blocked : clearAfter false (name ++ ('(' :: expression ++ [')'])) = false := by
    rw [clearAfter_append, List.cons_append, clearAfter, clearAfter_append]
    rfl
  rw [blocked]

/-- A name behind an at sign is one marker, and nothing is clear right behind it. -/
theorem scanFrom_bare {name rest : Text} (starts : name.head?.any startsName = true)
    (continues : ∀ c ∈ name, continuesName c = true) (clear : Bool) (ends : EndsName rest) :
    scanFrom clear 0 ('@' :: name ++ rest) =
      .marker ⟨name, none, clear, isClear rest, '@' :: name⟩ :: scanFrom false 0 rest := by
  have first : (name ++ rest).head?.any startsName = true := by
    cases name <;> simp_all
  rw [List.cons_append, scanFrom_marker first (read_bare continues clear ends),
    clearAfter_name continues]

end Mark

namespace Template

/-- The name of a closing marker is a name. -/
theorem closing_isName {name : Text} (continues : ∀ c ∈ name, continuesName c = true) :
    (closing name).head?.any startsName = true ∧
      ∀ c ∈ closing name, continuesName c = true := by
  -- The word in front of the name is made of letters.
  refine ⟨by simp [closing, startsName], fun c member => ?_⟩
  rcases List.mem_append.mp member with front | back
  · have : c = 'e' ∨ c = 'n' ∨ c = 'd' := by simpa using front
    rcases this with rfl | rfl | rfl <;> decide
  · exact continues c back

/-- A scan of a template finds the marks of the template and goes on behind it. -/
theorem Known.scan {directives : Directives} {clear : Bool} {after : Text} {template : Template}
    (known : template.Known directives) (spaced : Spaced clear after template) :
    ∃ marks edits clear', Laid directives template marks edits ∧
      Mark.scanFrom clear 0 (template.source ++ after) =
        marks ++ Mark.scanFrom clear' 0 after := by
  -- Each part is read by itself, since what follows it can neither extend nor hide it.
  induction template generalizing clear after with
  | done => exact ⟨[], [], clear, .done, rfl⟩
  | text content rest ih =>
    obtain ⟨plain, others⟩ := known
    obtain ⟨marks, edits, clear', laid, scanned⟩ := ih others spaced
    refine ⟨_, _, clear', .text content laid, ?_⟩
    rw [source, List.append_assoc, Mark.scanFrom_plain plain, scanned, List.append_assoc]
  | single name expression rest ih =>
    obtain ⟨isName, isSingle, balanced, others⟩ := known
    obtain ⟨rfl, trailing, apart⟩ := spaced
    obtain ⟨marks, edits, clear', laid, scanned⟩ := ih others apart
    refine ⟨_, _, clear', .single expression isName isSingle laid, ?_⟩
    rw [source, List.append_assoc,
      Mark.scanFrom_opener isName.starts isName.continues balanced, scanned, trailing]
    rfl
  | bare name rest ih =>
    obtain ⟨isName, isBare, others⟩ := known
    obtain ⟨rfl, trailing, apart⟩ := spaced
    obtain ⟨marks, edits, clear', laid, scanned⟩ := ih others apart
    refine ⟨_, _, clear', .bare isName isBare laid, ?_⟩
    rw [source, List.append_assoc, Mark.scanFrom_bare isName.starts isName.continues true
      (endsName_of_isClear trailing), scanned, trailing]
    rfl
  | block name expression body rest bodyIh restIh =>
    obtain ⟨isName, isBlock, balanced, inside, others⟩ := known
    obtain ⟨rfl, within, ends, apart⟩ := spaced
    obtain ⟨inner, innerEdits, between, innerLaid, innerScanned⟩ := bodyIh inside within
    obtain ⟨marks, edits, clear', laid, scanned⟩ := restIh others apart
    obtain ⟨starts, continues⟩ := closing_isName isName.continues
    let afterOpener := isClear (body.source ++ ('@' :: closing name ++ (rest.source ++ after)))
    let afterCloser := isClear (rest.source ++ after)
    refine ⟨_, _, clear', .block expression afterOpener between afterCloser isName isBlock
      ⟨inside, within.alone⟩ innerLaid laid, ?_⟩
    rw [source, List.append_assoc,
      Mark.scanFrom_opener isName.starts isName.continues balanced, List.append_assoc,
      List.append_assoc, innerScanned, Mark.scanFrom_bare starts continues between ends, scanned]
    simp [openingMarker, closingMarker, afterOpener, afterCloser]

end Template

end Templates
