import Templates.Directive.Builtin
import Templates.Directive.Compile
import Templates.Proofs.Fields

/-!
Sources that a pass leaves as they are.

Directives whose answers are tags never write a marker as it was. A pass of theirs leaves a source as
it is exactly when it replaces nothing, and compiling ends at such sources only.
-/

namespace Templates

namespace Marker

/-- The text up to a parenthesis that closes, the parenthesis and what follows it make up the text
that was searched. -/
theorem eq_of_balance? {depth : Nat} {quote : Option Char} {text inner after : Text}
    (found : balance? depth quote text = some (inner, after)) : text = inner ++ ')' :: after := by
  -- The induction follows the search, which takes two characters at a backslash in quotes.
  induction depth, quote, text using balance?.induct generalizing inner after with
  | case1 depth quote c rest ih =>
    rw [balance?, Option.map_eq_some_iff] at found
    obtain ⟨⟨front, back⟩, behind, same⟩ := found
    cases same
    rw [ih behind]
    rfl
  | case2 depth quote c rest noEscape ih =>
    rw [balance?, Option.map_eq_some_iff] at found
    · obtain ⟨⟨front, back⟩, behind, same⟩ := found
      cases same
      rw [ih behind]
      rfl
    · exact noEscape
  | case3 depth c rest closes =>
    rw [balance?, if_pos closes] at found
    cases found
    rw [closes.1]
    rfl
  | case4 depth c rest goesOn deeper =>
    rename_i quote ih
    rw [balance?, if_neg goesOn, Option.map_eq_some_iff] at found
    obtain ⟨⟨front, back⟩, behind, same⟩ := found
    cases same
    rw [ih behind]
    rfl
  | case5 depth quote => simp [balance?] at found

/-- A marker that has been read begins with an at sign. -/
theorem head_raw_read (leading : Bool) (text : Text) :
    (read leading text).1.raw.head? = some '@' := by
  rw [read]
  split
  · split <;> rfl
  · rfl

/-- A marker that has been read and what follows it make up the text from its at sign on. -/
theorem raw_read (leading : Bool) (text : Text) :
    (read leading text).1.raw ++ (read leading text).2 = '@' :: text := by
  have whole : text.takeWhile continuesName ++ text.dropWhile continuesName = text :=
    List.takeWhile_append_dropWhile
  -- A parenthesis that is never closed stands behind the marker, like all that is no parenthesis.
  rw [read]
  split
  · rename_i rest opens
    split
    · rename_i inner after closed
      -- The expression ends at the parenthesis that closes.
      rw [opens, eq_of_balance? closed] at whole
      simpa using whole
    · simp [whole]
  · simp [whole]

end Marker

namespace Mark

/-- The marks of a text behind characters that belong to a marker make up what follows these. -/
theorem text_scanFrom (leading : Bool) (skip : Nat) (source : Text) :
    text (scanFrom leading skip source) = source.drop skip := by
  -- The characters of a marker are counted off behind it, which takes them off the text.
  induction source generalizing leading skip with
  | nil => cases skip <;> rfl
  | cons c rest ih =>
    cases skip with
    | succ skip => exact ih _ skip
    | zero =>
      rw [scanFrom]
      split
      · rename_i begins
        obtain ⟨rfl, -⟩ := begins
        -- What follows the marker is as long as what is left of the text behind it.
        have whole := Marker.raw_read leading rest
        have head := Marker.head_raw_read leading rest
        cases found : Marker.read leading rest with
        | mk marker after =>
          rw [found] at whole head
          obtain ⟨name, raw⟩ := List.head?_eq_some_iff.mp head
          have behind : rest = name ++ after := by
            rw [raw] at whole
            exact (List.cons.inj whole).2.symm
          show marker.raw ++ text (scanFrom false (rest.length - after.length) rest) = _
          rw [ih, behind, raw]
          simp
      · show c :: text (scanFrom _ 0 rest) = _
        rw [ih]
        rfl

/-- The marks of a source make up the source. -/
theorem text_scan (source : Text) : text (scan source) = source :=
  text_scanFrom true 0 source

/-- Every marker begins with an at sign. -/
theorem head_raw_of_mem_scanFrom {leading : Bool} {skip : Nat} {source : Text} {marker : Marker}
    (member : .marker marker ∈ scanFrom leading skip source) : marker.raw.head? = some '@' := by
  -- The marker was read at the front of a rest of the source.
  induction source generalizing leading skip with
  | nil => cases skip <;> cases member
  | cons c rest ih =>
    cases skip with
    | succ skip => exact ih member
    | zero =>
      rw [scanFrom] at member
      split at member
      · rcases List.mem_cons.mp member with same | later
        · obtain rfl := Mark.marker.inj same
          exact Marker.head_raw_read leading rest
        · exact ih later
      · rcases List.mem_cons.mp member with same | later
        · cases same
        · exact ih later

end Mark

namespace Directive

/-- A directive that answers with a tag, whenever it answers. -/
def WritesTags (directive : Directive) : Prop :=
  ∀ expression body written, directive.handler expression body = .ok written →
    written.head? = some '<'

/-- A directive that needs an expression answers with it. -/
theorem eq_of_required {name : Text} {expression : Option Text} {written : Text}
    {write : Text → Text}
    (answered : (do return write (← required name expression)) = Except.ok written) :
    ∃ e, written = write e := by
  cases found : required name expression with
  | error e => simp [found, Bind.bind, Except.bind] at answered
  | ok e =>
    simp only [found, Bind.bind, Except.bind, Pure.pure, Except.pure, Except.ok.injEq] at answered
    exact ⟨e, answered.symm⟩

/-- A block between two tags is a tag. -/
theorem writesTags_tagged (name : String) : (tagged name).WritesTags := by
  intro expression body written handled
  obtain ⟨e, rfl⟩ := eq_of_required handled
  rfl

/-- A tag with an expression is a tag. -/
theorem writesTags_statement (name : String) : (statement name).WritesTags := by
  intro expression body written handled
  obtain ⟨e, rfl⟩ := eq_of_required handled
  rfl

/-- A tag by itself is a tag. -/
theorem writesTags_word (name : String) : (word name).WritesTags := by
  intro expression body written handled
  obtain rfl := Except.ok.inj handled
  rfl

/-- A block for when a condition fails is a tag. -/
theorem writesTags_unlessBlock : unlessBlock.WritesTags := by
  intro expression body written handled
  obtain ⟨e, rfl⟩ := eq_of_required handled
  rfl

/-- A block that runs before its condition is looked at is a tag. -/
theorem writesTags_doWhileBlock : doWhileBlock.WritesTags := by
  intro expression body written handled
  obtain ⟨e, rfl⟩ := eq_of_required handled
  rfl

/-- A script is an element. -/
theorem writesTags_script : script.WritesTags := by
  intro expression body written handled
  simp only [script] at handled
  split at handled
  · cases handled
  · obtain rfl := Except.ok.inj handled
    rfl

end Directive

namespace Directives

/-- A part that stays. -/
def Edit.isKept : Edit → Bool
  | .keep _ => true
  | _ => false

/-- Whether a pass over a source replaces nothing. -/
def isIdle (directives : Directives) (source : Text) : Bool :=
  (plan directives source).all Edit.isKept

/-- Directives that answer with tags. -/
def WriteTags (directives : Directives) : Prop :=
  ∀ name directive, directives.get? name = some directive → directive.WritesTags

variable {directives : Directives}

/-- The builtin directives answer with tags. -/
theorem writeTags_builtins : WriteTags Directive.builtins := by
  intro name directive found
  rcases Fields.mem_of_get?_insertAll found with none | listed
  · cases none
  · obtain ⟨own, member, same⟩ := List.mem_map.mp listed
    obtain ⟨-, rfl⟩ := Prod.mk.inj same
    simp only [List.mem_cons, List.not_mem_nil, or_false] at member
    -- One case for each directive, of which most are of one of three families.
    rcases member with rfl | rfl | rfl | rfl | rfl | rfl | rfl | rfl | rfl | rfl | rfl | rfl | rfl |
      rfl
    iterate 5 exact Directive.writesTags_tagged _
    · exact Directive.writesTags_unlessBlock
    · exact Directive.writesTags_doWhileBlock
    iterate 3 exact Directive.writesTags_statement _
    iterate 3 exact Directive.writesTags_word _
    · exact Directive.writesTags_script

/-- What has been read of a block, and the marks behind it, as they stand in the source. -/
def pending : Option (Marker × Nat × List Mark) → List Mark → Text
  | none, marks => Mark.text marks
  | some (opener, _, body), marks => opener.raw ++ (Mark.text body.reverse ++ Mark.text marks)

/-- The parts of a source make up the source. -/
theorem source_edits (directives : Directives) (place : Nat) (pairs : List (Nat × Nat))
    (entered : Option (Marker × Nat × List Mark)) (marks : List Mark) :
    (edits directives place pairs entered marks).flatMap Edit.source = pending entered marks := by
  -- The induction follows the walk over the marks, with the body of a block as it is gathered.
  induction place, pairs, entered, marks using edits.induct with
  | case1 => rfl
  | case2 place pairs opener close body => simp [edits, pending, Edit.source, Mark.text]
  | case3 place pairs c rest ih =>
    rw [edits, List.flatMap_cons, ih]
    rfl
  | case4 place pairs opener close body c rest ih =>
    rw [edits, ih]
    simp [pending, Mark.text, Mark.raw]
  | case5 pairs opener close body marker rest ih =>
    rw [edits, if_pos rfl, List.flatMap_cons, ih]
    simp [pending, Mark.text, Mark.raw, Edit.source]
  | case6 place pairs opener close body marker rest notClose ih =>
    rw [edits, if_neg notClose, ih]
    simp [pending, Mark.text, Mark.raw]
  | case7 start close pairs marker rest ih =>
    rw [edits, if_pos rfl, ih]
    simp [pending, Mark.text, Mark.raw]
  | case8 place start close pairs marker rest notStart ih =>
    rw [edits, if_neg notStart, List.flatMap_cons, ih, alone]
    split <;> rfl
  | case9 place marker rest ih =>
    rw [edits, List.flatMap_cons, ih, alone]
    split <;> rfl

/-- A marker outside of all pairs is a part that stays or begins with it. -/
theorem head_source_alone (directives : Directives) {marker : Marker}
    (marked : marker.raw.head? = some '@') :
    (alone directives marker).isKept = true ∨ (alone directives marker).source.head? = some '@' := by
  rw [alone]
  split
  · exact .inr marked
  · exact .inl rfl

/-- A part that does not stay begins with the marker that is replaced. -/
theorem head_source_edits (directives : Directives) {place : Nat} {pairs : List (Nat × Nat)}
    {entered : Option (Marker × Nat × List Mark)} {marks : List Mark}
    (opened : ∀ block ∈ entered, block.1.raw.head? = some '@')
    (marked : ∀ marker, .marker marker ∈ marks → marker.raw.head? = some '@') :
    ∀ edit ∈ edits directives place pairs entered marks,
      edit.isKept = true ∨ edit.source.head? = some '@' := by
  -- The opener of a block has been a marker among the marks before its body was gathered.
  induction place, pairs, entered, marks using edits.induct with
  | case1 => simp [edits]
  | case2 place pairs opener close body => simp [edits, Edit.isKept]
  | case3 place pairs c rest ih =>
    rw [edits, List.forall_mem_cons]
    exact ⟨.inl rfl, ih opened fun marker member => marked marker (.tail _ member)⟩
  | case4 place pairs opener close body c rest ih =>
    rw [edits]
    exact ih (by simpa using opened) fun marker member => marked marker (.tail _ member)
  | case5 pairs opener close body marker rest ih =>
    rw [edits, if_pos rfl, List.forall_mem_cons]
    have first : opener.raw.head? = some '@' := opened _ rfl
    refine ⟨.inr ?_, ih (by simp) fun marker member => marked marker (.tail _ member)⟩
    simp [Edit.source, List.head?_append, first]
  | case6 place pairs opener close body marker rest notClose ih =>
    rw [edits, if_neg notClose]
    exact ih (by simpa using opened) fun marker member => marked marker (.tail _ member)
  | case7 start close pairs marker rest ih =>
    rw [edits, if_pos rfl]
    exact ih (by simpa using marked marker (.head _))
      fun marker member => marked marker (.tail _ member)
  | case8 place start close pairs marker rest notStart ih =>
    rw [edits, if_neg notStart, List.forall_mem_cons]
    exact ⟨head_source_alone directives (marked marker (.head _)),
      ih opened fun marker member => marked marker (.tail _ member)⟩
  | case9 place marker rest ih =>
    rw [edits, List.forall_mem_cons]
    exact ⟨head_source_alone directives (marked marker (.head _)),
      ih opened fun marker member => marked marker (.tail _ member)⟩

/-- What a directive answers is a tag. -/
theorem head_of_answer (writeTags : WriteTags directives) {name written : Text}
    {expression body : Option Text}
    (answered : (match directives.find name with
      | .error e => .error e
      | .ok directive => directive.apply expression body) = Except.ok written) :
    written.head? = some '<' := by
  rw [find] at answered
  cases found : directives.get? name with
  | none => simp [found] at answered
  | some directive =>
    simp only [found, Directive.apply] at answered
    cases handled : directive.handler expression body with
    | error e =>
      rw [handled] at answered
      cases answered
    | ok text =>
      rw [handled] at answered
      have same : text = written := Except.ok.inj answered
      rw [← same]
      exact writeTags name directive found expression body text handled

/-- What takes the place of a marker is a tag. -/
theorem head_of_applyEdit (writeTags : WriteTags directives) {inner : Text → Except Error Text}
    {edit : Edit} {written : Text} (changes : edit.isKept = false)
    (applied : applyEdit directives inner edit = .ok written) : written.head? = some '<' := by
  cases edit with
  | keep text => cases changes
  | single marker =>
    rw [applyEdit] at applied
    exact head_of_answer writeTags applied
  | block opener body closer =>
    rw [applyEdit] at applied
    cases compiled : inner body with
    | error e => simp [compiled] at applied
    | ok body =>
      simp only [compiled] at applied
      exact head_of_answer writeTags applied

/-- Parts that all stay are put together to the source. -/
theorem applyAll_of_isKept {inner : Text → Except Error Text} {parts : List Edit}
    (kept : parts.all Edit.isKept = true) :
    applyAll (applyEdit directives inner) parts = .ok (parts.flatMap Edit.source) := by
  induction parts with
  | nil => rfl
  | cons edit parts ih =>
    -- Neither a marker by itself nor a block stays.
    obtain ⟨stays, others⟩ := Bool.and_eq_true_iff.mp kept
    cases edit with
    | keep text => simp [applyAll, applyEdit, ih others, Edit.source]
    | single marker => cases stays
    | block opener body closer => cases stays

/-- Parts that are put together to the source all stay. -/
theorem isKept_of_applyAll (writeTags : WriteTags directives) {inner : Text → Except Error Text}
    {parts : List Edit}
    (begins : ∀ edit ∈ parts, edit.isKept = true ∨ edit.source.head? = some '@')
    (unchanged : applyAll (applyEdit directives inner) parts = .ok (parts.flatMap Edit.source)) :
    parts.all Edit.isKept = true := by
  -- What stays is the same on both sides, so the first part that does not stay would show.
  induction parts with
  | nil => rfl
  | cons edit parts ih =>
    obtain ⟨here, later⟩ := List.forall_mem_cons.mp begins
    rw [applyAll] at unchanged
    cases applied : applyEdit directives inner edit with
    | error e => simp [applied] at unchanged
    | ok written =>
      cases rest : applyAll (applyEdit directives inner) parts with
      | error e => simp [applied, rest] at unchanged
      | ok others =>
        simp only [applied, rest, List.flatMap_cons, Except.ok.injEq] at unchanged
        cases changes : edit.isKept with
        | false =>
          -- The first character would have to be that of a marker and that of a tag.
          have tag := head_of_applyEdit writeTags changes applied
          have marker := here.resolve_left (by simp [changes])
          have first := congrArg List.head? unchanged
          simp [List.head?_append, tag, marker] at first
        | true =>
          cases edit with
          | keep text =>
            -- The others are put together to their own source.
            obtain rfl := Except.ok.inj applied
            have same := List.append_cancel_left unchanged
            rw [List.all_cons, ih later (same ▸ rest)]
            rfl
          | single marker => cases changes
          | block opener body closer => cases changes

/-- A pass that replaces nothing leaves a source as it is. -/
theorem pass_of_isIdle {source : Text} (idle : directives.isIdle source = true)
    (maxDepth depth : Nat) : directives.pass maxDepth (depth + 1) source = .ok source := by
  -- The parts of the source make up the source.
  have whole : (plan directives source).flatMap Edit.source = source :=
    (source_edits directives 0 _ none _).trans (Mark.text_scan source)
  rw [pass, applyAll_of_isKept idle, whole]

/-- A source in which nothing is replaced is compiled to itself. -/
theorem compile_of_isIdle {source : Text} (idle : directives.isIdle source = true) {maxDepth : Nat}
    (deep : 0 < maxDepth) : directives.compile maxDepth source = .ok source := by
  -- The first pass is the last one.
  obtain ⟨depth, rfl⟩ := Nat.exists_eq_add_one.mpr deep
  rw [compile, passes, pass_of_isIdle idle]
  exact if_pos rfl

/-- A pass leaves a source as it is exactly when it replaces nothing. -/
theorem pass_eq_self_iff (writeTags : WriteTags directives) (maxDepth depth : Nat) (source : Text) :
    directives.pass maxDepth (depth + 1) source = .ok source ↔ directives.isIdle source = true := by
  -- The parts of the source make up the source.
  have whole : (plan directives source).flatMap Edit.source = source :=
    (source_edits directives 0 _ none _).trans (Mark.text_scan source)
  constructor
  · intro unchanged
    rw [pass] at unchanged
    have parts : applyAll (applyEdit directives (directives.pass maxDepth depth))
        (plan directives source) = .ok ((plan directives source).flatMap Edit.source) := by
      rw [whole]
      exact unchanged
    refine isKept_of_applyAll writeTags ?_ parts
    exact head_source_edits directives (by simp) fun _ => Mark.head_raw_of_mem_scanFrom
  · exact fun idle => pass_of_isIdle idle maxDepth depth

/-- Passes end at a source that one more pass would leave as it is. -/
theorem pass_of_passes {maxDepth count : Nat} {source out : Text}
    (compiled : directives.passes maxDepth count source = .ok out) :
    directives.pass maxDepth maxDepth out = .ok out := by
  -- The last pass has given back what it was given.
  induction count generalizing source with
  | zero => cases compiled
  | succ count ih =>
    rw [passes] at compiled
    cases passed : directives.pass maxDepth maxDepth source with
    | error e => simp [passed] at compiled
    | ok next =>
      simp only [passed] at compiled
      split at compiled
      · rename_i same
        obtain rfl := Except.ok.inj compiled
        rw [← same] at passed
        exact passed
      · exact ih compiled

/-- Passes leave a source as it is exactly when there is one and it replaces nothing. -/
theorem passes_eq_self_iff (writeTags : WriteTags directives) {maxDepth : Nat} (deep : 0 < maxDepth)
    (count : Nat) (source : Text) :
    directives.passes maxDepth count source = .ok source ↔
      0 < count ∧ directives.isIdle source = true := by
  obtain ⟨depth, rfl⟩ := Nat.exists_eq_add_one.mpr deep
  rw [← pass_eq_self_iff writeTags (depth + 1) depth source]
  cases count with
  | zero => simp [passes]
  | succ count =>
    constructor
    · intro compiled
      exact ⟨Nat.succ_pos count, pass_of_passes compiled⟩
    · rintro ⟨-, unchanged⟩
      simp [passes, unchanged]

/-- Without an opener nothing is paired. -/
theorem outermostPairs_eq_nil {marks : List Mark}
    (closed : ∀ marker, .marker marker ∈ marks → opensBlock directives marker = false) :
    outermostPairs directives marks = [] := by
  -- A closer takes an opener that is open, and none ever is.
  have empty (place : Nat) : Pairing.run directives place ⟨[], []⟩ marks = ⟨[], []⟩ := by
    induction marks generalizing place with
    | nil => rfl
    | cons mark marks ih =>
      have later := ih fun marker member => closed marker (.tail _ member)
      cases mark with
      | plain c => exact later place
      | marker m =>
        have stays : Pairing.step directives ⟨[], []⟩ place m = ⟨[], []⟩ := by
          rw [Pairing.step]
          cases m.closes? with
          | some target => rfl
          | none => simp [closed m (.head _)]
        rw [Pairing.run, stays]
        exact later (place + 1)
  rw [outermostPairs, empty]
  rfl

/-- Outside of all pairs only markers that are replaced by themselves do not stay. -/
theorem isKept_edits {marks : List Mark}
    (stays : ∀ marker, .marker marker ∈ marks → isReplaced directives marker = false)
    (place : Nat) : (edits directives place [] none marks).all Edit.isKept = true := by
  induction marks generalizing place with
  | nil => rfl
  | cons mark marks ih =>
    have later := ih fun marker member => stays marker (.tail _ member)
    cases mark with
    | plain c => exact later place
    | marker m =>
      rw [edits, alone, stays m (.head _), List.all_cons, later]
      rfl

/-- A mark that no directive is looked for: a character, or a marker with another character than a
blank in front of it or with a name that no directive has. -/
def isForeign (directives : Directives) : Mark → Bool
  | .plain _ => true
  | .marker marker => !marker.leading || (directives.get? marker.name).isNone

/-- Nothing is replaced in a source whose marks are all foreign. -/
theorem isIdle_of_isForeign {source : Text}
    (foreign : (Mark.scan source).all (isForeign directives) = true) :
    directives.isIdle source = true := by
  rw [List.all_eq_true] at foreign
  -- Both to open a block and to be replaced, a marker needs a blank in front and a directive.
  have noKind {marker : Marker} (member : .marker marker ∈ Mark.scan source)
      (kind : DirectiveKind) :
      (marker.leading && (directives.ofKind? marker.name kind).isSome) = false := by
    have unknown := foreign _ member
    cases leading : marker.leading with
    | false => rfl
    | true =>
      simp only [isForeign, leading, Bool.not_true, Bool.false_or, Option.isNone_iff_eq_none]
        at unknown
      simp [ofKind?, unknown]
  have closed : ∀ marker, .marker marker ∈ Mark.scan source →
      opensBlock directives marker = false := by
    intro marker member
    rw [opensBlock, Bool.and_assoc, noKind member, Bool.and_false]
  rw [isIdle, plan, outermostPairs_eq_nil closed]
  refine isKept_edits (fun marker member => ?_) 0
  rw [isReplaced, Bool.and_right_comm, noKind member, Bool.false_and]

end Directives

end Templates
