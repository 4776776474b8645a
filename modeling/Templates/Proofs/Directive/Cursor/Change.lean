import Templates.Proofs.Directive.Cursor.Pairs
import Templates.Proofs.Directive.Pass

/-!
A pass replaces whole markers and blocks and copies all that is between them.

The changes are chosen among the markers and carried out by slices of the source, which can all be
taken: what is replaced comes in order, and the body of a block lies between its markers.
-/

namespace Templates.Directives.Cursor

open Text (from? between?)
open Template (answer)

/-! ### Changes and how they are carried out -/

/-- What a pass replaces: a block, given by its markers, or a marker by itself. -/
inductive Change where
  | block (opener closer : Span)
  | single (marker : Span)
deriving DecidableEq, Repr

namespace Change

/-- The markers of a change. -/
def spans : Change → List Span
  | block opener closer => [opener, closer]
  | single marker => [marker]

/-- Where a change begins. -/
def start : Change → Nat
  | block (_, start, _) _ => start
  | single (_, start, _) => start

/-- Where a change ends. -/
def stop : Change → Nat
  | block _ (_, _, stop) => stop
  | single (_, _, stop) => stop

end Change

/-- The change that a marker outside of all pairs is, if it is one. -/
def loneChange (directives : Directives) (marker : Span) : List Change :=
  if isReplaced directives marker.1 then [.single marker] else []

/-- The changes among markers. Inside a block, which is given by its opener and the place of its
closer, markers are passed over. -/
def changes (directives : Directives) :
    Nat → List (Nat × Nat) → Option (Span × Nat) → List Span → List Change
  | _, _, _, [] => []
  | place, pairs, some (opener, close), marker :: rest =>
    if place = close then .block opener marker :: changes directives (place + 1) pairs none rest
    else changes directives (place + 1) pairs (some (opener, close)) rest
  | place, (start, close) :: pairs, none, marker :: rest =>
    if place = start then changes directives (place + 1) pairs (some (marker, close)) rest
    else
      loneChange directives marker ++
        changes directives (place + 1) ((start, close) :: pairs) none rest
  | place, [], none, marker :: rest =>
    loneChange directives marker ++ changes directives (place + 1) [] none rest

/-- The changes of a pass. -/
def plan (directives : Directives) (markers : List Span) : List Change :=
  changes directives 0 (outerPairs directives (markers.map Prod.fst)) none markers

/-- What a change puts into the source, given how bodies are compiled; no answer is given when the
body cannot be cut out. -/
def replacement (directives : Directives) (inner : Text → Option (Except Error Text))
    (source : Text) : Change → Option (Except Error Text)
  | .single (marker, _, _) => some (answer directives marker.name marker.expression none)
  | .block (opener, _, start) (_, stop, _) => do
    match ← inner (← between? start stop source) with
    | .error e => return .error e
    | .ok body => return answer directives opener.name opener.expression (some body)

/-- The source from a cursor on with changes carried out; no answer is given when a slice between
two of them cannot be taken. -/
def rewrite (source : Text) (replace : Change → Option (Except Error Text)) :
    Nat → List Change → Option (Except Error Text)
  | cursor, [] => do return .ok (← from? cursor source)
  | cursor, change :: rest => do
    let front ← between? cursor change.start source
    match ← replace change with
    | .error e => return .error e
    | .ok text =>
      match ← rewrite source replace change.stop rest with
      | .error e => return .error e
      | .ok behind => return .ok (front ++ (text ++ behind))

/-- One pass over a source, unless a slice of it cannot be taken or the count of parentheses falls
below zero. -/
def pass (directives : Directives) (maxDepth : Nat) : Nat → Text → Option (Except Error Text)
  | 0, _ => some (.error (.tooDeep .directiveNesting maxDepth))
  | depth + 1, source => do
    let markers ← markers source
    if markers.isEmpty then return .ok source
    else
      rewrite source (replacement directives (pass directives maxDepth depth) source) 0
        (plan directives markers)

/-! ### The changes come in order -/

variable {directives : Directives} {source : Text}

/-- The markers of changes are among the markers that they are chosen from, in order. -/
theorem spans_changes (directives : Directives) (place : Nat) (pairs : List (Nat × Nat))
    (entered : Option (Span × Nat)) (markers : List Span) :
    ((changes directives place pairs entered markers).flatMap Change.spans).Sublist
      ((entered.map Prod.fst).toList ++ markers) := by
  have lone (marker : Span) : ((loneChange directives marker).flatMap Change.spans).Sublist
      [marker] := by
    rw [loneChange]
    split
    · exact .refl _
    · exact List.nil_sublist _
  fun_induction changes directives place pairs entered markers with
  | case1 => exact List.nil_sublist _
  | case2 pairs opener close marker rest ih => exact (ih.cons_cons marker).cons_cons opener
  | case3 place pairs opener close marker rest notClose ih =>
    exact ih.trans ((List.sublist_cons_self marker rest).cons_cons opener)
  | case4 start close pairs marker rest ih => exact ih
  | case5 place start close pairs marker rest notStart ih =>
    rw [List.flatMap_append]
    exact (lone marker).append ih
  | case6 place marker rest ih =>
    rw [List.flatMap_append]
    exact (lone marker).append ih

/-! ### The changes are those of the parts of the source -/

variable {cursor : Nat} {replace : Change → Option (Except Error Text)}

/-- A change is carried out between what is in front of it and what is behind it. -/
theorem rewrite_change {change : Change} {rest : List Change} {front : Text}
    {text behind : Except Error Text} (kept : between? cursor change.start source = some front)
    (replaced : replace change = some text)
    (others : rewrite source replace change.stop rest = some behind) :
    rewrite source replace cursor (change :: rest) =
      some (do return front ++ ((← text) ++ (← behind))) := by
  cases text <;> cases behind <;> simp [rewrite, kept, replaced, others] <;> rfl

/-- A part that stays is put behind what is in front of it. -/
theorem map_keep {inner : Text → Except Error Text} (front text : Text) (parts : List Edit) :
    (applyAll (applyEdit directives inner) (.keep text :: parts)).map (front ++ ·) =
      (applyAll (applyEdit directives inner) parts).map (front ++ text ++ ·) := by
  cases rest : applyAll (applyEdit directives inner) parts <;>
    simp [applyAll, applyEdit, rest, Except.map]

/-- A part that is replaced is put between what is in front of it and what is behind it. -/
theorem map_replaced {apply : Edit → Except Error Text} (front : Text) (edit : Edit)
    (parts : List Edit) :
    (applyAll apply (edit :: parts)).map (front ++ ·) = (do
      return front ++ ((← apply edit) ++ (← (applyAll apply parts).map ([] ++ ·)))) := by
  cases first : apply edit <;> cases rest : applyAll apply parts <;>
    simp [applyAll, first, rest, Except.map, Bind.bind, Except.bind, Pure.pure, Except.pure]

variable {compile : Text → Option (Except Error Text)} {inner : Text → Except Error Text}

/-- The body of a block is compiled as it is cut out between its markers. -/
theorem replacement_block (directives : Directives)
    (compiles : ∀ body, compile body = some (inner body)) (opener closer : Marker)
    (begins ends : Nat) {start stop : Nat} {body : Text}
    (cut : between? start stop source = some body) :
    replacement directives compile source (.block (opener, begins, start) (closer, stop, ends)) =
      some (applyEdit directives inner (.block opener body closer)) := by
  rw [applyEdit_markers]
  cases compiled : inner body <;> simp [replacement, cut, compiles, compiled] <;> rfl

/-- A marker outside of all pairs is replaced or copied with what is in front of it. -/
theorem rewrite_lone {marker : Marker} {front after : Text} {rest : List Change}
    {parts : List Edit} (here : from? cursor source = some (front ++ (marker.raw ++ after)))
    (others : ∀ {begin : Nat} {before : Text}, from? begin source = some (before ++ after) →
      begin + Text.bytes before = cursor + Text.bytes front + Text.bytes marker.raw →
      rewrite source (replacement directives compile source) begin rest =
        some ((applyAll (applyEdit directives inner) parts).map (before ++ ·))) :
    rewrite source (replacement directives compile source) cursor
        (loneChange directives (marker, cursor + Text.bytes front,
          cursor + Text.bytes front + Text.bytes marker.raw) ++ rest) =
      some ((applyAll (applyEdit directives inner) (alone directives marker :: parts)).map
        (front ++ ·)) := by
  have start := Text.from?_forward here
  rw [loneChange, alone]
  split
  · have kept := Text.between?_of_from? here start
    rw [map_replaced, List.singleton_append]
    have behind := @others (cursor + Text.bytes front + Text.bytes marker.raw) []
      (Text.from?_forward start) rfl
    exact rewrite_change kept (congrArg some (applyEdit_marker directives inner marker).symm) behind
  · rw [map_keep, List.nil_append]
    exact others (by rw [List.append_assoc, here]) (by rw [Text.bytes_append, Nat.add_assoc])

/-- What has been read of a block. -/
def begun : Option (Marker × Nat × List Mark) → Text
  | none => []
  | some (opener, _, body) => opener.raw ++ Mark.text body.reverse

/-- A block that has been entered, by its opener at an offset. -/
def enteredAt (offset : Nat) : Option (Marker × Nat × List Mark) → Option (Span × Nat)
  | none => none
  | some (opener, close, _) => some ((opener, offset, offset + Text.bytes opener.raw), close)

/-- Changes that are carried out from a cursor on give what the parts of the rest become, behind the
text between the cursor and the rest. -/
theorem rewrite_changes (directives : Directives)
    (compiles : ∀ body, compile body = some (inner body))
    (place : Nat) (pairs : List (Nat × Nat)) (entered : Option (Marker × Nat × List Mark))
    (marks : List Mark) {front : Text}
    (here : from? cursor source = some (front ++ (begun entered ++ Mark.text marks))) :
    rewrite source (replacement directives compile source) cursor
        (changes directives place pairs (enteredAt (cursor + Text.bytes front) entered)
          (Mark.spans (cursor + Text.bytes front + Text.bytes (begun entered)) marks)) =
      some ((applyAll (applyEdit directives inner) (edits directives place pairs entered marks)).map
        (front ++ ·)) := by
  induction place, pairs, entered, marks using edits.induct generalizing cursor front with
  | case1 | case2 =>
    simp [Mark.spans, changes, rewrite, here, edits, applyAll, applyEdit, begun, enteredAt,
      Mark.text, Except.map]
  | case3 place pairs c rest ih =>
    have moved := @ih cursor (front ++ [c]) (by simpa [begun, Mark.text, Mark.raw] using here)
    rw [edits, map_keep, ← moved]
    simp [begun, Mark.spans, Nat.add_assoc, enteredAt]
  | case4 place pairs opener close body c rest ih =>
    have moved := @ih cursor front (by simpa [begun, Mark.text, Mark.raw] using here)
    rw [edits, ← moved]
    simp [begun, Mark.spans, Mark.text, Mark.raw, Nat.add_assoc, enteredAt]
  | case5 pairs opener close body marker rest ih =>
    have whole : from? cursor source = some (front ++ (opener.raw ++
        (Mark.text body.reverse ++ (marker.raw ++ Mark.text rest)))) := by
      simpa [begun, Mark.text, Mark.raw] using here
    have start := Text.from?_forward whole
    have inside := Text.from?_forward start
    have closer := Text.from?_forward inside
    have behind := @ih _ [] (Text.from?_forward closer)
    have replaced := replacement_block directives compiles opener marker
      (cursor + Text.bytes front)
      (cursor + Text.bytes front + Text.bytes opener.raw + Text.bytes (Mark.text body.reverse) +
        Text.bytes marker.raw) (Text.between?_of_from? inside closer)
    have place : cursor + Text.bytes front + Text.bytes (begun (some (opener, close, body))) =
        cursor + Text.bytes front + Text.bytes opener.raw +
          Text.bytes (Mark.text body.reverse) := by
      simp [begun, Nat.add_assoc]
    rw [edits, if_pos rfl, map_replaced, place, Mark.spans, enteredAt, changes, if_pos rfl]
    exact rewrite_change (Text.between?_of_from? whole start) replaced behind
  | case6 place pairs opener close body marker rest notClose ih =>
    have moved := @ih cursor front (by simpa [begun, Mark.text, Mark.raw] using here)
    rw [edits, if_neg notClose, ← moved]
    simp [begun, Mark.spans, Mark.text, Mark.raw, Nat.add_assoc, enteredAt, changes, notClose]
  | case7 start close pairs marker rest ih =>
    have moved := @ih cursor front (by simpa [begun, Mark.text, Mark.raw] using here)
    rw [edits, if_pos rfl, ← moved]
    simp [begun, Mark.spans, Mark.text, enteredAt, changes]
  | case8 place start close pairs marker rest notStart ih =>
    rw [edits, if_neg notStart, enteredAt, Mark.spans, changes, if_neg notStart]
    exact rewrite_lone here fun {_ _} behind place => place ▸ ih behind
  | case9 place marker rest ih =>
    rw [edits, enteredAt, Mark.spans, changes]
    exact rewrite_lone here fun {_ _} behind place => place ▸ ih behind

/-- A pass carries out the changes among the markers of the source, also if there are none. -/
theorem pass_succ (directives : Directives) (maxDepth depth : Nat) (source : Text) :
    pass directives maxDepth (depth + 1) source =
      rewrite source (replacement directives (pass directives maxDepth depth) source) 0
        (plan directives (Mark.spans 0 (Mark.scan source))) := by
  rw [pass, markers_eq, Option.bind_eq_bind, Option.bind_some]
  split
  · rename_i empty
    rw [List.isEmpty_iff.mp empty, plan, changes, rewrite, Text.from?_zero]
    rfl
  · rfl

/-- No slice of a pass fails, at any depth, and the pass gives what it does with the parts of the
source. -/
theorem pass_eq (directives : Directives) (maxDepth depth : Nat) (source : Text) :
    pass directives maxDepth depth source = some (directives.pass maxDepth depth source) := by
  -- Bodies are compiled by passes that may nest one level less deep.
  induction depth generalizing source with
  | zero => rfl
  | succ depth ih =>
    have whole : from? 0 source = some ([] ++ ([] ++ Mark.text (Mark.scan source))) := by
      rw [Mark.text_scan]
      exact Text.from?_zero source
    have done := rewrite_changes directives ih 0
      (outermostPairs directives (Mark.scan source)) none (Mark.scan source) whole
    have same : ∀ result : Except Error Text, result.map (([] : Text) ++ ·) = result := by
      intro result
      cases result <;> rfl
    rw [same] at done
    rw [pass_succ, plan, outerPairs_eq]
    exact done

/-! ### What a pass leaves and what it replaces -/

/-- Texts that are kept with others in between, one behind each of them but the last. -/
def weave : List Text → List Text → Text
  | front :: kept, text :: texts => front ++ (text ++ weave kept texts)
  | kept, _ => kept.flatten

/-- What changes are carried out gives keeps all texts around the changes. -/
theorem exists_weave {changes : List Change} {rest out : Text}
    (cuts : ∀ change ∈ changes, ∃ text, between? change.start change.stop source = some text)
    (here : from? cursor source = some rest)
    (done : rewrite source replace cursor changes = some (.ok out)) :
    ∃ kept old new, kept.length = changes.length + 1 ∧
      List.Forall₂ (fun change text => between? change.start change.stop source = some text)
        changes old ∧
      List.Forall₂ (fun change text => replace change = some (.ok text)) changes new ∧
      weave kept old = rest ∧ weave kept new = out := by
  induction changes generalizing cursor rest out with
  | nil =>
    rw [rewrite, here] at done
    obtain rfl : rest = out := by simpa using done
    exact ⟨[rest], [], [], rfl, .nil, .nil, by simp [weave], by simp [weave]⟩
  | cons change changes ih =>
    obtain ⟨⟨part, cut⟩, others⟩ := List.forall_mem_cons.mp cuts
    rw [rewrite] at done
    obtain ⟨front, copied, done⟩ := Option.bind_eq_some_iff.mp done
    obtain ⟨answered, replaced, done⟩ := Option.bind_eq_some_iff.mp done
    cases answered with
    | error e => cases done
    | ok text =>
      obtain ⟨later, rewritten, done⟩ := Option.bind_eq_some_iff.mp done
      cases later with
      | error e => cases done
      | ok behind =>
        -- The slice in front of the change and the one of the change are put before the others.
        obtain ⟨tail, begins, start⟩ := Text.exists_of_between? copied
        obtain ⟨after, same, stop⟩ := Text.exists_of_between? cut
        obtain ⟨kept, old, new, length, olds, news, rfl, rfl⟩ := ih others stop rewritten
        obtain rfl : tail = part ++ weave kept old := Option.some.inj (start.symm.trans same)
        obtain rfl : rest = front ++ (part ++ weave kept old) :=
          Option.some.inj (here.symm.trans begins)
        obtain rfl : front ++ (text ++ weave kept new) = out := by simpa using done
        exact ⟨front :: kept, part :: old, text :: new, by simp [length], .cons cut olds,
          .cons replaced news, rfl, rfl⟩

/-- Markers that are slices of a source and begin with at signs, one behind the other. -/
structure Slices (source : Text) (markers : List Span) : Prop where
  cut : ∀ marker start stop, (marker, start, stop) ∈ markers → start < stop ∧
    stop ≤ Text.bytes source ∧ between? start stop source = some marker.raw ∧
      marker.raw.head? = some '@'
  apart : markers.Pairwise fun (_, _, stop) (_, start, _) => stop ≤ start

/-- Changes that take whole markers away, one change behind the other, with the body of a block
between its opener and its closer. -/
structure InOrder (source : Text) (markers : List Span) (changes : List Change) : Prop where
  whole : ∀ change ∈ changes, ∀ span ∈ change.spans, span ∈ markers
  cut : ∀ change ∈ changes, change.start < change.stop ∧ change.stop ≤ Text.bytes source ∧
    ∃ text, between? change.start change.stop source = some text
  body : ∀ opener closer, .block opener closer ∈ changes → opener.2.2 ≤ closer.2.1
  apart : changes.Pairwise fun first second => first.stop ≤ second.start

/-- The markers of a source are slices of it. -/
theorem slices_spans (source : Text) : Slices source (Mark.spans 0 (Mark.scan source)) where
  cut := fun marker start stop listed => by
    obtain ⟨head, rest, here, behind⟩ := slice_of_mem_spans listed
    obtain ⟨name, raw⟩ := List.head?_eq_some_iff.mp head
    have first := Text.bytes_of_from? here
    have last := Text.bytes_of_from? behind
    have filled : 0 < Text.bytes marker.raw := by
      rw [raw, Text.bytes_cons]
      have := '@'.utf8Size_pos
      omega
    rw [Text.bytes_append] at first
    exact ⟨by omega, by omega, Text.between?_of_from? here behind, head⟩
  apart := pairwise_spans 0 _

/-- Changes that are chosen among slices come in order. -/
theorem Slices.inOrder {markers : List Span} (slices : Slices source markers)
    {changes : List Change} (chosen : (changes.flatMap Change.spans).Sublist markers) :
    InOrder source markers changes := by
  have whole : ∀ change ∈ changes, ∀ span ∈ change.spans, span ∈ markers :=
    fun change listed span inside => chosen.subset (List.mem_flatMap.mpr ⟨change, listed, inside⟩)
  obtain ⟨within, across⟩ := List.pairwise_flatMap.mp (slices.apart.sublist chosen)
  have body : ∀ opener closer, .block opener closer ∈ changes → opener.2.2 ≤ closer.2.1 :=
    fun opener closer listed => by
      have := within _ listed
      simpa [Change.spans] using this
  refine ⟨whole, fun change listed => ?_, body,
    across.imp_of_mem fun {first second} _ _ behind => ?_⟩
  · cases change with
    | single marker =>
      obtain ⟨ordered, inside, cut, -⟩ := slices.cut _ _ _ (whole _ listed _ List.mem_cons_self)
      exact ⟨ordered, inside, _, cut⟩
    | block opener closer =>
      obtain ⟨opener, start, behind⟩ := opener
      obtain ⟨closer, before, stop⟩ := closer
      have ordered : behind ≤ before := body _ _ listed
      obtain ⟨first, -, here, -⟩ := slices.cut opener start behind
        (whole _ listed _ (by simp [Change.spans]))
      obtain ⟨last, inside, there, -⟩ := slices.cut closer before stop
        (whole _ listed _ (by simp [Change.spans]))
      obtain ⟨_, begins, -⟩ := Text.exists_of_between? here
      obtain ⟨_, -, ends⟩ := Text.exists_of_between? there
      have wide : start < stop := by omega
      exact ⟨wide, inside, Text.exists_between? (Nat.le_of_lt wide) begins ends⟩
  · -- The last marker of the one change is in front of the first marker of the other.
    cases first <;> cases second <;> simp_all [Change.spans, Change.start, Change.stop]

/-- A pass edits whole markers and blocks only. The markers of a source are found without a slice
that fails, and the count of open parentheses never falls below zero; they are slices one behind the
other. The changes come in order, each with its body between its markers, so that all slices of the
pass can be taken as well. What it writes is the source with the texts of the changes replaced, and
a source none of whose markers opens a block or is replaced by itself is left as it is. -/
theorem pass_wholeMarkers (directives : Directives) (source : Text) :
    (∀ position bytes, (closeFrom 0 none position ('(' :: bytes)).isSome = true) ∧
    ∃ markers, Cursor.markers source = some markers ∧
      markers = Mark.spans 0 (Mark.scan source) ∧ Slices source markers ∧
      InOrder source markers (plan directives markers) ∧
      (∀ maxDepth depth, pass directives maxDepth depth source =
        some (directives.pass maxDepth depth source)) ∧
      (∀ maxDepth depth out, directives.pass maxDepth (depth + 1) source = .ok out →
        ∃ kept old new, kept.length = (plan directives markers).length + 1 ∧
          List.Forall₂ (fun change text => between? change.start change.stop source = some text)
            (plan directives markers) old ∧
          List.Forall₂ (fun change text =>
            replacement directives (pass directives maxDepth depth) source change =
              some (.ok text)) (plan directives markers) new ∧
          weave kept old = source ∧ weave kept new = out) ∧
      ((∀ span ∈ markers, opensBlock directives span.1 = false ∧
          isReplaced directives span.1 = false) →
        ∀ maxDepth depth, directives.pass maxDepth (depth + 1) source = .ok source) := by
  have slices := slices_spans source
  have ordered := slices.inOrder (spans_changes directives 0
    (outerPairs directives ((Mark.spans 0 (Mark.scan source)).map Prod.fst)) none _)
  refine ⟨fun position bytes => ?_, _, markers_eq source, rfl, slices, ordered,
    fun maxDepth depth => pass_eq directives maxDepth depth source,
    fun maxDepth depth out done => ?_, fun foreign maxDepth depth => ?_⟩
  · rw [closeFrom_outside (by decide)]
    exact isSome_closeFrom Nat.one_pos _ _ bytes
  · have written := pass_succ directives maxDepth depth source
    rw [pass_eq directives maxDepth (depth + 1), done] at written
    exact exists_weave (fun change listed => (ordered.cut change listed).2.2)
      (Text.from?_zero source) written.symm
  · have marked {marker : Marker} (listed : .marker marker ∈ Mark.scan source) :
        opensBlock directives marker = false ∧ isReplaced directives marker = false := by
      obtain ⟨start, stop, found⟩ := exists_mem_spans listed 0
      exact foreign _ found
    refine pass_of_isIdle ?_ maxDepth depth
    rw [isIdle, Directives.plan, outermostPairs_eq_nil fun _ listed => (marked listed).1]
    exact isKept_edits (fun _ listed => (marked listed).2) 0

end Templates.Directives.Cursor
