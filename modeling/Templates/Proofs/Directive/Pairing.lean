import Templates.Proofs.Directive.Scan

/-!
Openers and closers of a template pair up as its blocks do.

While a template is run through, the openers in front of it stay open, and of its own pairs only
those of its outermost blocks are left behind it.
-/

namespace Templates

open Directives

/-- The number of markers among marks. -/
def Mark.markers : List Mark → Nat
  | [] => 0
  | .plain _ :: rest => markers rest
  | .marker _ :: rest => markers rest + 1

/-- Markers are counted part by part. -/
theorem Mark.markers_append (front back : List Mark) :
    markers (front ++ back) = markers front + markers back := by
  -- Plain characters do not count.
  induction front with
  | nil => simp [markers]
  | cons mark front ih =>
    cases mark with
    | plain c => exact ih
    | marker m => simp only [List.cons_append, markers, ih]; omega

/-- A text between markers has no markers. -/
theorem Mark.markers_plain (content : Text) : markers (content.map .plain) = 0 := by
  induction content with
  | nil => rfl
  | cons c content ih => exact ih

namespace Template

/-- The number of markers in a template. -/
def markers : Template → Nat
  | done => 0
  | text _ rest => rest.markers
  | single _ _ rest => rest.markers + 1
  | bare _ rest => rest.markers + 1
  | block _ _ body rest => body.markers + rest.markers + 2

/-- The places of the openers and closers of the outermost blocks, when the first marker of the
template has the given place. -/
def pairs : Template → Nat → List (Nat × Nat)
  | done, _ => []
  | text _ rest, place => rest.pairs place
  | single _ _ rest, place => rest.pairs (place + 1)
  | bare _ rest, place => rest.pairs (place + 1)
  | block _ _ body rest, place =>
    (place, place + body.markers + 1) :: rest.pairs (place + body.markers + 2)

/-- The pairs of a template are found among its own markers. -/
theorem le_of_mem_pairs (template : Template) {place : Nat} {pair : Nat × Nat}
    (member : pair ∈ template.pairs place) : place ≤ pair.1 := by
  -- The places only grow from one part to the next.
  induction template generalizing place with
  | done => simp [pairs] at member
  | text content rest ih => exact ih member
  | single name expression rest ih => exact Nat.le_of_succ_le (ih member)
  | bare name rest ih => exact Nat.le_of_succ_le (ih member)
  | block name expression body rest _ ih =>
    rcases List.mem_cons.mp member with rfl | later
    · exact Nat.le_refl place
    · have := ih later
      omega

/-- The marks of a template have as many markers as the template. -/
theorem Laid.markers_eq {directives : Directives} {template : Template} {marks : List Mark}
    {edits : List Edit} (laid : Laid directives template marks edits) :
    Mark.markers marks = template.markers := by
  -- A block has two markers of its own.
  induction laid with
  | done => rfl
  | text content _ ih => simp [Mark.markers_append, Mark.markers_plain, ih, markers]
  | single expression _ _ _ ih => simp [Mark.markers, ih, markers]
  | bare _ _ _ ih => simp [Mark.markers, ih, markers]
  | block expression _ _ _ _ _ _ _ _ bodyIh restIh =>
    simp only [Mark.markers, Mark.markers_append, bodyIh, restIh, markers]
    omega

end Template

namespace Directives

/-- A name is that of a directive of one kind only. -/
theorem ofKind?_of_ne {directives : Directives} {name : Text} {kind other : DirectiveKind}
    (known : (directives.ofKind? name kind).isSome = true) (different : kind ≠ other) :
    directives.ofKind? name other = none := by
  -- A directive has one kind, by which it was found.
  unfold ofKind? at known ⊢
  cases found : directives.get? name with
  | none => simp
  | some directive =>
    simp only [found, Option.filter_some] at known ⊢
    split at known
    · rename_i same
      have same : directive.kind = kind := by simpa using same
      simp [same, different]
    · simp at known

end Directives

namespace Template

/-- A marker by itself closes no block. -/
theorem closes?_loneMarker {name : Text} (isName : IsName name) (expression : Option Text) :
    (loneMarker name expression).closes? = none := by
  -- The name does not begin like that of a closer, and with an expression nothing closes.
  cases expression with
  | none => simp only [Marker.closes?, loneMarker, isName.opens, Option.map_none]
  | some e => rfl

/-- The kind of directive that a marker by itself is for. -/
def loneKind (expression : Option Text) : DirectiveKind :=
  if expression.isSome then .single else .bare

/-- A marker by itself leaves a pairing alone. -/
theorem step_loneMarker {directives : Directives} {name : Text} {expression : Option Text}
    (isName : IsName name) (known : (directives.ofKind? name (loneKind expression)).isSome = true)
    (pairing : Pairing) (place : Nat) :
    pairing.step directives place (loneMarker name expression) = pairing := by
  -- The marker closes no block, and its directive opens none.
  have different : loneKind expression ≠ .block := by cases expression <;> simp [loneKind]
  have notBlock := ofKind?_of_ne known different
  simp only [Pairing.step, closes?_loneMarker isName, opensBlock]
  simp [loneMarker, notBlock]

/-- A marker by itself is passed over by a run. -/
theorem run_loneMarker {directives : Directives} {name : Text} {expression : Option Text}
    (isName : IsName name) (known : (directives.ofKind? name (loneKind expression)).isSome = true)
    (place : Nat) (pairing : Pairing) (rest : List Mark) :
    Pairing.run directives place pairing (.marker (loneMarker name expression) :: rest) =
      Pairing.run directives (place + 1) pairing rest := by
  rw [Pairing.run, step_loneMarker isName known]

/-- An opener waits for its closer. -/
theorem step_openingMarker {directives : Directives} {name : Text}
    (known : (directives.ofKind? name .block).isSome = true) (expression : Text) (trailing : Bool)
    (pairing : Pairing) (place : Nat) :
    pairing.step directives place (openingMarker name expression trailing) =
      { pairing with opened := (place, name) :: pairing.opened } := by
  simp [Pairing.step, Marker.closes?, openingMarker, opensBlock, known]

/-- A name is not empty. -/
theorem ne_nil_of_starts {name : Text} (starts : name.head?.any Marker.startsName = true) :
    name ≠ [] := by
  rintro rfl
  cases starts

/-- A closer says which opener it is looking for. -/
theorem closes?_closingMarker {name : Text} (filled : name ≠ []) (leading trailing : Bool) :
    (closingMarker name leading trailing).closes? = some name := by
  -- Only a name that is more than its first word closes something.
  cases name with
  | nil => exact absurd rfl filled
  | cons c name => simp only [Marker.closes?, closingMarker, closing, Text.strip?_append]

/-- A closer takes the opener right in front of its body, and its pair takes the place of the pairs
in the body. -/
theorem step_closingMarker {directives : Directives} {name : Text} (filled : name ≠ [])
    (leading trailing : Bool) (opened : List (Nat × Text)) {inner earlier : List (Nat × Nat)}
    {start place : Nat} (inside : ∀ pair ∈ inner, start < pair.1)
    (before : ∀ pair ∈ earlier, pair.1 < start) :
    Pairing.step directives ⟨(start, name) :: opened, inner ++ earlier⟩ place
        (closingMarker name leading trailing) =
      ⟨opened, (start, place) :: earlier⟩ := by
  have dropped : (inner ++ earlier).dropWhile (fun pair => start < pair.1) = earlier := by
    rw [List.dropWhile_append_of_pos fun pair member => by simpa using inside pair member]
    -- The last pair in front of the block begins before the block does.
    cases earlier with
    | nil => rfl
    | cons pair earlier =>
      have := before pair (by simp)
      simp only [List.dropWhile_cons, decide_eq_true_eq, show ¬ start < pair.1 by omega, if_false]
  simp only [Pairing.step, closes?_closingMarker filled, List.dropWhile_cons, ne_eq, not_true,
    decide_false, Bool.false_eq_true, if_false]
  exact congrArg (fun pairs => Pairing.mk opened ((start, place) :: pairs)) dropped

/-- Texts between markers leave a pairing alone. -/
theorem run_plain (directives : Directives) (place : Nat) (pairing : Pairing) (content : Text)
    (rest : List Mark) :
    Pairing.run directives place pairing (content.map .plain ++ rest) =
      Pairing.run directives place pairing rest := by
  induction content with
  | nil => rfl
  | cons c content ih => exact ih

/-- Behind a template the openers in front of it are open as before, and the pairs of its outermost
blocks have been added. -/
theorem Laid.run {directives : Directives} {template : Template} {marks : List Mark}
    {edits : List Edit} (laid : Laid directives template marks edits) {place : Nat}
    (opened : List (Nat × Text)) {earlier : List (Nat × Nat)}
    (before : ∀ pair ∈ earlier, pair.1 < place) (rest : List Mark) :
    Pairing.run directives place ⟨opened, earlier⟩ (marks ++ rest) =
      Pairing.run directives (place + template.markers)
        ⟨opened, (template.pairs place).reverse ++ earlier⟩ rest := by
  have later {place : Nat} {earlier : List (Nat × Nat)}
      (before : ∀ pair ∈ earlier, pair.1 < place) : ∀ pair ∈ earlier, pair.1 < place + 1 :=
    fun pair member => Nat.lt_succ_of_lt (before pair member)
  -- A block puts its opener on the stack, runs its body above it and takes it off again.
  induction laid generalizing place opened earlier rest with
  | done => rfl
  | text content _ ih =>
    rw [List.append_assoc, run_plain, ih opened before]
    rfl
  | @single name expression tail _ _ isName known _ ih =>
    have count : place + (tail.markers + 1) = place + 1 + tail.markers := by omega
    have passed := @run_loneMarker directives name (some expression) isName known
    rw [List.cons_append, passed, ih opened (later before), markers, count]
    rfl
  | @bare name tail _ _ isName known _ ih =>
    have count : place + (tail.markers + 1) = place + 1 + tail.markers := by omega
    have passed := @run_loneMarker directives name none isName known
    rw [List.cons_append, passed, ih opened (later before), markers, count]
    rfl
  | @block name expression _ _ _ body tail _ _ _ _ isName known _ _ _ bodyIh restIh =>
    have inside : ∀ pair ∈ (body.pairs (place + 1)).reverse, place < pair.1 := fun pair member =>
      le_of_mem_pairs body (List.mem_reverse.mp member)
    -- What has been paired up to the closer begins in front of what follows it.
    have behind : ∀ pair ∈ (place, place + 1 + body.markers) :: earlier,
        pair.1 < place + 1 + body.markers + 1 := by
      intro pair member
      rcases List.mem_cons.mp member with rfl | old
      · simp only; omega
      · have := before pair old
        omega
    rw [List.cons_append, Pairing.run, step_openingMarker known, List.append_assoc,
      bodyIh _ (later before), List.cons_append, Pairing.run,
      step_closingMarker (ne_nil_of_starts isName.starts) _ _ _ inside before,
      restIh opened behind]
    have count : place + (Template.block name expression body tail).markers =
        place + 1 + body.markers + 1 + tail.markers := by
      simp only [markers]; omega
    have close : place + body.markers + 1 = place + 1 + body.markers := by omega
    rw [count, pairs, close]
    simp [show place + body.markers + 2 = place + 1 + body.markers + 1 by omega]

/-- The outermost pairs of a template by itself are those of its outermost blocks. -/
theorem Laid.outermostPairs {directives : Directives} {template : Template} {marks : List Mark}
    {edits : List Edit} (laid : Laid directives template marks edits) :
    Directives.outermostPairs directives marks = template.pairs 0 := by
  have nothing : ∀ pair ∈ ([] : List (Nat × Nat)), pair.1 < 0 := by simp
  have whole := laid.run [] nothing []
  rw [List.append_nil] at whole
  simp [Directives.outermostPairs, whole, Pairing.run]

end Template

end Templates
