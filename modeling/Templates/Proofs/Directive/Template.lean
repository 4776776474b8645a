import Templates.Directive.Compile
import Templates.Proofs.Directive.Balanced

/-! Templates with nested directives as trees: how they are written and what they stand for. -/

namespace Templates

/-- A template, given by its first part and the template behind that part. -/
inductive Template where
  | done
  | text (content : Text) (rest : Template)
  | single (name expression : Text) (rest : Template)
  | bare (name : Text) (rest : Template)
  | block (name expression : Text) (body rest : Template)
deriving DecidableEq, Repr

namespace Template

/-- A marker with an expression. -/
def opener (name expression : Text) : Text :=
  '@' :: name ++ '(' :: expression ++ [')']

/-- What the name of a closing marker is. -/
def closing (name : Text) : Text :=
  "end".toList ++ name

/-- How a template is written. -/
def source : Template → Text
  | done => []
  | text content rest => content ++ rest.source
  | single name expression rest => opener name expression ++ rest.source
  | bare name rest => '@' :: name ++ rest.source
  | block name expression body rest =>
    opener name expression ++ (body.source ++ ('@' :: closing name ++ rest.source))

/-- How deep the blocks of a template are nested. -/
def nesting : Template → Nat
  | done => 0
  | text _ rest => rest.nesting
  | single _ _ rest => rest.nesting
  | bare _ rest => rest.nesting
  | block _ _ body rest => max (body.nesting + 1) rest.nesting

/-- What a template stands for when markers stand for what a function writes: texts stay, and a
block is written from what its body stands for. -/
def translation (write : Text → Option Text → Option Text → Text) : Template → Text
  | done => []
  | text content rest => content ++ rest.translation write
  | single name expression rest => write name (some expression) none ++ rest.translation write
  | bare name rest => write name none none ++ rest.translation write
  | block name expression body rest =>
    write name (some expression) (some (body.translation write)) ++ rest.translation write

/-- What the directive of a name writes, or its complaint. -/
def answer (directives : Directives) (name : Text) (expression body : Option Text) :
    Except Error Text := do
  let directive ← directives.find name
  directive.apply expression body

/-- What a template stands for with directives that may complain; the first complaint counts.
Expressions are passed on without the blanks around them. -/
def translate (directives : Directives) : Template → Except Error Text
  | done => .ok []
  | text content rest => do return content ++ (← rest.translate directives)
  | single name expression rest => do
    let first ← answer directives name (some (Text.trim expression)) none
    return first ++ (← rest.translate directives)
  | bare name rest => do
    let first ← answer directives name none none
    return first ++ (← rest.translate directives)
  | block name expression body rest => do
    let inner ← body.translate directives
    let first ← answer directives name (some (Text.trim expression)) (some inner)
    return first ++ (← rest.translate directives)

/-- The names that markers can have, apart from those that close blocks. -/
structure IsName (name : Text) : Prop where
  starts : name.head?.any Marker.startsName = true
  continues : ∀ c ∈ name, Marker.continuesName c = true
  opens : Text.strip? "end" name = none

/-- The directives of a template are there, each for markers of the shape it is used in, its
expressions are balanced, and its texts hold no at sign. -/
def Known (directives : Directives) : Template → Prop
  | done => True
  | text content rest => '@' ∉ content ∧ rest.Known directives
  | single name expression rest =>
    IsName name ∧ (directives.ofKind? name .single).isSome = true ∧ Balanced expression ∧
      rest.Known directives
  | bare name rest =>
    IsName name ∧ (directives.ofKind? name .bare).isSome = true ∧ rest.Known directives
  | block name expression body rest =>
    IsName name ∧ (directives.ofKind? name .block).isSome = true ∧ Balanced expression ∧
      body.Known directives ∧ rest.Known directives

/-- No expression of a template has blanks around it. -/
def Trimmed : Template → Prop
  | done => True
  | text _ rest => rest.Trimmed
  | single _ expression rest => Text.trim expression = expression ∧ rest.Trimmed
  | bare _ rest => rest.Trimmed
  | block _ expression body rest =>
    Text.trim expression = expression ∧ body.Trimmed ∧ rest.Trimmed

/-- Whether a blank or nothing stands behind a text, given whether it does in front of the text. -/
def clearAfter : Bool → Text → Bool
  | clear, [] => clear
  | _, c :: rest => clearAfter (Text.isMarkupBlank c) rest

/-- A text that a name in front of it ends at, and that is no expression of the name. -/
def EndsName (text : Text) : Prop :=
  ∀ c ∈ text.head?, Marker.continuesName c = false ∧ c ≠ '('

/-- The markers of a template are told from what stands around them, given whether a blank or
nothing stands in front of the template, and the text behind it. Markers have blanks in front of
them or stand at the beginning, those that are replaced by themselves also have blanks behind them
or stand at the end, and closing markers are not read on. -/
def Spaced : Bool → Text → Template → Prop
  | _, _, done => True
  | clear, after, text content rest => Spaced (clearAfter clear content) after rest
  | clear, after, single _ _ rest =>
    clear = true ∧ Marker.isClear (rest.source ++ after) = true ∧ Spaced false after rest
  | clear, after, bare _ rest =>
    clear = true ∧ Marker.isClear (rest.source ++ after) = true ∧ Spaced false after rest
  | clear, after, block name _ body rest =>
    clear = true ∧ Spaced false ('@' :: closing name ++ (rest.source ++ after)) body ∧
      EndsName (rest.source ++ after) ∧ Spaced false after rest

/-- A template by itself, with nothing around it, whose directives are known. -/
structure WellFormed (directives : Directives) (template : Template) : Prop where
  known : template.Known directives
  spaced : Spaced true [] template

/-- What is clear behind two texts is told by the second one from what is clear behind the first. -/
theorem clearAfter_append (clear : Bool) (front back : Text) :
    clearAfter clear (front ++ back) = clearAfter (clearAfter clear front) back := by
  -- Only the last character counts.
  induction front generalizing clear with
  | nil => rfl
  | cons c front ih => exact ih _

/-- What is clear behind a text stays so when it becomes clear in front of the text. -/
theorem clearAfter_mono {clear clear' : Bool} (more : clear = true → clear' = true)
    (content : Text) (behind : clearAfter clear content = true) :
    clearAfter clear' content = true := by
  -- Only behind an empty text does it matter what stands in front.
  cases content with
  | nil => exact more behind
  | cons c content => exact behind

/-- A text that is clear stays so when its end is taken away. -/
theorem isClear_of_append {front back : Text} (clear : Marker.isClear (front ++ back) = true) :
    Marker.isClear front = true := by
  -- The first character is the same unless nothing is left.
  cases front with
  | nil => rfl
  | cons c front => exact clear

/-- A text that ends a name does so without its own end. -/
theorem EndsName.of_append {front back : Text} (ends : EndsName (front ++ back)) :
    EndsName front := by
  intro c first
  apply ends c
  cases front with
  | nil => simp at first
  | cons head front => simpa using first

/-- Markers stay told apart when what stands in front of the template becomes clear and a part of
what stands behind it is taken away. -/
theorem Spaced.mono {clear clear' : Bool} {after back : Text} {template : Template}
    (more : clear = true → clear' = true) (spaced : Spaced clear (after ++ back) template) :
    Spaced clear' after template := by
  -- Each condition looks at no more than one character on either side.
  induction template generalizing clear clear' after with
  | done => trivial
  | text content rest ih => exact ih (clearAfter_mono more content) spaced
  | single name expression rest ih =>
    obtain ⟨leading, trailing, others⟩ := spaced
    rw [← List.append_assoc] at trailing
    exact ⟨more leading, isClear_of_append trailing, ih id others⟩
  | bare name rest ih =>
    obtain ⟨leading, trailing, others⟩ := spaced
    rw [← List.append_assoc] at trailing
    exact ⟨more leading, isClear_of_append trailing, ih id others⟩
  | block name expression body rest bodyIh restIh =>
    obtain ⟨leading, inside, ends, others⟩ := spaced
    rw [← List.append_assoc] at ends
    have inside' : Spaced false (('@' :: closing name ++ (rest.source ++ after)) ++ back) body := by
      simpa using inside
    exact ⟨more leading, bodyIh id inside', ends.of_append, restIh id others⟩

/-- Markers told from what stands around a template are so in the template by itself. -/
theorem Spaced.alone {clear : Bool} {after : Text} {template : Template}
    (spaced : Spaced clear after template) : Spaced true [] template := by
  have whole : Spaced clear ([] ++ after) template := spaced
  exact Spaced.mono (fun _ => rfl) whole

end Template

end Templates
