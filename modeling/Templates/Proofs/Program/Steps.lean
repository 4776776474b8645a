import Templates.Proofs.Program.Pieces

/-!
What each tag does to the blocks that are open.

A tag opens a block inside of the innermost one, goes on with the innermost one, or closes it. The
blocks around it stay what they are.
-/

namespace Templates

namespace Builder

/-- Statements join the innermost body one after the other. -/
def addAll (nodes : List Node) (builder : Builder) : Builder :=
  { builder with top := { builder.top with body := nodes.reverse ++ builder.top.body } }

/-- A block is open inside of the innermost one, with the statements of its current body. -/
def within (opening : Opening) (body : List Node) (builder : Builder) : Builder :=
  ⟨⟨opening, body.reverse⟩, builder.top :: builder.outer⟩

/-- Without statements nothing is added. -/
theorem addAll_nil (builder : Builder) : builder.addAll [] = builder := rfl

/-- Statements are added one after the other. -/
theorem addAll_append (front back : List Node) (builder : Builder) :
    builder.addAll (front ++ back) = (builder.addAll front).addAll back := by
  simp [addAll]

/-- The first statement is added before the others. -/
theorem addAll_cons (node : Node) (nodes : List Node) (builder : Builder) :
    builder.addAll (node :: nodes) = (builder.add node).addAll nodes := by
  simp [addAll, add]

/-- Statements in an open block join its current body. -/
theorem addAll_within (opening : Opening) (body nodes : List Node) (builder : Builder) :
    (builder.within opening body).addAll nodes = builder.within opening (body ++ nodes) := by
  simp [addAll, within]

/-- Statements outside of all blocks are those of the program. -/
theorem finish_addAll_start (nodes : List Node) : (start.addAll nodes).finish = .ok nodes := by
  simp [finish, addAll, start]

/-- The segments behind one that was taken are taken next. -/
theorem run_cons {builder next : Builder} {segment : Segment}
    (stepped : builder.step segment = .ok next) (rest : List Segment) :
    builder.run (segment :: rest) = next.run rest := by
  simp [run, stepped]

/-- The words of tags that open blocks or are statements by themselves. -/
def isOpener : TagWord → Bool
  | .ifTag | .foreachTag | .forTag | .whileTag | .doTag | .switchTag | .setTag | .breakTag => true
  | _ => false

/-- Tags that open blocks do so in every block. -/
theorem statement_opener {word : TagWord} (opener : isOpener word = true) (builder : Builder)
    (position restPosition : Nat) (header : Text) :
    builder.statement ⟨word.text, position, header, restPosition⟩ =
      builder.opens ⟨word.text, position, header, restPosition⟩ (some word) := by
  -- Only tags that go on with a block or end one depend on the block they stand in.
  obtain ⟨⟨opening, body⟩, outer⟩ := builder
  simp only [statement, TagWord.ofText?_text]
  cases opening <;> cases word <;> first | rfl | cases opener

/-- A tag with a header leads from one state to another, wherever it stands. A block keeps the
offset of the tag that opened it. -/
def Takes (builder : Builder) (word : TagWord) (header : Text) (next : Nat → Builder) : Prop :=
  ∀ position restPosition,
    builder.statement ⟨word.text, position, header, restPosition⟩ = .ok (next position)

variable {header : Text}

section Openers

variable (builder : Builder)

/-- A condition opens its first branch. -/
theorem takes_if {condition : Expr}
    (accepted : ∀ position, Expr.read position header = .ok condition) :
    builder.Takes .ifTag header fun position =>
      builder.within (.branch position [] condition) [] := by
  -- The header is read in the same way wherever the tag stands.
  intro position restPosition
  rw [statement_opener rfl, opens]
  simp only [accepted]
  rfl

/-- A loop over entries is opened. -/
theorem takes_foreach {loop : ForeachHeader}
    (accepted : ∀ position, ForeachHeader.read position header = .ok loop) :
    builder.Takes .foreachTag header fun position =>
      builder.within (.foreach position loop) [] := by
  intro position restPosition
  rw [statement_opener rfl, opens]
  simp only [accepted]
  rfl

/-- A loop over integers is opened. -/
theorem takes_for {loop : RangeHeader}
    (accepted : ∀ position, RangeHeader.read position header = .ok loop) :
    builder.Takes .forTag header fun position => builder.within (.range position loop) [] := by
  intro position restPosition
  rw [statement_opener rfl, opens]
  simp only [accepted]
  rfl

/-- A loop with its condition in front is opened. -/
theorem takes_while {condition : Expr}
    (accepted : ∀ position, Expr.read position header = .ok condition) :
    builder.Takes .whileTag header fun position =>
      builder.within (.whileLoop position condition) [] := by
  intro position restPosition
  rw [statement_opener rfl, opens]
  simp only [accepted]
  rfl

/-- A loop with its condition at the end is opened. -/
theorem takes_do : builder.Takes .doTag header fun position =>
    builder.within (.doWhileLoop position) [] :=
  fun _ _ => statement_opener rfl builder _ _ _

/-- A switch is opened, with no case yet. -/
theorem takes_switch {subject : Expr}
    (accepted : ∀ position, Expr.read position header = .ok subject) :
    builder.Takes .switchTag header fun position =>
      builder.within (.switch position subject) [] := by
  intro position restPosition
  rw [statement_opener rfl, opens]
  simp only [accepted]
  rfl

/-- An assignment is a statement by itself. -/
theorem takes_set {assignment : Assignment}
    (accepted : ∀ position, Assignment.read position header = .ok assignment) :
    builder.Takes .setTag header fun _ =>
      builder.add (.assign assignment.name assignment.value) := by
  intro position restPosition
  rw [statement_opener rfl, opens]
  simp only [accepted]
  rfl

/-- The end of a loop is a statement by itself. -/
theorem takes_break : builder.Takes .breakTag header fun _ => builder.add .leave :=
  fun _ _ => statement_opener rfl builder _ _ _

end Openers

variable {builder : Builder} {start : Nat} {body : List Node}

/-- Another branch begins behind one, which is done. -/
theorem takes_elseif {done : List (Expr × List Node)} {condition next : Expr}
    (accepted : ∀ position, Expr.read position header = .ok next) :
    (builder.within (.branch start done condition) body).Takes .elseifTag header fun _ =>
      builder.within (.branch start (done ++ [(condition, body)]) next) [] := by
  -- The body of the branch in front was gathered from its last statement to its first.
  intro position restPosition
  simp only [statement, TagWord.ofText?_text, within, List.reverse_reverse, accepted]
  rfl

/-- What is done when no condition holds begins behind a branch. -/
theorem takes_else {done : List (Expr × List Node)} {condition : Expr} :
    (builder.within (.branch start done condition) body).Takes .elseTag header fun _ =>
      builder.within (.otherwise start (done ++ [(condition, body)])) [] := by
  intro position restPosition
  simp only [statement, TagWord.ofText?_text, within, List.reverse_reverse]
  rfl

/-- A choice ends behind a branch. -/
theorem takes_endif {done : List (Expr × List Node)} {condition : Expr} :
    (builder.within (.branch start done condition) body).Takes .endifTag header fun _ =>
      builder.add (.choice (done ++ [(condition, body)]) []) := by
  intro position restPosition
  simp only [statement, TagWord.ofText?_text, within, List.reverse_reverse]
  rfl

/-- A choice ends behind what is done when no condition holds. -/
theorem takes_endif_otherwise {branches : List (Expr × List Node)} :
    (builder.within (.otherwise start branches) body).Takes .endifTag header fun _ =>
      builder.add (.choice branches body) := by
  intro position restPosition
  simp only [statement, TagWord.ofText?_text, within, List.reverse_reverse]
  rfl

/-- A loop over entries ends. -/
theorem takes_endforeach {loop : ForeachHeader} :
    (builder.within (.foreach start loop) body).Takes .endforeachTag header fun _ =>
      builder.add (.foreach loop.iterable loop.key loop.item body) := by
  intro position restPosition
  simp only [statement, TagWord.ofText?_text, within, List.reverse_reverse]
  rfl

/-- A loop over integers ends. -/
theorem takes_endfor {loop : RangeHeader} :
    (builder.within (.range start loop) body).Takes .endforTag header fun _ =>
      builder.add (.range loop.counter loop.start loop.stop loop.inclusive body) := by
  intro position restPosition
  simp only [statement, TagWord.ofText?_text, within, List.reverse_reverse]
  rfl

/-- A loop with its condition in front ends. -/
theorem takes_endwhile {condition : Expr} :
    (builder.within (.whileLoop start condition) body).Takes .endwhileTag header fun _ =>
      builder.add (.whileLoop condition body) := by
  intro position restPosition
  simp only [statement, TagWord.ofText?_text, within, List.reverse_reverse]
  rfl

/-- A loop with its condition at the end ends with it. -/
theorem takes_dowhile {condition : Expr}
    (accepted : ∀ position, Expr.read position header = .ok condition) :
    (builder.within (.doWhileLoop start) body).Takes .dowhileTag header fun _ =>
      builder.add (.doWhileLoop body condition) := by
  intro position restPosition
  simp only [statement, TagWord.ofText?_text, within, List.reverse_reverse, accepted]
  rfl

/-- An open switch has nothing but cases that are done: another one begins, or the switch ends. -/
structure BetweenCases (builder : Builder) (start : Nat) (subject : Expr)
    (done : List (Option Expr × List Node)) (current : Builder) : Prop where
  takes_case : ∀ {header : Text} {test : Expr},
    (∀ position, Expr.read position header = .ok test) →
      current.Takes .caseTag header fun _ =>
        builder.within (.case start subject done (some test)) []
  takes_default : ∀ {header : Text},
    current.Takes .defaultTag header fun _ => builder.within (.case start subject done none) []
  takes_endswitch : ∀ {header : Text},
    current.Takes .endswitchTag header fun _ => builder.add (.switch subject done)

/-- No case is done in front of the first one, and what stands there is dropped. -/
theorem betweenCases_first {subject : Expr} :
    builder.BetweenCases start subject [] (builder.within (.switch start subject) body) where
  takes_case accepted position restPosition := by
    simp only [statement, TagWord.ofText?_text, within, accepted]
    rfl
  takes_default position restPosition := by
    simp only [statement, TagWord.ofText?_text, within]
    rfl
  takes_endswitch position restPosition := by
    simp only [statement, TagWord.ofText?_text, within]
    rfl

/-- A case is done when another one begins or the switch ends. -/
theorem betweenCases_behind {subject : Expr} {done : List (Option Expr × List Node)}
    {test : Option Expr} :
    builder.BetweenCases start subject (done ++ [(test, body)])
      (builder.within (.case start subject done test) body) where
  takes_case accepted position restPosition := by
    simp only [statement, TagWord.ofText?_text, within, List.reverse_reverse, accepted]
    rfl
  takes_default position restPosition := by
    simp only [statement, TagWord.ofText?_text, within, List.reverse_reverse]
    rfl
  takes_endswitch position restPosition := by
    simp only [statement, TagWord.ofText?_text, within, List.reverse_reverse]
    rfl

end Builder

end Templates
