import Templates.Proofs.Expr.Headers
import Templates.Proofs.Program.Steps

/-!
Reading an artifact undoes writing it.

A program is written with a tag for each statement that is no text. What a block holds stands
between its tags, and texts stand between the tags of their neighbours.
-/

namespace Templates

namespace Node

/-- A node that is text. -/
def isText : Node → Bool
  | text _ => true
  | _ => false

mutual

/-- A node that an artifact tells from its neighbours: no text in it is empty, holds the sign of a
tag or stands next to another one, and every choice has a branch. -/
def isCanonical : Node → Bool
  | text content => !content.isEmpty && !Text.contains "<%".toList content
  | choice branches otherwise =>
    !branches.isEmpty && branchesAreCanonical branches && areCanonical otherwise
  | foreach _ _ _ body => areCanonical body
  | range _ _ _ _ body => areCanonical body
  | whileLoop _ body => areCanonical body
  | doWhileLoop body _ => areCanonical body
  | switch _ cases => casesAreCanonical cases
  | echo _ _ | assign _ _ | leave => true

/-- Nodes side by side that an artifact tells apart. -/
def areCanonical : List Node → Bool
  | [] => true
  | node :: rest =>
    node.isCanonical && !(node.isText && rest.head?.any isText) && areCanonical rest

/-- Branches with canonical bodies. -/
def branchesAreCanonical : List (Expr × List Node) → Bool
  | [] => true
  | (_, body) :: rest => areCanonical body && branchesAreCanonical rest

/-- Cases with canonical bodies. -/
def casesAreCanonical : List (Option Expr × List Node) → Bool
  | [] => true
  | (_, body) :: rest => areCanonical body && casesAreCanonical rest

end

/-- The tag that writes a value, with its special characters escaped or not. -/
def echoTag (escaped : Bool) (source : Text) : Text :=
  "<%".toList ++ ((if escaped then '=' else '-') :: ' ' :: source ++ " %>".toList)

mutual

/-- The ways to write a node: its headers are any sources that are accepted for them. -/
inductive Written : Node → Text → Prop where
  | text (content : Text) : Written (.text content) content
  | echo {value : Expr} {source : Text} (escaped : Bool) :
    Expr.read 0 source = .ok value → Written (.echo value escaped) (echoTag escaped source)
  | choice {condition : Expr} {body otherwise : List Node} {branches : List (Expr × List Node)}
      {source inside others : Text} :
    Expr.read 0 source = .ok condition → AllWritten body inside →
      BranchesWritten branches otherwise others →
      Written (.choice ((condition, body) :: branches) otherwise)
        ((Piece.tag .ifTag source).write ++ (inside ++ others))
  | foreach {loop : ForeachHeader} {body : List Node} {source inside : Text} :
    ForeachHeader.read 0 source = .ok loop → AllWritten body inside →
      Written (.foreach loop.iterable loop.key loop.item body)
        ((Piece.tag .foreachTag source).write ++
          (inside ++ (Piece.tag .endforeachTag []).write))
  | range {loop : RangeHeader} {body : List Node} {source inside : Text} :
    RangeHeader.read 0 source = .ok loop → AllWritten body inside →
      Written (.range loop.counter loop.start loop.stop loop.inclusive body)
        ((Piece.tag .forTag source).write ++ (inside ++ (Piece.tag .endforTag []).write))
  | whileLoop {condition : Expr} {body : List Node} {source inside : Text} :
    Expr.read 0 source = .ok condition → AllWritten body inside →
      Written (.whileLoop condition body)
        ((Piece.tag .whileTag source).write ++ (inside ++ (Piece.tag .endwhileTag []).write))
  | doWhileLoop {condition : Expr} {body : List Node} {source inside : Text} :
    Expr.read 0 source = .ok condition → AllWritten body inside →
      Written (.doWhileLoop body condition)
        ((Piece.tag .doTag []).write ++ (inside ++ (Piece.tag .dowhileTag source).write))
  | switch {subject : Expr} {cases : List (Option Expr × List Node)} {source others : Text} :
    Expr.read 0 source = .ok subject → CasesWritten cases others →
      Written (.switch subject cases) ((Piece.tag .switchTag source).write ++ others)
  | assign {assignment : Assignment} {source : Text} :
    Assignment.read 0 source = .ok assignment →
      Written (.assign assignment.name assignment.value) (Piece.tag .setTag source).write
  | leave : Written .leave (Piece.tag .breakTag []).write

/-- The ways to write nodes one behind the other. -/
inductive AllWritten : List Node → Text → Prop where
  | nil : AllWritten [] []
  | cons {node : Node} {nodes : List Node} {first others : Text} :
    Written node first → AllWritten nodes others → AllWritten (node :: nodes) (first ++ others)

/-- The ways to write what stands behind the first branch of a choice, up to the end of the choice.
What is done when no condition holds is written only if there is something to do. -/
inductive BranchesWritten : List (Expr × List Node) → List Node → Text → Prop where
  | none : BranchesWritten [] [] (Piece.tag .endifTag []).write
  | otherwise {nodes : List Node} {inside : Text} :
    nodes ≠ [] → AllWritten nodes inside →
      BranchesWritten [] nodes
        ((Piece.tag .elseTag []).write ++ (inside ++ (Piece.tag .endifTag []).write))
  | another {condition : Expr} {body otherwise : List Node} {branches : List (Expr × List Node)}
      {source inside others : Text} :
    Expr.read 0 source = .ok condition → AllWritten body inside →
      BranchesWritten branches otherwise others →
      BranchesWritten ((condition, body) :: branches) otherwise
        ((Piece.tag .elseifTag source).write ++ (inside ++ others))

/-- The ways to write the cases of a switch, up to the end of the switch. -/
inductive CasesWritten : List (Option Expr × List Node) → Text → Prop where
  | none : CasesWritten [] (Piece.tag .endswitchTag []).write
  | case {test : Expr} {body : List Node} {cases : List (Option Expr × List Node)}
      {source inside others : Text} :
    Expr.read 0 source = .ok test → AllWritten body inside → CasesWritten cases others →
      CasesWritten ((some test, body) :: cases)
        ((Piece.tag .caseTag source).write ++ (inside ++ others))
  | default {body : List Node} {cases : List (Option Expr × List Node)} {inside others : Text} :
    AllWritten body inside → CasesWritten cases others →
      CasesWritten ((none, body) :: cases)
        ((Piece.tag .defaultTag []).write ++ (inside ++ others))

end

end Node

/-- The program that the rest of an artifact makes of what has been read. -/
def Program.readFrom (builder : Builder) (offset : Nat) (text : Text) :
    Except ProgramError Program := do
  let segments ← (Segment.segmentsFrom offset 0 [] text).mapError .tags
  (← builder.run segments).finish

/-- A segment at the front of an artifact takes one step. -/
theorem Program.readFrom_segment {builder next : Builder} {offset later : Nat} {text rest : Text}
    {segment : Segment}
    (cut : Segment.segmentsFrom offset 0 [] text =
      (Segment.segmentsFrom later 0 [] rest).map (segment :: ·))
    (stepped : builder.step segment = .ok next) :
    readFrom builder offset text = readFrom next later rest := by
  rw [readFrom, readFrom, cut]
  cases Segment.segmentsFrom later 0 [] rest with
  | error error => rfl
  | ok segments =>
    show (builder.run (segment :: segments) >>= Builder.finish) = _
    rw [Builder.run_cons stepped]
    rfl

/-- A place where text ends: at a tag, or at the end of the artifact. -/
def AtTag (text : Text) : Prop :=
  text = [] ∨ ∃ inner, text = "<%".toList ++ inner

/-- A place in front of a tag. -/
theorem atTag_tag (word : TagWord) (header rest : Text) :
    AtTag ((Piece.tag word header).write ++ rest) :=
  .inr ⟨' ' :: (Piece.inside word header ++ (" %>".toList ++ rest)), by simp [Piece.write]⟩

/-- A place in front of the tag of a value. -/
theorem atTag_echoTag (escaped : Bool) (source rest : Text) :
    AtTag (Node.echoTag escaped source ++ rest) :=
  .inr ⟨_, by rw [Node.echoTag, List.append_assoc]⟩

/-- At a tag the text that is pending becomes a segment. -/
theorem Segment.segmentsFrom_pending {rest : Text} (atTag : AtTag rest) (offset : Nat)
    (pending : Text) :
    segmentsFrom offset 0 pending rest =
      (segmentsFrom offset 0 [] rest).map (withText pending) := by
  rcases atTag with rfl | ⟨inner, rfl⟩
  · rfl
  · -- The tag is the same, whatever is pending in front of it.
    have opens : Text.strip? "<%".toList ('<' :: '%' :: inner) = some inner := rfl
    have written : "<%".toList ++ inner = '<' :: '%' :: inner := rfl
    simp only [written, segmentsFrom, opens]
    cases TagEnd.ofBody inner with
    | missing => rfl
    | cut => rfl
    | found body after =>
      simp only
      cases segmentsFrom (offset + '<'.utf8Size) (('%' :: inner).length - after.length) []
        ('%' :: inner) <;> rfl

namespace Builder

/-- An artifact in front of another one leads from one state to another. -/
def Reads (builder : Builder) (artifact rest : Text) (next : Builder) : Prop :=
  ∀ offset, ∃ later,
    Program.readFrom builder offset (artifact ++ rest) = Program.readFrom next later rest

namespace Reads

variable {builder next last : Builder} {front back rest source : Text}

/-- Nothing leads to where it begins. -/
theorem nil : builder.Reads [] rest builder :=
  fun offset => ⟨offset, rfl⟩

/-- Artifacts lead on from where those in front of them lead to. -/
theorem append (first : builder.Reads front (back ++ rest) next)
    (others : next.Reads back rest last) : builder.Reads (front ++ back) rest last := by
  intro offset
  obtain ⟨middle, readFirst⟩ := first offset
  obtain ⟨later, readOthers⟩ := others middle
  exact ⟨later, by rw [List.append_assoc, readFirst, readOthers]⟩

/-- Text up to a tag becomes a statement. -/
theorem text {content : Text} (filled : content ≠ [])
    (noTag : Text.contains "<%".toList content = false) (atTag : AtTag rest) :
    builder.Reads content rest (builder.add (.text content)) := by
  intro offset
  have noPercent : rest.head? ≠ some '%' := by
    rcases atTag with rfl | ⟨inner, rfl⟩ <;> simp
  have stepped : builder.step (.text content) = .ok (builder.add (.text content)) := rfl
  refine ⟨offset + Text.bytes content, Program.readFrom_segment ?_ stepped⟩
  rw [Segment.segmentsFrom_text noTag noPercent, Segment.segmentsFrom_pending atTag,
    List.append_nil]
  congr
  funext segments
  rw [Segment.withText_of_ne_nil (by simpa using filled), List.reverse_reverse]

/-- A tag with a value becomes a statement. -/
theorem echo {value : Expr} (accepted : Expr.read 0 source = .ok value) (escaped : Bool) :
    builder.Reads (Node.echoTag escaped source) rest (builder.add (.echo value escaped)) := by
  intro offset
  let sign := if escaped then '=' else '-'
  -- The sign in front of the value is neither a quote nor that of a comment.
  have untagged : Untagged (sign :: ' ' :: source) := by
    have behind : Untagged (' ' :: source) :=
      .plain (by decide) rfl (fun percent => absurd percent (by decide))
        (Expr.grammatical.untagged accepted)
    cases escaped <;>
      exact .plain (by decide) rfl (fun percent => absurd percent (by decide)) behind
  have spoken : (sign :: ' ' :: source).head? ≠ some '#' := by
    cases escaped <;> simp [sign]
  obtain ⟨later, cut⟩ := Segment.segmentsFrom_body untagged spoken offset [] rest
  have written : Node.echoTag escaped source ++ rest =
      "<%".toList ++ (sign :: ' ' :: source ++ (" %>".toList ++ rest)) := by
    simp [Node.echoTag, sign]
  have segment : Segment.ofBody (offset + 2) (sign :: ' ' :: source ++ [' ']) =
      [.echo (' ' :: source ++ [' ']) (offset + 3) escaped] := by
    cases escaped <;> rfl
  rw [segment] at cut
  refine ⟨later, Program.readFrom_segment (written ▸ cut) ?_⟩
  rw [step, Expr.grammatical.spaced accepted]
  rfl

/-- A tag leads to where its statement does. -/
theorem tag {word : TagWord} {header : Text} {next : Nat → Builder} (untagged : Untagged header)
    (takes : builder.Takes word (Text.trim header) next)
    (others : ∀ position, (next position).Reads back rest last) :
    builder.Reads ((Piece.tag word header).write ++ back) rest last := by
  intro offset
  obtain ⟨position, restPosition, middle, cut⟩ :=
    Segment.segmentsFrom_tag untagged word offset [] (back ++ rest)
  obtain ⟨later, read⟩ := others position middle
  refine ⟨later, ?_⟩
  rw [List.append_assoc, ← read]
  exact Program.readFrom_segment cut (takes position restPosition)

/-- A tag by itself leads to where its statement does. -/
theorem last_tag {word : TagWord} {header : Text} (untagged : Untagged header)
    (takes : builder.Takes word (Text.trim header) fun _ => next) :
    builder.Reads (Piece.tag word header).write rest next := by
  have read : builder.Reads ((Piece.tag word header).write ++ []) rest next :=
    tag untagged takes fun _ => nil
  rwa [List.append_nil] at read

/-- A tag that opens a body leads to where what stands behind this body does. -/
theorem enclose {word : TagWord} {header inside : Text} {nodes : List Node}
    {block : Nat → Opening} {before : Builder} (untagged : Untagged header)
    (opens : before.Takes word (Text.trim header) fun position =>
      builder.within (block position) [])
    (body : ∀ builder : Builder, builder.Reads inside (back ++ rest) (builder.addAll nodes))
    (others : ∀ start, (builder.within (block start) nodes).Reads back rest last) :
    before.Reads ((Piece.tag word header).write ++ (inside ++ back)) rest last := by
  refine tag untagged opens fun start => append ?_ (others start)
  -- The nodes of the body are the first ones inside of the block.
  have filled := body (builder.within (block start) [])
  rwa [addAll_within] at filled

/-- A block leads to its node when its first tag opens it and its last one closes it. -/
theorem block {opening closing : TagWord} {header footer inside : Text} {nodes : List Node}
    {node : Node} {block : Nat → Opening} (untagged : Untagged header)
    (untaggedEnd : Untagged footer)
    (opens : builder.Takes opening (Text.trim header) fun position =>
      builder.within (block position) [])
    (body : ∀ (builder : Builder) {rest : Text}, AtTag rest →
      builder.Reads inside rest (builder.addAll nodes))
    (closes : ∀ start, (builder.within (block start) nodes).Takes closing (Text.trim footer)
      fun _ => builder.add node) :
    builder.Reads
      ((Piece.tag opening header).write ++ (inside ++ (Piece.tag closing footer).write)) rest
      (builder.add node) :=
  enclose untagged opens (fun builder => body builder (atTag_tag closing footer rest))
    fun start => last_tag untaggedEnd (closes start)

end Reads

end Builder

namespace Node

/-- A node that is no text begins with a tag. -/
theorem Written.atTag {node : Node} {artifact : Text} (written : node.Written artifact)
    (noText : node.isText = false) (rest : Text) : AtTag (artifact ++ rest) := by
  cases written with
  | text content => cases noText
  | echo escaped _ => exact atTag_echoTag escaped _ rest
  | assign _ => exact atTag_tag _ _ rest
  | leave => exact atTag_tag _ _ rest
  | _ =>
    rw [List.append_assoc]
    exact atTag_tag _ _ _

/-- Nodes that do not begin with a text begin with a tag, unless there are none. -/
theorem AllWritten.atTag {nodes : List Node} {artifact rest : Text}
    (written : AllWritten nodes artifact) (noText : nodes.head?.any isText = false)
    (atTag : AtTag rest) : AtTag (artifact ++ rest) := by
  cases written with
  | nil => exact atTag
  | cons first others =>
    rw [List.append_assoc]
    exact first.atTag (by simpa using noText) _

/-- What stands behind a branch begins with a tag. -/
theorem BranchesWritten.atTag {branches : List (Expr × List Node)} {otherwise : List Node}
    {artifact : Text} (written : BranchesWritten branches otherwise artifact) (rest : Text) :
    AtTag (artifact ++ rest) := by
  cases written with
  | none => exact atTag_tag _ _ rest
  | _ =>
    rw [List.append_assoc]
    exact atTag_tag _ _ _

/-- What stands behind a case begins with a tag. -/
theorem CasesWritten.atTag {cases : List (Option Expr × List Node)} {artifact : Text}
    (written : CasesWritten cases artifact) (rest : Text) : AtTag (artifact ++ rest) := by
  cases written with
  | none => exact atTag_tag _ _ rest
  | _ =>
    rw [List.append_assoc]
    exact atTag_tag _ _ _

mutual

/-- What writes a node adds this node to the innermost body. -/
theorem Written.reads : {node : Node} → {artifact : Text} → node.Written artifact →
    node.isCanonical = true → ∀ (builder : Builder) {rest : Text},
      (node.isText = true → AtTag rest) → builder.Reads artifact rest (builder.add node)
  | _, _, .text content, canonical, builder, rest, atTag => by
    obtain ⟨filled, noTag⟩ : content ≠ [] ∧ Text.contains "<%".toList content = false := by
      simpa [isCanonical] using canonical
    exact .text filled noTag (atTag rfl)
  | _, _, .echo escaped accepted, _, _, _, _ => .echo accepted escaped
  -- A block is opened by its first tag and filled by its body. What ends it adds its node.
  | _, _, .choice accepted body others, canonical, builder, rest, _ => by
    simp only [isCanonical, branchesAreCanonical, Bool.and_eq_true] at canonical
    obtain ⟨⟨-, canonicalBody, canonicalOthers⟩, canonicalEnd⟩ := canonical
    exact .enclose (Expr.grammatical.untagged accepted)
      (builder.takes_if (Expr.grammatical.trim accepted))
      (fun builder => body.reads canonicalBody builder (others.atTag rest))
      fun start => others.reads canonicalOthers canonicalEnd builder start [] _ _
  | _, _, .foreach accepted body, canonical, builder, _, _ =>
    .block (ForeachHeader.grammatical.untagged accepted) .nil
      (builder.takes_foreach (ForeachHeader.grammatical.trim accepted))
      (body.reads canonical) fun _ => Builder.takes_endforeach
  | _, _, .range accepted body, canonical, builder, _, _ =>
    .block (RangeHeader.grammatical.untagged accepted) .nil
      (builder.takes_for (RangeHeader.grammatical.trim accepted))
      (body.reads canonical) fun _ => Builder.takes_endfor
  | _, _, .whileLoop accepted body, canonical, builder, _, _ =>
    .block (Expr.grammatical.untagged accepted) .nil
      (builder.takes_while (Expr.grammatical.trim accepted))
      (body.reads canonical) fun _ => Builder.takes_endwhile
  | _, _, .doWhileLoop accepted body, canonical, builder, _, _ =>
    .block .nil (Expr.grammatical.untagged accepted) builder.takes_do
      (body.reads canonical) fun _ => Builder.takes_dowhile (Expr.grammatical.trim accepted)
  | _, _, .switch accepted others, canonical, builder, rest, _ =>
    .tag (Expr.grammatical.untagged accepted)
      (builder.takes_switch (Expr.grammatical.trim accepted))
      fun _ => others.reads canonical Builder.betweenCases_first
  | _, _, .assign accepted, _, builder, _, _ =>
    .last_tag (Assignment.grammatical.untagged accepted)
      (builder.takes_set (Assignment.grammatical.trim accepted))
  | _, _, .leave, _, builder, _, _ => .last_tag .nil builder.takes_break

/-- What writes nodes adds these nodes to the innermost body. -/
theorem AllWritten.reads : {nodes : List Node} → {artifact : Text} → AllWritten nodes artifact →
    areCanonical nodes = true → ∀ (builder : Builder) {rest : Text},
      AtTag rest → builder.Reads artifact rest (builder.addAll nodes)
  | _, _, .nil, _, _, _, _ => .nil
  | node :: nodes, _, .cons first others, canonical, builder, rest, atTag => by
    simp only [areCanonical, Bool.and_eq_true, Bool.not_eq_true', Bool.and_eq_false_imp]
      at canonical
    obtain ⟨⟨own, apart⟩, canonicalOthers⟩ := canonical
    rw [Builder.addAll_cons]
    exact .append (first.reads own builder fun isText => others.atTag (apart isText) atTag)
      (others.reads canonicalOthers _ atTag)

/-- What writes the rest of a choice ends its block. -/
theorem BranchesWritten.reads : {branches : List (Expr × List Node)} → {otherwise : List Node} →
    {artifact : Text} → BranchesWritten branches otherwise artifact →
    branchesAreCanonical branches = true → areCanonical otherwise = true →
      ∀ (builder : Builder) (start : Nat) (done : List (Expr × List Node)) (condition : Expr)
        (nodes : List Node) {rest : Text},
        (builder.within (.branch start done condition) nodes).Reads artifact rest
          (builder.add (.choice (done ++ (condition, nodes) :: branches) otherwise))
  | _, _, _, .none, _, _, _, _, _, _, _, _ => .last_tag .nil Builder.takes_endif
  | _, _, _, .otherwise _ body, _, canonical, _, _, _, _, _, rest =>
    .enclose .nil Builder.takes_else
      (fun builder => body.reads canonical builder (atTag_tag _ _ rest))
      fun _ => .last_tag .nil Builder.takes_endif_otherwise
  | _, _, _, .another accepted body others, canonical, canonicalEnd, builder, start, done,
      condition, nodes, rest => by
    simp only [branchesAreCanonical, Bool.and_eq_true] at canonical
    obtain ⟨canonicalBody, canonicalOthers⟩ := canonical
    -- The branch in front is done, and the next one is filled.
    rw [List.append_cons done]
    exact .enclose (Expr.grammatical.untagged accepted)
      (Builder.takes_elseif (Expr.grammatical.trim accepted))
      (fun builder => body.reads canonicalBody builder (others.atTag rest))
      fun _ => others.reads canonicalOthers canonicalEnd builder start
        (done ++ [(condition, nodes)]) _ _

/-- What writes the rest of a switch ends it. -/
theorem CasesWritten.reads : {cases : List (Option Expr × List Node)} → {artifact : Text} →
    CasesWritten cases artifact → casesAreCanonical cases = true →
      ∀ {builder current : Builder} {start : Nat} {subject : Expr}
        {done : List (Option Expr × List Node)} {rest : Text},
        builder.BetweenCases start subject done current →
          current.Reads artifact rest (builder.add (.switch subject (done ++ cases)))
  | _, _, .none, _, _, _, _, _, done, _, between => by
    rw [List.append_nil]
    exact .last_tag .nil between.takes_endswitch
  | _, _, .case accepted body others, canonical, _, _, _, _, done, rest, between => by
    simp only [casesAreCanonical, Bool.and_eq_true] at canonical
    obtain ⟨canonicalBody, canonicalOthers⟩ := canonical
    rw [List.append_cons done]
    exact .enclose (Expr.grammatical.untagged accepted)
      (between.takes_case (Expr.grammatical.trim accepted))
      (fun builder => body.reads canonicalBody builder (others.atTag rest))
      fun _ => others.reads canonicalOthers Builder.betweenCases_behind
  | _, _, .default body others, canonical, _, _, _, _, done, rest, between => by
    simp only [casesAreCanonical, Bool.and_eq_true] at canonical
    obtain ⟨canonicalBody, canonicalOthers⟩ := canonical
    rw [List.append_cons done]
    exact .enclose .nil between.takes_default
      (fun builder => body.reads canonicalBody builder (others.atTag rest))
      fun _ => others.reads canonicalOthers Builder.betweenCases_behind

end

end Node

namespace Program

/-- An artifact is read as the canonical nodes that it was written from, however they nest and
whichever accepted sources their headers were written with. -/
theorem read_written {nodes : List Node} {artifact : Text}
    (canonical : Node.areCanonical nodes = true) (written : Node.AllWritten nodes artifact) :
    Program.read artifact = .ok nodes := by
  -- All nodes are added to the page, and nothing but the page is open at the end.
  obtain ⟨later, read⟩ := written.reads canonical Builder.start (.inl rfl) 0
  have ends : readFrom (Builder.start.addAll nodes) later [] = .ok nodes :=
    Builder.finish_addAll_start nodes
  rw [List.append_nil, ends] at read
  exact read

/-- A choice with a switch in its first branch, whose last case holds a loop. -/
def nestedChoice : List Node :=
  let x := Expr.var ['x']
  [.text "Hi ".toList, .echo x true,
    .choice
      [(x, [.switch x [(some x, [.text ['a'], .leave]), (none, [.doWhileLoop [.text ['b']] x])]]),
        (x, [])]
      [.text ['c']]]

/-- Each block of a choice around a switch around a loop ends at its own tag. -/
theorem read_nestedChoice :
    Node.areCanonical nestedChoice = true ∧
      ∃ artifact, Node.AllWritten nestedChoice artifact ∧
        artifact = ("Hi <%= x %><% if x %><% switch  x %><% case x %>a<% break %>" ++
          "<% default %><% do %>b<% dowhile x %><% endswitch %><% elseif x  %>" ++
          "<% else %>c<% endif %>").toList ∧
        Program.read artifact = .ok nestedChoice := by
  have canonical : Node.areCanonical nestedChoice = true := by decide
  -- Blanks around a header make no difference.
  have x : Expr.read 0 ['x'] = .ok (.var ['x']) := rfl
  have behindBlank : Expr.read 0 [' ', 'x'] = .ok (.var ['x']) := rfl
  have beforeBlank : Expr.read 0 ['x', ' '] = .ok (.var ['x']) := rfl
  have loop : Node.AllWritten [.doWhileLoop [.text ['b']] (.var ['x'])] _ :=
    .cons (.doWhileLoop x (.cons (.text _) .nil)) .nil
  have cases : Node.CasesWritten
      [(some (.var ['x']), [.text ['a'], .leave]),
        (none, [.doWhileLoop [.text ['b']] (.var ['x'])])] _ :=
    .case x (.cons (.text _) (.cons .leave .nil)) (.default loop .none)
  have branches : Node.BranchesWritten [(.var ['x'], [])] [.text ['c']] _ :=
    .another beforeBlank .nil (.otherwise (by simp) (.cons (.text _) .nil))
  have written : Node.AllWritten nestedChoice _ :=
    .cons (.text _) (.cons (.echo true x)
      (.cons (.choice x (.cons (.switch behindBlank cases) .nil) branches) .nil))
  exact ⟨canonical, _, written, by decide +kernel, read_written canonical written⟩

end Program

end Templates
