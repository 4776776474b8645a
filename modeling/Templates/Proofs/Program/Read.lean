import Templates.Proofs.Program.Lowered
import Templates.Proofs.Program.Steps

/-!
The artifact of a page is read as the program that the page denotes.

The segments of a statement, wherever it stands, add its node to the innermost body.
-/

namespace Templates

/-- The segments of parts lead from one state to another of which a property holds, whatever follows
them. -/
def Piece.Leads (pieces : List Piece) (builder : Builder) (holds : Builder → Prop) : Prop :=
  ∀ segments, Piece.Cuts pieces segments →
    ∃ next, holds next ∧ ∀ behind, builder.run (segments ++ behind) = next.run behind

namespace Piece.Leads

variable {pieces : List Piece} {builder : Builder} {holds : Builder → Prop}

/-- No parts lead to where they begin. -/
theorem nil (already : holds builder) : Leads [] builder holds := by
  intro segments cuts
  cases cuts
  exact ⟨builder, already, fun _ => rfl⟩

/-- Parts lead on from where the parts before them lead to. -/
theorem append {front : List Piece} {between : Builder → Prop} (first : Leads front builder between)
    (then_ : ∀ next, between next → Leads pieces next holds) :
    Leads (front ++ pieces) builder holds := by
  intro segments cuts
  -- The segments are those of the first parts and then those of the others.
  obtain ⟨firstSegments, others, rfl, isFirst, isOthers⟩ := cuts.split
  obtain ⟨next, reached, ran⟩ := first firstSegments isFirst
  obtain ⟨last, holdsLast, ranLast⟩ := then_ next reached others isOthers
  refine ⟨last, holdsLast, fun behind => ?_⟩
  rw [List.append_assoc, ran, ranLast]

/-- Text between statements is added unless it is empty. -/
theorem copy {copy : Copy} (others : Leads pieces (builder.addAll copy.nodes) holds) :
    Leads (.text copy.text :: pieces) builder holds := by
  intro segments cuts
  -- Empty text has left no segment, and any other text is one.
  generalize isText : copy.text = content at cuts
  cases cuts with
  | empty behind =>
    have noNodes : copy.nodes = [] := by rw [Copy.nodes, if_pos isText]
    rw [noNodes, Builder.addAll_nil] at others
    exact others segments behind
  | text filled behind =>
    have node : copy.nodes = [.text copy.text] := by rw [Copy.nodes, if_neg (isText ▸ filled)]
    obtain ⟨last, holdsLast, ran⟩ := others _ behind
    refine ⟨last, holdsLast, fun after => ?_⟩
    rw [List.cons_append, Builder.run_cons rfl, ← ran after, node, ← isText]
    rfl

/-- A tag leads to where its statement does. -/
theorem tag {word : TagWord} {header : Text} {next : Nat → Builder}
    (takes : builder.Takes word header next)
    (others : ∀ position, Leads pieces (next position) holds) :
    Leads (.tag word header :: pieces) builder holds := by
  intro segments cuts
  -- A tag is one segment, which takes one step.
  cases cuts with
  | tag position restPosition behind =>
    obtain ⟨last, holdsLast, ran⟩ := others position _ behind
    refine ⟨last, holdsLast, fun after => ?_⟩
    have stepped : builder.step (.statement ⟨word.text, position, header, restPosition⟩) =
        .ok (next position) := takes position restPosition
    rw [List.cons_append, Builder.run_cons stepped, ran]

/-- A tag by itself leads to where its statement does. -/
theorem last {word : TagWord} {header : Text} {next : Builder}
    (takes : builder.Takes word header fun _ => next) (already : holds next) :
    Leads [.tag word header] builder holds :=
  .tag takes fun _ => .nil already

/-- A tag that opens a body leads to where the parts behind this body do. -/
theorem enclose {word : TagWord} {header : Text} {inside : List Piece} {before : Builder}
    {nodes : List Node} {block : Nat → Opening}
    (opens : before.Takes word header fun position => builder.within (block position) [])
    (body : ∀ builder : Builder, Leads inside builder (· = builder.addAll nodes))
    (others : ∀ start, Leads pieces (builder.within (block start) nodes) holds) :
    Leads (.tag word header :: (inside ++ pieces)) before holds := by
  refine .tag opens fun start => .append (body _) ?_
  -- The nodes of the body are the first ones inside of the block.
  rintro next rfl
  rw [Builder.addAll_within]
  exact others start

/-- A block leads to its node when its first tag opens it and its last one closes it. -/
theorem block {opening closing : TagWord} {header footer : Text} {inside : List Piece}
    {nodes : List Node} {node : Node} {block : Nat → Opening}
    (opens : builder.Takes opening header fun position => builder.within (block position) [])
    (body : ∀ builder : Builder, Leads inside builder (· = builder.addAll nodes))
    (closes : ∀ start, (builder.within (block start) nodes).Takes closing footer fun _ =>
      builder.add node) :
    Leads (.tag opening header :: (inside ++ [.tag closing footer])) builder
      (· = builder.add node) :=
  .enclose opens body fun start => .last (closes start) rfl

end Piece.Leads

variable {α : Type} {read : Nat → Text → Except SyntaxError α}

/-- A header is accepted where it stands in a tag. -/
theorem Header.read_trim (grammatical : Grammatical read) (header : Header read)
    (position : Nat) : read position (Text.trim header.source) = .ok header.value :=
  grammatical.trim header.accepted position

/-- A condition is accepted where it stands in a tag. -/
theorem Header.read_condition (negated : Bool) (condition : Header Expr.read) (position : Nat) :
    Expr.read position (condition.conditionSource negated) =
      .ok (condition.condition negated) := by
  cases negated with
  | false => exact condition.read_trim Expr.grammatical position
  | true => exact Expr.read_not (Expr.grammatical.trim condition.accepted 0) position

mutual

/-- A page adds its nodes to the innermost body. -/
theorem Page.leads (page : Page) (builder : Builder) :
    Piece.Leads page.pieces builder (· = builder.addAll page.nodes) := by
  cases page with
  | done copy => exact .copy (.nil rfl)
  | more copy statement rest =>
    rw [Page.nodes, Builder.addAll_append, Builder.addAll_cons]
    refine .copy (.append (statement.leads _) ?_)
    rintro next rfl
    exact rest.leads _

/-- A statement adds its node to the innermost body. -/
theorem Statement.leads (statement : Statement) (builder : Builder) :
    Piece.Leads statement.pieces builder (· = builder.add statement.node) := by
  -- A block is opened by its first tag and filled by its body. What ends it adds its node.
  cases statement with
  | choice negated condition body others =>
    exact .enclose (builder.takes_if (condition.read_condition negated)) body.leads
      fun start => others.leads builder start [] (condition.condition negated) body.nodes
  | foreach header body =>
    exact .block (builder.takes_foreach (header.read_trim ForeachHeader.grammatical)) body.leads
      fun _ => Builder.takes_endforeach
  | range header body =>
    exact .block (builder.takes_for (header.read_trim RangeHeader.grammatical)) body.leads
      fun _ => Builder.takes_endfor
  | whileLoop condition body =>
    exact .block (builder.takes_while (condition.read_trim Expr.grammatical)) body.leads
      fun _ => Builder.takes_endwhile
  | doWhileLoop condition body =>
    exact .block builder.takes_do body.leads
      fun _ => Builder.takes_dowhile (condition.read_trim Expr.grammatical)
  | switch subject lead cases =>
    exact .enclose (builder.takes_switch (subject.read_trim Expr.grammatical)) lead.leads
      fun _ => cases.leads Builder.betweenCases_first
  | assign assignment =>
    exact .last (builder.takes_set (assignment.read_trim Assignment.grammatical)) rfl
  | leave => exact .last builder.takes_break rfl

/-- The branches behind one that is open end its block. -/
theorem Branches.leads (branches : Branches) (builder : Builder) (start : Nat)
    (done : List (Expr × List Node)) (condition : Expr) (nodes : List Node) :
    Piece.Leads (branches.pieces ++ [.tag .endifTag []])
      (builder.within (.branch start done condition) nodes)
      (· = builder.add
        (.choice (done ++ (condition, nodes) :: branches.branches) branches.otherwiseNodes)) := by
  -- The branch that is open is added to those that are done when another one begins.
  cases branches with
  | none => exact .last Builder.takes_endif rfl
  | otherwise body =>
    exact .enclose Builder.takes_else body.leads
      fun _ => .last Builder.takes_endif_otherwise rfl
  | another next body others =>
    rw [Branches.pieces, List.cons_append, List.append_assoc]
    refine .enclose (Builder.takes_elseif (next.read_trim Expr.grammatical)) body.leads fun _ => ?_
    have rest := others.leads builder start (done ++ [(condition, nodes)]) next.value body.nodes
    rw [List.append_assoc] at rest
    exact rest

/-- Cases behind those that are done end their switch. -/
theorem Cases.leads (cases : Cases) {builder current : Builder} {start : Nat} {subject : Expr}
    {done : List (Option Expr × List Node)}
    (between : builder.BetweenCases start subject done current) :
    Piece.Leads (cases.pieces ++ [.tag .endswitchTag []]) current
      (· = builder.add (.switch subject (done ++ cases.branches))) := by
  -- A case is done when what follows it begins.
  cases cases with
  | none =>
    rw [Cases.branches, List.append_nil]
    exact .last between.takes_endswitch rfl
  | case next body others =>
    rw [Cases.pieces, List.cons_append, List.append_assoc, Cases.branches,
      List.append_cons done]
    exact .enclose (between.takes_case (next.read_trim Expr.grammatical)) body.leads
      fun _ => others.leads Builder.betweenCases_behind
  | default body others =>
    rw [Cases.pieces, List.cons_append, List.append_assoc, Cases.branches,
      List.append_cons done]
    exact .enclose between.takes_default body.leads
      fun _ => others.leads Builder.betweenCases_behind

end

namespace Page

/-- The artifact of a page is read as the program that the page denotes. -/
theorem read_writeAll (page : Page) :
    Program.read (Piece.writeAll page.pieces) = .ok page.nodes := by
  -- The segments of the artifact are those of its parts, and lead to the nodes of the page.
  obtain ⟨cut, isCut, cuts⟩ := page.cuts_segments
  obtain ⟨next, rfl, ran⟩ := page.leads Builder.start cut cuts
  have whole := ran []
  rw [List.append_nil] at whole
  rw [Program.read, isCut]
  show (Builder.start.run cut >>= Builder.finish) = _
  rw [whole]
  exact Builder.finish_addAll_start page.nodes

/-- A page is compiled by the builtin directives, and what it is compiled to is read as the program
that the page denotes, whatever its headers hold and however its statements nest. -/
theorem compile_read (page : Page) (spaced : Template.Spaced true [] page.template)
    {maxDepth : Nat} (passes : 2 ≤ maxDepth) (shallow : page.template.nesting < maxDepth) :
    ∃ artifact, Directive.builtins.compile maxDepth page.template.source = .ok artifact ∧
      Program.read artifact = .ok page.nodes :=
  ⟨Piece.writeAll page.pieces, page.compile_source spaced passes shallow, page.read_writeAll⟩

/-- A text between statements. -/
def blank : Copy :=
  ⟨" ".toList, by decide, rfl⟩

/-- What a switch looks at. -/
def subject : Header Expr.read :=
  ⟨"n".toList, .var "n".toList, rfl, by decide⟩

/-- A condition with a parenthesis and the end of a tag in a string. -/
def tricky : Header Expr.read where
  source := " a == ') %>' "
  value := .binary (.var "a".toList) .equals (.literal (.text ") %>".toList))
  accepted := by
    have cut : Lexer.tokenize " a == ') %>' ".toList = .ok [⟨.name "a".toList, 1, 2⟩,
        ⟨.symbol .equal, 3, 5⟩, ⟨.string "') %>'".toList, 6, 12⟩] := rfl
    rw [Expr.read, Reader.readAll, cut]
    rfl
  noMarker := by decide

/-- A negated condition with an alternative inside of a switch. -/
def nestedSwitch : Page :=
  .more blank
    (.switch subject (.done blank)
      (.case subject
        (.more blank (.choice true tricky (.done blank) (.otherwise (.done blank))) (.done blank))
        (.default (.more blank .leave (.done blank)) .none)))
    (.done blank)

/-- What a negated condition decides inside of a case is read as such, with the strings it holds. -/
theorem compile_read_nestedSwitch :
    Template.Spaced true [] nestedSwitch.template ∧ 2 ≤ 3 ∧ nestedSwitch.template.nesting < 3 ∧
      ∃ artifact, Directive.builtins.compile 3
        (" @switch(n) @case(n) @unless( a == ') %>' ) @else @endunless @default @break " ++
          "@endswitch ").toList = .ok artifact ∧
        Program.read artifact = .ok [.text [' '], .switch (.var "n".toList)
          [(some (.var "n".toList),
              [.text [' '], .choice [(.unary .not tricky.value, [.text [' ']])] [.text [' ']],
                .text [' ']]),
            (none, [.text [' '], .leave, .text [' ']])], .text [' ']] := by
  have spaced : Template.Spaced true [] nestedSwitch.template := by
    simp [nestedSwitch, Page.template, Page.before, Statement.before, Cases.template,
      Branches.template, Template.Spaced, Template.clearAfter, blank, subject, Text.isMarkupBlank,
      Template.EndsName, Template.source, Marker.continuesName, Marker.isClear]
  exact ⟨spaced, by decide, by decide, compile_read nestedSwitch spaced (by decide) (by decide)⟩

end Page

end Templates
