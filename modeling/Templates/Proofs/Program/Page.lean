import Templates.Program.Parser
import Templates.Proofs.Directive.Template
import Templates.Proofs.Program.Pieces

/-!
Pages as trees of statements: how they are written with directives, what they are as artifacts, and
the program that they denote.
-/

namespace Templates

/-- Text between statements, in which no marker and no tag begins. -/
structure Copy where
  text : Text
  noMarker : '@' ∉ text
  noTag : Text.contains "<%".toList text = false

/-- The header of a statement, which a reader accepts, with what it stands for. -/
structure Header {α : Type} (read : Nat → Text → Except SyntaxError α) where
  source : Text
  value : α
  accepted : read 0 source = .ok value
  noMarker : '@' ∉ source

mutual

/-- A page: text, or text in front of a statement and of the page behind the statement. -/
inductive Page where
  | done (copy : Copy)
  | more (copy : Copy) (statement : Statement) (rest : Page)

/-- A statement of a page. -/
inductive Statement where
  /-- A block for when a condition holds or, if it is negated, for when it fails. -/
  | choice (negated : Bool) (condition : Header Expr.read) (body : Page) (others : Branches)
  | foreach (header : Header ForeachHeader.read) (body : Page)
  | range (header : Header RangeHeader.read) (body : Page)
  | whileLoop (condition : Header Expr.read) (body : Page)
  | doWhileLoop (condition : Header Expr.read) (body : Page)
  /-- A block of cases; what stands in front of the first one is dropped. -/
  | switch (subject : Header Expr.read) (lead : Page) (cases : Cases)
  | assign (assignment : Header Assignment.read)
  | leave

/-- The branches behind the first one. -/
inductive Branches where
  | none
  | otherwise (body : Page)
  | another (condition : Header Expr.read) (body : Page) (others : Branches)

/-- The cases of a switch, where one without a test is the default. -/
inductive Cases where
  | none
  | case (test : Header Expr.read) (body : Page) (others : Cases)
  | default (body : Page) (others : Cases)

end

/-! How pages are written with directives. -/

mutual

/-- The template of a page in front of another template. -/
def Page.before : Page → Template → Template
  | .done copy, behind => .text copy.text behind
  | .more copy statement rest, behind =>
    .text copy.text (statement.before (rest.before behind))

/-- The template of a statement in front of another template. -/
def Statement.before : Statement → Template → Template
  | .choice negated condition body others, behind =>
    .block (if negated then "unless".toList else "if".toList) condition.source
      (body.before others.template) behind
  | .foreach header body, behind =>
    .block "foreach".toList header.source (body.before .done) behind
  | .range header body, behind => .block "for".toList header.source (body.before .done) behind
  | .whileLoop condition body, behind =>
    .block "while".toList condition.source (body.before .done) behind
  | .doWhileLoop condition body, behind =>
    .block "do-while".toList condition.source (body.before .done) behind
  | .switch subject lead cases, behind =>
    .block "switch".toList subject.source (lead.before cases.template) behind
  | .assign assignment, behind => .single "set".toList assignment.source behind
  | .leave, behind => .bare "break".toList behind

/-- The template of the branches behind the first one. -/
def Branches.template : Branches → Template
  | .none => .done
  | .otherwise body => .bare "else".toList (body.before .done)
  | .another condition body others =>
    .single "elseif".toList condition.source (body.before others.template)

/-- The template of cases. -/
def Cases.template : Cases → Template
  | .none => .done
  | .case test body others => .single "case".toList test.source (body.before others.template)
  | .default body others => .bare "default".toList (body.before others.template)

end

/-- The template of a page. -/
def Page.template (page : Page) : Template :=
  page.before .done

/-! The programs that pages denote. -/

/-- Text that is not empty is a node. -/
def Copy.nodes (copy : Copy) : List Node :=
  if copy.text = [] then [] else [.text copy.text]

/-- The condition under which a block is taken. -/
def Header.condition (negated : Bool) (header : Header Expr.read) : Expr :=
  if negated then .unary .not header.value else header.value

mutual

/-- The program that a page denotes. -/
def Page.nodes : Page → List Node
  | .done copy => copy.nodes
  | .more copy statement rest => copy.nodes ++ statement.node :: rest.nodes

/-- The node that a statement denotes. -/
def Statement.node : Statement → Node
  | .choice negated condition body others =>
    .choice ((condition.condition negated, body.nodes) :: others.branches) others.otherwiseNodes
  | .foreach header body =>
    .foreach header.value.iterable header.value.key header.value.item body.nodes
  | .range header body =>
    .range header.value.counter header.value.start header.value.stop header.value.inclusive
      body.nodes
  | .whileLoop condition body => .whileLoop condition.value body.nodes
  | .doWhileLoop condition body => .doWhileLoop body.nodes condition.value
  | .switch subject _ cases => .switch subject.value cases.branches
  | .assign assignment => .assign assignment.value.name assignment.value.value
  | .leave => .leave

/-- The branches behind the first one that have a condition. -/
def Branches.branches : Branches → List (Expr × List Node)
  | .none => []
  | .otherwise _ => []
  | .another condition body others => (condition.value, body.nodes) :: others.branches

/-- The branch without a condition. -/
def Branches.otherwiseNodes : Branches → List Node
  | .none => []
  | .otherwise body => body.nodes
  | .another _ _ others => others.otherwiseNodes

/-- The cases of a switch in order. -/
def Cases.branches : Cases → List (Option Expr × List Node)
  | .none => []
  | .case test body others => (some test.value, body.nodes) :: others.branches
  | .default body others => (none, body.nodes) :: others.branches

end

/-! The artifacts that pages become. -/

/-- The source of the condition under which a block is taken. -/
def Header.conditionSource (negated : Bool) (header : Header Expr.read) : Text :=
  if negated then '!' :: '(' :: Text.trim header.source ++ [')'] else Text.trim header.source

mutual

/-- The parts of the artifact of a page. -/
def Page.pieces : Page → List Piece
  | .done copy => [.text copy.text]
  | .more copy statement rest => .text copy.text :: (statement.pieces ++ rest.pieces)

/-- The parts of the artifact of a statement. -/
def Statement.pieces : Statement → List Piece
  | .choice negated condition body others =>
    .tag .ifTag (condition.conditionSource negated) ::
      (body.pieces ++ (others.pieces ++ [.tag .endifTag []]))
  | .foreach header body =>
    .tag .foreachTag (Text.trim header.source) :: (body.pieces ++ [.tag .endforeachTag []])
  | .range header body =>
    .tag .forTag (Text.trim header.source) :: (body.pieces ++ [.tag .endforTag []])
  | .whileLoop condition body =>
    .tag .whileTag (Text.trim condition.source) :: (body.pieces ++ [.tag .endwhileTag []])
  | .doWhileLoop condition body =>
    .tag .doTag [] :: (body.pieces ++ [.tag .dowhileTag (Text.trim condition.source)])
  | .switch subject lead cases =>
    .tag .switchTag (Text.trim subject.source) ::
      (lead.pieces ++ (cases.pieces ++ [.tag .endswitchTag []]))
  | .assign assignment => [.tag .setTag (Text.trim assignment.source)]
  | .leave => [.tag .breakTag []]

/-- The parts of the artifact of the branches behind the first one. -/
def Branches.pieces : Branches → List Piece
  | .none => []
  | .otherwise body => .tag .elseTag [] :: body.pieces
  | .another condition body others =>
    .tag .elseifTag (Text.trim condition.source) :: (body.pieces ++ others.pieces)

/-- The parts of the artifact of cases. -/
def Cases.pieces : Cases → List Piece
  | .none => []
  | .case test body others =>
    .tag .caseTag (Text.trim test.source) :: (body.pieces ++ others.pieces)
  | .default body others => .tag .defaultTag [] :: (body.pieces ++ others.pieces)

end

end Templates
