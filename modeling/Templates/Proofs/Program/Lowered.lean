import Templates.Directive.Builtin
import Templates.Proofs.Directive.Pass
import Templates.Proofs.Program.Artifact

/-! A page compiled with the builtin directives is its artifact. -/

namespace Templates

open Directive

namespace Directive

/-- An expression that is not blank is passed on as it is. -/
theorem required_some {e : Text} (trimmed : Text.trim e = e) (filled : e ≠ []) (name : Text) :
    required name (some e) = .ok e := by
  cases e with
  | nil => exact absurd rfl filled
  | cons c e => simp [required, trimmed]

/-- A tag with a header is a first word with what follows it. -/
theorem tag_header (word : TagWord) {e : Text} (filled : e ≠ []) :
    tag [word.text, e] = (Piece.tag word e).write := by
  cases e with
  | nil => exact absurd rfl filled
  | cons c e => simp [tag, Piece.write, Piece.inside_cons, List.intercalate]

/-- A tag by itself is a first word. -/
theorem tag_alone (word : TagWord) : tag [word.text] = (Piece.tag word []).write := by
  simp [tag, Piece.write, Piece.inside, List.intercalate]

end Directive

namespace Template

variable {e : Text}

/-- What a handler writes is the answer of its directive. -/
theorem answer_of_handler {name : Text} {directive : Directive} {expression body : Option Text}
    {written : Text} (found : builtins.find name = .ok directive)
    (handled : directive.handler expression body = .ok written) :
    answer builtins name expression body = .ok written := by
  rw [answer, found]
  exact congrArg (Except.mapError _) handled

/-- A block between two tags is written with its expression and its body. -/
theorem answer_tagged (trimmed : Text.trim e = e) (filled : e ≠ []) (name : String)
    (found : builtins.find name.toList = .ok (tagged name)) (opening closing : TagWord)
    (opens : opening.text = name.toList) (closes : closing.text = "end".toList ++ name.toList)
    (body : Text) :
    answer builtins name.toList (some e) (some body) =
      .ok ((Piece.tag opening e).write ++ body ++ (Piece.tag closing []).write) := by
  refine answer_of_handler found ?_
  have handled : (tagged name).handler (some e) (some body) =
      (required name.toList (some e)).map fun e =>
        tag [name.toList, e] ++ body ++ tag ["end".toList ++ name.toList] := rfl
  rw [handled, required_some trimmed filled, ← closes, ← opens, ← tag_header opening filled,
    ← tag_alone closing]
  rfl

/-- A block for when a condition fails is one for when its negation holds. -/
theorem answer_unless (trimmed : Text.trim e = e) (filled : e ≠ []) (body : Text) :
    answer builtins "unless".toList (some e) (some body) =
      .ok ((Piece.tag .ifTag ('!' :: '(' :: e ++ [')'])).write ++ body ++
        (Piece.tag .endifTag []).write) := by
  refine answer_of_handler (show builtins.find _ = .ok unlessBlock from rfl) ?_
  have handled : unlessBlock.handler (some e) (some body) =
      (required "unless".toList (some e)).map fun e =>
        tag [TagWord.ifTag.text, '!' :: '(' :: e ++ [')']] ++ body ++
          tag [TagWord.endifTag.text] := rfl
  rw [handled, required_some trimmed filled, ← tag_header .ifTag (by simp), ← tag_alone .endifTag]
  rfl

/-- A block that runs before its condition is looked at is written with the condition behind it. -/
theorem answer_doWhile (trimmed : Text.trim e = e) (filled : e ≠ []) (body : Text) :
    answer builtins "do-while".toList (some e) (some body) =
      .ok ((Piece.tag .doTag []).write ++ body ++ (Piece.tag .dowhileTag e).write) := by
  refine answer_of_handler (show builtins.find _ = .ok doWhileBlock from rfl) ?_
  have handled : doWhileBlock.handler (some e) (some body) =
      (required "do-while".toList (some e)).map fun e =>
        tag [TagWord.doTag.text] ++ body ++ tag [TagWord.dowhileTag.text, e] := rfl
  rw [handled, required_some trimmed filled, ← tag_header .dowhileTag filled, ← tag_alone .doTag]
  rfl

/-- A statement is written as a tag with its expression. -/
theorem answer_statement (trimmed : Text.trim e = e) (filled : e ≠ []) (name : String)
    (found : builtins.find name.toList = .ok (statement name)) (word : TagWord)
    (spelled : word.text = name.toList) :
    answer builtins name.toList (some e) none = .ok (Piece.tag word e).write := by
  refine answer_of_handler found ?_
  have handled : (statement name).handler (some e) none =
      (required name.toList (some e)).map fun e => tag [name.toList, e] := rfl
  rw [handled, required_some trimmed filled, ← spelled, ← tag_header word filled]
  rfl

/-- A word is written as a tag by itself. -/
theorem answer_word (name : String) (found : builtins.find name.toList = .ok (Directive.word name))
    (word : TagWord) (spelled : word.text = name.toList) :
    answer builtins name.toList none none = .ok (Piece.tag word []).write := by
  refine answer_of_handler found ?_
  have handled : (Directive.word name).handler none none = .ok (tag [name.toList]) := rfl
  rw [handled, ← spelled, tag_alone word]

variable {directives : Directives} {name expression written : Text} {rest : Template}

/-- A block stands for what its directive answers to what its body stands for. -/
theorem translate_block {body : Template} {inner first : Text}
    (inside : body.translate directives = .ok inner)
    (answered : answer directives name (some (Text.trim expression)) (some inner) = .ok first)
    (behind : rest.translate directives = .ok written) :
    (block name expression body rest).translate directives = .ok (first ++ written) := by
  simp [translate, inside, answered, behind, Bind.bind, Except.bind, Pure.pure, Except.pure]

/-- A marker with an expression stands for what its directive answers. -/
theorem translate_single {first : Text}
    (answered : answer directives name (some (Text.trim expression)) none = .ok first)
    (behind : rest.translate directives = .ok written) :
    (single name expression rest).translate directives = .ok (first ++ written) := by
  simp [translate, answered, behind, Bind.bind, Except.bind, Pure.pure, Except.pure]

/-- A bare marker stands for what its directive answers. -/
theorem translate_bare {first : Text} (answered : answer directives name none none = .ok first)
    (behind : rest.translate directives = .ok written) :
    (bare name rest).translate directives = .ok (first ++ written) := by
  simp [translate, answered, behind, Bind.bind, Except.bind, Pure.pure, Except.pure]

/-- Text stands for itself. -/
theorem translate_text (content : Text) (behind : rest.translate directives = .ok written) :
    (text content rest).translate directives = .ok (content ++ written) := by
  simp [translate, behind, Bind.bind, Except.bind, Pure.pure, Except.pure]

end Template

namespace Piece

/-- Nothing is written for no parts. -/
theorem writeAll_nil : writeAll [] = [] := rfl

/-- The first part is written in front of the others. -/
theorem writeAll_cons (piece : Piece) (rest : List Piece) :
    writeAll (piece :: rest) = piece.write ++ writeAll rest :=
  List.flatMap_cons

/-- Parts are written one behind the other. -/
theorem writeAll_append (front back : List Piece) :
    writeAll (front ++ back) = writeAll front ++ writeAll back :=
  List.flatMap_append

end Piece

namespace Header

variable {α : Type} {read : Nat → Text → Except SyntaxError α} (header : Header read)

/-- A header is not blank. -/
theorem trim_ne_nil (grammatical : Grammatical read) : Text.trim header.source ≠ [] :=
  grammatical.ne_nil (grammatical.trim header.accepted 0)

/-- A header is balanced. -/
theorem balanced (grammatical : Grammatical read) : Balanced header.source :=
  grammatical.balanced header.accepted

end Header

/-- What a block for a condition is answered with. -/
theorem Template.answer_choice (negated : Bool) (condition : Header Expr.read) (body : Text) :
    answer builtins (if negated then "unless".toList else "if".toList)
        (some (Text.trim condition.source)) (some body) =
      .ok ((Piece.tag .ifTag (condition.conditionSource negated)).write ++ body ++
        (Piece.tag .endifTag []).write) := by
  -- A negated condition is written in parentheses behind the sign for it.
  have trimmed := Text.trim_trim condition.source
  have filled := condition.trim_ne_nil Expr.grammatical
  cases negated with
  | true => exact answer_unless trimmed filled body
  | false => exact answer_tagged trimmed filled "if" rfl .ifTag .endifTag rfl rfl body

/-- A block whose body stands for some parts is answered with these between two others. -/
theorem Template.translate_parts {name expression written : Text} {body behind : Template}
    {first last : Piece} (front back : List Piece)
    (inside : body.translate builtins = .ok (Piece.writeAll front ++ Piece.writeAll back))
    (answered : ∀ inner, answer builtins name (some (Text.trim expression)) (some inner) =
      .ok (first.write ++ inner ++ last.write))
    (after : behind.translate builtins = .ok written) :
    (block name expression body behind).translate builtins =
      .ok (Piece.writeAll (first :: (front ++ (back ++ [last]))) ++ written) := by
  have whole := translate_block inside (answered _) after
  simpa only [Piece.writeAll_cons, Piece.writeAll_append, Piece.writeAll_nil, List.append_assoc,
    List.nil_append] using whole

/-- What a template by itself stands for, it stands for in front of nothing. -/
theorem Template.translate_done : Template.done.translate builtins = .ok [] := rfl

mutual

/-- A page stands for its artifact. -/
theorem Page.translate_before (page : Page) {behind : Template} {written : Text}
    (after : behind.translate builtins = .ok written) :
    (page.before behind).translate builtins = .ok (Piece.writeAll page.pieces ++ written) := by
  -- Text stands for itself in front of the statement and the rest of the page.
  cases page with
  | done copy =>
    have whole := Template.translate_text copy.text after
    simpa only [Page.before, Page.pieces, Piece.writeAll_cons, Piece.writeAll_nil, Piece.write,
      List.append_nil] using whole
  | more copy statement rest =>
    have others := statement.translate_before (rest.translate_before after)
    have whole := Template.translate_text copy.text others
    simpa only [Page.before, Page.pieces, Piece.writeAll_cons, Piece.writeAll_append, Piece.write,
      List.append_assoc] using whole

/-- A statement stands for its part of the artifact. -/
theorem Statement.translate_before (statement : Statement) {behind : Template} {written : Text}
    (after : behind.translate builtins = .ok written) :
    (statement.before behind).translate builtins =
      .ok (Piece.writeAll statement.pieces ++ written) := by
  -- Every block encloses what its body stands for between two tags.
  cases statement with
  | choice negated condition body others =>
    have inside := body.translate_before others.translate_template
    exact Template.translate_parts body.pieces others.pieces inside
      (Template.answer_choice negated condition) after
  | foreach header body =>
    have answered := Template.answer_tagged (Text.trim_trim header.source)
      (header.trim_ne_nil ForeachHeader.grammatical) "foreach" rfl
      .foreachTag .endforeachTag rfl rfl
    have inside := body.translate_before Template.translate_done
    exact Template.translate_parts body.pieces [] inside answered after
  | range header body =>
    have answered := Template.answer_tagged (Text.trim_trim header.source)
      (header.trim_ne_nil RangeHeader.grammatical) "for" rfl .forTag .endforTag rfl rfl
    have inside := body.translate_before Template.translate_done
    exact Template.translate_parts body.pieces [] inside answered after
  | whileLoop condition body =>
    have answered := Template.answer_tagged (Text.trim_trim condition.source)
      (condition.trim_ne_nil Expr.grammatical) "while" rfl .whileTag .endwhileTag rfl rfl
    have inside := body.translate_before Template.translate_done
    exact Template.translate_parts body.pieces [] inside answered after
  | doWhileLoop condition body =>
    have answered := Template.answer_doWhile (Text.trim_trim condition.source)
      (condition.trim_ne_nil Expr.grammatical)
    have inside := body.translate_before Template.translate_done
    exact Template.translate_parts body.pieces [] inside answered after
  | switch subject lead cases =>
    have answered := Template.answer_tagged (Text.trim_trim subject.source)
      (subject.trim_ne_nil Expr.grammatical) "switch" rfl .switchTag .endswitchTag rfl rfl
    have inside := lead.translate_before cases.translate_template
    exact Template.translate_parts lead.pieces cases.pieces inside answered after
  | assign assignment =>
    have answered := Template.answer_statement (Text.trim_trim assignment.source)
      (assignment.trim_ne_nil Assignment.grammatical) "set" rfl
      .setTag rfl
    have whole := Template.translate_single answered after
    simpa only [Statement.before, Statement.pieces, Piece.writeAll_cons, Piece.writeAll_nil,
      List.append_nil] using whole
  | leave =>
    have answered := Template.answer_word "break" rfl .breakTag rfl
    have whole := Template.translate_bare answered after
    simpa only [Statement.before, Statement.pieces, Piece.writeAll_cons, Piece.writeAll_nil,
      List.append_nil] using whole

/-- The branches behind the first one stand for their part of the artifact. -/
theorem Branches.translate_template (branches : Branches) :
    branches.template.translate builtins = .ok (Piece.writeAll branches.pieces) := by
  -- Each branch is a tag in front of its body and of the other branches.
  cases branches with
  | none => rfl
  | otherwise body =>
    have inside := body.translate_before Template.translate_done
    have answered := Template.answer_word "else" rfl .elseTag rfl
    have whole := Template.translate_bare answered inside
    simpa only [Branches.template, Branches.pieces, Piece.writeAll_cons, List.append_nil]
      using whole
  | another condition body others =>
    have inside := body.translate_before others.translate_template
    have answered := Template.answer_statement (Text.trim_trim condition.source)
      (condition.trim_ne_nil Expr.grammatical) "elseif" rfl
      .elseifTag rfl
    have whole := Template.translate_single answered inside
    simpa only [Branches.template, Branches.pieces, Piece.writeAll_cons,
      Piece.writeAll_append] using whole

/-- Cases stand for their part of the artifact. -/
theorem Cases.translate_template (cases : Cases) :
    cases.template.translate builtins = .ok (Piece.writeAll cases.pieces) := by
  -- Each case is a tag in front of its body and of the other cases.
  cases cases with
  | none => rfl
  | case test body others =>
    have inside := body.translate_before others.translate_template
    have answered := Template.answer_statement (Text.trim_trim test.source)
      (test.trim_ne_nil Expr.grammatical) "case" rfl
      .caseTag rfl
    have whole := Template.translate_single answered inside
    simpa only [Cases.template, Cases.pieces, Piece.writeAll_cons, Piece.writeAll_append]
      using whole
  | default body others =>
    have inside := body.translate_before others.translate_template
    have answered := Template.answer_word "default" rfl
      .defaultTag rfl
    have whole := Template.translate_bare answered inside
    simpa only [Cases.template, Cases.pieces, Piece.writeAll_cons, Piece.writeAll_append]
      using whole

end

mutual

/-- The directives of a page are known. -/
theorem Page.known_before (page : Page) {behind : Template} (after : behind.Known builtins) :
    (page.before behind).Known builtins := by
  cases page with
  | done copy => exact ⟨copy.noMarker, after⟩
  | more copy statement rest =>
    exact ⟨copy.noMarker, statement.known_before (rest.known_before after)⟩

/-- The directive of a statement is known. -/
theorem Statement.known_before (statement : Statement) {behind : Template}
    (after : behind.Known builtins) : (statement.before behind).Known builtins := by
  -- The names are those of directives in the list, and the headers are balanced.
  cases statement with
  | choice negated condition body others =>
    have balanced := condition.balanced Expr.grammatical
    have inside := body.known_before others.known_template
    cases negated with
    | true => exact ⟨⟨rfl, List.all_eq_true.mp rfl, rfl⟩, rfl, balanced, inside, after⟩
    | false => exact ⟨⟨rfl, List.all_eq_true.mp rfl, rfl⟩, rfl, balanced, inside, after⟩
  | foreach header body =>
    exact ⟨⟨rfl, List.all_eq_true.mp rfl, rfl⟩, rfl, header.balanced ForeachHeader.grammatical,
      body.known_before trivial, after⟩
  | range header body =>
    exact ⟨⟨rfl, List.all_eq_true.mp rfl, rfl⟩, rfl, header.balanced RangeHeader.grammatical,
      body.known_before trivial, after⟩
  | whileLoop condition body =>
    exact ⟨⟨rfl, List.all_eq_true.mp rfl, rfl⟩, rfl, condition.balanced Expr.grammatical,
      body.known_before trivial, after⟩
  | doWhileLoop condition body =>
    exact ⟨⟨rfl, List.all_eq_true.mp rfl, rfl⟩, rfl, condition.balanced Expr.grammatical,
      body.known_before trivial, after⟩
  | switch subject lead cases =>
    exact ⟨⟨rfl, List.all_eq_true.mp rfl, rfl⟩, rfl, subject.balanced Expr.grammatical,
      lead.known_before cases.known_template, after⟩
  | assign assignment =>
    exact ⟨⟨rfl, List.all_eq_true.mp rfl, rfl⟩, rfl, assignment.balanced Assignment.grammatical,
      after⟩
  | leave => exact ⟨⟨rfl, List.all_eq_true.mp rfl, rfl⟩, rfl, after⟩

/-- The directives of the branches behind the first one are known. -/
theorem Branches.known_template (branches : Branches) : branches.template.Known builtins := by
  cases branches with
  | none => trivial
  | otherwise body =>
    exact ⟨⟨rfl, List.all_eq_true.mp rfl, rfl⟩, rfl, body.known_before trivial⟩
  | another condition body others =>
    exact ⟨⟨rfl, List.all_eq_true.mp rfl, rfl⟩, rfl, condition.balanced Expr.grammatical,
      body.known_before others.known_template⟩

/-- The directives of cases are known. -/
theorem Cases.known_template (cases : Cases) : cases.template.Known builtins := by
  cases cases with
  | none => trivial
  | case test body others =>
    exact ⟨⟨rfl, List.all_eq_true.mp rfl, rfl⟩, rfl, test.balanced Expr.grammatical,
      body.known_before others.known_template⟩
  | default body others =>
    exact ⟨⟨rfl, List.all_eq_true.mp rfl, rfl⟩, rfl, body.known_before others.known_template⟩

end

/-- A text without markers is compiled to itself. -/
theorem Template.pass_text (directives : Directives) {content : Text}
    (noMarker : '@' ∉ content) (maxDepth : Nat) {depth : Nat} (deep : 0 < depth) :
    directives.pass maxDepth depth content = .ok content := by
  -- A text is a template without markers, which stands for itself.
  have known : (Template.text content .done).Known directives := ⟨noMarker, trivial⟩
  have passed := pass_source maxDepth ⟨known, trivial⟩ deep
  simpa [source, translate, Bind.bind, Except.bind, Pure.pure, Except.pure] using passed

/-- A page compiled with the builtin directives is its artifact. -/
theorem Page.compile_source (page : Page) (spaced : Template.Spaced true [] page.template)
    {maxDepth : Nat} (passes : 2 ≤ maxDepth) (shallow : page.template.nesting < maxDepth) :
    builtins.compile maxDepth page.template.source = .ok (Piece.writeAll page.pieces) := by
  -- The first pass gives the artifact, and a second one finds no marker in it.
  have known : page.template.Known builtins := page.known_before trivial
  have first := Template.pass_source maxDepth ⟨known, spaced⟩ shallow
  rw [Page.template, page.translate_before Template.translate_done, List.append_nil] at first
  have second := Template.pass_text builtins page.noMarker_writeAll maxDepth
    (show 0 < maxDepth by omega)
  obtain ⟨count, rfl⟩ : ∃ n, maxDepth = n + 2 := ⟨maxDepth - 2, by omega⟩
  rw [Directives.compile, Directives.passes, Page.template, first]
  by_cases same : Piece.writeAll page.pieces = (page.before .done).source
  · simp only [if_pos same]
  · simp only [if_neg same, Directives.passes, second, if_true]

end Templates
