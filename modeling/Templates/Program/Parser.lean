import Templates.Expr.Basic
import Templates.Expr.Header
import Templates.Program.Tag

/-!
Programs, which are what the statement tags of an artifact say.

They are read from segments with a stack of open blocks: each segment adds a statement to the
innermost block, opens a block in it, or goes on with it or closes it.
-/

namespace Templates

/-- A statement, or text to be written as it is. -/
inductive Node where
  | text (content : Text)
  | echo (value : Expr) (escaped : Bool)
  | choice (branches : List (Expr × List Node)) (otherwise : List Node)
  | foreach (iterable : Expr) (key : Option Text) (item : Text) (body : List Node)
  | range (counter : Text) (start stop : Expr) (inclusive : Bool) (body : List Node)
  | whileLoop (condition : Expr) (body : List Node)
  | doWhileLoop (body : List Node) (condition : Expr)
  | switch (subject : Expr) (cases : List (Option Expr × List Node))
  | assign (name : Text) (value : Expr)
  | leave
deriving Repr, Inhabited

/-- A program is a list of statements. -/
abbrev Program := List Node

/-- Reasons why an artifact is no program. -/
inductive ProgramError where
  | tags (error : TagError)
  | malformed (error : SyntaxError)
  | unclosed (keyword : Text) (position : Nat)
deriving DecidableEq, Repr

/-- The first words of statement tags. -/
inductive TagWord where
  | ifTag
  | elseifTag
  | elseTag
  | endifTag
  | foreachTag
  | endforeachTag
  | forTag
  | endforTag
  | whileTag
  | endwhileTag
  | doTag
  | dowhileTag
  | switchTag
  | caseTag
  | defaultTag
  | endswitchTag
  | setTag
  | breakTag
deriving DecidableEq, Repr

namespace TagWord

/-- All first words. -/
def all : List TagWord :=
  [.ifTag, .elseifTag, .elseTag, .endifTag, .foreachTag, .endforeachTag, .forTag, .endforTag,
    .whileTag, .endwhileTag, .doTag, .dowhileTag, .switchTag, .caseTag, .defaultTag, .endswitchTag,
    .setTag, .breakTag]

/-- How a first word is written. -/
def text : TagWord → Text
  | .ifTag => "if"
  | .elseifTag => "elseif"
  | .elseTag => "else"
  | .endifTag => "endif"
  | .foreachTag => "foreach"
  | .endforeachTag => "endforeach"
  | .forTag => "for"
  | .endforTag => "endfor"
  | .whileTag => "while"
  | .endwhileTag => "endwhile"
  | .doTag => "do"
  | .dowhileTag => "dowhile"
  | .switchTag => "switch"
  | .caseTag => "case"
  | .defaultTag => "default"
  | .endswitchTag => "endswitch"
  | .setTag => "set"
  | .breakTag => "break"

/-- The first word with a given spelling. -/
def ofText? (text : Text) : Option TagWord :=
  all.find? (·.text = text)

end TagWord

/-- What an open block is, with the offset of the tag that opened it and all that has been read of
the block but for the statements of its current body. -/
inductive Opening where
  | page
  | branch (position : Nat) (done : List (Expr × List Node)) (condition : Expr)
  | otherwise (position : Nat) (branches : List (Expr × List Node))
  | foreach (position : Nat) (header : ForeachHeader)
  | range (position : Nat) (header : RangeHeader)
  | whileLoop (position : Nat) (condition : Expr)
  | doWhileLoop (position : Nat)
  | switch (position : Nat) (subject : Expr)
  | case (position : Nat) (subject : Expr) (done : List (Option Expr × List Node))
      (test : Option Expr)
deriving Repr

/-- An open block with the statements of its current body, the last one first. -/
structure Frame where
  opening : Opening
  body : List Node
deriving Repr

/-- The blocks open at a place in an artifact: the innermost one, and those around it. -/
structure Builder where
  top : Frame
  outer : List Frame
deriving Repr

namespace Builder

/-- Nothing is open but the page. -/
def start : Builder :=
  ⟨⟨.page, []⟩, []⟩

/-- A statement joins the innermost body. -/
def add (node : Node) (builder : Builder) : Builder :=
  { builder with top := { builder.top with body := node :: builder.top.body } }

/-- A block opens inside the innermost one. -/
def enter (opening : Opening) (builder : Builder) : Builder :=
  ⟨⟨opening, []⟩, builder.top :: builder.outer⟩

/-- The innermost block starts another body. -/
def resume (opening : Opening) (builder : Builder) : Builder :=
  { builder with top := ⟨opening, []⟩ }

/-- The innermost block closes and becomes a statement of the one around it. -/
def leave (node : Node) (builder : Builder) : Builder :=
  match builder.outer with
  | [] => builder
  | frame :: outer => add node ⟨frame, outer⟩

/-- A text is read as part of a program. -/
def reading {α : Type} (result : Except SyntaxError α) : Except ProgramError α :=
  result.mapError .malformed

/-- A tag that opens a block or is a statement by itself. -/
def opens (builder : Builder) (tag : Tag) (word : Option TagWord) : Except ProgramError Builder :=
  match word with
  | some .ifTag => do
    let condition ← reading (Expr.read tag.restPosition tag.rest)
    return builder.enter (.branch tag.position [] condition)
  | some .foreachTag => do
    let header ← reading (ForeachHeader.read tag.restPosition tag.rest)
    return builder.enter (.foreach tag.position header)
  | some .forTag => do
    let header ← reading (RangeHeader.read tag.restPosition tag.rest)
    return builder.enter (.range tag.position header)
  | some .whileTag => do
    let condition ← reading (Expr.read tag.restPosition tag.rest)
    return builder.enter (.whileLoop tag.position condition)
  | some .doTag => return builder.enter (.doWhileLoop tag.position)
  | some .switchTag => do
    let subject ← reading (Expr.read tag.restPosition tag.rest)
    return builder.enter (.switch tag.position subject)
  | some .setTag => do
    let assignment ← reading (Assignment.read tag.restPosition tag.rest)
    return builder.add (.assign assignment.name assignment.value)
  | some .breakTag => return builder.add .leave
  | _ => .error (.malformed ⟨tag.position, .unexpectedTag tag.keyword⟩)

/-- A tag goes on with the innermost block or closes it where it may, and else opens another. -/
def statement (builder : Builder) (tag : Tag) : Except ProgramError Builder :=
  let body := builder.top.body.reverse
  let word := TagWord.ofText? tag.keyword
  match builder.top.opening, word with
  | .branch position done condition, some .elseifTag => do
    let next ← reading (Expr.read tag.restPosition tag.rest)
    return builder.resume (.branch position (done ++ [(condition, body)]) next)
  | .branch position done condition, some .elseTag =>
    return builder.resume (.otherwise position (done ++ [(condition, body)]))
  | .branch _ done condition, some .endifTag =>
    return builder.leave (.choice (done ++ [(condition, body)]) [])
  | .otherwise _ branches, some .endifTag => return builder.leave (.choice branches body)
  | .foreach _ header, some .endforeachTag =>
    return builder.leave (.foreach header.iterable header.key header.item body)
  | .range _ header, some .endforTag =>
    return builder.leave
      (.range header.counter header.start header.stop header.inclusive body)
  | .whileLoop _ condition, some .endwhileTag => return builder.leave (.whileLoop condition body)
  | .doWhileLoop _, some .dowhileTag => do
    let condition ← reading (Expr.read tag.restPosition tag.rest)
    return builder.leave (.doWhileLoop body condition)
  -- What stands in front of the first case of a switch is read and dropped.
  | .switch position subject, some .caseTag => do
    let test ← reading (Expr.read tag.restPosition tag.rest)
    return builder.resume (.case position subject [] (some test))
  | .switch position subject, some .defaultTag =>
    return builder.resume (.case position subject [] none)
  | .switch _ subject, some .endswitchTag => return builder.leave (.switch subject [])
  | .case position subject done test, some .caseTag => do
    let next ← reading (Expr.read tag.restPosition tag.rest)
    return builder.resume (.case position subject (done ++ [(test, body)]) (some next))
  | .case position subject done test, some .defaultTag =>
    return builder.resume (.case position subject (done ++ [(test, body)]) none)
  | .case _ subject done test, some .endswitchTag =>
    return builder.leave (.switch subject (done ++ [(test, body)]))
  | _, _ => builder.opens tag word

/-- One segment further. -/
def step (builder : Builder) : Segment → Except ProgramError Builder
  | .text content => return builder.add (.text content)
  | .echo source position escaped => do
    let value ← reading (Expr.read position source)
    return builder.add (.echo value escaped)
  | .statement tag => builder.statement tag

/-- The program, if no block is open. -/
def finish (builder : Builder) : Except ProgramError Program :=
  match builder.top.opening with
  | .page => .ok builder.top.body.reverse
  | .branch position _ _ => .error (.unclosed "if" position)
  | .otherwise position _ => .error (.unclosed "if" position)
  | .foreach position _ => .error (.unclosed "foreach" position)
  | .range position _ => .error (.unclosed "for" position)
  | .whileLoop position _ => .error (.unclosed "while" position)
  | .doWhileLoop position => .error (.unclosed "do" position)
  | .switch position _ => .error (.unclosed "switch" position)
  | .case position _ _ _ => .error (.unclosed "switch" position)

/-- Segments are taken one after the other. -/
def run (builder : Builder) : List Segment → Except ProgramError Builder
  | [] => .ok builder
  | segment :: rest =>
    match builder.step segment with
    | .ok next => next.run rest
    | .error error => .error error

end Builder

/-- The program an artifact holds. -/
def Program.read (artifact : Text) : Except ProgramError Program := do
  let segments ← (segments artifact).mapError .tags
  (← Builder.start.run segments).finish

/-- The wording of an error. -/
def ProgramError.message : ProgramError → Text
  | .tags (.unterminated position) =>
    "Unterminated tag starting at ".toList ++ Text.decimal position
  | .tags .cutCharacter => "A tag is cut inside a character"
  | .malformed error => error.message
  | .unclosed keyword position =>
    "Block `".toList ++ keyword ++ "` opened at ".toList ++ Text.decimal position ++
      " is never closed".toList

end Templates
