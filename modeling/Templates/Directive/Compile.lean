import Templates.Directive.Basic
import Templates.Directive.Marker

/-!
Directives are applied in passes until a pass changes nothing.

A pass pairs openers with closers from the inside out and replaces the outermost pairs, whose bodies
are compiled first as texts of their own, and the other markers outside of all pairs.
-/

namespace Templates.Directives

/-- Openers seen so far, the innermost one first, and the outermost pairs closed so far, the last
one first. Markers are known by their places among all markers. -/
structure Pairing where
  opened : List (Nat × Text)
  pairs : List (Nat × Nat)
deriving DecidableEq, Repr

/-- A marker opens a block when it has an expression, a blank or nothing in front of it, and the
name of a block directive. -/
def opensBlock (directives : Directives) (marker : Marker) : Bool :=
  marker.expression.isSome && marker.leading && (directives.ofKind? marker.name .block).isSome

/-- One marker further. A closer takes the innermost opener of its name and drops the openers inside
that one, and a pair takes the place of the pairs inside it. -/
def Pairing.step (directives : Directives) (pairing : Pairing) (place : Nat) (marker : Marker) :
    Pairing :=
  match marker.closes? with
  | some target =>
    match pairing.opened.dropWhile fun (_, name) => name ≠ target with
    | (start, _) :: outer =>
      ⟨outer, (start, place) :: pairing.pairs.dropWhile fun (inner, _) => start < inner⟩
    | [] => pairing
  | none =>
    if opensBlock directives marker then
      { pairing with opened := (place, marker.name) :: pairing.opened }
    else pairing

/-- Markers are paired one after the other. -/
def Pairing.run (directives : Directives) : Nat → Pairing → List Mark → Pairing
  | _, pairing, [] => pairing
  | place, pairing, .plain _ :: rest => run directives place pairing rest
  | place, pairing, .marker m :: rest =>
    run directives (place + 1) (pairing.step directives place m) rest

/-- The outermost pairs of openers and closers, in order. -/
def outermostPairs (directives : Directives) (marks : List Mark) : List (Nat × Nat) :=
  (Pairing.run directives 0 ⟨[], []⟩ marks).pairs.reverse

/-- A part of a source and what becomes of it: it stays, or a directive replaces it. -/
inductive Edit where
  | keep (text : Text)
  | single (marker : Marker)
  | block (opener : Marker) (body : Text) (closer : Marker)
deriving DecidableEq, Repr

/-- What a part stands for in the source. -/
def Edit.source : Edit → Text
  | .keep text => text
  | .single marker => marker.raw
  | .block opener body closer => opener.raw ++ body ++ closer.raw

/-- Whether a marker outside of all pairs is replaced: it stands between blanks, and the directive
of its name is for markers like it. -/
def isReplaced (directives : Directives) (marker : Marker) : Bool :=
  marker.leading && marker.trailing &&
    (directives.ofKind? marker.name
      (if marker.expression.isSome then .single else .bare)).isSome

/-- The part that a marker outside of all pairs is. -/
def alone (directives : Directives) (marker : Marker) : Edit :=
  if isReplaced directives marker then .single marker else .keep marker.raw

/-- The parts of a source. A block that has been entered is given with the place of its closer and
the marks of its body in reverse. -/
def edits (directives : Directives) :
    Nat → List (Nat × Nat) → Option (Marker × Nat × List Mark) → List Mark → List Edit
  | _, _, none, [] => []
  | _, _, some (opener, _, body), [] => [.keep (opener.raw ++ Mark.text body.reverse)]
  | place, pairs, none, .plain c :: rest => .keep [c] :: edits directives place pairs none rest
  | place, pairs, some (opener, close, body), .plain c :: rest =>
    edits directives place pairs (some (opener, close, .plain c :: body)) rest
  | place, pairs, some (opener, close, body), .marker m :: rest =>
    if place = close then
      .block opener (Mark.text body.reverse) m :: edits directives (place + 1) pairs none rest
    else edits directives (place + 1) pairs (some (opener, close, .marker m :: body)) rest
  | place, (start, close) :: pairs, none, .marker m :: rest =>
    if place = start then edits directives (place + 1) pairs (some (m, close, [])) rest
    else alone directives m :: edits directives (place + 1) ((start, close) :: pairs) none rest
  | place, [], none, .marker m :: rest =>
    alone directives m :: edits directives (place + 1) [] none rest

/-- The parts of a source in one pass. -/
def plan (directives : Directives) (source : Text) : List Edit :=
  let marks := Mark.scan source
  edits directives 0 (outermostPairs directives marks) none marks

/-- Parts are replaced in order, and what they become is put together. -/
def applyAll (apply : Edit → Except Error Text) : List Edit → Except Error Text
  | [] => .ok []
  | edit :: rest =>
    match apply edit with
    | .error e => .error e
    | .ok text =>
      match applyAll apply rest with
      | .error e => .error e
      | .ok others => .ok (text ++ others)

/-- The replacement of a part, given how bodies are compiled. -/
def applyEdit (directives : Directives) (inner : Text → Except Error Text) :
    Edit → Except Error Text
  | .keep text => .ok text
  | .single marker =>
    match directives.find marker.name with
    | .error e => .error e
    | .ok directive => directive.apply marker.expression none
  | .block opener body _ =>
    match inner body with
    | .error e => .error e
    | .ok body =>
      match directives.find opener.name with
      | .error e => .error e
      | .ok directive => directive.apply opener.expression (some body)

/-- One pass over a source, whose blocks may nest less deep than the first number says. -/
def pass (directives : Directives) (maxDepth : Nat) : Nat → Text → Except Error Text
  | 0, _ => .error (.tooDeep .directiveNesting maxDepth)
  | depth + 1, source =>
    applyAll (applyEdit directives (pass directives maxDepth depth)) (plan directives source)

/-- Passes until one changes nothing, at most as many as the first number says. -/
def passes (directives : Directives) (maxDepth : Nat) : Nat → Text → Except Error Text
  | 0, _ => .error (.tooDeep .directivePasses maxDepth)
  | count + 1, source =>
    match pass directives maxDepth maxDepth source with
    | .error e => .error e
    | .ok next => if next = source then .ok next else passes directives maxDepth count next

/-- A source with every directive applied. -/
def compile (directives : Directives) (maxDepth : Nat) (source : Text) : Except Error Text :=
  passes directives maxDepth maxDepth source

end Templates.Directives
