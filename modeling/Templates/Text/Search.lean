import Templates.Text.Basic

/-! Searching a text from the left for a fixed text or for the first place a rule applies. -/

namespace Templates.Text

/-- The parts of a text before and after the first occurrence of a needle. -/
def cut? (needle : Text) : Text → Option (Text × Text)
  | [] => if needle.isEmpty then some ([], []) else none
  | c :: rest =>
    match strip? needle (c :: rest) with
    | some after => some ([], after)
    | none => (cut? needle rest).map fun (front, after) => (c :: front, after)

/-- A text contains a needle when it can be cut there. -/
def contains (needle text : Text) : Bool :=
  (cut? needle text).isSome

/-- Occurrences found from the left, without overlap, give way to a replacement. -/
def replaceFrom (needle new : Text) : Nat → Text → Text
  | _, [] => []
  | skip + 1, _ :: rest => replaceFrom needle new skip rest
  | 0, c :: rest =>
    if startsWith needle (c :: rest) then
      new ++ replaceFrom needle new (needle.length - 1) rest
    else
      c :: replaceFrom needle new 0 rest

/-- Every occurrence of a non-empty needle is replaced. -/
def replace (needle new text : Text) : Text :=
  replaceFrom needle new 0 text

/-- One step of a scan: a character no rule applies to, or what a rule has read. -/
inductive Piece (α : Type) where
  | plain (c : Char)
  | hit (value : α)
deriving DecidableEq, Repr

/-- A rule reads a value off the front of a text and leaves a shorter rest. -/
abbrev Rule (α : Type) := Text → Option (α × Text)

/-- A rule is tried at each position from the left; after a hit the scan goes on behind it. -/
def scanFrom {α : Type} (rule : Rule α) : Nat → Text → List (Piece α)
  | _, [] => []
  | skip + 1, _ :: rest => scanFrom rule skip rest
  | 0, c :: rest =>
    match rule (c :: rest) with
    | some (value, after) => .hit value :: scanFrom rule (rest.length - after.length) rest
    | none => .plain c :: scanFrom rule 0 rest

/-- All hits of a rule in a text, in order, with the characters between them. -/
def scan {α : Type} (rule : Rule α) (text : Text) : List (Piece α) :=
  scanFrom rule 0 text

/-- The values a scan has found. -/
def hits {α : Type} : List (Piece α) → List α
  | [] => []
  | .plain _ :: pieces => hits pieces
  | .hit value :: pieces => value :: hits pieces

/-- Hits are written by a function and all other characters stand for themselves. -/
def replaceHits {α : Type} (write : α → Text) (pieces : List (Piece α)) : Text :=
  pieces.flatMap fun
    | .plain c => [c]
    | .hit value => write value

end Templates.Text
