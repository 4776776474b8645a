import Templates.Config
import Templates.Fields
import Templates.Files
import Templates.Layout.Marker

/-!
Files take the place of the comments that include them, with their own includes resolved first. Then
blocks are taken out of a text and put where it asks for them.

A later block of a name takes the place of an earlier one, whose content it may hold on to.
-/

namespace Templates.Layout

/-- Texts take the place of what a rule has found. -/
def spliceAll {α : Type} (splice : α → Except Error Text) :
    List (Text.Piece α) → Except Error Text
  | [] => .ok []
  | .plain c :: rest => (spliceAll splice rest).map (c :: ·)
  | .hit value :: rest =>
    match splice value with
    | .error e => .error e
    | .ok text => (spliceAll splice rest).map (text ++ ·)

/-- A source with its includes resolved. The chain names the files on the way to it, which it may
not include again, and the first argument bounds how much longer the chain may grow. -/
def expandIncludes (files : Files) (config : Config) :
    Nat → List Text → Text → Except Error Text
  | 0, _, _ => .error (.tooDeep .includes config.maxDepth)
  | depth + 1, chain, source =>
    spliceAll (fun target =>
        let path := config.viewPath target
        if chain.contains path then .error (.includeLoop (chain ++ [path]))
        else
          match files.read path with
          | .ok text => expandIncludes files config depth (chain ++ [path]) text
          | .error .missing => .error (.layoutMissing path)
          | .error .storage => .error .storage)
      (Text.scan includeRule source)

/-- The content of blocks by their names. -/
abbrev Blocks := Fields Text

/-- The content a block of a name has, which is empty before the first one. -/
def content (name : Text) (blocks : Blocks) : Text :=
  (blocks.get? name).getD []

/-- The body of a block with what it says about the content before it resolved. -/
def withParent (previous body : Text) : Text :=
  Text.replaceHits (fun () => previous) (Text.scan parentRule body)

/-- A text without its blocks, and the content of all blocks together with some from before. -/
def extract : Blocks → List (Text.Piece (Text × Text)) → Text × Blocks
  | blocks, [] => ([], blocks)
  | blocks, .plain c :: rest =>
    let (text, blocks) := extract blocks rest
    (c :: text, blocks)
  | blocks, .hit (name, body) :: rest =>
    extract (blocks.insert name (withParent (content name blocks) body)) rest

/-- A text with blocks where it asks for them. -/
def fill (blocks : Blocks) (text : Text) : Text :=
  Text.replaceHits (fun name => content name blocks) (Text.scan yieldRule text)

/-- A text with its own blocks where it asks for them. -/
def resolveBlocks (text : Text) : Text :=
  let (text, blocks) := extract [] (Text.scan blockRule text)
  fill blocks text

/-- A source with its includes and blocks resolved; the origin names it in a chain of includes. -/
def resolve (files : Files) (config : Config) (source origin : Text) : Except Error Text :=
  (expandIncludes files config config.maxDepth [origin] source).map resolveBlocks

end Templates.Layout
