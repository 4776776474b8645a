import Templates.Text.Case

/-! A name splits into words, from which its spellings in other conventions are built. -/

namespace Templates.Text

/-- What the current word has shown so far: no letter, or the case of its last cased letter. -/
inductive WordMode where
  | start
  | lower
  | upper
deriving DecidableEq, Repr

/-- A run of letters and numbers breaks before a capital that follows a small letter, and before the
last of several capitals when a small letter follows it. -/
def splitRun : WordMode → Text → Text → List Text
  | _, [], [] => []
  | _, word@(_ :: _), [] => [word.reverse]
  | _, word, [c] => [(c :: word).reverse]
  | mode, word, c :: next :: rest =>
    let mode' := if isLower c then .lower else if isUpper c then .upper else mode
    if mode' = .lower && isUpper next then
      (c :: word).reverse :: splitRun .start [] (next :: rest)
    else if mode = .upper && isUpper c && isLower next then
      word.reverse :: splitRun .start [c] (next :: rest)
    else
      splitRun mode' (c :: word) (next :: rest)

/-- The runs of letters and numbers in a text, the current one given in reverse. -/
def runs : Text → Text → List Text
  | run, [] => [run.reverse]
  | run, c :: rest =>
    if isAlphanumeric c then runs (c :: run) rest else run.reverse :: runs [] rest

/-- The words of a name. -/
def words (name : Text) : List Text :=
  (runs [] name).flatMap (splitRun .start [])

/-- A word in small letters; a sigma that ends it takes its final form. -/
def lowerWord : Text → Text
  | [] => []
  | ['Σ'] => ['ς']
  | c :: rest => lowerForm c ++ lowerWord rest

/-- A word with a capital first letter and small letters after it. -/
def capitalWord : Text → Text
  | [] => []
  | c :: rest => upperForm c ++ lowerWord rest

/-- The words together, each with a capital: `user-card` is spelled `UserCard`. -/
def pascalCase (name : Text) : Text :=
  (words name).flatMap capitalWord

/-- The words in small letters with hyphens between: `UserCard` is spelled `user-card`. -/
def kebabCase (name : Text) : Text :=
  List.intercalate ['-'] ((words name).map lowerWord)

/-- The words in small letters with underscores between: `UserCard` is spelled `user_card`. -/
def snakeCase (name : Text) : Text :=
  List.intercalate ['_'] ((words name).map lowerWord)

end Templates.Text
