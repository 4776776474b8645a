import Templates.Markup.Token
import Templates.Program.Render

/-! Everything that can go wrong between a template source and its page. -/

namespace Templates

/-- What a bound on depth was exceeded by. -/
inductive Depth where
  | directivePasses
  | directiveNesting
  | includes
  | expansion
  | components
deriving DecidableEq, Repr

/-- Arguments that may not be blank. -/
inductive BlankArgument where
  | directiveName
  | componentTag
  | componentPrefix
deriving DecidableEq, Repr

/-- What may help with a component that is missing. -/
inductive Hint where
  | similar (tag : Text)
  | lookedUpIn (directory : Text)
deriving DecidableEq, Repr

/-- What is wrong with a configuration. -/
inductive ConfigFault where
  | blankPrefix
  | zeroDepth
  | unreadable
deriving DecidableEq, Repr

/-- Causes of failure. -/
inductive Error where
  | viewMissing (view : Text)
  | layoutMissing (path : Text)
  | componentMissing (tag : Text) (hints : List Hint)
  | directiveTaken (name : Text)
  | componentTaken (tag : Text)
  | directiveUnknown (name : Text)
  | blankArgument (argument : BlankArgument)
  | artifactMissing (key : Text)
  | componentLoop (tag : Text) (stack : List Text)
  | includeLoop (chain : List Text)
  | tooDeep (what : Depth) (limit : Nat)
  | directiveFailed (name message : Text)
  | render (error : RenderError)
  | markup (error : Markup.MarkupError)
  | config (fault : ConfigFault)
  | storage
deriving DecidableEq, Repr

namespace Depth

/-- The wording of what exceeded a bound. -/
def text : Depth → Text
  | .directivePasses => "Directive compilation"
  | .directiveNesting => "Directive nesting"
  | .includes => "Include nesting"
  | .expansion => "Component expansion"
  | .components => "Component nesting"

end Depth

/-- The wording of a complaint about an argument. -/
def BlankArgument.message : BlankArgument → Text
  | .directiveName => "Directive name can't be empty"
  | .componentTag => "Component tag can't be empty"
  | .componentPrefix => "Component prefix can't be empty"

/-- The wording of a hint. -/
def Hint.message : Hint → Text
  | .similar tag =>
    "Did you register this component or do you mean `".toList ++ tag ++ "`?".toList
  | .lookedUpIn directory =>
    "Autoloaded components are looked up in `".toList ++ directory ++ "`.".toList

/-- The wording of a complaint about a configuration; the reader of the file words its own. -/
def ConfigFault.message? : ConfigFault → Option Text
  | .blankPrefix => some "componentPrefix can't be empty".toList
  | .zeroDepth => some "maxDepth must be at least 1".toList
  | .unreadable => none

/-- Names in the order in which they lead to each other. -/
def arrows (names : List Text) : Text :=
  List.intercalate " → ".toList names

namespace Error

/-- The wording of an error, where it has one of its own. -/
def message? : Error → Option Text
  | .viewMissing view => some ("View `".toList ++ view ++ "` is not found".toList)
  | .layoutMissing path => some ("Extended view `".toList ++ path ++ "` is not found".toList)
  | .componentMissing tag hints =>
    some ("Component `".toList ++ tag ++ "` is not found.".toList ++
      hints.flatMap fun hint => ' ' :: hint.message)
  | .directiveTaken name => some ("`".toList ++ name ++ "` directive is already registered".toList)
  | .componentTaken tag => some ("`".toList ++ tag ++ "` component is already registered".toList)
  | .directiveUnknown name => some ("Directive `".toList ++ name ++ "` is not registered".toList)
  | .blankArgument argument => some ("Invalid argument: ".toList ++ argument.message)
  | .artifactMissing key => some ("No compiled artifact for key `".toList ++ key ++ "`".toList)
  | .componentLoop tag stack =>
    some ("Recursive component detected: ".toList ++ tag ++ "\nCall stack: ".toList ++ arrows stack)
  | .includeLoop chain => some ("Circular include: ".toList ++ arrows chain)
  | .tooDeep what limit =>
    some (what.text ++ " exceeded the maximum depth of ".toList ++ Text.decimal limit)
  | .directiveFailed name message =>
    some ("Directive `".toList ++ name ++ "` failed: ".toList ++ message)
  | .render error => some ("Render error: ".toList ++ error.message)
  | .config fault => fault.message?.map ("Configuration error: ".toList ++ ·)
  | .markup _ => none
  | .storage => none

/-- Errors that a fallback page may stand in for. -/
def isViewMissing : Error → Bool
  | .viewMissing _ => true
  | _ => false

end Error

end Templates
