import Compendium.Build.Error

/-! What a command leaves behind: changed files, lines of output, and why it failed if it did. -/

set_option autoImplicit false
namespace Compendium

inductive CommandError where
  | build (cause : BuildError)
  | resource (cause : ResourceError)
  | file (cause : FileError)
  | json
  | unknownScript (key : String) (scripts : Path)
  | failedJobs (failed total : Nat)
  deriving DecidableEq, Repr

def CommandError.message : CommandError → String
  | .build cause => cause.message
  | .resource cause => cause.message
  | .file cause => cause.message
  | .json => "the text is no document"
  | .unknownScript key scripts => "No script named '" ++ key ++ "' in " ++ scripts.text
  | .failedJobs failed total => toString failed ++ " of " ++ toString total ++ " jobs failed"

inductive OutputLine where
  | text (content : String)
  /-- Tells how long the command took. -/
  | elapsed
  deriving DecidableEq, Repr

def OutputLine.content (duration : String) : OutputLine → String
  | .text content => content
  | .elapsed => "✨  Done in " ++ duration

structure Outcome where
  tree : FileTree
  lines : List OutputLine
  result : Except CommandError Unit
  deriving Repr

namespace Outcome

def success (tree : FileTree) (lines : List String) : Outcome :=
  ⟨tree, lines.map .text, .ok ()⟩

def failure (tree : FileTree) (error : CommandError) : Outcome :=
  ⟨tree, [], .error error⟩

/-- The whole output, each line with its end. -/
def output (outcome : Outcome) (duration : String) : String :=
  Text.join "" (outcome.lines.map fun line => line.content duration ++ "\n")

end Outcome
end Compendium
