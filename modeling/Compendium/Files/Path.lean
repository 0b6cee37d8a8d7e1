import Compendium.Text.Occurrence
import Compendium.Text.LetterCase

/-! File paths as they are written: segments between slashes. Empty segments and single dots stand for nothing,
except that a single dot at the start of a relative path counts as a segment of its own. -/

set_option autoImplicit false
namespace Compendium

structure Path where
  text : String
  deriving DecidableEq, Repr

namespace Path

def isAbsolute (path : Path) : Bool :=
  path.text.toList.head? == some '/'

/-- The segments between slashes; those of an absolute path start after its first slash. -/
def segments (path : Path) : List String :=
  let all := Text.splitOn path.text "/"
  if path.isAbsolute then all.drop 1 else all

def ofSegments (absolute : Bool) (segments : List String) : Path :=
  ⟨(if absolute then "/" else "") ++ Text.join "/" segments⟩

/-- Puts `path` below `base`. An absolute path stays what it is. -/
def below (base path : Path) : Path :=
  if path.isAbsolute then path
  else if base.text = "" ∨ base.text.toList.getLast? = some '/' then ⟨base.text ++ path.text⟩
  else ⟨base.text ++ "/" ++ path.text⟩

def child (base : Path) (name : String) : Path :=
  base.below ⟨name⟩

/-- Drops segments that stand for nothing from the end; the list is given in reverse. -/
def dropIdle (absolute : Bool) : List String → List String
  | [] => []
  | segment :: rest =>
    if segment = "" ∨ (segment = "." ∧ (absolute = true ∨ rest ≠ [])) then dropIdle absolute rest
    else segment :: rest

def meaningfulReversed (path : Path) : List String :=
  dropIdle path.isAbsolute path.segments.reverse

/-- The path without its last segment; a root and the empty path have none. -/
def parent? (path : Path) : Option Path :=
  match path.meaningfulReversed with
  | [] => none
  | _ :: rest => some (ofSegments path.isAbsolute (dropIdle path.isAbsolute rest).reverse)

def fileName? (path : Path) : Option String :=
  match path.meaningfulReversed with
  | [] => none
  | name :: _ => if name = ".." ∨ name = "." then none else some name

/-- What follows the last point of the file name, unless that point is its first character. -/
def extension? (path : Path) : Option String :=
  path.fileName?.bind fun name =>
    let letters := name.toList.reverse
    let after := letters.takeWhile (· ≠ '.')
    match letters.dropWhile (· ≠ '.') with
    | _ :: _ :: _ => some (String.ofList after.reverse)
    | _ => none

/-- Whether the extension is `json` in any letter case. -/
def isJson (path : Path) : Bool :=
  path.extension?.any fun ending => Text.eqIgnoringAsciiCase ending.toList ['j', 's', 'o', 'n']

end Path
end Compendium
