import Compendium.Catalog.Script
import Compendium.Resource

/-! Why a build, or one of its jobs, fails. -/

set_option autoImplicit false
namespace Compendium

inductive BuildError where
  | resource (cause : ResourceError)
  | file (cause : FileError)
  | json
  | manifest
  | missingSource (path : Path)
  | layout (cause : LayoutError)
  | unknownJob (name : String)
  deriving DecidableEq, Repr

def BuildError.message : BuildError → String
  | .resource cause => "DotaLex error: " ++ cause.message
  | .file cause => "IO error: " ++ cause.message
  | .json => "JSON serialization error: the text is no document"
  | .manifest => "Manifest error: the text is no manifest"
  | .missingSource path => "Missing source document: " ++ path.text
  | .layout cause => cause.message
  | .unknownJob name => "Unknown job: " ++ name

end Compendium
