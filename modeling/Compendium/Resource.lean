import Compendium.Files.Tree
import Compendium.Json.Reader
import Compendium.KeyValues.Printer
import Compendium.KeyValues.Root

/-! Resource files: block texts and JSON, read from a file tree. -/

set_option autoImplicit false
namespace Compendium

inductive ResourceError where
  | file (cause : FileError)
  | fault (cause : KeyValues.Fault)
  | missingRoot
  | unsupported (value : KeyValues.Unsupported)
  | missingTokens
  | json
  deriving DecidableEq, Repr

def ResourceError.message : ResourceError → String
  | .file cause => "IO error: " ++ cause.message
  | .fault cause => cause.message
  | .missingRoot => "VDF document has no root block"
  | .unsupported value => "cannot write " ++ value.kind ++ " as VDF at '" ++ value.path ++ "'"
  | .missingTokens => "localization resource has no token table"
  | .json => "JSON error: the text is no document"

namespace Resource

def entriesOfText (text : String) : Except ResourceError KeyValues.Entries :=
  (KeyValues.read text).mapError .fault

/-- A block text as a document. -/
def ofBlockText (text : String) : Except ResourceError Document := do
  let entries ← entriesOfText text
  return (KeyValues.Node.block entries).toDocument

/-- The root of a block text as a document. -/
def ofRootedText (text : String) : Except ResourceError Document := do
  let entries ← entriesOfText text
  match KeyValues.root? entries with
  | some root => return (KeyValues.Node.block root).toDocument
  | none => .error .missingRoot

def ofJsonText (text : String) : Except ResourceError Document :=
  match Json.read? text with
  | some document => .ok document
  | none => .error .json

/-- A document as a block text. -/
def toBlockText (tabs : Bool) (document : Document) : Except ResourceError String :=
  (KeyValues.writeDocument tabs document).mapError .unsupported

def textOf (tree : FileTree) (path : Path) : Except ResourceError String :=
  (tree.readText path).mapError .file

/-- A file read as a block text. -/
def readBlocks (tree : FileTree) (path : Path) : Except ResourceError Document := do
  ofBlockText (← textOf tree path)

end Resource
end Compendium
