import Compendium.Build.Stage
import Compendium.Command.Basic
import Compendium.Command.Outcome

/-! The command that converts between block texts and JSON. -/

set_option autoImplicit false
namespace Compendium.ConvertRequest

/-- A JSON file becomes a block text, any other file becomes JSON. -/
def convert (request : ConvertRequest) (text : String) : Except CommandError String :=
  if request.source.isJson then
    match Json.read? text with
    | some document => (Resource.toBlockText true document).mapError .resource
    | none => .error .json
  else
    let document := if request.rooted then Resource.ofRootedText text else Resource.ofBlockText text
    (document.map Json.pretty).mapError .resource

/-- Writes a file after creating its directory. -/
def writeFile (tree : FileTree) (path : Path) (text : String) : FileTree × Except FileError Unit :=
  match Stage.makeParent tree path with
  | (grown, .error error) => (grown, .error error)
  | (grown, .ok ()) =>
    match grown.writeText path text with
    | .ok written => (written, .ok ())
    | .error error => (grown, .error error)

def store (request : ConvertRequest) (tree : FileTree) (destination : Path) (text : String) : Outcome :=
  match writeFile tree destination text with
  | (final, .ok ()) =>
    Outcome.success final ["Converted " ++ request.source.text ++ " -> " ++ destination.text]
  | (final, .error error) => Outcome.failure final (.file error)

def run (request : ConvertRequest) (tree : FileTree) : Outcome :=
  let converted : Except CommandError String := do
    request.convert (← (tree.readText request.source).mapError .file)
  match converted, request.destination with
  | .error error, _ => Outcome.failure tree error
  | .ok text, none => Outcome.success tree [text]
  | .ok text, some destination => request.store tree destination text

end Compendium.ConvertRequest
