import Compendium.Build.Source
import Compendium.Catalog.Script
import Compendium.Command.Basic
import Compendium.Command.Outcome
import Compendium.Tooltip.AttributeRow
import Compendium.Tooltip.Resolver

/-! The command that shows the tooltip of one ability or item. -/

set_option autoImplicit false
namespace Compendium.InspectRequest

/-- The script of a key in a script document. -/
def script? (document : Document) (key : String) : Option Document :=
  (document.member? "DOTAAbilities").bind fun block => block.member? key

/-- The description as the tooltip shows it. That of an item keeps its markup until its lines are sorted. -/
def describe (request : InspectRequest) (strings : StringTable) (script : Document) : Report (Option Resolved) :=
  let table := if request.isItem then strings else strings.stripMarkup
  let template := table.get? (StringTable.tooltipStart ++ request.key ++ "_Description")
  (Resolver.create (Script.attributes script) script request.key).resolve template request.isItem

def tooltip (request : InspectRequest) (strings : StringTable) (script : Document) : Document :=
  let start := StringTable.tooltipStart ++ request.key
  let shown := strings.stripMarkup
  let rows := AttributeRow.ofAttributes (Script.attributes script) shown (start ++ "_")
  .table [
    ("dname", Document.ofOption .text (shown.get? start)),
    ("desc", Document.ofOption Resolved.toDocument (request.describe strings script).value),
    ("attrib", .list (rows.map AttributeRow.toDocument))]

def render (request : InspectRequest) (tree : FileTree) (order : StringTable.TokenOrder) :
    Except CommandError String := do
  let strings ← (Source.strings tree request.strings order).mapError .build
  let document ← (Source.document tree request.scripts).mapError .build
  match script? document request.key with
  | some script => return Json.pretty (request.tooltip strings script)
  | none => .error (.unknownScript request.key request.scripts)

def run (request : InspectRequest) (tree : FileTree) (order : StringTable.TokenOrder) : Outcome :=
  match request.render tree order with
  | .ok text => Outcome.success tree [text]
  | .error error => Outcome.failure tree error

end Compendium.InspectRequest
