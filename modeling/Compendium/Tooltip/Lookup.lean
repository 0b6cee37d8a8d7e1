import Compendium.Text.LetterCase
import Compendium.Tooltip.Attribute
import Compendium.Tooltip.Markup
import Compendium.Tooltip.Template

/-! Looking a value up in a script by a name in any letter case. Most values stand in the value table, older scripts
keep them in special records, and a few are members of the script itself. -/

set_option autoImplicit false
namespace Compendium.Lookup

def valueTable : String := "AbilityValues"

def specialTable : String := "AbilitySpecial"

/-- The first member whose name is the key in some letter case. -/
def memberLike? (members : Members Document) (key : String) : Option (String × Document) :=
  let wanted := Text.lower key
  members.find? fun entry => Text.lower entry.1 == wanted

/-- A table is used through its `value` member, and null not at all. -/
def usable? : Document → Option Document
  | .table members => Members.at? members "value"
  | .null => none
  | value => some value

def inTable? (key : String) (members : Members Document) : Option Document :=
  (memberLike? members key).bind fun entry => usable? entry.2

/-- The special slot is a table of values or of records, or a list of records. -/
def inSpecial? (key : String) : Document → Option Document
  | .table members =>
    (inTable? key members).or ((Document.table members).innerTables.findSome? (inTable? key))
  | slot => slot.innerTables.findSome? (inTable? key)

/-- The value table comes first, then the special records, then the script itself; a match that cannot be used does
not end the search. -/
def find? (key : String) (script : Document) : Option Document :=
  script.members?.bind fun members =>
    let inValues := ((Members.at? members valueTable).bind Document.members?).bind (inTable? key)
    let inSpecials := (Members.at? members specialTable).bind (inSpecial? key)
    inValues.or (inSpecials.or (inTable? key members))

/-- The display of the value found, or the key itself. -/
def textOf (key : String) (script : Document) : String :=
  match find? key script with
  | some value => value.display
  | none => key

/-- Fills every token from the script alone; the empty name stands for a percent sign. Escaped new lines are
written out and tags dropped. -/
def resolve (template : String) (script : Document) : String :=
  let filled := TokenGrammar.anyName.fill (fun name => if name = "" then "%" else textOf name script) template
  Markup.stripTags (Markup.unescapeNewlines filled)

end Compendium.Lookup
