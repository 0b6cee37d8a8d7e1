import Compendium.Text.Occurrence
import Compendium.Tooltip.Attribute

/-! Names of abilities and talents with tokens of the form `s:name` in braces. Values are put in one after the
other, each for every occurrence of its token. -/

set_option autoImplicit false
namespace Compendium.NameTokens

/-- The token of a name. -/
def token (name : String) : String :=
  "\x7bs:" ++ name ++ "\x7d"

/-- The last value of each key, in the order in which the keys first appear. -/
def lastValues (attributes : AttributeList) : Members Document :=
  Members.ofPairs attributes.records.flatten

/-- Fills tokens from the attributes. Tables are no values here. -/
def fillFlat (template : String) (attributes : AttributeList) : String :=
  let scalars := (lastValues attributes).filter fun entry => !entry.2.isTable
  scalars.foldl (fun text (key, value) => Text.replaceAll text (token key) value.display) template

/-- A bonus without the signs in front of it. -/
def bareBonus (value : Document) : String :=
  String.ofList (value.display.toList.dropWhile fun c => c == '+' || c == '-' || c == 'x')

/-- The entries of a linked table that hold a bonus for the talent, with that bonus. -/
def bonuses (talent : String) (linked : Members Document) : List (String × String) :=
  linked.filterMap fun (entry, value) =>
    (value.member? talent).map fun bonus => (entry, bareBonus bonus)

/-- Fills a talent's tokens from the table of the ability it improves. The last bonus also stands for the token
named `value`. -/
def fillBonus (talent template : String) (linked : Members Document) : String :=
  let found := bonuses talent linked
  let text := found.foldl
    (fun text (entry, bonus) => Text.replaceAll text (token ("bonus_" ++ entry)) bonus) template
  match found.getLast? with
  | some (_, bonus) => Text.replaceAll text (token "value") bonus
  | none => text

end Compendium.NameTokens
