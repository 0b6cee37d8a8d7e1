import Compendium.Json.Printer
import Compendium.Text.Blank
import Compendium.Text.Occurrence

/-! Attribute records as scripts hold them: names mapped to scalars, or to tables that carry the scalar in their
`value` member. -/

set_option autoImplicit false
namespace Compendium

namespace Document

mutual

/-- How a value is shown. The items of a list are joined with commas; a table shows its `value` member, or itself
as a compact document if it has none. -/
def display : Document → String
  | .null => ""
  | .bool value => if value then "true" else "false"
  | .number value => value.displayText
  | .text value => value
  | .list items => Text.join "," (displayItems items)
  | .table members => (displayValue? members).getD (Json.compact (.table members))

def displayItems : List Document → List String
  | [] => []
  | item :: rest => display item :: displayItems rest

/-- The display of the member named `value`. -/
def displayValue? : List (String × Document) → Option String
  | [] => none
  | (name, value) :: rest => if name = "value" then some (display value) else displayValue? rest

end

theorem displayValue?_eq (members : List (String × Document)) :
    displayValue? members = (Members.at? members "value").map display := by
  induction members with
  | nil => rfl
  | cons member rest ih =>
    obtain ⟨name, value⟩ := member
    by_cases h : name = "value" <;> simp [displayValue?, Members.at?, h, ih]

/-- Whether a value counts as present: null, false, zero and the empty text do not. -/
def isPresent : Document → Bool
  | .null => false
  | .bool value => value
  | .number value => !value.isZero
  | .text value => value ≠ ""
  | .list _ | .table _ => true

/-- A scalar from free text: nothing reads as zero, and what is no finite number stays a text. Both lose the white
space around them. -/
def ofFreeText (text : String) : Document :=
  let trimmed := Text.trim text.toList
  if trimmed = [] then .integer 0
  else match Number.ofText? trimmed with
    | some value => .number value
    | none => .text (String.ofList trimmed)

end Document

abbrev AttributeRecord := Members Document

/-- The attributes of one ability or item, in order. -/
structure AttributeList where
  records : List AttributeRecord
  deriving Repr

namespace AttributeList

def empty : AttributeList :=
  ⟨[]⟩

def single (key : String) (value : Document) : AttributeRecord :=
  [(key, value)]

/-- The tables among the items of a list or the values of a table. -/
def ofDocument (document : Document) : AttributeList :=
  ⟨document.innerTables⟩

/-- One record for each member. -/
def ofTable (members : Members Document) : AttributeList :=
  ⟨members.map fun (key, value) => single key value⟩

def push (attributes : AttributeList) (record : AttributeRecord) : AttributeList :=
  ⟨attributes.records ++ [record]⟩

def append (first second : AttributeList) : AttributeList :=
  ⟨first.records ++ second.records⟩

/-- The value of a key in the first record that has it. -/
def find? (attributes : AttributeList) (key : String) : Option Document :=
  attributes.records.findSome? fun record => Members.at? record key

end AttributeList
end Compendium
