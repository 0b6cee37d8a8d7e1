import Compendium.Tooltip.Lookup

/-! Script documents: a named block of scripts, and what is read from a single script. -/

set_option autoImplicit false
namespace Compendium

/-- A source document lacks the block that holds its data. -/
structure LayoutError where
  document : String
  block : String
  deriving DecidableEq, Repr

def LayoutError.message (error : LayoutError) : String :=
  "Unexpected layout in " ++ error.document ++ ": no `" ++ error.block ++ "` block"

namespace Script

/-- The entry of a script block that tells its version. -/
def versionKey : String := "Version"

def block (document : Document) (block name : String) : Except LayoutError (Members Document) :=
  match (document.member? block).bind Document.members? with
  | some members => .ok members
  | none => .error ⟨name, block⟩

/-- Special records come first; a script without any has one record for each entry of its value table. -/
def attributes (script : Document) : AttributeList :=
  match script.member? Lookup.specialTable with
  | some special => AttributeList.ofDocument special
  | none =>
    match (script.member? Lookup.valueTable).bind Document.members? with
    | some members => AttributeList.ofTable members
    | none => AttributeList.empty

/-- The value of a run of digits, unless it is empty or beyond the largest 64-bit integer. -/
def digitsValue? (digits : List Char) : Option Int :=
  let value : Int := readDigits digits
  if digits = [] ∨ Number.greatestInteger < value then none else some value

/-- The integer that a text starts with, after white space and one sign. -/
def leadingDigits? (text : String) : Option Int :=
  let (negative, rest) := cutSign (Text.trimStart text.toList)
  (digitsValue? (rest.takeWhile Char.isDigit)).map fun value => if negative then -value else value

/-- The integer at the start of a field: a number without its fraction, or the digits that a text starts with. -/
def leadingInteger? : Document → Option Int
  | .number value => some value.toInteger
  | .text text => leadingDigits? text
  | _ => none

def integerField? (script : Document) (key : String) : Option Int :=
  (script.member? key).bind leadingInteger?

end Script

/-- A missing count and a count of zero are written as false. -/
def Document.ofCount : Option Int → Document
  | some value => if value = 0 then .bool false else .integer value
  | none => .bool false

end Compendium
