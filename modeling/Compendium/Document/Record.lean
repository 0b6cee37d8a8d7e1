import Compendium.Document.Basic

/-! Records with named fields, read from documents. A record is written as a table, or as the list of its fields in
their order; fields may be missing. -/

set_option autoImplicit false
namespace Compendium.Document

/-- The fields that a record has by name. Members that are no fields may be among them. -/
def record? (fields : List String) : Document → Option (Members Document)
  | .table members => some members
  | .list items => some (fields.zip items)
  | _ => none

/-- Like `record?`, but a list must not be longer than the list of fields. -/
def strictRecord? (fields : List String) : Document → Option (Members Document)
  | .list items => if items.length ≤ fields.length then some (fields.zip items) else none
  | document => document.record? fields

/-- The value of a field: what `read` makes of it, or the default if it is missing. -/
def fieldOr {α : Type} (members : Members Document) (name : String) (default : α) (read : Document → Option α) :
    Option α :=
  match Members.at? members name with
  | some value => read value
  | none => some default

def bool? : Document → Option Bool
  | .bool value => some value
  | _ => none

/-- An integer of 64 bits with sign. -/
def integer? : Document → Option Int
  | .number (.integer value) => if value ≤ Number.greatestInteger then some value else none
  | _ => none

def items? : Document → Option (List Document)
  | .list items => some items
  | _ => none

/-- A list all of whose items can be read. -/
def listOf? {α : Type} (read : Document → Option α) (document : Document) : Option (List α) :=
  document.items?.bind fun items => items.mapM read

end Compendium.Document
