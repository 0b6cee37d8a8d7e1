import Compendium.Document.Members
import Compendium.Number.Basic

/-! Documents: the tree of tables, lists and scalars that scripts, localized resources and results are made of. -/

set_option autoImplicit false
namespace Compendium

inductive Document where
  | null
  | bool (value : Bool)
  | number (value : Number)
  | text (value : String)
  | list (items : List Document)
  | table (members : List (String × Document))
  deriving Repr, Inhabited

namespace Document

def integer (value : Int) : Document :=
  .number (.integer value)

def ofOption {α : Type} (encode : α → Document) : Option α → Document
  | none => .null
  | some value => encode value

def texts (values : List String) : Document :=
  .list (values.map .text)

def members? : Document → Option (Members Document)
  | .table members => some members
  | _ => none

def text? : Document → Option String
  | .text value => some value
  | _ => none

/-- The member of a table; any other document has none. -/
def member? (document : Document) (key : String) : Option Document :=
  document.members?.bind fun members => Members.at? members key

def isTable (document : Document) : Bool :=
  document.members?.isSome

/-- The text of a member that is a text and not empty. -/
def nonemptyText? (document : Document) (key : String) : Option String :=
  ((document.member? key).bind text?).filter (· ≠ "")

/-- The tables among a list's items or a table's values, in order. -/
def innerTables : Document → List (Members Document)
  | .list items => items.filterMap members?
  | .table members => (Members.values members).filterMap members?
  | _ => []

mutual

/-- Member names are pairwise distinct in every table of the tree. -/
def WellFormed : Document → Prop
  | .list items => WellFormedItems items
  | .table members => Members.Distinct members ∧ WellFormedMembers members
  | _ => True

def WellFormedItems : List Document → Prop
  | [] => True
  | item :: rest => WellFormed item ∧ WellFormedItems rest

def WellFormedMembers : List (String × Document) → Prop
  | [] => True
  | (_, value) :: rest => WellFormed value ∧ WellFormedMembers rest

end

end Document
end Compendium
