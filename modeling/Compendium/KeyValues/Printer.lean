import Compendium.KeyValues.Block

/-! Block texts written from trees, and the documents that have such a tree. Keys and values are quoted and never
escaped; with indentation, each level is one tab deeper. -/

set_option autoImplicit false
namespace Compendium.KeyValues

def quote (text : String) : List Char :=
  '"' :: text.toList ++ ['"']

mutual

def Node.writeUnder (tabs : Bool) (level : Nat) (key : String) : Node → List Char
  | .text value => indent tabs level ++ quote key ++ ' ' :: quote value ++ ['\n']
  | .block entries =>
    indent tabs level ++ quote key ++ '\n' :: indent tabs level ++ '{' :: '\n' ::
      writeEntries tabs (level + 1) entries ++ indent tabs level ++ ['}', '\n']
where
  indent (tabs : Bool) (level : Nat) : List Char :=
    if tabs then List.replicate level '\t' else []

def writeEntries (tabs : Bool) (level : Nat) : List (String × Node) → List Char
  | [] => []
  | (key, node) :: rest => node.writeUnder tabs level key ++ writeEntries tabs level rest

end

/-- The written form of top-level entries. -/
def write (tabs : Bool) (entries : Entries) : String :=
  String.ofList (writeEntries tabs 0 entries)

/-- The kind of a document that block texts cannot hold, and the path of keys that leads to it. -/
structure Unsupported where
  kind : String
  path : String
  deriving DecidableEq, Repr

def kindName : Document → String
  | .null => "null"
  | .bool _ => "boolean"
  | .number _ => "number"
  | .text _ => "string"
  | .list _ => "array"
  | .table _ => "object"

/-- Paths are joined with points, except that nothing is put before the first key. -/
def pathOf (path key : String) : String :=
  if path = "" then key else path ++ "." ++ key

mutual

/-- Numbers and truth values become texts; lists and null have no place in a block. -/
def Node.ofDocument (path : String) : Document → Except Unsupported Node
  | .table members => (entriesOfMembers path members).map .block
  | .text value => .ok (.text value)
  | .number value => .ok (.text value.documentText)
  | .bool value => .ok (.text (if value then "true" else "false"))
  | .list _ => .error ⟨"array", path⟩
  | .null => .error ⟨"null", path⟩

def entriesOfMembers (path : String) : List (String × Document) → Except Unsupported Entries
  | [] => .ok []
  | (key, value) :: rest => do
    let node ← Node.ofDocument (pathOf path key) value
    let entries ← entriesOfMembers path rest
    return (key, node) :: entries

end

/-- Only a table has entries. -/
def entriesOfDocument : Document → Except Unsupported Entries
  | .table members => entriesOfMembers "" members
  | document => .error ⟨kindName document, ""⟩

def writeDocument (tabs : Bool) (document : Document) : Except Unsupported String :=
  (entriesOfDocument document).map (write tabs)

end Compendium.KeyValues
