import Compendium.Document.Basic

/-! How the statements of a TOML text build up its tables. A table is defined once: by a header, or by the dotted
keys that lead through it; a header that leads through a table does not define it. -/

set_option autoImplicit false
namespace Compendium.Toml

/-- How a table came about. -/
inductive Origin where
  /-- It has a header of its own, or is the whole text. -/
  | header
  /-- Headers lead through it. -/
  | path
  /-- Dotted keys lead through it. -/
  | key
  deriving DecidableEq, Repr

inductive Node where
  | value (value : Document)
  | table (origin : Origin) (members : List (String × Node))
  /-- The tables of a repeated header; the last one is still open. -/
  | tables (earlier : List Document) (last : List (String × Node))

mutual

def Node.toDocument : Node → Document
  | .value value => value
  | .table _ members => .table (membersToDocument members)
  | .tables earlier last => .list (earlier ++ [.table (membersToDocument last)])

def membersToDocument : List (String × Node) → List (String × Document)
  | [] => []
  | (name, node) :: rest => (name, node.toDocument) :: membersToDocument rest

end

/-- Changes the table that a path leads to. Missing tables on the way are created. A dotted key must not lead
through a table that has a header. -/
def descend (dotted : Bool) (change : Origin → Members Node → Option (Members Node)) :
    List String → Origin → Members Node → Option (Members Node)
  | [], origin, members => change origin members
  | name :: rest, _, members => do
    let node ← match Members.at? members name with
      | none =>
        let origin : Origin := if dotted then .key else .path
        Node.table origin <$> descend dotted change rest origin []
      | some (.value _) => none
      | some (.table origin inner) =>
        if dotted ∧ origin = .header then none
        else Node.table origin <$> descend dotted change rest origin inner
      | some (.tables earlier last) => Node.tables earlier <$> descend dotted change rest .header last
    return Members.put members name node

/-- Puts a value under a key, which must be new. -/
def assign (key : List String) (value : Document) (members : Members Node) : Option (Members Node) := do
  let name ← key.getLast?
  let path := key.dropLast
  let insert (origin : Origin) (inner : Members Node) : Option (Members Node) :=
    if (path ≠ [] ∧ origin ≠ .key) ∨ Members.has inner name then none
    else some (Members.put inner name (.value value))
  descend true insert path .header members

/-- Opens the table of a header. -/
def openTable (path : List String) (root : Members Node) : Option (Members Node) := do
  let name ← path.getLast?
  let enter (_ : Origin) (members : Members Node) : Option (Members Node) :=
    match Members.at? members name with
    | none => some (Members.put members name (.table .header []))
    | some (.table .path inner) => some (Members.put members name (.table .header inner))
    | some _ => none
  descend false enter path.dropLast .header root

/-- Opens one more table of a repeated header. -/
def openNextTable (path : List String) (root : Members Node) : Option (Members Node) := do
  let name ← path.getLast?
  let enter (_ : Origin) (members : Members Node) : Option (Members Node) :=
    match Members.at? members name with
    | none => some (Members.put members name (.tables [] []))
    | some (.tables earlier last) =>
      let closed : Document := .table (membersToDocument last)
      some (Members.put members name (.tables (earlier ++ [closed]) []))
    | some _ => none
  descend false enter path.dropLast .header root

inductive Statement where
  | header (path : List String)
  | repeatedHeader (path : List String)
  | pair (key : List String) (value : Document)

/-- A text as far as it has been read: its tables, and the path to the one that is open. -/
structure Draft where
  root : Members Node
  position : List String

def Draft.add (draft : Draft) : Statement → Option Draft
  | .header path => (openTable path draft.root).map fun root => ⟨root, path⟩
  | .repeatedHeader path => (openNextTable path draft.root).map fun root => ⟨root, path⟩
  | .pair key value =>
    (descend false (fun _ => assign key value) draft.position .header draft.root).map fun root =>
      ⟨root, draft.position⟩

/-- The document that the statements build, if no table or key is defined twice. -/
def build? (statements : List Statement) : Option Document := do
  let draft ← statements.foldlM Draft.add ⟨[], []⟩
  return .table (membersToDocument draft.root)

end Compendium.Toml
