import Compendium.Proofs.Document.Members
import Compendium.Resource

/-! Trees of a block text and the documents they are: a tree is found again in its document, path by path, and the
document has it as its entries. -/

set_option autoImplicit false
namespace Compendium

/-- What stands at a path of keys. The empty path leads to the document itself. -/
def Document.at? (document : Document) : List String → Option Document
  | [] => some document
  | key :: path => (document.member? key).bind fun member => member.at? path

namespace KeyValues

/-- What stands at a path of keys in a tree. -/
def Node.at? : Node → List String → Option Node
  | node, [] => some node
  | .text _, _ :: _ => none
  | .block entries, key :: path => (Members.at? entries key).bind fun node => node.at? path

theorem entriesToMembers_eq_map (entries : Entries) :
    entriesToMembers entries = entries.map fun entry => (entry.1, entry.2.toDocument) := by
  induction entries with
  | nil => rfl
  | cons entry rest ih =>
    obtain ⟨key, node⟩ := entry
    rw [entriesToMembers, ih]
    rfl

theorem names_entriesToMembers (entries : Entries) :
    Members.names (entriesToMembers entries) = Members.names entries := by
  rw [entriesToMembers_eq_map, Members.names, List.map_map]
  rfl

theorem at?_entriesToMembers (entries : Entries) (key : String) :
    Members.at? (entriesToMembers entries) key = (Members.at? entries key).map Node.toDocument := by
  induction entries with
  | nil => rfl
  | cons entry rest ih =>
    obtain ⟨name, node⟩ := entry
    by_cases same : name = key
    · simp [entriesToMembers, Members.at?, same]
    · simp [entriesToMembers, Members.at?, same, ih]

theorem Node.at?_toDocument (node : Node) (path : List String) :
    node.toDocument.at? path = (node.at? path).map Node.toDocument := by
  induction path generalizing node with
  | nil => rfl
  | cons key path ih =>
    cases node with
    | text value => rfl
    | block entries =>
      rw [Node.toDocument, Document.at?, Document.member?, Document.members?, Node.at?]
      change (Members.at? (entriesToMembers entries) key).bind _ = _
      rw [at?_entriesToMembers]
      cases Members.at? entries key with
      | none => rfl
      | some child => exact ih child

mutual

theorem Node.ofDocument_toDocument (path : String) : ∀ node : Node,
    Node.ofDocument path node.toDocument = .ok node
  | .text value => rfl
  | .block entries => by
    rw [Node.toDocument, Node.ofDocument, entriesOfMembers_entriesToMembers path entries]
    rfl

theorem entriesOfMembers_entriesToMembers (path : String) : ∀ entries : List (String × Node),
    entriesOfMembers path (entriesToMembers entries) = .ok entries
  | [] => rfl
  | (key, node) :: rest => by
    rw [entriesToMembers, entriesOfMembers, Node.ofDocument_toDocument _ node,
      entriesOfMembers_entriesToMembers path rest]
    rfl

end

theorem entriesToMembers_injective {first second : Entries}
    (same : entriesToMembers first = entriesToMembers second) : first = second := by
  have read := entriesOfMembers_entriesToMembers "" first
  rw [same, entriesOfMembers_entriesToMembers, Except.ok.injEq] at read
  exact read.symm

theorem writeDocument_toDocument (tabs : Bool) (entries : Entries) :
    writeDocument tabs (Node.block entries).toDocument = .ok (write tabs entries) := by
  rw [writeDocument, Node.toDocument, entriesOfDocument, entriesOfMembers_entriesToMembers]
  rfl

end KeyValues

theorem Resource.ofBlockText_eq_ok_iff (text : String) (document : Document) :
    Resource.ofBlockText text = .ok document ↔
      ∃ entries, KeyValues.read text = .ok entries ∧ (KeyValues.Node.block entries).toDocument = document := by
  rw [ofBlockText, entriesOfText]
  cases KeyValues.read text with
  | error fault =>
    constructor
    · intro failed
      cases failed
    · rintro ⟨entries, read, _⟩
      cases read
  | ok entries =>
    constructor
    · intro read
      exact ⟨entries, rfl, Except.ok.inj read⟩
    · rintro ⟨_, read, rfl⟩
      cases read
      rfl

theorem Resource.ofBlockText_eq_error_iff (text : String) (error : ResourceError) :
    Resource.ofBlockText text = .error error ↔ ∃ fault, KeyValues.read text = .error fault ∧ .fault fault = error := by
  rw [ofBlockText, entriesOfText]
  cases KeyValues.read text with
  | error fault =>
    constructor
    · intro failed
      exact ⟨fault, rfl, Except.error.inj failed⟩
    · rintro ⟨_, read, rfl⟩
      cases read
      rfl
  | ok entries =>
    constructor
    · intro failed
      cases failed
    · rintro ⟨fault, read, _⟩
      cases read

end Compendium
