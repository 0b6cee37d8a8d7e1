import Compendium.Proofs.KeyValues.Merging
import Compendium.Proofs.KeyValues.Scanning
import Compendium.Proofs.Number.DocumentText

/-! The documents that a block text can hold: tables of texts, numbers and truth values, where every key and every text
is well escaped. -/

set_option autoImplicit false
namespace Compendium

namespace Document

mutual

def Expressible : Document → Prop
  | .table members => ExpressibleMembers members
  | .text value => KeyValues.WellEscaped value
  | .number _ | .bool _ => True
  | .list _ | .null => False

def ExpressibleMembers : List (String × Document) → Prop
  | [] => True
  | (key, value) :: rest => KeyValues.WellEscaped key ∧ Expressible value ∧ ExpressibleMembers rest

end

mutual

/-- Numbers and truth values become the texts they are written as. -/
def scalarsAsTexts : Document → Document
  | .table members => .table (scalarsAsTextsMembers members)
  | .number value => .text value.documentText
  | .bool value => .text (if value then "true" else "false")
  | document => document

def scalarsAsTextsMembers : List (String × Document) → List (String × Document)
  | [] => []
  | (key, value) :: rest => (key, scalarsAsTexts value) :: scalarsAsTextsMembers rest

end

theorem names_scalarsAsTextsMembers (members : Members Document) :
    Members.names (scalarsAsTextsMembers members) = Members.names members := by
  induction members with
  | nil => rw [scalarsAsTextsMembers]
  | cons member rest ih =>
    obtain ⟨key, value⟩ := member
    simp only [scalarsAsTextsMembers, Members.names, List.map_cons] at ih ⊢
    rw [ih]

end Document

namespace KeyValues

theorem AllEscaped.block_iff (entries : Entries) :
    AllEscaped (Node.block entries).tokens ↔ AllEscaped (tokensOf entries) := by
  simp [AllEscaped, Node.tokens]

mutual

theorem Node.expressible_toDocument_iff : ∀ node : Node, node.toDocument.Expressible ↔ AllEscaped node.tokens
  | .text value => by
    rw [Node.toDocument, Document.Expressible, Node.tokens, AllEscaped.cons_text_iff]
    simp [AllEscaped]
  | .block entries => by
    rw [Node.toDocument, Document.Expressible, AllEscaped.block_iff]
    exact expressibleMembers_entriesToMembers_iff entries

theorem expressibleMembers_entriesToMembers_iff : ∀ entries : List (String × Node),
    Document.ExpressibleMembers (entriesToMembers entries) ↔ AllEscaped (tokensOf entries)
  | [] => by
    simp [entriesToMembers, Document.ExpressibleMembers, tokensOf, AllEscaped]
  | (key, node) :: rest => by
    rw [entriesToMembers, Document.ExpressibleMembers, tokensOf, AllEscaped.cons_text_iff, AllEscaped.append_iff,
      Node.expressible_toDocument_iff node, expressibleMembers_entriesToMembers_iff rest]

end

theorem isWellEscaped_of_plain {text : List Char} (noQuote : '"' ∉ text) (noBackslash : '\\' ∉ text) :
    isWellEscaped text = true := by
  rcases staysOpen_of_no_quote noQuote with escaped | ⟨before, _, rfl⟩
  · exact escaped
  · exact absurd (List.mem_append_right _ List.mem_cons_self) noBackslash

theorem wellEscaped_documentText (number : Number) : WellEscaped number.documentText := by
  have numeral := number.ofNumeral_documentText
  -- neither mark is a character of a numeral
  apply isWellEscaped_of_plain
  · exact fun member => absurd (numeral _ member) (by decide)
  · exact fun member => absurd (numeral _ member) (by decide)

theorem wellEscaped_truth (value : Bool) : WellEscaped (if value then "true" else "false") := by
  cases value <;> decide

/-- A tree that holds a document as far as block texts can. -/
structure Holds (node : Node) (document : Document) : Prop where
  toDocument : node.toDocument = document.scalarsAsTexts
  escaped : AllEscaped node.tokens
  settled : Settled node

theorem Holds.text {value : String} {document : Document} (same : document.scalarsAsTexts = .text value)
    (escaped : WellEscaped value) : Holds (.text value) document := by
  refine ⟨same.symm, ?_, .text value⟩
  rw [Node.tokens, AllEscaped.cons_text_iff]
  exact ⟨escaped, fun _ member => nomatch member⟩

/-- Entries that hold the members of a table. -/
structure HoldsAll (entries : Entries) (members : Members Document) : Prop where
  toMembers : entriesToMembers entries = Document.scalarsAsTextsMembers members
  escaped : AllEscaped (tokensOf entries)
  settled : ∀ entry ∈ entries, Settled entry.2

theorem HoldsAll.block {entries : Entries} {members : Members Document} (holds : HoldsAll entries members)
    (distinct : Members.Distinct members) : Holds (.block entries) (.table members) := by
  refine ⟨?_, (AllEscaped.block_iff entries).mpr holds.escaped, .block ?_ holds.settled⟩
  · rw [Node.toDocument, holds.toMembers, Document.scalarsAsTexts]
  · rw [Members.Distinct, ← names_entriesToMembers, holds.toMembers, Document.names_scalarsAsTextsMembers]
    exact distinct

mutual

theorem exists_ofDocument (path : String) : ∀ document : Document, document.WellFormed → document.Expressible →
    ∃ node, Node.ofDocument path document = .ok node ∧ Holds node document
  | .table members, wellFormed, expressible => by
    rw [Document.WellFormed] at wellFormed
    rw [Document.Expressible] at expressible
    obtain ⟨entries, made, holds⟩ := exists_entriesOfMembers path members wellFormed.2 expressible
    refine ⟨.block entries, ?_, holds.block wellFormed.1⟩
    rw [Node.ofDocument, made]
    rfl
  | .text value, _, expressible => by
    rw [Document.Expressible] at expressible
    exact ⟨.text value, rfl, .text rfl expressible⟩
  | .number value, _, _ => ⟨.text value.documentText, rfl, .text rfl (wellEscaped_documentText value)⟩
  | .bool value, _, _ => ⟨.text (if value then "true" else "false"), rfl, .text rfl (wellEscaped_truth value)⟩
  | .list _, _, expressible => by
    rw [Document.Expressible] at expressible
    exact expressible.elim
  | .null, _, expressible => by
    rw [Document.Expressible] at expressible
    exact expressible.elim

theorem exists_entriesOfMembers (path : String) : ∀ members : List (String × Document),
    Document.WellFormedMembers members → Document.ExpressibleMembers members →
    ∃ entries, entriesOfMembers path members = .ok entries ∧ HoldsAll entries members
  | [], _, _ => ⟨[], rfl, rfl, (fun _ member => nomatch member), (fun _ member => nomatch member)⟩
  | (key, value) :: rest, wellFormed, expressible => by
    rw [Document.WellFormedMembers] at wellFormed
    rw [Document.ExpressibleMembers] at expressible
    obtain ⟨node, made, holds⟩ := exists_ofDocument (pathOf path key) value wellFormed.1 expressible.2.1
    obtain ⟨entries, madeRest, holdsRest⟩ := exists_entriesOfMembers path rest wellFormed.2 expressible.2.2
    refine ⟨(key, node) :: entries, ?_, ?_, ?_, ?_⟩
    · rw [entriesOfMembers, made, madeRest]
      rfl
    · rw [entriesToMembers, Document.scalarsAsTextsMembers, holds.toDocument, holdsRest.toMembers]
    · rw [tokensOf, AllEscaped.cons_text_iff, AllEscaped.append_iff]
      exact ⟨expressible.1, holds.escaped, holdsRest.escaped⟩
    · intro entry member
      rcases List.mem_cons.mp member with rfl | later
      · exact holds.settled
      · exact holdsRest.settled entry later

end

end KeyValues
end Compendium
