import Compendium.Proofs.KeyValues.Expressible
import Compendium.Proofs.KeyValues.Marks
import Compendium.Proofs.KeyValues.Straying
import Mathlib.Data.List.Defs

/-! Writing and reading. What block texts can hold is read back as it was written; of what was read from a block text,
exactly the documents without a dangling backslash are. -/

set_option autoImplicit false
namespace Compendium

namespace KeyValues

theorem read_write (tabs : Bool) {entries : Entries} (settled : Settled (.block entries))
    (escaped : AllEscaped (tokensOf entries)) : read (write tabs entries) = .ok entries := by
  obtain ⟨complete, same⟩ := lex_write tabs escaped
  rw [read, readLexed_tokensOf complete same, storeAll_of_settled entries [] settled, List.nil_append]

/-- Whether a piece is a text whose closing quote is not read as one. -/
def Piece.isBroken : Piece → Bool
  | .text value => !isWellEscaped value.toList
  | _ => false

theorem exists_first_broken {form : List Piece} {text : String} (member : .text text ∈ form)
    (broken : ¬ WellEscaped text) :
    ∃ before first after, form = before ++ .text first :: after ∧ (∀ value, .text value ∈ before → WellEscaped value) ∧
      ¬ WellEscaped first := by
  have some : (form.find? Piece.isBroken).isSome := by
    rw [List.find?_isSome]
    exact ⟨.text text, member, by simpa [Piece.isBroken, WellEscaped] using broken⟩
  obtain ⟨piece, found⟩ := Option.isSome_iff_exists.mp some
  obtain ⟨fails, before, after, rfl, earlier⟩ := List.find?_eq_some_iff_append.mp found
  cases piece with
  | text first =>
    refine ⟨before, first, after, rfl, ?_, by simpa [Piece.isBroken, WellEscaped] using fails⟩
    intro value inside
    simpa [Piece.isBroken, WellEscaped] using earlier _ inside
  | blank => cases fails
  | opening => cases fails
  | closing => cases fails

/-- A text with a dangling backslash is read back longer, with a mark that was a quote before. -/
theorem lex_write_parts (tabs : Bool) {entries : Entries} (closed : ∀ text, .text text ∈ tokensOf entries → Closed text)
    (broken : ¬ AllEscaped (tokensOf entries)) (complete : (lex (write tabs entries)).ending = .complete) :
    Part marksIn (lex (write tabs entries)).tokens (tokensOf entries) := by
  obtain ⟨text, escapes⟩ := Classical.not_forall.mp broken
  obtain ⟨member, unpaired⟩ := Classical.not_imp.mp escapes
  obtain ⟨before, first, after, split, escaped, fails⟩ :=
    exists_first_broken (mem_pieces_of_mem_tokens tabs 0 member) unpaired
  have goal := tokens_pieces tabs 0 entries
  rw [split, List.flatMap_append, List.flatMap_cons] at goal
  have inside : .text first ∈ tokensOf entries := by
    rw [← goal]
    simp [Piece.tokens]
  have dangling : EndsDangling first.toList := (closed first inside).resolve_left fails
  -- up to the first broken text the tokens are those of the tree
  have rests := Scanner.rests_start.run_pieces before escaped
  have written : (write tabs entries).toList =
      before.flatMap Piece.chars ++ (quote first ++ after.flatMap Piece.chars) := by
    rw [write, String.toList_ofList, ← chars_pieces, split, List.flatMap_append, List.flatMap_cons]
    rfl
  rw [lex, lexChars, written, List.foldl_append] at complete ⊢
  rcases rests.run_dangling dangling after with ⟨line, unterminated⟩ | ⟨gap, emitted⟩
  · rw [complete] at unterminated
    cases unterminated
  · have expected : ([] ++ before.flatMap Piece.tokens ++ [.text first]) <+: tokensOf entries := by
      rw [List.nil_append, ← goal]
      exact ⟨after.flatMap Piece.tokens, by simp [Piece.tokens]⟩
    have longer : String.ofList (first.toList ++ '"' :: gap) ≠ first := by
      intro same
      have lengths := congrArg (fun value => value.toList.length) same
      simp at lengths
    have marked : 0 < marksIn (String.ofList (first.toList ++ '"' :: gap)) := by
      have mark : marks ('"' :: gap) = 1 + marks gap := marks_cons _ _
      rw [marksIn, String.toList_ofList, marks_append]
      omega
    exact Part.of_prefix emitted expected longer marked

/-- What a text with a dangling backslash is read back as is never repaired by later entries. -/
theorem read_write_ne (tabs : Bool) {entries : Entries} (settled : Settled (.block entries))
    (closed : ∀ text, .text text ∈ tokensOf entries → Closed text) (broken : ¬ AllEscaped (tokensOf entries)) :
    read (write tabs entries) ≠ .ok entries := by
  intro accepted
  obtain ⟨written, complete, same, merged⟩ := exists_written_of_readLexed accepted
  -- the tokens part from those of the tree, and there are too few marks in them to make up for it
  have part := lex_write_parts tabs closed broken complete
  have light := weigh_marks_lex_write tabs entries complete
  rw [same] at part light
  exact part.storeAll_ne settled light merged.symm

end KeyValues

open KeyValues

theorem Resource.toBlockText_of_ofDocument {tabs : Bool} {members : Members Document} {entries : Entries}
    (made : entriesOfMembers "" members = .ok entries) :
    Resource.toBlockText tabs (.table members) = .ok (write tabs entries) := by
  rw [toBlockText, writeDocument, entriesOfDocument, made]
  rfl

/-- Tables of texts, numbers and truth values are read back as they were written, scalars as texts and every key at its
place. -/
theorem Resource.ofBlockText_toBlockText (tabs : Bool) {members : Members Document}
    (wellFormed : (Document.table members).WellFormed) (expressible : (Document.table members).Expressible) :
    ∃ written, Resource.toBlockText tabs (.table members) = .ok written ∧
      Resource.ofBlockText written = .ok (Document.table members).scalarsAsTexts := by
  rw [Document.WellFormed] at wellFormed
  rw [Document.Expressible] at expressible
  obtain ⟨entries, made, holdsAll⟩ := exists_entriesOfMembers "" members wellFormed.2 expressible
  have holds := holdsAll.block wellFormed.1
  refine ⟨write tabs entries, toBlockText_of_ofDocument made, ?_⟩
  rw [ofBlockText_eq_ok_iff]
  exact ⟨entries, read_write tabs holds.settled holdsAll.escaped, holds.toDocument⟩

theorem Resource.ofBlockText_toBlockText_nested :
    ∃ written, Resource.toBlockText true (.table [("a", .table [("n", .integer 7), ("t", .text "x\\n")]),
        ("empty", .table []), ("zero", .number (.double (.zero true))), ("yes", .bool true)]) = .ok written ∧
      Resource.ofBlockText written = .ok (.table [("a", .table [("n", .text "7"), ("t", .text "x\\n")]),
        ("empty", .table []), ("zero", .text "-0.0"), ("yes", .text "true")]) := by
  apply Resource.ofBlockText_toBlockText true
  · simp [Document.WellFormed, Document.WellFormedMembers, Members.Distinct, Members.names, Document.integer]
  · simp only [Document.Expressible, Document.ExpressibleMembers, Document.integer]
    decide

/-- A document that was read from a block text can always be written, and is read back the same unless one of its keys
or texts ends in a backslash that has nothing to take along. -/
theorem Resource.ofBlockText_toBlockText_iff_expressible (tabs : Bool) {text : String} {document : Document}
    (accepted : Resource.ofBlockText text = .ok document) :
    ∃ written, Resource.toBlockText tabs document = .ok written ∧
      (Resource.ofBlockText written = .ok document ↔ document.Expressible) := by
  obtain ⟨entries, read, rfl⟩ := (ofBlockText_eq_ok_iff text document).mp accepted
  obtain ⟨source, _, same, rfl⟩ := exists_written_of_readLexed read
  have settled : Settled (.block (storeAll [] source)) := .storeAll .empty source
  have closed : ∀ text, .text text ∈ tokensOf (storeAll [] source) → Closed text := by
    intro text member
    have sourceMember := mem_tokensOf_storeAll member
    rw [← same] at sourceMember
    exact closed_of_mem_lex sourceMember
  refine ⟨write tabs (storeAll [] source), ?_, ?_⟩
  · rw [toBlockText, writeDocument_toDocument]
    rfl
  rw [Node.expressible_toDocument_iff, AllEscaped.block_iff, ofBlockText_eq_ok_iff]
  constructor
  · rintro ⟨entries, reread, sameDocument⟩
    rw [Node.toDocument, Node.toDocument, Document.table.injEq] at sameDocument
    rw [entriesToMembers_injective sameDocument] at reread
    apply Classical.byContradiction
    intro broken
    exact read_write_ne tabs settled closed broken reread
  · intro escaped
    exact ⟨_, read_write tabs settled escaped, rfl⟩

theorem Resource.bareBackslash_not_readBack :
    Resource.ofBlockText "k a\\" = .ok (.table [("k", .text "a\\")]) ∧
    ∃ written, Resource.toBlockText false (.table [("k", .text "a\\")]) = .ok written ∧
      Resource.ofBlockText written ≠ .ok (.table [("k", .text "a\\")]) := by
  have read : read "k a\\" = .ok [("k", .text "a\\")] := by cbv
  have accepted := (Resource.ofBlockText_eq_ok_iff _ _).mpr ⟨_, read, rfl⟩
  obtain ⟨written, made, exactly⟩ := Resource.ofBlockText_toBlockText_iff_expressible false accepted
  refine ⟨accepted, written, made, ?_⟩
  apply mt exactly.mp
  simp only [Node.toDocument, entriesToMembers, Document.Expressible, Document.ExpressibleMembers]
  decide

/-- What is written for a bare value that ends in a backslash has no closing quote. -/
theorem Resource.ofBlockText_written_bareBackslash :
    Resource.ofBlockText "k a\\" = .ok (.table [("k", .text "a\\")]) ∧
    Resource.toBlockText false (.table [("k", .text "a\\")]) = .ok "\"k\" \"a\\\"\n" ∧
    Resource.ofBlockText "\"k\" \"a\\\"\n" = .error (.fault (.unterminatedText 1)) := by
  have read : read "k a\\" = .ok [("k", .text "a\\")] := by cbv
  have reread : KeyValues.read "\"k\" \"a\\\"\n" = .error (.unterminatedText 1) := by cbv
  refine ⟨(Resource.ofBlockText_eq_ok_iff _ _).mpr ⟨_, read, rfl⟩, ?_, ?_⟩
  · rw [Resource.toBlockText_of_ofDocument rfl]
    rfl
  · rw [Resource.ofBlockText, Resource.entriesOfText, reread]
    rfl

end Compendium
