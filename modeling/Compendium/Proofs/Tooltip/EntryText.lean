import Compendium.Proofs.Tooltip.Header
import Compendium.Proofs.Tooltip.Sorting
import Mathlib

/-! What an entry shows of its line. From the header on every letter is kept but for the colon, and of what stands before
the header none is. -/

set_option autoImplicit false
namespace Compendium

namespace Markup

/-- What shows, without white space and in one letter case. -/
def letters (symbols : List Symbol) : List Char :=
  (shown symbols).flatMap Text.letter

theorem letters_append (first second : List Symbol) : letters (first ++ second) = letters first ++ letters second := by
  rw [letters, shown_append, List.flatMap_append]
  rfl

@[simp] theorem letters_tag (inner : List Char) (rest : List Symbol) : letters (.tag inner :: rest) = letters rest := rfl

theorem letters_cons (symbol : Symbol) (rest : List Symbol) : letters (symbol :: rest) = letters [symbol] ++ letters rest :=
  letters_append [symbol] rest

theorem letters_read (text : List Char) : letters (read text) = stripTagChars (text.flatMap Text.letter) := by
  rw [stripTagChars_letters, stripTagChars_eq, letters]

theorem letters_eq {symbols : List Symbol} (legible : Legible symbols) :
    letters symbols = stripTagChars ((write symbols).flatMap Text.letter) := by
  rw [stripTagChars_letters, stripTagChars_write legible, letters]

end Markup

namespace ItemText
open Markup

theorem letters_filter_isKept (symbols : List Symbol) : letters (symbols.filter Symbol.isKept) = letters symbols := by
  induction symbols with
  | nil => rfl
  | cons symbol rest ih =>
    cases symbol with
    | char c => rw [List.filter_cons_of_pos rfl, letters_cons, ih, ← letters_cons]
    | tag inner =>
      rw [List.filter_cons]
      split
      · rw [letters_cons, ih, ← letters_cons]
      · exact ih

/-- A line less the colon of its header. -/
def withoutColon (symbols : List Symbol) : List Symbol :=
  beforeHeader symbols ++ (fromHeader symbols).eraseP Symbol.isColon

theorem withoutColon_filter (symbols : List Symbol) :
    withoutColon (symbols.filter Symbol.isKept) = (withoutColon symbols).filter Symbol.isKept := by
  have colon (symbol : Symbol) : (symbol.isColon && symbol.isKept) = symbol.isColon := by
    cases symbol with
    | char c => exact Bool.and_true _
    | tag inner => rfl
  rw [withoutColon, beforeHeader_filter, fromHeader_filter, List.eraseP_filter, withoutColon, List.filter_append]
  simp only [colon]

namespace Header
variable (header : Header)

theorem withoutColon_symbols : withoutColon header.symbols =
    header.front ++ header.opening :: (header.kind ++ (header.name ++ header.closing :: header.desc)) := by
  -- the first colon from the opening tag on is the one that divides the header
  have tag : ¬ header.opening.isColon = true := by
    obtain ⟨inner, same⟩ := Symbol.exists_tag (Symbol.isHeaderTag_of_opensHeader header.opens)
    rw [same]
    exact Bool.false_ne_true
  have kind : ∀ symbol ∈ header.kind, ¬ symbol.isColon = true := by
    intro symbol member
    rw [header.beforeColon symbol member]
    exact Bool.false_ne_true
  have colon : (Symbol.char header.colon).isColon = true := header.divides
  rw [withoutColon, header.beforeHeader_symbols, header.fromHeader_symbols, List.eraseP_cons_of_neg tag,
    List.eraseP_append_right _ kind, List.eraseP_cons_of_pos colon]

theorem letters_withoutColon : letters (withoutColon header.symbols) = letters header.front ++ letters header.parts := by
  obtain ⟨opening, opens⟩ := Symbol.exists_tag (Symbol.isHeaderTag_of_opensHeader header.opens)
  obtain ⟨closing, closes⟩ := Symbol.exists_tag (Symbol.isHeaderTag_of_closesHeader header.closes)
  rw [header.withoutColon_symbols, opens, closes, Header.parts]
  simp only [letters_append, letters_tag]

/-- Neither trimming nor lower case changes a letter. -/
theorem letters_entry (legible : Legible header.symbols) :
    letters (read (header.entry.1 ++ header.entry.2.name ++ header.entry.2.desc).toList) = letters header.parts := by
  rw [letters_read, letters_eq (legible.sublist header.parts_sublist), Header.parts, write_append, write_append, entry,
    trimmed, trimmed, trimmed, Text.lower]
  simp only [String.toList_append, String.toList_ofList, List.flatMap_append, Text.flatMap_letter_lowerFrom,
    Text.flatMap_letter_trim, List.append_assoc]

end Header

/-- A line that is read as an entry puts it under its kind. The entry shows the letters of the line but for the colon of the
header and for what stands before the header. -/
theorem letters_of_entry (script : Document) {lines : List String} {line kind : String} {content : Section}
    (member : line ∈ lines) (entry : readLine script line = .entry kind content) :
    let symbols := read line.toList
    let kept := letters (read (kind ++ content.name ++ content.desc).toList)
    content ∈ (ofLines lines script).value.sectionsOf kind ∧
      letters (withoutColon symbols) = letters (beforeHeader symbols) ++ kept ∧
      (letters (withoutColon symbols) = kept ↔ letters (beforeHeader symbols) = []) := by
  intro symbols kept
  have grouped : content ∈ (ofLines lines script).value.sectionsOf kind := by
    rw [sectionsOf_ofLines]
    apply List.mem_map.mpr ⟨(kind, content), List.mem_filter.mpr ⟨?_, beq_self_eq_true kind⟩, rfl⟩
    exact List.mem_flatMap.mpr ⟨line, member, by simp [entry, LineReading.entries]⟩
  obtain ⟨header, same, parts⟩ := exists_header entry
  have legible : Legible header.symbols := same ▸ legible_kept _
  have cover : letters (withoutColon symbols) = letters (beforeHeader symbols) ++ kept := by
    calc letters (withoutColon symbols)
        = letters (withoutColon header.symbols) := by rw [same, withoutColon_filter, letters_filter_isKept]
      _ = letters header.front ++ letters header.parts := header.letters_withoutColon
      _ = letters (beforeHeader header.symbols) ++ kept := by
        rw [header.beforeHeader_symbols, ← header.letters_entry legible, parts]
      _ = letters (beforeHeader symbols) ++ kept := by rw [same, beforeHeader_filter, letters_filter_isKept]
  exact ⟨grouped, cover, by rw [cover, List.append_left_eq_self]⟩

theorem letters_of_entry_joined :
    let line := "<br> <h1>ON： A</H1>b <h1>< <b>c</b>:</h1>d"
    let content := Section.mk "A" "b <h1>c:</h1>d"
    (line ∈ [line] ∧ readLine (.table []) line = .entry "on" content) ∧
      content ∈ (ofLines [line] (.table [])).value.sectionsOf "on" ∧
      letters (withoutColon (read line.toList)) = letters (read ("on" ++ content.name ++ content.desc).toList) := by
  intro line content
  have member : line ∈ [line] := List.mem_singleton_self line
  have entry : readLine (.table []) line = .entry "on" content := by cbv
  obtain ⟨grouped, -, same⟩ := letters_of_entry (.table []) member entry
  have nothing : letters (beforeHeader (read line.toList)) = [] := by cbv
  exact ⟨⟨member, entry⟩, grouped, same.mpr nothing⟩

/-- What stands before a header is lost. -/
theorem letters_before_header_lost :
    readLine (.table []) "Intro <h1>Active: A</h1>x" = .entry "active" ⟨"A", "x"⟩ ∧
      letters (withoutColon (read "Intro <h1>Active: A</h1>x".toList)) ≠ letters (read ("active" ++ "A" ++ "x").toList) := by
  have entry : readLine (.table []) "Intro <h1>Active: A</h1>x" = .entry "active" ⟨"A", "x"⟩ := by cbv
  have line : letters (withoutColon (read "Intro <h1>Active: A</h1>x".toList)) = "introactiveax".toList := by cbv
  have kept : letters (read ("active" ++ "A" ++ "x").toList) = "activeax".toList := by cbv
  refine ⟨entry, ?_⟩
  rw [line, kept]
  decide

end ItemText
end Compendium
