import Compendium.Proofs.Tooltip.Header
import Compendium.Proofs.Tooltip.Sorting
import Mathlib

/-! Tags of headers in what lines are sorted into. A hint holds none, and a section holds none where its line has from its
header on only the two tags of it. -/

set_option autoImplicit false
namespace Compendium

namespace ItemText
open Markup

/-- A tag of a header stands in the text, in some letter case. -/
def HoldsHeaderTag (text : List Char) : Prop :=
  ∃ tag, isHeaderTag tag = true ∧ tag <:+: text

section
variable {tag text : List Char}

theorem brackets_of_headerTag (header : isHeaderTag tag = true) : ['<', '>'].Sublist tag := by
  have lower : ['<', '>'].Sublist (tag.map Char.toLower) := by
    rcases (isHeaderTag_iff tag).mp header with opens | closes
    · rw [opens]
      decide
    · rw [closes]
      decide
  obtain ⟨part, inside, same⟩ := List.sublist_map_iff.mp lower
  have brackets : part = ['<', '>'] := by
    obtain ⟨first, others, rfl, opening, rest⟩ := List.map_eq_cons_iff.mp same.symm
    obtain ⟨second, none, rfl, closing, empty⟩ := List.map_eq_cons_iff.mp rest
    rw [Text.eq_of_toLower_eq opening_char opening, Text.eq_of_toLower_eq closing_char closing,
      List.map_eq_nil_iff.mp empty]
  rwa [brackets] at inside

theorem not_holdsHeaderTag_of_tagFree (free : TagFree text) : ¬ HoldsHeaderTag text := by
  rintro ⟨tag, header, inside⟩
  exact free ((brackets_of_headerTag header).trans inside.sublist)

theorem ascii_of_headerTag (header : isHeaderTag tag = true) : ∀ c ∈ tag, c.toNat < 0x80 := by
  intro c member
  by_contra other
  have lower := lower_of_mem_headerTag header member
  rw [Text.toLower_of_not_ascii (by omega)] at lower
  have checked : closeTag.all (fun d => Nat.blt d.toNat 0x80) = true := by decide
  exact other (Nat.blt_eq.mp (List.all_eq_true.mp checked c lower))

theorem not_blank_of_headerTag (header : isHeaderTag tag = true) : ∀ c ∈ tag, Text.isBlank c = false := by
  intro c member
  have checked : ∀ code < 0x80, (Char.ofNat code).toLower ∈ closeTag → Text.isBlank (Char.ofNat code) = false := by
    decide +kernel
  exact Text.forall_ascii (P := fun c => c.toLower ∈ closeTag → Text.isBlank c = false) checked c
    (ascii_of_headerTag header c member) (lower_of_mem_headerTag header member)

theorem HoldsHeaderTag.trim (holds : HoldsHeaderTag text) : HoldsHeaderTag (Text.trim text) := by
  obtain ⟨tag, header, inside⟩ := holds
  exact ⟨tag, header, Text.infix_trim inside (not_blank_of_headerTag header)⟩

theorem HoldsHeaderTag.lower (holds : HoldsHeaderTag text) : HoldsHeaderTag (Text.lowerFrom [] text) := by
  obtain ⟨tag, header, inside⟩ := holds
  refine ⟨tag.map Char.toLower, ?_, Text.infix_lowerFrom inside (ascii_of_headerTag header) []⟩
  rcases (isHeaderTag_iff tag).mp header with opens | closes
  · rw [opens]
    decide
  · rw [closes]
    decide

end

/-- Neither the name nor the description holds a tag of a header. -/
def HeaderFree (content : Section) : Prop :=
  ¬ HoldsHeaderTag content.name.toList ∧ ¬ HoldsHeaderTag content.desc.toList

section
variable {symbols : List Symbol}

theorem shown_eq_write (kept : ∀ symbol ∈ symbols, symbol.isKept = true)
    (none : ∀ symbol ∈ symbols, symbol.isHeaderTag ≠ true) : shown symbols = write symbols := by
  induction symbols with
  | nil => rfl
  | cons symbol rest ih =>
    rw [List.forall_mem_cons] at kept none
    cases symbol with
    | char c => rw [shown_char, write_char, ih kept.2 none.2]
    | tag inner => exact absurd kept.1 none.1

/-- The text has the letters of the symbols, and a tag of a header where they have one. -/
theorem not_holdsHeaderTag_iff (legible : Legible symbols) (kept : ∀ symbol ∈ symbols, symbol.isKept = true)
    {text : List Char} (same : text.flatMap Text.letter = (write symbols).flatMap Text.letter)
    (stays : HoldsHeaderTag (write symbols) → HoldsHeaderTag text) :
    ¬ HoldsHeaderTag text ↔ ∀ symbol ∈ symbols, symbol.isHeaderTag ≠ true := by
  constructor
  · intro free symbol member header
    exact free (stays ⟨symbol.written, header, List.infix_of_mem_flatten (List.mem_map_of_mem member)⟩)
  · intro none
    -- only characters are left then, and these are written as they show
    have plain : TagFree (write symbols) := by
      rw [← shown_eq_write kept none, ← stripTagChars_write legible]
      exact tagFree_stripTagChars _
    exact not_holdsHeaderTag_of_tagFree (tagFree_of_letters same plain)

theorem not_holdsHeaderTag_trimmed_iff (legible : Legible symbols) (kept : ∀ symbol ∈ symbols, symbol.isKept = true) :
    ¬ HoldsHeaderTag (trimmed symbols).toList ↔ ∀ symbol ∈ symbols, symbol.isHeaderTag ≠ true := by
  rw [trimmed, String.toList_ofList]
  exact not_holdsHeaderTag_iff legible kept (Text.flatMap_letter_trim _) HoldsHeaderTag.trim

theorem not_holdsHeaderTag_lower_iff (legible : Legible symbols) (kept : ∀ symbol ∈ symbols, symbol.isKept = true) :
    ¬ HoldsHeaderTag (Text.lower (trimmed symbols)).toList ↔ ∀ symbol ∈ symbols, symbol.isHeaderTag ≠ true := by
  rw [Text.lower, trimmed, String.toList_ofList, String.toList_ofList]
  exact not_holdsHeaderTag_iff legible kept
    ((Text.flatMap_letter_lowerFrom [] _).trans (Text.flatMap_letter_trim _)) fun holds => holds.trim.lower

end

/-- Besides the two tags that are taken off, every tag of a header stays in one of the parts. -/
theorem Header.countP_isHeaderTag (header : Header) :
    (fromHeader header.symbols).countP Symbol.isHeaderTag = header.parts.countP Symbol.isHeaderTag + 2 := by
  have opening : header.opening.isHeaderTag = true := Symbol.isHeaderTag_of_opensHeader header.opens
  have colon : ¬ (Symbol.char header.colon).isHeaderTag = true := by
    rw [Symbol.isHeaderTag_char]
    exact Bool.false_ne_true
  have closing : header.closing.isHeaderTag = true := Symbol.isHeaderTag_of_closesHeader header.closes
  rw [header.fromHeader_symbols, Header.parts]
  simp only [List.countP_append, List.countP_cons_of_pos opening, List.countP_cons_of_neg colon,
    List.countP_cons_of_pos closing]
  omega

theorem Header.headerFree_entry_iff (header : Header) (legible : Legible header.symbols)
    (kept : ∀ symbol ∈ header.symbols, symbol.isKept = true) :
    ¬ HoldsHeaderTag header.entry.1.toList ∧ HeaderFree header.entry.2 ↔
      (fromHeader header.symbols).countP Symbol.isHeaderTag = 2 := by
  have partLegible := legible.sublist header.parts_sublist
  have partKept := fun symbol member => kept symbol (header.parts_sublist.subset member)
  rw [Header.countP_isHeaderTag, Nat.add_eq_right, List.countP_eq_zero]
  rw [Header.parts] at partLegible partKept ⊢
  rw [List.forall_mem_append, List.forall_mem_append] at partKept ⊢
  obtain ⟨kindKept, nameKept, descKept⟩ := partKept
  rw [Header.entry, HeaderFree, not_holdsHeaderTag_lower_iff (partLegible.sublist (by simp)) kindKept,
    not_holdsHeaderTag_trimmed_iff (partLegible.sublist (by simp)) nameKept,
    not_holdsHeaderTag_trimmed_iff (partLegible.sublist (by simp)) descKept]

theorem headerFree_readLine_iff {script : Document} {line kind : String} {content : Section}
    (entry : readLine script line = .entry kind content) :
    ¬ HoldsHeaderTag kind.toList ∧ HeaderFree content ↔
      (fromHeader (read line.toList)).countP Symbol.isHeaderTag = 2 := by
  obtain ⟨header, symbols, parts⟩ := exists_header entry
  have legible : Legible header.symbols := symbols ▸ legible_kept _
  have kept : ∀ symbol ∈ header.symbols, symbol.isKept = true := by
    rw [symbols]
    exact fun _ => List.of_mem_filter
  have free := header.headerFree_entry_iff legible kept
  rw [parts, symbols, fromHeader_filter, List.countP_filter] at free
  simpa only [Symbol.isHeaderTag_and_isKept] using free

theorem not_holdsHeaderTag_hint {script : Document} {line hint : String} (read : readLine script line = .hint hint) :
    ¬ HoldsHeaderTag hint.toList := by
  rw [eq_readHint read]
  exact not_holdsHeaderTag_of_tagFree (tagFree_stripTags _)

/-- No hint holds a tag of a header. A section holds one exactly where its line has more of them from its header on than the
header's own two. -/
theorem headerFree_ofLines_iff (script : Document) (lines : List String) :
    let item := (ofLines lines script).value
    (∀ hint ∈ item.hints, ¬ HoldsHeaderTag hint.toList) ∧
    ((∀ grouped ∈ item.sections, ¬ HoldsHeaderTag grouped.1.toList ∧ ∀ content ∈ grouped.2, HeaderFree content) ↔
      ∀ line ∈ lines, ∀ kind content, readLine script line = .entry kind content →
        (fromHeader (read line.toList)).countP Symbol.isHeaderTag = 2) := by
  intro item
  constructor
  · intro hint member
    simp only [item, ofLines_eq] at member
    obtain ⟨line, -, found⟩ := List.mem_flatMap.mp member
    cases read : readLine script line with
    | hint text =>
      rw [read, LineReading.hints, List.mem_singleton] at found
      rw [found]
      exact not_holdsHeaderTag_hint read
    | entry kind content => simp [read, LineReading.hints] at found
    | malformed => simp [read, LineReading.hints] at found
  · rw [forall_sections_ofLines_iff script lines (fun kind => ¬ HoldsHeaderTag kind.toList) HeaderFree]
    constructor
    · intro free line member kind content entry
      exact (headerFree_readLine_iff entry).mp (free line member kind content entry)
    · intro two line member kind content entry
      exact (headerFree_readLine_iff entry).mpr (two line member kind content entry)

/-- A second header on a line stays in the description that the first one opens. -/
theorem headerTag_stays_in_desc :
    ¬ ∀ grouped ∈ (ofLines ["<h1>Active: A</h1>x<h1>Passive: B</h1>y"] (.table [])).value.sections,
      ¬ HoldsHeaderTag grouped.1.toList ∧ ∀ content ∈ grouped.2, HeaderFree content := by
  have sections : (ofLines ["<h1>Active: A</h1>x<h1>Passive: B</h1>y"] (.table [])).value.sections =
      [("active", [⟨"A", "x<h1>Passive: B</h1>y"⟩])] := by
    cbv
  rw [sections]
  intro free
  have desc := ((free _ List.mem_cons_self).2 _ List.mem_cons_self).2
  exact desc ⟨openTag, by decide, ['x'], "Passive: B</h1>y".toList, by decide⟩

end ItemText
end Compendium
