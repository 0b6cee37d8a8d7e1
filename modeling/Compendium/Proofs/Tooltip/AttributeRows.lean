import Compendium.Proofs.Document.Members
import Compendium.Proofs.Text.Occurrence
import Compendium.Tooltip.AttributeRow
import Mathlib.Data.List.Forall2

/-! Rows of attributes and the records they are made of: one row for each record, in the same order, and nothing of a row comes
from another record. A localized header is a small grammar, which is read as it is written. -/

set_option autoImplicit false
namespace Compendium

/-- A header without the percent sign in front of it: the name of a footer, or a text of its own. -/
inductive HeaderText where
  | footer (name : String)
  | plain (text : String) (own : ¬ ['+', '$'] <+: text.toList)

def HeaderText.written : HeaderText → String
  | .footer name => "+$" ++ name
  | .plain text _ => text

/-- A localized header, taken apart. A text that starts with a percent sign always marks percentages. -/
structure LocalizedHeader where
  percent : Bool
  rest : HeaderText
  unmarked : percent = false → ¬ ['%'] <+: rest.written.toList

def LocalizedHeader.written (header : LocalizedHeader) : String :=
  if header.percent then "%" ++ header.rest.written else header.rest.written

/-- Every text is a header. -/
theorem HeaderText.exists_written (text : String) : ∃ rest : HeaderText, rest.written = text := by
  by_cases footer : ['+', '$'] <+: text.toList
  · obtain ⟨name, same⟩ := footer
    refine ⟨.footer (String.ofList name), ?_⟩
    apply String.toList_injective
    simpa [written] using same
  · exact ⟨.plain text footer, rfl⟩

theorem LocalizedHeader.exists_written (text : String) : ∃ header : LocalizedHeader, header.written = text := by
  by_cases marked : ['%'] <+: text.toList
  · obtain ⟨behind, same⟩ := marked
    obtain ⟨rest, spelled⟩ := HeaderText.exists_written (String.ofList behind)
    refine ⟨⟨true, rest, Bool.noConfusion⟩, ?_⟩
    apply String.toList_injective
    simpa [written, spelled] using same
  · obtain ⟨rest, rfl⟩ := HeaderText.exists_written text
    exact ⟨⟨false, rest, fun _ => marked⟩, rfl⟩

namespace AttributeRow

section
variable (strings : StringTable) (start : String)

/-- What the table has for the name of a footer. Only the footers of the attack range lose their tags. -/
inductive FooterOf (name : String) : Option String → Prop where
  | missing (absent : strings.get? (footerStart ++ name) = none) : FooterOf name none
  | kept {text : String} (found : strings.get? (footerStart ++ name) = some text)
      (other : ¬ attackRange.toList <:+: (footerStart ++ name).toList) : FooterOf name (some text)
  | stripped {text : String} (found : strings.get? (footerStart ++ name) = some text)
      (range : attackRange.toList <:+: (footerStart ++ name).toList) : FooterOf name (some (Markup.stripTags text))

/-- The header and the footer of a row under a localized header. -/
inductive Headed : HeaderText → String → Option String → Prop where
  | footer {name : String} {footer : Option String} (below : FooterOf strings name footer) :
      Headed (.footer name) "+" footer
  | plain {text : String} {own : ¬ ['+', '$'] <+: text.toList} : Headed (.plain text own) (Markup.stripTags text) none

/-- The table has a header for the key of the entry. -/
def IsLocalized (entry : String × Document) : Prop :=
  (strings.get? (start ++ entry.1)).isSome = true

/-- The first entry whose key says more than a type, or just the first one. -/
def NamesRow (record : AttributeRecord) (entry : String × Document) : Prop :=
  IsFirst (fun entry => entry.1 ≠ typeKey) record entry ∨
    (∀ entry ∈ record, entry.1 = typeKey) ∧ record.head? = some entry

/-- What the row of a record shows. -/
structure RowOf (record : AttributeRecord) (row : AttributeRow) : Prop where
  known_iff : row.generated = false ↔ ∃ entry ∈ record, IsLocalized strings start entry
  known : row.generated = false → ∃ (value : Document) (header : LocalizedHeader),
    IsFirst (IsLocalized strings start) record (row.key, value) ∧ strings.get? (start ++ row.key) = some header.written ∧
      row.value = Levels.format value header.percent Levels.defaultSeparator ∧
      Headed strings header.rest row.header row.footer
  unknown : row.generated = true → row.header = generatedHeader row.key ∧ row.footer = none ∧
    ((∃ value, NamesRow record (row.key, value) ∧ row.value = Levels.format value false Levels.defaultSeparator) ∨
      record = [] ∧ row.key = "" ∧ row.value = .single "")

end

section
variable {strings : StringTable} {start : String} {record : AttributeRecord}

theorem footer?_eq_iff (name : String) (footer : Option String) :
    footer? strings name = footer ↔ FooterOf strings name footer := by
  simp only [footer?]
  constructor
  · rintro rfl
    cases found : strings.get? (footerStart ++ name) with
    | none => exact .missing found
    | some text =>
      rw [Option.map_some]
      split
      · next range => exact .stripped found ((Text.occursIn_iff _ _).mp range)
      · next other => exact .kept found (mt (Text.occursIn_iff _ _).mpr other)
  · rintro (absent | ⟨found, other⟩ | ⟨found, range⟩)
    · simp [absent]
    · simp [found, mt (Text.occursIn_iff _ _).mp other]
    · simp [found, (Text.occursIn_iff _ _).mpr range]

theorem dropStart?_percent (header : LocalizedHeader) :
    Text.dropStart? "%" header.written = if header.percent then some header.rest.written else none := by
  obtain ⟨percent, rest, unmarked⟩ := header
  cases percent with
  | true => exact (Text.dropStart?_eq_some_iff _ _ _).mpr rfl
  | false => exact (Text.dropStart?_eq_none_iff _ _).mpr (unmarked rfl)

/-- The row under a header, written as it is or taken apart. -/
theorem ofHeader_written (key : String) (value : Document) (header : LocalizedHeader) (row : AttributeRow) :
    ofHeader strings key value header.written = row ↔ row.generated = false ∧ row.key = key ∧
      row.value = Levels.format value header.percent Levels.defaultSeparator ∧
      Headed strings header.rest row.header row.footer := by
  have marked : (Text.dropStart? "%" header.written).isSome = header.percent := by
    rw [dropStart?_percent]
    cases header.percent <;> rfl
  have behind : (Text.dropStart? "%" header.written).getD header.written = header.rest.written := by
    rw [dropStart?_percent, LocalizedHeader.written]
    cases header.percent <;> rfl
  obtain ⟨ownKey, ownHeader, ownValue, ownFooter, generated⟩ := row
  simp only [ofHeader, marked, behind]
  cases header.rest with
  | footer name =>
    have named : Text.dropStart? "+$" (HeaderText.footer name).written = some name :=
      (Text.dropStart?_eq_some_iff _ _ _).mpr rfl
    simp only [named, AttributeRow.mk.injEq]
    constructor
    · rintro ⟨rfl, rfl, rfl, rfl, rfl⟩
      exact ⟨rfl, rfl, rfl, .footer ((footer?_eq_iff _ _).mp rfl)⟩
    · rintro ⟨rfl, rfl, rfl, ⟨below⟩⟩
      exact ⟨rfl, rfl, rfl, (footer?_eq_iff _ _).mpr below, rfl⟩
  | plain text own =>
    have unnamed : Text.dropStart? "+$" (HeaderText.plain text own).written = none :=
      (Text.dropStart?_eq_none_iff _ _).mpr own
    simp only [unnamed, AttributeRow.mk.injEq]
    constructor
    · rintro ⟨rfl, rfl, rfl, rfl, rfl⟩
      exact ⟨rfl, rfl, rfl, .plain⟩
    · rintro ⟨rfl, rfl, rfl, ⟨⟩⟩
      exact ⟨rfl, rfl, rfl, rfl, rfl⟩

theorem localized?_eq_some_iff (key header : String) (value : Document) :
    localized? strings start record = some (key, value, header) ↔
      IsFirst (IsLocalized strings start) record (key, value) ∧ strings.get? (start ++ key) = some header := by
  simp only [localized?, findSome?_eq_some_iff_isFirst, Option.isSome_map, Option.map_eq_some_iff, Prod.mk.injEq]
  constructor
  · rintro ⟨⟨_, _⟩, first, _, found, rfl, rfl, rfl⟩
    exact ⟨first, found⟩
  · rintro ⟨first, found⟩
    exact ⟨_, first, _, found, rfl, rfl, rfl⟩

theorem localized?_eq_none_iff :
    localized? strings start record = none ↔ ¬ ∃ entry ∈ record, IsLocalized strings start entry := by
  simp [localized?, IsLocalized]

theorem namingMember?_eq_some_iff (entry : String × Document) :
    namingMember? record = some entry ↔ NamesRow record entry := by
  rw [namingMember?, NamesRow, Option.or_eq_some_iff, find?_eq_some_iff_isFirst, List.find?_eq_none]
  simp only [bne_iff_ne, ne_eq, not_not]

theorem namingMember?_eq_none_iff : namingMember? record = none ↔ record = [] := by
  rw [namingMember?, Option.or_eq_none_iff, List.head?_eq_none_iff, and_iff_right_iff_imp]
  rintro rfl
  rfl

theorem ofUnknown_eq_iff (row : AttributeRow) : ofUnknown record = row ↔ row.generated = true ∧
    row.header = generatedHeader row.key ∧ row.footer = none ∧
      ((∃ value, NamesRow record (row.key, value) ∧ row.value = Levels.format value false Levels.defaultSeparator) ∨
        record = [] ∧ row.key = "" ∧ row.value = .single "") := by
  obtain ⟨key, header, value, footer, generated⟩ := row
  simp only [ofUnknown, ← namingMember?_eq_some_iff, ← namingMember?_eq_none_iff]
  cases named : namingMember? record with
  | none =>
    have silent : generatedHeader "" = ":" := by decide +kernel
    simp only [AttributeRow.mk.injEq]
    constructor
    · rintro ⟨rfl, rfl, rfl, rfl, rfl⟩
      exact ⟨rfl, silent.symm, rfl, .inr ⟨trivial, rfl, rfl⟩⟩
    · rintro ⟨rfl, rfl, rfl, ⟨_, impossible, -⟩ | ⟨-, rfl, rfl⟩⟩
      · cases impossible
      · exact ⟨rfl, silent.symm, rfl, rfl, rfl⟩
  | some entry =>
    simp only [AttributeRow.mk.injEq]
    constructor
    · rintro ⟨rfl, rfl, rfl, rfl, rfl⟩
      exact ⟨rfl, rfl, rfl, .inl ⟨entry.2, rfl, rfl⟩⟩
    · rintro ⟨rfl, rfl, rfl, ⟨_, same, rfl⟩ | ⟨impossible, -⟩⟩
      · obtain rfl := Option.some.inj same
        exact ⟨rfl, rfl, rfl, rfl, rfl⟩
      · cases impossible

/-- A record makes just the row that shows it. -/
theorem ofRecord_eq_iff (row : AttributeRow) : ofRecord strings start record = row ↔ RowOf strings start record row := by
  rw [ofRecord]
  cases found : localized? strings start record with
  | none =>
    have none := localized?_eq_none_iff.mp found
    simp only [ofUnknown_eq_iff]
    constructor
    · rintro ⟨generated, unknown⟩
      refine ⟨iff_of_false (by simp [generated]) none, ?_, fun _ => unknown⟩
      rw [generated]
      exact Bool.noConfusion
    · intro shows
      have generated : row.generated = true := by simpa using mt shows.known_iff.mp none
      exact ⟨generated, shows.unknown generated⟩
  | some entry =>
    obtain ⟨key, value, text⟩ := entry
    obtain ⟨first, localized⟩ := (localized?_eq_some_iff _ _ _).mp found
    have some : ∃ entry ∈ record, IsLocalized strings start entry := ⟨_, first.mem, first.holds⟩
    constructor
    · obtain ⟨header, rfl⟩ := LocalizedHeader.exists_written text
      intro same
      obtain ⟨known, rfl, shown, headed⟩ := (ofHeader_written _ _ _ _).mp same
      refine ⟨iff_of_true known some, fun _ => ⟨value, header, first, localized, shown, headed⟩, ?_⟩
      rw [known]
      exact Bool.noConfusion
    · intro shows
      have known := shows.known_iff.mpr some
      obtain ⟨other, header, also, written, shown, headed⟩ := shows.known known
      -- the first entry with a header is one only, and so is its header
      rw [(localized?_eq_some_iff _ _ _).mpr ⟨also, written⟩] at found
      obtain ⟨rfl, same⟩ := Prod.mk.inj (Option.some.inj found)
      obtain ⟨rfl, rfl⟩ := Prod.mk.inj same
      exact (ofHeader_written _ _ _ _).mpr ⟨known, rfl, shown, headed⟩

end

/-- One row for each record, in order, each of what its record alone shows. -/
theorem ofAttributes_eq_iff (attributes : AttributeList) (strings : StringTable) (start : String) (rows : List AttributeRow) :
    ofAttributes attributes strings start = rows ↔ List.Forall₂ (RowOf strings start) attributes.records rows := by
  rw [ofAttributes, ← List.forall₂_eq_eq_eq, List.forall₂_map_left_iff]
  simp only [ofRecord_eq_iff]

end AttributeRow
end Compendium
