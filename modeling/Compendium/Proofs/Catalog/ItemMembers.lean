import Compendium.Proofs.Catalog.Recipes
import Compendium.Proofs.Tooltip.Cleaning

/-! The members of an item as they are written. The sections of its description stand among them under their kinds,
which are free text, so that a section may go by the name of another member. -/

set_option autoImplicit false
namespace Compendium

/-- What the sections of a kind are written as. There is at least one. -/
def Document.IsSections (document : Document) : Prop :=
  ∃ (first : Section) (rest : List Section),
    document = .list (ItemText.sectionDocument first :: rest.map ItemText.sectionDocument)

namespace Document

theorem isSections_contents {contents : List Section} (filled : contents ≠ []) :
    IsSections (.list (contents.map ItemText.sectionDocument)) := by
  cases contents with
  | nil => exact absurd rfl filled
  | cons first rest => exact ⟨first, rest, rfl⟩

theorem not_isSections_text (value : String) : ¬ IsSections (.text value) := by
  simp [IsSections]

theorem not_isSections_bool (value : Bool) : ¬ IsSections (.bool value) := by
  simp [IsSections]

theorem not_isSections_integer (value : Int) : ¬ IsSections (.integer value) := by
  simp [IsSections, integer]

theorem not_isSections_integer? (value : Option Int) : ¬ IsSections (ofOption .integer value) := by
  cases value with
  | none => simp [IsSections, ofOption]
  | some value => exact not_isSections_integer value

theorem not_isSections_count (value : Option Int) : ¬ IsSections (ofCount value) := by
  cases value with
  | none => exact not_isSections_bool false
  | some value =>
    rw [ofCount]
    split
    · exact not_isSections_bool false
    · exact not_isSections_integer value

theorem not_isSections_texts (values : List String) : ¬ IsSections (texts values) := by
  cases values with
  | nil => simp [IsSections, texts]
  | cons value rest => simp [IsSections, texts, ItemText.sectionDocument]

theorem not_isSections_texts? (values : Option (List String)) : ¬ IsSections (ofOption texts values) := by
  cases values with
  | none => simp [IsSections, ofOption]
  | some values => exact not_isSections_texts values

/-- Rows start with their key, sections with their name. -/
theorem not_isSections_rows (rows : List AttributeRow) : ¬ IsSections (.list (rows.map AttributeRow.toDocument)) := by
  cases rows with
  | nil => simp [IsSections]
  | cons row rest => simp [IsSections, AttributeRow.toDocument, ItemText.sectionDocument]

end Document

namespace ItemText

/-- Kinds are pairwise distinct, and every kind has a section. -/
structure WellSorted (item : ItemText) : Prop where
  distinct : Members.Distinct item.sections
  filled : ∀ grouped ∈ item.sections, grouped.2 ≠ []

theorem wellSorted_empty : empty.WellSorted :=
  ⟨List.nodup_nil, by simp [empty]⟩

theorem wellSorted_ofLines (lines : List String) (script : Document) : (ofLines lines script).value.WellSorted := by
  have distinct : Members.Distinct (ofLines lines script).value.sections := by
    rw [Members.Distinct, names_ofLines]
    exact nodup_eraseDups _
  refine ⟨distinct, ?_⟩
  rintro ⟨kind, contents⟩ member
  -- a kind is there because an entry of it was read
  have known : kind ∈ Members.names (ofLines lines script).value.sections := List.mem_map_of_mem member
  rw [names_ofLines, List.mem_eraseDups] at known
  obtain ⟨entry, read, same⟩ := List.mem_map.mp known
  have found := sectionsOf_ofLines script lines kind
  rw [sectionsOf, (Members.at?_eq_some_iff distinct).mpr member, Option.getD_some] at found
  rw [found]
  exact List.ne_nil_of_mem (List.mem_map_of_mem (List.mem_filter.mpr ⟨read, by simp [same]⟩))

section
variable (item : ItemText)

def hintMembers : List (String × Document) :=
  if item.hints.isEmpty then [] else [("hint", Document.texts item.hints)]

def sectionMembers : List (String × Document) :=
  item.sections.map fun (kind, contents) => (kind, .list (contents.map sectionDocument))

theorem toMembers_eq : item.toMembers = item.hintMembers ++ item.sectionMembers :=
  rfl

theorem names_hintMembers : Members.names item.hintMembers = if item.hints.isEmpty then [] else ["hint"] := by
  rw [hintMembers]
  split <;> rfl

theorem names_sectionMembers : Members.names item.sectionMembers = Members.names item.sections := by
  rw [sectionMembers, Members.names, List.map_map]
  rfl

theorem of_mem_hintMembers {member : String × Document} (known : member ∈ item.hintMembers) :
    member.1 = "hint" ∧ ¬ member.2.IsSections := by
  rw [hintMembers] at known
  split at known
  · cases known
  · rw [List.mem_singleton.mp known]
    exact ⟨rfl, Document.not_isSections_texts _⟩

variable {item}

theorem WellSorted.isSections (sorted : item.WellSorted) {member : String × Document}
    (known : member ∈ item.sectionMembers) : member.2.IsSections := by
  obtain ⟨grouped, stored, rfl⟩ := List.mem_map.mp known
  exact Document.isSections_contents (sorted.filled grouped stored)

theorem WellSorted.nodup_sectionMembers (sorted : item.WellSorted) : item.sectionMembers.Nodup := by
  apply List.Nodup.of_map Prod.fst
  rw [show item.sectionMembers.map Prod.fst = _ from item.names_sectionMembers]
  exact sorted.distinct

end

end ItemText

namespace Item

theorem wellSorted_textOf (strings : StringTable) (entry : String × Document) :
    (textOf strings entry).value.WellSorted := by
  rw [textOf]
  cases strings.get? (StringTable.tooltipStart ++ entry.1 ++ "_Description") with
  | none => exact ItemText.wellSorted_empty
  | some template => exact ItemText.wellSorted_ofLines _ _

section
variable (strings : StringTable) (tiers : Members Nat) (name : String) (scripts : Members Document)
  (own : String × Document)

theorem text_built_made :
    (built name scripts (made strings tiers own).value).text = (textOf strings own).value := by
  obtain ⟨item, new, text, -⟩ := made_cases strings tiers own
  rw [text_built, new, ← text]

theorem wellSorted_built : (built name scripts (made strings tiers own).value).text.WellSorted := by
  rw [text_built_made]
  exact wellSorted_textOf strings own

end

section
variable (item : Item)

/-- The names of an item's members, but for those of its description. -/
def fixedNames : List String :=
  ["id", "img"] ++ (item.name.map fun _ => "dname").toList ++ (item.quality.map fun _ => "qual").toList ++
    ["cost", "notes", "attrib", "mc", "cd", "lore", "components", "created", "charges"] ++
    (item.tier.map fun _ => "tier").toList

/-- No section is of a kind that another member goes by. -/
def SectionsApart : Prop :=
  ∀ kind ∈ Members.names item.text.sections, kind ∉ item.fixedNames ∧ (kind = "hint" → item.text.hints = [])

theorem nodup_hint_fixedNames : ("hint" :: item.fixedNames).Nodup := by
  rw [fixedNames]
  cases item.name <;> cases item.quality <;> cases item.tier <;> simp

open Document in
theorem exists_fixed : ∃ fixed, item.toMembers = item.text.toMembers ++ fixed ∧
    Members.names fixed = item.fixedNames ∧ ∀ member ∈ fixed, ¬ member.2.IsSections := by
  refine ⟨_, by simp only [toMembers, List.append_assoc]; rfl, ?_, ?_⟩
  · rw [fixedNames]
    cases item.name <;> cases item.quality <;> cases item.tier <;> rfl
  · cases item.name <;> cases item.quality <;> cases item.tier <;>
      simp [not_isSections_text, not_isSections_bool, not_isSections_integer, not_isSections_integer?,
        not_isSections_count, not_isSections_texts?, not_isSections_rows]

theorem names_toMembers : Members.names item.toMembers =
    (if item.text.hints.isEmpty then [] else ["hint"]) ++ (Members.names item.text.sections ++ item.fixedNames) := by
  obtain ⟨fixed, split, names, -⟩ := item.exists_fixed
  rw [split, ItemText.toMembers_eq, ← names, ← ItemText.names_hintMembers, ← ItemText.names_sectionMembers]
  simp [Members.names]

variable {item}

theorem distinct_toMembers_iff (sorted : item.text.WellSorted) :
    Members.Distinct item.toMembers ↔ item.SectionsApart := by
  obtain ⟨free, fixed⟩ := List.nodup_cons.mp item.nodup_hint_fixedNames
  have sections : (Members.names item.text.sections).Nodup := sorted.distinct
  have apart : (Members.names item.text.sections ++ item.fixedNames).Nodup ↔
      ∀ kind ∈ Members.names item.text.sections, kind ∉ item.fixedNames := by
    rw [List.nodup_append]
    constructor
    · rintro ⟨-, -, apart⟩ kind known also
      exact apart kind known kind also rfl
    · intro apart
      refine ⟨sections, fixed, ?_⟩
      rintro kind known name also rfl
      exact apart kind known also
  rw [Members.Distinct, names_toMembers, SectionsApart]
  cases item.text.hints with
  | nil => simp [apart]
  | cons hint rest =>
    have alone : "hint" ∉ Members.names item.text.sections ↔
        ∀ kind ∈ Members.names item.text.sections, kind ≠ "hint" :=
      ⟨fun missing kind known same => missing (same ▸ known), fun other known => other _ known rfl⟩
    simp only [List.isEmpty_cons, Bool.false_eq_true, if_false, List.singleton_append, List.nodup_cons,
      List.mem_append, not_or, free, not_false_iff, and_true, apart, alone, reduceCtorEq, imp_false]
    exact and_comm.trans forall₂_and.symm

/-- Whatever members are called, none is written twice as it is: members of one name differ in their values. -/
theorem nodup_toMembers (sorted : item.text.WellSorted) : item.toMembers.Nodup := by
  obtain ⟨fixed, split, names, plain⟩ := item.exists_fixed
  obtain ⟨free, nodup⟩ := List.nodup_cons.mp item.nodup_hint_fixedNames
  rw [← names] at free nodup
  have single : item.text.hintMembers.Nodup := by
    rw [ItemText.hintMembers]
    split <;> simp
  rw [split, ItemText.toMembers_eq, List.append_assoc, List.nodup_append, List.nodup_append]
  -- sections differ from all others in their values, hints and fixed members in their names
  refine ⟨single, ⟨sorted.nodup_sectionMembers, .of_map _ nodup, ?_⟩, ?_⟩
  · rintro _ member fixed also rfl
    exact plain _ also (sorted.isSections member)
  · rintro hint member other also rfl
    obtain ⟨called, texts⟩ := item.text.of_mem_hintMembers member
    rcases List.mem_append.mp also with sections | fixed
    · exact texts (sorted.isSections sections)
    · exact free (called ▸ List.mem_map_of_mem fixed)

end

section
variable {document : Document} {scripts : Members Document}

theorem member?_toDocument {items : Members Item} {name : String} {item : Item}
    (found : Members.at? items name = some item) : (toDocument items).member? name = some (.table item.toMembers) := by
  have same := Members.at?_map items (fun _ item => Document.table item.toMembers) name
  rw [found] at same
  exact same

theorem member?_toValue {items : Members Item} {name : String} {item : Item}
    (found : Members.at? items name = some item) :
    (toValue items).member? name = some (.table (Members.ofPairs item.toMembers)) := by
  have same := Members.at?_map items (fun _ item => Document.table (Members.ofPairs item.toMembers)) name
  rw [found] at same
  exact same

theorem value_textOf_of_tokenless {strings : StringTable} {entry : String × Document} {template : String}
    (described : strings.get? (StringTable.tooltipStart ++ entry.1 ++ "_Description") = some template)
    (tokenless : '%' ∉ template.toList) :
    (textOf strings entry).value = (ItemText.ofLines (Resolver.itemLines template) entry.2).value := by
  rw [textOf, described]
  change (Resolver.resolveItem _ template).value = _
  rw [Resolver.resolveItem, Report.value_bind, Resolver.substitute_of_tokenless _ tokenless]
  rfl

/-- A line without a header, and a section of some kind. -/
def rodTemplate (kind : String) : String :=
  "Use it.\\n<h1>" ++ kind ++ ": Go</h1>now"

def rodStrings (kind : String) : StringTable :=
  ⟨[("DOTA_Tooltip_ability_item_rod_Description", rodTemplate kind)], ""⟩

def rod : String × Document :=
  ("item_rod", .table [])

def rodScripts : Document :=
  .table [("DOTAAbilities", .table [rod])]

theorem described_rod (kind : String) :
    (rodStrings kind).get? (StringTable.tooltipStart ++ rod.1 ++ "_Description") = some (rodTemplate kind) := by
  rw [StringTable.get?, rodStrings, Members.at?, if_pos (by decide +kernel)]

theorem text_rod {kind line lowered : String} (tokenless : '%' ∉ (rodTemplate kind).toList)
    (lines : Resolver.itemLines (rodTemplate kind) = ["Use it.", line])
    (entry : ItemText.readLine rod.2 line = .entry lowered ⟨"Go", "now"⟩) :
    (textOf (rodStrings kind) rod).value = ⟨["Use it."], [(lowered, [⟨"Go", "now"⟩])]⟩ := by
  have hint : ItemText.readLine rod.2 "Use it." = .hint "Use it." := by
    rw [ItemText.readLine, if_neg (by decide)]
    exact congrArg _ (by cbv)
  rw [value_textOf_of_tokenless (described_rod kind) tokenless, lines, ItemText.ofLines_eq]
  simp [ItemText.entriesOf, hint, entry, LineReading.hints, LineReading.entries, ItemText.group, Members.put,
    Members.at?]

theorem exists_rod (kind : String) {line lowered : String} (tokenless : '%' ∉ (rodTemplate kind).toList)
    (lines : Resolver.itemLines (rodTemplate kind) = ["Use it.", line])
    (entry : ItemText.readLine rod.2 line = .entry lowered ⟨"Go", "now"⟩) :
    ∃ report item, ofDocument (rodStrings kind) rodScripts (.table []) = .ok report ∧
      Members.at? report.value "rod" = some item ∧ item.text = ⟨["Use it."], [(lowered, [⟨"Go", "now"⟩])]⟩ := by
  have block : rodScripts.member? "DOTAAbilities" = some (.table [rod]) := rfl
  obtain ⟨report, done, names, -, each⟩ := exists_built (rodStrings kind) (.table []) block
  have kept : (([rod].filter isKept).map fun entry => shortName entry.1).eraseDups = ["rod"] := by
    decide +kernel
  have present : Members.at? report.value "rod" ≠ none := by
    rw [Ne, Members.at?_eq_none_iff, names, kept]
    simp
  obtain ⟨item, found⟩ := Option.ne_none_iff_exists'.mp present
  obtain ⟨own, last, rfl⟩ := each "rod" item found
  refine ⟨report, _, done, found, ?_⟩
  rw [text_built_made, List.mem_singleton.mp last.mem, text_rod tokenless lines entry]

/-- The members of an item have distinct names, and are all found again with their own values, exactly if no section
goes by the name of another member. -/
theorem distinct_written_iff (strings : StringTable) (neutrals : Document)
    (block : document.member? "DOTAAbilities" = some (.table scripts)) :
    ∃ report, ofDocument strings document neutrals = .ok report ∧
      ∀ name item, Members.at? report.value name = some item →
        ∃ written read, (toDocument report.value).member? name = some (.table written) ∧
          (toValue report.value).member? name = some (.table read) ∧
          (Members.Distinct written ↔ item.SectionsApart) ∧
          ((∀ member ∈ written, Members.at? read member.1 = some member.2) ↔ item.SectionsApart) := by
  obtain ⟨report, done, -, -, each⟩ := exists_built strings neutrals block
  refine ⟨report, done, ?_⟩
  intro name item found
  obtain ⟨own, -, rfl⟩ := each name item found
  have sorted := wellSorted_built strings (NeutralTier.ofDocument neutrals).value name scripts own
  refine ⟨_, _, member?_toDocument found, member?_toValue found, distinct_toMembers_iff sorted, ?_⟩
  rw [Members.forall_at?_ofPairs_iff (nodup_toMembers sorted), distinct_toMembers_iff sorted]

theorem distinct_written_rod :
    rodScripts.member? "DOTAAbilities" = some (.table [rod]) ∧
      ∃ report written, ofDocument (rodStrings "Active") rodScripts (.table []) = .ok report ∧
        (toDocument report.value).member? "rod" = some (.table written) ∧ Members.Distinct written := by
  obtain ⟨report, item, made, found, text⟩ := exists_rod "Active" (by decide) (by cbv)
    (show _ = LineReading.entry "active" ⟨"Go", "now"⟩ by cbv)
  have block : rodScripts.member? "DOTAAbilities" = some (.table [rod]) := rfl
  have apart : item.SectionsApart := by
    rw [SectionsApart, text, fixedNames]
    cases item.name <;> cases item.quality <;> cases item.tier <;> simp [Members.names]
  obtain ⟨same, again, each⟩ := distinct_written_iff (rodStrings "Active") (.table []) block
  rw [made] at again
  cases again
  obtain ⟨written, -, shown, -, distinct, -⟩ := each "rod" item found
  exact ⟨block, report, written, made, shown, distinct.mpr apart⟩

/-- Both the hints and the section of that kind are written as `hint`, and only the section is found again. -/
theorem hint_written_twice :
    ∃ report written read, ofDocument (rodStrings "Hint") rodScripts (.table []) = .ok report ∧
      (toDocument report.value).member? "rod" = some (.table written) ∧
      (toValue report.value).member? "rod" = some (.table read) ∧ ¬ Members.Distinct written ∧
      ("hint", Document.texts ["Use it."]) ∈ written ∧
      Members.at? read "hint" = some (.list [.table [("name", .text "Go"), ("desc", .text "now")]]) := by
  obtain ⟨report, item, made, found, text⟩ := exists_rod "Hint" (by decide) (by cbv)
    (show _ = LineReading.entry "hint" ⟨"Go", "now"⟩ by cbv)
  obtain ⟨fixed, split, names, -⟩ := item.exists_fixed
  have missing : "hint" ∉ Members.names fixed := names ▸ (List.nodup_cons.mp item.nodup_hint_fixedNames).1
  have written : item.toMembers = ("hint", Document.texts ["Use it."]) ::
      ("hint", .list [.table [("name", .text "Go"), ("desc", .text "now")]]) :: fixed := by
    rw [split, text]
    rfl
  refine ⟨report, _, _, made, member?_toDocument found, member?_toValue found, ?_, ?_, ?_⟩
  · simp [written, Members.Distinct, Members.names]
  · simp [written]
  · have absent : Members.at? fixed.reverse "hint" = none := by
      rw [Members.at?_eq_none_iff, Members.names, List.map_reverse, List.mem_reverse]
      exact missing
    rw [Members.ofPairs, Members.at?_putAll, written]
    simp [Members.at?_append, absent, Members.at?]

end

end Item
end Compendium
