import Compendium.Proofs.Catalog.Recipes
import Mathlib

/-! The notes of an item. They are read from an open row of numbered tokens until one is missing or empty. No two of these
tokens are the same, so the row of a table has an end, and the reading gets to it. -/

set_option autoImplicit false
namespace Compendium

theorem StringTable.get?_insert_of_ne (table : StringTable) {token other : String} (text : String) (apart : token ≠ other) :
    (table.insert token text).get? other = table.get? other :=
  Members.at?_put_of_ne table.tokens text apart

namespace Item

/-- A row of notes has its end where one is missing or empty. -/
def Ends (note : Option String) : Prop :=
  note = none ∨ note = some ""

/-- Reading the notes of a row from an index on. `steps` of them are looked at, with the one that ends it. -/
inductive Reads (row : Nat → Option String) : Nat → Nat → List String → Prop where
  | last {index : Nat} : Ends (row index) → Reads row index 1 []
  | next {index steps : Nat} {note : String} {notes : List String} : row index = some note → note ≠ "" →
      Reads row (index + 1) steps notes → Reads row index (steps + 1) (note :: notes)

section
variable {row : Nat → Option String} {index steps : Nat} {notes : List String}

theorem not_ends_iff (note : Option String) : ¬ Ends note ↔ ∃ text, note = some text ∧ text ≠ "" := by
  cases note with
  | none => simp [Ends]
  | some text => simp [Ends]

theorem Reads.unique (reads : Reads row index steps notes) {more : Nat} {others : List String}
    (also : Reads row index more others) : more = steps ∧ others = notes := by
  induction reads generalizing more others with
  | last ended =>
    cases also with
    | last => exact ⟨rfl, rfl⟩
    | next found shown => exact absurd ended ((not_ends_iff _).mpr ⟨_, found, shown⟩)
  | next found shown _ ih =>
    cases also with
    | last ended => exact absurd ended ((not_ends_iff _).mpr ⟨_, found, shown⟩)
    | next same _ later =>
      obtain ⟨rfl, rfl⟩ := ih later
      exact ⟨rfl, by rw [Option.some.inj (found.symm.trans same)]⟩

/-- Only the notes that are looked at count. -/
theorem Reads.congr (reads : Reads row index steps notes) {other : Nat → Option String}
    (same : ∀ place, place < index + steps → other place = row place) : Reads other index steps notes := by
  induction reads with
  | @last index ended =>
    refine .last ?_
    rwa [same index (by omega)]
  | @next index steps note notes found shown _ ih =>
    refine .next ?_ shown (ih fun place before => same place (by omega))
    rwa [same index (by omega)]

/-- No note before the last one that is looked at is an end. -/
theorem Reads.not_ends (reads : Reads row index steps notes) {place : Nat} (from_index : index ≤ place)
    (before : place + 1 < index + steps) : ¬ Ends (row place) := by
  induction reads with
  | last => omega
  | @next index steps note notes found shown _ ih =>
    rcases Nat.eq_or_lt_of_le from_index with rfl | later
    · exact (not_ends_iff _).mpr ⟨note, found, shown⟩
    · exact ih later (by omega)

theorem exists_reads (row : Nat → Option String) (index count : Nat) (going : ∀ place < count, ¬ Ends (row (index + place)))
    (ended : Ends (row (index + count))) : ∃ notes, Reads row index (count + 1) notes ∧
      notes.map some = (List.range count).map fun place => row (index + place) := by
  induction count generalizing index with
  | zero => exact ⟨[], .last ended, rfl⟩
  | succ count ih =>
    obtain ⟨note, found, shown⟩ := (not_ends_iff _).mp (going 0 (Nat.succ_pos count))
    have shift (place : Nat) : index + 1 + place = index + (place + 1) := by omega
    obtain ⟨notes, reads, each⟩ := ih (index + 1) (fun place before => shift place ▸ going (place + 1) (by omega))
      (shift count ▸ ended)
    refine ⟨note :: notes, .next found shown reads, ?_⟩
    rw [List.map_cons, each, List.range_succ_eq_map, List.map_cons, found, List.map_map]
    refine congrArg _ (List.map_congr_left ?_)
    intro place _
    exact congrArg row (shift place)

/-- As many notes may be looked up as there are steps, or more. -/
theorem Reads.notesFrom {shown : StringTable} {start : String}
    (reads : Reads (fun place => shown.get? (start ++ "_Note" ++ toString place)) index steps notes) {fuel : Nat}
    (enough : steps ≤ fuel) : notesFrom shown start index fuel = notes := by
  induction reads generalizing fuel with
  | last ended =>
    obtain ⟨fuel, rfl⟩ := Nat.exists_eq_add_of_le' enough
    rcases ended with missing | empty
    · rw [Item.notesFrom, missing]
      rfl
    · rw [Item.notesFrom, empty]
      rfl
  | next found visible _ ih =>
    obtain ⟨fuel, rfl⟩ := Nat.exists_eq_add_of_le' (Nat.le_of_add_left_le enough)
    rw [Item.notesFrom, found, Option.filter_some, if_pos (decide_eq_true visible)]
    exact congrArg (_ :: ·) (ih (Nat.le_of_succ_le_succ enough))

end

section
variable (strings : StringTable) (key : String)

def noteToken (index : Nat) : String :=
  StringTable.tooltipStart ++ key ++ "_Note" ++ toString index

/-- A numbered note without its markup, if the table has one. -/
def note? (index : Nat) : Option String :=
  (strings.get? (noteToken key index)).map Markup.stripTags

theorem noteToken_injective : Function.Injective (noteToken key) := by
  intro first second same
  exact Nat.repr_injective ((String.append_right_inj _).mp same)

/-- A table has too few texts for a row without an end. -/
theorem exists_ends : ∃ count ≤ strings.size, Ends (note? strings key count) := by
  by_contra endless
  -- one token more than there are texts would be known, all of them different
  have known : (List.range (strings.size + 1)).map (noteToken key) ⊆ Members.names strings.tokens := by
    intro token member
    obtain ⟨index, small, rfl⟩ := List.mem_map.mp member
    have going : ¬ Ends (note? strings key index) :=
      fun ended => endless ⟨index, Nat.lt_succ_iff.mp (List.mem_range.mp small), ended⟩
    obtain ⟨text, found, -⟩ := (not_ends_iff _).mp going
    obtain ⟨source, here, -⟩ := Option.map_eq_some_iff.mp found
    exact Members.mem_names_of_at? here
  have apart : ((List.range (strings.size + 1)).map (noteToken key)).Nodup :=
    List.nodup_range.map (noteToken_injective key)
  have fewer := (List.subperm_of_subset apart known).length_le
  rw [List.length_map, List.length_range, Members.names, List.length_map] at fewer
  exact Nat.not_succ_le_self _ fewer

theorem notes_made (tiers : Members Nat) (entry : String × Document) : (made strings tiers entry).value.notes =
    Text.join "\n" (notesOf strings.stripMarkup (StringTable.tooltipStart ++ entry.1)) := by
  rw [made, ofScript]
  cases strings.get? (StringTable.tooltipStart ++ entry.1 ++ "_Description") with
  | none => rfl
  | some template => rfl

variable {strings key} {steps : Nat} {notes : List String}

/-- No more notes are looked at than the table has texts, and one that is missing. -/
theorem Reads.steps_le (reads : Reads (note? strings key) 0 steps notes) : steps ≤ strings.size + 1 := by
  obtain ⟨count, small, ended⟩ := exists_ends strings key
  by_contra many
  exact reads.not_ends (Nat.zero_le count) (by omega) ended

theorem Reads.notes_made (reads : Reads (note? strings key) 0 steps notes) (tiers : Members Nat) (script : Document) :
    (made strings tiers (key, script)).value.notes = Text.join "\n" notes := by
  have row : (fun place => strings.stripMarkup.get? (StringTable.tooltipStart ++ key ++ "_Note" ++ toString place)) =
      note? strings key := funext fun place => StringTable.get?_stripMarkup strings _
  have size : strings.stripMarkup.size = strings.size := List.length_map _
  rw [Item.notes_made, notesOf, size]
  exact congrArg _ ((row ▸ reads).notesFrom reads.steps_le)

/-- A note behind the end of the row is never looked at. -/
theorem Reads.insert (reads : Reads (note? strings key) 0 steps notes) {later : Nat} (behind : steps ≤ later) (text : String) :
    Reads (note? (strings.insert (noteToken key later) text) key) 0 steps notes := by
  apply reads.congr
  intro place before
  have apart : noteToken key later ≠ noteToken key place :=
    fun same => absurd (noteToken_injective key same) (by omega)
  rw [note?, note?, StringTable.get?_insert_of_ne strings text apart]

end

/-- The notes of an item are the texts up to the first one that is missing or empty, without their markup. The row is read to
its end, which takes at most one step more than there are texts. Notes behind the end are never shown. -/
theorem notes_of_row (strings : StringTable) (tiers : Members Nat) (key : String) (script : Document) :
    ∃ count notes, IsLeast {index | Ends (note? strings key index)} count ∧
      notes.map some = (List.range count).map (note? strings key) ∧
      (∀ steps read, Reads (note? strings key) 0 steps read ↔ steps = count + 1 ∧ read = notes) ∧
      count + 1 ≤ strings.size + 1 ∧
      (made strings tiers (key, script)).value.notes = Text.join "\n" notes ∧
      ∀ later, count < later → ∀ text,
        (made (strings.insert (noteToken key later) text) tiers (key, script)).value.notes = Text.join "\n" notes := by
  obtain ⟨last, -, ended⟩ := exists_ends strings key
  have least : IsLeast {index | Ends (note? strings key index)} (sInf {index | Ends (note? strings key index)}) :=
    ⟨Nat.sInf_mem ⟨last, ended⟩, fun _ => Nat.sInf_le⟩
  generalize sInf {index | Ends (note? strings key index)} = count at least
  -- up to the least end all notes are there, and that is what is read
  have going : ∀ place < count, ¬ Ends (note? strings key (0 + place)) := by
    intro place before ends
    rw [Nat.zero_add] at ends
    exact Nat.not_le_of_lt before (least.2 ends)
  obtain ⟨notes, reads, each⟩ := exists_reads (note? strings key) 0 count going (by rw [Nat.zero_add]; exact least.1)
  simp only [Nat.zero_add] at each
  refine ⟨count, notes, least, each, ?_, reads.steps_le, reads.notes_made tiers script, ?_⟩
  · intro steps read
    constructor
    · exact reads.unique
    · rintro ⟨rfl, rfl⟩
      exact reads
  · intro later behind text
    exact (reads.insert behind text).notes_made tiers script

def bladeStrings : StringTable :=
  StringTable.ofTokens [("DOTA_Tooltip_ability_item_blade_Note3", "Behind the end."),
    ("DOTA_Tooltip_ability_item_blade_Note1", "<i>Second</i> note."), ("DOTA_Tooltip_ability_item_blade_Note0", "First note."),
    ("DOTA_Tooltip_ability_item_blade_Note2", "<br>")]

/-- The third note has nothing but markup, so the fourth and all later ones are not shown. -/
theorem notes_of_row_blade : bladeStrings.size = 4 ∧
    (made bladeStrings [] ("item_blade", .table [])).value.notes = "First note.\nSecond note." ∧
    Reads (note? bladeStrings "item_blade") 0 3 ["First note.", "Second note."] ∧
    (made (bladeStrings.insert (noteToken "item_blade" 4) "Fifth note.") [] ("item_blade", .table [])).value.notes =
      "First note.\nSecond note." := by
  obtain ⟨count, notes, least, each, reads, -, shown, more⟩ := notes_of_row bladeStrings [] "item_blade" (.table [])
  have first : note? bladeStrings "item_blade" 0 = some "First note." := by cbv
  have second : note? bladeStrings "item_blade" 1 = some "Second note." := by cbv
  have third : note? bladeStrings "item_blade" 2 = some "" := by cbv
  have here : Reads (note? bladeStrings "item_blade") 0 3 ["First note.", "Second note."] :=
    .next first (by decide) (.next second (by decide) (.last (.inr third)))
  obtain ⟨three, rfl⟩ := (reads _ _).mp here
  have joined : Text.join "\n" ["First note.", "Second note."] = "First note.\nSecond note." := by decide +kernel
  rw [joined] at shown more
  exact ⟨by decide +kernel, shown, here, more 4 (by omega) "Fifth note."⟩

end Item
end Compendium
