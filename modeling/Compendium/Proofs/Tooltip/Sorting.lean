import Compendium.Proofs.Document.Names
import Compendium.Tooltip.ItemText

/-! Lines sorted into hints and sections. What becomes of a line does not depend on the other lines, and sorting loses
nothing, repeats nothing and keeps the order of the lines under every kind. -/

set_option autoImplicit false
namespace Compendium

namespace LineReading

def hints : LineReading → List String
  | .hint text => [text]
  | _ => []

def entries : LineReading → List (String × Section)
  | .entry kind content => [(kind, content)]
  | _ => []

def notices (line : String) : LineReading → List Notice
  | .malformed => [.malformedHeader line]
  | _ => []

theorem length_parts (reading : LineReading) (line : String) :
    reading.hints.length + reading.entries.length + (reading.notices line).length = 1 := by
  cases reading with
  | hint text => rfl
  | entry kind content => rfl
  | malformed => rfl

end LineReading

namespace ItemText

variable (script : Document)

/-- Sections after another entry. -/
def group (sections : Members (List Section)) (entry : String × Section) : Members (List Section) :=
  Members.put sections entry.1 ((Members.at? sections entry.1).getD [] ++ [entry.2])

theorem addLine_eq (item : ItemText) (line : String) :
    let reading := readLine script line
    addLine script item line =
      ⟨⟨item.hints ++ reading.hints, reading.entries.foldl group item.sections⟩, reading.notices line⟩ := by
  intro reading
  rw [addLine, show readLine script line = reading from rfl]
  cases reading with
  | hint text => rfl
  | entry kind content => simp [LineReading.hints, LineReading.entries, LineReading.notices, addEntry, group, pure]
  | malformed => simp [LineReading.hints, LineReading.entries, LineReading.notices, Report.tell, bind, Report.bind, pure]

def entriesOf (lines : List String) : List (String × Section) :=
  lines.flatMap fun line => (readLine script line).entries

theorem foldlM_addLine (item : ItemText) (lines : List String) :
    lines.foldlM (addLine script) item =
      ⟨⟨item.hints ++ lines.flatMap fun line => (readLine script line).hints,
        (entriesOf script lines).foldl group item.sections⟩,
        lines.flatMap fun line => (readLine script line).notices line⟩ := by
  induction lines generalizing item with
  | nil => simp [entriesOf, pure]
  | cons line rest ih =>
    rw [List.foldlM_cons, addLine_eq]
    simp only [bind, Report.bind, ih]
    simp [entriesOf, List.foldl_append]

theorem ofLines_eq (lines : List String) : ofLines lines script =
    ⟨⟨lines.flatMap fun line => (readLine script line).hints, (entriesOf script lines).foldl group []⟩,
      lines.flatMap fun line => (readLine script line).notices line⟩ :=
  foldlM_addLine script empty lines

section
variable {script} {line hint : String}

theorem eq_readHint (read : readLine script line = .hint hint) : hint = readHint script line := by
  rw [readLine] at read
  split at read
  · split at read
    · cases read
    · cases read
  · exact (LineReading.hint.inj read).symm

theorem exists_line_of_hint {lines : List String} (member : hint ∈ (ofLines lines script).value.hints) :
    ∃ line ∈ lines, hint = readHint script line := by
  rw [ofLines_eq] at member
  obtain ⟨line, inside, found⟩ := List.mem_flatMap.mp member
  refine ⟨line, inside, ?_⟩
  cases read : readLine script line with
  | hint text =>
    rw [read, LineReading.hints, List.mem_singleton] at found
    exact found.trans (eq_readHint read)
  | entry kind content =>
    rw [read] at found
    cases found
  | malformed =>
    rw [read] at found
    cases found

end

section
variable (sections : Members (List Section)) (entries : List (String × Section))

theorem names_foldl_group (distinct : Members.Distinct sections) : Members.names (entries.foldl group sections) =
    (Members.names sections ++ entries.map Prod.fst).eraseDups := by
  induction entries generalizing sections with
  | nil => simp [eraseDups_of_nodup distinct]
  | cons entry rest ih =>
    -- a kind that is there already keeps its place
    have still : Members.Distinct (group sections entry) := Members.distinct_put distinct _ _
    rw [List.foldl_cons, ih _ still, group, Members.names_put_of_distinct distinct, eraseDups_eraseDups_append]
    simp

/-- What stands under a kind. -/
def under (kind : String) : List Section :=
  (Members.at? sections kind).getD []

theorem under_foldl_group (kind : String) : under (entries.foldl group sections) kind =
    under sections kind ++ (entries.filter fun entry => entry.1 == kind).map Prod.snd := by
  induction entries generalizing sections with
  | nil => simp
  | cons entry rest ih =>
    rw [List.foldl_cons, ih, under, group, Members.at?_put]
    by_cases same : entry.1 = kind
    · subst same
      simp [under]
    · simp [under, same]

def count : Nat :=
  (sections.flatMap fun entry => entry.2).length

theorem count_cons (kind : String) (contents : List Section) :
    count ((kind, contents) :: sections) = contents.length + count sections := by
  rw [count, List.flatMap_cons, List.length_append]
  rfl

theorem count_put (kind : String) (contents : List Section) :
    count (Members.put sections kind contents) + (under sections kind).length = count sections + contents.length := by
  induction sections with
  | nil => simp [Members.put, count, under, Members.at?]
  | cons entry rest ih =>
    obtain ⟨name, old⟩ := entry
    rw [under] at ih ⊢
    rw [Members.put, Members.at?]
    split
    · rw [count_cons, count_cons, Option.getD_some]
      omega
    · rw [count_cons, count_cons]
      omega

theorem count_foldl_group : count (entries.foldl group sections) = count sections + entries.length := by
  induction entries generalizing sections with
  | nil => rfl
  | cons entry rest ih =>
    have put := count_put sections entry.1 (under sections entry.1 ++ [entry.2])
    rw [List.foldl_cons, ih, group, ← under, List.length_cons]
    simp only [List.length_append, List.length_singleton] at put
    omega

theorem forall_group_iff (P : String → Prop) (Q : Section → Prop) (entry : String × Section) :
    (∀ grouped ∈ group sections entry, P grouped.1 ∧ ∀ content ∈ grouped.2, Q content) ↔
      (∀ grouped ∈ sections, P grouped.1 ∧ ∀ content ∈ grouped.2, Q content) ∧ P entry.1 ∧ Q entry.2 := by
  rw [group]
  induction sections with
  | nil => simp [Members.put, Members.at?]
  | cons first rest ih =>
    obtain ⟨name, old⟩ := first
    by_cases same : name = entry.1
    · subst same
      simp only [Members.put, Members.at?, if_true, Option.getD_some, List.forall_mem_cons, List.forall_mem_append]
      grind
    · simp only [Members.put, Members.at?, same, if_false, List.forall_mem_cons, ih, and_assoc]

theorem forall_foldl_group_iff (P : String → Prop) (Q : Section → Prop) :
    (∀ grouped ∈ entries.foldl group sections, P grouped.1 ∧ ∀ content ∈ grouped.2, Q content) ↔
      (∀ grouped ∈ sections, P grouped.1 ∧ ∀ content ∈ grouped.2, Q content) ∧
        ∀ entry ∈ entries, P entry.1 ∧ Q entry.2 := by
  induction entries generalizing sections with
  | nil => simp
  | cons entry rest ih => rw [List.foldl_cons, ih, forall_group_iff, List.forall_mem_cons, and_assoc]

end

/-- What holds of all sections holds of all entries that lines give, and the other way round. -/
theorem forall_sections_ofLines_iff (lines : List String) (P : String → Prop) (Q : Section → Prop) :
    (∀ grouped ∈ (ofLines lines script).value.sections, P grouped.1 ∧ ∀ content ∈ grouped.2, Q content) ↔
      ∀ line ∈ lines, ∀ kind content, readLine script line = .entry kind content → P kind ∧ Q content := by
  rw [ofLines_eq, forall_foldl_group_iff]
  constructor
  · rintro ⟨-, all⟩ line member kind content read
    exact all (kind, content) (List.mem_flatMap.mpr ⟨line, member, by simp [read, LineReading.entries]⟩)
  · intro all
    refine ⟨by simp, ?_⟩
    rintro ⟨kind, content⟩ member
    obtain ⟨line, inside, entry⟩ := List.mem_flatMap.mp member
    apply all line inside kind content
    cases read : readLine script line with
    | hint text => simp [read, LineReading.entries] at entry
    | entry other found =>
      rw [read, LineReading.entries, List.mem_singleton] at entry
      rw [(Prod.mk.inj entry).1, (Prod.mk.inj entry).2]
    | malformed => simp [read, LineReading.entries] at entry

theorem length_flatMap_parts (lines : List String) :
    (lines.flatMap fun line => (readLine script line).hints).length + (entriesOf script lines).length +
      (lines.flatMap fun line => (readLine script line).notices line).length = lines.length := by
  induction lines with
  | nil => rfl
  | cons line rest ih =>
    have one := (readLine script line).length_parts line
    simp only [entriesOf, List.flatMap_cons, List.length_append, List.length_cons] at ih ⊢
    omega

theorem ofLines_singleton (line : String) : ofLines [line] script =
    ⟨⟨(readLine script line).hints, (readLine script line).entries.map fun entry => (entry.1, [entry.2])⟩,
      (readLine script line).notices line⟩ := by
  rw [ofLines_eq]
  cases shape : readLine script line with
  | hint text => simp [entriesOf, shape, LineReading.entries]
  | entry kind content => simp [entriesOf, shape, LineReading.entries, group, Members.put, Members.at?]
  | malformed => simp [entriesOf, shape, LineReading.entries]

theorem sectionsOf_ofLines (lines : List String) (kind : String) : (ofLines lines script).value.sectionsOf kind =
    ((entriesOf script lines).filter fun entry => entry.1 == kind).map Prod.snd := by
  rw [ofLines_eq]
  exact under_foldl_group [] _ kind

theorem names_ofLines (lines : List String) : Members.names (ofLines lines script).value.sections =
    ((entriesOf script lines).map Prod.fst).eraseDups := by
  rw [ofLines_eq]
  exact names_foldl_group [] _ List.nodup_nil

/-- Each line alone gives one hint, one entry of a section or one notice, and what many lines give is put together from
these in the order of the lines. -/
theorem ofLines_partition (script : Document) (lines : List String) :
    let sorted := ofLines lines script
    let alone := fun line => ofLines [line] script
    (∀ line, (∃ hint, alone line = ⟨⟨[hint], []⟩, []⟩) ∨
      (∃ kind content, alone line = ⟨⟨[], [(kind, [content])]⟩, []⟩) ∨
      alone line = ⟨⟨[], []⟩, [.malformedHeader line]⟩) ∧
    sorted.value.hints = (lines.flatMap fun line => (alone line).value.hints) ∧
    (∀ kind, sorted.value.sectionsOf kind = lines.flatMap fun line => (alone line).value.sectionsOf kind) ∧
    Members.names sorted.value.sections =
      (lines.flatMap fun line => Members.names (alone line).value.sections).eraseDups ∧
    sorted.notices = (lines.flatMap fun line => (alone line).notices) ∧
    sorted.value.hints.length + (sorted.value.sections.flatMap fun entry => entry.2).length + sorted.notices.length =
      lines.length := by
  intro sorted alone
  refine ⟨?_, ?_, ?_, ?_, ?_, ?_⟩
  · intro line
    rw [show alone line = _ from ofLines_singleton script line]
    cases readLine script line with
    | hint text => exact .inl ⟨text, rfl⟩
    | entry kind content => exact .inr (.inl ⟨kind, content, rfl⟩)
    | malformed => exact .inr (.inr rfl)
  · simp only [sorted, alone, ofLines_singleton]
    rw [ofLines_eq]
  · intro kind
    simp only [sorted, alone, sectionsOf_ofLines, entriesOf, List.filter_flatMap, List.map_flatMap]
    simp
  · have alike (line : String) :
        Members.names (alone line).value.sections = (readLine script line).entries.map Prod.fst := by
      simp [alone, ofLines_singleton, Members.names]
    simp only [sorted, alike, names_ofLines, entriesOf, List.map_flatMap]
  · simp only [sorted, alone, ofLines_singleton]
    rw [ofLines_eq]
  · have total := length_flatMap_parts script lines
    have entries := count_foldl_group [] (entriesOf script lines)
    simp only [count, List.flatMap_nil, List.length_nil, Nat.zero_add] at entries
    simp only [sorted, ofLines_eq]
    rw [entries]
    exact total

end ItemText
end Compendium
