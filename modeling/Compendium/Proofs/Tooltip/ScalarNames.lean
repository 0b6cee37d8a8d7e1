import Compendium.Proofs.Tooltip.NameFilling

/-! Names of abilities filled from attributes. The last value of a key counts, and a value that is a table fills nothing, so a
table behind the scalars of its key keeps them from being put in. -/

set_option autoImplicit false
namespace Compendium.NameTokens

section
variable (attributes : AttributeList)

def entries : Members Document :=
  attributes.records.flatten

/-- The entries that are no tables. -/
def scalarEntries : Members Document :=
  (entries attributes).filter fun entry => !entry.2.isTable

def hasScalar (name : String) : Bool :=
  (scalarEntries attributes).any fun entry => entry.1 == name

/-- The same records without their entries that are tables. -/
def withoutTables : AttributeList :=
  ⟨attributes.records.map fun record => record.filter fun entry => !entry.2.isTable⟩

def lastValue? (pairs : Members Document) (name : String) : Option Document :=
  ((pairs.filter fun pair => pair.1 == name).getLast?).map Prod.snd

/-- What the tokens of a name are filled with by values that are no tables: the last of them, as it is shown. -/
def scalarText? (name : String) : Option String :=
  (lastValue? (scalarEntries attributes) name).map Document.display

/-- Neither the keys of scalars nor what is shown for them have braces. -/
def BraceFreeScalars : Prop :=
  ∀ entry ∈ scalarEntries attributes, BraceFree entry.1 ∧ BraceFree entry.2.display

/-- No key has both a table and another value. -/
def Unmixed : Prop :=
  ∀ first ∈ entries attributes, ∀ second ∈ entries attributes, first.1 = second.1 → first.2.isTable = second.2.isTable

/-- A name whose last value is a table, though it has other values. -/
def Shadowed (name : String) : Prop :=
  (∃ value ∈ lastValue? (entries attributes) name, value.isTable = true) ∧ scalarText? attributes name ≠ none

/-- The scalars that are put in, in their order, as they are shown. -/
def shownScalars : Members String :=
  ((lastValues attributes).filter fun entry => !entry.2.isTable).map fun entry => (entry.1, entry.2.display)

end

section
variable {attributes : AttributeList}

theorem fillFlat_eq (template : String) (attributes : AttributeList) : fillFlat template attributes =
    (shownScalars attributes).foldl (fun text entry => Text.replaceAll text (token entry.1) entry.2) template := by
  rw [shownScalars, List.foldl_map]
  rfl

theorem at?_shownScalars (attributes : AttributeList) (name : String) : Members.at? (shownScalars attributes) name =
    ((lastValue? (entries attributes) name).filter fun value => !value.isTable).map Document.display := by
  rw [shownScalars, Members.at?_map _ (fun _ => Document.display), lastValues,
    Members.at?_filter_values (Members.distinct_ofPairs _) fun value : Document => !value.isTable, Members.at?_ofPairs]
  rfl

theorem BraceFreeScalars.shown (free : BraceFreeScalars attributes) :
    ∀ entry ∈ shownScalars attributes, BraceFree entry.1 ∧ BraceFree entry.2 := by
  intro entry shown
  obtain ⟨scalar, member, rfl⟩ := List.mem_map.mp shown
  rw [List.mem_filter] at member
  exact free scalar (List.mem_filter.mpr ⟨Members.mem_of_mem_ofPairs member.1, member.2⟩)

theorem mem_of_lastValue? {pairs : Members Document} {name : String} {value : Document}
    (last : lastValue? pairs name = some value) : (name, value) ∈ pairs := by
  obtain ⟨⟨key, other⟩, found, rfl⟩ := Option.map_eq_some_iff.mp last
  have member := List.mem_filter.mp (List.mem_of_getLast? found)
  obtain rfl : key = name := beq_iff_eq.mp member.2
  exact member.1

theorem BraceFreeScalars.scalarText? (free : BraceFreeScalars attributes) (name value : String)
    (shown : scalarText? attributes name = some value) : BraceFree value := by
  obtain ⟨scalar, last, rfl⟩ := Option.map_eq_some_iff.mp shown
  exact (free _ (mem_of_lastValue? last)).2

theorem lastValue?_scalarEntries {name : String}
    (scalar : ∀ value ∈ lastValue? (entries attributes) name, value.isTable = false) :
    lastValue? (scalarEntries attributes) name = lastValue? (entries attributes) name := by
  unfold lastValue? at scalar ⊢
  rw [scalarEntries, List.filter_comm]
  rcases List.eq_nil_or_concat' ((entries attributes).filter fun pair => pair.1 == name) with none | ⟨before, last, split⟩
  · rw [none, List.filter_nil]
  · have kept : last.2.isTable = false := scalar last.2 (by simp [split])
    rw [split, List.filter_append]
    simp [kept]

/-- Where the last value is a table, nothing is put in, and the scalars before it are lost. -/
theorem at?_shownScalars_of_shadowed {name : String} (shadowed : Shadowed attributes name) :
    Members.at? (shownScalars attributes) name = none := by
  obtain ⟨⟨value, last, table⟩, -⟩ := shadowed
  rw [at?_shownScalars, Option.mem_def.mp last]
  simp [Option.filter, table]

theorem at?_shownScalars_of_not_shadowed {name : String} (visible : ¬ Shadowed attributes name) :
    Members.at? (shownScalars attributes) name = scalarText? attributes name := by
  by_cases table : ∃ value ∈ lastValue? (entries attributes) name, value.isTable = true
  · have nothing : scalarText? attributes name = none := by
      by_contra some
      exact visible ⟨table, some⟩
    obtain ⟨value, last, table⟩ := table
    rw [at?_shownScalars, nothing, Option.mem_def.mp last]
    simp [Option.filter, table]
  · have scalar : ∀ value ∈ lastValue? (entries attributes) name, value.isTable = false := by simpa using table
    rw [at?_shownScalars, scalarText?, lastValue?_scalarEntries scalar]
    cases last : lastValue? (entries attributes) name with
    | none => rfl
    | some value => simp [Option.filter, scalar value last]

theorem Unmixed.not_shadowed (unmixed : Unmixed attributes) (name : String) : ¬ Shadowed attributes name := by
  rintro ⟨⟨value, last, table⟩, shown⟩
  obtain ⟨text, shown⟩ := Option.ne_none_iff_exists'.mp shown
  obtain ⟨scalar, found, -⟩ := Option.map_eq_some_iff.mp shown
  obtain ⟨member, noTable⟩ := List.mem_filter.mp (mem_of_lastValue? found)
  have same := unmixed _ (mem_of_lastValue? last) _ member rfl
  rw [table] at same
  simp [← same] at noTable

theorem fillFlat_written (free : BraceFreeScalars attributes) (pieces : List Piece) :
    fillFlat (written pieces) attributes = String.join (pieces.map (fill (Members.at? (shownScalars attributes)))) := by
  rw [fillFlat_eq, foldl_replaceAll_written free.shown]

theorem fillFlat_written_unmixed (free : BraceFreeScalars attributes) (unmixed : Unmixed attributes) (pieces : List Piece) :
    fillFlat (written pieces) attributes = String.join (pieces.map (fill (scalarText? attributes))) := by
  rw [fillFlat_written free]
  congr 3
  funext name
  exact at?_shownScalars_of_not_shadowed (unmixed.not_shadowed name)

end

section
variable {attributes reordered : AttributeList}

/-- Parts of which no two have anything may stand in any order. -/
theorem flatMap_eq_of_perm {α β : Type} {part : α → List β} {first second : List α} (perm : first.Perm second)
    (apart : first.Pairwise fun one other => part one = [] ∨ part other = []) : first.flatMap part = second.flatMap part := by
  induction perm with
  | nil => rfl
  | cons head perm ih => rw [List.flatMap_cons, List.flatMap_cons, ih (List.pairwise_cons.mp apart).2]
  | swap one other rest =>
    rcases (List.pairwise_cons.mp apart).1 one List.mem_cons_self with none | none
    · simp [none]
    · simp [none]
  | trans perm _ ih again => rw [ih apart, again (perm.pairwise apart Or.symm)]

theorem lastValue?_scalarEntries_eq (attributes : AttributeList) (name : String) :
    lastValue? (scalarEntries attributes) name = ((attributes.records.flatMap fun record =>
      record.filter fun entry => entry.1 == name && !entry.2.isTable).getLast?).map Prod.snd := by
  rw [lastValue?, scalarEntries, entries, List.filter_filter, List.filter_flatten, List.flatMap_def]

/-- No name has entries in two records that keep their names apart. -/
theorem filter_eq_nil_or {first second : Members Document} (apart : (Members.names first).Disjoint (Members.names second))
    (name : String) (keep : Document → Bool) : (first.filter fun entry => entry.1 == name && keep entry.2) = [] ∨
      (second.filter fun entry => entry.1 == name && keep entry.2) = [] := by
  have named (record : Members Document) (some : (record.filter fun entry => entry.1 == name && keep entry.2) ≠ []) :
      name ∈ Members.names record := by
    obtain ⟨entry, member⟩ := List.exists_mem_of_ne_nil _ some
    rw [List.mem_filter, Bool.and_eq_true, beq_iff_eq] at member
    exact List.mem_map.mpr ⟨entry, member.1, member.2.1⟩
  by_contra both
  rw [not_or] at both
  exact apart (named first both.1) (named second both.2)

theorem scalarText?_reordered (perm : reordered.records.Perm attributes.records)
    (apart : attributes.records.Pairwise fun first second => (Members.names first).Disjoint (Members.names second))
    (name : String) : scalarText? reordered name = scalarText? attributes name := by
  have alone : attributes.records.Pairwise fun first second =>
      (first.filter fun entry => entry.1 == name && !entry.2.isTable) = [] ∨
        (second.filter fun entry => entry.1 == name && !entry.2.isTable) = [] :=
    apart.imp fun apart => filter_eq_nil_or apart name fun value => !value.isTable
  rw [scalarText?, scalarText?, lastValue?_scalarEntries_eq, lastValue?_scalarEntries_eq,
    flatMap_eq_of_perm perm.symm alone]

theorem mem_entries_of_perm (perm : reordered.records.Perm attributes.records) {entry : String × Document}
    (member : entry ∈ entries reordered) : entry ∈ entries attributes := by
  obtain ⟨record, present, inside⟩ := List.mem_flatten.mp member
  exact List.mem_flatten.mpr ⟨record, perm.mem_iff.mp present, inside⟩

theorem BraceFreeScalars.of_perm (free : BraceFreeScalars attributes) (perm : reordered.records.Perm attributes.records) :
    BraceFreeScalars reordered := by
  intro entry member
  obtain ⟨inside, scalar⟩ := List.mem_filter.mp member
  exact free entry (List.mem_filter.mpr ⟨mem_entries_of_perm perm inside, scalar⟩)

theorem Unmixed.of_perm (unmixed : Unmixed attributes) (perm : reordered.records.Perm attributes.records) :
    Unmixed reordered := by
  intro first member second also
  exact unmixed first (mem_entries_of_perm perm member) second (mem_entries_of_perm perm also)

/-- All tokens are filled at once: each with the last scalar of its name, if there is one. Everything else stays. So records may
be put in another order, if no two of them share a key. -/
theorem fillFlat_simultaneous (free : BraceFreeScalars attributes) (unmixed : Unmixed attributes) (pieces : List Piece) :
    fillFlat (written pieces) attributes = String.join (pieces.map (fill (scalarText? attributes))) ∧
    ∀ reordered : AttributeList, reordered.records.Perm attributes.records →
      (attributes.records.Pairwise fun first second => (Members.names first).Disjoint (Members.names second)) →
      fillFlat (written pieces) reordered = fillFlat (written pieces) attributes := by
  refine ⟨fillFlat_written_unmixed free unmixed pieces, ?_⟩
  intro reordered perm apart
  rw [fillFlat_written_unmixed free unmixed, fillFlat_written_unmixed (free.of_perm perm) (unmixed.of_perm perm),
    funext (scalarText?_reordered perm apart)]

/-- One key begins another, and what is shown for that one is the first key. -/
theorem fillFlat_simultaneous_prefix :
    let attributes : AttributeList := ⟨[[("slow", .table [("value", .text "4")])], [("dmg", .text "30")], [("dmg_tip", .text "dmg")]]⟩
    let template := "\x7bs:dmg_tip\x7d: \x7bs:dmg\x7d, \x7bs:slow\x7d"
    fillFlat template attributes = "dmg: 30, \x7bs:slow\x7d" ∧
    fillFlat template ⟨attributes.records.reverse⟩ = "dmg: 30, \x7bs:slow\x7d" := by
  intro attributes template
  let pieces : List Piece := [.token "dmg_tip" (by decide), .text ": " (by decide), .token "dmg" (by decide),
    .text ", " (by decide), .token "slow" (by decide)]
  have spelled : written pieces = template := by decide +kernel
  have shown : String.join (pieces.map (fill (scalarText? attributes))) = "dmg: 30, \x7bs:slow\x7d" := by decide +kernel
  have free : BraceFreeScalars attributes := by
    unfold BraceFreeScalars
    decide +kernel
  have unmixed : Unmixed attributes := by
    unfold Unmixed
    decide +kernel
  obtain ⟨filled, moved⟩ := fillFlat_simultaneous free unmixed pieces
  rw [spelled, shown] at filled
  refine ⟨filled, ?_⟩
  rw [← filled, ← spelled]
  apply moved ⟨attributes.records.reverse⟩ (List.reverse_perm _)
  simp [attributes, Members.names]

end

section
variable {attributes : AttributeList}

theorem entries_withoutTables : entries (withoutTables attributes) = scalarEntries attributes :=
  List.filter_flatten.symm

theorem scalarEntries_withoutTables : scalarEntries (withoutTables attributes) = scalarEntries attributes := by
  rw [scalarEntries, entries_withoutTables, scalarEntries, List.filter_filter]
  simp only [Bool.and_self]

theorem unmixed_withoutTables : Unmixed (withoutTables attributes) := by
  intro first member second also _
  rw [entries_withoutTables, scalarEntries, List.mem_filter, Bool.not_eq_true'] at member also
  rw [member.2, also.2]

theorem BraceFreeScalars.withoutTables (free : BraceFreeScalars attributes) :
    BraceFreeScalars (withoutTables attributes) := by
  rwa [BraceFreeScalars, scalarEntries_withoutTables]

theorem Unmixed.hasScalar_eq (unmixed : Unmixed attributes) {entry : String × Document}
    (member : entry ∈ entries attributes) : (!entry.2.isTable) = hasScalar attributes entry.1 := by
  rw [Bool.eq_iff_iff, hasScalar, List.any_eq_true]
  constructor
  · intro scalar
    exact ⟨entry, List.mem_filter.mpr ⟨member, scalar⟩, beq_self_eq_true _⟩
  · rintro ⟨other, also, same⟩
    obtain ⟨also, scalar⟩ := List.mem_filter.mp also
    rwa [unmixed entry member other also (beq_iff_eq.mp same).symm]

/-- Under names that have no tables beside them, the same scalars are put in, and in the same order. -/
theorem shownScalars_withoutTables (unmixed : Unmixed attributes) :
    shownScalars (withoutTables attributes) = shownScalars attributes := by
  have kept : ∀ entry ∈ entries attributes, (!entry.2.isTable) = hasScalar attributes entry.1 :=
    fun entry member => unmixed.hasScalar_eq member
  have scalars : scalarEntries attributes = (entries attributes).filter fun entry => hasScalar attributes entry.1 :=
    List.filter_congr kept
  have written : (lastValues (withoutTables attributes)).filter (fun entry => !entry.2.isTable) =
      lastValues (withoutTables attributes) := by
    rw [List.filter_eq_self]
    intro entry member
    have member : entry ∈ entries (withoutTables attributes) := Members.mem_of_mem_ofPairs member
    rw [entries_withoutTables] at member
    exact (List.mem_filter.mp member).2
  rw [shownScalars, shownScalars, written]
  congr 1
  calc lastValues (withoutTables attributes)
    _ = Members.ofPairs (scalarEntries attributes) := congrArg Members.ofPairs entries_withoutTables
    _ = (lastValues attributes).filter fun entry => hasScalar attributes entry.1 := by rw [scalars, ← Members.filter_ofPairs]; rfl
    _ = (lastValues attributes).filter fun entry => !entry.2.isTable :=
      (List.filter_congr fun entry member => kept entry (Members.mem_of_mem_ofPairs member)).symm

/-- Tables may be left out where no key has another value beside them. Where neither keys nor values have braces, they may just
if the template names no key that a table has taken from its scalars. -/
theorem fillFlat_withoutTables (attributes : AttributeList) :
    (Unmixed attributes → ∀ template, fillFlat template (withoutTables attributes) = fillFlat template attributes) ∧
    (BraceFreeScalars attributes → ∀ pieces : List Piece,
      (fillFlat (written pieces) (withoutTables attributes) = fillFlat (written pieces) attributes ↔
        ∀ name inside, .token name inside ∈ pieces → ¬ Shadowed attributes name)) := by
  constructor
  · intro unmixed template
    rw [fillFlat_eq, fillFlat_eq, shownScalars_withoutTables unmixed]
  · intro free pieces
    have all : scalarText? (withoutTables attributes) = scalarText? attributes := by
      funext name
      rw [scalarText?, scalarText?, scalarEntries_withoutTables]
    rw [fillFlat_written_unmixed free.withoutTables unmixed_withoutTables, all, fillFlat_written free]
    constructor
    · intro same name inside member shadowed
      have within (name : String) (absent : scalarText? attributes name = none) :
          Members.at? (shownScalars attributes) name = none := by
        by_cases shadowed : Shadowed attributes name
        · exact at?_shownScalars_of_shadowed shadowed
        · rwa [at?_shownScalars_of_not_shadowed shadowed]
      refine shadowed.2 (stays_of_fill_eq ?_ free.scalarText? within same member (at?_shownScalars_of_shadowed shadowed))
      exact fun key value found => (free.shown _ (Members.mem_of_at? found)).2
    · intro visible
      congr 1
      apply List.map_congr_left
      intro piece member
      cases piece with
      | text content inside => rfl
      | token name inside => rw [fill, fill, at?_shownScalars_of_not_shadowed (visible name inside member)]

/-- A table with a key of its own may be left out of any template, one that takes a key only where the key is not named. -/
theorem fillFlat_withoutTables_unnamed :
    let nested := "\x7bs:\x7bs:dmg\x7d\x7d"
    let own : AttributeList := ⟨[[("dmg", .text "30")], [("slow", .table [("value", .text "4")])]]⟩
    let taken : AttributeList := ⟨[[("dmg", .text "30")], [("slow", .text "5")], [("slow", .table [("value", .text "4")])]]⟩
    fillFlat nested (withoutTables own) = fillFlat nested own ∧
    fillFlat "\x7bs:dmg\x7d" (withoutTables taken) = fillFlat "\x7bs:dmg\x7d" taken := by
  intro nested own taken
  have unmixed : Unmixed own := by
    unfold Unmixed
    decide +kernel
  have free : BraceFreeScalars taken := by
    unfold BraceFreeScalars
    decide +kernel
  let pieces : List Piece := [.token "dmg" (by decide)]
  have spelled : written pieces = "\x7bs:dmg\x7d" := by decide +kernel
  refine ⟨(fillFlat_withoutTables own).1 unmixed nested, ?_⟩
  rw [← spelled, ((fillFlat_withoutTables taken).2 free pieces)]
  intro name inside member shadowed
  obtain ⟨rfl, -⟩ : name = "dmg" ∧ True := by simpa [pieces] using member
  obtain ⟨⟨value, last, table⟩, -⟩ := shadowed
  have scalar : lastValue? (entries taken) "dmg" = some (.text "30") := by rfl
  rw [scalar] at last
  obtain rfl := Option.some.inj last
  cases table

/-- The scalar of a key is lost behind a table, and its token stays. A table in front of it gives the key an earlier place, and
the token is put in too late to be filled. -/
theorem fillFlat_ne_withoutTables :
    let behind : AttributeList := ⟨[[("slow", .text "5")], [("slow", .table [("value", .text "4")])]]⟩
    let before : AttributeList :=
      ⟨[[("slow", .table [("value", .text "4")])], [("tip", .text "\x7bs:slow\x7d")], [("slow", .text "5")]]⟩
    fillFlat "\x7bs:slow\x7d" behind = "\x7bs:slow\x7d" ∧ fillFlat "\x7bs:slow\x7d" (withoutTables behind) = "5" ∧
    fillFlat "\x7bs:tip\x7d" before = "\x7bs:slow\x7d" ∧ fillFlat "\x7bs:tip\x7d" (withoutTables before) = "5" := by
  decide +kernel

end

end Compendium.NameTokens
