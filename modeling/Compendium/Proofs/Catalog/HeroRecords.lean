import Compendium.Catalog.Hero
import Compendium.Proofs.Document.Members
import Mathlib

/-! Heroes as they are published. Both documents hold the heroes that the scripts make in the order of their numbers,
with the corrections of each number put over them. -/

set_option autoImplicit false
namespace Compendium

namespace Script

theorem digitsValue?_le {digits : List Char} {value : Int} (read : digitsValue? digits = some value) :
    0 ≤ value ∧ value ≤ Number.greatestInteger := by
  rw [digitsValue?] at read
  split at read
  · cases read
  · next small =>
    rw [not_or, Int.not_lt] at small
    cases read
    exact ⟨Int.natCast_nonneg _, small.2⟩

theorem leadingInteger?_le {document : Document} {value : Int} (read : leadingInteger? document = some value) :
    value ≤ Number.greatestInteger := by
  cases document with
  | number number =>
    cases read
    cases number with
    | integer value => exact min_le_right _ _
    | double value =>
      have least : Number.leastInteger ≤ Number.greatestInteger := by decide
      exact max_le least (min_le_right _ _)
  | text text =>
    simp only [leadingInteger?, leadingDigits?] at read
    obtain ⟨unsigned, digits, rfl⟩ := Option.map_eq_some_iff.mp read
    obtain ⟨positive, small⟩ := digitsValue?_le digits
    cases (cutSign (Text.trimStart text.toList)).1 with
    | false => exact small
    | true => exact (neg_le_self positive).trans small
  | _ => cases read

end Script

namespace Hero

section
variable (strings : StringTable) (base : Document)

/-- Whether a script may make a hero. -/
def isKept (entry : String × Document) : Bool :=
  !excluded.contains entry.1

def number? (entry : String × Document) : Option Int :=
  Script.integerField? entry.2 "HeroID"

/-- The hero that a script makes, if it has a number. -/
def made? (entry : String × Document) : Option Hero :=
  (number? entry).map (ofScript strings base entry.1 entry.2)

/-- What is told of a script that makes no hero. -/
def missing? (entry : String × Document) : Option Notice :=
  if (number? entry).isNone then some (.heroWithoutId entry.1) else none

theorem read_eq (entry : String × Document) : read strings base entry =
    ⟨made? strings base entry, (missing? entry).toList⟩ := by
  rw [read, made?, missing?, number?]
  cases Script.integerField? entry.2 "HeroID" <;> rfl

variable {strings base} {entry : String × Document} {hero : Hero}

theorem name_of_made? (made : made? strings base entry = some hero) : hero.name = entry.1 := by
  obtain ⟨id, -, rfl⟩ := Option.map_eq_some_iff.mp made
  rfl

theorem number?_of_made? (made : made? strings base entry = some hero) : number? entry = some hero.id := by
  obtain ⟨id, read, rfl⟩ := Option.map_eq_some_iff.mp made
  exact read

theorem id_le_of_made? (made : made? strings base entry = some hero) : hero.id ≤ Number.greatestInteger := by
  obtain ⟨field, -, read⟩ := Option.bind_eq_some_iff.mp (number?_of_made? made)
  exact Script.leadingInteger?_le read

theorem names_stats_of_made? (made : made? strings base entry = some hero) :
    Members.names hero.stats = statFields.map StatField.name := by
  obtain ⟨id, -, rfl⟩ := Option.map_eq_some_iff.mp made
  rfl

theorem distinct_toMembers (made : made? strings base entry = some hero) : Members.Distinct hero.toMembers := by
  have names : Members.names hero.toMembers =
      ["id", "name", "localized_name", "primary_attr", "attack_type", "roles", "img", "icon"] ++
        Members.names hero.stats ++ ["cm_enabled", "legs"] := by
    simp [toMembers, Members.names]
  rw [Members.Distinct, names, names_stats_of_made? made]
  decide

end

section
variable {document : Document} {scripts : Members Document}

/-- The script that others inherit from. -/
def baseOf (scripts : Members Document) : Document :=
  (Members.at? scripts baseName).getD (.table [])

/-- The heroes that the scripts make, in the order of the scripts. -/
def unsorted (strings : StringTable) (scripts : Members Document) : List Hero :=
  (scripts.filter isKept).filterMap (made? strings (baseOf scripts))

/-- The same heroes in the order of their numbers. -/
def sorted (strings : StringTable) (scripts : Members Document) : List Hero :=
  (unsorted strings scripts).mergeSort fun a b => a.id ≤ b.id

theorem ofDocument_eq (strings : StringTable) (block : document.member? "DOTAHeroes" = some (.table scripts)) :
    ofDocument strings document = .ok ⟨sorted strings scripts, (scripts.filter isKept).filterMap missing?⟩ := by
  have found : Script.block document "DOTAHeroes" "npc_heroes.json" = .ok scripts := by
    rw [Script.block, block]
    rfl
  have reads : (scripts.filter isKept).mapM (read strings (baseOf scripts)) =
      ⟨(scripts.filter isKept).map (made? strings (baseOf scripts)), (scripts.filter isKept).filterMap missing?⟩ := by
    rw [Report.mapM_eq]
    simp [read_eq, List.filterMap_eq_flatMap_toList]
  rw [ofDocument, found]
  refine congrArg Except.ok ?_
  change (scripts.filter isKept).mapM (read strings (baseOf scripts)) >>= _ = _
  have heroes : ((scripts.filter isKept).map (made? strings (baseOf scripts))).reduceOption =
      unsorted strings scripts := by
    rw [List.reduceOption, List.filterMap_map]
    rfl
  rw [reads]
  refine congrArg₂ Report.mk ?_ (List.append_nil _)
  rw [sorted, ← heroes]
  rfl

theorem sorted_perm (strings : StringTable) : (sorted strings scripts).Perm (unsorted strings scripts) :=
  List.mergeSort_perm _ _

theorem mem_sorted_iff {strings : StringTable} {hero : Hero} : hero ∈ sorted strings scripts ↔
    ∃ entry ∈ scripts, isKept entry = true ∧ made? strings (baseOf scripts) entry = some hero := by
  rw [(sorted_perm strings).mem_iff]
  simp [unsorted, List.mem_filterMap, List.mem_filter, and_assoc]

theorem ids_unsorted (strings : StringTable) :
    (unsorted strings scripts).map Hero.id = (scripts.filter isKept).filterMap number? := by
  rw [unsorted, List.map_filterMap]
  apply List.filterMap_congr
  intro entry _
  rw [made?, Option.map_map]
  exact Option.map_id'

/-- Numbers that are pairwise distinct strictly ascend. -/
theorem ascending_sorted (strings : StringTable) (distinct : ((scripts.filter isKept).filterMap number?).Nodup) :
    (sorted strings scripts).Pairwise fun a b => a.id < b.id := by
  have weakly : (sorted strings scripts).Pairwise fun a b => decide (a.id ≤ b.id) = true := by
    apply List.pairwise_mergeSort
    · intro a b c first second
      simp only [decide_eq_true_eq] at *
      omega
    · intro a b
      simp only [Bool.or_eq_true, decide_eq_true_eq]
      omega
  have apart : ((sorted strings scripts).map Hero.id).Nodup := by
    rw [((sorted_perm strings).map Hero.id).nodup_iff, ids_unsorted]
    exact distinct
  refine weakly.imp₂ ?_ (List.pairwise_map.mp apart)
  intro a b ordered differ
  exact lt_of_le_of_ne (of_decide_eq_true ordered) differ

theorem nodup_names_sorted (strings : StringTable) (distinct : Members.Distinct scripts) :
    ((sorted strings scripts).map Hero.name).Nodup := by
  rw [((sorted_perm strings).map Hero.name).nodup_iff]
  have apart : (scripts.filter isKept).Pairwise fun first second => first.1 ≠ second.1 :=
    (List.pairwise_map.mp distinct).filter _
  refine List.pairwise_map.mpr (apart.filterMap _ ?_)
  intro first second differ hero made other also
  rw [name_of_made? made, name_of_made? also]
  exact differ

end

section
variable {strings : StringTable} {base : Document} {entry : String × Document} {hero : Hero}

/-- The members that a number's record is corrected by. -/
def corrections (overrides : Option Document) (id : Int) : Members Document :=
  ((overrides.bind fun all => all.member? (toString id)).bind Document.members?).getD []

/-- The number that corrected members tell, if they tell one. -/
def corrected? (fields : Members Document) : Option Int :=
  (Members.at? fields "id").bind Script.leadingInteger?

/-- A hero's members with others put over them or added. The number is an integer whatever it is corrected to. -/
structure Corrected (hero : Hero) (fields record : Members Document) : Prop where
  names : Members.names record = Members.names hero.toMembers ++
    (Members.names fields).filter fun key => key ∉ Members.names hero.toMembers
  number : Members.at? record "id" = some (.integer ((corrected? fields).getD hero.id))
  others : ∀ key, key ≠ "id" → Members.at? record key = (Members.at? fields key).or (Members.at? hero.toMembers key)

theorem distinct_corrections {overrides : Option Document} (wellFormed : ∀ all ∈ overrides, all.WellFormed) (id : Int) :
    Members.Distinct (corrections overrides id) := by
  rw [corrections]
  cases told : (overrides.bind fun all => all.member? (toString id)).bind Document.members? with
  | none => exact List.nodup_nil
  | some fields =>
    obtain ⟨document, found, table⟩ := Option.bind_eq_some_iff.mp told
    obtain ⟨all, given, found⟩ := Option.bind_eq_some_iff.mp found
    cases document with
    | table members =>
      cases table
      exact ((wellFormed all given).member? found).distinct
    | _ => cases table

theorem leadingInteger?_id (small : hero.id ≤ Number.greatestInteger) :
    Script.leadingInteger? (.integer hero.id) = some hero.id :=
  congrArg some (min_eq_left small)

/-- Without corrections the number is read from the hero's own members and put back as it was. -/
theorem override_nil (small : hero.id ≤ Number.greatestInteger) : hero.override [] = hero.toMembers := by
  have id : (Members.at? hero.toMembers "id").bind Script.leadingInteger? = some hero.id := leadingInteger?_id small
  rw [override, show Members.putAll hero.toMembers [] = hero.toMembers from rfl, id]
  rfl

theorem published_eq (overrides : Option Document) (small : hero.id ≤ Number.greatestInteger) :
    published overrides hero = hero.override (corrections overrides hero.id) := by
  rw [published, corrections]
  cases (overrides.bind fun all => all.member? (toString hero.id)).bind Document.members? with
  | none => exact (override_nil small).symm
  | some fields => rfl

theorem at?_putAll_fields {fields : Members Document} (distinct : Members.Distinct fields) (key : String) :
    Members.at? (Members.putAll hero.toMembers fields) key =
      (Members.at? fields key).or (Members.at? hero.toMembers key) := by
  rw [Members.at?_putAll, Members.at?_reverse distinct]

theorem corrected_override (made : made? strings base entry = some hero) {fields : Members Document}
    (distinct : Members.Distinct fields) : Corrected hero fields (hero.override fields) := by
  have known : "id" ∈ Members.names (Members.putAll hero.toMembers fields) := by
    rw [Members.names_putAll (distinct_toMembers made), List.mem_eraseDups, List.mem_append]
    exact .inl List.mem_cons_self
  refine ⟨?_, ?_, ?_⟩
  · have once : (Members.names fields).eraseDups = Members.names fields := eraseDups_of_nodup distinct
    have own : (Members.names hero.toMembers).eraseDups = Members.names hero.toMembers :=
      eraseDups_of_nodup (distinct_toMembers made)
    rw [override, Members.names_put, if_pos known, Members.names_putAll (distinct_toMembers made),
      List.eraseDups_append, own, List.removeAll, eraseDups_filter, once]
    simp
  · have own : Members.at? hero.toMembers "id" = some (.integer hero.id) := rfl
    rw [override, Members.at?_put_self, at?_putAll_fields distinct, own, corrected?]
    cases Members.at? fields "id" with
    | some value => rfl
    | none =>
      rw [Option.none_or, Option.bind_some, leadingInteger?_id (id_le_of_made? made)]
      rfl
  · intro key other
    rw [override, Members.at?_put_of_ne _ _ (Ne.symm other), at?_putAll_fields distinct]

end

section
variable {document : Document} {scripts : Members Document} {overrides : Option Document}

theorem corrected_published {strings : StringTable} (wellFormed : ∀ all ∈ overrides, all.WellFormed) {hero : Hero}
    (member : hero ∈ sorted strings scripts) :
    Corrected hero (corrections overrides hero.id) (published overrides hero) := by
  obtain ⟨entry, -, -, made⟩ := mem_sorted_iff.mp member
  rw [published_eq overrides (id_le_of_made? made)]
  exact corrected_override made (distinct_corrections wellFormed hero.id)

theorem byNumber_eq {heroes : List Hero} (ascending : heroes.Pairwise fun a b => a.id < b.id) :
    byNumber overrides heroes =
      .table (heroes.map fun hero => (toString hero.id, .table (published overrides hero))) := by
  have distinct : Members.Distinct
      (heroes.map fun hero => (toString hero.id, Document.table (published overrides hero))) := by
    rw [Members.Distinct, Members.names, List.map_map]
    refine List.pairwise_map.mpr (ascending.imp ?_)
    intro a b less same
    exact absurd (Int.repr_injective same) (ne_of_lt less)
  exact congrArg Document.table (Members.ofPairs_of_distinct distinct)

theorem byName_eq {heroes : List Hero} (distinct : (heroes.map Hero.name).Nodup)
    (named : ∀ hero ∈ heroes, Members.at? (published overrides hero) "name" = some (.text hero.name)) :
    byName overrides heroes = .table (heroes.map fun hero => (hero.name, .table (published overrides hero))) := by
  have keys : (heroes.map fun hero =>
      let members := published overrides hero
      (((Members.at? members "name").bind Document.text?).getD "", Document.table members)) =
      heroes.map fun hero => (hero.name, .table (published overrides hero)) := by
    apply List.map_congr_left
    intro hero member
    simp [named hero member, Document.text?]
  have apart : Members.Distinct (heroes.map fun hero => (hero.name, Document.table (published overrides hero))) := by
    rw [Members.Distinct, Members.names, List.map_map]
    exact distinct
  rw [byName, keys, Members.ofPairs_of_distinct apart]

/-- A hero's record stands under the hero's own number, unless another of that number comes later. -/
theorem member?_byNumber {heroes : List Hero} {key : String} {record : Document}
    (found : (byNumber overrides heroes).member? key = some record) :
    ∃ hero ∈ heroes, key = toString hero.id ∧ record = .table (published overrides hero) := by
  change Members.at? (Members.ofPairs _) key = some record at found
  rw [Members.ofPairs, Members.at?_putAll] at found
  simp only [Members.at?, Option.or_none] at found
  have written := List.mem_reverse.mp (Members.mem_of_at? found)
  obtain ⟨hero, member, same⟩ := List.mem_map.mp written
  cases same
  exact ⟨hero, member, rfl, rfl⟩

theorem exists_member?_byNumber (overrides : Option Document) {heroes : List Hero} {hero : Hero} (member : hero ∈ heroes) :
    ∃ record, (byNumber overrides heroes).member? (toString hero.id) = some record := by
  apply Option.ne_none_iff_exists'.mp
  change Members.at? (Members.ofPairs _) (toString hero.id) ≠ none
  rw [Ne, Members.at?_eq_none_iff, Members.names_ofPairs, List.mem_eraseDups, not_not]
  exact List.mem_map_of_mem (List.mem_map_of_mem member)

def axe : String × Document :=
  ("npc_dota_hero_axe", .table [("HeroID", .text "2")])

def squad : Members Document :=
  [("Version", .text "1"), ("npc_dota_hero_base", .table [("HeroID", .text "0")]), axe,
    ("npc_dota_hero_new", .table []), ("npc_dota_hero_antimage", .table [("HeroID", .text "1")])]

theorem axe_mem_sorted :
    ofScript StringTable.empty (baseOf squad) axe.1 axe.2 2 ∈ sorted StringTable.empty squad := by
  have number : number? axe = some 2 := by
    decide +kernel
  refine mem_sorted_iff.mpr ⟨axe, by simp [squad], by decide, ?_⟩
  rw [made?, number]
  rfl

def squadDocument : Document :=
  .table [("DOTAHeroes", .table squad)]

/-- Corrections of the hero of number two. -/
def amending (id : String) : Document :=
  .table [("2", .table [("id", .text id), ("complexity", .text "1")])]

theorem wellFormed_amending (id : String) : ∀ all ∈ some (amending id), all.WellFormed := by
  intro all given
  cases given
  simp [amending, Document.WellFormed, Document.WellFormedMembers, Members.Distinct, Members.names]

theorem corrections_amending (id : String) (number : Int) : corrections (some (amending id)) number =
    if "2" = toString number then [("id", .text id), ("complexity", .text "1")] else [] := by
  rw [corrections, amending]
  change ((Members.at? [("2", _)] (toString number)).bind Document.members?).getD [] = _
  rw [Members.at?]
  split <;> rfl

/-- Both documents hold the same records in the order of the numbers, one for each script that has a number. A record
is the hero of its script with the corrections of its number put over it. -/
theorem ofDocument_published (strings : StringTable) (block : document.member? "DOTAHeroes" = some (.table scripts))
    (wellFormed : document.WellFormed) (correct : ∀ all ∈ overrides, all.WellFormed)
    (distinct : ((scripts.filter isKept).filterMap number?).Nodup)
    (unnamed : ∀ id, Members.at? (corrections overrides id) "name" = none) :
    ∃ report, ofDocument strings document = .ok report ∧
      byNumber overrides report.value =
        .table (report.value.map fun hero => (toString hero.id, .table (published overrides hero))) ∧
      byName overrides report.value =
        .table (report.value.map fun hero => (hero.name, .table (published overrides hero))) ∧
      report.value.Pairwise (fun a b => a.id < b.id) ∧
      report.value.Perm ((scripts.filter isKept).filterMap (made? strings (baseOf scripts))) ∧
      report.notices = (scripts.filter isKept).filterMap missing? ∧
      ∀ hero ∈ report.value, Corrected hero (corrections overrides hero.id) (published overrides hero) := by
  have ascending := ascending_sorted strings distinct
  have record : ∀ hero ∈ sorted strings scripts,
      Corrected hero (corrections overrides hero.id) (published overrides hero) :=
    fun _ member => corrected_published correct member
  refine ⟨_, ofDocument_eq strings block, byNumber_eq ascending, byName_eq ?_ ?_, ascending, sorted_perm strings, rfl,
    record⟩
  · exact nodup_names_sorted strings (wellFormed.member? block).distinct
  · intro hero member
    rw [(record hero member).others "name" (by decide), unnamed]
    rfl

/-- The hero without a number is told of, the base script is no hero, and a corrected number that is none is not taken
over. -/
theorem ofDocument_published_squad :
    squadDocument.member? "DOTAHeroes" = some (.table squad) ∧ squadDocument.WellFormed ∧
      ∃ report hero, ofDocument StringTable.empty squadDocument = .ok report ∧ report.value.map Hero.id = [1, 2] ∧
        report.notices = [.heroWithoutId "npc_dota_hero_new"] ∧ hero ∈ report.value ∧ hero.name = axe.1 ∧
        Members.at? (published (some (amending "axe")) hero) "id" = some (.integer 2) ∧
        Members.at? (published (some (amending "axe")) hero) "complexity" = some (.text "1") := by
  have block : squadDocument.member? "DOTAHeroes" = some (.table squad) := rfl
  have wellFormed : squadDocument.WellFormed := by
    simp [squadDocument, squad, axe, Document.WellFormed, Document.WellFormedMembers, Members.Distinct, Members.names]
  have numbers : (squad.filter isKept).filterMap number? = [2, 1] := by
    decide +kernel
  have unnamed (id : Int) : Members.at? (corrections (some (amending "axe")) id) "name" = none := by
    rw [corrections_amending]
    split <;> rfl
  obtain ⟨report, made, -, -, ascending, same, notices, records⟩ := ofDocument_published StringTable.empty block
    wellFormed (wellFormed_amending "axe") (numbers ▸ by decide) unnamed
  have ids : report.value.map Hero.id = [1, 2] := by
    have perm := (same.map Hero.id).trans (.of_eq (ids_unsorted StringTable.empty))
    rw [numbers] at perm
    have strict : (report.value.map Hero.id).Pairwise (· < ·) := List.pairwise_map.mpr ascending
    have order : ([1, 2] : List Int).Pairwise (· < ·) := by decide
    exact (perm.trans (.swap 1 2 [])).eq_of_pairwise (fun _ _ _ _ less more => absurd more (not_lt_of_gt less))
      strict order
  have member := same.mem_iff.mpr ((sorted_perm _).mem_iff.mp axe_mem_sorted)
  have record := records _ member
  have fields : corrections (some (amending "axe")) 2 = [("id", .text "axe"), ("complexity", .text "1")] :=
    (corrections_amending "axe" 2).trans (if_pos rfl)
  have untold : corrected? [("id", .text "axe"), ("complexity", .text "1")] = none := by
    cbv
  refine ⟨block, wellFormed, report, _, made, ids, ?_, member, rfl, ?_, ?_⟩
  · rw [notices]
    decide +kernel
  · rw [record.number]
    change some (Document.integer ((corrected? (corrections (some (amending "axe")) 2)).getD 2)) = _
    rw [fields, untold]
    rfl
  · rw [record.others "complexity" (by decide)]
    change (Members.at? (corrections (some (amending "axe")) 2) "complexity").or _ = _
    rw [fields]
    rfl

/-- Records are found under the numbers that they hold, exactly if no correction tells another number. -/
theorem keyed_byNumber_iff (strings : StringTable) (block : document.member? "DOTAHeroes" = some (.table scripts))
    (correct : ∀ all ∈ overrides, all.WellFormed) :
    ∃ report, ofDocument strings document = .ok report ∧
      ((∀ key record, (byNumber overrides report.value).member? key = some record →
          ∃ id, record.member? "id" = some (.integer id) ∧ key = toString id) ↔
        ∀ hero ∈ report.value, ∀ id, corrected? (corrections overrides hero.id) = some id → id = hero.id) := by
  have number : ∀ hero ∈ sorted strings scripts, (Document.table (published overrides hero)).member? "id" =
      some (.integer ((corrected? (corrections overrides hero.id)).getD hero.id)) :=
    fun _ member => (corrected_published correct member).number
  refine ⟨_, ofDocument_eq strings block, ?_, ?_⟩
  · intro keyed hero member id told
    -- the record under this hero's number may be another's, but that one has the same number and corrections
    obtain ⟨record, found⟩ := exists_member?_byNumber overrides member
    obtain ⟨other, also, key, rfl⟩ := member?_byNumber found
    obtain ⟨shown, holds, under⟩ := keyed _ _ found
    rw [number other also, ← Int.repr_injective key, told] at holds
    cases holds
    exact (Int.repr_injective under).symm
  · intro agree key record found
    obtain ⟨hero, member, rfl, rfl⟩ := member?_byNumber found
    refine ⟨hero.id, ?_, rfl⟩
    rw [number hero member]
    cases told : corrected? (corrections overrides hero.id) with
    | none => rfl
    | some id => rw [Option.getD_some, agree hero member id told]

theorem keyed_byNumber_squad :
    squadDocument.member? "DOTAHeroes" = some (.table squad) ∧ (∀ all ∈ some (amending "2nd"), all.WellFormed) ∧
      ∃ report, ofDocument StringTable.empty squadDocument = .ok report ∧
        ∀ key record, (byNumber (some (amending "2nd")) report.value).member? key = some record →
          ∃ id, record.member? "id" = some (.integer id) ∧ key = toString id := by
  have block : squadDocument.member? "DOTAHeroes" = some (.table squad) := rfl
  have wellFormed := wellFormed_amending "2nd"
  obtain ⟨report, made, keyed⟩ := keyed_byNumber_iff StringTable.empty block wellFormed
  refine ⟨block, wellFormed, report, made, keyed.mpr ?_⟩
  intro hero _ id told
  rw [corrections_amending] at told
  split at told
  · next two =>
    have same : corrected? [("id", .text "2nd"), ("complexity", .text "1")] = some 2 := by
      decide +kernel
    rw [same] at told
    exact (Option.some.inj told).symm.trans (Int.repr_injective two)
  · cases told

/-- The number is corrected in the record, but the record stays under the number of the script. -/
theorem corrected_under_other_number :
    ∃ report record, ofDocument StringTable.empty squadDocument = .ok report ∧
      (byNumber (some (amending "5")) report.value).member? "2" = some record ∧
      record.member? "id" = some (.integer 5) ∧ "2" ≠ toString (5 : Int) := by
  have block : squadDocument.member? "DOTAHeroes" = some (.table squad) := rfl
  obtain ⟨record, found⟩ := exists_member?_byNumber (some (amending "5")) axe_mem_sorted
  obtain ⟨hero, member, key, rfl⟩ := member?_byNumber found
  have number := (corrected_published (wellFormed_amending "5") member).number
  have fields : corrections (some (amending "5")) hero.id = [("id", .text "5"), ("complexity", .text "1")] :=
    (corrections_amending "5" hero.id).trans (if_pos key)
  have told : corrected? [("id", .text "5"), ("complexity", .text "1")] = some 5 := by
    decide +kernel
  rw [fields, told] at number
  exact ⟨_, _, ofDocument_eq StringTable.empty block, found, number, by decide⟩

end

end Hero
end Compendium
