import Compendium.Catalog.Aghanim
import Compendium.Proofs.Document.Members
import Mathlib

/-! What a summary says of the scepter and of the shard. The loop over the abilities does to the four fields of an item
what a loop over these fields alone does. So each item is told by the last ability that it grants or improves, all of it by
the same ability, and without regard to the other one. -/

set_option autoImplicit false
namespace Compendium

inductive AghanimItem where
  | scepter
  | shard
  deriving DecidableEq, Repr

namespace AghanimItem

def name : AghanimItem → String
  | .scepter => "scepter"
  | .shard => "shard"

def grants : AghanimItem → HeroAbility → Bool
  | .scepter => HeroAbility.grantedByScepter
  | .shard => HeroAbility.grantedByShard

def improves : AghanimItem → HeroAbility → Bool
  | .scepter => HeroAbility.hasScepter
  | .shard => HeroAbility.hasShard

def improvement : AghanimItem → HeroAbility → String
  | .scepter => HeroAbility.scepterDesc
  | .shard => HeroAbility.shardDesc

/-- The ability without what it says of the item. -/
def forget : AghanimItem → HeroAbility → HeroAbility
  | .scepter, ability => { ability with scepterDesc := "", grantedByScepter := false, hasScepter := false }
  | .shard, ability => { ability with shardDesc := "", grantedByShard := false, hasShard := false }

variable (item : AghanimItem)

/-- A named and described ability that the item grants, or improves by a description of its own. -/
def IsSource (ability : HeroAbility) : Prop :=
  (ability.localizedName ≠ "" ∧ ability.desc ≠ "") ∧
    (item.grants ability = true ∨ item.improves ability = true ∧ item.improvement ability ≠ "")

instance (ability : HeroAbility) : Decidable (item.IsSource ability) := by
  unfold IsSource
  infer_instance

/-- The text that a source is described by. -/
def wording (ability : HeroAbility) : String :=
  if item.grants ability then ability.desc else item.improvement ability

/-- The fields of a summary that are about one item. -/
structure Fields where
  present : Bool := false
  desc : String := ""
  skill : String := ""
  isNew : Bool := false

def fields : AghanimItem → AghanimSummary → Fields
  | .scepter, summary => ⟨summary.hasScepter, summary.scepterDesc, summary.scepterSkill, summary.scepterIsNew⟩
  | .shard, summary => ⟨summary.hasShard, summary.shardDesc, summary.shardSkill, summary.shardIsNew⟩

/-- What a source tells. -/
def told (ability : HeroAbility) : Fields :=
  ⟨true, Upgrade.describe (item.wording ability) ability.specialValues, ability.localizedName, item.grants ability⟩

/-- What an ability makes of the fields. -/
def record (fields : Fields) (ability : HeroAbility) : Fields :=
  if item.IsSource ability then item.told ability else fields

/-- The branches of the loop. -/
theorem record_of_named {ability : HeroAbility} (named : ability.localizedName ≠ "" ∧ ability.desc ≠ "")
    (fields : Fields) : item.record fields ability =
      if item.grants ability then
        ⟨true, Upgrade.describe ability.desc ability.specialValues, ability.localizedName, true⟩
      else if item.improves ability && item.improvement ability ≠ "" then
        ⟨true, Upgrade.describe (item.improvement ability) ability.specialValues, ability.localizedName, false⟩
      else fields := by
  rw [record, told, wording]
  by_cases granted : item.grants ability = true
  · rw [if_pos ⟨named, .inl granted⟩, if_pos granted, if_pos granted, granted]
  · rw [if_neg granted, if_neg granted, Bool.eq_false_iff.mpr granted]
    by_cases improved : item.improves ability = true ∧ item.improvement ability ≠ ""
    · rw [if_pos ⟨named, .inr improved⟩, if_pos (by simpa using improved)]
    · rw [if_neg fun source => source.2.elim granted improved, if_neg (by simpa using improved)]

theorem fields_tellScepter {ability : HeroAbility} (named : ability.localizedName ≠ "" ∧ ability.desc ≠ "")
    (summary : AghanimSummary) :
    scepter.fields (summary.tellScepter ability) = scepter.record (scepter.fields summary) ability := by
  rw [record_of_named scepter named, AghanimSummary.tellScepter, apply_ite scepter.fields, apply_ite scepter.fields]
  rfl

theorem fields_tellShard {ability : HeroAbility} (named : ability.localizedName ≠ "" ∧ ability.desc ≠ "")
    (summary : AghanimSummary) :
    shard.fields (summary.tellShard ability) = shard.record (shard.fields summary) ability := by
  rw [record_of_named shard named, AghanimSummary.tellShard, apply_ite shard.fields, apply_ite shard.fields]
  rfl

/-- The branches for the scepter write none of the fields of the shard. -/
theorem shard_fields_tellScepter (summary : AghanimSummary) (ability : HeroAbility) :
    shard.fields (summary.tellScepter ability) = shard.fields summary := by
  unfold AghanimSummary.tellScepter
  split
  · rfl
  · split <;> rfl

theorem scepter_fields_tellShard (summary : AghanimSummary) (ability : HeroAbility) :
    scepter.fields (summary.tellShard ability) = scepter.fields summary := by
  unfold AghanimSummary.tellShard
  split
  · rfl
  · split <;> rfl

/-- A step of the loop does to the fields of an item what the ability makes of them, whatever the other fields are. -/
theorem fields_addAbility (summary : AghanimSummary) (ability : HeroAbility) :
    item.fields (summary.addAbility ability) = item.record (item.fields summary) ability := by
  rw [AghanimSummary.addAbility]
  split
  · next unnamed =>
    rw [record, if_neg]
    rintro ⟨named, -⟩
    exact not_or.mpr named unnamed
  · next named =>
    rw [not_or] at named
    cases item with
    | scepter => rw [scepter_fields_tellShard, fields_tellScepter named]
    | shard => rw [fields_tellShard named, shard_fields_tellScepter]

theorem fields_foldl (abilities : List HeroAbility) (summary : AghanimSummary) :
    item.fields (abilities.foldl AghanimSummary.addAbility summary) = abilities.foldl item.record (item.fields summary) :=
  (List.foldl_hom item.fields fun summary ability => (item.fields_addAbility summary ability).symm).symm

theorem foldl_record_of_silent {abilities : List HeroAbility} (silent : ∀ ability ∈ abilities, ¬ item.IsSource ability)
    (start : Fields) : abilities.foldl item.record start = start := by
  induction abilities generalizing start with
  | nil => rfl
  | cons ability rest ih =>
    rw [List.forall_mem_cons] at silent
    rw [List.foldl_cons, record, if_neg silent.1, ih silent.2]

/-- Whatever was told before the last source, it tells all fields, and no ability behind it tells any. -/
theorem foldl_record_of_isLast {abilities : List HeroAbility} {ability : HeroAbility}
    (last : IsLast item.IsSource abilities ability) (start : Fields) :
    abilities.foldl item.record start = item.told ability := by
  obtain ⟨before, after, rfl, source, silent⟩ := last
  rw [List.foldl_append, List.foldl_cons, item.foldl_record_of_silent silent, record, if_pos source]

theorem present_foldl_record (abilities : List HeroAbility) (start : Fields) :
    (abilities.foldl item.record start).present = true ↔
      start.present = true ∨ ∃ ability ∈ abilities, item.IsSource ability := by
  induction abilities generalizing start with
  | nil => simp
  | cons ability rest ih =>
    rw [List.foldl_cons, ih, record]
    by_cases source : item.IsSource ability
    · simp [source, told]
    · simp [source]

/-- What an ability says of one item has nothing to do with the other one. -/
theorem record_forget {item other : AghanimItem} (differ : item ≠ other) (fields : Fields) (ability : HeroAbility) :
    item.record fields (other.forget ability) = item.record fields ability := by
  cases item with
  | scepter =>
    cases other with
    | scepter => exact absurd rfl differ
    | shard => rfl
  | shard =>
    cases other with
    | scepter => rfl
    | shard => exact absurd rfl differ

theorem foldl_record_map_forget {item other : AghanimItem} (differ : item ≠ other) (abilities : List HeroAbility)
    (start : Fields) : (abilities.map other.forget).foldl item.record start = abilities.foldl item.record start := by
  rw [List.foldl_map]
  exact List.foldl_ext _ _ _ fun fields ability _ => record_forget differ fields ability

/-- The members of a summary that are about the item. -/
@[mk_iff]
structure Tells (summary : AghanimSummary) (present : Bool) (desc skill : String) (isNew : Bool) : Prop where
  present : Members.at? summary.toMembers ("has_" ++ item.name) = some (.bool present)
  desc : Members.at? summary.toMembers (item.name ++ "_desc") = some (.text desc)
  skill : Members.at? summary.toMembers (item.name ++ "_skill_name") = some (.text skill)
  isNew : Members.at? summary.toMembers (item.name ++ "_new_skill") = some (.bool isNew)

theorem tells_iff_fields (summary : AghanimSummary) (present : Bool) (desc skill : String) (isNew : Bool) :
    item.Tells summary present desc skill isNew ↔ item.fields summary = ⟨present, desc, skill, isNew⟩ := by
  rw [tells_iff]
  cases item <;> simp [name, fields, AghanimSummary.toMembers, AghanimSummary.upgradeMembers, Members.at?]

end AghanimItem

namespace AghanimSummary

/-- The summary at the end of the loop. -/
def ofAbilities (hero : HeroData) : AghanimSummary :=
  hero.abilities.foldl addAbility { heroName := hero.name, heroId := hero.id }

theorem fields_ofAbilities (item : AghanimItem) (hero : HeroData) :
    item.fields (ofAbilities hero) = hero.abilities.foldl item.record {} := by
  rw [ofAbilities, item.fields_foldl]
  cases item <;> rfl

/-- A summary is about the same hero as another one. -/
def SameHero (summary other : AghanimSummary) : Prop :=
  summary.heroName = other.heroName ∧ summary.heroId = other.heroId

theorem SameHero.trans {first second third : AghanimSummary} (left : first.SameHero second)
    (right : second.SameHero third) : first.SameHero third :=
  ⟨left.1.trans right.1, left.2.trans right.2⟩

section
variable (summary : AghanimSummary) (ability : HeroAbility)

theorem sameHero_tellScepter : (summary.tellScepter ability).SameHero summary := by
  unfold tellScepter
  split
  · exact ⟨rfl, rfl⟩
  · split <;> exact ⟨rfl, rfl⟩

theorem sameHero_tellShard : (summary.tellShard ability).SameHero summary := by
  unfold tellShard
  split
  · exact ⟨rfl, rfl⟩
  · split <;> exact ⟨rfl, rfl⟩

theorem sameHero_addAbility : (summary.addAbility ability).SameHero summary := by
  rw [addAbility]
  split
  · exact ⟨rfl, rfl⟩
  · exact (sameHero_tellShard _ ability).trans (sameHero_tellScepter summary ability)

end

theorem sameHero_foldl (abilities : List HeroAbility) (summary : AghanimSummary) :
    (abilities.foldl addAbility summary).SameHero summary := by
  induction abilities generalizing summary with
  | nil => exact ⟨rfl, rfl⟩
  | cons ability rest ih =>
    exact (ih (summary.addAbility ability)).trans (sameHero_addAbility summary ability)

end AghanimSummary

namespace AghanimItem

variable (item : AghanimItem)

/-- What is said of a hero without an upgrade by the item. -/
def notice (hero : HeroData) : AghanimItem → Notice
  | .scepter => .noScepter hero.name hero.id
  | .shard => .noShard hero.name hero.id

def missing (hero : HeroData) : List Notice :=
  if (hero.abilities.foldl item.record {}).present then [] else [item.notice hero]

theorem message_notice (hero : HeroData) : (item.notice hero).message =
    hero.name ++ "[" ++ toString hero.id ++ "]: Didn't find a " ++ item.name ++ "..." := by
  cases item with
  | scepter =>
    have pieces : "]: Didn't find a scepter..." = "]: Didn't find a " ++ "scepter" ++ "..." := by decide
    have message : (scepter.notice hero).message =
        hero.name ++ "[" ++ toString hero.id ++ "]: Didn't find a scepter..." := rfl
    rw [message, pieces, name, ← String.append_assoc, ← String.append_assoc]
  | shard =>
    have pieces : "]: Didn't find a shard..." = "]: Didn't find a " ++ "shard" ++ "..." := by decide
    have message : (shard.notice hero).message =
        hero.name ++ "[" ++ toString hero.id ++ "]: Didn't find a shard..." := rfl
    rw [message, pieces, name, ← String.append_assoc, ← String.append_assoc]

theorem messages_missing (hero : HeroData) : (item.missing hero).map Notice.message =
    ([item].filter fun item => ∀ ability ∈ hero.abilities, ¬ item.IsSource ability).map fun item =>
      hero.name ++ "[" ++ toString hero.id ++ "]: Didn't find a " ++ item.name ++ "..." := by
  have silent : (∀ ability ∈ hero.abilities, ¬ item.IsSource ability) ↔
      ¬ (hero.abilities.foldl item.record {}).present = true := by
    simp [present_foldl_record]
  rw [missing, List.filter_cons]
  simp only [silent, decide_eq_true_eq]
  split
  · simp
  · simp [message_notice]

theorem ofHero_eq (hero : HeroData) : AghanimSummary.ofHero hero =
    ⟨AghanimSummary.ofAbilities hero, shard.missing hero ++ scepter.missing hero⟩ := by
  obtain ⟨name, id⟩ := AghanimSummary.sameHero_foldl hero.abilities { heroName := hero.name, heroId := hero.id }
  have shards : (AghanimSummary.ofAbilities hero).hasShard = _ :=
    congrArg Fields.present (AghanimSummary.fields_ofAbilities shard hero)
  have scepters : (AghanimSummary.ofAbilities hero).hasScepter = _ :=
    congrArg Fields.present (AghanimSummary.fields_ofAbilities scepter hero)
  unfold AghanimSummary.ofHero
  dsimp only
  rw [missing, missing, ← shards, ← scepters, name, id, ← AghanimSummary.ofAbilities]
  cases (AghanimSummary.ofAbilities hero).hasShard <;> cases (AghanimSummary.ofAbilities hero).hasScepter <;> rfl

theorem fields_ofHero (hero : HeroData) :
    item.fields (AghanimSummary.ofHero hero).value = hero.abilities.foldl item.record {} := by
  rw [ofHero_eq]
  exact AghanimSummary.fields_ofAbilities item hero

end AghanimItem

/-- The last source tells all four members of an item, which are empty without a source; what the abilities say of the
other item does not matter, and every item without a source is told of. -/
theorem AghanimSummary.ofHero_upgrades (hero : HeroData) :
    (∀ item : AghanimItem,
      (Members.at? (ofHero hero).value.toMembers ("has_" ++ item.name) = some (.bool true) ↔
        ∃ ability ∈ hero.abilities, item.IsSource ability) ∧
      (∀ ability, IsLast item.IsSource hero.abilities ability →
        item.Tells (ofHero hero).value true (Upgrade.describe (item.wording ability) ability.specialValues)
          ability.localizedName (item.grants ability)) ∧
      ((∀ ability ∈ hero.abilities, ¬ item.IsSource ability) → item.Tells (ofHero hero).value false "" "" false) ∧
      ∀ other changed, item ≠ other →
        changed.abilities.map other.forget = hero.abilities.map other.forget →
        ∀ present desc skill isNew,
          item.Tells (ofHero changed).value present desc skill isNew ↔
            item.Tells (ofHero hero).value present desc skill isNew) ∧
    (ofHero hero).notices.map Notice.message =
      ([.shard, .scepter].filter fun item : AghanimItem => ∀ ability ∈ hero.abilities, ¬ item.IsSource ability).map
        fun item => hero.name ++ "[" ++ toString hero.id ++ "]: Didn't find a " ++ item.name ++ "..." := by
  refine ⟨fun item => ⟨?_, ?_, ?_, ?_⟩, ?_⟩
  · have tells := (item.tells_iff_fields (ofHero hero).value _ _ _ _).mpr rfl
    rw [tells.present, Option.some_inj, Document.bool.injEq]
    change (item.fields (ofHero hero).value).present = true ↔ _
    rw [item.fields_ofHero, item.present_foldl_record]
    simp
  · intro ability last
    rw [item.tells_iff_fields, item.fields_ofHero, item.foldl_record_of_isLast last]
    rfl
  · intro silent
    rw [item.tells_iff_fields, item.fields_ofHero, item.foldl_record_of_silent silent]
  · intro other changed differ same present desc skill isNew
    rw [item.tells_iff_fields, item.tells_iff_fields, item.fields_ofHero, item.fields_ofHero,
      ← AghanimItem.foldl_record_map_forget differ, same, AghanimItem.foldl_record_map_forget differ]
  · rw [AghanimItem.ofHero_eq, List.map_append, AghanimItem.messages_missing, AghanimItem.messages_missing,
      ← List.map_append, ← List.filter_append]
    rfl

/-- A granted ability, one that is improved after it, and one without a name; nothing tells of the shard. -/
theorem AghanimSummary.ofHero_upgrades_improved :
    let granted : HeroAbility := ⟨"shift", "Shift", "Moves away.", "", "", true, true, false, false, []⟩
    let improved : HeroAbility :=
      ⟨"blast", "Blast", "Deals damage.", "Deals %bonus% more.", "", false, true, false, false,
        [⟨"bonus", "", [], [.integer 50]⟩]⟩
    let nameless : HeroAbility := ⟨"hidden", "", "Is granted.", "", "", true, false, false, false, []⟩
    let hero : HeroData := ⟨2, "axe", [granted, improved, nameless]⟩
    AghanimItem.scepter.Tells (ofHero hero).value true "Deals 50 more." "Blast" false ∧
      AghanimItem.shard.Tells (ofHero hero).value false "" "" false ∧
      (ofHero hero).notices.map Notice.message = ["axe[2]: Didn't find a shard..."] := by
  intro granted improved nameless hero
  obtain ⟨items, messages⟩ := ofHero_upgrades hero
  have last : IsLast AghanimItem.scepter.IsSource hero.abilities improved :=
    ⟨[granted], [nameless], rfl, by decide, by decide⟩
  have text : Upgrade.describe (AghanimItem.scepter.wording improved) improved.specialValues = "Deals 50 more." := by
    cbv
  have tells := (items .scepter).2.1 improved last
  rw [text] at tells
  refine ⟨tells, (items .shard).2.2.1 (by decide), messages.trans ?_⟩
  decide

end Compendium
