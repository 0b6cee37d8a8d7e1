import Compendium.Catalog.Script
import Compendium.Notice
import Compendium.Text.LetterCase
import Compendium.Tooltip.StringTable

/-! The heroes documents. They hold the same heroes in the order of their numbers, keyed by number or by name. -/

set_option autoImplicit false
namespace Compendium

inductive AttackKind where
  | melee
  | ranged
  deriving DecidableEq, Repr

structure Hero where
  id : Int
  name : String
  localizedName : Option String
  primaryAttribute : String
  attack : AttackKind
  roles : List String
  /-- The numbers of the hero under the names they are published with; null where no script tells one. -/
  stats : Members Document
  captainsMode : Bool
  legs : Document
  deriving Repr

/-- A number of the hero, and whether the base hero tells it where the hero's own script does not. -/
structure StatField where
  name : String
  key : String
  inherited : Bool
  deriving DecidableEq, Repr

namespace Hero

def baseName : String := "npc_dota_hero_base"

/-- Scripts that are no heroes. -/
def excluded : List String :=
  [Script.versionKey, baseName, "npc_dota_hero_target_dummy"]

def nameStart : String := "npc_dota_hero_"

def statFields : List StatField :=
  [⟨"base_health", "StatusHealth", true⟩,
   ⟨"base_health_regen", "StatusHealthRegen", true⟩,
   ⟨"base_mana", "StatusMana", true⟩,
   ⟨"base_mana_regen", "StatusManaRegen", true⟩,
   ⟨"base_armor", "ArmorPhysical", true⟩,
   ⟨"base_mr", "MagicalResistance", true⟩,
   ⟨"base_attack_min", "AttackDamageMin", true⟩,
   ⟨"base_attack_max", "AttackDamageMax", true⟩,
   ⟨"base_str", "AttributeBaseStrength", false⟩,
   ⟨"base_agi", "AttributeBaseAgility", false⟩,
   ⟨"base_int", "AttributeBaseIntelligence", false⟩,
   ⟨"str_gain", "AttributeStrengthGain", false⟩,
   ⟨"agi_gain", "AttributeAgilityGain", false⟩,
   ⟨"int_gain", "AttributeIntelligenceGain", false⟩,
   ⟨"attack_range", "AttackRange", false⟩,
   ⟨"projectile_speed", "ProjectileSpeed", true⟩,
   ⟨"attack_rate", "AttackRate", true⟩,
   ⟨"move_speed", "MovementSpeed", false⟩,
   ⟨"turn_rate", "MovementTurnRate", false⟩]

def legsField : StatField :=
  ⟨"legs", "Legs", true⟩

def stat (base script : Document) (field : StatField) : Document :=
  let own := script.nonemptyText? field.key
  let told := if field.inherited then own.or (base.nonemptyText? field.key) else own
  Document.ofOption Document.ofFreeText told

/-- The first three letters of the attribute's name. -/
def attributeOf (script : Document) : String :=
  let name := Text.replaceAll ((script.nonemptyText? "AttributePrimary").getD "") "DOTA_ATTRIBUTE_" ""
  Text.lower (String.ofList (name.toList.take 3))

def attackOf (script : Document) : AttackKind :=
  if script.nonemptyText? "AttackCapabilities" = some "DOTA_UNIT_CAP_MELEE_ATTACK" then .melee else .ranged

def rolesOf (script : Document) : List String :=
  match script.nonemptyText? "Role" with
  | some roles => Text.splitOn roles ","
  | none => []

def ofScript (strings : StringTable) (base : Document) (name : String) (script : Document) (id : Int) : Hero where
  id
  name
  localizedName := ((strings.get? name).filter (· ≠ "")).or (script.nonemptyText? "workshop_guide_name")
  primaryAttribute := attributeOf script
  attack := attackOf script
  roles := rolesOf script
  stats := statFields.map fun field => (field.name, stat base script field)
  captainsMode := script.nonemptyText? "CMEnabled" == some "1"
  legs := stat base script legsField

/-- A script without a number makes no hero. -/
def read (strings : StringTable) (base : Document) (entry : String × Document) : Report (Option Hero) :=
  match Script.integerField? entry.2 "HeroID" with
  | some id => pure (some (ofScript strings base entry.1 entry.2 id))
  | none => do
    Report.tell (.heroWithoutId entry.1)
    return none

/-- The heroes of a script document in the order of their numbers. -/
def ofDocument (strings : StringTable) (document : Document) : Except LayoutError (Report (List Hero)) := do
  let scripts ← Script.block document "DOTAHeroes" "npc_heroes.json"
  let base := (Members.at? scripts baseName).getD (.table [])
  let kept := scripts.filter fun entry => !excluded.contains entry.1
  return do
    let heroes ← kept.mapM (read strings base)
    return heroes.reduceOption.mergeSort fun a b => a.id ≤ b.id

def imageOf (directory name : String) : String :=
  "/apps/dota2/images/dota_react/heroes/" ++ directory ++ (Text.dropStart? nameStart name).getD name ++ ".png?"

def toMembers (hero : Hero) : Members Document :=
  [("id", .integer hero.id),
    ("name", .text hero.name),
    ("localized_name", Document.ofOption .text hero.localizedName),
    ("primary_attr", .text hero.primaryAttribute),
    ("attack_type", .text (match hero.attack with
      | .melee => "Melee"
      | .ranged => "Ranged")),
    ("roles", Document.texts hero.roles),
    ("img", .text (imageOf "" hero.name)),
    ("icon", .text (imageOf "icons/" hero.name))]
    ++ hero.stats
    ++ [("cm_enabled", .bool hero.captainsMode), ("legs", hero.legs)]

/-- Puts corrected members over those of a hero. The number stays an integer: the one that the corrected member
starts with, or the hero's own. -/
def override (hero : Hero) (fields : Members Document) : Members Document :=
  let corrected := Members.putAll hero.toMembers fields
  let id := ((Members.at? corrected "id").bind Script.leadingInteger?).getD hero.id
  Members.put corrected "id" (.integer id)

/-- A hero's members as they are published; `overrides` holds corrections by hero number. -/
def published (overrides : Option Document) (hero : Hero) : Members Document :=
  match (overrides.bind fun all => all.member? (toString hero.id)).bind Document.members? with
  | some fields => hero.override fields
  | none => hero.toMembers

/-- The heroes by the decimal text of their numbers. -/
def byNumber (overrides : Option Document) (heroes : List Hero) : Document :=
  .table (Members.ofPairs (heroes.map fun hero => (toString hero.id, .table (published overrides hero))))

/-- The heroes by their published names; what is no text counts as the empty name. -/
def byName (overrides : Option Document) (heroes : List Hero) : Document :=
  .table (Members.ofPairs (heroes.map fun hero =>
    let members := published overrides hero
    (((Members.at? members "name").bind Document.text?).getD "", .table members)))

end Hero
end Compendium
