import Compendium.Catalog.Flags
import Compendium.Catalog.Script
import Compendium.Tooltip.AttributeRow
import Compendium.Tooltip.NameTokens
import Compendium.Tooltip.Resolver

/-! The abilities document. A talent is shown by its name only. -/

set_option autoImplicit false
namespace Compendium

structure Ability where
  name : Option String
  behavior : Option FlagNames
  damageType : Option FlagNames
  piercesImmunity : Option FlagNames
  target : Option FlagNames
  desc : Option String
  damage : Option Levels
  rows : Option (List AttributeRow)
  manaCost : Option Levels
  cooldown : Option Levels
  image : Option String
  deriving DecidableEq, Repr

namespace Ability

/-- Scripts that are no abilities. -/
def excluded : List String :=
  [Script.versionKey, "ability_base", "default_attack", "attribute_bonus", "ability_deward"]

def isTalent (key : String) : Bool :=
  (Text.dropStart? "special_bonus" key).isSome

def ofName (name : Option String) : Ability :=
  ⟨name, none, none, none, none, none, none, none, none, none, none⟩

/-- Tokens of word characters, as they are left where a name was unknown. -/
def wordToken : TokenGrammar :=
  ⟨Text.isWordChar, false⟩

/-- The description of an ability. If tokens are left in it, the template is filled from the script alone. -/
def describe (key : String) (script : Document) (template : String) : Report String := do
  let resolver := Resolver.create (Script.attributes script) script key
  let resolved ← resolver.resolveText template
  return if (wordToken.names resolved).isEmpty then resolved else Lookup.resolve template script

/-- The value table of the ability that a talent improves. -/
def linkedTable? (scripts : Members Document) (script : Document) : Option (Members Document) :=
  ((script.nonemptyText? "ad_linked_abilities").bind (Members.at? scripts)).bind fun linked =>
    (linked.member? Lookup.valueTable).bind Document.members?

def nameOf? (strings : StringTable) (scripts : Members Document) (key : String) (script : Document) :
    Option String :=
  let tokens := [StringTable.tooltipStart ++ key, StringTable.capitalizedStart ++ key]
  (strings.getFirst? tokens).map fun name =>
    let filled := NameTokens.fillFlat name (Script.attributes script)
    match linkedTable? scripts script with
    | some linked => NameTokens.fillBonus key filled linked
    | none => filled

def flagsOf (script : Document) (key : String) : Option FlagNames :=
  (script.nonemptyText? key).bind FlagNames.ofText?

def levelsOf (script : Document) (key separator : String) : Option Levels :=
  ((script.member? key).filter Document.isPresent).map fun value => Levels.format value false separator

def ofScript (strings : StringTable) (scripts : Members Document) (key : String) (script : Document) :
    Report Ability :=
  let name := nameOf? strings scripts key script
  let start := StringTable.tooltipStart ++ key
  if isTalent key then return ofName name
  else do
    let desc ← (strings.get? (start ++ "_Description")).mapM (describe key script)
    return {
      name
      behavior := flagsOf script "AbilityBehavior"
      damageType := flagsOf script "AbilityUnitDamageType"
      piercesImmunity := flagsOf script "SpellImmunityType"
      target := flagsOf script "AbilityUnitTargetTeam"
      desc
      damage := levelsOf script "AbilityDamage" " / "
      rows := some (AttributeRow.ofAttributes (Script.attributes script) strings (start ++ "_"))
      manaCost := levelsOf script "AbilityManaCost" "/"
      cooldown := levelsOf script "AbilityCooldown" "/"
      image := some ("/apps/dota2/images/abilities/" ++ key ++ "_md.png") }

/-- All abilities of a script document, in its order. -/
def ofDocument (strings : StringTable) (document : Document) : Except LayoutError (Report (Members Ability)) := do
  let scripts ← Script.block document "DOTAAbilities" "npc_abilities.json"
  let shown := strings.stripMarkup
  let kept := scripts.filter fun entry => !excluded.contains entry.1
  return kept.mapM fun (key, script) => do return (key, ← ofScript shown scripts key script)

def toMembers (ability : Ability) : List (String × Document) :=
  let field {α : Type} (name : String) (encode : α → Document) (value : Option α) : List (String × Document) :=
    (value.map fun content => (name, encode content)).toList
  field "dname" .text ability.name
    ++ field "behavior" FlagNames.toDocument ability.behavior
    ++ field "dmg_type" FlagNames.toDocument ability.damageType
    ++ field "bkbpierce" FlagNames.toDocument ability.piercesImmunity
    ++ field "target_type" FlagNames.toDocument ability.target
    ++ field "desc" .text ability.desc
    ++ field "dmg" Levels.toDocument ability.damage
    ++ field "attrib" (fun rows => .list (rows.map AttributeRow.toDocument)) ability.rows
    ++ field "mc" Levels.toDocument ability.manaCost
    ++ field "cd" Levels.toDocument ability.cooldown
    ++ field "img" .text ability.image

def toDocument (abilities : Members Ability) : Document :=
  .table (Members.mapValues (fun ability => .table ability.toMembers) abilities)

end Ability
end Compendium
