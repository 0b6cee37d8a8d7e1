import Compendium.Document.Basic
import Compendium.Text.Blank
import Compendium.Text.Occurrence

/-! The flags of an ability's behavior, damage and targets under the names they are shown with. -/

set_option autoImplicit false
namespace Compendium

/-- One name, or several. -/
inductive FlagNames where
  | one (name : String)
  | many (names : List String)
  deriving DecidableEq, Repr

namespace FlagNames

/-- Flags that are never shown. -/
def hidden : List String :=
  ["DOTA_ABILITY_BEHAVIOR_ROOT_DISABLES",
   "DOTA_ABILITY_BEHAVIOR_DONT_RESUME_ATTACK",
   "DOTA_ABILITY_BEHAVIOR_DONT_RESUME_MOVEMENT",
   "DOTA_ABILITY_BEHAVIOR_IGNORE_BACKSWING",
   "DOTA_ABILITY_BEHAVIOR_TOGGLE",
   "DOTA_ABILITY_BEHAVIOR_IGNORE_PSEUDO_QUEUE",
   "DOTA_ABILITY_BEHAVIOR_SHOW_IN_GUIDES"]

def shownAs : List (String × String) :=
  [("DOTA_ABILITY_BEHAVIOR_NONE", "None"),
   ("DOTA_ABILITY_BEHAVIOR_PASSIVE", "Passive"),
   ("DOTA_ABILITY_BEHAVIOR_UNIT_TARGET", "Unit Target"),
   ("DOTA_ABILITY_BEHAVIOR_CHANNELLED", "Channeled"),
   ("DOTA_ABILITY_BEHAVIOR_POINT", "Point Target"),
   ("DOTA_ABILITY_BEHAVIOR_ROOT_DISABLES", "Root"),
   ("DOTA_ABILITY_BEHAVIOR_AOE", "AOE"),
   ("DOTA_ABILITY_BEHAVIOR_NO_TARGET", "No Target"),
   ("DOTA_ABILITY_BEHAVIOR_AUTOCAST", "Autocast"),
   ("DOTA_ABILITY_BEHAVIOR_ATTACK", "Attack Modifier"),
   ("DOTA_ABILITY_BEHAVIOR_IMMEDIATE", "Instant Cast"),
   ("DOTA_ABILITY_BEHAVIOR_HIDDEN", "Hidden"),
   ("DAMAGE_TYPE_PHYSICAL", "Physical"),
   ("DAMAGE_TYPE_MAGICAL", "Magical"),
   ("DAMAGE_TYPE_PURE", "Pure"),
   ("SPELL_IMMUNITY_ENEMIES_YES", "Yes"),
   ("SPELL_IMMUNITY_ENEMIES_NO", "No"),
   ("SPELL_IMMUNITY_ALLIES_YES", "Yes"),
   ("SPELL_IMMUNITY_ALLIES_NO", "No"),
   ("SPELL_DISPELLABLE_YES", "Yes"),
   ("SPELL_DISPELLABLE_NO", "No"),
   ("DOTA_UNIT_TARGET_TEAM_BOTH", "Both"),
   ("DOTA_UNIT_TARGET_TEAM_ENEMY", "Enemy"),
   ("DOTA_UNIT_TARGET_TEAM_FRIENDLY", "Friendly"),
   ("DOTA_UNIT_TARGET_HERO", "Hero"),
   ("DOTA_UNIT_TARGET_BASIC", "Basic"),
   ("DOTA_UNIT_TARGET_BUILDING", "Building"),
   ("DOTA_UNIT_TARGET_TREE", "Tree")]

def nameOf? (flag : String) : Option String :=
  Members.at? shownAs flag

def trimmed (text : String) : String :=
  String.ofList (Text.trim text.toList)

/-- The shown names in a text that joins flags with bars. Hidden and unknown flags are left out, and nothing is shown
if none is left. -/
def ofText? (flags : String) : Option FlagNames :=
  let each := (Text.splitOn flags " | ").map trimmed
  match (each.filter fun flag => !hidden.contains flag).filterMap nameOf? with
  | [] => none
  | [name] => some (.one name)
  | names => some (.many names)

def toDocument : FlagNames → Document
  | .one name => .text name
  | .many names => Document.texts names

end FlagNames
end Compendium
