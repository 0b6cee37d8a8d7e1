import Compendium.Catalog.NeutralTier
import Compendium.Tooltip.AttributeRow
import Compendium.Tooltip.Resolver

/-! The items document. Items are keyed by their names without the common start, and a recipe tells the item it
builds what that item is made of. -/

set_option autoImplicit false
namespace Compendium

structure Item where
  text : ItemText
  id : Option Int
  image : String
  name : Option String
  quality : Option String
  cost : Option Int
  notes : String
  rows : List AttributeRow
  manaCost : Option Int
  cooldown : Option Int
  lore : String
  /-- The items this one is built from. -/
  components : Option (List String)
  /-- Whether a recipe builds this item. -/
  created : Bool
  charges : Option Int
  tier : Option Nat
  deriving DecidableEq, Repr

namespace Item

def shortName (key : String) : String :=
  (Text.dropStart? "item_" key).getD key

def isRecipe (key : String) : Bool :=
  Text.occursIn "item_recipe" key

def isFreeRecipe (key : String) (script : Document) : Bool :=
  isRecipe key && Script.integerField? script "ItemCost" == some 0

/-- The number that image addresses carry. -/
def imageStamp : String := "1593393829403"

def imageOf (key : String) : String :=
  let name := if isRecipe key then "recipe" else shortName key
  "/apps/dota2/images/items/" ++ name ++ "_lg.png?t=" ++ imageStamp

/-- Notes are numbered from zero; the first missing or empty one ends them. No more than `fuel` are looked up. -/
def notesFrom (strings : StringTable) (start : String) (index : Nat) : Nat → List String
  | 0 => []
  | fuel + 1 =>
    match (strings.get? (start ++ "_Note" ++ toString index)).filter (· ≠ "") with
    | some note => note :: notesFrom strings start (index + 1) fuel
    | none => []

/-- A table has no more notes than texts. -/
def notesOf (strings : StringTable) (start : String) : List String :=
  notesFrom strings start 0 (strings.size + 1)

/-- Rows without a localized header are left out, except for the lifetime. -/
def rowsOf (strings : StringTable) (start : String) (script : Document) : List AttributeRow :=
  (AttributeRow.ofAttributes (Script.attributes script) strings (start ++ "_")).filter fun row =>
    !row.generated || row.key == "lifetime"

/-- `strings` keeps the markup that descriptions are sorted by; `shown` is the same table without it. -/
def ofScript (strings shown : StringTable) (tiers : Members Nat) (key : String) (script : Document) :
    Report Item := do
  let start := StringTable.tooltipStart ++ key
  let resolver := Resolver.create (Script.attributes script) script key
  let text ← match strings.get? (start ++ "_Description") with
    | some template => resolver.resolveItem template
    | none => pure ItemText.empty
  return {
    text
    id := Script.integerField? script "ID"
    image := imageOf key
    name := shown.get? start
    quality := (script.member? "ItemQuality").bind Document.text?
    cost := Script.integerField? script "ItemCost"
    notes := Text.join "\n" (notesOf shown start)
    rows := rowsOf shown start script
    manaCost := Script.integerField? script "AbilityManaCost"
    cooldown := Script.integerField? script "AbilityCooldown"
    lore := Text.replaceAll ((shown.get? (start ++ "_Lore")).getD "") "\\n" "\r\n"
    components := none
    created := false
    charges := Script.integerField? script "ItemInitialCharges"
    tier := Members.at? tiers key }

/-- Requirements are a list or a table; the first one counts. -/
def firstRequirement? (script : Document) : Option String :=
  (script.member? "ItemRequirements").bind fun requirements =>
    match requirements with
    | .list (first :: _) => first.text?
    | .table ((_, first) :: _) => first.text?
    | _ => none

/-- The item that a recipe builds, and what it needs for that. -/
def recipe? (script : Document) : Option (String × String) :=
  match (script.member? "ItemResult").bind Document.text?, firstRequirement? script with
  | some target, some requirement => some (target, requirement)
  | _, _ => none

/-- The parts of a requirement, without marks of optional parts. -/
def componentsOf (requirement : String) : List String :=
  ((Text.splitOn requirement ";").filter (· ≠ "")).map fun part => Text.replaceAll (shortName part) "*" ""

def addScript (strings shown : StringTable) (tiers : Members Nat) (items : Members Item)
    (entry : String × Document) : Report (Members Item) :=
  if entry.1 = Script.versionKey ∨ isFreeRecipe entry.1 entry.2 = true then pure items
  else do
    let item ← ofScript strings shown tiers entry.1 entry.2
    return Members.put items (shortName entry.1) item

def addRecipe (items : Members Item) (entry : String × Document) : Report (Members Item) :=
  match recipe? entry.2 with
  | none => pure items
  | some (target, requirement) =>
    match Members.at? items (shortName target) with
    | some item =>
      let built := { item with components := some (componentsOf requirement), created := true }
      return Members.put items (shortName target) built
    | none => do
      Report.tell (.unknownTarget entry.1 target)
      return items

/-- All items of a script document but the recipes that cost nothing. Those still tell how items are built. -/
def ofDocument (strings : StringTable) (document neutrals : Document) :
    Except LayoutError (Report (Members Item)) := do
  let scripts ← Script.block document "DOTAAbilities" "items.json"
  return do
    let tiers ← NeutralTier.ofDocument neutrals
    let items ← scripts.foldlM (addScript strings strings.stripMarkup tiers) []
    scripts.foldlM addRecipe items

/-- The members of an item: those of its description, then the fixed ones. A section may have the name of a fixed
member. -/
def toMembers (item : Item) : List (String × Document) :=
  item.text.toMembers
    ++ [("id", Document.ofOption .integer item.id), ("img", .text item.image)]
    ++ (item.name.map fun name => ("dname", Document.text name)).toList
    ++ (item.quality.map fun quality => ("qual", Document.text quality)).toList
    ++ [("cost", Document.ofOption .integer item.cost),
      ("notes", .text item.notes),
      ("attrib", .list (item.rows.map AttributeRow.toDocument)),
      ("mc", Document.ofCount item.manaCost),
      ("cd", Document.ofCount item.cooldown),
      ("lore", .text item.lore),
      ("components", Document.ofOption Document.texts item.components),
      ("created", .bool item.created),
      ("charges", Document.ofCount item.charges)]
    ++ (item.tier.map fun tier => ("tier", Document.integer tier)).toList

/-- The document as it is written: every member of an item stands in it, also one of a name that occurs twice. -/
def toDocument (items : Members Item) : Document :=
  .table (Members.mapValues (fun item => .table item.toMembers) items)

/-- The document as a value, in which a name that occurs twice has its last value. -/
def toValue (items : Members Item) : Document :=
  .table (Members.mapValues (fun item => .table (Members.ofPairs item.toMembers)) items)

end Item
end Compendium
