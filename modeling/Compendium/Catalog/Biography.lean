import Compendium.Catalog.Script
import Compendium.Notice

/-! Hero biographies, keyed by the short name of the hero. -/

set_option autoImplicit false
namespace Compendium.Biography

/-- The name in a token `npc_dota_hero_<name>_bio`. -/
def heroOf? (token : String) : Option String :=
  (Text.dropStart? "npc_dota_hero_" token).bind (Text.dropEnd? "_bio")

/-- A biography has no tabs, and its line break tags are new lines. -/
def clean (text : String) : String :=
  Markup.breakLines (Text.replaceAll text "\t" "")

def addToken (biographies : Members String) (entry : String × Document) : Report (Members String) :=
  match heroOf? entry.1, entry.2.text? with
  | none, _ => do
    Report.tell (.skippedLoreToken entry.1)
    return biographies
  | some _, none => return biographies
  | some hero, some text => return Members.put biographies hero (clean text)

/-- The biographies among the tokens of a lore resource. -/
def ofLore (lore : Document) : Except LayoutError (Report (Members String)) := do
  let tokens ← Script.block lore "tokens" "hero_lore"
  return tokens.foldlM addToken []

def toDocument (biographies : Members String) : Document :=
  .table (Members.mapValues .text biographies)

end Compendium.Biography
