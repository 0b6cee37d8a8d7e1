import Compendium.Build.Error
import Compendium.Tooltip.StringTable

/-! Where the sources of a build are, and how they are loaded. A JSON file is a document as it is; any other file is
a block text, whose root is the document. -/

set_option autoImplicit false
namespace Compendium.Source

/-- Texts of abilities and items, below the data directory. -/
def abilityStrings (language : String) : Path :=
  ⟨"resource/localization/abilities_" ++ language ++ ".json"⟩

/-- General texts, among them the heroes' names. -/
def generalStrings (language : String) : Path :=
  ⟨"resource/dota_" ++ language ++ ".json"⟩

def heroLore (language : String) : Path :=
  ⟨"resource/localization/hero_lore_" ++ language ++ ".txt"⟩

def itemScripts : Path := ⟨"scripts/npc/items.json"⟩

def abilityScripts : Path := ⟨"scripts/npc/npc_abilities.json"⟩

def heroScripts : Path := ⟨"scripts/npc/npc_heroes.json"⟩

def neutralItems : Path := ⟨"scripts/npc/neutral_items.txt"⟩

def ofText (path : Path) (text : String) : Except BuildError Document :=
  if path.isJson then (Resource.ofJsonText text).mapError fun _ => .json
  else (Resource.ofRootedText text).mapError .resource

def document (tree : FileTree) (path : Path) : Except BuildError Document :=
  if tree.isFile path then do
    let text ← (tree.readText path).mapError .file
    ofText path text
  else .error (.missingSource path)

/-- The texts of a resource as they are. -/
def table (tree : FileTree) (path : Path) : Except BuildError StringTable := do
  (StringTable.ofDocument (← document tree path)).mapError .resource

/-- A string table with both spellings of its tooltip tokens. -/
def strings (tree : FileTree) (path : Path) (order : StringTable.TokenOrder := .asListed) :
    Except BuildError StringTable :=
  return (← table tree path).normalizeCase order

/-- The document of a path that may be left out. -/
def document? (tree : FileTree) : Option Path → Except BuildError (Option Document)
  | none => .ok none
  | some path => some <$> document tree path

/-- All readable documents below a directory, in the order of their paths. -/
def responses (tree : FileTree) (directory : Path) : Except BuildError (List Document) :=
  if tree.isDirectory directory then
    .ok ((tree.jsonFiles directory).filterMap fun path => (document tree path).toOption)
  else .error (.missingSource directory)

end Compendium.Source
