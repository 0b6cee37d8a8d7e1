import Compendium.Build.Manifest
import Compendium.Build.Source
import Compendium.Catalog.Ability
import Compendium.Catalog.Aghanim
import Compendium.Catalog.Biography
import Compendium.Catalog.Hero
import Compendium.Catalog.Item

/-! What a job makes its document of, and the document it makes. -/

set_option autoImplicit false
namespace Compendium

inductive HeroKey where
  | number
  | name
  deriving DecidableEq, Repr

/-- The sources of one job, loaded. -/
inductive Material where
  | items (strings : StringTable) (scripts neutrals : Document)
  | abilities (strings : StringTable) (scripts : Document)
  | heroes (key : HeroKey) (strings : StringTable) (scripts : Document) (overrides : Option Document)
  | lore (tokens : Document)
  | heroData (answers : List Document)
  deriving Repr

namespace Material

def loadHeroes (manifest : Manifest) (key : HeroKey) (tree : FileTree) (order : StringTable.TokenOrder) :
    Except BuildError Material := do
  let data := manifest.sources.dataDirectory
  let strings ← Source.strings tree (data.below (Source.generalStrings manifest.build.language)) order
  let scripts ← Source.document tree (data.below Source.heroScripts)
  let overrides ← Source.document? tree manifest.sources.heroOverrides
  return .heroes key strings scripts overrides

/-- Loads the sources of a job. The first one that cannot be loaded makes it fail. -/
def load (manifest : Manifest) (tree : FileTree) (job : Job) (order : StringTable.TokenOrder := .asListed) :
    Except BuildError Material :=
  match job with
  | .items => do
    let data := manifest.sources.dataDirectory
    let strings ← Source.strings tree (data.below (Source.abilityStrings manifest.build.language)) order
    let scripts ← Source.document tree (data.below Source.itemScripts)
    let neutrals ← Source.document tree (data.below Source.neutralItems)
    return .items strings scripts neutrals
  | .abilities => do
    let data := manifest.sources.dataDirectory
    let strings ← Source.strings tree (data.below (Source.abilityStrings manifest.build.language)) order
    let scripts ← Source.document tree (data.below Source.abilityScripts)
    return .abilities strings scripts
  | .heroes => loadHeroes manifest .number tree order
  | .heroNames => loadHeroes manifest .name tree order
  | .heroLore => do
    let data := manifest.sources.dataDirectory
    return .lore (← Source.document tree (data.below (Source.heroLore manifest.build.language)))
  | .aghanim => .heroData <$> Source.responses tree manifest.sources.heroDataDirectory

/-- The document that the material makes, and the notices of its making. -/
def compile : Material → Except LayoutError (Report Document)
  | .items strings scripts neutrals => do
    return Item.toDocument <$> (← Item.ofDocument strings scripts neutrals)
  | .abilities strings scripts => do
    return Ability.toDocument <$> (← Ability.ofDocument strings scripts)
  | .heroes .number strings scripts overrides => do
    return Hero.byNumber overrides <$> (← Hero.ofDocument strings scripts)
  | .heroes .name strings scripts overrides => do
    return Hero.byName overrides <$> (← Hero.ofDocument strings scripts)
  | .lore tokens => do
    return Biography.toDocument <$> (← Biography.ofLore tokens)
  | .heroData answers => return AghanimSummary.toDocument <$> AghanimSummary.ofResponses answers

/-- The text of the document as it is written. -/
def text (material : Material) : Except BuildError String :=
  match material.compile with
  | .ok report => .ok (Json.pretty report.value)
  | .error cause => .error (.layout cause)

end Material
end Compendium
