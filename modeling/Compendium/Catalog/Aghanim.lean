import Compendium.Catalog.HeroData
import Compendium.Notice
import Compendium.Tooltip.Attribute
import Compendium.Tooltip.Template

/-! What Aghanim's Scepter and Aghanim's Shard do for each hero. -/

set_option autoImplicit false
namespace Compendium

/-- What both objects do for a hero. All that is told of an object is empty until an ability tells of it. -/
structure AghanimSummary where
  heroName : String
  heroId : Int
  hasScepter : Bool := false
  scepterDesc : String := ""
  scepterSkill : String := ""
  scepterIsNew : Bool := false
  hasShard : Bool := false
  shardDesc : String := ""
  shardSkill : String := ""
  shardIsNew : Bool := false
  deriving DecidableEq, Repr

/-- The doubles, then the integers, each with commas between them. -/
def SpecialValue.joined (value : SpecialValue) : String :=
  Text.join "," (value.doubles.map Document.display) ++ Text.join "," (value.integers.map Document.display)

namespace Upgrade

/-- The letters that some letter between `a` and `z` equals up to case: the two after the underscore are the long
s and the Kelvin sign. -/
def isNameChar (c : Char) : Bool :=
  c.isAlpha || c == '_' || c == '\u017F' || c == '\u212A'

def nameToken : TokenGrammar :=
  ⟨isNameChar, false⟩

def separator : String := "；"

/-- All values that have a heading, behind their headings. -/
def headed (values : List SpecialValue) : String :=
  Text.join separator ((values.filter (·.heading ≠ "")).map fun value => value.heading ++ value.joined)

/-- Replaces the first token of a name by the first value of that name. -/
def fillName (values : List SpecialValue) (text name : String) : String :=
  match values.find? (·.name == name) with
  | some value => Text.replaceFirst text ("%" ++ name ++ "%") value.joined
  | none => text

/-- Fills the tokens of a description one after the other. Values are put behind a description without tokens. -/
def describe (desc : String) (values : List SpecialValue) : String :=
  let text := Text.replaceAll desc "%%" "%"
  if values.isEmpty then text
  else
    match nameToken.names text with
    | [] => text ++ headed values
    | names => names.foldl (fillName values) text

end Upgrade

namespace AghanimSummary

def tellScepter (summary : AghanimSummary) (ability : HeroAbility) : AghanimSummary :=
  if ability.grantedByScepter then { summary with
    scepterDesc := Upgrade.describe ability.desc ability.specialValues
    scepterSkill := ability.localizedName
    scepterIsNew := true
    hasScepter := true }
  else if ability.hasScepter && ability.scepterDesc ≠ "" then { summary with
    scepterDesc := Upgrade.describe ability.scepterDesc ability.specialValues
    scepterSkill := ability.localizedName
    scepterIsNew := false
    hasScepter := true }
  else summary

def tellShard (summary : AghanimSummary) (ability : HeroAbility) : AghanimSummary :=
  if ability.grantedByShard then { summary with
    shardDesc := Upgrade.describe ability.desc ability.specialValues
    shardSkill := ability.localizedName
    shardIsNew := true
    hasShard := true }
  else if ability.hasShard && ability.shardDesc ≠ "" then { summary with
    shardDesc := Upgrade.describe ability.shardDesc ability.specialValues
    shardSkill := ability.localizedName
    shardIsNew := false
    hasShard := true }
  else summary

/-- A named and described ability overwrites what earlier ones told of the objects that it tells of. -/
def addAbility (summary : AghanimSummary) (ability : HeroAbility) : AghanimSummary :=
  if ability.localizedName = "" ∨ ability.desc = "" then summary
  else (summary.tellScepter ability).tellShard ability

def ofHero (hero : HeroData) : Report AghanimSummary := do
  let summary := hero.abilities.foldl addAbility { heroName := hero.name, heroId := hero.id }
  if !summary.hasShard then Report.tell (.noShard summary.heroName summary.heroId)
  if !summary.hasScepter then Report.tell (.noScepter summary.heroName summary.heroId)
  return summary

/-- The first hero of a response counts. -/
def addResponse (summaries : Members AghanimSummary) (response : Document) : Report (Members AghanimSummary) :=
  match HeroData.ofResponse? response with
  | none => do
    Report.tell .unreadableResponse
    return summaries
  | some [] => do
    Report.tell .responseWithoutHero
    return summaries
  | some (hero :: _) => do
    let summary ← ofHero hero
    return Members.put summaries (toString hero.id) summary

/-- The summaries by the decimal text of the hero's number. -/
def ofResponses (responses : List Document) : Report (Members AghanimSummary) :=
  responses.foldlM addResponse []

/-- The members that tell of one of the objects; `kind` is its name. -/
def upgradeMembers (kind : String) (present : Bool) (desc skill : String) (isNew : Bool) : List (String × Document) :=
  [("has_" ++ kind, .bool present), (kind ++ "_desc", .text desc), (kind ++ "_skill_name", .text skill),
    (kind ++ "_new_skill", .bool isNew)]

def toMembers (summary : AghanimSummary) : List (String × Document) :=
  [("hero_name", .text summary.heroName), ("hero_id", .integer summary.heroId)]
    ++ upgradeMembers "scepter" summary.hasScepter summary.scepterDesc summary.scepterSkill summary.scepterIsNew
    ++ upgradeMembers "shard" summary.hasShard summary.shardDesc summary.shardSkill summary.shardIsNew

def toDocument (summaries : Members AghanimSummary) : Document :=
  .table (Members.mapValues (fun summary => .table summary.toMembers) summaries)

end AghanimSummary
end Compendium
