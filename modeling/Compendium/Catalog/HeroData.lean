import Compendium.Document.Record

/-! Answers of the game's data service: the abilities of one hero with their localized texts. -/

set_option autoImplicit false
namespace Compendium

structure SpecialValue where
  name : String
  heading : String
  doubles : List Document
  integers : List Document
  deriving Repr

structure HeroAbility where
  name : String
  localizedName : String
  desc : String
  scepterDesc : String
  shardDesc : String
  grantedByScepter : Bool
  hasScepter : Bool
  grantedByShard : Bool
  hasShard : Bool
  specialValues : List SpecialValue
  deriving Repr

structure HeroData where
  id : Int
  name : String
  abilities : List HeroAbility
  deriving Repr

open Document

def SpecialValue.ofDocument? (document : Document) : Option SpecialValue := do
  let members ← document.strictRecord? ["name", "heading_loc", "values_float", "values_int"]
  return {
    name := ← fieldOr members "name" "" text?
    heading := ← fieldOr members "heading_loc" "" text?
    doubles := ← fieldOr members "values_float" [] items?
    integers := ← fieldOr members "values_int" [] items? }

namespace HeroAbility

def fields : List String :=
  ["name", "name_loc", "desc_loc", "scepter_loc", "shard_loc", "ability_is_granted_by_scepter", "ability_has_scepter",
   "ability_is_granted_by_shard", "ability_has_shard", "special_values"]

def ofDocument? (document : Document) : Option HeroAbility := do
  let members ← document.strictRecord? fields
  return {
    name := ← fieldOr members "name" "" text?
    localizedName := ← fieldOr members "name_loc" "" text?
    desc := ← fieldOr members "desc_loc" "" text?
    scepterDesc := ← fieldOr members "scepter_loc" "" text?
    shardDesc := ← fieldOr members "shard_loc" "" text?
    grantedByScepter := ← fieldOr members "ability_is_granted_by_scepter" false bool?
    hasScepter := ← fieldOr members "ability_has_scepter" false bool?
    grantedByShard := ← fieldOr members "ability_is_granted_by_shard" false bool?
    hasShard := ← fieldOr members "ability_has_shard" false bool?
    specialValues := ← fieldOr members "special_values" [] (listOf? SpecialValue.ofDocument?) }

end HeroAbility

namespace HeroData

def ofDocument? (document : Document) : Option HeroData := do
  let members ← document.strictRecord? ["id", "name", "abilities"]
  return {
    id := ← fieldOr members "id" 0 integer?
    name := ← fieldOr members "name" "" text?
    abilities := ← fieldOr members "abilities" [] (listOf? HeroAbility.ofDocument?) }

def ofBody? (document : Document) : Option (List HeroData) := do
  let members ← document.strictRecord? ["heroes"]
  fieldOr members "heroes" [] (listOf? ofDocument?)

/-- The heroes of a result; null stands for a result that is missing. -/
def ofResult? (document : Document) : Option (List HeroData) :=
  match document with
  | .null => some []
  | document => do
    let members ← document.strictRecord? ["data"]
    fieldOr members "data" [] ofBody?

/-- The heroes that a response holds, or nothing if it has another shape. -/
def ofResponse? (document : Document) : Option (List HeroData) := do
  let members ← document.strictRecord? ["result"]
  fieldOr members "result" [] ofResult?

end HeroData
end Compendium
