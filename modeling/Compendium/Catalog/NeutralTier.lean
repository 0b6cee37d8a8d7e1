import Compendium.Notice
import Compendium.Catalog.Script

/-! Tiers of the neutral items, from blocks that are keyed by the tier number. -/

set_option autoImplicit false
namespace Compendium.NeutralTier

/-- A tier number is written with digits, after at most one plus sign, and fits 32 bits. -/
def read? (key : String) : Option Nat :=
  let digits := match Text.trim key.toList with
    | '+' :: rest => rest
    | rest => rest
  if digits ≠ [] ∧ digits.all Char.isDigit ∧ readDigits digits < Nat.pow 2 32 then some (readDigits digits) else none

/-- An item and the name it has without a recipe both get the tier. -/
def putItem (tiers : Members Nat) (tier : Nat) (name : String) : Members Nat :=
  Members.put (Members.put tiers name tier) (Text.replaceAll name "recipe_" "") tier

def addBlock (tiers : Members Nat) (entry : String × Document) : Report (Members Nat) :=
  match read? entry.1 with
  | none => do
    Report.tell (.skippedTierBlock entry.1)
    return tiers
  | some tier =>
    let items := ((entry.2.member? "items").bind Document.members?).getD []
    return (Members.names items).foldl (fun tiers name => putItem tiers tier name) tiers

/-- The tier of every neutral item. -/
def ofDocument (neutrals : Document) : Report (Members Nat) :=
  (neutrals.members?.getD []).foldlM addBlock []

end Compendium.NeutralTier
