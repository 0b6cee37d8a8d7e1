import Compendium.KeyValues.Block
import Compendium.Text.LetterCase

/-! Resource files wrap everything in one top-level block. The root of such a file is that block, its direct keys
in lower case. -/

set_option autoImplicit false
namespace Compendium.KeyValues

/-- Keys that become equal keep the first place and the last value. -/
def lowerKeys (entries : Entries) : Entries :=
  Members.ofPairs (entries.map fun (key, node) => (Text.lower key, node))

/-- The first top-level entry, if it is a block. -/
def root? : Entries → Option Entries
  | (_, .block entries) :: _ => some (lowerKeys entries)
  | _ => none

end Compendium.KeyValues
