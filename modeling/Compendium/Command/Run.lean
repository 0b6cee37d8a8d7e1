import Compendium.Command.Build
import Compendium.Command.Convert
import Compendium.Command.Inspect

/-! Carrying out a command over a file tree. -/

set_option autoImplicit false
namespace Compendium.Command

/-- The tokens of the tables that are loaded are gone through in the given orders. -/
def run (tree : FileTree) (command : Command) (orders : Nat → StringTable.TokenOrder := fun _ => .asListed) : Outcome :=
  match command with
  | .build request => request.run tree orders
  | .convert request => request.run tree
  | .inspect request => request.run tree (orders 0)

end Compendium.Command
