import Compendium.Build.Error

/-! The jobs of a build, one for each document that it writes. -/

set_option autoImplicit false
namespace Compendium

inductive Job where
  | items
  | abilities
  | heroes
  | heroNames
  | heroLore
  | aghanim
  deriving DecidableEq, Repr

namespace Job

def all : List Job :=
  [items, abilities, heroes, heroNames, heroLore, aghanim]

/-- The name of the job and the start of its file's name. -/
def name : Job → String
  | items => "items"
  | abilities => "abilities"
  | heroes => "heroes"
  | heroNames => "hero_names"
  | heroLore => "hero_lore"
  | aghanim => "aghs"

def ofName (name : String) : Except BuildError Job :=
  match all.find? (·.name == name) with
  | some job => .ok job
  | none => .error (.unknownJob name)

theorem ofName_name (job : Job) : ofName job.name = .ok job := by
  cases job <;> rfl

end Job
end Compendium
