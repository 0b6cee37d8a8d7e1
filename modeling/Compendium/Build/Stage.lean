import Compendium.Build.Material

/-! How far a job has come. A job loads its sources, makes its document, creates the directory of its file and
writes the file, each in one step. -/

set_option autoImplicit false
namespace Compendium

inductive Stage where
  | waiting
  | loaded (material : Material)
  | compiled (text : String)
  /-- The directory of the file is there. -/
  | placed (text : String)
  | finished (result : Except BuildError Path)
  deriving Repr

namespace Stage

/-- An upper bound of the steps that are left. -/
def remaining : Stage → Nat
  | waiting => 4
  | loaded _ => 3
  | compiled _ => 2
  | placed _ => 1
  | finished _ => 0

def failed (error : BuildError) : Stage :=
  finished (.error error)

/-- Creates the directory that a file goes to. -/
def makeParent (tree : FileTree) (path : Path) : FileTree × Except FileError Unit :=
  match path.parent? with
  | some parent => tree.makeDirectories parent
  | none => (tree, .ok ())

/-- The stage that a result leads to. -/
def orFailed {α : Type} (result : Except BuildError α) (reached : α → Stage) : Stage :=
  match result with
  | .ok value => reached value
  | .error error => failed error

/-- Creates the directory of the file. -/
def place (manifest : Manifest) (job : Job) (tree : FileTree) (text : String) : FileTree × Stage :=
  let made := makeParent tree (manifest.outputOf job)
  (made.1, orFailed (made.2.mapError .file) fun _ => placed text)

/-- Writes the file. -/
def write (manifest : Manifest) (job : Job) (tree : FileTree) (text : String) : FileTree × Stage :=
  match tree.writeText (manifest.outputOf job) text with
  | .ok written => (written, finished (.ok (manifest.outputOf job)))
  | .error error => (tree, failed (.file error))

/-- One step of a job. A finished job stays as it is. -/
def next (manifest : Manifest) (job : Job) (tree : FileTree) (stage : Stage)
    (order : StringTable.TokenOrder := .asListed) : FileTree × Stage :=
  match stage with
  | waiting => (tree, orFailed (Material.load manifest tree job order) loaded)
  | loaded material => (tree, orFailed material.text compiled)
  | compiled text => place manifest job tree text
  | placed text => write manifest job tree text
  | finished result => (tree, finished result)

/-- How a finished job ended. -/
def result? : Stage → Option (Except BuildError Path)
  | finished result => some result
  | _ => none

theorem remaining_orFailed_lt {α : Type} (result : Except BuildError α) (reached : α → Stage) {bound : Nat}
    (positive : 0 < bound) (smaller : ∀ value, (reached value).remaining < bound) :
    (orFailed result reached).remaining < bound := by
  cases result with
  | ok value => exact smaller value
  | error error => exact positive

theorem remaining_write (manifest : Manifest) (job : Job) (tree : FileTree) (text : String) :
    (write manifest job tree text).2.remaining = 0 := by
  unfold write
  split <;> rfl

theorem remaining_next_lt (manifest : Manifest) (job : Job) (tree : FileTree) (order : StringTable.TokenOrder)
    {stage : Stage} (unfinished : stage.result? = none) :
    (next manifest job tree stage order).2.remaining < stage.remaining := by
  cases stage with
  | waiting => exact remaining_orFailed_lt _ _ (Nat.succ_pos _) fun _ => Nat.lt_succ_self _
  | loaded material => exact remaining_orFailed_lt _ _ (Nat.succ_pos _) fun _ => Nat.lt_succ_self _
  | compiled text => exact remaining_orFailed_lt _ _ (Nat.succ_pos _) fun _ => Nat.lt_succ_self _
  | placed text => exact Nat.lt_of_le_of_lt (Nat.le_of_eq (remaining_write manifest job tree text)) Nat.one_pos
  | finished result => cases unfinished

end Stage

namespace Job

/-- Steps from a stage until the job is finished. -/
def finish (manifest : Manifest) (job : Job) (tree : FileTree) (stage : Stage)
    (order : StringTable.TokenOrder := .asListed) : FileTree × Except BuildError Path :=
  match _unfinished : stage.result? with
  | some result => (tree, result)
  | none =>
    finish manifest job (stage.next manifest job tree order).1 (stage.next manifest job tree order).2 order
termination_by stage.remaining
decreasing_by exact Stage.remaining_next_lt manifest job tree order _unfinished

/-- Runs a job. What it changed before a failure stays. -/
def run (manifest : Manifest) (job : Job) (tree : FileTree) (order : StringTable.TokenOrder := .asListed) :
    FileTree × Except BuildError Path :=
  job.finish manifest tree .waiting order

end Job
end Compendium
