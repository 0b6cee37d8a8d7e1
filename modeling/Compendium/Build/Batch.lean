import Compendium.Build.Stage

/-! Running several jobs. A job that fails stops no other one. -/

set_option autoImplicit false
namespace Compendium

/-- A job and how it ended. -/
structure JobResult where
  job : Job
  outcome : Except BuildError Path
  deriving Repr

namespace JobResult

def isSuccess (result : JobResult) : Bool :=
  match result.outcome with
  | .ok _ => true
  | .error _ => false

def message (result : JobResult) : String :=
  match result.outcome with
  | .ok path => "Built: " ++ path.text
  | .error error => "Failed " ++ result.job.name ++ ": " ++ error.message

end JobResult

/-- The results of a batch of jobs, in their order. -/
structure BatchResult where
  results : List JobResult
  deriving Repr

namespace BatchResult

def successCount (batch : BatchResult) : Nat :=
  (batch.results.filter JobResult.isSuccess).length

def failCount (batch : BatchResult) : Nat :=
  (batch.results.filter fun result => !result.isSuccess).length

def isSuccess (batch : BatchResult) : Bool :=
  batch.failCount == 0

def messages (batch : BatchResult) : List String :=
  batch.results.map JobResult.message

def failures (batch : BatchResult) : List String :=
  (batch.results.filter fun result => !result.isSuccess).map JobResult.message

theorem successCount_add_failCount (batch : BatchResult) :
    batch.successCount + batch.failCount = batch.results.length := by
  simp only [successCount, failCount, ← List.countP_eq_length_filter]
  have := List.length_eq_countP_add_countP JobResult.isSuccess (l := batch.results)
  simp_all

end BatchResult

namespace Job

/-- Runs jobs one after the other. Each goes through its string table in an order of its own, which is given by the number
of the jobs behind it. -/
def runAll (manifest : Manifest) (tree : FileTree) (orders : Nat → StringTable.TokenOrder) :
    List Job → FileTree × List JobResult
  | [] => (tree, [])
  | job :: rest =>
    let (changed, outcome) := job.run manifest tree (orders rest.length)
    let (final, results) := runAll manifest changed orders rest
    (final, ⟨job, outcome⟩ :: results)

end Job

/-- Runs a batch of jobs over a file tree. -/
def Manifest.run (manifest : Manifest) (jobs : List Job) (tree : FileTree)
    (orders : Nat → StringTable.TokenOrder := fun _ => .asListed) : FileTree × BatchResult :=
  let (final, results) := Job.runAll manifest tree orders jobs
  (final, ⟨results⟩)

end Compendium
