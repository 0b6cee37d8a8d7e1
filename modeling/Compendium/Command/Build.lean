import Compendium.Build.Batch
import Compendium.Command.Basic
import Compendium.Command.Outcome

/-! The command that builds the documents. -/

set_option autoImplicit false
namespace Compendium.BuildRequest

/-- Steps are told unless the command is to be quiet. -/
def step (request : BuildRequest) (number : Nat) (content : String) : List OutputLine :=
  if request.quiet then [] else [.text ("[" ++ toString number ++ "/3] " ++ content)]

/-- The manifest with the changes of the request, and the jobs to run. -/
def plan (request : BuildRequest) (tree : FileTree) : Except BuildError (Manifest × List Job) := do
  let manifest := request.changes.apply (← Manifest.loadOrDefault tree request.manifest)
  return (manifest, if request.jobs.isEmpty then manifest.enabledJobs else request.jobs)

def counts (batch : BatchResult) : List String :=
  ["", "Build complete:", "  Success: " ++ toString batch.successCount, "  Failed: " ++ toString batch.failCount]

def failures (batch : BatchResult) : List String :=
  ["", "Failures:"] ++ batch.failures.map ("  " ++ ·)

/-- The end of a build, told from its results. -/
def summary (request : BuildRequest) (batch : BatchResult) : List OutputLine :=
  (counts batch).map .text
    ++ if batch.isSuccess then (if request.quiet then [] else [.elapsed]) else (failures batch).map .text

def runJobs (request : BuildRequest) (manifest : Manifest) (jobs : List Job) (tree : FileTree)
    (orders : Nat → StringTable.TokenOrder) : Outcome :=
  let (final, batch) := manifest.run jobs tree orders
  let size := toString jobs.length
  { tree := final
    lines := request.step 1 "🔍 Reading manifest..."
      ++ request.step 2 ("⚙️  Building " ++ size ++ " documents (" ++ manifest.build.language ++ ")...")
      ++ request.step 3 ("💾 Wrote to " ++ manifest.build.outputDirectory.text)
      ++ request.summary batch
    result := if batch.isSuccess then .ok () else .error (.failedJobs batch.failCount jobs.length) }

def run (request : BuildRequest) (tree : FileTree) (orders : Nat → StringTable.TokenOrder) : Outcome :=
  let first := request.step 1 "🔍 Reading manifest..."
  match request.plan tree with
  | .error error => ⟨tree, first, .error (.build error)⟩
  | .ok (_, []) => ⟨tree, first ++ [.text ("No jobs enabled in: " ++ request.manifest.text)], .ok ()⟩
  | .ok (manifest, jobs) => request.runJobs manifest jobs tree orders

end Compendium.BuildRequest
