import Compendium.Build.Batch

/-! A job on its own. It changes nothing before its text is made, so a job that fails for the sake of its sources leaves
all files and directories as they were. -/

set_option autoImplicit false
namespace Compendium

instance decidableEqExcept {ε α : Type} [DecidableEq ε] [DecidableEq α] : DecidableEq (Except ε α)
  | .ok first, .ok second => decidable_of_iff (first = second) (by simp)
  | .error first, .error second => decidable_of_iff (first = second) (by simp)
  | .ok _, .error _ => isFalse (by simp)
  | .error _, .ok _ => isFalse (by simp)

namespace Job

/-- What a job has to write, or why it has nothing. -/
def prepared (manifest : Manifest) (tree : FileTree) (job : Job) (order : StringTable.TokenOrder := .asListed) :
    Except BuildError String := do
  (← Material.load manifest tree job order).text

/-- Writes the file into a directory that is there. -/
def store (manifest : Manifest) (job : Job) (tree : FileTree) (text : String) : FileTree × Except BuildError Path :=
  match tree.writeText (manifest.outputOf job) text with
  | .ok written => (written, .ok (manifest.outputOf job))
  | .error cause => (tree, .error (.file cause))

section
variable {manifest : Manifest} {job : Job} {tree : FileTree} {order : StringTable.TokenOrder}

theorem finish_finished (result : Except BuildError Path) :
    job.finish manifest tree (.finished result) order = (tree, result) := by
  rw [finish]
  rfl

/-- A job that is not at its end goes on with its next step. -/
theorem finish_next {stage : Stage} (unfinished : stage.result? = none) :
    job.finish manifest tree stage order =
      job.finish manifest (stage.next manifest job tree order).1 (stage.next manifest job tree order).2 order := by
  rw [finish]
  split
  · next result found =>
    rw [unfinished] at found
    cases found
  · rfl

theorem finish_placed (text : String) :
    job.finish manifest tree (.placed text) order = store manifest job tree text := by
  rw [finish_next rfl, Stage.next]
  unfold Stage.write store
  cases tree.writeText (manifest.outputOf job) text with
  | ok written => exact finish_finished (.ok (manifest.outputOf job))
  | error cause => exact finish_finished (.error (.file cause))

/-- Behind its text a job creates the directory of its file; only if it is there, the file. -/
theorem finish_compiled (text : String) : job.finish manifest tree (.compiled text) order =
    match (Stage.makeParent tree (manifest.outputOf job)).2 with
    | .ok () => store manifest job (Stage.makeParent tree (manifest.outputOf job)).1 text
    | .error cause => ((Stage.makeParent tree (manifest.outputOf job)).1, .error (.file cause)) := by
  have step : Stage.next manifest job tree (.compiled text) order =
      ((Stage.makeParent tree (manifest.outputOf job)).1,
        Stage.orFailed ((Stage.makeParent tree (manifest.outputOf job)).2.mapError .file) fun _ => .placed text) := rfl
  rw [finish_next rfl, step]
  cases (Stage.makeParent tree (manifest.outputOf job)).2 with
  | ok => exact finish_placed text
  | error cause => exact finish_finished (.error (.file cause))

theorem finish_compiled_cases (manifest : Manifest) (job : Job) (tree : FileTree) (text : String)
    (order : StringTable.TokenOrder) :
    let made := Stage.makeParent tree (manifest.outputOf job)
    (made.2 = .ok () ∧ job.finish manifest tree (.compiled text) order = store manifest job made.1 text) ∨
    ∃ cause, made.2 = .error cause ∧ job.finish manifest tree (.compiled text) order = (made.1, .error (.file cause)) := by
  intro made
  rw [finish_compiled]
  cases (Stage.makeParent tree (manifest.outputOf job)).2 with
  | ok => exact .inl ⟨rfl, rfl⟩
  | error cause => exact .inr ⟨cause, rfl, rfl⟩

/-- The sources and the text of a job come first. Where these fail, nothing follows. -/
theorem run_eq : job.run manifest tree order =
    match prepared manifest tree job order with
    | .error error => (tree, .error error)
    | .ok text => job.finish manifest tree (.compiled text) order := by
  rw [run, finish_next rfl, Stage.next, prepared]
  cases Material.load manifest tree job order with
  | error error => exact finish_finished (.error error)
  | ok material =>
    change job.finish manifest tree (.loaded material) order = match material.text with
      | .error error => (tree, .error error)
      | .ok text => job.finish manifest tree (.compiled text) order
    rw [finish_next rfl, Stage.next]
    cases material.text with
    | error error => exact finish_finished (.error error)
    | ok text => rfl

/-- Only what a job loads can depend on the order in which it goes through tokens. -/
theorem run_congr {other : StringTable.TokenOrder}
    (same : Material.load manifest tree job order = Material.load manifest tree job other) :
    job.run manifest tree order = job.run manifest tree other := by
  have prepared : job.prepared manifest tree order = job.prepared manifest tree other := by
    rw [Job.prepared, Job.prepared, same]
  rw [run_eq, run_eq, prepared]
  cases job.prepared manifest tree other with
  | error error => rfl
  | ok text => exact (finish_compiled text).trans (finish_compiled text).symm

end

/-- The directory of the file cannot be created, or the file cannot be written into it. -/
inductive OutputFails (manifest : Manifest) (job : Job) (tree : FileTree) (order : StringTable.TokenOrder) :
    BuildError → Prop where
  | directory {text : String} {cause : FileError} : prepared manifest tree job order = .ok text →
      (Stage.makeParent tree (manifest.outputOf job)).2 = .error cause → OutputFails manifest job tree order (.file cause)
  | file {text : String} {cause : FileError} : prepared manifest tree job order = .ok text →
      (Stage.makeParent tree (manifest.outputOf job)).2 = .ok () →
      (Stage.makeParent tree (manifest.outputOf job)).1.writeText (manifest.outputOf job) text = .error cause →
      OutputFails manifest job tree order (.file cause)

section
variable {manifest : Manifest} {job : Job} {tree : FileTree} {order : StringTable.TokenOrder}
  {error : BuildError}

theorem outputFails_of_finish {text : String} (ready : prepared manifest tree job order = .ok text)
    (failed : (job.finish manifest tree (.compiled text) order).2 = .error error) :
    OutputFails manifest job tree order error := by
  rcases finish_compiled_cases manifest job tree text order with ⟨made, same⟩ | ⟨cause, made, same⟩
  · rw [same] at failed
    unfold store at failed
    split at failed
    · cases failed
    · next cause refused =>
      cases failed
      exact .file ready made refused
  · rw [same] at failed
    cases failed
    exact .directory ready made

theorem run_failed_cases (failed : (job.run manifest tree order).2 = .error error) :
    (prepared manifest tree job order = .error error ∧ (job.run manifest tree order).1 = tree) ∨
    OutputFails manifest job tree order error := by
  rw [run_eq] at failed ⊢
  cases ready : prepared manifest tree job order with
  | error cause =>
    rw [ready] at failed
    cases failed
    exact .inl ⟨rfl, rfl⟩
  | ok text =>
    rw [ready] at failed
    exact .inr (outputFails_of_finish ready failed)

/-- A job that fails before it comes to its output leaves the files and directories as they are, in whatever order it goes
through the tokens of its texts. -/
theorem tree_run_of_failed (failed : (job.run manifest tree order).2 = .error error)
    (elsewhere : ¬ OutputFails manifest job tree order error) : (job.run manifest tree order).1 = tree := by
  rcases run_failed_cases failed with ⟨-, same⟩ | output
  · exact same
  · exact absurd output elsewhere

end

/-- Files of an earlier build, and biographies whose block is not closed any more. -/
def worn : FileTree :=
  ⟨[(["data"], .directory), (["resource", "data"], .directory), (["localization", "resource", "data"], .directory),
    (["hero_lore_schinese.txt", "localization", "resource", "data"], .file (.text "lang \x7b")),
    (["build"], .directory), (["hero_lore_cn.json", "build"], .file (.text "{}"))]⟩

theorem tree_run_of_failed_worn :
    (Job.heroLore.run {} worn).2 = .error (.resource (.fault (.unclosedBlocks 1))) ∧
    (Job.heroLore.run {} worn).1 = worn := by
  have unready : prepared {} worn .heroLore = .error (.resource (.fault (.unclosedBlocks 1))) := by
    decide +kernel
  have failed : (Job.heroLore.run {} worn).2 = .error (.resource (.fault (.unclosedBlocks 1))) := by
    rw [run_eq, unready]
  exact ⟨failed, tree_run_of_failed failed nofun⟩

end Job
end Compendium
