import Compendium.Proofs.Build.Outputs
import Compendium.Proofs.Files.Creating

/-! What the jobs of a build write, each of them in the directory of the outputs. A build is done when every job that
succeeds has written its output; it does not matter in which order. -/

set_option autoImplicit false
namespace Compendium

namespace Job

/-- What a job comes to on its own. -/
def alone (manifest : Manifest) (tree : FileTree) (job : Job) : JobResult :=
  ⟨job, (job.run manifest tree).2⟩

section
variable {manifest : Manifest} {tree : FileTree} {job : Job} {text : String}

theorem run_of_unprepared {error : BuildError} (unprepared : job.prepared manifest tree = .error error) :
    job.run manifest tree = (tree, .error error) := by
  rw [run_eq, unprepared]

theorem run_of_unplaced (slashless : '/' ∉ manifest.build.suffix.toList) {cause : FileError}
    (ready : job.prepared manifest tree = .ok text) (unplaced : (manifest.placed tree).2 = .error cause) :
    job.run manifest tree = ((manifest.placed tree).1, .error (.file cause)) := by
  have made := Manifest.makeParent_eq slashless job tree
  rw [run_eq, ready]
  rcases finish_compiled_cases manifest job tree text .asListed with ⟨succeeded, -⟩ | ⟨other, failed, same⟩
  · rw [made] at succeeded
    cases unplaced.symm.trans succeeded
  · rw [made] at failed same
    obtain rfl := Except.error.inj (unplaced.symm.trans failed)
    exact same

theorem run_of_placed (slashless : '/' ∉ manifest.build.suffix.toList)
    (ready : job.prepared manifest tree = .ok text) (there : (manifest.placed tree).2 = .ok ()) :
    job.run manifest tree = job.store manifest (manifest.placed tree).1 text := by
  have made := Manifest.makeParent_eq slashless job tree
  rw [run_eq, ready]
  rcases finish_compiled_cases manifest job tree text .asListed with ⟨-, same⟩ | ⟨other, failed, -⟩
  · rw [made] at same
    exact same
  · rw [made] at failed
    cases there.symm.trans failed

end
end Job

namespace Manifest

section
variable (manifest : Manifest) (tree : FileTree)

/-- What a job has to write; nothing if it is not prepared. -/
def textOf (job : Job) : String :=
  match job.prepared manifest tree with
  | .ok text => text
  | .error _ => ""

/-- A job has a text, and the text can be written. -/
def Succeeds (job : Job) : Prop :=
  (job.run manifest tree).2 = .ok (manifest.outputOf job)

/-- The tree that the outputs are added to. Their directory is in it if any job asks for it. -/
def ground (jobs : List Job) : FileTree :=
  if ∃ job ∈ jobs, (job.prepared manifest tree).isOk = true then (manifest.placed tree).1 else tree

/-- What a build leaves behind: the output of every job that succeeds, and elsewhere what was there. -/
structure Built (jobs : List Job) (final : FileTree) : Prop where
  outputs : ∀ job ∈ jobs, manifest.Succeeds tree job →
    final.entryAt? (manifest.outputOf job).location = some (.file (.text (manifest.textOf tree job)))
  elsewhere : ∀ location, (∀ job ∈ jobs, manifest.Succeeds tree job → location ≠ (manifest.outputOf job).location) →
    final.entryAt? location = (manifest.ground tree jobs).entryAt? location

/-- Writes the outputs of some jobs, from the last to the first. -/
def fill (base : FileTree) : List Job → FileTree
  | [] => base
  | job :: earlier =>
    (fill base earlier).put (manifest.outputOf job).location (.file (.text (manifest.textOf tree job)))

end

section
variable {manifest : Manifest} {tree base : FileTree} {jobs written : List Job} {job : Job}

theorem store_eq (slashless : '/' ∉ manifest.build.suffix.toList) (there : tree.HasDirectory manifest.targetDirectory)
    (job : Job) (text : String) :
    job.store manifest tree text =
      match manifest.outputCheck tree job with
      | .ok () => (tree.put (manifest.outputOf job).location (.file (.text text)), .ok (manifest.outputOf job))
      | .error cause => (tree, .error (.file cause)) := by
  unfold Job.store
  rw [writeText_outputOf slashless there]
  cases manifest.outputCheck tree job <;> rfl

/-- A job that succeeds has a text, the directory of the outputs is there, and nothing is in the way of its own. -/
theorem Succeeds.cases (wellFormed : tree.WellFormed) (slashless : '/' ∉ manifest.build.suffix.toList)
    (grounded : manifest.targetDirectory.LeavesOnly tree.IsThere) (succeeds : manifest.Succeeds tree job) :
    job.prepared manifest tree = .ok (manifest.textOf tree job) ∧ (manifest.placed tree).2 = .ok () ∧
      manifest.outputCheck (manifest.placed tree).1 job = .ok () := by
  rw [Succeeds] at succeeds
  cases ready : job.prepared manifest tree with
  | error error =>
    rw [Job.run_of_unprepared ready] at succeeds
    cases succeeds
  | ok text =>
    cases there : (manifest.placed tree).2 with
    | error cause =>
      rw [Job.run_of_unplaced slashless ready there] at succeeds
      cases succeeds
    | ok =>
      have made := FileTree.made_makeDirectories wellFormed (targetDirectory_spec slashless job).2.1 grounded
      have present : (manifest.placed tree).1.HasDirectory manifest.targetDirectory := made.present there
      rw [Job.run_of_placed slashless ready there, store_eq slashless present] at succeeds
      cases checked : manifest.outputCheck (manifest.placed tree).1 job with
      | error cause =>
        rw [checked] at succeeds
        cases succeeds
      | ok => exact ⟨by rw [textOf, ready], rfl, rfl⟩

theorem ne_directory_of_outputCheck (checked : manifest.outputCheck tree job = .ok ()) :
    tree.entryAt? (manifest.outputOf job).location ≠ some .directory := by
  intro directory
  rw [outputCheck, if_pos directory] at checked
  cases named : FileTree.checkName (manifest.outputOf job) with
  | error error =>
    rw [named] at checked
    cases checked
  | ok => cases short : FileTree.checkLength (manifest.fileName job) <;> rw [named, short] at checked <;> cases checked

theorem fill_extends (allowed : ∀ job ∈ written, job ∈ jobs ∧
      base.entryAt? (manifest.outputOf job).location ≠ some .directory) :
    FileTree.Extends (fun _ => False) (manifest.IsOutput jobs) base (manifest.fill tree base written) := by
  induction written with
  | nil => exact .same
  | cons job earlier ih =>
    rw [List.forall_mem_cons] at allowed
    obtain ⟨⟨member, free⟩, others⟩ := allowed
    have extended := ih others
    refine .file extended ?_ ⟨job, member, rfl⟩
    intro directory
    rcases extended.directory_cases directory with there | ⟨-, none⟩
    · exact free there
    · exact none

theorem Built.entryAt?_eq {first second : FileTree} (builtFirst : manifest.Built tree jobs first)
    (builtSecond : manifest.Built tree jobs second) (location : Location) :
    first.entryAt? location = second.entryAt? location := by
  by_cases elsewhere : ∀ job ∈ jobs, manifest.Succeeds tree job → location ≠ (manifest.outputOf job).location
  · rw [builtFirst.elsewhere location elsewhere, builtSecond.elsewhere location elsewhere]
  · push Not at elsewhere
    obtain ⟨job, member, succeeds, rfl⟩ := elsewhere
    rw [builtFirst.outputs job member succeeds, builtSecond.outputs job member succeeds]

/-- Who has written is read back from the place of the output; all else is as it was. -/
theorem entryAt?_fill (slashless : '/' ∉ manifest.build.suffix.toList)
    (free : ∀ job ∈ written, base.entryAt? (manifest.outputOf job).location ≠ some .directory) :
    (∀ job ∈ written, (manifest.fill tree base written).entryAt? (manifest.outputOf job).location =
      some (.file (.text (manifest.textOf tree job)))) ∧
    ∀ location, ¬ manifest.IsOutput written location →
      (manifest.fill tree base written).entryAt? location = base.entryAt? location := by
  induction written with
  | nil => exact ⟨nofun, fun _ _ => rfl⟩
  | cons last earlier ih =>
    obtain ⟨wrote, kept⟩ := ih fun job inside => free job (List.mem_cons_of_mem _ inside)
    have fresh : (manifest.fill tree base earlier).entryAt? (manifest.outputOf last).location ≠ some .directory := by
      -- a job can be there twice, and then replaces its own output
      by_cases again : last ∈ earlier
      · rw [wrote last again]
        exact nofun
      · rw [kept]
        · exact free last List.mem_cons_self
        · rintro ⟨job, inside, same⟩
          exact again (location_outputOf_injective slashless same ▸ inside)
    refine ⟨?_, ?_⟩
    · intro job inside
      rw [fill, FileTree.entryAt?_put fresh]
      split
      · next same => rw [location_outputOf_injective slashless same]
      · next apart => exact wrote job ((List.mem_cons.mp inside).resolve_left fun same => apart (by rw [same]))
    · intro location elsewhere
      rw [fill, FileTree.entryAt?_put fresh, if_neg fun same => elsewhere ⟨last, List.mem_cons_self, same⟩]
      exact kept location fun ⟨job, inside, same⟩ => elsewhere ⟨job, List.mem_cons_of_mem _ inside, same⟩

end

namespace Undisturbed

variable {manifest : Manifest} {jobs : List Job} {tree : FileTree} {job : Job}

theorem trimmed (undisturbed : manifest.Undisturbed jobs tree) : manifest.targetDirectory.Trimmed :=
  (targetDirectory_spec undisturbed.slashless .items).2.1

theorem made_placed (undisturbed : manifest.Undisturbed jobs tree) (member : job ∈ jobs) :
    tree.Made manifest.targetDirectory (manifest.placed tree) :=
  FileTree.made_makeDirectories undisturbed.wellFormed undisturbed.trimmed (undisturbed.grounded_targetDirectory member)

theorem cases_of_succeeds (undisturbed : manifest.Undisturbed jobs tree) (member : job ∈ jobs)
    (succeeds : manifest.Succeeds tree job) :
    job.prepared manifest tree = .ok (manifest.textOf tree job) ∧ (manifest.placed tree).2 = .ok () ∧
      manifest.outputCheck (manifest.placed tree).1 job = .ok () :=
  succeeds.cases undisturbed.wellFormed undisturbed.slashless (undisturbed.grounded_targetDirectory member)

theorem free_of_succeeds (undisturbed : manifest.Undisturbed jobs tree) (member : job ∈ jobs)
    (succeeds : manifest.Succeeds tree job) :
    (manifest.placed tree).1.entryAt? (manifest.outputOf job).location ≠ some .directory :=
  ne_directory_of_outputCheck (undisturbed.cases_of_succeeds member succeeds).2.2

/-- What was written since the directory was created is outputs. -/
theorem extends_fill {written : List Job} (undisturbed : manifest.Undisturbed jobs tree)
    (done : ∀ job ∈ written, job ∈ jobs ∧ manifest.Succeeds tree job) :
    FileTree.Extends (fun _ => False) (manifest.IsOutput jobs) (manifest.placed tree).1
      (manifest.fill tree (manifest.placed tree).1 written) :=
  fill_extends fun job inside => ⟨(done job inside).1, undisturbed.free_of_succeeds (done job inside).1 (done job inside).2⟩

/-- The files of a built tree are the outputs of the jobs that succeed, and elsewhere those that were there. -/
theorem file_iff_of_built {final : FileTree} (undisturbed : manifest.Undisturbed jobs tree)
    (built : manifest.Built tree jobs final) (location : Location) (content : Content) :
    final.entryAt? location = some (.file content) ↔
      (∃ job ∈ jobs, manifest.Succeeds tree job ∧ location = (manifest.outputOf job).location ∧
        content = .text (manifest.textOf tree job)) ∨
      (∀ job ∈ jobs, manifest.Succeeds tree job → location ≠ (manifest.outputOf job).location) ∧
        tree.entryAt? location = some (.file content) := by
  have before : (manifest.ground tree jobs).entryAt? location = some (.file content) ↔
      tree.entryAt? location = some (.file content) := by
    rw [ground]
    split
    · next asked =>
      obtain ⟨job, member, -⟩ := asked
      exact (undisturbed.made_placed member).grown.file_iff not_false content
    · rfl
  by_cases elsewhere : ∀ job ∈ jobs, manifest.Succeeds tree job → location ≠ (manifest.outputOf job).location
  · rw [built.elsewhere location elsewhere, before]
    refine ⟨fun there => .inr ⟨elsewhere, there⟩, ?_⟩
    rintro (⟨job, member, succeeds, same, -⟩ | ⟨-, there⟩)
    · exact absurd same (elsewhere job member succeeds)
    · exact there
  · push Not at elsewhere
    obtain ⟨job, member, succeeds, rfl⟩ := elsewhere
    rw [built.outputs job member succeeds]
    constructor
    · rintro ⟨⟩
      exact .inl ⟨job, member, succeeds, rfl, rfl⟩
    · rintro (⟨other, also, -, same, rfl⟩ | ⟨apart, -⟩)
      · rw [location_outputOf_injective undisturbed.slashless same]
      · exact absurd rfl (apart job member succeeds)

end Undisturbed
end Manifest
end Compendium
