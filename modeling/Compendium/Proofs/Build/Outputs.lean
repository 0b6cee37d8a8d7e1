import Compendium.Proofs.Build.Reading
import Compendium.Proofs.Build.Running

/-! Where the jobs of a build write to. All outputs go to one directory under names of their own, and neither that
directory nor the outputs are looked at by a job that loads its sources. -/

set_option autoImplicit false
namespace Compendium

theorem Job.name_injective {first second : Job} (same : first.name = second.name) : first = second := by
  have read := Job.ofName_name first
  rw [same, Job.ofName_name] at read
  exact (Except.ok.inj read).symm

namespace Manifest

/-- The name of the file that a job writes. -/
def fileName (manifest : Manifest) (job : Job) : String :=
  job.name ++ manifest.build.suffix ++ ".json"

/-- The directory that all outputs go to. -/
def targetDirectory (manifest : Manifest) : Path :=
  (manifest.outputOf .items).parent?.getD ⟨""⟩

/-- What is there when the directory for the outputs was created, or could not be created. -/
def placed (manifest : Manifest) (tree : FileTree) : FileTree × Except FileError Unit :=
  tree.makeDirectories manifest.targetDirectory

/-- A place that is no directory to be created for the outputs. -/
def Steady (manifest : Manifest) (tree : FileTree) (location : Location) : Prop :=
  location <:+ manifest.targetDirectory.location → tree.IsThere location

instance (manifest : Manifest) (tree : FileTree) : DecidablePred (manifest.Steady tree) :=
  fun location => inferInstanceAs (Decidable (location <:+ manifest.targetDirectory.location → tree.IsThere location))

/-- Whether a place is that of an output. -/
def IsOutput (manifest : Manifest) (jobs : List Job) (location : Location) : Prop :=
  ∃ job ∈ jobs, location = (manifest.outputOf job).location

section
variable {manifest : Manifest}

theorem isFileName_fileName (slashless : '/' ∉ manifest.build.suffix.toList) (job : Job) :
    IsFileName (manifest.fileName job) := by
  have long : 5 ≤ (manifest.fileName job).toList.length := by
    rw [fileName, String.toList_append, List.length_append]
    exact Nat.le_add_left 5 _
  have name : '/' ∉ job.name.toList := by cases job <;> decide
  refine ⟨?_, ?_⟩
  · intro short
    simp only [List.mem_cons, List.not_mem_nil, or_false] at short
    rcases short with same | same | same <;> exact absurd long (by rw [same]; decide)
  · simp [fileName, name, slashless]

theorem fileName_injective {first second : Job} (same : manifest.fileName first = manifest.fileName second) :
    first = second := by
  apply Job.name_injective
  have letters := congrArg String.toList same
  simp only [fileName, String.toList_append] at letters
  exact String.toList_inj.mp (List.append_cancel_right (List.append_cancel_right letters))

theorem targetDirectory_spec (slashless : '/' ∉ manifest.build.suffix.toList) (job : Job) :
    (manifest.outputOf job).parent? = some manifest.targetDirectory ∧ manifest.targetDirectory.Trimmed ∧
      manifest.targetDirectory.Leads (manifest.fileName job) (manifest.outputOf job) := by
  obtain ⟨parent, each⟩ := Path.parent?_child manifest.build.outputDirectory
  have same : manifest.targetDirectory = parent := by
    rw [targetDirectory, show (manifest.outputOf .items).parent? = some parent from
      (each _ (isFileName_fileName slashless .items)).1, Option.getD_some]
  rw [same]
  exact each _ (isFileName_fileName slashless job)

theorem makeParent_eq (slashless : '/' ∉ manifest.build.suffix.toList) (job : Job) (tree : FileTree) :
    Stage.makeParent tree (manifest.outputOf job) = tree.makeDirectories manifest.targetDirectory := by
  rw [Stage.makeParent, (targetDirectory_spec slashless job).1]

theorem location_outputOf (slashless : '/' ∉ manifest.build.suffix.toList) (job : Job) :
    (manifest.outputOf job).location = manifest.fileName job :: manifest.targetDirectory.location := by
  have plain := isFileName_fileName slashless job
  rw [(targetDirectory_spec slashless job).2.2.location, Location.enter_of_ne plain.isIdle plain.ne_up]

theorem location_outputOf_injective (slashless : '/' ∉ manifest.build.suffix.toList) {first second : Job}
    (same : (manifest.outputOf first).location = (manifest.outputOf second).location) : first = second := by
  rw [location_outputOf slashless, location_outputOf slashless] at same
  exact fileName_injective (List.cons.inj same).1

/-- What can keep an output from being written into a directory that is there: its name, or another directory. -/
def outputCheck (manifest : Manifest) (tree : FileTree) (job : Job) : Except FileError Unit := do
  FileTree.checkName (manifest.outputOf job)
  FileTree.checkLength (manifest.fileName job)
  if tree.entryAt? (manifest.outputOf job).location = some .directory then .error .isDirectory

theorem writeText_outputOf (slashless : '/' ∉ manifest.build.suffix.toList) {tree : FileTree}
    (there : tree.HasDirectory manifest.targetDirectory) (job : Job) (text : String) :
    tree.writeText (manifest.outputOf job) text = (manifest.outputCheck tree job).map fun _ =>
      tree.put (manifest.outputOf job).location (.file (.text text)) := by
  have plain := isFileName_fileName slashless job
  have leads := (targetDirectory_spec slashless job).2.2
  have location : Location.enter manifest.targetDirectory.location (manifest.fileName job) =
      (manifest.outputOf job).location := leads.location.symm
  have named : ¬ (manifest.fileName job = "." ∨ manifest.fileName job = "..") := by
    have notIn := plain.1
    simp only [List.mem_cons, List.not_mem_nil, or_false, not_or] at notIn
    exact not_or.mpr ⟨notIn.2.1, notIn.2.2⟩
  rw [FileTree.writeText, FileTree.write, FileTree.target_of_leads leads, there.descend, outputCheck]
  cases FileTree.checkName (manifest.outputOf job) with
  | error error => rfl
  | ok =>
    cases FileTree.checkLength (manifest.fileName job) with
    | error error => rfl
    | ok =>
      simp only [bind, Except.bind, pure, Except.pure, location, named]
      cases tree.entryAt? (manifest.outputOf job).location with
      | none => simp [Except.map]
      | some entry => cases entry <;> simp [Except.map]

end

/-- Double dots in a path of the jobs lead out of no directory that the build first has to create. -/
structure Grounded (manifest : Manifest) (jobs : List Job) (tree : FileTree) : Prop where
  outputs : ∀ job ∈ jobs, (manifest.outputOf job).LeavesOnly tree.IsThere
  sources : ∀ job ∈ jobs, ∀ source ∈ job.sources manifest, source.LeavesOnly (manifest.Steady tree)
  heroData : .aghanim ∈ jobs → manifest.sources.heroDataDirectory.LeavesOnly (manifest.Steady tree)

/-- What keeps the jobs of a build from getting in each other's way, and the order of tokens from mattering. -/
structure Undisturbed (manifest : Manifest) (jobs : List Job) (tree : FileTree) : Prop where
  wellFormed : tree.WellFormed
  slashless : '/' ∉ manifest.build.suffix.toList
  apart : manifest.OutputsApart jobs
  grounded : manifest.Grounded jobs tree
  aliases : ∀ job ∈ jobs, ∀ path ∈ job.texts? manifest, Source.AliasesApart tree path

namespace Undisturbed

variable {manifest : Manifest} {jobs : List Job} {tree grown : FileTree} {job : Job}

theorem sublist {fewer : List Job} (undisturbed : manifest.Undisturbed jobs tree) (among : fewer.Sublist jobs) :
    manifest.Undisturbed fewer tree where
  wellFormed := undisturbed.wellFormed
  slashless := undisturbed.slashless
  apart :=
    ⟨fun job member reader also => undisturbed.apart.sources job (among.subset member) reader (among.subset also),
      fun asked job member => undisturbed.apart.heroData (among.subset asked) job (among.subset member)⟩
  grounded :=
    ⟨fun job member => undisturbed.grounded.outputs job (among.subset member),
      fun job member => undisturbed.grounded.sources job (among.subset member),
      fun asked => undisturbed.grounded.heroData (among.subset asked)⟩
  aliases := fun job member => undisturbed.aliases job (among.subset member)

theorem grounded_targetDirectory (undisturbed : manifest.Undisturbed jobs tree) (member : job ∈ jobs) :
    manifest.targetDirectory.LeavesOnly tree.IsThere := by
  have leads := (targetDirectory_spec undisturbed.slashless job).2.2
  have grounded := undisturbed.grounded.outputs job member
  rw [Path.leavesOnly_iff leads] at grounded
  exact grounded.1

/-- No directory that is created is that of hero data: outputs would lie in it. -/
theorem heroData_apart (undisturbed : manifest.Undisturbed jobs tree) (asked : .aghanim ∈ jobs)
    (absent : tree.entryAt? manifest.sources.heroDataDirectory.location = none) :
    ¬ manifest.sources.heroDataDirectory.location <:+ manifest.targetDirectory.location := by
  intro above
  -- a directory to be created above the outputs, and not a given one, has them below itself
  have location := @location_outputOf manifest undisturbed.slashless .aghanim
  have longer : manifest.targetDirectory.location <:+ (manifest.outputOf .aghanim).location := by
    rw [location]
    exact List.suffix_cons _ _
  have other : (manifest.outputOf .aghanim).location ≠ manifest.sources.heroDataDirectory.location := by
    intro same
    have short := above.length_le
    rw [← same, location, List.length_cons] at short
    exact Nat.not_succ_le_self _ short
  have unknown : manifest.sources.heroDataDirectory.location.isGiven = false := by
    rw [← Bool.not_eq_true]
    intro given
    rw [FileTree.entryAt?_of_isGiven given] at absent
    cases absent
  exact undisturbed.apart.heroData asked .aghanim asked
    ((Location.anchored_location _).isBelow (above.trans longer) other unknown)

/-- A job on its own comes to the same in whatever order it goes through the tokens. -/
theorem run_order (undisturbed : manifest.Undisturbed jobs tree) (member : job ∈ jobs)
    (order : StringTable.TokenOrder) : job.run manifest tree order = job.run manifest tree :=
  Job.run_congr (Material.load_order (undisturbed.aliases job member) order .asListed)

/-- A job loads what it would have loaded at the start, in whatever order it goes through the tokens. -/
theorem load_eq (undisturbed : manifest.Undisturbed jobs tree) (member : job ∈ jobs)
    (extended : FileTree.Extends (· <:+ manifest.targetDirectory.location) (manifest.IsOutput jobs) tree grown)
    (order : StringTable.TokenOrder) :
    Material.load manifest grown job order = Material.load manifest tree job := by
  rw [← Material.load_order (undisturbed.aliases job member) order]
  apply Material.load_congr
  · intro source read
    apply Source.document_extends extended undisturbed.wellFormed (undisturbed.grounded.sources job member source read)
    rintro ⟨other, also, same⟩
    exact undisturbed.apart.sources other also job member source read same.symm
  · rintro rfl
    apply Source.responses_extends extended undisturbed.wellFormed (undisturbed.grounded.heroData member)
      (undisturbed.heroData_apart member)
    rintro location ⟨other, also, rfl⟩
    exact undisturbed.apart.heroData member other also

end Undisturbed
end Manifest
end Compendium
