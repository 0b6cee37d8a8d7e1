import Compendium.Proofs.Build.Writing

/-! A build with several jobs on the way. All that the jobs have done to the file tree is to create the directory of the
outputs and to write some of them, in whatever order their steps were taken. -/

set_option autoImplicit false
namespace Compendium

/-- How far the jobs of a build have come. -/
inductive Progress where
  /-- None has come to its output. -/
  | reading
  /-- The directory of the outputs was asked for, and some jobs have written theirs. -/
  | writing (written : List Job)

/-- What the jobs have made of the file tree. -/
def Manifest.treeAfter (manifest : Manifest) (tree : FileTree) : Progress → FileTree
  | .reading => tree
  | .writing written => manifest.fill tree (manifest.placed tree).1 written

namespace Progress

/-- What was done up to some progress is done up to a later one. -/
def Before : Progress → Progress → Prop
  | .reading, _ => True
  | .writing _, .reading => False
  | .writing earlier, .writing later => earlier ⊆ later

theorem before_refl (progress : Progress) : progress.Before progress := by
  cases progress with
  | reading => trivial
  | writing written => exact List.Subset.refl written

theorem Before.trans {first second third : Progress} (start : first.Before second) (rest : second.Before third) :
    first.Before third := by
  cases first with
  | reading => trivial
  | writing written =>
    cases second with
    | reading => exact start.elim
    | writing more =>
      cases third with
      | reading => exact rest.elim
      | writing most => exact List.Subset.trans start rest

/-- Only a job that has its text asks for the directory, and only jobs that succeed write. -/
def Sound (manifest : Manifest) (jobs : List Job) (tree : FileTree) : Progress → Prop
  | .reading => True
  | .writing written => (∃ job ∈ jobs, (job.prepared manifest tree).isOk = true) ∧
      ∀ job ∈ written, job ∈ jobs ∧ manifest.Succeeds tree job

/-- A job has come to a stage with what it would have come there on its own. -/
def Fits (manifest : Manifest) (tree : FileTree) (progress : Progress) (job : Job) : Stage → Prop
  | .waiting => True
  | .loaded material => Material.load manifest tree job = .ok material
  | .compiled text => job.prepared manifest tree = .ok text
  | .placed text => job.prepared manifest tree = .ok text ∧ (manifest.placed tree).2 = .ok () ∧
      ∃ written, progress = .writing written
  | .finished result => result = (job.run manifest tree).2 ∧ ((job.prepared manifest tree).isOk = true →
      ∃ written, progress = .writing written ∧ (manifest.Succeeds tree job → job ∈ written))

/-- A step leads on from some progress, and leaves its job where it would be on its own. -/
def Reaches (manifest : Manifest) (jobs : List Job) (tree : FileTree) (progress : Progress) (job : Job)
    (result : FileTree × Stage) : Prop :=
  ∃ later, progress.Before later ∧ later.Sound manifest jobs tree ∧ result.1 = manifest.treeAfter tree later ∧
    later.Fits manifest tree job result.2

/-- Every job has come to its end. -/
def Settled (manifest : Manifest) (jobs : List Job) (tree : FileTree) (progress : Progress) : Prop :=
  ∀ job ∈ jobs, progress.Fits manifest tree job (.finished (job.run manifest tree).2)

section
variable {manifest : Manifest} {jobs : List Job} {tree : FileTree} {progress later : Progress} {job : Job}

theorem Fits.mono {stage : Stage} (before : progress.Before later) (fits : progress.Fits manifest tree job stage) :
    later.Fits manifest tree job stage := by
  have writing : ∀ written, progress = .writing written → ∃ more, later = .writing more ∧ written ⊆ more := by
    rintro written rfl
    cases later with
    | reading => cases before
    | writing more => exact ⟨more, rfl, before⟩
  cases stage with
  | waiting => trivial
  | loaded material => exact fits
  | compiled text => exact fits
  | placed text =>
    obtain ⟨ready, there, written, same⟩ := fits
    obtain ⟨more, new, -⟩ := writing written same
    exact ⟨ready, there, more, new⟩
  | finished result =>
    refine ⟨fits.1, ?_⟩
    intro ready
    obtain ⟨written, same, done⟩ := fits.2 ready
    obtain ⟨more, new, subset⟩ := writing written same
    exact ⟨more, new, fun succeeds => subset (done succeeds)⟩

theorem fits_waiting : progress.Fits manifest tree job .waiting :=
  trivial

theorem fits_unprepared {error : BuildError} (unprepared : job.prepared manifest tree = .error error) :
    progress.Fits manifest tree job (.finished (.error error)) := by
  refine ⟨by rw [Job.run_of_unprepared unprepared], ?_⟩
  rw [unprepared]
  exact nofun

theorem fits_loading : progress.Fits manifest tree job (Stage.orFailed (Material.load manifest tree job) .loaded) := by
  cases loads : Material.load manifest tree job with
  | ok material => exact loads
  | error error =>
    apply fits_unprepared
    rw [Job.prepared, loads]
    rfl

/-- What a job has to write comes from what it loads. -/
theorem fits_compiling {material : Material} (loads : Material.load manifest tree job = .ok material) :
    progress.Fits manifest tree job (Stage.orFailed material.text .compiled) := by
  have prepared : job.prepared manifest tree = material.text := by
    rw [Job.prepared, loads]
    rfl
  cases text : material.text with
  | ok value => exact prepared.trans text
  | error error => exact fits_unprepared (prepared.trans text)

end
end Progress

namespace Manifest.Undisturbed

variable {manifest : Manifest} {jobs : List Job} {tree : FileTree} {progress : Progress} {job : Job}

/-- Whatever the jobs have done, they only created directories above the outputs, and outputs. -/
theorem extends_treeAfter (undisturbed : manifest.Undisturbed jobs tree) (sound : progress.Sound manifest jobs tree) :
    FileTree.Extends (· <:+ manifest.targetDirectory.location) (manifest.IsOutput jobs) tree
      (manifest.treeAfter tree progress) := by
  cases progress with
  | reading => exact .same
  | writing written =>
    obtain ⟨⟨job, member, -⟩, done⟩ := sound
    -- the directory came first, and the outputs into it
    exact ((undisturbed.made_placed member).grown.mono (fun _ _ above => above) fun _ none => none.elim).trans
      ((undisturbed.extends_fill done).mono (fun _ _ none => none.elim) fun _ output => output)

theorem hasDirectory_treeAfter {written : List Job} (undisturbed : manifest.Undisturbed jobs tree)
    (sound : (Progress.writing written).Sound manifest jobs tree) (there : (manifest.placed tree).2 = .ok ()) :
    (manifest.treeAfter tree (.writing written)).HasDirectory manifest.targetDirectory := by
  obtain ⟨job, member, -⟩ := sound.1
  exact (undisturbed.extends_fill sound.2).hasDirectory ((undisturbed.made_placed member).present there)

theorem outputCheck_treeAfter {written : List Job} (undisturbed : manifest.Undisturbed jobs tree)
    (sound : (Progress.writing written).Sound manifest jobs tree) (job : Job) :
    manifest.outputCheck (manifest.treeAfter tree (.writing written)) job =
      manifest.outputCheck (manifest.placed tree).1 job := by
  have extended := undisturbed.extends_fill sound.2
  have same : (manifest.treeAfter tree (.writing written)).entryAt? (manifest.outputOf job).location = some .directory ↔
      (manifest.placed tree).1.entryAt? (manifest.outputOf job).location = some .directory := by
    refine ⟨fun directory => ?_, extended.entryAt?_directory⟩
    rcases extended.directory_cases directory with there | ⟨-, none⟩
    · exact there
    · exact none.elim
  rw [outputCheck, outputCheck]
  simp only [same]

/-- Asking for the directory of the outputs comes to the same whoever did so before. -/
theorem makeParent_treeAfter (undisturbed : manifest.Undisturbed jobs tree) (sound : progress.Sound manifest jobs tree)
    (member : job ∈ jobs) : ∃ written, progress.Before (.writing written) ∧
      (∀ other ∈ written, other ∈ jobs ∧ manifest.Succeeds tree other) ∧
      Stage.makeParent (manifest.treeAfter tree progress) (manifest.outputOf job) =
        (manifest.treeAfter tree (.writing written), (manifest.placed tree).2) := by
  rw [makeParent_eq undisturbed.slashless]
  cases progress with
  | reading =>
    refine ⟨[], trivial, fun _ none => absurd none List.not_mem_nil, ?_⟩
    rw [treeAfter, treeAfter, fill, placed]
  | writing written =>
    refine ⟨written, List.Subset.refl written, sound.2, ?_⟩
    cases there : (manifest.placed tree).2 with
    | ok =>
      exact FileTree.makeDirectories_of_hasDirectory undisturbed.trimmed (undisturbed.hasDirectory_treeAfter sound there)
    | error cause =>
      -- nobody has written anything, as the directory is not there
      have nobody : written = [] := by
        rw [List.eq_nil_iff_forall_not_mem]
        intro other inside
        obtain ⟨also, succeeds⟩ := sound.2 other inside
        cases there.symm.trans (undisturbed.cases_of_succeeds also succeeds).2.1
      rw [nobody, treeAfter, fill, placed, FileTree.makeDirectories_again undisturbed.wellFormed undisturbed.trimmed
        (undisturbed.grounded_targetDirectory member), ← placed, ← there]

/-- A job that is ready comes to the directory of the outputs as it would on its own. -/
theorem reaches_place {text : String} (undisturbed : manifest.Undisturbed jobs tree)
    (sound : progress.Sound manifest jobs tree) (member : job ∈ jobs) (ready : job.prepared manifest tree = .ok text) :
    progress.Reaches manifest jobs tree job (Stage.place manifest job (manifest.treeAfter tree progress) text) := by
  obtain ⟨written, before, done, made⟩ := undisturbed.makeParent_treeAfter sound member
  have prepared : (job.prepared manifest tree).isOk = true := by
    rw [ready]
    rfl
  rw [Stage.place, made]
  refine ⟨.writing written, before, ⟨⟨job, member, prepared⟩, done⟩, rfl, ?_⟩
  cases there : (manifest.placed tree).2 with
  | ok => exact ⟨ready, there, written, rfl⟩
  | error cause =>
    -- without the directory no job succeeds, so that this one need not have written
    refine ⟨by rw [Job.run_of_unplaced undisturbed.slashless ready there], fun _ => ⟨written, rfl, ?_⟩⟩
    intro succeeds
    cases there.symm.trans (undisturbed.cases_of_succeeds member succeeds).2.1

/-- A job in the directory of the outputs writes its own, or fails, as it would on its own. -/
theorem reaches_write {text : String} (undisturbed : manifest.Undisturbed jobs tree)
    (sound : progress.Sound manifest jobs tree) (member : job ∈ jobs)
    (fits : progress.Fits manifest tree job (.placed text)) :
    progress.Reaches manifest jobs tree job (Stage.write manifest job (manifest.treeAfter tree progress) text) := by
  obtain ⟨ready, there, written, rfl⟩ := fits
  -- on its own the job comes to the directory before anything was written into it
  have alone := Job.run_of_placed undisturbed.slashless ready there
  rw [store_eq undisturbed.slashless ((undisturbed.made_placed member).present there)] at alone
  unfold Stage.write
  rw [writeText_outputOf undisturbed.slashless (undisturbed.hasDirectory_treeAfter sound there),
    undisturbed.outputCheck_treeAfter sound]
  cases checked : manifest.outputCheck (manifest.placed tree).1 job with
  | ok =>
    rw [checked] at alone
    have succeeds : manifest.Succeeds tree job := by rw [Succeeds, alone]
    have same : manifest.textOf tree job = text := by rw [textOf, ready]
    refine ⟨.writing (job :: written), List.subset_cons_self _ _, ⟨sound.1, ?_⟩, ?_, ?_⟩
    · rw [List.forall_mem_cons]
      exact ⟨⟨member, succeeds⟩, sound.2⟩
    · rw [treeAfter, treeAfter, fill, same]
      rfl
    · exact ⟨by rw [alone], fun _ => ⟨job :: written, rfl, fun _ => List.mem_cons_self⟩⟩
  | error cause =>
    rw [checked] at alone
    refine ⟨.writing written, List.Subset.refl _, sound, rfl, by rw [alone], fun _ => ⟨written, rfl, ?_⟩⟩
    intro succeeds
    cases checked.symm.trans (undisturbed.cases_of_succeeds member succeeds).2.2

/-- Each step of a job is the step that it would have taken on its own. -/
theorem reaches_next {stage : Stage} (undisturbed : manifest.Undisturbed jobs tree)
    (sound : progress.Sound manifest jobs tree) (member : job ∈ jobs) (fits : progress.Fits manifest tree job stage)
    (order : StringTable.TokenOrder) :
    progress.Reaches manifest jobs tree job (stage.next manifest job (manifest.treeAfter tree progress) order) := by
  cases stage with
  | waiting =>
    -- the one step that looks at files, and goes through tokens: what it loads is as it was
    rw [Stage.next, undisturbed.load_eq member (undisturbed.extends_treeAfter sound)]
    exact ⟨progress, progress.before_refl, sound, rfl, Progress.fits_loading⟩
  | loaded material => exact ⟨progress, progress.before_refl, sound, rfl, Progress.fits_compiling fits⟩
  | compiled text => exact undisturbed.reaches_place sound member fits
  | placed text => exact undisturbed.reaches_write sound member fits
  | finished result => exact ⟨progress, progress.before_refl, sound, rfl, fits⟩

/-- A job that goes on alone from its stage ends as it would have ended on its own. -/
theorem reaches_finish (undisturbed : manifest.Undisturbed jobs tree) {stage : Stage}
    (sound : progress.Sound manifest jobs tree) (member : job ∈ jobs) (fits : progress.Fits manifest tree job stage)
    (order : StringTable.TokenOrder) :
    progress.Reaches manifest jobs tree job
      ((job.finish manifest (manifest.treeAfter tree progress) stage order).1,
        .finished (job.finish manifest (manifest.treeAfter tree progress) stage order).2) := by
  -- by the steps that are left, as the job takes them
  induction bound : stage.remaining using Nat.strong_induction_on generalizing progress stage with
  | _ bound ih =>
    subst bound
    cases unfinished : stage.result? with
    | none =>
      obtain ⟨later, before, soundLater, same, fitsLater⟩ := undisturbed.reaches_next sound member fits order
      have further := ih _ (Stage.remaining_next_lt manifest job _ order unfinished) soundLater fitsLater rfl
      obtain ⟨last, after, soundLast, sameLast, fitsLast⟩ := further
      rw [← same, ← Job.finish_next unfinished] at sameLast fitsLast
      exact ⟨last, before.trans after, soundLast, sameLast, fitsLast⟩
    | some result =>
      cases stage with
      | finished other =>
        rw [Job.finish_finished]
        exact ⟨progress, progress.before_refl, sound, rfl, fits⟩
      | waiting | loaded | compiled | placed => cases unfinished

/-- Jobs that run one after the other come to what each of them comes to on its own. -/
theorem reaches_runAll {rest : List Job} (undisturbed : manifest.Undisturbed jobs tree)
    (sound : progress.Sound manifest jobs tree) (among : rest ⊆ jobs) (orders : Nat → StringTable.TokenOrder) :
    ∃ later, progress.Before later ∧ later.Sound manifest jobs tree ∧
      Job.runAll manifest (manifest.treeAfter tree progress) orders rest =
        (manifest.treeAfter tree later, rest.map (Job.alone manifest tree)) ∧
      later.Settled manifest rest tree := by
  induction rest generalizing progress with
  | nil => exact ⟨progress, progress.before_refl, sound, rfl, nofun⟩
  | cons job rest ih =>
    rw [List.cons_subset] at among
    obtain ⟨later, before, soundLater, same, fits⟩ :=
      undisturbed.reaches_finish sound among.1 Progress.fits_waiting (orders rest.length)
    obtain ⟨last, after, soundLast, sameRest, settled⟩ := ih soundLater among.2
    have changed : (job.run manifest (manifest.treeAfter tree progress) (orders rest.length)).1 =
        manifest.treeAfter tree later := same
    have ended : later.Fits manifest tree job
        (.finished (job.run manifest (manifest.treeAfter tree progress) (orders rest.length)).2) := fits
    have outcome := ended.1
    rw [outcome] at ended
    refine ⟨last, before.trans after, soundLast, ?_, ?_⟩
    · rw [Job.runAll]
      simp only [changed, outcome, sameRest, List.map_cons, Job.alone]
    · rw [Progress.Settled, List.forall_mem_cons]
      exact ⟨ended.mono after, settled⟩

/-- What is there once every job has come to its end. -/
theorem built_treeAfter (undisturbed : manifest.Undisturbed jobs tree) (sound : progress.Sound manifest jobs tree)
    (settled : progress.Settled manifest jobs tree) : manifest.Built tree jobs (manifest.treeAfter tree progress) := by
  have ready : ∀ job ∈ jobs, manifest.Succeeds tree job → (job.prepared manifest tree).isOk = true := by
    intro job member succeeds
    rw [(undisturbed.cases_of_succeeds member succeeds).1]
    rfl
  cases progress with
  | reading =>
    -- a job with a text would have asked for the directory
    have nobody : ∀ job ∈ jobs, ¬ (job.prepared manifest tree).isOk = true := by
      intro job member prepared
      obtain ⟨written, impossible, -⟩ := (settled job member).2 prepared
      cases impossible
    refine ⟨fun job member succeeds => absurd (ready job member succeeds) (nobody job member), ?_⟩
    intro location _
    rw [treeAfter, ground, if_neg]
    rintro ⟨job, member, prepared⟩
    exact nobody job member prepared
  | writing written =>
    have free : ∀ job ∈ written, (manifest.placed tree).1.entryAt? (manifest.outputOf job).location ≠ some .directory :=
      fun job inside => undisturbed.free_of_succeeds (sound.2 job inside).1 (sound.2 job inside).2
    obtain ⟨wrote, kept⟩ := @entryAt?_fill manifest tree _ _ undisturbed.slashless free
    refine ⟨?_, ?_⟩
    · intro job member succeeds
      obtain ⟨_, ⟨⟩, inside⟩ := (settled job member).2 (ready job member succeeds)
      exact wrote job (inside succeeds)
    · intro location elsewhere
      rw [treeAfter, ground, if_pos sound.1]
      apply kept
      rintro ⟨job, inside, same⟩
      exact elsewhere job (sound.2 job inside).1 (sound.2 job inside).2 same

theorem run_spec (undisturbed : manifest.Undisturbed jobs tree) (orders : Nat → StringTable.TokenOrder) :
    manifest.Built tree jobs (manifest.run jobs tree orders).1 ∧
      (manifest.run jobs tree orders).2 = ⟨jobs.map (Job.alone manifest tree)⟩ := by
  have sound : Progress.reading.Sound manifest jobs tree := trivial
  obtain ⟨later, -, soundLater, same, settled⟩ := undisturbed.reaches_runAll sound (List.Subset.refl jobs) orders
  rw [treeAfter] at same
  rw [Manifest.run, same]
  exact ⟨undisturbed.built_treeAfter soundLater settled, rfl⟩

end Manifest.Undisturbed
end Compendium
