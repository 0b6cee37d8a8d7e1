import Mathlib.Data.List.InsertIdx
import Compendium.Proofs.Build.Pool
import Compendium.Proofs.Files.Planting

/-! A build does not depend on its schedule. As long as no job writes what another one reads, and the aliases of the texts
are apart, all jobs of a pool end as they would on their own, and leave the same files behind in whatever order their steps
were taken and tokens were gone through. -/

set_option autoImplicit false
namespace Compendium

namespace Tally

section
variable (manifest : Manifest) (tree : FileTree)

/-- The tally of the workers whose jobs are counted, by how the jobs end on their own. -/
def ofCounted : List Worker → Tally
  | [] => {}
  | worker :: rest =>
    if worker.counted then (ofCounted rest).add (worker.job.run manifest tree).2 else ofCounted rest

theorem add_comm (tally : Tally) (first second : Except BuildError Path) :
    (tally.add first).add second = (tally.add second).add first := by
  cases first <;> cases second <;> rfl

theorem ofCounted_moved (before after : List Worker) (worker : Worker) (stage : Stage) :
    ofCounted manifest tree (before ++ { worker with stage := stage } :: after) =
      ofCounted manifest tree (before ++ worker :: after) := by
  induction before with
  | nil => rfl
  | cons first rest ih => rw [List.cons_append, List.cons_append, ofCounted, ofCounted, ih]

theorem ofCounted_counted (before after : List Worker) (job : Job) (stage : Stage) :
    ofCounted manifest tree (before ++ ⟨job, stage, true⟩ :: after) =
      (ofCounted manifest tree (before ++ ⟨job, stage, false⟩ :: after)).add (job.run manifest tree).2 := by
  induction before with
  | nil => rfl
  | cons first rest ih =>
    rw [List.cons_append, List.cons_append, ofCounted, ofCounted, ih]
    split
    · exact add_comm _ _ _
    · rfl

theorem ofCounted_of_all {workers : List Worker} (all : ∀ worker ∈ workers, worker.counted = true) :
    let batch := BatchResult.mk (workers.map fun worker => worker.job.alone manifest tree)
    ofCounted manifest tree workers = ⟨batch.successCount, batch.failCount⟩ := by
  induction workers with
  | nil => rfl
  | cons worker rest ih =>
    rw [List.forall_mem_cons] at all
    dsimp only at ih ⊢
    rw [ofCounted, if_pos all.1, ih all.2]
    cases outcome : (worker.job.run manifest tree).2 with
    | ok path =>
      have success : (worker.job.alone manifest tree).isSuccess = true := by rw [JobResult.isSuccess, Job.alone, outcome]
      simp [add, BatchResult.successCount, BatchResult.failCount, success]
    | error error =>
      have failure : (worker.job.alone manifest tree).isSuccess = false := by rw [JobResult.isSuccess, Job.alone, outcome]
      simp [add, BatchResult.successCount, BatchResult.failCount, failure]

end
end Tally

namespace Pool

/-- What a pool has come to on the way: what its jobs would have come to on their own, and so far counted. -/
structure Consistent (manifest : Manifest) (jobs : List Job) (tree : FileTree) (progress : Progress) (pool : Pool) :
    Prop where
  sound : progress.Sound manifest jobs tree
  shared : pool.tree = manifest.treeAfter tree progress
  order : pool.workers.map Worker.job = jobs
  fits : ∀ worker ∈ pool.workers, progress.Fits manifest tree worker.job worker.stage
  ended : ∀ worker ∈ pool.workers, worker.counted = true → worker.stage.result?.isSome = true
  tally : pool.tally = Tally.ofCounted manifest tree pool.workers

theorem consistent_start (manifest : Manifest) (jobs : List Job) (tree : FileTree) :
    (start jobs tree).Consistent manifest jobs tree .reading where
  sound := trivial
  shared := rfl
  order := by simp [start, Function.comp_def]
  fits := by simp [start, Progress.Fits]
  ended := by simp [start]
  tally := by
    induction jobs with
    | nil => rfl
    | cons job rest ih => exact ih

section
variable {manifest : Manifest} {jobs : List Job} {tree : FileTree} {progress : Progress} {pool next : Pool} {turn : Turn}

/-- A step keeps a pool consistent. -/
theorem Consistent.steps (consistent : pool.Consistent manifest jobs tree progress)
    (undisturbed : manifest.Undisturbed jobs tree) (steps : Steps manifest turn pool next) :
    ∃ later, progress.Before later ∧ next.Consistent manifest jobs tree later := by
  cases steps with
  | rests => exact ⟨progress, progress.before_refl, consistent⟩
  | @moves now before after worker tally place unfinished =>
    obtain ⟨sound, shared, order, fits, ended, tallied⟩ := consistent
    dsimp only at shared order fits ended tallied
    subst shared
    rw [List.forall_mem_append, List.forall_mem_cons] at fits ended
    have member : worker.job ∈ jobs := by simp [← order]
    -- the job takes its own step, and what fitted the other stages fits them after it
    obtain ⟨later, onward, soundLater, same, fitsLater⟩ := undisturbed.reaches_next sound member fits.2.1 turn.order
    refine ⟨later, onward, soundLater, same, ?_, ?_, ?_, ?_⟩
    · rw [← order]
      simp
    · rw [List.forall_mem_append, List.forall_mem_cons]
      exact ⟨fun other also => (fits.1 other also).mono onward, fitsLater, fun other also => (fits.2.2 other also).mono onward⟩
    · rw [List.forall_mem_append, List.forall_mem_cons]
      refine ⟨ended.1, fun counted => ?_, ended.2.2⟩
      have finished := ended.2.1 counted
      rw [unfinished] at finished
      cases finished
    · exact tallied.trans (Tally.ofCounted_moved manifest tree before after worker _).symm
  | @counts now before after job result tally place =>
    obtain ⟨sound, shared, order, fits, ended, tallied⟩ := consistent
    dsimp only at shared order fits ended tallied
    rw [List.forall_mem_append, List.forall_mem_cons] at fits ended
    refine ⟨progress, progress.before_refl, sound, shared, ?_, ?_, ?_, ?_⟩
    · rw [← order]
      simp
    · rw [List.forall_mem_append, List.forall_mem_cons]
      exact fits
    · rw [List.forall_mem_append, List.forall_mem_cons]
      exact ⟨ended.1, fun _ => rfl, ended.2.2⟩
    · have outcome : result = (job.run manifest tree).2 := fits.2.1.1
      rw [tallied, outcome]
      exact (Tally.ofCounted_counted manifest tree before after job _).symm

theorem Consistent.run (undisturbed : manifest.Undisturbed jobs tree) (schedule : List Turn)
    (consistent : pool.Consistent manifest jobs tree progress) :
    ∃ later, progress.Before later ∧ (pool.run manifest schedule).Consistent manifest jobs tree later := by
  induction schedule generalizing pool progress with
  | nil => exact ⟨progress, progress.before_refl, consistent⟩
  | cons first rest ih =>
    obtain ⟨later, onward, consistentLater⟩ := consistent.steps undisturbed (steps_step manifest pool first)
    obtain ⟨last, further, consistentLast⟩ := ih consistentLater
    exact ⟨last, onward.trans further, consistentLast⟩

/-- In a pool that is done every job has ended as it would on its own. -/
theorem Consistent.finished (consistent : pool.Consistent manifest jobs tree progress) (done : pool.isDone = true) :
    ∀ worker ∈ pool.workers, worker.stage = .finished (worker.job.run manifest tree).2 := by
  intro worker member
  have counted := List.all_eq_true.mp done worker member
  obtain ⟨result, ended⟩ := Option.isSome_iff_exists.mp (consistent.ended worker member counted)
  have finished := Stage.result?_eq_some_iff.mp ended
  have fits := consistent.fits worker member
  rw [finished] at fits
  rw [finished, fits.1]

theorem Consistent.settled (consistent : pool.Consistent manifest jobs tree progress) (done : pool.isDone = true) :
    progress.Settled manifest jobs tree := by
  rw [Progress.Settled, ← consistent.order, List.forall_mem_map]
  intro worker member
  rw [← consistent.finished done worker member]
  exact consistent.fits worker member

theorem Consistent.batch_eq (consistent : pool.Consistent manifest jobs tree progress) (done : pool.isDone = true) :
    pool.batch = ⟨jobs.map (Job.alone manifest tree)⟩ := by
  have each : ∀ worker ∈ pool.workers, worker.stage.result?.map (JobResult.mk worker.job) =
      some (worker.job.alone manifest tree) := by
    intro worker member
    rw [consistent.finished done worker member]
    rfl
  rw [batch, List.filterMap_congr each, ← consistent.order, List.map_map, List.filterMap_eq_map']
  rfl

theorem Consistent.tally_eq (consistent : pool.Consistent manifest jobs tree progress) (done : pool.isDone = true) :
    pool.tally = ⟨pool.batch.successCount, pool.batch.failCount⟩ := by
  rw [consistent.tally, Tally.ofCounted_of_all manifest tree (List.all_eq_true.mp done), consistent.batch_eq done,
    ← consistent.order, List.map_map]
  rfl

end

/-- What a pool has come to is what its jobs come to one after the other. -/
structure Agrees (manifest : Manifest) (jobs : List Job) (tree : FileTree) (orders : Nat → StringTable.TokenOrder)
    (pool : Pool) : Prop where
  entries : ∀ location, pool.tree.entryAt? location = (manifest.run jobs tree orders).1.entryAt? location
  batch : pool.batch = (manifest.run jobs tree orders).2
  tally : pool.tally = ⟨(manifest.run jobs tree orders).2.successCount, (manifest.run jobs tree orders).2.failCount⟩

section
variable {manifest : Manifest} {jobs : List Job} {tree : FileTree} {schedule : List Turn}

theorem agrees_run_start (undisturbed : manifest.Undisturbed jobs tree)
    (done : ((start jobs tree).run manifest schedule).isDone = true) (orders : Nat → StringTable.TokenOrder) :
    ((start jobs tree).run manifest schedule).Agrees manifest jobs tree orders := by
  obtain ⟨later, -, consistent⟩ := (consistent_start manifest jobs tree).run undisturbed schedule
  obtain ⟨builtAlone, results⟩ := undisturbed.run_spec orders
  -- both trees are what every build leaves behind whose jobs are at their ends
  have built := undisturbed.built_treeAfter consistent.sound (consistent.settled done)
  rw [← consistent.shared] at built
  have batch : ((start jobs tree).run manifest schedule).batch = (manifest.run jobs tree orders).2 :=
    (consistent.batch_eq done).trans results.symm
  exact ⟨built.entryAt?_eq builtAlone, batch, by rw [consistent.tally_eq done, batch]⟩

end

end Pool

theorem JobResult.isBuilt_iff (result : JobResult) :
    "Built: ".toList <+: result.message.toList ↔ result.isSuccess = true := by
  rw [message, isSuccess]
  cases result.outcome with
  | ok path => simp
  | error error => simp [List.cons_prefix_cons]

namespace Manifest.Undisturbed

variable {manifest : Manifest} {jobs : List Job} {tree first second : FileTree} {index : Nat} {error : BuildError}

/-- The files are the same without a job that fails. -/
theorem file_iff_of_failed (undisturbed : manifest.Undisturbed jobs tree) {inside : index < jobs.length}
    (failed : (jobs[index].run manifest tree).2 = .error error) (built : manifest.Built tree jobs first)
    (builtWithout : manifest.Built tree (jobs.eraseIdx index) second) (location : Location) (content : Content) :
    second.entryAt? location = some (.file content) ↔ first.entryAt? location = some (.file content) := by
  have same : ∀ job, manifest.Succeeds tree job → (job ∈ jobs.eraseIdx index ↔ job ∈ jobs) := by
    intro job succeeds
    refine ⟨fun among => List.mem_of_mem_eraseIdx among, ?_⟩
    intro among
    obtain ⟨place, inPlace, here⟩ := List.getElem_of_mem among
    rw [List.mem_eraseIdx_iff_getElem]
    -- what succeeds is at another index than what fails
    refine ⟨place, inPlace, ?_, here⟩
    rintro rfl
    rw [here, succeeds] at failed
    cases failed
  rw [(undisturbed.sublist (List.eraseIdx_sublist jobs index)).file_iff_of_built builtWithout,
    undisturbed.file_iff_of_built built]
  constructor
  · rintro (⟨job, among, succeeds, rest⟩ | ⟨apart, there⟩)
    · exact .inl ⟨job, (same job succeeds).mp among, succeeds, rest⟩
    · exact .inr ⟨fun job among succeeds => apart job ((same job succeeds).mpr among) succeeds, there⟩
  · rintro (⟨job, among, succeeds, rest⟩ | ⟨apart, there⟩)
    · exact .inl ⟨job, (same job succeeds).mpr among, succeeds, rest⟩
    · exact .inr ⟨fun job among succeeds => apart job ((same job succeeds).mp among) succeeds, there⟩

end Manifest.Undisturbed

namespace Pool

/-- All schedules of a build end, and end with the same, whatever the orders in which tokens are gone through. -/
structure Independent (manifest : Manifest) (jobs : List Job) (tree : FileTree) : Prop where
  ends : ∀ schedule : List Turn, (∀ index < jobs.length, 5 ≤ (schedule.map Turn.worker).count index) →
    ((start jobs tree).run manifest schedule).isDone = true
  agrees : ∀ schedule, ((start jobs tree).run manifest schedule).isDone = true →
    ∀ orders, ((start jobs tree).run manifest schedule).Agrees manifest jobs tree orders
  alone : ∀ job ∈ jobs, ∀ order, job.run manifest tree order = job.run manifest tree
  results : (manifest.run jobs tree).2.results = jobs.map (Job.alone manifest tree)
  messages : ∀ result ∈ (manifest.run jobs tree).2.results,
    "Built: ".toList <+: result.message.toList ↔ result.isSuccess = true
  counts : (manifest.run jobs tree).2.successCount + (manifest.run jobs tree).2.failCount = jobs.length
  /-- Without a job that fails, the other jobs end as they do with it, and leave the same files. -/
  failing : ∀ (index : Nat) (inside : index < jobs.length) (error : BuildError),
    (jobs[index].run manifest tree).2 = .error error →
    ∀ schedule, ((start (jobs.eraseIdx index) tree).run manifest schedule).isDone = true →
      ((start (jobs.eraseIdx index) tree).run manifest schedule).batch.results =
        (manifest.run jobs tree).2.results.eraseIdx index ∧
      ∀ location content,
        ((start (jobs.eraseIdx index) tree).run manifest schedule).tree.entryAt? location = some (.file content) ↔
          (manifest.run jobs tree).1.entryAt? location = some (.file content)

/-- A build in which no job gets in the way of another one does not depend on its schedule. -/
theorem independent_of_undisturbed {manifest : Manifest} {jobs : List Job} {tree : FileTree}
    (undisturbed : manifest.Undisturbed jobs tree) : Independent manifest jobs tree := by
  obtain ⟨built, results⟩ := undisturbed.run_spec fun _ => .asListed
  constructor
  case ends => exact fun schedule enough => isDone_run_start jobs tree enough
  case agrees => exact fun schedule done orders => agrees_run_start undisturbed done orders
  case alone => exact fun job member order => undisturbed.run_order member order
  case results => rw [results]
  case messages => exact fun result _ => result.isBuilt_iff
  case counts => rw [BatchResult.successCount_add_failCount, results, List.length_map]
  case failing =>
    intro index inside error failed schedule done
    have fewer := undisturbed.sublist (List.eraseIdx_sublist jobs index)
    have agrees := agrees_run_start fewer done fun _ => .asListed
    obtain ⟨builtWithout, resultsWithout⟩ := fewer.run_spec fun _ => .asListed
    refine ⟨?_, ?_⟩
    · rw [agrees.batch, resultsWithout, results]
      exact (List.eraseIdx_map _ _ _).symm
    · intro location content
      rw [agrees.entries]
      exact undisturbed.file_iff_of_failed failed built builtWithout location content

/-- The sources of the abilities, with their texts. -/
def withTexts (texts scripts : String) : FileTree :=
  (FileTree.empty.plant ⟨"data/resource/localization/abilities_schinese.json"⟩ (some (.text texts))).plant
    ⟨"data/scripts/npc/npc_abilities.json"⟩ (some (.text scripts))

theorem wellFormed_withTexts (texts scripts : String) : (withTexts texts scripts).WellFormed :=
  (FileTree.wellFormed_empty.plant _ _).plant _ _

/-- Two texts under tokens of the capitalized spelling, one of them of an ability. -/
def named : FileTree :=
  withTexts "\x7b\"Tokens\":\x7b\"DOTA_Tooltip_Ability_a\":\"A\",\"DOTA_Tooltip_Ability_b\":\"B\"\x7d\x7d"
    "\x7b\"DOTAAbilities\":\x7b\"a\":\x7b\x7d\x7d\x7d"

theorem table_named : Source.table named ⟨"data/resource/localization/abilities_schinese.json"⟩ =
    .ok ⟨[("DOTA_Tooltip_Ability_a", "A"), ("DOTA_Tooltip_Ability_b", "B")], ""⟩ := by
  decide +kernel

/-- Three workers take turns. Two of them have the same job and go through their texts in different orders; the third one
has no source. -/
theorem independent_of_undisturbed_named :
    let jobs : List Job := [.abilities, .heroLore, .abilities]
    let pool := (start jobs named).run {} (List.replicate 5 [⟨2, .reversed⟩, ⟨1, .asListed⟩, ⟨0, .asListed⟩]).flatten
    Manifest.Undisturbed {} jobs named ∧ pool.isDone = true ∧ pool.Agrees {} jobs named (fun _ => .reversed) ∧
      pool.batch.messages = ["Built: build/abilities_cn.json",
        "Failed hero_lore: Missing source document: data/resource/localization/hero_lore_schinese.txt",
        "Built: build/abilities_cn.json"] := by
  intro jobs pool
  have undisturbed : Manifest.Undisturbed {} jobs named := by
    refine ⟨wellFormed_withTexts _ _, by decide, ⟨?_, ?_⟩, ⟨?_, ?_, ?_⟩, ?_⟩
    · decide +kernel
    · decide +kernel
    · decide +kernel
    · decide +kernel
    · decide +kernel
    · intro job member path reads texts loaded
      have each : ∀ job ∈ jobs, ∀ path ∈ job.texts? {}, path = ⟨"data/resource/localization/abilities_schinese.json"⟩ := by
        decide +kernel
      rw [each job member path reads, table_named] at loaded
      cases loaded
      unfold StringTable.AliasesApart StringTable.Capitalized
      decide +kernel
  have independent := independent_of_undisturbed undisturbed
  have done : pool.isDone = true := independent.ends _ (by decide)
  refine ⟨undisturbed, done, independent.agrees _ done _, ?_⟩
  decide +kernel

/-- A build in which no job writes what another one reads, and whose counts or files still depend on its schedule. -/
structure ScheduleMatters (manifest : Manifest) (jobs : List Job) (tree : FileTree) (first second : List Turn) : Prop where
  wellFormed : tree.WellFormed
  slashless : '/' ∉ manifest.build.suffix.toList
  apart : manifest.OutputsApart jobs
  doneFirst : ((start jobs tree).run manifest first).isDone = true
  doneSecond : ((start jobs tree).run manifest second).isDone = true
  differ : ((start jobs tree).run manifest first).batch.successCount ≠
      ((start jobs tree).run manifest second).batch.successCount ∨
    ∃ location, ((start jobs tree).run manifest first).tree.entryAt? location ≠
      ((start jobs tree).run manifest second).tree.entryAt? location

/-- The sources of two jobs. -/
def seeded : FileTree :=
  (FileTree.empty.plant ⟨"data/resource/localization/hero_lore_schinese.txt"⟩
    (some (.text "lang \x7b tokens \x7b \x7d \x7d"))).plant ⟨"data/herodata/2.json"⟩ (some (.text "\x7b\x7d"))

theorem wellFormed_seeded : seeded.WellFormed :=
  (FileTree.wellFormed_empty.plant _ _).plant _ _

theorem seeded_eq : seeded =
    ⟨[(["data"], .directory), (["resource", "data"], .directory), (["localization", "resource", "data"], .directory),
      (["hero_lore_schinese.txt", "localization", "resource", "data"], .file (.text "lang \x7b tokens \x7b \x7d \x7d")),
      (["herodata", "data"], .directory), (["2.json", "herodata", "data"], .file (.text "\x7b\x7d"))]⟩ := by
  decide +kernel

/-- An ability whose text is given under two capitalized tokens with one alias. -/
def doubled : FileTree :=
  withTexts
    ("\x7b\"Tokens\":\x7b\"DOTA_Tooltip_Ability_DOTA_Tooltip_ability_a\":\"A\","
      ++ "\"DOTA_Tooltip_ability_DOTA_Tooltip_Ability_a\":\"B\"\x7d\x7d")
    "\x7b\"DOTAAbilities\":\x7b\"DOTA_Tooltip_ability_a\":\x7b\x7d\x7d\x7d"

/-- A schedule in which each worker is done before the next one begins. -/
def oneByOne (turns : List Turn) : List Turn :=
  turns.flatMap (List.replicate 5)

/-- Double dots that lead out of a directory to be created make the schedule matter, in sources and in outputs. Two
capitalized tokens with one alias make the order matter in which a job goes through its texts. -/
theorem schedule_matters :
    ScheduleMatters { sources := { dataDirectory := ⟨"build/../data"⟩ } } [.heroLore, .aghanim] seeded
      (oneByOne [⟨0, .asListed⟩, ⟨1, .asListed⟩]) (oneByOne [⟨1, .asListed⟩, ⟨0, .asListed⟩]) ∧
    ScheduleMatters { build := { outputDirectory := ⟨"new/../build"⟩ }, sources := { heroDataDirectory := ⟨"new"⟩ } }
      [.heroLore, .aghanim] seeded
      (oneByOne [⟨0, .asListed⟩, ⟨1, .asListed⟩]) (oneByOne [⟨1, .asListed⟩, ⟨0, .asListed⟩]) ∧
    Manifest.Grounded {} [.abilities] doubled ∧
    ScheduleMatters {} [.abilities] doubled (oneByOne [⟨0, .asListed⟩]) (oneByOne [⟨0, .reversed⟩]) := by
  have enoughFirst : ∀ index < 2, 5 ≤ ((oneByOne [⟨0, .asListed⟩, ⟨1, .asListed⟩]).map Turn.worker).count index := by decide
  have enoughSecond : ∀ index < 2, 5 ≤ ((oneByOne [⟨1, .asListed⟩, ⟨0, .asListed⟩]).map Turn.worker).count index := by decide
  refine ⟨?_, ?_, ?_, ?_⟩
  · refine ⟨wellFormed_seeded, by decide, ⟨?_, ?_⟩, isDone_run_start _ _ enoughFirst, isDone_run_start _ _ enoughSecond, .inl ?_⟩
    · decide +kernel
    · decide +kernel
    · rw [seeded_eq]
      decide +kernel
  · refine ⟨wellFormed_seeded, by decide, ⟨?_, ?_⟩, isDone_run_start _ _ enoughFirst, isDone_run_start _ _ enoughSecond, .inl ?_⟩
    · decide +kernel
    · decide +kernel
    · rw [seeded_eq]
      decide +kernel
  · refine ⟨?_, ?_, ?_⟩
    · decide +kernel
    · decide +kernel
    · decide +kernel
  · -- both runs write the file, with the text that their last token gives
    refine ⟨wellFormed_withTexts _ _, by decide, ⟨?_, ?_⟩, isDone_run_start _ _ (by decide), isDone_run_start _ _ (by decide),
      .inr ⟨["abilities_cn.json", "build"], ?_⟩⟩
    · decide +kernel
    · decide +kernel
    · decide +kernel

end Pool
end Compendium
