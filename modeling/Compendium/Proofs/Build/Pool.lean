import Compendium.Proofs.Build.Progress

/-! The jobs of a build on a pool of workers, which take their steps in any order, and go through the tokens of their string
tables in any order when they load them. -/

set_option autoImplicit false
namespace Compendium

/-- How many of the jobs that were counted have succeeded and failed. -/
structure Tally where
  succeeded : Nat := 0
  failed : Nat := 0
  deriving DecidableEq, Repr

def Tally.add (tally : Tally) : Except BuildError Path → Tally
  | .ok _ => { tally with succeeded := tally.succeeded + 1 }
  | .error _ => { tally with failed := tally.failed + 1 }

/-- A job, how far it has come, and whether it was counted after its end. -/
structure Worker where
  job : Job
  stage : Stage := .waiting
  counted : Bool := false

/-- Which worker takes a step, and in which order it goes through the tokens if it loads a string table. -/
structure Turn where
  worker : Nat
  order : StringTable.TokenOrder := .asListed

/-- The steps that are left, with the one that counts the job. -/
def Worker.left (worker : Worker) : Nat :=
  worker.stage.remaining + if worker.counted then 0 else 1

theorem Stage.result?_eq_some_iff {stage : Stage} {result : Except BuildError Path} :
    stage.result? = some result ↔ stage = .finished result := by
  cases stage with
  | finished other => simp [result?]
  | waiting | loaded | compiled | placed => exact ⟨nofun, nofun⟩

/-- Workers that share a file tree and a tally. -/
structure Pool where
  tree : FileTree
  workers : List Worker
  tally : Tally := {}

namespace Pool

def start (jobs : List Job) (tree : FileTree) : Pool :=
  ⟨tree, jobs.map fun job => { job }, {}⟩

/-- A step of a worker: of its job, or the count of a job that is finished. -/
def move (manifest : Manifest) (pool : Pool) (turn : Turn) (worker : Worker) : Pool :=
  match worker.stage.result? with
  | none =>
    let moved := worker.stage.next manifest worker.job pool.tree turn.order
    { pool with tree := moved.1, workers := pool.workers.set turn.worker { worker with stage := moved.2 } }
  | some result =>
    if worker.counted then pool
    else { pool with
      workers := pool.workers.set turn.worker { worker with counted := true }
      tally := pool.tally.add result }

def step (manifest : Manifest) (pool : Pool) (turn : Turn) : Pool :=
  match pool.workers[turn.worker]? with
  | none => pool
  | some worker => pool.move manifest turn worker

/-- Steps of the workers, one after the other. -/
def run (manifest : Manifest) (pool : Pool) (schedule : List Turn) : Pool :=
  schedule.foldl (step manifest) pool

def isDone (pool : Pool) : Bool :=
  pool.workers.all Worker.counted

/-- The results of the jobs that are finished, in the order of the jobs. -/
def batch (pool : Pool) : BatchResult :=
  ⟨pool.workers.filterMap fun worker => worker.stage.result?.map (JobResult.mk worker.job)⟩

/-- A list around the entry at an index, and what it becomes with another entry there. -/
theorem exists_around {workers : List Worker} {index : Nat} {worker : Worker} (here : workers[index]? = some worker) :
    ∃ before after, before.length = index ∧ workers = before ++ worker :: after ∧
      ∀ other, workers.set index other = before ++ other :: after := by
  obtain ⟨inside, found⟩ := List.getElem?_eq_some_iff.mp here
  refine ⟨workers.take index, workers.drop (index + 1), List.length_take_of_le (Nat.le_of_lt inside), ?_, ?_⟩
  · rw [← found, List.getElem_cons_drop, List.take_append_drop]
  · intro other
    rw [List.set_eq_take_append_cons_drop, if_pos inside]

/-- What a turn does: nothing, a step of the worker's job, or the count of its job. -/
inductive Steps (manifest : Manifest) (turn : Turn) : Pool → Pool → Prop where
  | rests {pool : Pool} : (∀ worker, pool.workers[turn.worker]? = some worker → worker.left = 0) →
      Steps manifest turn pool pool
  | moves {tree : FileTree} {before after : List Worker} {worker : Worker} {tally : Tally} : before.length = turn.worker →
      worker.stage.result? = none → Steps manifest turn ⟨tree, before ++ worker :: after, tally⟩
        ⟨(worker.stage.next manifest worker.job tree turn.order).1,
          before ++ { worker with stage := (worker.stage.next manifest worker.job tree turn.order).2 } :: after, tally⟩
  | counts {tree : FileTree} {before after : List Worker} {job : Job} {result : Except BuildError Path} {tally : Tally} :
      before.length = turn.worker → Steps manifest turn ⟨tree, before ++ ⟨job, .finished result, false⟩ :: after, tally⟩
        ⟨tree, before ++ ⟨job, .finished result, true⟩ :: after, tally.add result⟩

theorem steps_step (manifest : Manifest) (pool : Pool) (turn : Turn) :
    Steps manifest turn pool (pool.step manifest turn) := by
  rw [step]
  cases here : pool.workers[turn.worker]? with
  | none => exact .rests fun worker found => nomatch here.symm.trans found
  | some worker =>
    obtain ⟨before, after, place, around, replaced⟩ := exists_around here
    obtain ⟨tree, workers, tally⟩ := pool
    change workers = before ++ worker :: after at around
    simp only [move, replaced]
    cases ended : worker.stage.result? with
    | none =>
      rw [around]
      exact .moves place ended
    | some result =>
      obtain ⟨job, stage, counted⟩ := worker
      obtain rfl := Stage.result?_eq_some_iff.mp ended
      cases counted with
      | true =>
        refine .rests ?_
        rintro worker found
        obtain rfl := Option.some.inj (here.symm.trans found)
        rfl
      | false =>
        rw [around]
        exact .counts place

/-- The steps that the worker at an index has left. -/
def left (pool : Pool) (index : Nat) : Nat :=
  match pool.workers[index]? with
  | some worker => worker.left
  | none => 0

section
variable {manifest : Manifest} {pool next : Pool} {turn : Turn} {index : Nat}

theorem left_own (tree : FileTree) (before after : List Worker) (worker : Worker) (tally : Tally) :
    left ⟨tree, before ++ worker :: after, tally⟩ before.length = worker.left := by
  simp [left]

theorem left_other {tree changed : FileTree} {before after : List Worker} {worker moved : Worker} {tally counted : Tally}
    (elsewhere : before.length ≠ index) : left ⟨tree, before ++ worker :: after, tally⟩ index =
      left ⟨changed, before ++ moved :: after, counted⟩ index := by
  have same : (before ++ worker :: after)[index]? = (before ++ moved :: after)[index]? := by
    rcases Nat.lt_or_gt_of_ne elsewhere with late | early
    · obtain ⟨more, rfl⟩ := Nat.exists_eq_add_of_lt late
      rw [List.getElem?_append_right (by omega), List.getElem?_append_right (by omega)]
      simp [Nat.add_assoc]
    · rw [List.getElem?_append_left early, List.getElem?_append_left early]
  simp only [left, same]

theorem Steps.length (steps : Steps manifest turn pool next) : next.workers.length = pool.workers.length := by
  cases steps with
  | rests => rfl
  | moves => simp
  | counts => simp

theorem Steps.left_other (steps : Steps manifest turn pool next) (elsewhere : turn.worker ≠ index) :
    next.left index = pool.left index := by
  cases steps with
  | rests => rfl
  | moves place => exact Pool.left_other (place ▸ elsewhere)
  | counts place => exact Pool.left_other (place ▸ elsewhere)

/-- A worker that takes a step has one less left, if it had any. -/
theorem Steps.left_own (steps : Steps manifest turn pool next) : next.left turn.worker ≤ pool.left turn.worker - 1 := by
  cases steps with
  | rests ended =>
    have none : pool.left turn.worker = 0 := by
      rw [left]
      split
      · next worker here => exact ended worker here
      · rfl
    rw [none]
  | @moves tree before after worker tally place unfinished =>
    have fewer := Stage.remaining_next_lt manifest worker.job tree turn.order unfinished
    rw [← place, Pool.left_own, Pool.left_own, Worker.left, Worker.left]
    dsimp only
    omega
  | counts place =>
    rw [← place, Pool.left_own]
    exact Nat.zero_le _

theorem left_run (schedule : List Turn) (pool : Pool) :
    (pool.run manifest schedule).left index ≤ pool.left index - (schedule.map Turn.worker).count index := by
  induction schedule generalizing pool with
  | nil => exact Nat.le_refl _
  | cons first rest ih =>
    have steps := steps_step manifest pool first
    have later := ih (pool.step manifest first)
    rw [run, List.foldl_cons, ← run, List.map_cons]
    by_cases own : first.worker = index
    · subst own
      have fewer := steps.left_own
      rw [List.count_cons_self]
      omega
    · -- a step of another worker takes none from this one
      rw [List.count_cons_of_ne own, ← steps.left_other own]
      exact later

theorem length_run (schedule : List Turn) (pool : Pool) :
    (pool.run manifest schedule).workers.length = pool.workers.length := by
  induction schedule generalizing pool with
  | nil => rfl
  | cons first rest ih => exact (ih _).trans (steps_step manifest pool first).length

/-- A pool whose workers have no steps left has counted all jobs. -/
theorem isDone_of_left (ended : ∀ index < pool.workers.length, pool.left index = 0) : pool.isDone = true := by
  rw [isDone, List.all_eq_true]
  intro worker member
  obtain ⟨index, inside, here⟩ := List.getElem_of_mem member
  have none := ended index inside
  rw [left, List.getElem?_eq_getElem inside, here] at none
  change worker.left = 0 at none
  rw [Worker.left] at none
  cases counted : worker.counted with
  | true => rfl
  | false =>
    rw [counted] at none
    cases none

/-- Five steps for each worker are enough: it loads, compiles, creates the directory, writes and is counted. -/
theorem isDone_run_start (jobs : List Job) (tree : FileTree) {schedule : List Turn}
    (enough : ∀ index < jobs.length, 5 ≤ (schedule.map Turn.worker).count index) :
    ((start jobs tree).run manifest schedule).isDone = true := by
  apply isDone_of_left
  intro index inside
  have length : (start jobs tree).workers.length = jobs.length := by simp [start]
  rw [length_run, length] at inside
  have begins : (start jobs tree).left index = 5 := by
    simp [left, start, inside, Worker.left, Stage.remaining]
  have bound := @left_run manifest index schedule (start jobs tree)
  have steps := enough index inside
  omega

end

end Pool
end Compendium
