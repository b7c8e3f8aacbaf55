import ImageGate.Proofs.Settings.Changes
import Mathlib.Algebra.Order.Group.Nat
import Mathlib.Data.List.Basic

/-! The schedule of the tasks that read the settings again. A task waits on an interval that ticks
at once and then after each period; it lets the first tick pass and reads the file at every later
one. Taken millisecond by millisecond, such tasks read at the whole periods since their start and do
to the settings what moving the clock in one go does. -/
namespace ImageGate.Settings
set_option autoImplicit false

/-! ## Tasks, one millisecond after the other -/

/-- A task at work, with the next tick of its interval and the times of its readings. -/
structure Worker extends Task where
  deadline : Nat
  readings : List Nat := []
  deriving DecidableEq, Repr

namespace Worker

/-- The first tick comes at once and is let pass. -/
def ofTask (task : Task) : Worker := { task with deadline := task.start + task.period }

/-- An interval without length never ticks. -/
def isDue (worker : Worker) (now : Nat) : Bool := 0 < worker.period && worker.deadline ≤ now

def turned (worker : Worker) (now : Nat) : Worker :=
  if worker.isDue now then
    { worker with deadline := worker.deadline + worker.period, readings := worker.readings ++ [now] }
  else worker

end Worker

structure Clockwork where
  handle : Handle
  file : FileContent
  now : Nat := 0
  workers : List Worker := []
  deriving DecidableEq, Repr

namespace Clockwork

/-- The workers take their turns one after the other; whoever is due reads the file. -/
def turns (content : FileContent) (now : Nat) : Handle → List Worker → Handle × List Worker
  | handle, [] => (handle, [])
  | handle, worker :: rest =>
    let left := if worker.isDue now then (handle.reload content).handle else handle
    let others := turns content now left rest
    (others.1, worker.turned now :: others.2)

def pass (clock : Clockwork) : Clockwork :=
  let turned := turns clock.file (clock.now + 1) clock.handle clock.workers
  { clock with handle := turned.1, now := clock.now + 1, workers := turned.2 }

def after (clock : Clockwork) : Nat → Clockwork
  | 0 => clock
  | time + 1 => (clock.after time).pass

/-- The same without deadlines and readings. -/
def running (clock : Clockwork) : Running :=
  { handle := clock.handle, file := clock.file, now := clock.now
    tasks := clock.workers.map Worker.toTask }

def step (clock : Clockwork) : Event → Clockwork
  | .written bytes => { clock with file := some bytes }
  | .removed => { clock with file := none }
  | .reloaded => { clock with handle := (clock.handle.reload clock.file).handle }
  | .replaced settings => { clock with handle := clock.handle.replace settings }
  | .autoupdateStarted =>
    match clock.running.task? with
    | none => clock
    | some task => { clock with workers := clock.workers ++ [.ofTask task] }
  | .clockAdvanced time => clock.after time

def run (clock : Clockwork) (events : List Event) : Clockwork := events.foldl step clock

end Clockwork

/-! ## Ticks -/

theorem Task.isDue_iff {task : Task} {before after : Nat} (h : task.start ≤ before) :
    task.isDue before after = true ↔
      ∃ k, 1 ≤ k ∧ before < task.start + k * task.period ∧ task.start + k * task.period ≤ after := by
  rw [Task.isDue, decide_eq_true_eq]
  rcases Nat.eq_zero_or_pos task.period with hperiod | hperiod
  · rw [hperiod, Nat.div_zero, Nat.div_zero]
    refine iff_of_false (Nat.lt_irrefl 0) ?_
    rintro ⟨k, -, hbefore, -⟩
    omega
  · constructor
    · intro hlt
      -- The last whole period up to `after` is a tick that lies between.
      have hafter := Nat.div_mul_le_self (after - task.start) task.period
      generalize (after - task.start) / task.period = k at hlt hafter
      have hbefore := (Nat.div_lt_iff_lt_mul hperiod).1 hlt
      exact ⟨k, Nat.one_le_of_lt hlt, by omega, by omega⟩
    · rintro ⟨k, -, hbefore, hafter⟩
      have hlow : (before - task.start) / task.period < k := by
        rw [Nat.div_lt_iff_lt_mul hperiod]
        omega
      have hhigh : k ≤ (after - task.start) / task.period := by
        rw [Nat.le_div_iff_mul_le hperiod]
        omega
      exact hlow.trans_le hhigh

theorem Task.isDue_trans (task : Task) {first second third : Nat} (hle : first ≤ second)
    (hle' : second ≤ third) :
    task.isDue first third = (task.isDue first second || task.isDue second third) := by
  have hlow := Nat.div_le_div_right (c := task.period) (Nat.sub_le_sub_right hle task.start)
  have hhigh := Nat.div_le_div_right (c := task.period) (Nat.sub_le_sub_right hle' task.start)
  rw [Bool.eq_iff_iff, Bool.or_eq_true, Task.isDue, Task.isDue, Task.isDue, decide_eq_true_eq,
    decide_eq_true_eq, decide_eq_true_eq]
  omega

/-! ## Moving the clock in two goes -/

theorem Handle.reload_reload (handle : Handle) (content : FileContent) :
    ((handle.reload content).handle.reload content).handle = (handle.reload content).handle := by
  cases hpath : handle.path with
  | none => simp only [reload, hpath]
  | some path =>
    cases hload : load path content with
    | error fault => simp only [reload, hpath, hload]
    | ok loaded =>
      cases hsame : handle.current.same loaded with
      | true => simp only [reload, hpath, hload, hsame, if_true]
      | false =>
        have hself : loaded.same loaded = true := same_iff.2 (.refl loaded)
        simp only [reload, replace, hpath, hload, hsame, hself, Bool.false_eq_true, if_false,
          if_true]

namespace Running

theorem advance_zero (running : Running) : running.advance 0 = running := by
  have hdue : running.isDue 0 = false := by simp [isDue, Task.isDue]
  exact advance_of_not_isDue hdue

theorem isDue_add (running : Running) (a b : Nat) :
    running.isDue (a + b) = (running.isDue a || (running.advance a).isDue b) := by
  have hnow : (running.advance a).now = running.now + a := rfl
  rw [Bool.eq_iff_iff]
  simp only [isDue, running.tasks_advance, hnow, Bool.or_eq_true, List.any_eq_true, ← exists_or,
    ← and_or_left, ← Nat.add_assoc]
  refine exists_congr fun task => and_congr_right fun _ => ?_
  rw [← Bool.or_eq_true, ← task.isDue_trans (Nat.le_add_right _ _) (Nat.le_add_right _ _)]

theorem advance_add (running : Running) (a b : Nat) :
    (running.advance a).advance b = running.advance (a + b) := by
  have hdue := running.isDue_add a b
  cases hfirst : running.isDue a with
  | false =>
    rw [hfirst, Bool.false_or] at hdue
    cases hsecond : (running.advance a).isDue b with
    | false =>
      rw [advance_of_not_isDue hsecond, advance_of_not_isDue (hdue.trans hsecond),
        advance_of_not_isDue hfirst, Nat.add_assoc]
    | true =>
      rw [advance_of_isDue hsecond, advance_of_isDue (hdue.trans hsecond),
        advance_of_not_isDue hfirst, Nat.add_assoc]
      rfl
  | true =>
    rw [hfirst, Bool.true_or] at hdue
    cases hsecond : (running.advance a).isDue b with
    | false =>
      rw [advance_of_not_isDue hsecond, advance_of_isDue hdue, advance_of_isDue hfirst,
        Nat.add_assoc]
    | true =>
      rw [advance_of_isDue hsecond, advance_of_isDue hdue, advance_of_isDue hfirst]
      simp only [reload, Handle.reload_reload, Nat.add_assoc]

end Running

/-! ## One worker -/

structure Worker.IsPunctual (worker : Worker) (now : Nat) : Prop where
  started : worker.start ≤ now
  deadline : worker.deadline =
    worker.start + ((now - worker.start) / worker.period + 1) * worker.period
  readings : worker.readings = (List.range ((now - worker.start) / worker.period)).map
    fun k => worker.start + (k + 1) * worker.period

namespace Worker
variable {worker : Worker} {now : Nat}

theorem isPunctual_ofTask (task : Task) : (ofTask task).IsPunctual task.start where
  started := Nat.le_refl _
  deadline := by simp [ofTask]
  readings := by simp [ofTask]

theorem turned_of_isDue (h : worker.isDue now = true) :
    worker.turned now = { worker with
      deadline := worker.deadline + worker.period, readings := worker.readings ++ [now] } := by
  rw [turned, if_pos h]

theorem turned_of_not_isDue (h : worker.isDue now = false) : worker.turned now = worker := by
  rw [turned, if_neg (Bool.eq_false_iff.1 h)]

theorem toTask_turned (worker : Worker) (now : Nat) :
    (worker.turned now).toTask = worker.toTask := by
  unfold turned
  split <;> rfl

theorem isDue_eq (h : worker.IsPunctual now) :
    worker.isDue (now + 1) = worker.toTask.isDue now (now + 1) := by
  rw [Bool.eq_iff_iff, isDue, Bool.and_eq_true, decide_eq_true_eq, decide_eq_true_eq, h.deadline,
    Task.isDue, decide_eq_true_eq]
  rcases Nat.eq_zero_or_pos worker.period with hperiod | hperiod
  · simp [hperiod]
  · have hstarted := h.started
    have hlater : (now - worker.start) / worker.period < (now + 1 - worker.start) / worker.period ↔
        ((now - worker.start) / worker.period + 1) * worker.period ≤ now + 1 - worker.start :=
      Nat.succ_le_iff.symm.trans (Nat.le_div_iff_mul_le hperiod)
    rw [hlater]
    omega

/-- Within a millisecond at most one period ends. -/
theorem div_succ (h : worker.IsPunctual now) :
    (now + 1 - worker.start) / worker.period =
      (now - worker.start) / worker.period + (if worker.isDue (now + 1) then 1 else 0) := by
  rw [isDue_eq h, Task.isDue, Nat.succ_sub h.started, Nat.succ_div]
  split <;> simp

theorem deadline_eq_of_isDue (h : worker.IsPunctual now) (hdue : worker.isDue (now + 1) = true) :
    worker.deadline = now + 1 := by
  rw [isDue, Bool.and_eq_true, decide_eq_true_eq, decide_eq_true_eq] at hdue
  have hlater : now - worker.start < ((now - worker.start) / worker.period + 1) * worker.period :=
    (Nat.div_lt_iff_lt_mul hdue.1).1 (Nat.lt_succ_self _)
  have hstarted := h.started
  have hdeadline := h.deadline
  omega

theorem IsPunctual.turned (h : worker.IsPunctual now) :
    (worker.turned (now + 1)).IsPunctual (now + 1) := by
  have hdiv := div_succ h
  have hstarted : worker.start ≤ now + 1 := h.started.trans (Nat.le_succ now)
  cases hdue : worker.isDue (now + 1) with
  | false =>
    simp only [hdue, Bool.false_eq_true, if_false, Nat.add_zero] at hdiv
    rw [turned_of_not_isDue hdue]
    exact {
      started := hstarted
      deadline := by rw [hdiv, h.deadline]
      readings := by rw [hdiv, h.readings] }
  | true =>
    rw [hdue, if_pos rfl] at hdiv
    have hlast := (deadline_eq_of_isDue h hdue).symm.trans h.deadline
    rw [turned_of_isDue hdue]
    exact {
      started := hstarted
      deadline := by simp only [hdiv, h.deadline, Nat.succ_mul, Nat.add_assoc]
      readings := by
        simp only [hdiv, List.range_succ, List.map_append, ← h.readings, List.map_singleton]
        rw [← hlast] }

end Worker

/-! ## All workers -/

namespace Clockwork
variable {clock : Clockwork}

theorem snd_turns (content : FileContent) (now : Nat) (handle : Handle) (workers : List Worker) :
    (turns content now handle workers).2 = workers.map (·.turned now) := by
  induction workers generalizing handle with
  | nil => rfl
  | cons worker rest ih => rw [turns, List.map_cons, ih]

/-- The first reading of a moment decides, and further ones change nothing. -/
theorem fst_turns (content : FileContent) (now : Nat) (handle : Handle) (workers : List Worker) :
    (turns content now handle workers).1 =
      if workers.any (·.isDue now) then (handle.reload content).handle else handle := by
  induction workers generalizing handle with
  | nil => rfl
  | cons worker rest ih =>
    rw [turns, ih, List.any_cons]
    cases worker.isDue now <;> cases rest.any (·.isDue now) <;> simp [Handle.reload_reload]

def IsPunctual (clock : Clockwork) : Prop := ∀ worker ∈ clock.workers, worker.IsPunctual clock.now

theorem isDue_running (h : clock.IsPunctual) :
    clock.running.isDue 1 = clock.workers.any (·.isDue (clock.now + 1)) := by
  rw [Running.isDue, running, List.any_map, Bool.eq_iff_iff, List.any_eq_true, List.any_eq_true]
  refine exists_congr fun worker => and_congr_right fun hworker => ?_
  rw [Worker.isDue_eq (h worker hworker)]
  rfl

theorem running_pass (h : clock.IsPunctual) : clock.pass.running = clock.running.advance 1 := by
  have htasks : clock.pass.workers.map Worker.toTask = clock.workers.map Worker.toTask := by
    simp only [pass, snd_turns, List.map_map, Function.comp_def, Worker.toTask_turned]
  have hhandle := fst_turns clock.file (clock.now + 1) clock.handle clock.workers
  -- Whoever is due reads the same file, so one reading stands for all.
  rw [← isDue_running h] at hhandle
  rw [running, htasks]
  cases hdue : clock.running.isDue 1 with
  | true =>
    rw [Running.advance_of_isDue hdue]
    rw [hdue, if_pos rfl] at hhandle
    simp only [pass, hhandle]
    rfl
  | false =>
    rw [Running.advance_of_not_isDue hdue]
    rw [hdue, if_neg Bool.false_ne_true] at hhandle
    simp only [pass, hhandle]
    rfl

theorem IsPunctual.pass (h : clock.IsPunctual) : clock.pass.IsPunctual := by
  intro worker hworker
  rw [Clockwork.pass, snd_turns, List.mem_map] at hworker
  obtain ⟨earlier, hearlier, rfl⟩ := hworker
  exact (h earlier hearlier).turned

theorem IsPunctual.after (h : clock.IsPunctual) (time : Nat) : (clock.after time).IsPunctual := by
  induction time with
  | zero => exact h
  | succ time ih => exact ih.pass

theorem running_after (h : clock.IsPunctual) (time : Nat) :
    (clock.after time).running = clock.running.advance time := by
  induction time with
  | zero => exact clock.running.advance_zero.symm
  | succ time ih => rw [after, running_pass (h.after time), ih, Running.advance_add]

theorem IsPunctual.step (h : clock.IsPunctual) (event : Event) : (clock.step event).IsPunctual := by
  cases event with
  | written | removed | reloaded | replaced => exact h
  | clockAdvanced time => exact h.after time
  | autoupdateStarted =>
    simp only [Clockwork.step]
    split
    · exact h
    · next task htask =>
      intro worker hworker
      rw [List.mem_append, List.mem_singleton] at hworker
      rcases hworker with hmem | rfl
      · exact h worker hmem
      · have hstart : task.start = clock.now := by rw [(Running.task?_eq_some_iff.1 htask).2.2]; rfl
        exact hstart ▸ Worker.isPunctual_ofTask task

theorem running_step (h : clock.IsPunctual) (event : Event) :
    (clock.step event).running = clock.running.step event := by
  cases event with
  | written | removed | reloaded | replaced => rfl
  | clockAdvanced time => exact running_after h time
  | autoupdateStarted =>
    simp only [step, Running.step, Running.startAutoupdate]
    cases clock.running.task? with
    | none => rfl
    | some task => simp only [running, List.map_append, List.map_singleton, Worker.ofTask]

theorem IsPunctual.run (h : clock.IsPunctual) (events : List Event) :
    (clock.run events).IsPunctual := by
  induction events generalizing clock with
  | nil => exact h
  | cons event rest ih => exact ih (h.step event)

theorem running_run (h : clock.IsPunctual) (events : List Event) :
    (clock.run events).running = clock.running.run events := by
  induction events generalizing clock with
  | nil => rfl
  | cons event rest ih =>
    rw [run, List.foldl_cons, Running.run, List.foldl_cons, ← running_step h event]
    exact ih (h.step event)

end Clockwork

/-! ## The schedule of a task -/

/-- The readings of a task that began at `start`, up to now: one at each whole period. -/
structure Worker.KeepsTo (worker : Worker) (start period now : Nat) : Prop where
  reads_iff : ∀ time, time ∈ worker.readings ↔
    0 < period ∧ ∃ k, 1 ≤ k ∧ time = start + k * period ∧ time ≤ now
  once : worker.readings.Pairwise (· < ·)

theorem Worker.IsPunctual.keepsTo {worker : Worker} {now : Nat} (h : worker.IsPunctual now) :
    worker.KeepsTo worker.start worker.period now := by
  have hstarted := h.started
  rcases Nat.eq_zero_or_pos worker.period with hperiod | hperiod
  · have hreadings := h.readings
    rw [hperiod, Nat.div_zero, List.range_zero, List.map_nil] at hreadings
    exact {
      reads_iff := fun time => by simp [hreadings, hperiod]
      once := by simp [hreadings] }
  · constructor
    · intro time
      rw [h.readings, List.mem_map]
      constructor
      · rintro ⟨k, hk, rfl⟩
        have hend : (k + 1) * worker.period ≤ now - worker.start :=
          (Nat.le_div_iff_mul_le hperiod).1 (List.mem_range.1 hk)
        exact ⟨hperiod, k + 1, by omega, rfl, by omega⟩
      · rintro ⟨-, k, hk, rfl, hle⟩
        obtain ⟨j, rfl⟩ := Nat.exists_eq_add_of_le' hk
        have hend : j + 1 ≤ (now - worker.start) / worker.period := by
          rw [Nat.le_div_iff_mul_le hperiod]
          omega
        exact ⟨j, List.mem_range.2 hend, rfl⟩
    · rw [h.readings, List.pairwise_map]
      refine List.pairwise_lt_range.imp fun {j k} hlt => ?_
      have hmul : (j + 1) * worker.period < (k + 1) * worker.period :=
        Nat.mul_lt_mul_of_pos_right (Nat.succ_lt_succ hlt) hperiod
      omega

theorem Running.tasks_kept_step (running : Running) (event : Event) :
    running.tasks <+: (running.step event).tasks := by
  cases event with
  | written | removed | reloaded | replaced => exact List.prefix_rfl
  | clockAdvanced time =>
    exact ⟨[], (List.append_nil _).trans (running.tasks_advance time).symm⟩
  | autoupdateStarted =>
    simp only [step, startAutoupdate]
    split
    · exact List.prefix_rfl
    · exact List.prefix_append _ _

theorem Running.tasks_kept_run (running : Running) (events : List Event) :
    running.tasks <+: (running.run events).tasks := by
  induction events generalizing running with
  | nil => exact List.prefix_rfl
  | cons event rest ih => exact (running.tasks_kept_step event).trans (ih _)

theorem Clockwork.exists_worker {clock : Clockwork} (h : clock.IsPunctual) {task : Task}
    (htask : clock.running.task? = some task) (events : List Event) :
    ∃ worker, (clock.run (.autoupdateStarted :: events)).workers[clock.running.tasks.length]?
      = some worker ∧ worker.toTask = task := by
  have hbegun : (clock.running.step .autoupdateStarted).tasks = clock.running.tasks ++ [task] := by
    simp only [Running.step, Running.startAutoupdate, htask]
  obtain ⟨others, htasks⟩ := (clock.running.step .autoupdateStarted).tasks_kept_run events
  have hthere : (clock.run (.autoupdateStarted :: events)).running.tasks[clock.running.tasks.length]?
      = some task := by
    -- Tasks are only ever added behind it.
    rw [running_run h, Running.run, List.foldl_cons]
    rw [Running.run, hbegun] at htasks
    rw [← htasks, List.append_assoc, List.getElem?_append_right (Nat.le_refl _), Nat.sub_self]
    rfl
  rwa [running, List.getElem?_map, Option.map_eq_some_iff] at hthere

/-! ## Time that passes -/

namespace Running
variable {running : Running} {path : String} {time : Nat}

def Ticks (running : Running) (time : Nat) : Prop :=
  ∃ task ∈ running.tasks, ∃ k, 1 ≤ k ∧ running.now < task.start + k * task.period ∧
    task.start + k * task.period ≤ running.now + time

/-- After this time the settings are those of the file, or still the same if it gives none. -/
structure CatchesUp (running : Running) (path : String) (time : Nat) : Prop where
  taken : ∀ loaded, load path running.file = .ok loaded →
    (running.advance time).handle.current.Equals loaded
  kept : ∀ fault, load path running.file = .error fault →
    (running.advance time).handle = running.handle

theorem isDue_iff_ticks (h : ∀ task ∈ running.tasks, task.start ≤ running.now) :
    running.isDue time = true ↔ running.Ticks time := by
  rw [isDue, List.any_eq_true]
  exact exists_congr fun task => and_congr_right fun htask => Task.isDue_iff (h task htask)

theorem catchesUp_of_isDue (hpath : running.handle.path = some path)
    (hdue : running.isDue time = true) : running.CatchesUp path time := by
  constructor
  · intro loaded hload
    rw [advance_of_isDue hdue]
    by_cases hequals : running.handle.current.Equals loaded
    · rw [reload_of_equals hpath hload hequals]
      exact hequals
    · rw [reload_of_differs hpath hload hequals]
      exact .refl loaded
  · intro fault hload
    rw [advance_of_isDue hdue, reload_of_refused hpath hload]

/-- The tasks of `clock` do what `running` says, and each keeps to the schedule of its start. -/
structure KeptBy (running : Running) (clock : Clockwork) : Prop where
  follows : ∀ events, (clock.run events).running = running.run events
  schedule : running.startAutoupdate.1 = true → ∀ events,
    ∃ worker, (clock.run (.autoupdateStarted :: events)).workers[running.tasks.length]? = some worker ∧
      worker.KeepsTo running.now running.handle.current.autoupdate.interval
        (running.run (.autoupdateStarted :: events)).now
  split : ∀ a b, (running.advance a).advance b = running.advance (a + b)
  catchesUp : ∀ path time, running.handle.path = some path → running.Ticks time →
    running.CatchesUp path time

end Running

theorem Clockwork.IsPunctual.keptBy {clock : Clockwork} (h : clock.IsPunctual) :
    clock.running.KeptBy clock where
  follows := running_run h
  schedule := by
    intro hstarted events
    cases htask : clock.running.task? with
    | none =>
      rw [Running.startAutoupdate, htask] at hstarted
      cases hstarted
    | some task =>
      obtain ⟨worker, hworker, hsame⟩ := exists_worker h htask events
      refine ⟨worker, hworker, ?_⟩
      have hpunctual := h.run (.autoupdateStarted :: events) worker (List.mem_of_getElem? hworker)
      have hasked := hsame.trans (Running.task?_eq_some_iff.1 htask).2.2
      have hstart : worker.start = clock.running.now := congrArg Task.start hasked
      have hperiod : worker.period = clock.running.handle.current.autoupdate.interval :=
        congrArg Task.period hasked
      rw [← running_run h, ← hstart, ← hperiod]
      exact hpunctual.keepsTo
  split := clock.running.advance_add
  catchesUp := by
    intro path time hpath hticks
    have hstarted : ∀ task ∈ clock.running.tasks, task.start ≤ clock.running.now := by
      intro task htask
      obtain ⟨worker, hworker, rfl⟩ := List.mem_map.1 htask
      exact (h worker hworker).started
    exact Running.catchesUp_of_isDue hpath ((Running.isDue_iff_ticks hstarted).2 hticks)

/-- In every run the clock and its tasks keep to the schedule, whatever becomes of the settings. -/
theorem Running.keptBy_run (handle : Handle) (file : FileContent) (now : Nat) (events : List Event) :
    (({ handle, file, now } : Running).run events).KeptBy
      (({ handle, file, now } : Clockwork).run events) := by
  let clock : Clockwork := { handle, file, now }
  have hpunctual : clock.IsPunctual := nofun
  have hrunning := Clockwork.running_run hpunctual events
  exact hrunning ▸ (hpunctual.run events).keptBy

/-- A task reads on when the settings no longer ask for it. -/
theorem Running.keptBy_run_switched_off :
    let handle : Handle := {
      current := { autoupdate := { isEnabled := true, interval := 1000 } }, path := some "s.toml" }
    let clock : Clockwork := { handle, file := none }
    let events : List Event :=
      [.autoupdateStarted, .replaced {}, .clockAdvanced 999, .clockAdvanced 1002]
    ∃ worker, (clock.run events).workers[0]? = some worker ∧
      ∀ time, time ∈ worker.readings ↔ time = 1000 ∨ time = 2000 := by
  intro handle clock events
  obtain ⟨worker, hworker, hkeeps⟩ :=
    (Running.keptBy_run handle none 0 []).schedule rfl events.tail
  refine ⟨worker, hworker, fun time => (hkeeps.reads_iff time).trans ⟨?_, ?_⟩⟩
  · rintro ⟨-, k, hk, rfl, hle⟩
    have hnow : 0 + k * 1000 ≤ 2001 := hle
    show 0 + k * 1000 = 1000 ∨ 0 + k * 1000 = 2000
    omega
  · rintro (rfl | rfl)
    · exact ⟨by decide, 1, by decide, rfl, by decide⟩
    · exact ⟨by decide, 2, by decide, rfl, by decide⟩

end ImageGate.Settings
