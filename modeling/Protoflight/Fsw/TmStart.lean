import Protoflight.Fsw.TmSchedule
import Protoflight.Os.Task
import Protoflight.Os.Timer

/-!
# The start of the schedule

`tm_start` spawns the periodic tasks and the event tasks, and arms the timer of the
schedule. It goes on after a task that cannot be spawned, and reports what
`os_task_spawn` and `os_timer_start` tell it.
-/

namespace Protoflight

variable {F G : Type}

/-- `TM_SYSTEM_CLOCK_TICKS_PER_SLOT` -/
def tmSystemClockTicksPerSlot : OsTimeout := 1

/-- A call of `os_task_spawn` for an entry of the table. -/
structure TmSpawn (F : Type) where
  index : ℕ
  result : OsResult
  /-- The thread that has been created, if one has. -/
  thread : Option (OsThread F)

/-- What `tm_start` does. -/
structure TmStarted (F G : Type) where
  result : TmResult
  /-- The calls of `os_task_spawn`, one after another. -/
  spawns : List (TmSpawn F)
  /-- The timer of the schedule. -/
  timer : Option (OsTimer G)
  /-- The interval that the timer has been armed with, if it has. -/
  armed : Option Timespec

/-- `os_task_spawn`, for an entry of the table. -/
def tmSpawn (index : ℕ) (task : TmTask F) (answers : OsTaskAnswers) : TmSpawn F :=
  let (osResult, thread) :=
    osTaskSpawn false task.function task.argument task.priority task.stackSize answers
  ⟨index, osResult, thread⟩

/-- The loop of `tm_start` over the given part of the table, with `tm_result` before it. -/
def tmStartTasks (answers : ℕ → OsTaskAnswers) (s : TmState F) :
    List ℕ → TmResult → Except TmFault (TmResult × List (TmSpawn F))
  | [], tmResult => return (tmResult, [])
  | index :: indices, tmResult => do
    let task ← s.task (Int32.ofNat index)
    if task.type = .periodic ∨ task.type = .event then
      let spawn := tmSpawn index task (answers index)
      let tmResult := if spawn.result ≠ .okay then .taskSpawnError else tmResult
      let (tmResult, spawns) ← tmStartTasks answers s indices tmResult
      return (tmResult, spawn :: spawns)
    else
      tmStartTasks answers s indices tmResult

/-- `tm_start`, where the primitives answer each call of `os_task_spawn` as the index of
its entry tells. -/
def tmStart (answers : ℕ → OsTaskAnswers) (timerAnswers : OsTimerAnswers)
    (scheduleTimer : OsTimer G) (tmScheduleCallback : G) (s : TmState F) :
    Except TmFault (TmStarted F G) := do
  let (tmResult, spawns) ← tmStartTasks answers s (List.range tmMaxTasks) .okay
  let (osResult, timer, armed) := osTimerStart (some scheduleTimer) (some tmScheduleCallback) 0
    tmSystemClockTicksPerSlot timerAnswers
  let tmResult := if osResult ≠ .okay then .timerError else tmResult
  return ⟨tmResult, spawns, timer, armed⟩

/-- The entry is one that `tm_start` spawns. -/
def TmTask.Spawned (task : TmTask F) : Prop := task.type = .periodic ∨ task.type = .event

instance (task : TmTask F) : Decidable task.Spawned := inferInstanceAs (Decidable (_ ∨ _))

/-- The loop of `tm_start` calls `os_task_spawn` for the entries of these types, whatever has
become of the others, and tells whether one of the calls has reported an error. -/
theorem tmStartTasks_eq (answers : ℕ → OsTaskAnswers) (s : TmState F) {indices : List ℕ}
    (hrange : ∀ index ∈ indices, index < tmMaxTasks) (tmResult : TmResult) :
    tmStartTasks answers s indices tmResult =
      (let spawns := (indices.filter fun index => (s.tasks index).Spawned).map
        fun index => tmSpawn index (s.tasks index) (answers index)
      .ok (if ∀ spawn ∈ spawns, spawn.result = .okay then tmResult else .taskSpawnError,
        spawns)) := by
  induction indices generalizing tmResult with
  | nil =>
    simp only [tmStartTasks, List.filter_nil, List.map_nil, List.not_mem_nil, false_implies,
      implies_true, if_true]
    rfl
  | cons head indices ih =>
    have hhead := hrange head List.mem_cons_self
    have hrest : ∀ index ∈ indices, index < tmMaxTasks := fun index hmem =>
      hrange index (List.mem_cons_of_mem head hmem)
    rw [tmStartTasks, s.task_of_inRange (inRange_ofNat hhead), toNat_toInt_ofNat hhead]
    simp only [pure_bind, ih hrest]
    by_cases hspawned : (s.tasks head).Spawned
    · rw [if_pos (show _ ∨ _ from hspawned), List.filter_cons_of_pos (by simpa using hspawned),
        List.map_cons]
      simp only [List.forall_mem_cons]
      set spawn := tmSpawn head (s.tasks head) (answers head)
      by_cases hokay : spawn.result = .okay
      · simp only [hokay, ne_eq, not_true, if_false, true_and]
        rfl
      · simp only [hokay, ne_eq, not_false_eq_true, if_true, false_and, if_false, ite_self]
        rfl
    · rw [if_neg (show ¬(_ ∨ _) from hspawned), List.filter_cons_of_neg (by simpa using hspawned)]

/-- The call has tried every task, and has ended with an error exactly if it was told of one; an
error of the timer is told before one of a task. -/
structure TmStarted.Follows (started : TmStarted F G) (s : TmState F)
    (answers : ℕ → OsTaskAnswers) (timerAnswers : OsTimerAnswers) : Prop where
  spawns : started.spawns =
    ((List.range tmMaxTasks).filter fun index => (s.tasks index).Spawned).map fun index =>
      tmSpawn index (s.tasks index) (answers index)
  armed : started.armed.isSome ↔ timerAnswers.AllSucceed
  result : started.result = if started.armed.isSome then
      if ∀ spawn ∈ started.spawns, spawn.result = .okay then .okay else .taskSpawnError
    else .timerError

/-- `tm_start` tries every task, and tells of every error that it is told of. -/
theorem tmStart_eq (answers : ℕ → OsTaskAnswers) {timerAnswers : OsTimerAnswers}
    (htimer : timerAnswers.Conventional) (scheduleTimer : OsTimer G) (tmScheduleCallback : G)
    (s : TmState F) :
    ∃ started, tmStart answers timerAnswers scheduleTimer tmScheduleCallback s = .ok started ∧
      started.Follows s answers timerAnswers := by
  have htasks := tmStartTasks_eq answers s
    (fun index (hmem : index ∈ List.range tmMaxTasks) => List.mem_range.mp hmem) .okay
  obtain ⟨timer, hstart⟩ := osTimerStart_eq scheduleTimer tmScheduleCallback 0
    tmSystemClockTicksPerSlot htimer (by decide)
  simp only [tmStart, htasks]
  rcases hstart with ⟨hstart, hall⟩ | ⟨hstart, hall⟩
  · rw [hstart]
    exact ⟨_, rfl, rfl, iff_of_true rfl hall, rfl⟩
  · rw [hstart]
    exact ⟨_, rfl, rfl, iff_of_false (by simp) hall, rfl⟩

section Truthful

/-- The arguments of an entry pass the checks of `os_task_spawn`. -/
def TmTask.Accepted (task : TmTask F) : Prop :=
  OsTaskAccepts task.function task.priority task.stackSize

/-- Spawning an entry succeeds: its arguments pass, and none of the primitives that are called
for it fails. -/
def TmTask.SpawnSucceeds (task : TmTask F) (env : OsTaskAnswers) : Prop :=
  task.Accepted ∧ env.AllSucceed

/-- The spawn has created a thread that runs the function of its entry. -/
def TmSpawn.Runs (spawn : TmSpawn F) (s : TmState F) : Prop :=
  ∃ thread, spawn.thread = some thread ∧ (s.tasks spawn.index).function = some thread.function ∧
    (s.tasks spawn.index).argument = thread.argument

/-- `tm_start` tells the truth about the system that it has started. -/
structure TmStarted.Truthful (started : TmStarted F G) (s : TmState F)
    (answers : ℕ → OsTaskAnswers) : Prop where
  /-- Every periodic or event task has been tried once, and no other. -/
  attempts : started.spawns.map (·.index) =
    (List.range tmMaxTasks).filter fun index => (s.tasks index).Spawned
  okay : started.result = .okay →
    (∀ spawn ∈ started.spawns, spawn.Runs s) ∧ started.armed.isSome
  timerError : started.armed = none → started.result = .timerError
  taskSpawnError : started.armed.isSome →
    (∃ index < tmMaxTasks, (s.tasks index).Spawned ∧
      ¬(s.tasks index).SpawnSucceeds (answers index)) →
    started.result = .taskSpawnError

/-- What makes the truth come out: the timer cannot be started, or there is a task with
arguments that `os_task_spawn` refuses, or no primitive that is called for a task fails. -/
def StartIsPlain (s : TmState F) (answers : ℕ → OsTaskAnswers) (timerAnswers : OsTimerAnswers) :
    Prop :=
  ¬timerAnswers.AllSucceed ∨
    (∃ index < tmMaxTasks, (s.tasks index).Spawned ∧ ¬(s.tasks index).Accepted) ∨
    ∀ index < tmMaxTasks, (s.tasks index).Spawned → (answers index).AllSucceed

variable {s : TmState F} {answers : ℕ → OsTaskAnswers}

/-- A spawn is reported as a success exactly if its arguments pass. -/
theorem tmSpawn_okay_iff (index : ℕ) {task : TmTask F} {env : OsTaskAnswers}
    (henv : env.Conventional) : (tmSpawn index task env).result = .okay ↔ task.Accepted := by
  unfold tmSpawn
  by_cases haccepted : task.Accepted
  · obtain ⟨thread, -, -, hspawn⟩ := osTaskSpawn_accepted task.argument haccepted henv
    rw [hspawn]
    exact iff_of_true rfl haccepted
  · obtain ⟨result, hresult, hspawn⟩ := osTaskSpawn_refused task.argument env haccepted
    rw [hspawn]
    exact iff_of_false hresult haccepted

/-- A spawn that succeeds creates the thread of its entry. -/
theorem tmSpawn_runs {index : ℕ} (henv : (answers index).Conventional)
    (h : (s.tasks index).SpawnSucceeds (answers index)) :
    (tmSpawn index (s.tasks index) (answers index)).Runs s := by
  obtain ⟨haccepted, hall⟩ := h
  obtain ⟨thread, hfunction, hargument, hspawn⟩ :=
    osTaskSpawn_accepted (s.tasks index).argument haccepted henv
  unfold tmSpawn
  rw [hspawn]
  exact ⟨thread, if_pos hall.create, hfunction, hargument.symm⟩

namespace TmStarted.Follows

variable {started : TmStarted F G} {timerAnswers : OsTimerAnswers}

theorem mem_spawns_iff (h : started.Follows s answers timerAnswers) {spawn : TmSpawn F} :
    spawn ∈ started.spawns ↔ ∃ index < tmMaxTasks, (s.tasks index).Spawned ∧
      tmSpawn index (s.tasks index) (answers index) = spawn := by
  simp only [h.spawns, List.mem_map, List.mem_filter, List.mem_range, decide_eq_true_eq, and_assoc]

/-- All spawns are reported as successes exactly if the arguments of all tasks pass. -/
theorem all_okay_iff (h : started.Follows s answers timerAnswers)
    (htasks : ∀ index, (answers index).Conventional) :
    (∀ spawn ∈ started.spawns, spawn.result = .okay) ↔
      ∀ index < tmMaxTasks, (s.tasks index).Spawned → (s.tasks index).Accepted := by
  constructor
  · intro hall index hindex hspawned
    have hspawn := h.mem_spawns_iff.mpr ⟨index, hindex, hspawned, rfl⟩
    exact (tmSpawn_okay_iff index (htasks index)).mp (hall _ hspawn)
  · intro hall spawn hspawn
    obtain ⟨index, hindex, hspawned, rfl⟩ := h.mem_spawns_iff.mp hspawn
    exact (tmSpawn_okay_iff index (htasks index)).mpr (hall index hindex hspawned)

/-- Success is reported exactly if the timer has been armed and the arguments of all tasks pass. -/
theorem okay_iff (h : started.Follows s answers timerAnswers)
    (htasks : ∀ index, (answers index).Conventional) :
    started.result = .okay ↔ started.armed.isSome ∧
      ∀ index < tmMaxTasks, (s.tasks index).Spawned → (s.tasks index).Accepted := by
  rw [h.result, ← h.all_okay_iff htasks]
  split_ifs with hsome hall
  · exact iff_of_true rfl ⟨hsome, hall⟩
  · exact iff_of_false not_false fun hboth => hall hboth.2
  · exact iff_of_false not_false fun hboth => hsome hboth.1

/-- What is true is that nothing fails behind the back of `tm_start`. -/
theorem plain_of_truthful (h : started.Follows s answers timerAnswers)
    (htasks : ∀ index, (answers index).Conventional) (htruthful : started.Truthful s answers) :
    StartIsPlain s answers timerAnswers := by
  by_contra hplain
  obtain ⟨htimer, hplain⟩ := not_or.mp hplain
  obtain ⟨hrefused, hfails⟩ := not_or.mp hplain
  push Not at htimer hrefused hfails
  obtain ⟨index, hindex, hspawned, hfails⟩ := hfails
  -- all tasks are accepted, so that nothing is reported
  have hreported := (h.okay_iff htasks).mpr ⟨h.armed.mpr htimer, hrefused⟩
  have hmissed := htruthful.taskSpawnError (h.armed.mpr htimer)
    ⟨index, hindex, hspawned, fun hsucceeds => hfails hsucceeds.2⟩
  rw [hreported] at hmissed
  cases hmissed

/-- When the timer has been armed and all tasks are accepted, no primitive has failed for a
task. -/
theorem succeed_of_plain (h : started.Follows s answers timerAnswers)
    (hplain : StartIsPlain s answers timerAnswers) (hsome : started.armed.isSome)
    (haccepted : ∀ index < tmMaxTasks, (s.tasks index).Spawned → (s.tasks index).Accepted) :
    ∀ index < tmMaxTasks, (s.tasks index).Spawned →
      (s.tasks index).SpawnSucceeds (answers index) := by
  intro index hindex hspawned
  rcases hplain with htimer | ⟨index', hindex', hspawned', hrefused⟩ | hsucceed
  · exact absurd (h.armed.mp hsome) htimer
  · exact absurd (haccepted index' hindex' hspawned') hrefused
  · exact ⟨haccepted index hindex hspawned, hsucceed index hindex hspawned⟩

/-- Otherwise `tm_start` tells the truth. -/
theorem truthful_of_plain (h : started.Follows s answers timerAnswers)
    (htasks : ∀ index, (answers index).Conventional)
    (hplain : StartIsPlain s answers timerAnswers) : started.Truthful s answers where
  attempts := by
    rw [h.spawns, List.map_map]
    exact List.map_id' _
  okay := by
    intro hokay
    obtain ⟨hsome, haccepted⟩ := (h.okay_iff htasks).mp hokay
    refine ⟨fun spawn hspawn => ?_, hsome⟩
    obtain ⟨index, hindex, hspawned, rfl⟩ := h.mem_spawns_iff.mp hspawn
    exact tmSpawn_runs (htasks index) (h.succeed_of_plain hplain hsome haccepted index hindex
      hspawned)
  timerError := by
    intro hnone
    rw [h.result, hnone]
    rfl
  taskSpawnError := by
    rintro hsome ⟨index, hindex, hspawned, hfails⟩
    have hrefused : ¬∀ spawn ∈ started.spawns, spawn.result = .okay := fun hall =>
      hfails (h.succeed_of_plain hplain hsome ((h.all_okay_iff htasks).mp hall) index hindex
        hspawned)
    rw [h.result, if_pos hsome, if_neg hrefused]

end TmStarted.Follows

/-- Under the conventions of POSIX, `tm_start` tells the truth exactly if the timer cannot be
started, a task is refused for its arguments, or no primitive fails for a task. -/
theorem tm_start_truthful_iff (s : TmState F) (answers : ℕ → OsTaskAnswers)
    (timerAnswers : OsTimerAnswers) (scheduleTimer : OsTimer G) (tmScheduleCallback : G)
    (htasks : ∀ index, (answers index).Conventional) (htimer : timerAnswers.Conventional) :
    (∃ started, tmStart answers timerAnswers scheduleTimer tmScheduleCallback s = .ok started ∧
      started.Truthful s answers) ↔ StartIsPlain s answers timerAnswers := by
  obtain ⟨started, hstart, hfollows⟩ :=
    tmStart_eq answers htimer scheduleTimer tmScheduleCallback s
  constructor
  · rintro ⟨started', hstart', htruthful⟩
    rw [hstart] at hstart'
    cases hstart'
    exact hfollows.plain_of_truthful htasks htruthful
  · intro hplain
    exact ⟨started, hstart, hfollows.truthful_of_plain htasks hplain⟩

/-- The primitives succeed for every task. -/
def allThreadsCreated : OsTaskAnswers := ⟨0, 1000, 0, 0, 0, 0, 0, 0, 0⟩

/-- There is no room for another thread: `pthread_create` returns `EAGAIN`. -/
def noMoreThreads : OsTaskAnswers := { allThreadsCreated with create := 11 }

/-- The timer of the schedule can be started. -/
def timerStarts : OsTimerAnswers := ⟨0, 0, 0⟩

/-- A table with one event task. -/
def oneEventTask : TmState Unit where
  status := ⟨0, 0, 0⟩
  continueRunning := true
  numTasks := 1
  tasks index := tmNewTask [] (if index = 3 then .event else .invalid) (some ()) 0 0 1 1 1

/-- A start with a task for which every primitive succeeds. -/
theorem tm_start_truthful_iff_created :
    ∃ started, tmStart (fun _ => allThreadsCreated) timerStarts ⟨34, none, 0, 0⟩ () oneEventTask =
      .ok started ∧ started.Truthful oneEventTask fun _ => allThreadsCreated := by
  have hconventional : allThreadsCreated.Conventional := by constructor <;> decide
  have hsucceed : allThreadsCreated.AllSucceed := by constructor <;> decide
  have htimer : timerStarts.Conventional := by constructor <;> decide
  exact (tm_start_truthful_iff oneEventTask (fun _ => allThreadsCreated) timerStarts
    ⟨34, none, 0, 0⟩ () (fun _ => hconventional) htimer).mpr (.inr (.inr fun _ _ _ => hsucceed))

/-- A thread that cannot be created is reported as started. -/
theorem tm_start_truthful_not :
    ¬∀ (s : TmState Unit) (answers : ℕ → OsTaskAnswers) (timerAnswers : OsTimerAnswers),
      (∀ index, (answers index).Conventional) → timerAnswers.Conventional →
      ∃ started, tmStart answers timerAnswers ⟨34, none, 0, 0⟩ () s = .ok started ∧
        started.Truthful s answers := by
  intro h
  obtain ⟨started, hstart, htruthful⟩ := h oneEventTask (fun _ => noMoreThreads) timerStarts
    (fun _ => by constructor <;> decide) (by constructor <;> decide)
  cases hstart
  obtain ⟨hruns, -⟩ := htruthful.okay (by decide)
  obtain ⟨thread, hthread, -⟩ := hruns _ List.mem_cons_self
  cases hthread

end Truthful

end Protoflight
