import Protoflight.Fsw.Startup
import Protoflight.Fsw.TmStart
import Protoflight.Os.Sem

/-!
# The semaphores of the tasks

The started system on semaphores whose value is bounded. Of the thread of a task only the
takes of its semaphore are told, in any order with the steps of the other threads; the
scheduler is a periodic task too, and no thread takes the semaphore of its entry.
-/

namespace Protoflight

variable {F G V : Type}

/-- The world of the task manager with the semaphores of POSIX. -/
structure TmSems (V : Type) where
  /-- The semaphore of each task, by its index. -/
  tasks : ℕ → Sem
  /-- The semaphore of the schedule. -/
  schedule : Sem
  /-- What else there is in the world. -/
  rest : V

/-- A semaphore of a task becomes what the pointer to it points to after a call. -/
def TmSems.setTask (os : TmSems V) (index : ℕ) (sem : Option Sem) : TmSems V :=
  { os with tasks := Function.update os.tasks index (sem.getD (os.tasks index)) }

/-- The semaphore of the schedule becomes what the pointer to it points to after a call. -/
def TmSems.setSchedule (os : TmSems V) (sem : Option Sem) : TmSems V :=
  { os with schedule := sem.getD os.schedule }

/-- What the task manager uses of that world. -/
def TmCallbacks.posix (C : TmCallbacks F V) : TmPlatform F (TmSems V) where
  semCreate index os :=
    let (result, sem) := osSemCreate (some (os.tasks index))
    (result, os.setTask index sem)
  semGive index os :=
    let (result, sem) := osSemGive (some (os.tasks index))
    (result, os.setTask index sem)
  call function argument os :=
    let (stopped, rest) := C.call function argument os.rest
    (stopped, { os with rest := rest })
  overlongShift := C.overlongShift

/-- What `tm_initialize` uses of that world, where `os_timer_create` is given. -/
def TmCallbacks.posixBoot (C : TmCallbacks F V) (timerCreate : V → OsResult × V) :
    TmBootPlatform F (TmSems V) where
  toTmPlatform := C.posix
  scheduleSemCreate os :=
    let (result, sem) := osSemCreate (some os.schedule)
    (result, os.setSchedule sem)
  timerCreate os :=
    let (result, rest) := timerCreate os.rest
    (result, { os with rest := rest })

/-- The started system, without what its threads do between two accesses of a semaphore. -/
structure TmScheduling (F V : Type) where
  system : TmSystem F (TmSems V)
  /-- Where the thread of `tm_scheduler_task` is. -/
  phase : TmSchedulerPhase

/-- Something that happens. -/
inductive TmMoment where
  /-- The timer calls `tm_schedule_callback`. -/
  | tick
  /-- A call of `tm_stop`. -/
  | stop
  /-- The thread of `tm_scheduler_task` goes on. -/
  | scheduler (interrupted : Bool)
  /-- The thread of a periodic task takes its semaphore. -/
  | take (index : ℕ)

/-- What is to be seen of a step. -/
inductive TmMove (F : Type) where
  /-- An event of a slot of the schedule. -/
  | entry (event : TmEvent F)
  /-- The semaphore of a task has been taken. -/
  | taken (index : ℕ)

/-- The index of the entry of the scheduler. -/
def tmSchedulerIndex : ℕ := fswTaskIdTmScheduler.toInt.toNat

namespace TmScheduling

/-- The units of the semaphore of a task. -/
def units (s : TmScheduling F V) (index : ℕ) : ℕ := (s.system.os.tasks index).value

variable (C : TmCallbacks F V)

/-- The thread of `tm_scheduler_task` goes on. -/
def schedulerStep (interrupted : Bool) (s : TmScheduling F V) :
    Option (List (TmMove F) × TmScheduling F V) :=
  match s.phase with
  | .loopHead =>
    some ([], { s with phase := if s.system.tm.continueRunning then .taking else .release 0 })
  | .taking =>
    if interrupted then
      -- the schedule cannot be run, so the system is shut down
      some ([], { s with system.tm.continueRunning := false, phase := .loopHead })
    else do
      let schedule ← s.system.os.schedule.take
      return ([], { s with system.os.schedule := schedule, phase := .slot 0 })
  | .slot index =>
    if index < tmMaxTasks then do
      let (events, system) ← (tmSchedulerEntry C.posix (Int32.ofNat index) s.system).toOption
      return (events.map .entry, { s with system := system, phase := .slot (index + 1) })
    else some ([], { s with phase := .loopHead })
  | .release index =>
    if index < tmMaxTasks then do
      let (_, system) ← (tmReleaseTasks C.posix [index] s.system).toOption
      return ([], { s with system := system, phase := .release (index + 1) })
    else some ([], { s with phase := .finished })
  | .finished => none

/-- What happens at a step, unless the thread waits or has ended. The tasks that take their
semaphores are the periodic ones of the table but the scheduler. -/
def step (s : TmScheduling F V) : TmMoment → Option (List (TmMove F) × TmScheduling F V)
  | .tick =>
    some ([], { s with
      system.os := s.system.os.setSchedule (osSemGive (some s.system.os.schedule)).2 })
  | .stop => some ([], { s with system.tm.continueRunning := false })
  | .scheduler interrupted => schedulerStep C interrupted s
  | .take index =>
    if index < tmMaxTasks ∧ index ≠ tmSchedulerIndex ∧
        (s.system.tm.tasks index).type = .periodic then do
      let sem ← (s.system.os.tasks index).take
      return ([.taken index],
        { s with system.os := s.system.os.setTask index (some sem) })
    else none

/-- Steps one after another. -/
def run : List TmMoment → TmScheduling F V → Option (List (TmMove F) × TmScheduling F V)
  | [], s => some ([], s)
  | moment :: moments, s => do
    let (moves, s) ← s.step C moment
    let (rest, s) ← run moments s
    return (moves ++ rest, s)

end TmScheduling

/-- `tm_initialize`, `tlm_initialize` and `tm_start` one after another. -/
def tmBoot (C : TmCallbacks F V) (timerCreate : V → OsResult × V)
    (tmSchedulerTask tlmTelemetryTask : F) (answers : ℕ → OsTaskAnswers)
    (timerAnswers : OsTimerAnswers) (scheduleTimer : OsTimer G) (tmScheduleCallback : G)
    (s : TmSystem F (TmSems V)) : Except TmFault (TmStarted F G × TmScheduling F V) := do
  let (_, s) ← tmInitialize (C.posixBoot timerCreate) tmSchedulerTask s
  let (_, _, s) ← tlmInitialize C.posix tlmTelemetryTask s
  let started ← tmStart answers timerAnswers scheduleTimer tmScheduleCallback s.tm
  return (started, ⟨s, .loopHead⟩)

section Moves

/-- `os_sem_give` has been called for a task by `tm_process_task`. -/
def TmMove.Gives (index : ℕ) (move : TmMove F) : Prop :=
  ∃ result, move = .entry (.given index result)

/-- How often a task has taken its semaphore since it was last scheduled, if it had so often
before. -/
def TmMove.takes (index : ℕ) (before : ℕ) : TmMove F → ℕ
  | .entry (.given reported _) => if reported = index then 0 else before
  | .taken reported => if reported = index then before + 1 else before
  | .entry _ => before

/-- Whenever a task is scheduled it has taken its semaphore once since it was last scheduled. -/
def TakesOnce (index : ℕ) : ℕ → List (TmMove F) → Prop
  | _, [] => True
  | before, move :: moves =>
    (move.Gives index → before = 1) ∧ TakesOnce index (move.takes index before) moves

/-- The scheduler has come to its own entry. -/
def TmMove.isOwn : TmMove F → Bool
  | .entry (.updated index _) => index = tmSchedulerIndex
  | _ => false

/-- How often the scheduler has come to its own entry. -/
def ownRounds (moves : List (TmMove F)) : ℕ := moves.countP TmMove.isOwn

end Moves

section Entry

variable {C : TmCallbacks F V}

/-- The semaphore of the task is to be given in the next slot. -/
def TmTask.Due (task : TmTask F) : Prop := task.type = .periodic ∧ task.status = .schedule

/-- What `os_sem_give` returns for a semaphore. -/
def Sem.giveResult (sem : Sem) : OsResult := if sem.value < semValueMax then .okay else .error

/-- The event is the call of a function. -/
def TmEvent.IsCall (event : TmEvent F) : Prop :=
  ∃ index function argument, event = .called index function argument

theorem Sem.giveResult_eq_okay_iff (sem : Sem) :
    sem.giveResult = .okay ↔ sem.value < semValueMax := by
  unfold giveResult
  split <;> simp [*]

theorem posix_semGive (index : ℕ) (os : TmSems V) : C.posix.semGive index os =
    ((os.tasks index).giveResult, os.setTask index (some (semPost (os.tasks index)).2)) := by
  simp only [TmCallbacks.posix, osSemGive_some]
  rfl

/-- A periodic task that is to be scheduled is given its semaphore. -/
theorem tmProcessTask_gives {taskId : TmTaskId} (hrange : TmState.InRange taskId)
    {s : TmSystem F (TmSems V)} (hperiodic : (s.tm.tasks taskId.toInt.toNat).type = .periodic) :
    ∃ s', tmProcessTask C.posix .schedule taskId s =
        .ok ([.given taskId.toInt.toNat (s.os.tasks taskId.toInt.toNat).giveResult], s') ∧
      s'.tm.tasks = s.tm.tasks ∧ s'.tm.continueRunning = s.tm.continueRunning ∧
      s'.os = s.os.setTask taskId.toInt.toNat
        (some (semPost (s.os.tasks taskId.toInt.toNat)).2) := by
  simp only [tmProcessTask, s.tm.task_of_inRange hrange, pure_bind, posix_semGive, if_pos hperiodic]
  split <;> exact ⟨_, rfl, rfl, rfl, rfl⟩

/-- Serving a task in any other way leaves all semaphores alone. -/
theorem tmProcessTask_leaves {status : TmTaskstatus} {taskId : TmTaskId}
    (hrange : TmState.InRange taskId) {s : TmSystem F (TmSems V)}
    (hother : ¬((s.tm.tasks taskId.toInt.toNat).type = .periodic ∧ status = .schedule)) :
    ∃ events s', tmProcessTask C.posix status taskId s = .ok (events, s') ∧
      (∀ event ∈ events, event.IsCall) ∧
      s'.tm.tasks = s.tm.tasks ∧ s'.os.tasks = s.os.tasks ∧ s'.os.schedule = s.os.schedule ∧
      (s'.tm.continueRunning = s.tm.continueRunning ∨
        ∃ function argument rest, (C.call function argument rest).1 = true) := by
  cases status with
  | schedule =>
    have hperiodic : (s.tm.tasks taskId.toInt.toNat).type ≠ .periodic := fun h => hother ⟨h, rfl⟩
    simp only [tmProcessTask, s.tm.task_of_inRange hrange, pure_bind, if_neg hperiodic]
    split
    · split
      · exact ⟨_, _, rfl, by simp [TmEvent.IsCall], rfl, rfl, rfl, .inl rfl⟩
      next function _ =>
        refine ⟨_, _, rfl, by simp [TmEvent.IsCall], rfl, rfl, rfl, ?_⟩
        cases hstopped : (C.call function (s.tm.tasks taskId.toInt.toNat).argument s.os.rest).1 with
        | true => exact .inr ⟨_, _, _, hstopped⟩
        | false =>
          exact .inl (by simp only [TmCallbacks.posix, hstopped, Bool.not_false, Bool.and_true])
    · exact ⟨_, _, rfl, by simp [TmEvent.IsCall], rfl, rfl, rfl, .inl rfl⟩
  | missedHeartbeat | invalid | wait | error | other =>
    exact ⟨_, _, rfl, by simp [TmEvent.IsCall], rfl, rfl, rfl, .inl rfl⟩

/-- The round of the loop for an entry that is due gives its semaphore. -/
theorem tmSchedulerEntry_gives {index : ℕ} (h : index < tmMaxTasks) {s : TmSystem F (TmSems V)}
    (hdue : (s.tm.tasks index).Due) :
    ∃ s', tmSchedulerEntry C.posix (Int32.ofNat index) s =
        .ok ([.updated index .schedule, .given index (s.os.tasks index).giveResult], s') ∧
      s'.tm.tasks = Function.update s.tm.tasks index (s.tm.tasks index).next ∧
      s'.tm.continueRunning = s.tm.continueRunning ∧
      s'.os = s.os.setTask index (some (semPost (s.os.tasks index)).2) := by
  obtain ⟨hperiodic, hschedule⟩ := hdue
  set updated : TmSystem F (TmSems V) :=
    { s with tm.tasks := Function.update s.tm.tasks index (s.tm.tasks index).next } with hupdated
  have htype : (updated.tm.tasks (Int32.ofNat index).toInt.toNat).type = .periodic := by
    rw [hupdated, toNat_toInt_ofNat h]
    simpa [TmTask.type_next] using hperiodic
  obtain ⟨s', hprocess, htasks, hrunning, hos⟩ :=
    tmProcessTask_gives (C := C) (inRange_ofNat h) htype
  rw [toNat_toInt_ofNat h] at hprocess hos
  refine ⟨s', ?_, htasks, hrunning, hos⟩
  rw [tmSchedulerEntry_of_lt _ h, hschedule, hprocess]
  rfl

/-- The round of the loop for any other entry leaves all semaphores alone. -/
theorem tmSchedulerEntry_leaves {index : ℕ} (h : index < tmMaxTasks) {s : TmSystem F (TmSems V)}
    (hdue : ¬(s.tm.tasks index).Due) :
    ∃ status events s', tmSchedulerEntry C.posix (Int32.ofNat index) s =
        .ok (.updated index status :: events, s') ∧
      (∀ event ∈ events, event.IsCall) ∧
      s'.tm.tasks = Function.update s.tm.tasks index (s.tm.tasks index).next ∧
      s'.os.tasks = s.os.tasks ∧ s'.os.schedule = s.os.schedule ∧
      (s'.tm.continueRunning = s.tm.continueRunning ∨
        ∃ function argument rest, (C.call function argument rest).1 = true) := by
  set updated : TmSystem F (TmSems V) :=
    { s with tm.tasks := Function.update s.tm.tasks index (s.tm.tasks index).next } with hupdated
  have hother : ¬((updated.tm.tasks (Int32.ofNat index).toInt.toNat).type = .periodic ∧
      (s.tm.tasks index).status = .schedule) := by
    rw [hupdated, toNat_toInt_ofNat h]
    simpa [TmTask.type_next] using fun hperiodic hschedule => hdue ⟨hperiodic, hschedule⟩
  obtain ⟨events, s', hprocess, hevents, htasks, hsems⟩ :=
    tmProcessTask_leaves (C := C) (inRange_ofNat h) hother
  refine ⟨(s.tm.tasks index).status, events, s', ?_, hevents, htasks, hsems⟩
  rw [tmSchedulerEntry_of_lt _ h, hprocess]
  rfl

/-- The entry of the scheduler is due in every slot. -/
theorem schedulerTask_due (tmSchedulerTask : F) : (schedulerTask tmSchedulerTask).Due :=
  ⟨rfl, by rw [TmTask.status_eq]; rfl⟩

theorem schedulerTask_next (tmSchedulerTask : F) :
    (schedulerTask tmSchedulerTask).next = schedulerTask tmSchedulerTask := by
  rw [TmTask.next_eq]
  rfl

end Entry

section Seen

/-- Every `os_sem_give` of `tm_process_task` has succeeded. -/
def GivesOkay (moves : List (TmMove F)) : Prop :=
  ∀ index result, .entry (.given index result) ∈ moves → result = .okay

/-- How often a task has taken its semaphore since it was last scheduled, after the moves. -/
def takesAfter (index before : ℕ) (moves : List (TmMove F)) : ℕ :=
  moves.foldl (fun before move => move.takes index before) before

theorem takesAfter_append (index before : ℕ) (moves moves' : List (TmMove F)) :
    takesAfter index before (moves ++ moves') =
      takesAfter index (takesAfter index before moves) moves' := List.foldl_append

theorem ownRounds_append (moves moves' : List (TmMove F)) :
    ownRounds (moves ++ moves') = ownRounds moves + ownRounds moves' := List.countP_append

theorem GivesOkay.append_iff {moves moves' : List (TmMove F)} :
    GivesOkay (moves ++ moves') ↔ GivesOkay moves ∧ GivesOkay moves' := by
  simp only [GivesOkay, List.mem_append, or_imp, forall_and]

theorem TakesOnce.append_iff {index before : ℕ} {moves moves' : List (TmMove F)} :
    TakesOnce index before (moves ++ moves') ↔
      TakesOnce index before moves ∧ TakesOnce index (takesAfter index before moves) moves' := by
  induction moves generalizing before with
  | nil => simp [TakesOnce, takesAfter]
  | cons move moves ih => simp only [List.cons_append, TakesOnce, ih, and_assoc, takesAfter,
      List.foldl_cons]

/-- What is to be seen when a semaphore is given. -/
def givenMoves (index : ℕ) (result : OsResult) : List (TmMove F) :=
  [.updated index .schedule, .given index result].map .entry

theorem ownRounds_givenMoves (index : ℕ) (result : OsResult) :
    ownRounds (givenMoves index result : List (TmMove F)) =
      if index = tmSchedulerIndex then 1 else 0 := by
  by_cases heq : index = tmSchedulerIndex <;> simp [ownRounds, givenMoves, TmMove.isOwn, heq]

theorem takesAfter_givenMoves (index other before : ℕ) (result : OsResult) :
    takesAfter other before (givenMoves index result : List (TmMove F)) =
      if index = other then 0 else before := rfl

theorem givesOkay_givenMoves (index : ℕ) (result : OsResult) :
    GivesOkay (givenMoves index result : List (TmMove F)) ↔ result = .okay := by
  simp [GivesOkay, givenMoves]

/-- The move gives no semaphore and takes none. -/
inductive TmMove.Quiet : TmMove F → Prop where
  | updated (index : ℕ) (status : TmTaskstatus) : Quiet (.entry (.updated index status))
  | called (index : ℕ) (function : F) (argument : UInt64) :
    Quiet (.entry (.called index function argument))

theorem TmMove.Quiet.gives {move : TmMove F} (h : move.Quiet) (index : ℕ) : ¬move.Gives index := by
  rintro ⟨result, rfl⟩
  cases h

theorem TmMove.Quiet.takes {move : TmMove F} (h : move.Quiet) (index before : ℕ) :
    move.takes index before = before := by
  cases h <;> rfl

theorem takesAfter_of_quiet {moves : List (TmMove F)} (h : ∀ move ∈ moves, move.Quiet)
    (index before : ℕ) : takesAfter index before moves = before := by
  induction moves with
  | nil => rfl
  | cons move moves ih =>
    obtain ⟨hmove, hmoves⟩ := List.forall_mem_cons.mp h
    rw [takesAfter, List.foldl_cons, hmove.takes]
    exact ih hmoves

theorem takesOnce_of_quiet {moves : List (TmMove F)} (h : ∀ move ∈ moves, move.Quiet)
    (index before : ℕ) : TakesOnce index before moves := by
  induction moves with
  | nil => trivial
  | cons move moves ih =>
    obtain ⟨hmove, hmoves⟩ := List.forall_mem_cons.mp h
    rw [TakesOnce, hmove.takes]
    exact ⟨fun hgives => (hmove.gives index hgives).elim, ih hmoves⟩

/-- What is to be seen when an entry is not given its semaphore. -/
def leftMoves (index : ℕ) (status : TmTaskstatus) (called : List (TmEvent F)) : List (TmMove F) :=
  (.updated index status :: called).map .entry

variable {called : List (TmEvent F)}

theorem leftMoves_quiet (index : ℕ) (status : TmTaskstatus)
    (hcalled : ∀ event ∈ called, event.IsCall) :
    ∀ move ∈ leftMoves index status called, move.Quiet := by
  intro move hmem
  obtain ⟨event, hevent, rfl⟩ := List.mem_map.mp hmem
  rcases List.mem_cons.mp hevent with rfl | hevent
  · exact .updated index status
  · obtain ⟨reported, function, argument, rfl⟩ := hcalled event hevent
    exact .called reported function argument

theorem ownRounds_leftMoves (index : ℕ) (status : TmTaskstatus)
    (hcalled : ∀ event ∈ called, event.IsCall) :
    ownRounds (leftMoves index status called) = if index = tmSchedulerIndex then 1 else 0 := by
  have hrest : (called.map TmMove.entry).countP TmMove.isOwn = 0 := by
    rw [List.countP_eq_zero]
    intro move hmem
    obtain ⟨event, hevent, rfl⟩ := List.mem_map.mp hmem
    obtain ⟨reported, function, argument, rfl⟩ := hcalled event hevent
    simp [TmMove.isOwn]
  rw [leftMoves, List.map_cons, ownRounds, List.countP_cons, hrest]
  simp [TmMove.isOwn]

/-- The thread of `tm_scheduler_task` has left its loop. -/
def TmSchedulerPhase.Left : TmSchedulerPhase → Prop
  | .release _ | .finished => True
  | .loopHead | .taking | .slot _ => False

end Seen

section Steps

variable {C : TmCallbacks F V} {s s' : TmScheduling F V} {moves : List (TmMove F)}

/-- A step that is not seen, and that leaves the table and the semaphores of the tasks alone. -/
structure TmScheduling.Unseen (s : TmScheduling F V) (moves : List (TmMove F))
    (s' : TmScheduling F V) : Prop where
  moves : moves = []
  tasks : s'.system.tm.tasks = s.system.tm.tasks
  sems : s'.system.os.tasks = s.system.os.tasks
  left : s.phase.Left → s'.phase.Left

/-- The scheduler goes on with an entry of a slot. -/
structure TmScheduling.Serves (C : TmCallbacks F V) (s : TmScheduling F V)
    (moves : List (TmMove F)) (s' : TmScheduling F V) (index : ℕ) : Prop where
  lt : index < tmMaxTasks
  phase : s.phase = .slot index
  entry : ∃ events,
    tmSchedulerEntry C.posix (Int32.ofNat index) s.system = .ok (events, s'.system) ∧
      moves = events.map .entry

/-- The scheduler goes on in its last loop. -/
structure TmScheduling.Releases (s : TmScheduling F V) (moves : List (TmMove F))
    (s' : TmScheduling F V) : Prop where
  before : s.phase.Left
  after : s'.phase.Left
  moves : moves = []

/-- The thread of a task takes its semaphore. -/
structure TmScheduling.Takes (s : TmScheduling F V) (moves : List (TmMove F))
    (s' : TmScheduling F V) (index : ℕ) : Prop where
  ne : index ≠ tmSchedulerIndex
  moves : moves = [.taken index]
  phase : s'.phase = s.phase
  tasks : s'.system.tm.tasks = s.system.tm.tasks
  sems : ∃ sem, (s.system.os.tasks index).take = some sem ∧
    s'.system.os.tasks = Function.update s.system.os.tasks index sem

/-- What the thread of `tm_scheduler_task` can do. -/
theorem schedulerStep_cases {interrupted : Bool}
    (h : s.schedulerStep C interrupted = some (moves, s')) :
    s.Unseen moves s' ∨ (∃ index, s.Serves C moves s' index) ∨ s.Releases moves s' := by
  simp only [TmScheduling.schedulerStep] at h
  cases hphase : s.phase with
  | loopHead =>
    rw [hphase] at h
    cases h
    exact .inl ⟨rfl, rfl, rfl, fun hleft => by simp [hphase, TmSchedulerPhase.Left] at hleft⟩
  | taking =>
    simp only [hphase] at h
    split at h
    next =>
      cases h
      exact .inl ⟨rfl, rfl, rfl, fun hleft => by simp [hphase, TmSchedulerPhase.Left] at hleft⟩
    next =>
      obtain ⟨schedule, -, h⟩ := Option.bind_eq_some_iff.mp h
      cases h
      exact .inl ⟨rfl, rfl, rfl, fun hleft => by simp [hphase, TmSchedulerPhase.Left] at hleft⟩
  | slot index =>
    simp only [hphase] at h
    split at h
    next hindex =>
      obtain ⟨⟨events, system⟩, hentry, h⟩ := Option.bind_eq_some_iff.mp h
      cases h
      exact .inr (.inl ⟨index, hindex, hphase, events, eq_ok_of_toOption hentry, rfl⟩)
    next =>
      cases h
      exact .inl ⟨rfl, rfl, rfl, fun hleft => by simp [hphase, TmSchedulerPhase.Left] at hleft⟩
  | release index =>
    have hleft : s.phase.Left := by rw [hphase]; trivial
    simp only [hphase] at h
    split at h
    next =>
      obtain ⟨⟨events, system⟩, -, h⟩ := Option.bind_eq_some_iff.mp h
      cases h
      exact .inr (.inr ⟨hleft, trivial, rfl⟩)
    next =>
      cases h
      exact .inr (.inr ⟨hleft, trivial, rfl⟩)
  | finished =>
    rw [hphase] at h
    cases h

/-- What a step can do. -/
theorem step_cases {moment : TmMoment} (h : s.step C moment = some (moves, s')) :
    s.Unseen moves s' ∨ (∃ index, s.Takes moves s' index) ∨ (∃ index, s.Serves C moves s' index) ∨
      s.Releases moves s' := by
  cases moment with
  | tick | stop =>
    cases h
    exact .inl ⟨rfl, rfl, rfl, id⟩
  | take index =>
    simp only [TmScheduling.step] at h
    split at h
    next hindex =>
      obtain ⟨sem, htake, h⟩ := Option.bind_eq_some_iff.mp h
      cases h
      exact .inr (.inl ⟨index, hindex.2.1, rfl, rfl, rfl, sem, htake, rfl⟩)
    next => cases h
  | scheduler interrupted =>
    rcases schedulerStep_cases h with hunseen | hserves | hreleases
    · exact .inl hunseen
    · exact .inr (.inr (.inl hserves))
    · exact .inr (.inr (.inr hreleases))

/-- In its last loop and after it, the scheduler is not seen. -/
theorem run_left {moments : List TmMoment} (h : s.run C moments = some (moves, s'))
    (hleft : s.phase.Left) : s'.phase.Left ∧ ∀ move ∈ moves, ∃ index, move = .taken index := by
  induction moments generalizing s moves with
  | nil =>
    cases h
    exact ⟨hleft, by simp⟩
  | cons moment moments ih =>
    obtain ⟨⟨first, t⟩, hstep, h⟩ := Option.bind_eq_some_iff.mp h
    obtain ⟨⟨rest, u⟩, hrun, h⟩ := Option.bind_eq_some_iff.mp h
    cases h
    have hfirst : t.phase.Left ∧ ∀ move ∈ first, ∃ index, move = .taken index := by
      rcases step_cases hstep with hunseen | ⟨index, htakes⟩ | ⟨index, hserves⟩ | hreleases
      · rw [hunseen.moves]
        exact ⟨hunseen.left hleft, by simp⟩
      · rw [htakes.moves, htakes.phase]
        exact ⟨hleft, by simp⟩
      · rw [hserves.phase] at hleft
        exact hleft.elim
      · rw [hreleases.moves]
        exact ⟨hreleases.after, by simp⟩
    obtain ⟨hphase, hrest⟩ := ih hrun hfirst.1
    exact ⟨hphase, fun move hmem => (List.mem_append.mp hmem).elim (hfirst.2 move) (hrest move)⟩

/-- Runs one after another are a run. -/
theorem run_append {moments moments' : List TmMoment} {t : TmScheduling F V}
    {moves' : List (TmMove F)} (h : s.run C moments = some (moves, t))
    (h' : t.run C moments' = some (moves', s')) :
    s.run C (moments ++ moments') = some (moves ++ moves', s') := by
  induction moments generalizing s moves with
  | nil =>
    cases h
    exact h'
  | cons moment moments ih =>
    obtain ⟨⟨first, u⟩, hstep, h⟩ := Option.bind_eq_some_iff.mp h
    obtain ⟨⟨rest, v⟩, hrest, h⟩ := Option.bind_eq_some_iff.mp h
    cases h
    rw [List.cons_append, TmScheduling.run, hstep]
    change (u.run C (moments ++ moments')).bind _ = _
    rw [ih hrest, List.append_assoc]
    rfl

theorem run_singleton {moment : TmMoment} (h : s.step C moment = some (moves, s')) :
    s.run C [moment] = some (moves, s') := by
  rw [TmScheduling.run, h]
  simp [TmScheduling.run]

/-- The scheduler goes on with an entry of a slot. -/
theorem step_slot {index : ℕ} (hindex : index < tmMaxTasks) (hphase : s.phase = .slot index)
    {events : List (TmEvent F)} {system : TmSystem F (TmSems V)}
    (hentry : tmSchedulerEntry C.posix (Int32.ofNat index) s.system = .ok (events, system)) :
    s.step C (.scheduler false) = some (events.map .entry, ⟨system, .slot (index + 1)⟩) := by
  simp only [TmScheduling.step, TmScheduling.schedulerStep, hphase, if_pos hindex, hentry]
  rfl

/-- The thread of a task takes its semaphore. -/
theorem step_take {index : ℕ} (hindex : index < tmMaxTasks) (hother : index ≠ tmSchedulerIndex)
    (htype : (s.system.tm.tasks index).type = .periodic) (hunits : 0 < s.units index) :
    ∃ s', s.step C (.take index) = some ([.taken index], s') ∧ s'.phase = s.phase ∧
      s'.system.tm = s.system.tm ∧ s'.system.os.schedule = s.system.os.schedule := by
  obtain ⟨sem, htake⟩ := Sem.exists_take hunits
  simp only [TmScheduling.step, if_pos (And.intro hindex (And.intro hother htype)), htake]
  exact ⟨_, rfl, rfl, rfl, rfl⟩

end Steps

end Protoflight
