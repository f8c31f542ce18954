import Mathlib.Data.Nat.Notation
import Mathlib.Logic.Function.Basic
import Protoflight.Os.Types

/-!
# The task manager

The data of `tm_definitions.h`, and the functions of `tm.c` that register tasks
and that run the schedule. What a slot of the schedule does to the tasks is told by
a list of events beside the state. An index outside the task table is a fault.
-/

namespace Protoflight

/-- `TM_TaskId` -/
abbrev TmTaskId := Int32

/-- `TM_TaskBitField`: one bit for each task, by its task id. -/
abbrev TmTaskBitField := Int32

/-- `TM_MAX_TASKS` -/
def tmMaxTasks : ℕ := 100

/-- `TM_MAX_TASK_NAME_LENGTH` -/
def tmMaxTaskNameLength : ℕ := 32

/-- `TM_RESULT_ENUM`: the result of a function of the task manager. -/
inductive TmResult where
  | invalid
  | okay
  | nullPointer
  | invalidArgument
  | timerError
  | taskSpawnError
  | semCreateError
  deriving DecidableEq, Repr

/-- The value of a result code. -/
def TmResult.code : TmResult → ℕ
  | .invalid => 0
  | .okay => 1
  | .nullPointer => 2
  | .invalidArgument => 3
  | .timerError => 4
  | .taskSpawnError => 5
  | .semCreateError => 6

/-- `TM_TASKTYPE_ENUM` -/
inductive TmTasktype where
  | invalid
  | periodic
  | event
  | callback
  | monitor
  /-- A value outside the enumeration. -/
  | other (value : UInt32)
  deriving DecidableEq, Repr

/-- `TM_TASKSTATUS_ENUM` -/
inductive TmTaskstatus where
  | invalid
  | wait
  | schedule
  | missedHeartbeat
  | error
  /-- A value outside the enumeration. -/
  | other (value : ℕ)
  deriving DecidableEq, Repr

/-- The status with a numeric value. -/
def TmTaskstatus.ofCode : ℕ → TmTaskstatus
  | 0 => .invalid
  | 1 => .wait
  | 2 => .schedule
  | 3 => .missedHeartbeat
  | 4 => .error
  | value => .other value

/-- `TM_Task`, for task functions of type `F`. Its semaphore and its thread are
part of the world, under the index of the task. -/
structure TmTask (F : Type) where
  type : TmTasktype
  schedulePeriod : UInt32
  heartbeatPeriod : UInt32
  ticks : UInt32
  /-- The function pointer, or nothing for NULL. -/
  function : Option F
  argument : UInt64
  stackSize : Int32
  priority : Int32
  /-- The characters of the name, with those after its end. -/
  name : List UInt8

/-- `TM_Status` -/
structure TmStatus where
  cycle : UInt32
  tasksScheduled : TmTaskBitField
  tasksMissedHeartbeat : TmTaskBitField
  deriving DecidableEq, Repr

/-- `TM_State`, without the semaphore and the timer of the schedule. -/
structure TmState (F : Type) where
  status : TmStatus
  continueRunning : Bool
  numTasks : UInt16
  /-- The array of `TM_MAX_TASKS` tasks. -/
  tasks : ℕ → TmTask F

/-- The task manager and the world outside it. -/
structure TmSystem (F W : Type) where
  tm : TmState F
  os : W

/-- What the task manager uses of the world: the functions of the semaphores of
the tasks, told by their index, and the functions registered for callback tasks. -/
structure TmPlatform (F W : Type) where
  /-- `os_sem_create` -/
  semCreate (index : ℕ) (os : W) : OsResult × W
  /-- `os_sem_give` -/
  semGive (index : ℕ) (os : W) : OsResult × W
  /-- Call a function that leaves the task table alone. It may have called
  `tm_stop`, which the first component tells. -/
  call (function : F) (argument : UInt64) (os : W) : Bool × W
  /-- The value of `1ULL << count` for a count outside the width of the operand,
  which the language leaves open. -/
  overlongShift (count : Int32) : UInt64

/-- An access outside the task table, with its index. -/
inductive TmFault where
  | tasks (index : ℤ)
  deriving DecidableEq, Repr

/-- Something that a slot does to a task, told by its index. -/
inductive TmEvent (F : Type) where
  /-- `tm_update_task` has returned a status for the task. -/
  | updated (index : ℕ) (status : TmTaskstatus)
  /-- The semaphore of the task has been given, with a result. -/
  | given (index : ℕ) (result : OsResult)
  /-- The function of the task has been called. -/
  | called (index : ℕ) (function : F) (argument : UInt64)
  deriving DecidableEq, Repr

/-- The task that an event is about. -/
def TmEvent.index {F : Type} : TmEvent F → ℕ
  | .updated index _ | .given index _ | .called index _ _ => index

variable {F W : Type}

namespace TmState

/-- The index is inside the task table. -/
def InRange (taskId : TmTaskId) : Prop := 0 ≤ taskId.toInt ∧ taskId.toInt < tmMaxTasks

instance (taskId : TmTaskId) : Decidable (InRange taskId) := inferInstanceAs (Decidable (_ ∧ _))

/-- `gvTM_state.tasks[task_id]` -/
def task (s : TmState F) (taskId : TmTaskId) : Except TmFault (TmTask F) :=
  if InRange taskId then pure (s.tasks taskId.toInt.toNat) else throw (.tasks taskId.toInt)

/-- Assign `gvTM_state.tasks[task_id]`. -/
def setTask (s : TmState F) (taskId : TmTaskId) (task : TmTask F) : Except TmFault (TmState F) :=
  if InRange taskId then
    pure { s with tasks := Function.update s.tasks taskId.toInt.toNat task }
  else throw (.tasks taskId.toInt)

theorem task_of_inRange (s : TmState F) {taskId : TmTaskId} (h : InRange taskId) :
    s.task taskId = pure (s.tasks taskId.toInt.toNat) := if_pos h

theorem setTask_of_inRange (s : TmState F) {taskId : TmTaskId} (h : InRange taskId)
    (task : TmTask F) : s.setTask taskId task =
      pure { s with tasks := Function.update s.tasks taskId.toInt.toNat task } := if_pos h

end TmState

section Registration

/-- The name field after `strncpy` of all but its last character, which ends the name. -/
def tmTaskName (taskName : List UInt8) : List UInt8 :=
  (taskName ++ List.replicate (tmMaxTaskNameLength - 1) 0).take (tmMaxTaskNameLength - 1) ++ [0]

/-- The entry that a registration writes, with a count of zero. -/
def tmNewTask (taskName : List UInt8) (type : TmTasktype) (taskFunction : Option F)
    (taskArgument : UInt64) (period heartbeatPeriod : UInt32) (stackSize priority : Int32) :
    TmTask F where
  type := type
  ticks := 0
  function := taskFunction
  argument := taskArgument
  schedulePeriod := period
  heartbeatPeriod := heartbeatPeriod
  stackSize := stackSize
  priority := priority
  name := tmTaskName taskName

variable (P : TmPlatform F W)

/-- `tm_periodic_task` -/
def tmPeriodicTask (taskName : Option (List UInt8)) (taskId : TmTaskId) (taskFunction : Option F)
    (taskArgument : UInt64) (period heartbeatPeriod stackSize priority : Int32)
    (s : TmSystem F W) : Except TmFault (TmResult × TmSystem F W) := do
  if let (some name, some function) := (taskName, taskFunction) then
    if period = 0 then
      return (.invalidArgument, s)
    let tm ← s.tm.setTask taskId (tmNewTask name .periodic (some function) taskArgument
      period.toUInt32 heartbeatPeriod.toUInt32 stackSize priority)
    let (osResult, os) := P.semCreate taskId.toInt.toNat s.os
    if osResult = .okay then
      return (.okay, { tm := { tm with numTasks := tm.numTasks + 1 }, os := os })
    else
      return (.semCreateError, { tm := tm, os := os })
  else
    return (.nullPointer, s)

/-- `tm_event_task` -/
def tmEventTask (taskName : Option (List UInt8)) (taskId : TmTaskId) (taskFunction : Option F)
    (taskArgument : UInt64) (heartbeatPeriod stackSize priority : Int32)
    (s : TmState F) : Except TmFault (TmResult × TmState F) := do
  if let (some name, some function) := (taskName, taskFunction) then
    let s ← s.setTask taskId (tmNewTask name .event (some function) taskArgument 0
      heartbeatPeriod.toUInt32 stackSize priority)
    return (.okay, { s with numTasks := s.numTasks + 1 })
  else
    return (.nullPointer, s)

/-- `tm_callback_task` -/
def tmCallbackTask (taskName : Option (List UInt8)) (taskId : TmTaskId)
    (taskFunction : Option F) (taskArgument : UInt64) (period : Int32) (s : TmState F) :
    Except TmFault (TmResult × TmState F) := do
  if let (some name, some function) := (taskName, taskFunction) then
    let s ← s.setTask taskId (tmNewTask name .callback (some function) taskArgument
      period.toUInt32 0 0 0)
    return (.okay, { s with numTasks := s.numTasks + 1 })
  else
    return (.nullPointer, s)

/-- `tm_monitor_task` -/
def tmMonitorTask (taskName : Option (List UInt8)) (taskId : TmTaskId) (s : TmState F) :
    Except TmFault (TmResult × TmState F) := do
  if let some name := taskName then
    let s ← s.setTask taskId (tmNewTask name .monitor none 0 0 0 0 0)
    return (.okay, { s with numTasks := s.numTasks + 1 })
  else
    return (.nullPointer, s)

end Registration

section Schedule

variable (P : TmPlatform F W)

/-- `1ULL << task_id`, stored into a bit field. -/
def tmSetBit (field : TmTaskBitField) (taskId : TmTaskId) : TmTaskBitField :=
  let bit :=
    if 0 ≤ taskId ∧ taskId < 64 then 1 <<< taskId.toInt64.toUInt64 else P.overlongShift taskId
  (field.toInt64.toUInt64 ||| bit).toUInt32.toInt32

/-- `tm_update_task`. The argument is what the pointer points to, or nothing for
NULL; the second component is what it points to afterwards. -/
def tmUpdateTask (task : Option (TmTask F)) : TmTaskstatus × Option (TmTask F) :=
  match task with
  | none =>
    -- the code of a result, where a status is wanted
    (.ofCode TmResult.nullPointer.code, none)
  | some task => Id.run do
    let mut task := { task with ticks := task.ticks + 1 }
    let mut tmStatus := TmTaskstatus.invalid
    match task.type with
    | .invalid =>
      tmStatus := .error
    | .periodic =>
      tmStatus := .wait
      if task.ticks = task.schedulePeriod then
        tmStatus := .schedule
        task := { task with ticks := 0 }
      if task.ticks ≥ task.heartbeatPeriod then
        tmStatus := .missedHeartbeat
    | .event =>
      tmStatus := .wait
      if task.ticks ≥ task.heartbeatPeriod then
        tmStatus := .missedHeartbeat
    | .callback =>
      tmStatus := .wait
      if task.ticks = task.schedulePeriod then
        tmStatus := .schedule
        task := { task with ticks := 0 }
    | .monitor =>
      tmStatus := .wait
    | .other _ => pure ()
    return (tmStatus, some task)

/-- `tm_process_task` -/
def tmProcessTask (status : TmTaskstatus) (taskId : TmTaskId) (s : TmSystem F W) :
    Except TmFault (List (TmEvent F) × TmSystem F W) := do
  let index := taskId.toInt.toNat
  match status with
  | .schedule =>
    let task ← s.tm.task taskId
    if task.type = .periodic then
      let (osStatus, os) := P.semGive index s.os
      let s := { s with os := os }
      if osStatus = .okay then
        return ([.given index osStatus],
          { s with tm.status.tasksScheduled := tmSetBit P s.tm.status.tasksScheduled taskId })
      else
        return ([.given index osStatus], s)
    else if task.type = .callback then
      match task.function with
      | none => return ([], s)
      | some function =>
        let (stopped, os) := P.call function task.argument s.os
        return ([.called index function task.argument],
          { s with tm.continueRunning := s.tm.continueRunning && !stopped, os := os })
    else
      return ([], s)
  | .missedHeartbeat =>
    return ([],
      { s with
        tm.status.tasksMissedHeartbeat := tmSetBit P s.tm.status.tasksMissedHeartbeat taskId })
  | .invalid | .wait | .error | .other _ => return ([], s)

/-- The body of the loop of `tm_scheduler_task` over the table. -/
def tmSchedulerEntry (taskId : TmTaskId) (s : TmSystem F W) :
    Except TmFault (List (TmEvent F) × TmSystem F W) := do
  if osTaskStatus = .okay then
    let task ← s.tm.task taskId
    let (status, updated) := tmUpdateTask (some task)
    let tm ← s.tm.setTask taskId (updated.getD task)
    let (events, s) ← tmProcessTask P status taskId { s with tm := tm }
    return (.updated taskId.toInt.toNat status :: events, s)
  else
    return ([], s)

/-- The loop of `tm_scheduler_task` over the given part of the table. -/
def tmSchedulerEntries : List ℕ → TmSystem F W →
    Except TmFault (List (TmEvent F) × TmSystem F W)
  | [], s => return ([], s)
  | index :: indices, s => do
    let (events, s) ← tmSchedulerEntry P (Int32.ofNat index) s
    let (rest, s) ← tmSchedulerEntries indices s
    return (events ++ rest, s)

/-- A slot of the schedule: what `tm_scheduler_task` does once the semaphore of the
schedule has been taken. -/
def tmSchedulerSlot (s : TmSystem F W) : Except TmFault (List (TmEvent F) × TmSystem F W) :=
  tmSchedulerEntries P (List.range tmMaxTasks) s

/-- The last loop of `tm_scheduler_task`, over the given part of the table. -/
def tmReleaseTasks : List ℕ → TmSystem F W → Except TmFault (List (TmEvent F) × TmSystem F W)
  | [], s => return ([], s)
  | index :: indices, s => do
    let task ← s.tm.task (Int32.ofNat index)
    if task.type = .periodic then
      let (osResult, os) := P.semGive index s.os
      let (rest, s) ← tmReleaseTasks indices { s with os := os }
      return (.given index osResult :: rest, s)
    else
      tmReleaseTasks indices s

/-- `tm_scheduler_task`, where the list tells the results of taking the semaphore of
the schedule one after another. After the last one the task waits for the semaphore. -/
def tmSchedulerTask (takes : List OsResult) (s : TmSystem F W) :
    Except TmFault (List (TmEvent F) × TmSystem F W) := do
  if s.tm.continueRunning then
    match takes with
    | [] => return ([], s)
    | osResult :: takes =>
      if osResult = .okay then
        let (events, s) ← tmSchedulerSlot P s
        let (rest, s) ← tmSchedulerTask takes s
        return (events ++ rest, s)
      else
        tmSchedulerTask takes { s with tm.continueRunning := false }
  else
    tmReleaseTasks P (List.range tmMaxTasks) s

end Schedule

end Protoflight
