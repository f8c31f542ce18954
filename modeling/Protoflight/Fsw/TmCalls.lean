import Mathlib.Tactic.Common
import Protoflight.Fsw.Tm

/-!
# Calls with a task id

What one registration does: it is refused with nothing changed, it writes its entry
and creates a semaphore if its task needs one, or it faults. No function of `tm.c`
compares a task id with the bounds of the table, and `tm_periodic_task` fills in the
entry before it creates the semaphore.
-/

namespace Protoflight

variable {F W : Type}

/-- A call of a registration function, with its arguments. -/
inductive TmCall (F : Type) where
  /-- `tm_periodic_task` -/
  | periodicTask (taskName : Option (List UInt8)) (taskId : TmTaskId) (taskFunction : Option F)
    (taskArgument : UInt64) (period heartbeatPeriod stackSize priority : Int32)
  /-- `tm_event_task` -/
  | eventTask (taskName : Option (List UInt8)) (taskId : TmTaskId) (taskFunction : Option F)
    (taskArgument : UInt64) (heartbeatPeriod stackSize priority : Int32)
  /-- `tm_callback_task` -/
  | callbackTask (taskName : Option (List UInt8)) (taskId : TmTaskId) (taskFunction : Option F)
    (taskArgument : UInt64) (period : Int32)
  /-- `tm_monitor_task` -/
  | monitorTask (taskName : Option (List UInt8)) (taskId : TmTaskId)

namespace TmCall

/-- The task id that is passed. -/
def taskId : TmCall F → TmTaskId
  | .periodicTask _ taskId _ _ _ _ _ _ | .eventTask _ taskId _ _ _ _ _
  | .callbackTask _ taskId _ _ _ | .monitorTask _ taskId => taskId

/-- The index of the entry that is registered. -/
def index (call : TmCall F) : ℕ := call.taskId.toInt.toNat

/-- The entry that a call writes, if its arguments pass the checks. -/
def entry : TmCall F → Option (TmTask F)
  | .periodicTask (some name) _ (some function) argument period heartbeatPeriod stackSize
      priority =>
    if period = 0 then none
    else some (tmNewTask name .periodic (some function) argument period.toUInt32
      heartbeatPeriod.toUInt32 stackSize priority)
  | .eventTask (some name) _ (some function) argument heartbeatPeriod stackSize priority =>
    some (tmNewTask name .event (some function) argument 0 heartbeatPeriod.toUInt32 stackSize
      priority)
  | .callbackTask (some name) _ (some function) argument period =>
    some (tmNewTask name .callback (some function) argument period.toUInt32 0 0 0)
  | .monitorTask (some name) _ => some (tmNewTask name .monitor none 0 0 0 0 0)
  | _ => none

/-- The type of task that is registered. -/
def type : TmCall F → TmTasktype
  | .periodicTask .. => .periodic
  | .eventTask .. => .event
  | .callbackTask .. => .callback
  | .monitorTask .. => .monitor

/-- What comes of `os_sem_create`, for the one type of task that has a semaphore. -/
def created (P : TmPlatform F W) (os : W) (call : TmCall F) : OsResult × W :=
  if call.type = .periodic then P.semCreate call.index os else (.okay, os)

/-- The table after a call has written an entry, and counted it if that is due. -/
def written (call : TmCall F) (task : TmTask F) (counted : Prop) [Decidable counted]
    (s : TmState F) : TmState F :=
  { s with
    tasks := Function.update s.tasks call.index task
    numTasks := if counted then s.numTasks + 1 else s.numTasks }

@[simp] theorem written_tasks_self (call : TmCall F) (task : TmTask F) (counted : Prop)
    [Decidable counted] (s : TmState F) : (call.written task counted s).tasks call.index = task :=
  Function.update_self _ _ _

theorem written_tasks_of_ne {call : TmCall F} {index : ℕ} (hne : call.index ≠ index)
    (task : TmTask F) (counted : Prop) [Decidable counted] (s : TmState F) :
    (call.written task counted s).tasks index = s.tasks index :=
  Function.update_of_ne hne.symm _ _

/-- An entry that a call writes is a new task of its type. -/
theorem entry_eq_tmNewTask {call : TmCall F} {task : TmTask F} (hentry : call.entry = some task) :
    ∃ name function argument period heartbeatPeriod stackSize priority,
      task = tmNewTask name call.type function argument period heartbeatPeriod stackSize
        priority := by
  unfold entry at hentry
  split at hentry
  · split at hentry
    · cases hentry
    · cases hentry
      exact ⟨_, _, _, _, _, _, _, rfl⟩
  · cases hentry
    exact ⟨_, _, _, _, _, _, _, rfl⟩
  · cases hentry
    exact ⟨_, _, _, _, _, _, _, rfl⟩
  · cases hentry
    exact ⟨_, _, _, _, _, _, _, rfl⟩
  · cases hentry

theorem type_entry {call : TmCall F} {task : TmTask F} (hentry : call.entry = some task) :
    task.type = call.type := by
  obtain ⟨_, _, _, _, _, _, _, rfl⟩ := entry_eq_tmNewTask hentry
  rfl

theorem index_lt {call : TmCall F} (hrange : TmState.InRange call.taskId) :
    call.index < tmMaxTasks := by
  have hlt := hrange.2
  have hle := hrange.1
  unfold index
  omega

variable (P : TmPlatform F W)

/-- Make a call. -/
def run (s : TmSystem F W) : TmCall F → Except TmFault (TmResult × TmSystem F W)
  | .periodicTask taskName taskId taskFunction taskArgument period heartbeatPeriod stackSize
      priority =>
    tmPeriodicTask P taskName taskId taskFunction taskArgument period heartbeatPeriod stackSize
      priority s
  | .eventTask taskName taskId taskFunction taskArgument heartbeatPeriod stackSize priority => do
    let (result, tm) ← tmEventTask taskName taskId taskFunction taskArgument heartbeatPeriod
      stackSize priority s.tm
    return (result, { s with tm := tm })
  | .callbackTask taskName taskId taskFunction taskArgument period => do
    let (result, tm) ← tmCallbackTask taskName taskId taskFunction taskArgument period s.tm
    return (result, { s with tm := tm })
  | .monitorTask taskName taskId => do
    let (result, tm) ← tmMonitorTask taskName taskId s.tm
    return (result, { s with tm := tm })

/-- A call whose arguments do not pass the checks is refused, whatever its task id. -/
theorem run_refused {call : TmCall F} (hentry : call.entry = none) :
    ∃ result, result ≠ .okay ∧ ∀ s : TmSystem F W, call.run P s = .ok (result, s) := by
  cases call with
  | periodicTask taskName taskId taskFunction taskArgument period heartbeatPeriod stackSize
      priority =>
    cases taskName with
    | none => exact ⟨.nullPointer, by decide, fun s => rfl⟩
    | some name =>
      cases taskFunction with
      | none => exact ⟨.nullPointer, by decide, fun s => rfl⟩
      | some function =>
        have hperiod : period = 0 := by
          by_contra hne
          simp only [entry, if_neg hne] at hentry
          cases hentry
        refine ⟨.invalidArgument, by decide, fun s => ?_⟩
        simp only [run, tmPeriodicTask, if_pos hperiod]
        rfl
  | eventTask taskName taskId taskFunction taskArgument heartbeatPeriod stackSize priority =>
    refine ⟨.nullPointer, by decide, fun s => ?_⟩
    cases taskName with
    | none => rfl
    | some name =>
      cases taskFunction with
      | none => rfl
      | some function => cases hentry
  | callbackTask taskName taskId taskFunction taskArgument period =>
    refine ⟨.nullPointer, by decide, fun s => ?_⟩
    cases taskName with
    | none => rfl
    | some name =>
      cases taskFunction with
      | none => rfl
      | some function => cases hentry
  | monitorTask taskName taskId =>
    refine ⟨.nullPointer, by decide, fun s => ?_⟩
    cases taskName with
    | none => rfl
    | some name => cases hentry

/-- Every other call assigns its entry first of all. -/
theorem run_assigns {call : TmCall F} {task : TmTask F} (hentry : call.entry = some task)
    (s : TmSystem F W) :
    call.run P s = do
      let tm ← s.tm.setTask call.taskId task
      let result := if (call.created P s.os).1 = .okay then .okay else .semCreateError
      let numTasks := if (call.created P s.os).1 = .okay then tm.numTasks + 1 else tm.numTasks
      return (result,
        { tm := { tm with numTasks := numTasks }, os := (call.created P s.os).2 }) := by
  cases call with
  | periodicTask taskName taskId taskFunction taskArgument period heartbeatPeriod stackSize
      priority =>
    cases taskName with
    | none => cases hentry
    | some name =>
      cases taskFunction with
      | none => cases hentry
      | some function =>
        by_cases hperiod : period = 0
        · simp only [entry, if_pos hperiod] at hentry
          cases hentry
        simp only [entry, if_neg hperiod, Option.some.injEq] at hentry
        subst hentry
        simp only [run, tmPeriodicTask, if_neg hperiod, created, type, if_true, index,
          TmCall.taskId]
        by_cases hokay : (P.semCreate taskId.toInt.toNat s.os).1 = .okay
        · simp only [if_pos hokay]
        · simp only [if_neg hokay]
  | eventTask taskName taskId taskFunction taskArgument heartbeatPeriod stackSize priority =>
    cases taskName with
    | none => cases hentry
    | some name =>
      cases taskFunction with
      | none => cases hentry
      | some function =>
        cases hentry
        simp only [run, tmEventTask, bind_assoc, pure_bind]
        rfl
  | callbackTask taskName taskId taskFunction taskArgument period =>
    cases taskName with
    | none => cases hentry
    | some name =>
      cases taskFunction with
      | none => cases hentry
      | some function =>
        cases hentry
        simp only [run, tmCallbackTask, bind_assoc, pure_bind]
        rfl
  | monitorTask taskName taskId =>
    cases taskName with
    | none => cases hentry
    | some name =>
      cases hentry
      simp only [run, tmMonitorTask, bind_assoc, pure_bind]
      rfl

/-- Inside the table the entry is written whether or not the semaphore can be created;
only the count and the result tell. -/
theorem run_written {call : TmCall F} {task : TmTask F} (hentry : call.entry = some task)
    (hrange : TmState.InRange call.taskId) (s : TmSystem F W) :
    call.run P s = .ok (if (call.created P s.os).1 = .okay then .okay else .semCreateError,
      { tm := call.written task ((call.created P s.os).1 = .okay) s.tm
        os := (call.created P s.os).2 }) := by
  rw [run_assigns P hentry, s.tm.setTask_of_inRange hrange]
  rfl

/-- Outside the table a call faults that is not refused. -/
theorem run_fault {call : TmCall F} {task : TmTask F} (hentry : call.entry = some task)
    (hrange : ¬TmState.InRange call.taskId) (s : TmSystem F W) :
    call.run P s = .error (.tasks call.taskId.toInt) := by
  rw [run_assigns P hentry, TmState.setTask, if_neg hrange]
  rfl

/-- A call writes its entry whether or not the semaphore can be created, and leaves
the other entries alone. -/
theorem run_eq (call : TmCall F) (hrange : TmState.InRange call.taskId) (s : TmSystem F W) :
    ∃ result s', call.run P s = .ok (result, s') ∧
      ∀ index, s'.tm.tasks index =
        if call.index = index then call.entry.getD (s.tm.tasks index) else s.tm.tasks index := by
  cases hentry : call.entry with
  | none =>
    obtain ⟨result, -, hrun⟩ := run_refused P hentry
    exact ⟨result, s, hrun s, fun index => by simp⟩
  | some task =>
    refine ⟨_, _, run_written P hentry hrange s, fun index => ?_⟩
    by_cases heq : call.index = index
    · rw [if_pos heq, ← heq]
      exact call.written_tasks_self _ _ _
    · rw [if_neg heq]
      exact written_tasks_of_ne heq _ _ _

end TmCall

section Failed

/-- A call with an id inside the table that does not return `TM_RESULT_OKAY` leaves the
table and the count as they were. -/
def TmCall.FailsCleanly (P : TmPlatform F W) (call : TmCall F) (s : TmSystem F W) : Prop :=
  ∃ result s', call.run P s = .ok (result, s') ∧
    (result ≠ .okay → s'.tm.tasks = s.tm.tasks ∧ s'.tm.numTasks = s.tm.numTasks)

/-- A failed registration leaves no trace exactly when its arguments are refused, its
semaphore is created if it needs one, or the entry is the one it writes already. -/
theorem tm_registration_fails_cleanly_iff (P : TmPlatform F W) (call : TmCall F)
    (hrange : TmState.InRange call.taskId) (s : TmSystem F W) :
    call.FailsCleanly P s ↔ ∀ task, call.entry = some task →
      (call.created P s.os).1 = .okay ∨ s.tm.tasks call.index = task := by
  cases hentry : call.entry with
  | none =>
    obtain ⟨result, -, hrun⟩ := TmCall.run_refused P hentry
    exact iff_of_true ⟨result, s, hrun s, fun _ => ⟨rfl, rfl⟩⟩ fun task h => by cases h
  | some task =>
    have hrun := TmCall.run_written P hentry hrange s
    by_cases hokay : (call.created P s.os).1 = .okay
    · rw [if_pos hokay] at hrun
      refine iff_of_true ⟨_, _, hrun, fun hne => absurd rfl hne⟩ fun task h => .inl hokay
    · rw [if_neg hokay] at hrun
      constructor
      · rintro ⟨result, s', hrun', hkept⟩ task' ⟨⟩
        rw [hrun] at hrun'
        cases hrun'
        -- the entry that is there afterwards is the one written
        have htasks := (hkept (by decide)).1
        right
        rw [← htasks]
        exact call.written_tasks_self _ _ _
      · intro hsame
        refine ⟨_, _, hrun, fun _ => ⟨?_, if_neg hokay⟩⟩
        have htask := (hsame task rfl).resolve_left hokay
        change Function.update s.tm.tasks call.index task = s.tm.tasks
        rw [← htask, Function.update_eq_self]

/-- A world in which no semaphore can be created. -/
def noSemaphores : TmPlatform Unit Unit where
  semCreate _ _ := (.error, ())
  semGive _ _ := (.error, ())
  call _ _ _ := (false, ())
  overlongShift _ := 0

/-- A table without tasks. -/
def emptyTable : TmSystem Unit Unit where
  tm :=
    { status := ⟨0, 0, 0⟩
      continueRunning := true
      numTasks := 0
      tasks := fun _ => ⟨.invalid, 0, 0, 0, none, 0, 0, 0, []⟩ }
  os := ()

/-- A table with an event task. -/
def eventTaskTable : TmSystem Unit Unit where
  tm :=
    { emptyTable.tm with
      numTasks := 1
      tasks := Function.update emptyTable.tm.tasks 5 (tmNewTask [] .event (some ()) 0 0 1 1 1) }
  os := ()

/-- A periodic task with the id of the event task and a period of zero is refused. -/
theorem tm_registration_fails_cleanly_iff_refused :
    TmCall.FailsCleanly noSemaphores (.periodicTask (some []) 5 (some ()) 0 0 1 1 1)
      eventTaskTable :=
  (tm_registration_fails_cleanly_iff noSemaphores _ (by decide) eventTaskTable).mpr
    fun task hentry => by cases hentry

/-- A periodic task whose semaphore cannot be created stays in the table. -/
theorem tm_registration_fails_cleanly_not :
    ¬∀ (call : TmCall Unit) (s : TmSystem Unit Unit), TmState.InRange call.taskId →
      call.FailsCleanly noSemaphores s := by
  intro h
  obtain ⟨result, s', hrun, hkept⟩ :=
    h (.periodicTask (some []) 5 (some ()) 0 1 1 1 1) emptyTable (by decide)
  cases hrun
  have htype := congrArg (fun tasks => (tasks 5).type) (hkept (by decide)).1
  exact absurd htype (by decide)

end Failed

section Ids

/-- `tm_running`, where `semTake` tells how `os_sem_take` returns. -/
def tmRunning (semTake : ℕ → W → OsResult × W) (taskId : TmTaskId) (s : TmSystem F W) :
    Except TmFault (Bool × TmSystem F W) := do
  let mut s := s
  let task ← s.tm.task taskId
  if task.type = .periodic then
    let (_, os) := semTake taskId.toInt.toNat s.os
    s := { s with os := os }
  return (s.tm.continueRunning, s)

theorem tmRunning_of_inRange (semTake : ℕ → W → OsResult × W) {taskId : TmTaskId}
    (hrange : TmState.InRange taskId) (s : TmSystem F W) :
    tmRunning semTake taskId s = .ok (s.tm.continueRunning,
      { s with
        os := if (s.tm.tasks taskId.toInt.toNat).type = .periodic then
          (semTake taskId.toInt.toNat s.os).2 else s.os }) := by
  simp only [tmRunning, s.tm.task_of_inRange hrange, pure_bind]
  split <;> rfl

theorem tmRunning_of_not_inRange (semTake : ℕ → W → OsResult × W) {taskId : TmTaskId}
    (hrange : ¬TmState.InRange taskId) (s : TmSystem F W) :
    tmRunning semTake taskId s = .error (.tasks taskId.toInt) := by
  simp only [tmRunning, TmState.task, if_neg hrange]
  rfl

/-- A call of a function that is passed a task id. -/
inductive TmIdCall (F : Type) where
  /-- A registration. -/
  | register (call : TmCall F)
  /-- `tm_running` -/
  | running (taskId : TmTaskId)

namespace TmIdCall

/-- The task id that is passed. -/
def taskId : TmIdCall F → TmTaskId
  | .register call => call.taskId
  | .running taskId => taskId

variable (P : TmPlatform F W) (semTake : ℕ → W → OsResult × W)

/-- Make a call. The first component is the result of a registration. -/
def run (s : TmSystem F W) : TmIdCall F → Except TmFault (Option TmResult × TmSystem F W)
  | .register call => do
    let (result, s) ← call.run P s
    return (some result, s)
  | .running taskId => do
    let (_, s) ← tmRunning semTake taskId s
    return (none, s)

/-- A call accesses the table inside its bounds only, and a registration with an id
outside them is refused and leaves the state as it is. -/
structure Safe (call : TmIdCall F) (s : TmSystem F W) : Prop where
  inside : ∀ fault, call.run P semTake s ≠ .error fault
  refused : ∀ registration, call = .register registration → ¬TmState.InRange registration.taskId →
    ∃ result, result ≠ .okay ∧ call.run P semTake s = .ok (some result, s)

/-- Every call of a run is safe in the state in which it is made. -/
def AllSafe : List (TmIdCall F) → TmSystem F W → Prop
  | [], _ => True
  | call :: calls, s =>
    call.Safe P semTake s ∧
      ∀ result s', call.run P semTake s = .ok (result, s') → AllSafe calls s'

/-- The id is inside the table, or the call is a registration that is refused for another
of its arguments. -/
def Checked : TmIdCall F → Prop
  | .register call => TmState.InRange call.taskId ∨ call.entry = none
  | .running taskId => TmState.InRange taskId

/-- A call is safe in any state exactly when its id is inside the table or something
else is wrong with it. -/
theorem safe_iff (call : TmIdCall F) (s : TmSystem F W) :
    call.Safe P semTake s ↔ call.Checked := by
  cases call with
  | register call =>
    cases hentry : call.entry with
    | none =>
      obtain ⟨result, hresult, hrun⟩ := TmCall.run_refused P hentry
      have hregister : (TmIdCall.register call).run P semTake s = .ok (some result, s) := by
        simp only [run, hrun s]
        rfl
      refine iff_of_true ⟨fun fault => ?_, ?_⟩ (.inr hentry)
      · rw [hregister]
        rintro ⟨⟩
      · rintro _ ⟨⟩ -
        exact ⟨result, hresult, hregister⟩
    | some task =>
      by_cases hrange : TmState.InRange call.taskId
      · refine iff_of_true ⟨fun fault => ?_, ?_⟩ (.inl hrange)
        · simp only [run, TmCall.run_written P hentry hrange s]
          rintro ⟨⟩
        · rintro _ ⟨⟩ hout
          exact absurd hrange hout
      · refine iff_of_false (fun hsafe => ?_) ?_
        · refine hsafe.inside (.tasks call.taskId.toInt) ?_
          simp only [run, TmCall.run_fault P hentry hrange s]
          rfl
        · rintro (h | h)
          · exact hrange h
          · rw [hentry] at h
            cases h
  | running taskId =>
    by_cases hrange : TmState.InRange taskId
    · refine iff_of_true ⟨fun fault => ?_, by rintro _ ⟨⟩⟩ hrange
      simp only [run, tmRunning_of_inRange semTake hrange]
      rintro ⟨⟩
    · refine iff_of_false (fun hsafe => ?_) hrange
      refine hsafe.inside (.tasks taskId.toInt) ?_
      simp only [run, tmRunning_of_not_inRange semTake hrange]
      rfl

/-- Such a call returns. -/
theorem exists_run_of_checked {call : TmIdCall F} (h : call.Checked) (s : TmSystem F W) :
    ∃ result s', call.run P semTake s = .ok (result, s') := by
  cases hrun : call.run P semTake s with
  | ok reply => exact ⟨reply.1, reply.2, rfl⟩
  | error fault => exact absurd hrun (((safe_iff P semTake call s).mpr h).inside fault)

/-- All calls of a run from any state are safe exactly when each id is inside the table,
or the call is a registration that is refused for another of its arguments. -/
theorem tm_ids_safe_iff (calls : List (TmIdCall F)) (s : TmSystem F W) :
    AllSafe P semTake calls s ↔ ∀ call ∈ calls, call.Checked := by
  induction calls generalizing s with
  | nil => exact iff_of_true trivial (by simp)
  | cons call calls ih =>
    rw [List.forall_mem_cons]
    constructor
    · rintro ⟨hsafe, hnext⟩
      have hchecked := (safe_iff P semTake call s).mp hsafe
      obtain ⟨result, s', hrun⟩ := exists_run_of_checked P semTake hchecked s
      exact ⟨hchecked, (ih s').mp (hnext result s' hrun)⟩
    · rintro ⟨hchecked, hrest⟩
      exact ⟨(safe_iff P semTake call s).mpr hchecked, fun result s' _ => (ih s').mpr hrest⟩

/-- An event task with the id -1 is registered before the table. -/
theorem tm_ids_safe_not :
    ¬∀ (calls : List (TmIdCall Unit)) (s : TmSystem Unit Unit),
      AllSafe noSemaphores (fun _ os => (.okay, os)) calls s := by
  intro h
  obtain ⟨hsafe, -⟩ := h [.register (.eventTask (some []) (-1) (some ()) 0 1 1 1)] emptyTable
  exact hsafe.inside (.tasks (-1)) rfl

end TmIdCall

end Ids

end Protoflight
