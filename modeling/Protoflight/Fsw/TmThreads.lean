import Protoflight.Fsw.Definitions
import Protoflight.Fsw.TmCalls
import Protoflight.Fsw.TmSchedule

/-!
# The threads of the started system

The thread of each task loops on `tm_running`, beside the thread of
`tm_scheduler_task`, the timer of the schedule and calls of `tm_stop`. A step of a
thread goes from one access of shared data to the next: a semaphore that is taken, a
read of the flag, the work of the scheduler on one entry of the table.
-/

namespace Protoflight

variable {F V : Type}

/-- `FSW_TASK_ID_TM_SCHEDULER` -/
def fswTaskIdTmScheduler : TmTaskId := 2

/-- The world with semaphores that count correctly. -/
structure SemWorld (V : Type) where
  /-- The units of the semaphore of each task, by its index. -/
  units : ℕ → ℕ
  /-- What else there is in the world. -/
  rest : V

/-- What the task manager uses of the world besides its semaphores. -/
structure TmCallbacks (F V : Type) where
  /-- Call a function, which may call `tm_stop`. -/
  call (function : F) (argument : UInt64) (rest : V) : Bool × V
  /-- The value of `1ULL << count` for a count outside the width of the operand. -/
  overlongShift (count : Int32) : UInt64

/-- The world of the task manager when its semaphores count correctly. -/
def TmCallbacks.platform (C : TmCallbacks F V) : TmPlatform F (SemWorld V) where
  semCreate index os := (.okay, { os with units := Function.update os.units index 0 })
  semGive index os :=
    (.okay, { os with units := Function.update os.units index (os.units index + 1) })
  call function argument os :=
    let (stopped, rest) := C.call function argument os.rest
    (stopped, { os with rest := rest })
  overlongShift := C.overlongShift

/-- Callbacks that do nothing. -/
def noCallbacks {V : Type} : TmCallbacks Unit V where
  call _ _ rest := (false, rest)
  overlongShift _ := 0

/-- `os_sem_take` of the semaphore of a task, without a timeout: nothing while there
is no unit. -/
def SemWorld.take (os : SemWorld V) (index : ℕ) : Option (SemWorld V) :=
  if os.units index = 0 then none
  else some { os with units := Function.update os.units index (os.units index - 1) }

/-- `tm_running` up to the read of the flag. Taking the semaphore may be interrupted,
and its result is not looked at. -/
def tmRunningTake (taskId : TmTaskId) (interrupted : Bool) (s : TmSystem F (SemWorld V)) :
    Option (TmSystem F (SemWorld V)) := do
  let task ← (s.tm.task taskId).toOption
  if task.type = .periodic ∧ interrupted = false then
    (s.os.take taskId.toInt.toNat).map fun os => { s with os := os }
  else some s

/-- Read of the flag included, this is `tm_running` with the semaphore taken so. -/
theorem tmRunning_eq_of_take {taskId : TmTaskId} {interrupted : Bool}
    {s s' : TmSystem F (SemWorld V)}
    (semTake : ℕ → SemWorld V → OsResult × SemWorld V)
    (hinterrupted : interrupted = true → ∀ index, (semTake index s.os).2 = s.os)
    (htaken : interrupted = false → ∀ index os, s.os.take index = some os →
      (semTake index s.os).2 = os)
    (h : tmRunningTake taskId interrupted s = some s') :
    tmRunning semTake taskId s = .ok (s'.tm.continueRunning, s') := by
  by_cases hrange : TmState.InRange taskId
  · rw [tmRunning_of_inRange semTake hrange]
    simp only [tmRunningTake, s.tm.task_of_inRange hrange] at h
    change (if (s.tm.tasks taskId.toInt.toNat).type = .periodic ∧ interrupted = false then _
      else _) = some s' at h
    by_cases htype : (s.tm.tasks taskId.toInt.toNat).type = .periodic
    · rw [if_pos htype]
      cases interrupted with
      | true =>
        simp only [Bool.true_eq_false, and_false, if_false, Option.some.injEq] at h
        rw [hinterrupted rfl, h]
      | false =>
        simp only [htype, and_self, if_true, Option.map_eq_some_iff] at h
        obtain ⟨os, htake, rfl⟩ := h
        rw [htaken rfl _ os htake]
    · rw [if_neg htype]
      simp only [htype, false_and, if_false, Option.some.injEq] at h
      rw [h]
  · simp only [tmRunningTake, TmState.task, if_neg hrange] at h
    cases h

/-- Where the thread of a task is. -/
inductive TmThreadPhase where
  /-- About to call `tm_running`, or waiting there for its semaphore. -/
  | loopHead
  /-- In `tm_running`, about to read the flag. -/
  | reading
  /-- In the body of its loop. -/
  | body
  /-- It has left its loop. -/
  | left
  deriving DecidableEq, Repr

/-- Where the thread of `tm_scheduler_task` is. -/
inductive TmSchedulerPhase where
  /-- About to read the flag. -/
  | loopHead
  /-- Taking the semaphore of the schedule. -/
  | taking
  /-- In a slot, at an entry of the table. -/
  | slot (index : ℕ)
  /-- In the last loop, at an entry of the table. -/
  | release (index : ℕ)
  | finished
  deriving DecidableEq, Repr

/-- The started system. -/
structure TmThreads (F V : Type) where
  system : TmSystem F (SemWorld V)
  /-- The units of the semaphore of the schedule. -/
  scheduleUnits : ℕ
  scheduler : TmSchedulerPhase
  /-- The thread of each task, by its index. -/
  threads : ℕ → TmThreadPhase

/-- Something that happens. -/
inductive TmAction (V : Type) where
  /-- The timer calls `tm_schedule_callback`. -/
  | tick
  /-- A call of `tm_stop`. -/
  | stop
  /-- The thread of a task goes on. A semaphore that it takes may be interrupted. -/
  | thread (index : ℕ) (interrupted : Bool)
  /-- The thread of `tm_scheduler_task` goes on. -/
  | scheduler (interrupted : Bool)
  /-- The world changes beside the task manager. -/
  | world (rest : V)

/-- What is to be seen of a step. -/
inductive TmNote where
  /-- `tm_running` has returned a value to the thread of a task. -/
  | returned (index : ℕ) (value : Bool)
  /-- The scheduler has begun a slot. -/
  | slotBegun
  deriving DecidableEq, Repr

namespace TmThreads

/-- The flag `continue_running`. -/
def running (s : TmThreads F V) : Bool := s.system.tm.continueRunning

/-- The units of the semaphore of a task. -/
def units (s : TmThreads F V) (index : ℕ) : ℕ := s.system.os.units index

/-- The thread of a task comes to a phase. -/
def setThread (s : TmThreads F V) (index : ℕ) (phase : TmThreadPhase) : TmThreads F V :=
  { s with threads := Function.update s.threads index phase }

/-- The thread of a task goes on. It calls `tm_running` with its own id, and leaves
its loop when that returns false. -/
def threadStep (index : ℕ) (interrupted : Bool) (s : TmThreads F V) :
    Option (List TmNote × TmThreads F V) :=
  match s.threads index with
  | .loopHead => do
    let system ← tmRunningTake (Int32.ofNat index) interrupted s.system
    return ([], { s.setThread index .reading with system := system })
  | .reading =>
    some ([.returned index s.running], s.setThread index (if s.running then .body else .left))
  | .body => some ([], s.setThread index .loopHead)
  | .left => none

variable (C : TmCallbacks F V)

/-- The thread of `tm_scheduler_task` goes on. -/
def schedulerStep (interrupted : Bool) (s : TmThreads F V) :
    Option (List TmNote × TmThreads F V) :=
  match s.scheduler with
  | .loopHead => some ([], { s with scheduler := if s.running then .taking else .release 0 })
  | .taking =>
    if interrupted then
      -- the schedule cannot be run, so the system is shut down
      some ([], { s with system.tm.continueRunning := false, scheduler := .loopHead })
    else if s.scheduleUnits = 0 then none
    else some ([.slotBegun], { s with scheduleUnits := s.scheduleUnits - 1, scheduler := .slot 0 })
  | .slot index =>
    if index < tmMaxTasks then do
      let (_, system) ← (tmSchedulerEntry C.platform (Int32.ofNat index) s.system).toOption
      return ([], { s with system := system, scheduler := .slot (index + 1) })
    else some ([], { s with scheduler := .loopHead })
  | .release index =>
    if index < tmMaxTasks then do
      let (_, system) ← (tmReleaseTasks C.platform [index] s.system).toOption
      return ([], { s with system := system, scheduler := .release (index + 1) })
    else some ([], { s with scheduler := .finished })
  | .finished => none

/-- What happens at a step, unless the thread waits or has ended. The tasks that loop on
`tm_running` are those of the table but the scheduler. -/
def step (s : TmThreads F V) : TmAction V → Option (List TmNote × TmThreads F V)
  | .tick => some ([], { s with scheduleUnits := s.scheduleUnits + 1 })
  | .stop => some ([], { s with system.tm.continueRunning := false })
  | .thread index interrupted =>
    if index < tmMaxTasks ∧ Int32.ofNat index ≠ fswTaskIdTmScheduler then
      threadStep index interrupted s
    else none
  | .scheduler interrupted => schedulerStep C interrupted s
  | .world rest => some ([], { s with system.os.rest := rest })

/-- Steps one after another. -/
def run : List (TmAction V) → TmThreads F V → Option (List TmNote × TmThreads F V)
  | [], s => some ([], s)
  | action :: actions, s => do
    let (notes, s) ← s.step C action
    let (rest, s) ← run actions s
    return (notes ++ rest, s)

/-- All threads are at the heads of their loops. -/
def Started (s : TmThreads F V) : Prop :=
  s.scheduler = .loopHead ∧ ∀ index, s.threads index = .loopHead

section Alone

variable {C}

/-- The last loop of the scheduler goes on after its first entry. -/
theorem tmReleaseTasks_cons {W : Type} (P : TmPlatform F W) (index : ℕ) (indices : List ℕ)
    (s : TmSystem F W) :
    tmReleaseTasks P (index :: indices) s = do
      let (events, s) ← tmReleaseTasks P [index] s
      let (rest, s) ← tmReleaseTasks P indices s
      return (events ++ rest, s) := by
  simp only [tmReleaseTasks]
  cases s.tm.task (Int32.ofNat index) with
  | error fault => rfl
  | ok task =>
    change (if task.type = .periodic then _ else _) = _
    by_cases htype : task.type = .periodic
    · rw [if_pos htype]
      change _ = ((if task.type = .periodic then _ else _ : Except TmFault _) >>= _)
      rw [if_pos htype]
      rfl
    · rw [if_neg htype]
      change _ = ((if task.type = .periodic then _ else _ : Except TmFault _) >>= _)
      rw [if_neg htype]
      change tmReleaseTasks P indices s = tmReleaseTasks P indices s >>= pure
      rw [bind_pure]

/-- The scheduler goes on with an entry of a slot. -/
theorem schedulerStep_slot {s : TmThreads F V} {index : ℕ} (hindex : index < tmMaxTasks)
    (hphase : s.scheduler = .slot index) {events : List (TmEvent F)}
    {system : TmSystem F (SemWorld V)}
    (hentry : tmSchedulerEntry C.platform (Int32.ofNat index) s.system = .ok (events, system)) :
    s.step C (.scheduler false) =
      some ([], { s with system := system, scheduler := .slot (index + 1) }) := by
  change schedulerStep C false s = _
  simp only [schedulerStep, hphase, if_pos hindex, hentry]
  rfl

/-- The scheduler goes on with an entry of its last loop. -/
theorem schedulerStep_release {s : TmThreads F V} {index : ℕ} (hindex : index < tmMaxTasks)
    (hphase : s.scheduler = .release index) {events : List (TmEvent F)}
    {system : TmSystem F (SemWorld V)}
    (hrelease : tmReleaseTasks C.platform [index] s.system = .ok (events, system)) :
    s.step C (.scheduler false) =
      some ([], { s with system := system, scheduler := .release (index + 1) }) := by
  change schedulerStep C false s = _
  simp only [schedulerStep, hphase, if_pos hindex, hrelease]
  rfl

theorem run_cons_of_step {s t : TmThreads F V} {action : TmAction V} {actions : List (TmAction V)}
    (hstep : s.step C action = some ([], t)) : s.run C (action :: actions) = t.run C actions := by
  rw [run, hstep]
  change (t.run C actions).bind _ = _
  cases t.run C actions <;> rfl

/-- Without other steps in between, the scheduler does to the tasks from an entry on what
the loop of a slot does. -/
theorem run_slot (count : ℕ) {s : TmThreads F V} {index : ℕ} (hcount : index + count = tmMaxTasks)
    (hphase : s.scheduler = .slot index) {events : List (TmEvent F)}
    {system : TmSystem F (SemWorld V)}
    (hentries : tmSchedulerEntries C.platform (List.range' index count) s.system =
      .ok (events, system)) :
    s.run C (List.replicate (count + 1) (.scheduler false)) =
      some ([], { s with system := system, scheduler := .loopHead }) := by
  induction count generalizing s index events with
  | zero =>
    have hend : ¬ index < tmMaxTasks := by omega
    cases hentries
    apply run_cons_of_step
    change schedulerStep C false s = _
    simp only [schedulerStep, hphase, if_neg hend]
  | succ count ih =>
    rw [List.range'_succ, tmSchedulerEntries] at hentries
    obtain ⟨⟨first, t⟩, hentry, hentries⟩ := exists_ok_of_bind hentries
    obtain ⟨⟨rest, u⟩, hrest, hentries⟩ := exists_ok_of_bind hentries
    cases hentries
    rw [List.replicate_succ, run_cons_of_step (schedulerStep_slot (by omega) hphase hentry)]
    exact ih (s := { s with system := t, scheduler := .slot (index + 1) }) (by omega) rfl hrest

/-- Without other steps in between, the scheduler releases the tasks from an entry on as
its last loop does. -/
theorem run_release (count : ℕ) {s : TmThreads F V} {index : ℕ}
    (hcount : index + count = tmMaxTasks) (hphase : s.scheduler = .release index)
    {events : List (TmEvent F)} {system : TmSystem F (SemWorld V)}
    (hrelease : tmReleaseTasks C.platform (List.range' index count) s.system =
      .ok (events, system)) :
    s.run C (List.replicate (count + 1) (.scheduler false)) =
      some ([], { s with system := system, scheduler := .finished }) := by
  induction count generalizing s index events with
  | zero =>
    have hend : ¬ index < tmMaxTasks := by omega
    cases hrelease
    apply run_cons_of_step
    change schedulerStep C false s = _
    simp only [schedulerStep, hphase, if_neg hend]
  | succ count ih =>
    rw [List.range'_succ, tmReleaseTasks_cons] at hrelease
    obtain ⟨⟨first, t⟩, hfirst, hrelease⟩ := exists_ok_of_bind hrelease
    obtain ⟨⟨rest, u⟩, hrest, hrelease⟩ := exists_ok_of_bind hrelease
    cases hrelease
    rw [List.replicate_succ, run_cons_of_step (schedulerStep_release (by omega) hphase hfirst)]
    exact ih (s := { s with system := t, scheduler := .release (index + 1) }) (by omega) rfl hrest

/-- A slot that the scheduler takes step by step, without other steps in between, is a
slot of the schedule. -/
theorem run_slot_alone {s : TmThreads F V} (hphase : s.scheduler = .slot 0)
    {events : List (TmEvent F)} {system : TmSystem F (SemWorld V)}
    (hslot : tmSchedulerSlot C.platform s.system = .ok (events, system)) :
    s.run C (List.replicate (tmMaxTasks + 1) (.scheduler false)) =
      some ([], { s with system := system, scheduler := .loopHead }) := by
  rw [tmSchedulerSlot, List.range_eq_range'] at hslot
  exact run_slot tmMaxTasks (Nat.zero_add _) hphase hslot

/-- The last loop of the scheduler, without other steps in between, is that of
`tm_scheduler_task`. -/
theorem run_release_alone {s : TmThreads F V} (hphase : s.scheduler = .release 0)
    {events : List (TmEvent F)} {system : TmSystem F (SemWorld V)}
    (hrelease : tmReleaseTasks C.platform (List.range tmMaxTasks) s.system =
      .ok (events, system)) :
    s.run C (List.replicate (tmMaxTasks + 1) (.scheduler false)) =
      some ([], { s with system := system, scheduler := .finished }) := by
  rw [List.range_eq_range'] at hrelease
  exact run_release tmMaxTasks (Nat.zero_add _) hphase hrelease

end Alone

end TmThreads

end Protoflight
