import Protoflight.Fsw.Tlm
import Protoflight.Fsw.TmCalls
import Protoflight.Fsw.TmThreads

/-!
# The initialization of the modules

`tm_initialize`, and the calls by which `main` initializes the modules.
-/

namespace Protoflight

variable {F G Q V W : Type}

/-- `FSW_TASK_ID_MAIN` -/
def fswTaskIdMain : TmTaskId := 1

/-- `FSW_TASK_NAME_MAIN` -/
def fswTaskNameMain : List UInt8 := "Main".toUTF8.toList

/-- `FSW_TASK_NAME_TM_SCHEDULER` -/
def fswTaskNameTmScheduler : List UInt8 := "TmScheduler".toUTF8.toList

/-- `TM_SCHEDULER_PERIOD` -/
def tmSchedulerPeriod : Int32 := 1

/-- `FSW_DEFAULT_STACKS_SIZE` -/
def fswDefaultStacksSize : Int32 := 1024 * 20

/-- `TM_SCHEDULER_PRIORITY` -/
def tmSchedulerPriority : Int32 := 1

section Initialize

/-- `gvTM_state` filled with zeroes. -/
def TmState.zero : TmState F where
  status := ⟨0, 0, 0⟩
  continueRunning := false
  numTasks := 0
  tasks := fun _ => ⟨.invalid, 0, 0, 0, none, 0, 0, 0, List.replicate tmMaxTaskNameLength 0⟩

/-- What `tm_initialize` uses of the world besides the semaphores of the tasks. -/
structure TmBootPlatform (F W : Type) extends TmPlatform F W where
  /-- `os_sem_create` of the semaphore of the schedule. -/
  scheduleSemCreate (os : W) : OsResult × W
  /-- `os_timer_create` of the timer of the schedule. -/
  timerCreate (os : W) : OsResult × W

/-- `tm_initialize`, where `tmSchedulerTask` is the pointer to that function. -/
def tmInitialize (P : TmBootPlatform F W) (tmSchedulerTask : F) (s : TmSystem F W) :
    Except TmFault (FswResult × TmSystem F W) := do
  let mut fswResult := FswResult.okay
  let zeroed := { s with tm := { TmState.zero with continueRunning := true } }
  let (tmResult, s) ← tmPeriodicTask P.toTmPlatform (some fswTaskNameTmScheduler)
    fswTaskIdTmScheduler (some tmSchedulerTask) 0 tmSchedulerPeriod tmSchedulerPeriod
    fswDefaultStacksSize tmSchedulerPriority zeroed
  let mut os := s.os
  if tmResult ≠ .okay then
    fswResult := .taskRegistrationError
  if fswResult = .okay then
    let (osResult, os') := P.scheduleSemCreate os
    os := os'
    if osResult ≠ .okay then
      fswResult := .osSemCreateError
  if fswResult = .okay then
    let (osResult, os') := P.timerCreate os
    os := os'
    if osResult ≠ .okay then
      fswResult := .osTimerCreateError
  return (fswResult, { s with os := os })

/-- The state of all modules. -/
structure MainState (F Q V W : Type) where
  tm : TmSystem F V
  flight : FlightState Q W

/-- What the calls of `main` that initialize the modules return. `em_initialize` and
`mb_initialize` cannot fail. -/
structure MainResults where
  main : TmResult
  tm : FswResult
  tlm : FswResult

/-- The calls of `main` that initialize the modules, in their order. -/
def mainInitialize (P : TmBootPlatform F V) (B : Platform Q W)
    (tmSchedulerTask tlmTelemetryTask : F) (s : MainState F Q V W) :
    Except TmFault (MainResults × MainState F Q V W) := do
  let (mainResult, tm) ← tmMonitorTask (some fswTaskNameMain) fswTaskIdMain s.tm.tm
  let (tmResult, tm) ← tmInitialize P tmSchedulerTask { s.tm with tm := tm }
  let fsw := emInitialize s.flight.toFswState
  let (tlmResult, tlm, tm) ← tlmInitialize P.toTmPlatform tlmTelemetryTask tm
  let fsw := mbInitialize B fsw
  return (⟨mainResult, tmResult, tlmResult⟩,
    { tm := tm, flight := { s.flight with toFswState := fsw, tlm := tlm } })

/-- The registration by `tm_initialize`. -/
def schedulerCall (tmSchedulerTask : F) : TmCall F :=
  .periodicTask (some fswTaskNameTmScheduler) fswTaskIdTmScheduler (some tmSchedulerTask) 0
    tmSchedulerPeriod tmSchedulerPeriod fswDefaultStacksSize tmSchedulerPriority

/-- The registration by `tlm_initialize`. -/
def tlmCall (tlmTelemetryTask : F) : TmCall F :=
  .periodicTask (some fswTaskNameTlm) fswTaskIdTlm (some tlmTelemetryTask) fswTaskNoArgument
    fswTaskRate1Hz fswHearbeatRate1Hz fswDefaultStackSize fswPriorityTlmTask

/-- The entry that `tm_initialize` writes. -/
def schedulerTask (tmSchedulerTask : F) : TmTask F :=
  tmNewTask fswTaskNameTmScheduler .periodic (some tmSchedulerTask) 0 tmSchedulerPeriod.toUInt32
    tmSchedulerPeriod.toUInt32 fswDefaultStacksSize tmSchedulerPriority

/-- The entry that `tlm_initialize` writes. -/
def tlmTask (tlmTelemetryTask : F) : TmTask F :=
  tmNewTask fswTaskNameTlm .periodic (some tlmTelemetryTask) fswTaskNoArgument
    fswTaskRate1Hz.toUInt32 fswHearbeatRate1Hz.toUInt32 fswDefaultStackSize fswPriorityTlmTask

theorem entry_schedulerCall (tmSchedulerTask : F) :
    (schedulerCall tmSchedulerTask).entry = some (schedulerTask tmSchedulerTask) := rfl

theorem entry_tlmCall (tlmTelemetryTask : F) :
    (tlmCall tlmTelemetryTask).entry = some (tlmTask tlmTelemetryTask) := rfl

/-- The table that `tm_initialize` registers the scheduler in. -/
def TmState.cleared : TmState F := { TmState.zero with continueRunning := true }

variable (P : TmBootPlatform F V)

/-- The world after `tm_initialize`: the schedule gets its semaphore if the scheduler has got
one, and its timer if it has got its semaphore. -/
def bootWorld (os : V) : V :=
  let (created, os) := P.semCreate fswTaskIdTmScheduler.toInt.toNat os
  if created = .okay then
    let (scheduleCreated, os) := P.scheduleSemCreate os
    if scheduleCreated = .okay then (P.timerCreate os).2 else os
  else os

/-- `tm_initialize` registers the scheduler in a cleared table. -/
theorem tmInitialize_eq (tmSchedulerTask : F) (s : TmSystem F V) :
    ∃ fswResult, tmInitialize P tmSchedulerTask s =
      .ok (fswResult,
        { tm := (schedulerCall tmSchedulerTask).written (schedulerTask tmSchedulerTask)
            ((P.semCreate fswTaskIdTmScheduler.toInt.toNat s.os).1 = .okay) .cleared
          os := bootWorld P s.os }) := by
  have hrun := TmCall.run_written P.toTmPlatform (entry_schedulerCall tmSchedulerTask)
    (show TmState.InRange fswTaskIdTmScheduler by decide) { s with tm := .cleared }
  have hcall : tmPeriodicTask P.toTmPlatform (some fswTaskNameTmScheduler) fswTaskIdTmScheduler
      (some tmSchedulerTask) 0 tmSchedulerPeriod tmSchedulerPeriod fswDefaultStacksSize
      tmSchedulerPriority { s with tm := { TmState.zero with continueRunning := true } } =
        pure _ := hrun
  have hcreated : (schedulerCall tmSchedulerTask).created P.toTmPlatform s.os =
      P.semCreate fswTaskIdTmScheduler.toInt.toNat s.os := rfl
  simp only [tmInitialize, hcall, hcreated, pure_bind]
  unfold bootWorld
  rcases P.semCreate fswTaskIdTmScheduler.toInt.toNat s.os with ⟨created, os⟩
  by_cases hokay : created = .okay
  · rcases hschedule : P.scheduleSemCreate os with ⟨scheduleCreated, os'⟩
    by_cases hscheduled : scheduleCreated = .okay
    · by_cases htimer : (P.timerCreate os').1 = .okay
      · refine ⟨.okay, ?_⟩
        simp [hokay, hschedule, hscheduled, htimer]
        rfl
      · refine ⟨.osTimerCreateError, ?_⟩
        simp [hokay, hschedule, hscheduled, htimer]
        rfl
    · refine ⟨.osSemCreateError, ?_⟩
      simp [hokay, hschedule, hscheduled]
      rfl
  · refine ⟨.taskRegistrationError, ?_⟩
    simp [hokay]
    rfl

/-- `tlm_initialize` registers the telemetry task. -/
theorem tlmInitialize_eq (tlmTelemetryTask : F) (s : TmSystem F V) :
    ∃ fswResult tlm, tlmInitialize P.toTmPlatform tlmTelemetryTask s =
      .ok (fswResult, tlm,
        { tm := (tlmCall tlmTelemetryTask).written (tlmTask tlmTelemetryTask)
            ((P.semCreate fswTaskIdTlm.toInt.toNat s.os).1 = .okay) s.tm
          os := (P.semCreate fswTaskIdTlm.toInt.toNat s.os).2 }) := by
  have hrun := TmCall.run_written P.toTmPlatform (entry_tlmCall tlmTelemetryTask)
    (show TmState.InRange fswTaskIdTlm by decide) s
  have hcall : tmPeriodicTask P.toTmPlatform (some fswTaskNameTlm) fswTaskIdTlm
      (some tlmTelemetryTask) fswTaskNoArgument fswTaskRate1Hz fswHearbeatRate1Hz
      fswDefaultStackSize fswPriorityTlmTask s = pure _ := hrun
  simp only [tlmInitialize, hcall, pure_bind]
  split <;> exact ⟨_, _, rfl⟩

/-- After the calls of `main`, the scheduler and the telemetry task are the only ones in the
table; the registration of `main` itself has been successful. -/
theorem mainInitialize_eq (B : Platform Q W) (tmSchedulerTask tlmTelemetryTask : F)
    (s : MainState F Q V W) :
    ∃ results s', mainInitialize P B tmSchedulerTask tlmTelemetryTask s = .ok (results, s') ∧
      results.main = .okay ∧
      s'.tm.tm = (tlmCall tlmTelemetryTask).written (tlmTask tlmTelemetryTask)
        ((P.semCreate fswTaskIdTlm.toInt.toNat (bootWorld P s.tm.os)).1 = .okay)
        ((schedulerCall tmSchedulerTask).written (schedulerTask tmSchedulerTask)
          ((P.semCreate fswTaskIdTmScheduler.toInt.toNat s.tm.os).1 = .okay) .cleared) ∧
      s'.tm.os = (P.semCreate fswTaskIdTlm.toInt.toNat (bootWorld P s.tm.os)).2 := by
  have hmonitor : ∃ tm, tmMonitorTask (some fswTaskNameMain) fswTaskIdMain s.tm.tm =
      .ok (.okay, tm) := by
    have hset := s.tm.tm.setTask_of_inRange (show TmState.InRange fswTaskIdMain by decide)
    simp only [tmMonitorTask, hset]
    exact ⟨_, rfl⟩
  obtain ⟨tm, hmonitor⟩ := hmonitor
  obtain ⟨tmResult, htm⟩ := tmInitialize_eq P tmSchedulerTask { s.tm with tm := tm }
  obtain ⟨tlmResult, tlm, htlm⟩ := tlmInitialize_eq P tlmTelemetryTask _
  unfold mainInitialize
  rw [hmonitor]
  change ∃ results s', (tmInitialize P tmSchedulerTask { s.tm with tm := tm } >>= _) = _ ∧ _
  rw [htm]
  change ∃ results s', (tlmInitialize P.toTmPlatform tlmTelemetryTask _ >>= _) = _ ∧ _
  rw [htlm]
  exact ⟨_, _, rfl, rfl, rfl, rfl⟩

end Initialize

end Protoflight
