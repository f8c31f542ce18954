import Protoflight.Fsw.Tlm
import Protoflight.Fsw.TmPeriods
import Protoflight.Fsw.TmStart
import Protoflight.Os.Deadlines

/-!
# The rates of the tasks

How often a task is scheduled by the clock of the timer that `tm_start` arms. A period is counted in
slots, a slot comes with every tick of `OS_CONFIG_CLOCK_RATE`, and a period in seconds is told by
`TM_SYSTEM_CLOCK_TICKS_PER_SECOND`, which is another rate.
-/

namespace Protoflight

variable {F G W : Type}

section Interval

/-- A timer that is armed is armed with the interval that its timeout makes out. -/
theorem osTimerStart_armed {timer : OsTimer G} {callback : G} {argument : UInt64}
    {timeout : OsTimeout} {answers : OsTimerAnswers} {interval : Timespec}
    (h : (osTimerStart (some timer) (some callback) argument timeout answers).2.2 =
      some interval) : interval = osTimerStartInterval timeout := by
  rw [osTimerStart_some] at h
  dsimp only at h
  split at h
  · cases h
  · rw [timerSettime] at h
    split at h
    · exact (Option.some.inj h).symm
    · cases h

/-- `tm_start` arms the timer of the schedule with a millisecond. -/
theorem tmStart_armed {answers : ℕ → OsTaskAnswers} {timerAnswers : OsTimerAnswers}
    {scheduleTimer : OsTimer G} {tmScheduleCallback : G} {t : TmState F}
    {started : TmStarted F G}
    (h : tmStart answers timerAnswers scheduleTimer tmScheduleCallback t = .ok started)
    {interval : Timespec} (harmed : started.armed = some interval) :
    interval.total = 1000000 := by
  have hinterval : interval = osTimerStartInterval tmSystemClockTicksPerSlot := by
    obtain ⟨⟨tmResult, spawns⟩, -, hpure⟩ := exists_ok_of_bind h
    cases hpure
    exact osTimerStart_armed harmed
  rw [hinterval]
  decide

end Interval

section Windows

/-- How often a timer with an interval has expired up to so many nanoseconds after it has been
armed. -/
def expiries (interval : Timespec) (time : ℕ) : ℕ := time / interval.total.toNat

/-- The slots that the expiries of the timer cause between two times, one slot each. -/
def slotsBetween (interval : Timespec) (time time' : ℕ) (slots : List (List (TmEvent F))) :
    List (List (TmEvent F)) :=
  (slots.take (expiries interval time')).drop (expiries interval time)

/-- How often a task is scheduled between two times. -/
def scheduledBetween (interval : Timespec) (index time time' : ℕ)
    (slots : List (List (TmEvent F))) : ℕ :=
  ((slotsBetween interval time time' slots).flatMap (statuses index)).count .schedule

/-- In every run after a registration that no later one replaces, and in every window of so many
nanoseconds in it, the task is scheduled a number of times. -/
def TmCall.RunsInTime (P : TmPlatform F W) (call : TmCall F) (interval : Timespec)
    (nanoseconds times : ℕ) (s : TmSystem F W) : Prop :=
  ∀ steps : List (TmStep F), (∀ step ∈ steps, step.InRange) → call.Latest steps →
    ∃ slots s', runSteps P steps s = .ok (slots, s') ∧
      ∀ time, expiries interval (time + nanoseconds) ≤ steps.countP TmStep.isSlot →
        scheduledBetween interval call.index time (time + nanoseconds) slots = times

/-- It is scheduled one number of times at most. -/
theorem TmCall.RunsInTime.times_eq {P : TmPlatform F W} {call : TmCall F} {interval : Timespec}
    {nanoseconds times times' : ℕ} {s : TmSystem F W}
    (h : call.RunsInTime P interval nanoseconds times s)
    (h' : call.RunsInTime P interval nanoseconds times' s) : times = times' := by
  set n := expiries interval (0 + nanoseconds) with hn
  have hlength : n ≤ (List.replicate n (.slot : TmStep F)).countP TmStep.isSlot := by simp
  obtain ⟨slots, s', hrun, htimes⟩ := h _ (inRange_slots n) (call.latest_slots n)
  obtain ⟨slots', s'', hrun', htimes'⟩ := h' _ (inRange_slots n) (call.latest_slots n)
  rw [hrun] at hrun'
  cases hrun'
  rw [← htimes 0 hlength, ← htimes' 0 hlength]

/-- Between two times, a task is scheduled in the slots that its period divides. -/
theorem scheduledBetween_eq {index p m : ℕ} {interval : Timespec}
    {slots : List (List (TmEvent F))} {slotStatuses : ℕ → List TmTaskstatus}
    (hslots : slots.map (statuses index) = (List.range m).map slotStatuses)
    (hdue : ∀ k, (slotStatuses k).count .schedule = if p ∣ k + 1 then 1 else 0)
    {time time' : ℕ} (hle : time ≤ time') (hlength : expiries interval time' ≤ slots.length) :
    scheduledBetween interval index time time' slots =
      expiries interval time' / p - expiries interval time / p := by
  have hexpiries : expiries interval time ≤ expiries interval time' := Nat.div_le_div_right hle
  have hsplit := List.take_append_drop (expiries interval time)
    (slots.take (expiries interval time'))
  have hcount := count_schedule_take hslots hdue hlength
  rw [← hsplit, List.flatMap_append, List.count_append, List.take_take, Nat.min_eq_left hexpiries,
    count_schedule_take hslots hdue (Nat.le_trans hexpiries hlength)] at hcount
  unfold scheduledBetween slotsBetween
  omega

end Windows

section Seconds

/-- `tm_periodic_task` with a period that is the heartbeat period too. -/
def TmCall.atRate (taskName : Option (List UInt8)) (taskId : TmTaskId) (taskFunction : Option F)
    (taskArgument : UInt64) (period stackSize priority : Int32) : TmCall F :=
  .periodicTask taskName taskId taskFunction taskArgument period period stackSize priority

variable {P : TmPlatform F W} {s s₁ : TmSystem F W} {interval : Timespec}

/-- The slots in a period that is told in seconds. -/
theorem toNat_toUInt32_period {period : Int32} {seconds : ℕ}
    (hperiod : period.toInt = seconds * tmSystemClockTicksPerSecond.toInt) :
    period.toUInt32.toNat = seconds * 100 := by
  have hslots : period.toInt = seconds * 100 := hperiod
  have hnonneg : (0 : Int32) ≤ period := by
    rw [Int32.le_iff_toInt_le]
    change 0 ≤ period.toInt
    omega
  rw [Int32.toNat_toUInt32_of_le hnonneg]
  change period.toInt.toNat = seconds * 100
  omega

/-- A periodic task whose period is told in seconds is scheduled ten times in these. -/
theorem TmCall.runsInTime_ten {taskName : Option (List UInt8)} {taskId : TmTaskId}
    {taskFunction : Option F} {taskArgument : UInt64} {period stackSize priority : Int32}
    (haccepted : (atRate taskName taskId taskFunction taskArgument period stackSize priority).run P
      s = .ok (.okay, s₁)) {seconds : ℕ} (hseconds : 1 ≤ seconds)
    (hperiod : period.toInt = seconds * tmSystemClockTicksPerSecond.toInt)
    (hinterval : interval.total = 1000000) :
    (atRate taskName taskId taskFunction taskArgument period stackSize priority).RunsInTime P
      interval (seconds * 1000000000) 10 s₁ := by
  intro steps hsteps hlatest
  obtain ⟨-, task, hentry, -⟩ := entry_of_accepted haccepted
  obtain ⟨hne, htype, hschedule, hheartbeat⟩ := entry_periodicTask hentry
  have hslotsPerPeriod : task.schedulePeriod.toNat = seconds * 100 := by
    rw [hschedule, toNat_toUInt32_period hperiod]
  obtain ⟨slots, s', hrun, hslots⟩ := runSteps_accepted P hentry trivial haccepted hsteps hlatest
  refine ⟨slots, s', hrun, fun time hlength => ?_⟩
  have hcount : slots.length = steps.countP TmStep.isSlot := by
    simpa using congrArg List.length hslots
  rw [← hcount] at hlength
  rw [scheduledBetween_eq hslots (fun k => count_scheduled_periodic _ htype
    (hheartbeat ▸ toUInt32_ne_zero hne) (k + 1)) (Nat.le_add_right _ _) hlength, hslotsPerPeriod]
  -- a window holds the slots of ten periods, wherever it begins
  have hexpiries : expiries interval (time + seconds * 1000000000) =
      expiries interval time + 10 * (seconds * 100) := by
    unfold expiries
    rw [hinterval]
    change (time + seconds * 1000000000) / 1000000 = time / 1000000 + 10 * (seconds * 100)
    omega
  rw [hexpiries, Nat.add_mul_div_right _ _ (by omega)]
  omega

/-- A task that is registered with a period in seconds, in a system whose schedule `tm_start` has
started, is not scheduled once in these. -/
theorem tm_seconds_not_kept (P : TmPlatform F W) (taskName : Option (List UInt8))
    (taskId : TmTaskId) (taskFunction : Option F) (taskArgument : UInt64)
    (period stackSize priority : Int32) (s s₁ : TmSystem F W)
    (haccepted : (TmCall.atRate taskName taskId taskFunction taskArgument period stackSize
      priority).run P s = .ok (.okay, s₁)) (seconds : ℕ) (hseconds : 1 ≤ seconds)
    (hperiod : period.toInt = seconds * tmSystemClockTicksPerSecond.toInt)
    (answers : ℕ → OsTaskAnswers) (timerAnswers : OsTimerAnswers) (scheduleTimer : OsTimer G)
    (tmScheduleCallback : G) (t : TmState F) (started : TmStarted F G)
    (hstart : tmStart answers timerAnswers scheduleTimer tmScheduleCallback t = .ok started)
    (interval : Timespec) (harmed : started.armed = some interval) :
    ¬(TmCall.atRate taskName taskId taskFunction taskArgument period stackSize priority).RunsInTime
      P interval (seconds * 1000000000) 1 s₁ := by
  intro honce
  have hten := TmCall.runsInTime_ten haccepted hseconds hperiod (tmStart_armed hstart harmed)
  exact absurd (honce.times_eq hten) (by decide)

/-- A task with a rate of 1 Hz. -/
def oncePerSecond : TmCall Unit := .atRate (some []) 5 (some ()) 0 fswTaskRate1Hz 0 0

/-- It is not scheduled once in a second. -/
theorem tm_seconds_not_kept_1_hz :
    ∃ s₁ started interval, oncePerSecond.run givingPlatform emptyTable = .ok (.okay, s₁) ∧
      tmStart (fun _ => allThreadsCreated) timerStarts ⟨34, none, 0, 0⟩ () emptyTable.tm =
        .ok started ∧
      started.armed = some interval ∧
      ¬oncePerSecond.RunsInTime givingPlatform interval 1000000000 1 s₁ :=
  ⟨_, _, _, rfl, rfl, rfl, tm_seconds_not_kept givingPlatform (some []) 5 (some ()) 0
    fswTaskRate1Hz 0 0 emptyTable _ rfl 1 (by decide) (by decide) (fun _ => allThreadsCreated)
    timerStarts ⟨34, none, 0, 0⟩ () emptyTable.tm _ rfl _ rfl⟩

/-- In a second of the timer of the schedule it is scheduled ten times. -/
theorem tm_seconds_not :
    ¬∀ (seconds : ℕ) (period : Int32), 1 ≤ seconds →
      period.toInt = seconds * tmSystemClockTicksPerSecond.toInt →
      ∀ (s₁ : TmSystem Unit Unit) (started : TmStarted Unit Unit) (interval : Timespec),
        (TmCall.atRate (some []) 5 (some ()) 0 period 0 0).run givingPlatform emptyTable =
          .ok (.okay, s₁) →
        tmStart (fun _ => allThreadsCreated) timerStarts ⟨34, none, 0, 0⟩ () s₁.tm = .ok started →
        started.armed = some interval →
        (TmCall.atRate (some []) 5 (some ()) 0 period 0 0).RunsInTime givingPlatform interval
          (seconds * 1000000000) 1 s₁ := by
  intro h
  have honce := h 1 fswTaskRate1Hz (by decide) (by decide) _ _ _ rfl rfl rfl
  have hten := TmCall.runsInTime_ten (P := givingPlatform) (s := emptyTable)
    (show oncePerSecond.run givingPlatform emptyTable = .ok (.okay, _) from rfl)
    (show 1 ≤ 1 by decide) (show fswTaskRate1Hz.toInt = _ by decide)
    (show Timespec.total ⟨0, 1000000⟩ = 1000000 by decide)
  exact absurd (honce.times_eq hten) (by decide)

end Seconds

end Protoflight
