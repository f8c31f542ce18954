import Protoflight.Fsw.TmReleases
import Protoflight.Os.TimerArmed

/-!
# The signals of the schedule

`tm_start` starts a timer with `tm_schedule_callback`, and other timers may be in use beside it.
The handler of the signals, the calls for the other timers and the schedule go on here in any order:
a slot begins for each signal of the timer of the schedule, and for no other signal.
-/

namespace Protoflight

variable {F G V : Type}

section Lists

variable (S : RealTimeSignals)

namespace OsTimerCall

/-- The timers that two parts of a run create. -/
theorem createdAll_append (calls more : List (OsTimerCall G)) (currentSignal : Int32) :
    createdAll S (calls ++ more) currentSignal =
      createdAll S calls currentSignal ++
        createdAll S more
          (currentSignal + Int32.ofNat (createdAll S calls currentSignal).length) := by
  induction calls generalizing currentSignal with
  | nil => simp [createdAll]
  | cons call calls ih =>
    rw [List.cons_append, createdAll, createdAll, ih, List.append_assoc, List.length_append,
      Int32.ofNat_add, Int32.add_assoc]

/-- In both parts only timers that have been created are used. -/
theorem onCreated_append (calls more : List (OsTimerCall G)) (created : List CreatedTimer)
    (currentSignal : Int32) :
    OnCreated S (calls ++ more) created currentSignal ↔
      OnCreated S calls created currentSignal ∧
        OnCreated S more (created ++ createdAll S calls currentSignal)
          (currentSignal + Int32.ofNat (createdAll S calls currentSignal).length) := by
  induction calls generalizing created currentSignal with
  | nil => simp [createdAll, OnCreated]
  | cons call calls ih =>
    rw [List.cons_append, OnCreated, OnCreated, ih, createdAll, List.append_assoc,
      List.length_append, Int32.ofNat_add, Int32.add_assoc, and_assoc]

end OsTimerCall

end Lists

/-- The timers of the abstraction, with the schedule. -/
structure TmSignalled (F G V : Type) where
  timers : OsTimers G
  scheduling : TmScheduling F V

/-- What comes next. -/
inductive TmSignalStep (G : Type) where
  /-- A call of a function of the timers, or a signal. -/
  | timer (call : OsTimerCall G)
  /-- A step of the schedule. -/
  | moment (moment : TmMoment)

namespace TmSignalStep

/-- The call or the signal of a step, if it is one. -/
def call? : TmSignalStep G → Option (OsTimerCall G)
  | .timer call => some call
  | .moment _ => none

/-- The step is a signal of this number. -/
def isSignal (signal : Int32) : TmSignalStep G → Bool
  | .timer (.delivered delivered _ _) => delivered = signal
  | .timer (.create ..) | .timer (.start ..) | .timer (.stop ..) | .moment _ => false

end TmSignalStep

namespace TmSignalled

variable [DecidableEq G] (S : RealTimeSignals) (C : TmCallbacks F V) (tmScheduleCallback : G)

/-- A signal is handled. If `os_timer_function` calls `tm_schedule_callback`, this gives the
semaphore of the schedule and returns true; what any other callback returns is given. -/
def handle (signal : Int32) (restartRequested : Bool) (retCode : ℤ) (s : TmSignalled F G V) :
    Option (TmSignalled F G V) :=
  let served := osTimerFunction S signal restartRequested retCode s.timers
  if served.1.any fun start => start.1 = tmScheduleCallback then
    if restartRequested then do
      let (_, scheduling) ← s.scheduling.step C .tick
      return ⟨served.2, scheduling⟩
    else none
  else some { s with timers := served.2 }

/-- What happens at a step. Nothing but a signal calls `tm_schedule_callback`. -/
def step (s : TmSignalled F G V) :
    TmSignalStep G → Option (List (TmMove F) × TmSignalled F G V)
  | .timer (.delivered signal restartRequested retCode) => do
    let s ← handle S C tmScheduleCallback signal restartRequested retCode s
    return ([], s)
  | .timer call => do
    let timers ← (call.run S s.timers).toOption
    return ([], { s with timers := timers })
  | .moment moment =>
    if moment.isTick then none
    else do
      let (moves, scheduling) ← s.scheduling.step C moment
      return (moves, { s with scheduling := scheduling })

/-- Steps one after another. -/
def run : List (TmSignalStep G) → TmSignalled F G V →
    Option (List (TmMove F) × TmSignalled F G V)
  | [], s => some ([], s)
  | next :: steps, s => do
    let (moves, s) ← s.step S C tmScheduleCallback next
    let (rest, s) ← run steps s
    return (moves ++ rest, s)

end TmSignalled

/-- A call leaves a timer and a callback to the task manager. -/
def OsTimerCall.LeavesAlone (timer : ℕ) (tmScheduleCallback : G) : OsTimerCall G → Prop
  | .start other callback .. => other ≠ some timer ∧ callback ≠ tmScheduleCallback
  | .stop other _ => other ≠ some timer
  | .create .. | .delivered .. => True

section Timers

open OsTimerCall

variable {S : RealTimeSignals} {tmScheduleCallback : G} {i : ℕ} {t : CreatedTimer}
  {interval : Option Timespec} {created : List CreatedTimer} {calls : List (OsTimerCall G)}
  {s s' : OsTimers G} {call : OsTimerCall G}

/-- A call that leaves them alone starts another timer with another callback, if it starts one. -/
theorem OsTimerCall.LeavesAlone.started (h : call.LeavesAlone t.timer tmScheduleCallback) :
    call.started t.timer = none ∧
      ∀ timer start, call.started timer = some start → start.1 ≠ tmScheduleCallback := by
  cases call with
  | create | stop | delivered => exact ⟨rfl, fun _ _ => nofun⟩
  | start other callback =>
    obtain ⟨hother, hcallback⟩ := h
    cases other with
    | none => exact ⟨rfl, fun _ _ => nofun⟩
    | some other =>
      refine ⟨if_neg fun heq => hother (congrArg some heq), fun timer start hstart => ?_⟩
      simp only [OsTimerCall.started] at hstart
      split at hstart
      · cases hstart
        exact hcallback
      · cases hstart

/-- The timer of the schedule runs, and no other timer has its callback. -/
structure OsTimers.Schedules (S : RealTimeSignals) (tmScheduleCallback : G) (i : ℕ)
    (t : CreatedTimer) (interval : Option Timespec) (created : List CreatedTimer)
    (calls : List (OsTimerCall G)) (s : OsTimers G) : Prop where
  follows : s.Follows S created calls
  armed : s.ArmedBy S created calls
  place : created[i]? = some t
  callback : (latestStart t.timer calls).map Prod.fst = some tmScheduleCallback
  setting : latestSetting S i t calls = interval
  others : ∀ timer ≠ t.timer, ∀ start, latestStart timer calls = some start →
    start.1 ≠ tmScheduleCallback

/-- The signals of the timer, and no others, lead to `tm_schedule_callback`. -/
theorem OsTimers.Schedules.invoked [DecidableEq G]
    (h : s.Schedules S tmScheduleCallback i t interval created calls)
    (hdistinct : DistinctTimers created) (signal : Int32) (restartRequested : Bool)
    (retCode : ℤ) :
    ((osTimerFunction S signal restartRequested retCode s).1.any fun start =>
      start.1 = tmScheduleCallback) = true ↔ signal = Int32.ofNat i + S.sigrtmin := by
  by_cases hcreated : ∃ j < created.length, signal = Int32.ofNat j + S.sigrtmin
  · obtain ⟨j, hj, rfl⟩ := hcreated
    have hlength := hdistinct.length_le
    have hu := List.getElem?_eq_getElem hj
    rw [h.follows.osTimerFunction_eq hlength hu]
    by_cases hji : j = i
    · subst hji
      rw [h.place] at hu
      obtain ⟨start, hstart, hcallback⟩ := Option.map_eq_some_iff.mp h.callback
      rw [← Option.some.inj hu, hstart]
      simp [hcallback]
    · -- another timer has another callback
      have hne : created[j].timer ≠ t.timer := by
        intro heq
        have := hdistinct.eq_of_timer (List.getElem_mem hj) (List.mem_of_getElem? h.place) heq
        exact hji ((hdistinct.eq_iff_place hu h.place).mp this)
      have hsignal : Int32.ofNat j + S.sigrtmin ≠ Int32.ofNat i + S.sigrtmin := by
        obtain ⟨hlt, -⟩ := List.getElem?_eq_some_iff.mp h.place
        rwa [ne_eq, timerSignal_inj S (by omega) (by omega)]
      refine iff_of_false ?_ hsignal
      cases hstart : latestStart created[j].timer calls with
      | none => simp
      | some start => simpa using h.others _ hne start hstart
  · have hforeign : ∀ j < created.length, signal ≠ Int32.ofNat j + S.sigrtmin := fun j hj heq =>
      hcreated ⟨j, hj, heq⟩
    rw [h.follows.osTimerFunction_foreign hforeign]
    obtain ⟨hlt, -⟩ := List.getElem?_eq_some_iff.mp h.place
    exact iff_of_false (by simp) (hforeign i hlt)

/-- Calls that leave the timer alone, and signals of it whose callback returns true, keep it
running. -/
theorem OsTimers.Schedules.run (h : s.Schedules S tmScheduleCallback i t interval created calls)
    (hdistinct : DistinctTimers (created ++ call.created S s.currentSignal))
    (hused : ∀ timer ∈ call.used, timer ∈ created.map CreatedTimer.timer)
    (halone : call.LeavesAlone t.timer tmScheduleCallback)
    (hrestart : ∀ restartRequested retCode,
      call = .delivered (Int32.ofNat i + S.sigrtmin) restartRequested retCode →
        restartRequested = true) (hrun : call.run S s = .ok s') :
    s'.Schedules S tmScheduleCallback i t interval (created ++ call.created S s.currentSignal)
      (calls ++ [call]) := by
  obtain ⟨s₁, hrun₁, hfollows⟩ := h.follows.run call hdistinct
  cases hrun.symm.trans hrun₁
  obtain ⟨hstarted, hothers⟩ := halone.started
  have hsets : call.sets S i t = none := by
    cases call with
    | create => rfl
    | start other => exact if_neg fun hset => halone.1 hset.1
    | stop other => exact if_neg fun hset => halone hset.1
    | delivered signal restartRequested retCode =>
      refine if_neg ?_
      rintro ⟨rfl, hstop, -⟩
      cases hstop.symm.trans (hrestart restartRequested retCode rfl)
  constructor
  case follows => exact hfollows
  case armed => exact h.armed.run h.follows call hdistinct hused hrun
  case place =>
    obtain ⟨hlt, -⟩ := List.getElem?_eq_some_iff.mp h.place
    rw [List.getElem?_append_left hlt, h.place]
  case callback => rw [latestStart_concat, hstarted, Option.none_or, h.callback]
  case setting => rw [latestSetting_concat, hsets, Option.getD_none, h.setting]
  case others =>
    intro timer hne start hstart
    rw [latestStart_concat] at hstart
    cases hother : call.started timer with
    | none =>
      rw [hother, Option.none_or] at hstart
      exact h.others timer hne start hstart
    | some other =>
      rw [hother] at hstart
      cases hstart
      exact hothers timer start hother

/-- The call of `os_timer_start` in `tm_start`. -/
def tmStartTimer (timer : ℕ) (tmScheduleCallback : G) (answers : OsTimerAnswers) : OsTimerCall G :=
  .start (some timer) tmScheduleCallback 0 tmSystemClockTicksPerSlot answers

/-- The timer of the schedule runs as soon as `tm_start` has started it. -/
theorem OsTimers.schedules_started {answers : OsTimerAnswers} (hanswers : answers.AllSucceed)
    (hplace : (createdAll S calls 0)[i]? = some t)
    (hdistinct : DistinctTimers (createdAll S calls 0))
    (hused : OnCreated S (calls ++ [tmStartTimer t.timer tmScheduleCallback answers]) [] 0)
    (halone : ∀ call ∈ calls, call.LeavesAlone t.timer tmScheduleCallback)
    (hboot : runAll S (calls ++ [tmStartTimer t.timer tmScheduleCallback answers]) .initial =
      .ok s) :
    s.Schedules S tmScheduleCallback i t (some (osTimerStartInterval tmSystemClockTicksPerSlot))
      (createdAll S calls 0) (calls ++ [tmStartTimer t.timer tmScheduleCallback answers]) := by
  have hcreated : createdAll S (calls ++ [tmStartTimer t.timer tmScheduleCallback answers]) 0 =
      createdAll S calls 0 := by
    rw [createdAll_append]
    exact List.append_nil _
  have hinitial : (OsTimers.initial : OsTimers G).ArmedBy S [] [] := ⟨nofun, fun _ _ => rfl⟩
  obtain ⟨s₁, hrun, hfollows, harmed⟩ := hinitial.runAll OsTimers.follows_initial
    (calls ++ [tmStartTimer t.timer tmScheduleCallback answers])
    (show DistinctTimers ([] ++ createdAll S _ 0) from hcreated ▸ hdistinct) hused
  cases hboot.symm.trans hrun
  change s.Follows S (createdAll S _ 0) _ at hfollows
  change s.ArmedBy S (createdAll S _ 0) _ at harmed
  rw [hcreated] at hfollows harmed
  have hstart : (tmStartTimer t.timer tmScheduleCallback answers).started t.timer =
      some (tmScheduleCallback, 0) := if_pos rfl
  have hset : answers.Sets ∧ answers.timerSettime = 0 :=
    ⟨⟨hanswers.sigaddset.ge, hanswers.sigaction.ge⟩, hanswers.timerSettime⟩
  have hsets : (tmStartTimer t.timer tmScheduleCallback answers).sets S i t =
      some (some (osTimerStartInterval tmSystemClockTicksPerSlot)) := if_pos ⟨rfl, hset⟩
  refine ⟨hfollows, harmed, hplace, ?_, ?_, fun timer hne start hlatest => ?_⟩
  · rw [latestStart_concat, hstart]
    rfl
  · rw [latestSetting_concat, hsets, Option.getD_some]
  · have hother : (tmStartTimer t.timer tmScheduleCallback answers).started timer = none :=
      if_neg hne.symm
    rw [latestStart_concat, hother, Option.none_or] at hlatest
    obtain ⟨call, hmem, hstarted⟩ := List.mem_filterMap.mp (List.mem_of_getLast? hlatest)
    exact (halone call hmem).started.2 timer start hstarted

end Timers

namespace TmSignalled

open OsTimerCall

variable [DecidableEq G] {S : RealTimeSignals} {C : TmCallbacks F V} {tmScheduleCallback : G}
  {i : ℕ} {t : CreatedTimer} {interval : Option Timespec} {created : List CreatedTimer}
  {calls : List (OsTimerCall G)} {s s' : TmSignalled F G V} {moves : List (TmMove F)}

/-- A signal of the timer of the schedule is a tick, and any other signal none. -/
theorem handle_eq (h : s.timers.Schedules S tmScheduleCallback i t interval created calls)
    (hdistinct : DistinctTimers created) {signal : Int32} {restartRequested : Bool} {retCode : ℤ}
    (hhandle : handle S C tmScheduleCallback signal restartRequested retCode s = some s') :
    s'.timers = (osTimerFunction S signal restartRequested retCode s.timers).2 ∧
      (signal = Int32.ofNat i + S.sigrtmin ∧ restartRequested = true ∧
          s.scheduling.step C .tick = some ([], s'.scheduling) ∨
        signal ≠ Int32.ofNat i + S.sigrtmin ∧ s'.scheduling = s.scheduling) := by
  have hinvoked := h.invoked hdistinct signal restartRequested retCode
  simp only [handle] at hhandle
  by_cases hsignal : signal = Int32.ofNat i + S.sigrtmin
  · rw [if_pos (hinvoked.mpr hsignal)] at hhandle
    split at hhandle
    next hrestart =>
      cases hhandle
      exact ⟨rfl, .inl ⟨hsignal, hrestart, rfl⟩⟩
    next => cases hhandle
  · rw [if_neg (mt hinvoked.mp hsignal)] at hhandle
    cases hhandle
    exact ⟨rfl, .inr ⟨hsignal, rfl⟩⟩

/-- A call concerns the timers alone. -/
theorem step_call {call : OsTimerCall G}
    (hcall : ∀ signal restartRequested retCode,
      call ≠ .delivered signal restartRequested retCode) :
    s.step S C tmScheduleCallback (.timer call) =
      (call.run S s.timers).toOption.bind fun timers => some ([], { s with timers := timers }) := by
  cases call with
  | create | start | stop => rfl
  | delivered => exact absurd rfl (hcall _ _ _)

/-- A call or a signal keeps the timer of the schedule running, and is a tick if it is the signal of
this timer. -/
theorem step_timer (h : s.timers.Schedules S tmScheduleCallback i t interval created calls)
    {call : OsTimerCall G}
    (hdistinct : DistinctTimers (created ++ call.created S s.timers.currentSignal))
    (hused : ∀ timer ∈ call.used, timer ∈ created.map CreatedTimer.timer)
    (halone : call.LeavesAlone t.timer tmScheduleCallback)
    (hstep : s.step S C tmScheduleCallback (.timer call) = some (moves, s')) :
    s'.timers.Schedules S tmScheduleCallback i t interval
        (created ++ call.created S s.timers.currentSignal) (calls ++ [call]) ∧
      ∃ moments, s.scheduling.run C moments = some (moves, s'.scheduling) ∧
        ticks moments = [TmSignalStep.timer call].countP
          (TmSignalStep.isSignal (Int32.ofNat i + S.sigrtmin)) := by
  cases call with
  | delivered signal restartRequested retCode =>
    obtain ⟨u, hhandle, hstep⟩ := Option.bind_eq_some_iff.mp hstep
    cases hstep
    obtain ⟨htimers, hcases⟩ := handle_eq h hdistinct.of_append hhandle
    have hrun : OsTimerCall.run S (.delivered signal restartRequested retCode) s.timers =
        .ok s'.timers := htimers ▸ rfl
    refine ⟨h.run hdistinct hused halone (fun restart code heq => ?_) hrun, ?_⟩
    · cases heq
      rcases hcases with ⟨-, hrestart, -⟩ | ⟨hsignal, -⟩
      · exact hrestart
      · exact absurd rfl hsignal
    · rcases hcases with ⟨rfl, -, htick⟩ | ⟨hsignal, hsame⟩
      · refine ⟨[.tick], run_singleton htick, ?_⟩
        simp [ticks, TmMoment.isTick, TmSignalStep.isSignal]
      · exact ⟨[], hsame ▸ rfl, by simp [ticks, TmSignalStep.isSignal, hsignal]⟩
  | create | start | stop =>
    rw [step_call (by simp)] at hstep
    obtain ⟨timers, hrun, hstep⟩ := Option.bind_eq_some_iff.mp hstep
    cases hstep
    exact ⟨h.run hdistinct hused halone (fun _ _ heq => by cases heq)
      (eq_ok_of_toOption hrun), [], rfl, rfl⟩

/-- A run of both is a run of the schedule, with a tick for each signal of its timer. -/
theorem run_schedule {steps : List (TmSignalStep G)}
    (h : s.timers.Schedules S tmScheduleCallback i t interval created calls)
    (hdistinct : DistinctTimers (created ++
      createdAll S (steps.filterMap TmSignalStep.call?) s.timers.currentSignal))
    (hused : OnCreated S (steps.filterMap TmSignalStep.call?) created s.timers.currentSignal)
    (halone : ∀ call ∈ steps.filterMap TmSignalStep.call?,
      call.LeavesAlone t.timer tmScheduleCallback)
    (hrun : s.run S C tmScheduleCallback steps = some (moves, s')) :
    ∃ moments created' calls', s.scheduling.run C moments = some (moves, s'.scheduling) ∧
      ticks moments = steps.countP (TmSignalStep.isSignal (Int32.ofNat i + S.sigrtmin)) ∧
      s'.timers.Schedules S tmScheduleCallback i t interval created' calls' := by
  induction steps generalizing s created calls moves with
  | nil =>
    cases hrun
    exact ⟨[], created, calls, rfl, rfl, h⟩
  | cons next steps ih =>
    obtain ⟨⟨first, u⟩, hstep, hrun⟩ := Option.bind_eq_some_iff.mp hrun
    obtain ⟨⟨rest, v⟩, hlater, hrun⟩ := Option.bind_eq_some_iff.mp hrun
    cases hrun
    rw [← List.singleton_append, List.countP_append]
    cases next with
    | timer call =>
      have hlist : (TmSignalStep.timer call :: steps).filterMap TmSignalStep.call? =
          call :: steps.filterMap TmSignalStep.call? := rfl
      rw [hlist] at hdistinct hused halone
      rw [createdAll, ← List.append_assoc] at hdistinct
      obtain ⟨hcall, hcalls⟩ := List.forall_mem_cons.mp halone
      obtain ⟨hkept, moments, hmoments, hticks⟩ :=
        step_timer h hdistinct.of_append hused.1 hcall hstep
      have hcounter : u.timers.currentSignal = s.timers.currentSignal +
          Int32.ofNat (call.created S s.timers.currentSignal).length := by
        rw [hkept.follows.counter, h.follows.counter, List.length_append, Int32.ofNat_add]
      have hrest := hused.2
      rw [← hcounter] at hdistinct hrest
      obtain ⟨moments', created', calls', hmoments', hticks', hkept'⟩ :=
        ih hkept hdistinct hrest hcalls hlater
      refine ⟨moments ++ moments', created', calls', run_append hmoments hmoments', ?_, hkept'⟩
      rw [ticks, List.countP_append]
      exact congrArg₂ (· + ·) hticks hticks'
    | moment moment =>
      have hlist : (TmSignalStep.moment moment :: steps).filterMap TmSignalStep.call? =
          steps.filterMap (TmSignalStep.call? : TmSignalStep G → _) := rfl
      rw [hlist] at hdistinct hused halone
      simp only [step] at hstep
      split at hstep
      next => cases hstep
      next htick =>
        obtain ⟨⟨told, scheduling⟩, hmoment, hstep⟩ := Option.bind_eq_some_iff.mp hstep
        cases hstep
        obtain ⟨moments', created', calls', hmoments', hticks', hkept'⟩ :=
          ih (s := ⟨s.timers, scheduling⟩) h hdistinct hused halone hlater
        refine ⟨[moment] ++ moments', created', calls',
          run_append (run_singleton hmoment) hmoments', ?_, hkept'⟩
        rw [ticks, List.countP_append]
        refine congrArg₂ (· + ·) ?_ hticks'
        simp [htick, TmSignalStep.isSignal]

end TmSignalled

open OsTimerCall TmSignalled in
/-- When `tm_start` has started its timer, and nothing else uses this timer or its callback: in
every run of the signals, of the calls for other timers and of the schedule, the timer stays armed
with the interval of a slot, and a slot begins for each of its signals but those that wait and those
that were lost at the bound of the semaphore. What `tm_update_task` returns for a task is determined
by the number of these slots that have come to its entry. -/
theorem tm_slots_of_signals [DecidableEq G] (S : RealTimeSignals) (C : TmCallbacks F V)
    (tmScheduleCallback : G) {earlier : List (OsTimerCall G)} {i : ℕ} {t : CreatedTimer}
    (hplace : (createdAll S earlier 0)[i]? = some t) {answers : OsTimerAnswers}
    (hanswers : answers.AllSucceed) {s s' : TmSignalled F G V}
    (hboot : runAll S (earlier ++ [tmStartTimer t.timer tmScheduleCallback answers]) .initial =
      .ok s.timers)
    (hphase : s.scheduling.phase = .loopHead) (hregistered : s.scheduling.Registered)
    {steps : List (TmSignalStep G)}
    (hdistinct : DistinctTimers (createdAll S
      (earlier ++ [tmStartTimer t.timer tmScheduleCallback answers] ++
        steps.filterMap TmSignalStep.call?) 0))
    (hused : OnCreated S (earlier ++ [tmStartTimer t.timer tmScheduleCallback answers] ++
      steps.filterMap TmSignalStep.call?) [] 0)
    (halone : ∀ call ∈ earlier ++ steps.filterMap TmSignalStep.call?,
      call.LeavesAlone t.timer tmScheduleCallback)
    {moves : List (TmMove F)} (hrun : s.run S C tmScheduleCallback steps = some (moves, s')) :
    s'.timers.armed t.kernel = some (osTimerStartInterval tmSystemClockTicksPerSlot) ∧
      ∃ slots,
        (let signals := steps.countP (TmSignalStep.isSignal (Int32.ofNat i + S.sigrtmin))
        slots + s'.scheduling.scheduleUnits ≤ s.scheduling.scheduleUnits + signals ∧
          (s.scheduling.scheduleUnits + signals ≤ semValueMax →
            slots + s'.scheduling.scheduleUnits = s.scheduling.scheduleUnits + signals)) ∧
        ∀ index < tmMaxTasks,
          statusesSeen index moves =
            (List.range (s'.scheduling.phase.rounds slots index)).map fun n =>
              (s.scheduling.system.tm.tasks index).statusIn (n + 1) := by
  obtain ⟨hearlier, hlater⟩ := List.forall_mem_append.mp halone
  obtain ⟨hboots, hrest⟩ := (onCreated_append S _ _ [] 0).mp hused
  have hcreated : createdAll S (earlier ++ [tmStartTimer t.timer tmScheduleCallback answers]) 0 =
      createdAll S earlier 0 := by
    rw [createdAll_append]
    exact List.append_nil _
  rw [createdAll_append, hcreated] at hdistinct
  rw [hcreated] at hrest
  have hstarted := OsTimers.schedules_started hanswers hplace hdistinct.of_append hboots hearlier
    hboot
  have hcounter : s.timers.currentSignal = 0 + Int32.ofNat (createdAll S earlier 0).length := by
    rw [hstarted.follows.counter, Int32.zero_add]
  rw [← hcounter] at hdistinct hrest
  obtain ⟨moments, created', calls', hmoments, hticks, hkept⟩ :=
    run_schedule hstarted hdistinct hrest hlater hrun
  obtain ⟨slots, hslots, hfollows⟩ := hregistered.run hphase hmoments
  rw [hticks] at hslots
  refine ⟨?_, slots, ⟨hslots.le, hslots.eq⟩, hfollows.statuses⟩
  rw [hkept.armed.armed i t hkept.place, hkept.setting]

section Example

open OsTimerCall

instance (timer : ℕ) (tmScheduleCallback : Bool) :
    DecidablePred (LeavesAlone timer tmScheduleCallback)
  | .start .. => inferInstanceAs (Decidable (_ ∧ _))
  | .stop .. => inferInstanceAs (Decidable (_ ≠ _))
  | .create .. | .delivered .. => isTrue trivial

/-- The timer of the schedule is created, and another one that is started. -/
def otherTimerStarted : List (OsTimerCall Bool) :=
  [.create (some 0) ⟨0, 7⟩, .create (some 1) ⟨0, 8⟩, .start (some 1) false 5 3 ⟨0, 0, 0⟩]

/-- Both timers send a signal, and the scheduler begins a slot. -/
def bothSignals : List (TmSignalStep Bool) :=
  [.timer (.delivered 34 true 0), .timer (.delivered 35 false 0), .moment (.scheduler false),
    .moment (.scheduler false)]

/-- One slot has begun, and the timer of the schedule runs on. -/
theorem tm_slots_of_signals_both : ∃ timers moves s',
    runAll linuxSignals (otherTimerStarted ++ [tmStartTimer 0 true ⟨0, 0, 0⟩]) .initial =
      .ok timers ∧
    TmSignalled.run linuxSignals noCallbacks true bothSignals ⟨timers, everySlotTable⟩ =
      some (moves, s') ∧
    s'.timers.armed 7 = some ⟨0, 1000000⟩ ∧
    ∃ slots, slots + s'.scheduling.scheduleUnits = 0 + 1 := by
  have hdistinct : DistinctTimers (createdAll linuxSignals (otherTimerStarted ++
      [tmStartTimer 0 true ⟨0, 0, 0⟩] ++ bothSignals.filterMap TmSignalStep.call?) 0) :=
    ⟨by decide, by decide, by decide⟩
  have hused : OnCreated linuxSignals (otherTimerStarted ++
      [tmStartTimer 0 true ⟨0, 0, 0⟩] ++ bothSignals.filterMap TmSignalStep.call?) [] 0 := by
    refine ⟨nofun, nofun, ?_, ?_, nofun, nofun, trivial⟩
    · rintro _ ⟨⟩
      decide
    · rintro _ ⟨⟩
      decide
  have hplace : (createdAll linuxSignals otherTimerStarted 0)[0]? = some ⟨0, 7⟩ := rfl
  obtain ⟨harmed, slots, hslots, -⟩ := tm_slots_of_signals linuxSignals noCallbacks true hplace
    (s := ⟨_, everySlotTable⟩) ⟨rfl, rfl, rfl⟩ rfl rfl everySlotTable_registered hdistinct hused
    (by decide) (show TmSignalled.run _ _ _ bothSignals _ = some (_, _) from rfl)
  exact ⟨_, _, _, rfl, rfl, harmed, slots, hslots.2 (by decide)⟩

end Example

end Protoflight
