import Mathlib.Tactic.Linarith
import Protoflight.Fsw.TmRuns

/-!
# The periods of the tasks

The statuses that `tm_update_task` returns for a task in a run of the schedule, whatever
comes of giving the semaphores. `tm_periodic_task` checks the period and not the heartbeat
period, `tm_callback_task` does not check its period, and the count of an event task is
never reset.
-/

namespace Protoflight

variable {F W : Type}

section Statuses

/-- The status that the event tells for a task, if it does. -/
def TmEvent.status? (index : ℕ) : TmEvent F → Option TmTaskstatus
  | .updated reported status => if reported = index then some status else none
  | _ => none

/-- The statuses that `tm_update_task` has returned for a task. -/
def statuses (index : ℕ) (events : List (TmEvent F)) : List TmTaskstatus :=
  events.filterMap (TmEvent.status? index)

@[simp] theorem statuses_nil (index : ℕ) : statuses index ([] : List (TmEvent F)) = [] := rfl

@[simp] theorem statuses_append (index : ℕ) (events events' : List (TmEvent F)) :
    statuses index (events ++ events') = statuses index events ++ statuses index events' :=
  List.filterMap_append

@[simp] theorem statuses_updated_self (index : ℕ) (status : TmTaskstatus)
    (events : List (TmEvent F)) :
    statuses index (.updated index status :: events) = status :: statuses index events := by
  simp [statuses, TmEvent.status?]

@[simp] theorem statuses_updated_of_ne {index reported : ℕ} (hne : reported ≠ index)
    (status : TmTaskstatus) (events : List (TmEvent F)) :
    statuses index (.updated reported status :: events) = statuses index events := by
  simp [statuses, TmEvent.status?, hne]

@[simp] theorem statuses_given (index reported : ℕ) (result : OsResult)
    (events : List (TmEvent F)) :
    statuses index (.given reported result :: events) = statuses index events := rfl

@[simp] theorem statuses_called (index reported : ℕ) (function : F) (argument : UInt64)
    (events : List (TmEvent F)) :
    statuses index (.called reported function argument :: events) = statuses index events := rfl

/-- A slot for a task returns its status once. -/
theorem statuses_events (index : ℕ) (task : TmTask F) :
    statuses index (task.events index) = [task.status] := by
  unfold TmTask.events TmTask.served
  split <;> simp

variable (P : TmPlatform F W)

/-- Serving a task returns no status, leaves the table alone, and causes events about the task. -/
theorem tmProcessTask_statuses (status : TmTaskstatus) {taskId : TmTaskId}
    (hrange : TmState.InRange taskId) (s : TmSystem F W) :
    ∃ events s', tmProcessTask P status taskId s = .ok (events, s') ∧
      s'.tm.tasks = s.tm.tasks ∧ (∀ event ∈ events, event.index = taskId.toInt.toNat) ∧
      ∀ index, statuses index events = [] := by
  cases status with
  | schedule =>
    simp only [tmProcessTask, s.tm.task_of_inRange hrange, pure_bind]
    split
    · split <;> exact ⟨_, _, rfl, rfl, by simp [TmEvent.index], fun _ => rfl⟩
    · split
      · split <;> exact ⟨_, _, rfl, rfl, by simp [TmEvent.index], fun _ => rfl⟩
      · exact ⟨_, _, rfl, rfl, by simp, fun _ => rfl⟩
  | missedHeartbeat | invalid | wait | error | other =>
    exact ⟨_, _, rfl, rfl, by simp, fun _ => rfl⟩

/-- The round of the loop for a task returns its status. -/
theorem roundsCause_status :
    P.RoundsCause fun index task events => statuses index events = [task.status] := by
  intro index h s
  obtain ⟨events, s', hprocess, htasks, hindex, hevents⟩ :=
    tmProcessTask_statuses P (s.tm.tasks index).status (inRange_ofNat h)
      { s with tm.tasks := Function.update s.tm.tasks index (s.tm.tasks index).next }
  rw [toNat_toInt_ofNat h] at hindex
  refine ⟨.updated index (s.tm.tasks index).status :: events, s', ?_, htasks,
    List.forall_mem_cons.mpr ⟨rfl, hindex⟩, by simp only [statuses_updated_self, hevents]⟩
  rw [tmSchedulerEntry_of_lt P h, hprocess]
  rfl

/-- Only events about a task tell its status. -/
theorem statuses_eventsAbout (index : ℕ) (events : List (TmEvent F)) :
    statuses index (eventsAbout index events) = statuses index events := by
  rw [statuses, eventsAbout, List.filterMap_filter]
  refine List.filterMap_congr fun event _ => ?_
  cases event with
  | updated reported status =>
    by_cases heq : reported = index <;> simp [TmEvent.status?, TmEvent.index, heq]
  | given reported result => simp [TmEvent.status?]
  | called reported function argument => simp [TmEvent.status?]

/-- A slot returns the status of every entry once, and what it makes of an entry depends on
this entry alone. -/
theorem tmSchedulerSlot_statuses {index : ℕ} (h : index < tmMaxTasks) (s : TmSystem F W) :
    ∃ events s', tmSchedulerSlot P s = .ok (events, s') ∧
      statuses index events = [(s.tm.tasks index).status] ∧
      s'.tm.tasks index = (s.tm.tasks index).next := by
  obtain ⟨events, s', hslot, hstatus, htask⟩ := (roundsCause_status P).slot h s
  exact ⟨events, s', hslot, by rw [← statuses_eventsAbout, hstatus], htask⟩

/-- A run of the table returns for each entry the statuses of the run of this entry by itself. -/
theorem runSteps_statuses {index : ℕ} (h : index < tmMaxTasks) {steps : List (TmStep F)}
    (hrange : ∀ step ∈ steps, step.InRange) (s : TmSystem F W) :
    ∃ slots s', runSteps P steps s = .ok (slots, s') ∧
      slots.map (statuses index) =
        ((s.tm.tasks index).runSteps index steps).1.map (statuses index) := by
  have hslot : ∀ s : TmSystem F W, ∃ events s', tmSchedulerSlot P s = .ok (events, s') ∧
      statuses index events = statuses index ((s.tm.tasks index).events index) ∧
      s'.tm.tasks index = (s.tm.tasks index).next := by
    intro s
    obtain ⟨events, s', hslot, hstatus, htask⟩ := tmSchedulerSlot_statuses P h s
    exact ⟨events, s', hslot, by rw [hstatus, statuses_events], htask⟩
  obtain ⟨slots, s', hrun, hslots, -⟩ :=
    runSteps_of_slot (statuses index) (statuses index) hslot hrange s
  exact ⟨slots, s', hrun, hslots⟩

end Statuses

section Registered

variable (P : TmPlatform F W)

/-- No later step of a run writes the entry that a call has written. -/
def TmCall.Latest (call : TmCall F) (steps : List (TmStep F)) : Prop :=
  ∀ later, .register later ∈ steps → later.index = call.index → later.entry = none

theorem inRange_slots (n : ℕ) : ∀ step ∈ List.replicate n (.slot : TmStep F), step.InRange := by
  intro step hmem
  rw [List.eq_of_mem_replicate hmem]
  exact trivial

theorem TmCall.latest_slots (call : TmCall F) (n : ℕ) : call.Latest (List.replicate n .slot) := by
  intro later hmem
  cases List.eq_of_mem_replicate hmem

@[simp] theorem countP_isSlot_slots (n : ℕ) :
    (List.replicate n (.slot : TmStep F)).countP TmStep.isSlot = n := by
  simp [List.countP_replicate, TmStep.isSlot]

/-- A call that returns `TM_RESULT_OKAY` has written its entry, inside the table. -/
theorem TmCall.entry_of_accepted {P : TmPlatform F W} {call : TmCall F} {s s₁ : TmSystem F W}
    (h : call.run P s = .ok (.okay, s₁)) :
    TmState.InRange call.taskId ∧
      ∃ task, call.entry = some task ∧ s₁.tm.tasks call.index = task := by
  cases hentry : call.entry with
  | none =>
    obtain ⟨result, hresult, hrun⟩ := run_refused P hentry
    rw [hrun s] at h
    cases h
    exact absurd rfl hresult
  | some task =>
    have hrange : TmState.InRange call.taskId := by
      by_contra hrange
      rw [run_fault P hentry hrange s] at h
      cases h
    rw [run_written P hentry hrange s] at h
    obtain ⟨-, rfl⟩ := Prod.mk.inj (Except.ok.inj h)
    exact ⟨hrange, task, rfl, call.written_tasks_self _ _ _⟩

/-- The statuses of the slots after a registration, counted from it on. -/
theorem runSteps_accepted {call : TmCall F} {task : TmTask F} (hentry : call.entry = some task)
    (hperiod : call.PeriodNonzero) {s s₁ : TmSystem F W}
    (haccepted : call.run P s = .ok (.okay, s₁)) {steps : List (TmStep F)}
    (hsteps : ∀ step ∈ steps, step.InRange) (hlatest : call.Latest steps) :
    ∃ slots s', runSteps P steps s₁ = .ok (slots, s') ∧
      slots.map (statuses call.index) = (List.range (steps.countP TmStep.isSlot)).map
        fun k => statuses call.index (task.scheduled call.index (k + 1)) := by
  obtain ⟨hrange, task', hentry', htask⟩ := TmCall.entry_of_accepted haccepted
  rw [hentry] at hentry'
  cases hentry'
  obtain ⟨slots, s', hrun, hslots⟩ := runSteps_statuses P (TmCall.index_lt hrange) hsteps s₁
  refine ⟨slots, s', hrun, ?_⟩
  rw [hslots, htask, ← TmCall.after_zero hentry,
    TmTask.runSteps_after (TmCall.periodical hentry hperiod) hlatest 0, List.map_map]
  refine List.map_congr_left fun k _ => ?_
  rw [Function.comp_apply, Nat.zero_add, TmCall.after_zero hentry]

end Registered

section Periods

/-- The period passed for a task that is to be scheduled. -/
def TmCall.period? : TmCall F → Option Int32
  | .periodicTask _ _ _ _ period _ _ _ | .callbackTask _ _ _ _ period => some period
  | .eventTask .. | .monitorTask .. => none

/-- What the registrations do not check: the heartbeat period of a periodic task and the period of a
callback task are not zero. -/
def TmCall.Schedulable : TmCall F → Prop
  | .periodicTask _ _ _ _ _ heartbeatPeriod _ _ => heartbeatPeriod ≠ 0
  | .callbackTask _ _ _ _ period => period ≠ 0
  | .eventTask .. | .monitorTask .. => True

instance : ∀ call : TmCall F, Decidable call.Schedulable
  | .periodicTask _ _ _ _ _ _ _ _ => inferInstanceAs (Decidable (_ ≠ _))
  | .callbackTask _ _ _ _ _ => inferInstanceAs (Decidable (_ ≠ _))
  | .eventTask .. => isTrue trivial
  | .monitorTask .. => isTrue trivial

/-- In every run after a registration that no later one replaces, the task is scheduled once in so
many consecutive slots. -/
def TmCall.RunsAtPeriod (P : TmPlatform F W) (call : TmCall F) (p : ℕ) (s : TmSystem F W) : Prop :=
  1 ≤ p ∧ ∀ steps : List (TmStep F), (∀ step ∈ steps, step.InRange) → call.Latest steps →
    ∃ slots s', runSteps P steps s = .ok (slots, s') ∧
      ∀ first, first + p ≤ slots.length →
        (((slots.drop first).take p).flatMap (statuses call.index)).count .schedule = 1

/-- A task that is scheduled in the slots that its period divides has been scheduled once for each
period that has passed. -/
theorem count_schedule_take {index p m : ℕ} {slots : List (List (TmEvent F))}
    {slotStatuses : ℕ → List TmTaskstatus}
    (hslots : slots.map (statuses index) = (List.range m).map slotStatuses)
    (hdue : ∀ k, (slotStatuses k).count .schedule = if p ∣ k + 1 then 1 else 0) {n : ℕ}
    (hn : n ≤ slots.length) :
    ((slots.take n).flatMap (statuses index)).count .schedule = n / p := by
  have hlength : slots.length = m := by simpa using congrArg List.length hslots
  have hcount : ∀ n, (((List.range n).map slotStatuses).flatten).count .schedule = n / p := by
    intro n
    induction n with
    | zero => simp
    | succ n ih => simp [List.range_succ, ih, hdue, Nat.succ_div]
  rw [List.flatMap_def, List.map_take, hslots, ← List.map_take, List.take_range,
    Nat.min_eq_left (by omega), hcount]

/-- Such a task is scheduled once in every period. -/
theorem count_schedule_window {index p m : ℕ} (hp : 0 < p) {slots : List (List (TmEvent F))}
    {slotStatuses : ℕ → List TmTaskstatus}
    (hslots : slots.map (statuses index) = (List.range m).map slotStatuses)
    (hdue : ∀ k, (slotStatuses k).count .schedule = if p ∣ k + 1 then 1 else 0) {first : ℕ}
    (hfirst : first + p ≤ slots.length) :
    (((slots.drop first).take p).flatMap (statuses index)).count .schedule = 1 := by
  have hsplit := count_schedule_take hslots hdue hfirst
  rw [List.take_add, List.flatMap_append, List.count_append,
    count_schedule_take hslots hdue (by omega), Nat.add_div_right _ hp] at hsplit
  omega

/-- The status of a task that is not overrun in a slot. -/
theorem statuses_scheduled_periodic (index : ℕ) {task : TmTask F} (htype : task.type = .periodic)
    (n : ℕ) :
    statuses index (task.scheduled index n) =
      [if task.heartbeatPeriod.toNat ≤ n % task.schedulePeriod.toNat then .missedHeartbeat
        else if task.schedulePeriod.toNat ∣ n then .schedule else .wait] := by
  unfold TmTask.scheduled
  simp only [htype]
  split_ifs <;> simp

theorem statuses_scheduled_callback (index : ℕ) {task : TmTask F} (htype : task.type = .callback)
    (n : ℕ) :
    statuses index (task.scheduled index n) =
      [if task.schedulePeriod.toNat ∣ n then .schedule else .wait] := by
  unfold TmTask.scheduled
  simp only [htype]
  cases task.function <;> dsimp only <;> split_ifs <;> simp

theorem statuses_scheduled_event (index : ℕ) {task : TmTask F} (htype : task.type = .event)
    (n : ℕ) :
    statuses index (task.scheduled index n) =
      [if task.heartbeatPeriod.toNat ≤ n % 2 ^ 32 then .missedHeartbeat else .wait] := by
  unfold TmTask.scheduled
  simp only [htype]
  split_ifs <;> simp

/-- What an accepted registration of a periodic task has passed on. -/
theorem TmCall.entry_periodicTask {taskName : Option (List UInt8)} {taskId : TmTaskId}
    {taskFunction : Option F} {taskArgument : UInt64}
    {period heartbeatPeriod stackSize priority : Int32} {task : TmTask F}
    (h : (TmCall.periodicTask taskName taskId taskFunction taskArgument period heartbeatPeriod
      stackSize priority).entry = some task) :
    period ≠ 0 ∧ task.type = .periodic ∧ task.schedulePeriod = period.toUInt32 ∧
      task.heartbeatPeriod = heartbeatPeriod.toUInt32 := by
  rcases taskName with _ | name <;> rcases taskFunction with _ | function
  case some.some =>
    simp only [entry] at h
    split at h
    next => cases h
    next hne =>
      cases h
      exact ⟨hne, rfl, rfl, rfl⟩
  all_goals cases h

/-- What an accepted registration of a callback task has passed on. -/
theorem TmCall.entry_callbackTask {taskName : Option (List UInt8)} {taskId : TmTaskId}
    {taskFunction : Option F} {taskArgument : UInt64} {period : Int32} {task : TmTask F}
    (h : (TmCall.callbackTask taskName taskId taskFunction taskArgument period).entry = some task) :
    task.type = .callback ∧ task.schedulePeriod = period.toUInt32 := by
  rcases taskName with _ | name <;> rcases taskFunction with _ | function
  case some.some =>
    cases h
    exact ⟨rfl, rfl⟩
  all_goals cases h

/-- A task that is due in the slots that its period divides runs at its period. -/
theorem TmCall.runsAtPeriod_of_due {P : TmPlatform F W} {call : TmCall F} {task : TmTask F}
    (hentry : call.entry = some task) (hperiod : call.PeriodNonzero) {s s₁ : TmSystem F W}
    (haccepted : call.run P s = .ok (.okay, s₁)) {p : ℕ} (hp : 0 < p)
    (hdue : ∀ n, (statuses call.index (task.scheduled call.index (n + 1))).count .schedule =
      if p ∣ n + 1 then 1 else 0) : call.RunsAtPeriod P p s₁ := by
  refine ⟨hp, fun steps hsteps hlatest => ?_⟩
  obtain ⟨slots, s', hrun, hslots⟩ := runSteps_accepted P hentry hperiod haccepted hsteps hlatest
  exact ⟨slots, s', hrun, fun first hfirst => count_schedule_window hp hslots hdue hfirst⟩

/-- A task that is due in no slot does not run at any period. -/
theorem TmCall.not_runsAtPeriod_of_never {P : TmPlatform F W} {call : TmCall F} {task : TmTask F}
    (hentry : call.entry = some task) (hperiod : call.PeriodNonzero) {s s₁ : TmSystem F W}
    (haccepted : call.run P s = .ok (.okay, s₁))
    (hnever : ∀ n, .schedule ∉ statuses call.index (task.scheduled call.index (n + 1))) (p : ℕ) :
    ¬call.RunsAtPeriod P p s₁ := by
  rintro ⟨hp, hruns⟩
  obtain ⟨slots, s', hrun, hslots⟩ := runSteps_accepted P hentry hperiod haccepted
    (inRange_slots p) (call.latest_slots p)
  obtain ⟨slots', s'', hrun', hwindows⟩ := hruns _ (inRange_slots p) (call.latest_slots p)
  rw [hrun] at hrun'
  cases hrun'
  have hlength : slots.length = p := by simpa using congrArg List.length hslots
  have hwindow := hwindows 0 (by omega)
  have hscheduled : .schedule ∈ ((slots.drop 0).take p).flatMap (statuses call.index) :=
    List.count_pos_iff.mp (by omega)
  obtain ⟨events, hevents, hmem⟩ := List.mem_flatMap.mp hscheduled
  have hreturned : statuses call.index events ∈ slots.map (statuses call.index) :=
    List.mem_map_of_mem (List.mem_of_mem_drop (List.mem_of_mem_take hevents))
  rw [hslots] at hreturned
  obtain ⟨n, -, heq⟩ := List.mem_map.mp hreturned
  exact hnever n (heq ▸ hmem)

/-- A periodic task with a heartbeat period is due in the slots that its period divides. -/
theorem count_scheduled_periodic (index : ℕ) {task : TmTask F} (htype : task.type = .periodic)
    (hnonzero : task.heartbeatPeriod ≠ 0) (n : ℕ) :
    (statuses index (task.scheduled index n)).count .schedule =
      if task.schedulePeriod.toNat ∣ n then 1 else 0 := by
  have hheartbeat := toNat_pos_of_ne_zero hnonzero
  rw [statuses_scheduled_periodic _ htype]
  by_cases hdvd : task.schedulePeriod.toNat ∣ n
  · rw [Nat.mod_eq_zero_of_dvd hdvd, if_neg (by omega), if_pos hdvd, if_pos hdvd]
    rfl
  · rw [if_neg hdvd, if_neg hdvd]
    split <;> rfl

/-- A periodic task runs at its period exactly if its heartbeat period is not zero. -/
theorem TmCall.runsAtPeriod_iff_of_periodic {P : TmPlatform F W} {call : TmCall F} {task : TmTask F}
    (hentry : call.entry = some task) (hperiod : call.PeriodNonzero) {s s₁ : TmSystem F W}
    (haccepted : call.run P s = .ok (.okay, s₁)) (htype : task.type = .periodic)
    (hpositive : 0 < task.schedulePeriod.toNat) :
    call.RunsAtPeriod P task.schedulePeriod.toNat s₁ ↔ task.heartbeatPeriod ≠ 0 := by
  constructor
  · intro hruns hzero
    refine not_runsAtPeriod_of_never hentry hperiod haccepted (fun n => ?_) _ hruns
    rw [statuses_scheduled_periodic _ htype, hzero,
      if_pos (show (0 : UInt32).toNat ≤ _ from Nat.zero_le _)]
    decide
  · intro hnonzero
    exact runsAtPeriod_of_due hentry hperiod haccepted hpositive fun n =>
      count_scheduled_periodic _ htype hnonzero (n + 1)

/-- A callback task with a period runs at it. -/
theorem TmCall.runsAtPeriod_of_callback {P : TmPlatform F W} {call : TmCall F} {task : TmTask F}
    (hentry : call.entry = some task) (hperiod : call.PeriodNonzero) {s s₁ : TmSystem F W}
    (haccepted : call.run P s = .ok (.okay, s₁)) (htype : task.type = .callback)
    (hpositive : 0 < task.schedulePeriod.toNat) :
    call.RunsAtPeriod P task.schedulePeriod.toNat s₁ := by
  refine runsAtPeriod_of_due hentry hperiod haccepted hpositive fun n => ?_
  rw [statuses_scheduled_callback _ htype]
  by_cases hdvd : task.schedulePeriod.toNat ∣ n + 1
  · rw [if_pos hdvd, if_pos hdvd]
    rfl
  · rw [if_neg hdvd, if_neg hdvd]
    rfl

/-- A registration that returns `TM_RESULT_OKAY` makes its task run at its period exactly if the
heartbeat period of a periodic task, and the period of a callback task, is not zero. -/
theorem tm_accepted_runs_at_period_iff (P : TmPlatform F W) (call : TmCall F) (period : Int32)
    (hcall : call.period? = some period) (s s₁ : TmSystem F W)
    (haccepted : call.run P s = .ok (.okay, s₁)) :
    call.RunsAtPeriod P period.toUInt32.toNat s₁ ↔ call.Schedulable := by
  obtain ⟨-, task, hentry, -⟩ := TmCall.entry_of_accepted haccepted
  cases call with
  | periodicTask taskName taskId taskFunction taskArgument period' heartbeatPeriod stackSize
      priority =>
    cases hcall
    obtain ⟨hne, htype, hschedule, hheartbeat⟩ := TmCall.entry_periodicTask hentry
    have hpositive := toNat_pos_of_ne_zero (toUInt32_ne_zero hne)
    rw [← hschedule] at hpositive ⊢
    rw [TmCall.runsAtPeriod_iff_of_periodic hentry trivial haccepted htype hpositive, hheartbeat]
    exact ⟨fun hnonzero hzero => hnonzero (by rw [hzero]; rfl), toUInt32_ne_zero⟩
  | callbackTask taskName taskId taskFunction taskArgument period' =>
    cases hcall
    obtain ⟨htype, hschedule⟩ := TmCall.entry_callbackTask hentry
    constructor
    · rintro ⟨hpositive, -⟩ (rfl : period = 0)
      exact absurd hpositive (by decide)
    · intro hnonzero
      have hpositive := toNat_pos_of_ne_zero (toUInt32_ne_zero hnonzero)
      rw [← hschedule] at hpositive ⊢
      exact TmCall.runsAtPeriod_of_callback hentry hnonzero haccepted htype hpositive
  | eventTask taskName taskId taskFunction taskArgument heartbeatPeriod stackSize priority =>
    cases hcall
  | monitorTask taskName taskId => cases hcall

/-- A task to be scheduled every third slot, with a heartbeat period of two. -/
theorem tm_accepted_runs_at_period_iff_third :
    ∃ s₁, everyThirdSlot.run givingPlatform emptyTable = .ok (.okay, s₁) ∧
      everyThirdSlot.RunsAtPeriod givingPlatform 3 s₁ :=
  ⟨_, rfl, (tm_accepted_runs_at_period_iff givingPlatform everyThirdSlot 3 rfl emptyTable _ rfl).mpr
    (by decide)⟩

/-- A period of zero is accepted for a callback task. -/
theorem tm_accepted_runs_at_period_not :
    ¬∀ (call : TmCall Unit) (period : Int32), call.period? = some period →
      ∀ s s₁ : TmSystem Unit Unit, call.run givingPlatform s = .ok (.okay, s₁) →
        call.RunsAtPeriod givingPlatform period.toUInt32.toNat s₁ := by
  intro h
  have hruns := h (.callbackTask (some []) 5 (some ()) 0 0) 0 rfl emptyTable _ rfl
  exact absurd hruns.1 (by decide)

end Periods

section Heartbeats

/-- What an accepted registration of an event task has passed on. -/
theorem TmCall.entry_eventTask {taskName : Option (List UInt8)} {taskId : TmTaskId}
    {taskFunction : Option F} {taskArgument : UInt64} {heartbeatPeriod stackSize priority : Int32}
    {task : TmTask F}
    (h : (TmCall.eventTask taskName taskId taskFunction taskArgument heartbeatPeriod stackSize
      priority).entry = some task) :
    task.type = .event ∧ task.heartbeatPeriod = heartbeatPeriod.toUInt32 := by
  rcases taskName with _ | name <;> rcases taskFunction with _ | function
  case some.some =>
    cases h
    exact ⟨rfl, rfl⟩
  all_goals cases h

/-- The heartbeat period that is passed for an event task. -/
def TmCall.eventHeartbeat? : TmCall F → Option Int32
  | .eventTask _ _ _ _ heartbeatPeriod _ _ => some heartbeatPeriod
  | .periodicTask .. | .callbackTask .. | .monitorTask .. => none

/-- The slots after the registration of an event task in which it is reported: those whose number,
modulo 2^32, is not below the heartbeat period. -/
theorem runSteps_eventTask {P : TmPlatform F W} {call : TmCall F} {heartbeatPeriod : Int32}
    (hcall : call.eventHeartbeat? = some heartbeatPeriod) {s s₁ : TmSystem F W}
    (haccepted : call.run P s = .ok (.okay, s₁)) {steps : List (TmStep F)}
    (hsteps : ∀ step ∈ steps, step.InRange) (hlatest : call.Latest steps) :
    ∃ slots s', runSteps P steps s₁ = .ok (slots, s') ∧ slots.length = steps.countP TmStep.isSlot ∧
      ∀ n events, slots[n]? = some events →
        (.missedHeartbeat ∈ statuses call.index events ↔
          heartbeatPeriod.toUInt32.toNat ≤ (n + 1) % 2 ^ 32) := by
  obtain ⟨-, task, hentry, -⟩ := TmCall.entry_of_accepted haccepted
  cases call with
  | eventTask taskName taskId taskFunction taskArgument heartbeatPeriod' stackSize priority =>
    cases hcall
    obtain ⟨htype, hheartbeat⟩ := TmCall.entry_eventTask hentry
    obtain ⟨slots, s', hrun, hslots⟩ :=
      runSteps_accepted P hentry trivial haccepted hsteps hlatest
    refine ⟨slots, s', hrun, by simpa using congrArg List.length hslots, fun n events hevents => ?_⟩
    have hnth := congrArg (·[n]?) hslots
    simp only [List.getElem?_map, hevents, Option.map_some] at hnth
    obtain ⟨k, hk, heq⟩ := Option.map_eq_some_iff.mp hnth.symm
    obtain ⟨_, hindex⟩ := List.getElem?_eq_some_iff.mp hk
    rw [List.getElem_range] at hindex
    subst hindex
    rw [← heq, statuses_scheduled_event _ htype, hheartbeat]
    split
    next hle => exact iff_of_true List.mem_cons_self hle
    next hlt => exact iff_of_false (by decide) hlt
  | periodicTask taskName taskId taskFunction taskArgument period heartbeatPeriod' stackSize
      priority =>
    cases hcall
  | callbackTask taskName taskId taskFunction taskArgument period => cases hcall
  | monitorTask taskName taskId => cases hcall

/-- An event task with a heartbeat period of at least one is reported in every slot from the slot of
this number on, in a run of so many slots, exactly if these are fewer than 2^32. -/
theorem tm_event_heartbeat_iff (P : TmPlatform F W) (call : TmCall F) (heartbeatPeriod : Int32)
    (hcall : call.eventHeartbeat? = some heartbeatPeriod)
    (hpositive : 1 ≤ heartbeatPeriod.toUInt32.toNat) (s s₁ : TmSystem F W)
    (haccepted : call.run P s = .ok (.okay, s₁)) (steps : List (TmStep F))
    (hsteps : ∀ step ∈ steps, step.InRange) (hlatest : call.Latest steps) :
    ∃ slots s', runSteps P steps s₁ = .ok (slots, s') ∧
      ((∀ n events, slots[n]? = some events →
          (.missedHeartbeat ∈ statuses call.index events ↔
            heartbeatPeriod.toUInt32.toNat ≤ n + 1)) ↔
        steps.countP TmStep.isSlot < 2 ^ 32) := by
  obtain ⟨slots, s', hrun, hlength, hmissed⟩ := runSteps_eventTask hcall haccepted hsteps hlatest
  refine ⟨slots, s', hrun, ?_, ?_⟩
  · intro hexact
    by_contra hlong
    have hlast : 2 ^ 32 - 1 < slots.length := by omega
    have hevents := List.getElem?_eq_getElem hlast
    have hreported := (hexact _ _ hevents).mpr ?_
    · have hwrapped := (hmissed _ _ hevents).mp hreported
      omega
    · have hlt := heartbeatPeriod.toUInt32.toNat_lt
      omega
  · intro hshort n events hevents
    have hn : n < slots.length := (List.getElem?_eq_some_iff.mp hevents).1
    rw [hmissed n events hevents, Nat.mod_eq_of_lt (by omega)]

/-- An event task with a heartbeat period of one slot. -/
def heartbeatEverySlot : TmCall Unit := .eventTask (some []) 5 (some ()) 0 1 0 0

/-- It is reported in each of three slots. -/
theorem tm_event_heartbeat_iff_three_slots :
    ∃ s₁ slots s', heartbeatEverySlot.run givingPlatform emptyTable = .ok (.okay, s₁) ∧
      runSteps givingPlatform [.slot, .slot, .slot] s₁ = .ok (slots, s') ∧
      ∀ n events, slots[n]? = some events →
        (.missedHeartbeat ∈ statuses heartbeatEverySlot.index events ↔ 1 ≤ n + 1) := by
  obtain ⟨slots, s', hrun, hexact⟩ := tm_event_heartbeat_iff givingPlatform heartbeatEverySlot 1 rfl
    (by decide) emptyTable _ rfl (List.replicate 3 .slot) (inRange_slots 3)
    (heartbeatEverySlot.latest_slots 3)
  exact ⟨_, slots, s', rfl, hrun, hexact.mpr (by decide)⟩

/-- In slot 2^32 its count is zero again. -/
theorem tm_event_heartbeat_not :
    ¬∀ (s₁ : TmSystem Unit Unit) (steps : List (TmStep Unit)),
      heartbeatEverySlot.run givingPlatform emptyTable = .ok (.okay, s₁) →
      (∀ step ∈ steps, step.InRange) → heartbeatEverySlot.Latest steps →
      ∃ slots s', runSteps givingPlatform steps s₁ = .ok (slots, s') ∧
        ∀ n events, slots[n]? = some events →
          (.missedHeartbeat ∈ statuses heartbeatEverySlot.index events ↔ 1 ≤ n + 1) := by
  intro h
  have hsteps := inRange_slots (F := Unit) (2 ^ 32)
  have hlatest := heartbeatEverySlot.latest_slots (2 ^ 32)
  obtain ⟨slots, s', hrun, hlength, hmissed⟩ := runSteps_eventTask (P := givingPlatform)
    (s := emptyTable) (show heartbeatEverySlot.eventHeartbeat? = some 1 from rfl) rfl hsteps hlatest
  obtain ⟨slots', s'', hrun', hexact⟩ := h _ _ rfl hsteps hlatest
  rw [hrun] at hrun'
  cases hrun'
  rw [countP_isSlot_slots] at hlength
  have hlast : 2 ^ 32 - 1 < slots.length := by omega
  have hevents := List.getElem?_eq_getElem hlast
  have hwrapped := (hmissed _ _ hevents).mp ((hexact _ _ hevents).mpr (by omega))
  exact absurd hwrapped (by decide)

end Heartbeats

end Protoflight
