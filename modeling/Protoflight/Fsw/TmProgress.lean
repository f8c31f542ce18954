import Protoflight.Fsw.TmPeriods
import Protoflight.Fsw.TmUnits

/-!
# The schedule in any order of steps

Whatever the order in which the timer, the scheduler and the threads of the tasks go on, a slot
begins for each tick, and what the scheduler decides about a task is determined by the number of
these slots. It does not depend on whether the task takes its semaphore.
-/

namespace Protoflight

variable {F G V : Type}

section Steps

variable {C : TmCallbacks F V} {s s' : TmScheduling F V} {moves : List (TmMove F)}
  {moment : TmMoment}

/-- What a step does to the started system. -/
inductive TmScheduling.Effect (C : TmCallbacks F V) (s : TmScheduling F V) :
    TmMoment → List (TmMove F) → TmScheduling F V → Prop where
  | tick : Effect C s .tick []
    { s with system.os := s.system.os.setSchedule (some (semPost s.system.os.schedule).2) }
  | stop : Effect C s .stop [] { s with system.tm.continueRunning := false }
  | taken {index : ℕ} {sem : Sem} (ne : index ≠ tmSchedulerIndex)
    (take : (s.system.os.tasks index).take = some sem) : Effect C s (.take index) [.taken index]
      { s with system.os := s.system.os.setTask index (some sem) }
  | checked (interrupted : Bool) (phase : s.phase = .loopHead) :
    Effect C s (.scheduler interrupted) []
      { s with phase := if s.system.tm.continueRunning then .taking else .release 0 }
  | failed (phase : s.phase = .taking) : Effect C s (.scheduler true) []
    { s with system.tm.continueRunning := false, phase := .loopHead }
  | begun {schedule : Sem} (phase : s.phase = .taking)
    (take : s.system.os.schedule.take = some schedule) : Effect C s (.scheduler false) []
      { s with system.os.schedule := schedule, phase := .slot 0 }
  | served (interrupted : Bool) {index : ℕ} {events : List (TmEvent F)}
    {system : TmSystem F (TmSems V)} (phase : s.phase = .slot index) (lt : index < tmMaxTasks)
    (entry : tmSchedulerEntry C.posix (Int32.ofNat index) s.system = .ok (events, system)) :
    Effect C s (.scheduler interrupted) (events.map .entry)
      { s with system := system, phase := .slot (index + 1) }
  | ended (interrupted : Bool) {index : ℕ} (phase : s.phase = .slot index)
    (le : tmMaxTasks ≤ index) : Effect C s (.scheduler interrupted) []
      { s with phase := .loopHead }
  | released (interrupted : Bool) {index : ℕ} {events : List (TmEvent F)}
    {system : TmSystem F (TmSems V)} (phase : s.phase = .release index) (lt : index < tmMaxTasks)
    (release : tmReleaseTasks C.posix [index] s.system = .ok (events, system)) :
    Effect C s (.scheduler interrupted) []
      { s with system := system, phase := .release (index + 1) }
  | finished (interrupted : Bool) {index : ℕ} (phase : s.phase = .release index)
    (le : tmMaxTasks ≤ index) : Effect C s (.scheduler interrupted) []
      { s with phase := .finished }

/-- A step of the thread of `tm_scheduler_task` has such an effect. -/
theorem schedulerStep_effect {interrupted : Bool}
    (h : s.schedulerStep C interrupted = some (moves, s')) :
    s.Effect C (.scheduler interrupted) moves s' := by
  simp only [TmScheduling.schedulerStep] at h
  cases hphase : s.phase with
  | loopHead =>
    rw [hphase] at h
    cases h
    exact .checked interrupted hphase
  | taking =>
    simp only [hphase] at h
    cases interrupted with
    | true =>
      cases h
      exact .failed hphase
    | false =>
      obtain ⟨schedule, htake, h⟩ := Option.bind_eq_some_iff.mp h
      cases h
      exact .begun hphase htake
  | slot index =>
    simp only [hphase] at h
    split at h
    next hlt =>
      obtain ⟨⟨events, system⟩, hentry, h⟩ := Option.bind_eq_some_iff.mp h
      cases h
      exact .served interrupted hphase hlt (eq_ok_of_toOption hentry)
    next hle =>
      cases h
      exact .ended interrupted hphase (Nat.le_of_not_lt hle)
  | release index =>
    simp only [hphase] at h
    split at h
    next hlt =>
      obtain ⟨⟨events, system⟩, hrelease, h⟩ := Option.bind_eq_some_iff.mp h
      cases h
      exact .released interrupted hphase hlt (eq_ok_of_toOption hrelease)
    next hle =>
      cases h
      exact .finished interrupted hphase (Nat.le_of_not_lt hle)
  | finished =>
    rw [hphase] at h
    cases h

/-- Every step has one of these effects. -/
theorem step_effect (h : s.step C moment = some (moves, s')) : s.Effect C moment moves s' := by
  cases moment with
  | tick =>
    cases h
    rw [osSemGive_some]
    exact .tick
  | stop =>
    cases h
    exact .stop
  | take index =>
    simp only [TmScheduling.step] at h
    split at h
    next hindex =>
      obtain ⟨sem, htake, h⟩ := Option.bind_eq_some_iff.mp h
      cases h
      exact .taken hindex.2.1 htake
    next => cases h
  | scheduler interrupted => exact schedulerStep_effect h

/-- What holds at the start and is kept by every step, holds after a run. -/
theorem run_keeps {I : List TmMoment → List (TmMove F) → TmScheduling F V → Prop}
    (hstart : I [] [] s)
    (hstep : ∀ moments moves t moment more u, I moments moves t → t.Effect C moment more u →
      I (moments ++ [moment]) (moves ++ more) u)
    {moments : List TmMoment} (hrun : s.run C moments = some (moves, s')) :
    I moments moves s' := by
  have hrest : ∀ rest before told (t : TmScheduling F V) moves, I before told t →
      t.run C rest = some (moves, s') → I (before ++ rest) (told ++ moves) s' := by
    intro rest
    induction rest with
    | nil =>
      intro before told t moves hbefore hrun
      cases hrun
      rwa [List.append_nil, List.append_nil]
    | cons moment rest ih =>
      intro before told t moves hbefore hrun
      obtain ⟨⟨first, u⟩, hmoment, hrun⟩ := Option.bind_eq_some_iff.mp hrun
      obtain ⟨⟨later, v⟩, hlater, hrun⟩ := Option.bind_eq_some_iff.mp hrun
      cases hrun
      have hnext := hstep before told t moment first u hbefore (step_effect hmoment)
      have hall := ih _ _ u later hnext hlater
      rwa [List.append_assoc, List.append_assoc] at hall
  exact hrest moments [] [] s moves hstart hrun

end Steps

section Entries

variable {C : TmCallbacks F V} {index : ℕ} {events : List (TmEvent F)}
  {s s' : TmSystem F (TmSems V)}

/-- What the round of the loop of a slot for an entry does. -/
structure TmSystem.Served (index : ℕ) (s : TmSystem F (TmSems V)) (events : List (TmEvent F))
    (s' : TmSystem F (TmSems V)) : Prop where
  tasks : s'.tm.tasks = Function.update s.tm.tasks index (s.tm.tasks index).next
  schedule : s'.os.schedule = s.os.schedule
  statuses : ∀ other,
    statuses other events = if other = index then [(s.tm.tasks index).status] else []
  given : (s.tm.tasks index).Due →
    s'.os.tasks = Function.update s.os.tasks index (semPost (s.os.tasks index)).2
  left : ¬(s.tm.tasks index).Due → s'.os.tasks = s.os.tasks

/-- Events about one task tell no status of another one. -/
theorem statuses_eq_nil_of_index {events : List (TmEvent F)}
    (hevents : ∀ event ∈ events, event.index = index) {other : ℕ} (hne : other ≠ index) :
    statuses other events = [] := by
  refine List.filterMap_eq_nil_iff.mpr fun event hmem => ?_
  have hindex := hevents event hmem
  cases event with
  | updated reported status => exact if_neg fun heq => hne (heq.symm.trans hindex)
  | given | called => rfl

theorem tmSchedulerEntry_served (hlt : index < tmMaxTasks)
    (h : tmSchedulerEntry C.posix (Int32.ofNat index) s = .ok (events, s')) :
    s.Served index events s' := by
  obtain ⟨events', t, hentry, htasks, hindex, hstatus⟩ := roundsCause_status C.posix index hlt s
  obtain ⟨rfl, rfl⟩ := Prod.mk.inj (Except.ok.inj (hentry.symm.trans h))
  have hstatuses : ∀ other,
      statuses other events' = if other = index then [(s.tm.tasks index).status] else [] := by
    intro other
    split
    next heq => rw [heq, hstatus]
    next hne => exact statuses_eq_nil_of_index hindex hne
  by_cases hdue : (s.tm.tasks index).Due
  · obtain ⟨u, hgives, -, -, hos⟩ := tmSchedulerEntry_gives (C := C) hlt hdue
    obtain ⟨-, rfl⟩ := Prod.mk.inj (Except.ok.inj (hgives.symm.trans h))
    exact ⟨htasks, by rw [hos]; rfl, hstatuses, fun _ => by rw [hos]; rfl,
      fun hnot => absurd hdue hnot⟩
  · obtain ⟨status, called, u, hleaves, -, -, hsems, hschedule, -⟩ :=
      tmSchedulerEntry_leaves (C := C) hlt hdue
    obtain ⟨-, rfl⟩ := Prod.mk.inj (Except.ok.inj (hleaves.symm.trans h))
    exact ⟨htasks, hschedule, hstatuses, fun h => absurd h hdue, fun _ => hsems⟩

/-- What a round of the last loop does. -/
structure TmSystem.Released (index : ℕ) (s s' : TmSystem F (TmSems V)) : Prop where
  tm : s'.tm = s.tm
  schedule : s'.os.schedule = s.os.schedule
  given : (s.tm.tasks index).type = .periodic →
    s'.os.tasks = Function.update s.os.tasks index (semPost (s.os.tasks index)).2
  left : (s.tm.tasks index).type ≠ .periodic → s'.os.tasks = s.os.tasks

theorem tmReleaseTasks_released (hlt : index < tmMaxTasks)
    (h : tmReleaseTasks C.posix [index] s = .ok (events, s')) : s.Released index s' := by
  simp only [tmReleaseTasks, s.tm.task_of_inRange (inRange_ofNat hlt), toNat_toInt_ofNat hlt,
    pure_bind, posix_semGive] at h
  by_cases htype : (s.tm.tasks index).type = .periodic
  · rw [if_pos htype] at h
    obtain ⟨-, rfl⟩ := Prod.mk.inj (Except.ok.inj h)
    exact ⟨rfl, rfl, fun _ => rfl, fun hnot => absurd htype hnot⟩
  · rw [if_neg htype] at h
    obtain ⟨-, rfl⟩ := Prod.mk.inj (Except.ok.inj h)
    exact ⟨rfl, rfl, fun h => absurd h htype, fun _ => rfl⟩

end Entries

section Slots

/-- The status of a task in a slot, counted from one since its registration. -/
def TmTask.statusIn (task : TmTask F) (n : ℕ) : TmTaskstatus :=
  match task.type with
  | .periodic =>
    if task.heartbeatPeriod.toNat ≤ n % task.schedulePeriod.toNat then .missedHeartbeat
    else if task.schedulePeriod.toNat ∣ n then .schedule else .wait
  | .event => if task.heartbeatPeriod.toNat ≤ n % 2 ^ 32 then .missedHeartbeat else .wait
  | .callback => if task.schedulePeriod.toNat ∣ n then .schedule else .wait
  | .monitor => .wait
  | .invalid => .error
  | .other _ => .invalid

theorem TmTask.statuses_scheduled (task : TmTask F) (index n : ℕ) :
    statuses index (task.scheduled index n) = [task.statusIn n] := by
  cases htype : task.type with
  | periodic => rw [statuses_scheduled_periodic index htype, statusIn, htype]
  | callback => rw [statuses_scheduled_callback index htype, statusIn, htype]
  | event => rw [statuses_scheduled_event index htype, statusIn, htype]
  | monitor | invalid | other =>
    simp only [scheduled, statusIn, htype, statuses_updated_self, statuses_nil]

theorem TmTask.status_after {task : TmTask F} (hperiod : task.Periodical) (n : ℕ) :
    (task.after n).status = task.statusIn (n + 1) := by
  have hevents := congrArg (statuses 0) (events_after hperiod 0 n)
  rw [statuses_events, statuses_scheduled] at hevents
  exact List.head_eq_of_cons_eq hevents

/-- An entry as a registration leaves it. Callbacks with a period of zero, which `tm_callback_task`
accepts, are left out. -/
structure TmTask.Registered (task : TmTask F) : Prop where
  periodical : task.Periodical
  ticks : task.ticks = 0

theorem TmTask.Registered.after_zero {task : TmTask F} (h : task.Registered) :
    task.after 0 = task := by
  have hticks : UInt32.ofNat (task.ticksAfter 0) = task.ticks := by
    rw [h.ticks, TmTask.ticksAfter]
    cases task.type <;> simp
  rw [TmTask.after, hticks]

/-- The timer has called `tm_schedule_callback`. -/
def TmMoment.isTick : TmMoment → Bool
  | .tick => true
  | .stop | .scheduler _ | .take _ => false

/-- How often the timer has called `tm_schedule_callback`. -/
def ticks (moments : List TmMoment) : ℕ := moments.countP TmMoment.isTick

/-- How many of the slots that have begun have come to an entry. -/
def TmSchedulerPhase.rounds (slots index : ℕ) : TmSchedulerPhase → ℕ
  | .slot current => if current ≤ index then slots - 1 else slots
  | .loopHead | .taking | .release _ | .finished => slots

/-- The event of a slot that is to be seen, if it is one. -/
def TmMove.event? : TmMove F → Option (TmEvent F)
  | .entry event => some event
  | .taken _ => none

/-- The statuses of a task that are to be seen. -/
def statusesSeen (index : ℕ) (moves : List (TmMove F)) : List TmTaskstatus :=
  statuses index (moves.filterMap TmMove.event?)

end Slots

section Progress

variable {C : TmCallbacks F V} {s₀ s s' : TmScheduling F V} {moments : List TmMoment}
  {moves more : List (TmMove F)} {moment : TmMoment} {slots : ℕ}

theorem statusesSeen_append (index : ℕ) (moves more : List (TmMove F)) :
    statusesSeen index (moves ++ more) = statusesSeen index moves ++ statusesSeen index more := by
  rw [statusesSeen, List.filterMap_append, statuses_append]
  rfl

theorem statusesSeen_events (index : ℕ) (events : List (TmEvent F)) :
    statusesSeen index (events.map .entry) = statuses index events := by
  rw [statusesSeen, List.filterMap_map]
  exact congrArg (statuses index) List.filterMap_some

/-- The units of the semaphore of the schedule. -/
def TmScheduling.scheduleUnits (s : TmScheduling F V) : ℕ := s.system.os.schedule.value

/-- Each tick has had a slot begin, is waiting for one, or has been lost at the bound of the
semaphore. -/
structure TmScheduling.TicksKept (s : TmScheduling F V) (s₀ : TmScheduling F V)
    (ticks slots : ℕ) : Prop where
  le : slots + s.scheduleUnits ≤ s₀.scheduleUnits + ticks
  eq : s₀.scheduleUnits + ticks ≤ semValueMax →
    slots + s.scheduleUnits = s₀.scheduleUnits + ticks
  /-- The scheduler is in a slot that has begun. -/
  pos : ∀ index, s.phase = .slot index → 0 < slots

/-- The entries of the table are those of the slots that have come to them, and so is what has been
decided about the tasks. -/
structure TmScheduling.Follows (s : TmScheduling F V) (s₀ : TmScheduling F V) (slots : ℕ)
    (moves : List (TmMove F)) : Prop where
  tasks : ∀ index < tmMaxTasks,
    s.system.tm.tasks index = (s₀.system.tm.tasks index).after (s.phase.rounds slots index)
  statuses : ∀ index < tmMaxTasks, statusesSeen index moves =
    (List.range (s.phase.rounds slots index)).map fun n =>
      (s₀.system.tm.tasks index).statusIn (n + 1)

/-- A step that changes no entry and decides nothing. -/
theorem TmScheduling.Follows.of_same (h : s.Follows s₀ slots moves) {slots' : ℕ}
    (htasks : s'.system.tm.tasks = s.system.tm.tasks)
    (hrounds : ∀ index < tmMaxTasks, s'.phase.rounds slots' index = s.phase.rounds slots index)
    (hmore : ∀ index, statusesSeen index more = []) : s'.Follows s₀ slots' (moves ++ more) := by
  refine ⟨fun index hlt => ?_, fun index hlt => ?_⟩
  · rw [htasks, hrounds index hlt, h.tasks index hlt]
  · rw [statusesSeen_append, hmore, List.append_nil, hrounds index hlt, h.statuses index hlt]

/-- The round of a slot for an entry, after which the slot has come to this entry too. -/
theorem TmScheduling.Follows.of_served (h : s.Follows s₀ slots moves) {index : ℕ}
    (hregistered : (s₀.system.tm.tasks index).Registered) (hpos : 0 < slots)
    (hphase : s.phase = .slot index) (hlt : index < tmMaxTasks) {events : List (TmEvent F)}
    {system : TmSystem F (TmSems V)} (hserved : s.system.Served index events system) :
    Follows { s with system := system, phase := .slot (index + 1) } s₀ slots
      (moves ++ events.map .entry) := by
  have hbefore : s.phase.rounds slots index = slots - 1 := by
    rw [hphase, TmSchedulerPhase.rounds, if_pos (Nat.le_refl index)]
  have hafter : (TmSchedulerPhase.slot (index + 1)).rounds slots index = slots - 1 + 1 := by
    rw [TmSchedulerPhase.rounds, if_neg (by omega)]
    omega
  have hothers : ∀ other, other ≠ index →
      (TmSchedulerPhase.slot (index + 1)).rounds slots other = s.phase.rounds slots other := by
    intro other hne
    rw [hphase, TmSchedulerPhase.rounds, TmSchedulerPhase.rounds]
    split_ifs <;> omega
  have htask := h.tasks index hlt
  rw [hbefore] at htask
  refine ⟨fun other hother => ?_, fun other hother => ?_⟩
  · change system.tm.tasks other = _
    rw [hserved.tasks]
    by_cases heq : other = index
    · rw [heq, Function.update_self, hafter, htask, TmTask.next_after hregistered.periodical]
    · rw [Function.update_of_ne heq, hothers other heq, h.tasks other hother]
  · rw [statusesSeen_append, statusesSeen_events, hserved.statuses, h.statuses other hother]
    by_cases heq : other = index
    · rw [if_pos heq, heq, hbefore, hafter, List.range_succ, List.map_append, htask,
        TmTask.status_after hregistered.periodical]
      rfl
    · rw [if_neg heq, List.append_nil, hothers other heq]

/-- The table before a run is as registrations leave it, without callbacks with a period of zero. -/
def TmScheduling.Registered (s : TmScheduling F V) : Prop :=
  ∀ index < tmMaxTasks, (s.system.tm.tasks index).Registered

theorem statusesSeen_nil (index : ℕ) : statusesSeen index ([] : List (TmMove F)) = [] := rfl

theorem statusesSeen_taken (index other : ℕ) :
    statusesSeen index [(.taken other : TmMove F)] = [] := rfl

theorem ticks_append_tick (moments : List TmMoment) :
    ticks (moments ++ [.tick]) = ticks moments + 1 := List.countP_append

theorem ticks_append_of_not (moments : List TmMoment) (h : moment.isTick = false) :
    ticks (moments ++ [moment]) = ticks moments := by
  rw [ticks, List.countP_append, List.countP_singleton, h]
  rfl

/-- A step that leaves the semaphore of the schedule alone. -/
theorem TmScheduling.TicksKept.of_same (h : s.TicksKept s₀ (ticks moments) slots)
    (hmoment : moment.isTick = false) (hunits : s'.scheduleUnits = s.scheduleUnits)
    (hpos : ∀ index, s'.phase = .slot index → 0 < slots) :
    s'.TicksKept s₀ (ticks (moments ++ [moment])) slots := by
  rw [ticks_append_of_not moments hmoment]
  exact ⟨hunits ▸ h.le, hunits ▸ h.eq, hpos⟩

/-- A step keeps both, with one slot more or none. -/
theorem TmScheduling.TicksKept.step (h : s.TicksKept s₀ (ticks moments) slots)
    (hfollows : s.Follows s₀ slots moves) (hregistered : s₀.Registered)
    (heffect : s.Effect C moment more s') :
    ∃ slots', s'.TicksKept s₀ (ticks (moments ++ [moment])) slots' ∧
      s'.Follows s₀ slots' (moves ++ more) := by
  have hle := h.le
  have heq := h.eq
  have hpos := h.pos
  cases heffect with
  | tick =>
    have hgiven : (semPost s.system.os.schedule).2.value =
        min (s.scheduleUnits + 1) semValueMax := semPost_value s.system.os.schedule
    refine ⟨slots, ?_, hfollows.of_same rfl (fun _ _ => rfl) statusesSeen_nil⟩
    rw [ticks_append_tick]
    refine ⟨?_, fun hroom => ?_, hpos⟩
    · change slots + (semPost s.system.os.schedule).2.value ≤ _
      omega
    · change slots + (semPost s.system.os.schedule).2.value = _
      omega
  | stop =>
    exact ⟨slots, h.of_same rfl rfl hpos, hfollows.of_same rfl (fun _ _ => rfl) statusesSeen_nil⟩
  | taken ne take =>
    exact ⟨slots, h.of_same rfl rfl hpos,
      hfollows.of_same rfl (fun _ _ => rfl) fun index => statusesSeen_taken index _⟩
  | checked interrupted phase =>
    refine ⟨slots, h.of_same rfl rfl fun index hslot => ?_,
      hfollows.of_same rfl (fun index _ => ?_) statusesSeen_nil⟩
    · dsimp only at hslot
      split at hslot <;> cases hslot
    · rw [phase]
      dsimp only
      split <;> rfl
  | failed phase =>
    exact ⟨slots, h.of_same rfl rfl nofun,
      hfollows.of_same rfl (fun index _ => by rw [phase]; rfl) statusesSeen_nil⟩
  | @begun schedule phase take =>
    have htaken : s.scheduleUnits = schedule.value + 1 := Sem.take_eq_some take
    refine ⟨slots + 1, ?_, hfollows.of_same rfl (fun index _ => ?_) statusesSeen_nil⟩
    · rw [ticks_append_of_not moments rfl]
      refine ⟨?_, fun hroom => ?_, fun _ _ => Nat.succ_pos slots⟩
      · change slots + 1 + schedule.value ≤ _
        omega
      · change slots + 1 + schedule.value = _
        omega
    · rw [phase, TmSchedulerPhase.rounds, if_pos (Nat.zero_le index)]
      rfl
  | @served interrupted index events system phase lt entry =>
    have hserved := tmSchedulerEntry_served lt entry
    refine ⟨slots, h.of_same rfl (congrArg Sem.value hserved.schedule) fun _ _ => hpos index phase,
      hfollows.of_served (hregistered index lt) (hpos index phase) phase lt hserved⟩
  | @ended interrupted index phase le =>
    refine ⟨slots, h.of_same rfl rfl nofun,
      hfollows.of_same rfl (fun other hother => ?_) statusesSeen_nil⟩
    rw [phase]
    exact (if_neg (by omega)).symm
  | released interrupted phase lt release =>
    have hreleased := tmReleaseTasks_released lt release
    exact ⟨slots, h.of_same rfl (congrArg Sem.value hreleased.schedule) nofun,
      hfollows.of_same (by rw [hreleased.tm]) (fun _ _ => by rw [phase]; rfl) statusesSeen_nil⟩
  | finished interrupted phase le =>
    exact ⟨slots, h.of_same rfl rfl nofun,
      hfollows.of_same rfl (fun _ _ => by rw [phase]; rfl) statusesSeen_nil⟩

/-- Before a run, no slot has begun. -/
theorem TmScheduling.Registered.follows (h : s.Registered) (hphase : s.phase = .loopHead) :
    s.TicksKept s 0 0 ∧ s.Follows s 0 [] := by
  refine ⟨⟨by omega, fun _ => by omega, fun index hslot => ?_⟩, fun index hlt => ?_,
    fun index hlt => ?_⟩
  · rw [hphase] at hslot
    cases hslot
  · rw [hphase]
    exact (h index hlt).after_zero.symm
  · rw [hphase]
    rfl

/-- What a run keeps. -/
theorem TmScheduling.Registered.run (h : s.Registered) (hphase : s.phase = .loopHead)
    (hrun : s.run C moments = some (moves, s')) :
    ∃ slots, s'.TicksKept s (ticks moments) slots ∧ s'.Follows s slots moves :=
  run_keeps
    (I := fun moments moves t => ∃ slots, t.TicksKept s (ticks moments) slots ∧
      t.Follows s slots moves)
    ⟨0, h.follows hphase⟩
    (fun _ _ _ _ _ _ ⟨_, hticks, hfollows⟩ heffect => hticks.step hfollows h heffect) hrun

end Progress

section Boot

/-- A registration leaves such an entry. -/
theorem TmCall.registered {call : TmCall F} {task : TmTask F} (hentry : call.entry = some task)
    (hperiod : call.PeriodNonzero) : task.Registered := by
  refine ⟨periodical hentry hperiod, ?_⟩
  obtain ⟨_, _, _, _, _, _, _, rfl⟩ := entry_eq_tmNewTask hentry
  rfl

theorem TmState.registered_zero (index : ℕ) :
    ((TmState.zero : TmState F).tasks index).Registered := by
  refine ⟨?_, rfl⟩
  rintro (h | h) <;> cases h

variable {C : TmCallbacks F V} {timerCreate : V → OsResult × V}
  {tmSchedulerTask tlmTelemetryTask : F} {answers : ℕ → OsTaskAnswers}
  {timerAnswers : OsTimerAnswers} {scheduleTimer : OsTimer G} {tmScheduleCallback : G}

/-- So does the start of the system. -/
theorem tmBoot_registered {s : TmSystem F (TmSems V)} {started : TmStarted F G}
    {s₁ : TmScheduling F V}
    (h : tmBoot C timerCreate tmSchedulerTask tlmTelemetryTask answers timerAnswers scheduleTimer
      tmScheduleCallback s = .ok (started, s₁)) : s₁.Registered := by
  obtain ⟨⟨_, t⟩, htm, h⟩ := exists_ok_of_bind h
  obtain ⟨⟨_, tlm, u⟩, htlm, h⟩ := exists_ok_of_bind h
  obtain ⟨started', -, h⟩ := exists_ok_of_bind h
  cases h
  obtain ⟨tmResult, htm'⟩ := tmInitialize_eq (C.posixBoot timerCreate) tmSchedulerTask s
  obtain ⟨-, rfl⟩ := Prod.mk.inj (Except.ok.inj (htm'.symm.trans htm))
  obtain ⟨tlmResult, tlm', htlm'⟩ := tlmInitialize_eq (C.posixBoot timerCreate) tlmTelemetryTask _
  have hworld := htlm'.symm.trans htlm
  obtain ⟨-, hworld⟩ := Prod.mk.inj (Except.ok.inj hworld)
  obtain ⟨-, rfl⟩ := Prod.mk.inj hworld
  intro index hlt
  by_cases htlm : (tlmCall tlmTelemetryTask).index = index
  · change ((TmCall.written _ _ _ _).tasks index).Registered
    rw [← htlm, TmCall.written_tasks_self]
    exact TmCall.registered (entry_tlmCall tlmTelemetryTask) trivial
  · change ((TmCall.written _ _ _ _).tasks index).Registered
    rw [TmCall.written_tasks_of_ne htlm]
    by_cases hscheduler : (schedulerCall tmSchedulerTask).index = index
    · rw [← hscheduler, TmCall.written_tasks_self]
      exact TmCall.registered (entry_schedulerCall tmSchedulerTask) trivial
    · rw [TmCall.written_tasks_of_ne hscheduler]
      exact TmState.registered_zero index

end Boot

/-- In every run, a slot has begun for each tick but those that wait and those that were lost at the
bound of the semaphore, and what `tm_update_task` has returned for a task is determined by the
number of slots that have come to its entry: neither the order of the steps nor the takes of its
semaphore change it. -/
theorem tm_schedule_in_any_order (C : TmCallbacks F V) (s : TmScheduling F V)
    (hphase : s.phase = .loopHead) (hregistered : s.Registered) (moments : List TmMoment)
    (moves : List (TmMove F)) (t : TmScheduling F V) (hrun : s.run C moments = some (moves, t)) :
    ∃ slots,
      slots + t.scheduleUnits ≤ s.scheduleUnits + ticks moments ∧
      (s.scheduleUnits + ticks moments ≤ semValueMax →
        slots + t.scheduleUnits = s.scheduleUnits + ticks moments) ∧
      ∀ index < tmMaxTasks,
        t.system.tm.tasks index = (s.system.tm.tasks index).after (t.phase.rounds slots index) ∧
        statusesSeen index moves = (List.range (t.phase.rounds slots index)).map fun n =>
          (s.system.tm.tasks index).statusIn (n + 1) := by
  obtain ⟨slots, hticks, hfollows⟩ := hregistered.run hphase hrun
  exact ⟨slots, hticks.le, hticks.eq, fun index hlt =>
    ⟨hfollows.tasks index hlt, hfollows.statuses index hlt⟩⟩

/-- A run with three slots, from the start of the system on. -/
theorem tm_schedule_in_any_order_three_slots : ∃ started s moments moves t slots,
    bootAll = .ok (started, s) ∧ s.run noCallbacks moments = some (moves, t) ∧
      ownRounds moves = 3 ∧ slots + t.scheduleUnits ≤ s.scheduleUnits + ticks moments ∧
      ∀ index < tmMaxTasks,
        statusesSeen index moves = (List.range (t.phase.rounds slots index)).map fun n =>
          (s.system.tm.tasks index).statusIn (n + 1) := by
  obtain ⟨started, s, moments, moves, t, hboot, hrun, hrounds, -⟩ := bootAll_runs 3
  have hphase := (tmBoot_counts hboot).2.1
  obtain ⟨slots, hle, -, hentries⟩ := tm_schedule_in_any_order noCallbacks s hphase
    (tmBoot_registered hboot) moments moves t hrun
  exact ⟨started, s, moments, moves, t, slots, hboot, hrun, hrounds, hle, fun index hlt =>
    (hentries index hlt).2⟩

end Protoflight
