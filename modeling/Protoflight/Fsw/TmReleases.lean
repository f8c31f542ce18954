import Protoflight.Fsw.TmProgress

/-!
# The releases of the tasks

In any order of steps, a task takes its semaphore as often as the scheduler has released it, less
the units that are left: no release is lost and none is made twice.
-/

namespace Protoflight

variable {F V : Type}

/-- The thread of the task has taken its semaphore. -/
def TmMove.isTake (index : ℕ) : TmMove F → Bool
  | .taken taker => taker = index
  | .entry _ => false

/-- How often the thread of the task has taken its semaphore. -/
def takesSeen (index : ℕ) (moves : List (TmMove F)) : ℕ := moves.countP (TmMove.isTake index)

/-- How often the last loop of the scheduler has come to an entry. -/
def TmSchedulerPhase.releases (index : ℕ) : TmSchedulerPhase → ℕ
  | .release current => if index < current then 1 else 0
  | .finished => 1
  | .loopHead | .taking | .slot _ => 0

section Seen

variable {index : ℕ} {moves more : List (TmMove F)}

theorem takesSeen_append (index : ℕ) (moves more : List (TmMove F)) :
    takesSeen index (moves ++ more) = takesSeen index moves + takesSeen index more :=
  List.countP_append

theorem takesSeen_events (index : ℕ) (events : List (TmEvent F)) :
    takesSeen index (events.map .entry) = 0 := by
  rw [takesSeen, List.countP_map]
  exact List.countP_eq_zero.mpr fun _ _ => Bool.false_ne_true

/-- How often the task has been scheduled. -/
def schedulesSeen (index : ℕ) (moves : List (TmMove F)) : ℕ :=
  (statusesSeen index moves).count .schedule

theorem schedulesSeen_append (index : ℕ) (moves more : List (TmMove F)) :
    schedulesSeen index (moves ++ more) = schedulesSeen index moves + schedulesSeen index more := by
  rw [schedulesSeen, statusesSeen_append, List.count_append]
  rfl

end Seen

section Units

variable {C : TmCallbacks F V} {s₀ s s' : TmScheduling F V} {moments : List TmMoment}
  {moves more : List (TmMove F)} {moment : TmMoment} {slots index : ℕ}

/-- The units of the semaphore of a task, and those that have been taken, are those that have been
given. -/
def TmScheduling.UnitsKept (s : TmScheduling F V) (s₀ : TmScheduling F V) (index : ℕ)
    (moves : List (TmMove F)) : Prop :=
  s.units index + takesSeen index moves =
    s₀.units index + schedulesSeen index moves + s.phase.releases index

/-- A step that leaves the semaphore of the task alone. -/
theorem TmScheduling.UnitsKept.of_same (h : s.UnitsKept s₀ index moves)
    (hunits : s'.units index = s.units index)
    (hreleases : s'.phase.releases index = s.phase.releases index)
    (htakes : takesSeen index more = 0) (hschedules : schedulesSeen index more = 0) :
    s'.UnitsKept s₀ index (moves ++ more) := by
  rw [UnitsKept, takesSeen_append, schedulesSeen_append, hunits, hreleases, htakes, hschedules]
  exact h

/-- No more units have been given than slots have come to the entry. -/
theorem TmScheduling.UnitsKept.units_le (h : s.UnitsKept s₀ index moves)
    (hfollows : s.Follows s₀ slots moves) (hlt : index < tmMaxTasks) :
    s.units index ≤ s₀.units index + s.phase.rounds slots index + s.phase.releases index := by
  have hcount : schedulesSeen index moves ≤ s.phase.rounds slots index := by
    rw [schedulesSeen, hfollows.statuses index hlt]
    refine List.count_le_length.trans ?_
    rw [List.length_map, List.length_range]
  rw [UnitsKept] at h
  omega

/-- Below the bound, giving a semaphore adds a unit. -/
theorem units_of_given {sem : Sem} (h : sem.value < semValueMax) :
    (semPost sem).2.value = sem.value + 1 := by
  rw [semPost_value]
  omega

/-- The thread of a task takes its semaphore. -/
theorem TmScheduling.UnitsKept.of_taken (h : s.UnitsKept s₀ index moves) {taker : ℕ} {sem : Sem}
    (htake : (s.system.os.tasks taker).take = some sem) :
    UnitsKept { s with system.os := s.system.os.setTask taker (some sem) } s₀ index
      (moves ++ [.taken taker]) := by
  rw [UnitsKept] at h ⊢
  rw [takesSeen_append, schedulesSeen_append]
  change (Function.update s.system.os.tasks taker sem index).value + _ =
    _ + s.phase.releases index
  have htaken := Sem.take_eq_some htake
  have hnone : schedulesSeen index [(.taken taker : TmMove F)] = 0 := rfl
  rw [units] at h
  by_cases heq : index = taker
  · have hone : takesSeen index [(.taken taker : TmMove F)] = 1 := by
      simp [takesSeen, TmMove.isTake, heq]
    rw [heq, Function.update_self]
    rw [heq] at h hone hnone
    omega
  · have hzero : takesSeen index [(.taken taker : TmMove F)] = 0 := by
      simp [takesSeen, TmMove.isTake, Ne.symm heq]
    rw [Function.update_of_ne heq]
    omega

/-- A periodic task is due exactly when it is to be scheduled. -/
theorem TmTask.due_iff_status {task : TmTask F} (htype : task.type = .periodic) :
    task.Due ↔ task.status = .schedule := and_iff_right htype

/-- The round of a slot for an entry gives a unit exactly when the task is scheduled. -/
theorem TmScheduling.UnitsKept.of_served (h : s.UnitsKept s₀ index moves) {current : ℕ}
    {events : List (TmEvent F)} {system : TmSystem F (TmSems V)}
    (htype : (s.system.tm.tasks index).type = .periodic) (hphase : s.phase = .slot current)
    (hserved : s.system.Served current events system)
    (hroom : index = current → s.units index < semValueMax) :
    UnitsKept { s with system := system, phase := .slot (current + 1) } s₀ index
      (moves ++ events.map .entry) := by
  have hstatuses := hserved.statuses index
  rw [UnitsKept, hphase] at h
  rw [UnitsKept, takesSeen_append, schedulesSeen_append, takesSeen_events]
  change (system.os.tasks index).value + _ = _ + 0
  rw [schedulesSeen, schedulesSeen, statusesSeen_events, hstatuses]
  rw [units, schedulesSeen] at h
  change _ = _ + 0 at h
  by_cases heq : index = current
  · subst heq
    rw [if_pos rfl]
    by_cases hdue : (s.system.tm.tasks index).Due
    · rw [hserved.given hdue, Function.update_self, units_of_given (hroom rfl), hdue.2,
        List.count_singleton_self]
      omega
    · have hstatus : (s.system.tm.tasks index).status ≠ .schedule :=
        mt (TmTask.due_iff_status htype).mpr hdue
      rw [hserved.left hdue, List.count_singleton, beq_false_of_ne hstatus]
      exact h
  · rw [if_neg heq, List.count_nil]
    have hsems : system.os.tasks index = s.system.os.tasks index := by
      by_cases hdue : (s.system.tm.tasks current).Due
      · rw [hserved.given hdue, Function.update_of_ne heq]
      · rw [hserved.left hdue]
    rw [hsems]
    exact h

/-- A round of the last loop gives the semaphore of a periodic task. -/
theorem TmScheduling.UnitsKept.of_released (h : s.UnitsKept s₀ index moves) {current : ℕ}
    {system : TmSystem F (TmSems V)} (htype : (s.system.tm.tasks index).type = .periodic)
    (hphase : s.phase = .release current) (hreleased : s.system.Released current system)
    (hroom : index = current → s.units index < semValueMax) :
    UnitsKept { s with system := system, phase := .release (current + 1) } s₀ index
      (moves ++ []) := by
  rw [UnitsKept, hphase] at h
  rw [List.append_nil, UnitsKept]
  change (system.os.tasks index).value + _ =
    _ + if index < current + 1 then 1 else 0
  change _ = _ + if index < current then 1 else 0 at h
  rw [units] at h
  by_cases heq : index = current
  · subst heq
    rw [hreleased.given htype, Function.update_self, units_of_given (hroom rfl),
      if_pos (Nat.lt_succ_self index)]
    rw [if_neg (Nat.lt_irrefl index)] at h
    omega
  · have hsems : system.os.tasks index = s.system.os.tasks index := by
      by_cases hperiodic : (s.system.tm.tasks current).type = .periodic
      · rw [hreleased.given hperiodic, Function.update_of_ne heq]
      · rw [hreleased.left hperiodic]
    have hiff : index < current + 1 ↔ index < current := by omega
    simp only [hsems, hiff]
    exact h

/-- A step keeps the units of a periodic task, when there is room for the unit that it gives. -/
theorem TmScheduling.UnitsKept.step (h : s.UnitsKept s₀ index moves) (hlt : index < tmMaxTasks)
    (htype : (s.system.tm.tasks index).type = .periodic)
    (hroom : s.phase = .slot index ∨ s.phase = .release index → s.units index < semValueMax)
    (heffect : s.Effect C moment more s') : s'.UnitsKept s₀ index (moves ++ more) := by
  cases heffect with
  | tick | stop => exact h.of_same rfl rfl rfl rfl
  | taken ne take => exact h.of_taken take
  | checked interrupted phase =>
    refine h.of_same rfl ?_ rfl rfl
    rw [phase]
    dsimp only
    split <;> rfl
  | failed phase | begun phase take | ended interrupted phase le =>
    exact h.of_same rfl (by rw [phase]; rfl) rfl rfl
  | served interrupted phase lt entry =>
    exact h.of_served htype phase (tmSchedulerEntry_served lt entry)
      fun heq => hroom (.inl (heq ▸ phase))
  | released interrupted phase lt release =>
    exact h.of_released htype phase (tmReleaseTasks_released lt release)
      fun heq => hroom (.inr (heq ▸ phase))
  | @finished interrupted current phase le =>
    refine h.of_same rfl ?_ rfl rfl
    rw [phase]
    exact (if_pos (by omega)).symm

/-- There is room for the next unit while the ticks and the units at the start are fewer than
`SEM_VALUE_MAX`. -/
theorem TmScheduling.UnitsKept.room (h : s.UnitsKept s₀ index moves)
    (hticks : s.TicksKept s₀ (ticks moments) slots) (hfollows : s.Follows s₀ slots moves)
    (hlt : index < tmMaxTasks)
    (hroom : s₀.units index + s₀.scheduleUnits + ticks moments < semValueMax)
    (hphase : s.phase = .slot index ∨ s.phase = .release index) :
    s.units index < semValueMax := by
  have hunits := h.units_le hfollows hlt
  have hslots := hticks.le
  rcases hphase with hphase | hphase
  · rw [hphase, TmSchedulerPhase.rounds, TmSchedulerPhase.releases,
      if_pos (Nat.le_refl index)] at hunits
    omega
  · rw [hphase, TmSchedulerPhase.rounds, TmSchedulerPhase.releases,
      if_neg (Nat.lt_irrefl index)] at hunits
    omega

theorem ticks_le_append (moments : List TmMoment) (moment : TmMoment) :
    ticks moments ≤ ticks (moments ++ [moment]) := by
  rw [ticks, ticks, List.countP_append]
  exact Nat.le_add_right ..

/-- What holds of a task through a run. -/
structure TmScheduling.Kept (s : TmScheduling F V) (s₀ : TmScheduling F V) (index : ℕ)
    (moments : List TmMoment) (moves : List (TmMove F)) (slots : ℕ) : Prop where
  ticks : s.TicksKept s₀ (ticks moments) slots
  follows : s.Follows s₀ slots moves
  units : s₀.units index + s₀.scheduleUnits + Protoflight.ticks moments < semValueMax →
    s.UnitsKept s₀ index moves

theorem TmScheduling.Kept.step (h : s.Kept s₀ index moments moves slots)
    (hregistered : s₀.Registered) (hlt : index < tmMaxTasks)
    (htype : (s₀.system.tm.tasks index).type = .periodic) (heffect : s.Effect C moment more s') :
    ∃ slots', s'.Kept s₀ index (moments ++ [moment]) (moves ++ more) slots' := by
  obtain ⟨slots', hticks, hfollows⟩ := h.ticks.step h.follows hregistered heffect
  have htype' : (s.system.tm.tasks index).type = .periodic := by
    rw [h.follows.tasks index hlt]
    exact htype
  refine ⟨slots', hticks, hfollows, fun hroom => ?_⟩
  have hless := ticks_le_append moments moment
  have hbefore : s₀.units index + s₀.scheduleUnits + Protoflight.ticks moments < semValueMax := by
    omega
  have hunits := h.units hbefore
  exact hunits.step hlt htype' (hunits.room h.ticks h.follows hlt hbefore) heffect

end Units

section Rates

/-- A task with a period has been scheduled as often as the period goes into the slots. -/
theorem TmTask.count_statusIn {task : TmTask F} (htype : task.type = .periodic)
    (hheartbeat : task.heartbeatPeriod ≠ 0) (slots : ℕ) :
    ((List.range slots).map fun n => task.statusIn (n + 1)).count .schedule =
      slots / task.schedulePeriod.toNat := by
  have hpos := toNat_pos_of_ne_zero hheartbeat
  induction slots with
  | zero => simp
  | succ slots ih =>
    have hstatus : task.statusIn (slots + 1) = .schedule ↔
        task.schedulePeriod.toNat ∣ slots + 1 := by
      rw [statusIn, htype]
      dsimp only
      by_cases hdvd : task.schedulePeriod.toNat ∣ slots + 1
      · have hmod := Nat.mod_eq_zero_of_dvd hdvd
        rw [if_neg (by omega), if_pos hdvd]
        exact iff_of_true rfl hdvd
      · rw [if_neg hdvd]
        split <;> simp [hdvd]
    rw [List.range_succ, List.map_append, List.count_append, ih, Nat.succ_div]
    by_cases hdvd : task.schedulePeriod.toNat ∣ slots + 1
    · simp [hstatus.mpr hdvd, hdvd]
    · simp [mt hstatus.mp hdvd, hdvd]

/-- In every run, while the ticks and the units at the start are fewer than `SEM_VALUE_MAX`, the
thread of a periodic task has taken its semaphore once for each of its periods that has gone by in
the slots, and once more for the shutdown, less the units that it has left. -/
theorem tm_releases_kept (C : TmCallbacks F V) (s : TmScheduling F V) (hphase : s.phase = .loopHead)
    (hregistered : s.Registered) (moments : List TmMoment) (moves : List (TmMove F))
    (t : TmScheduling F V) (hrun : s.run C moments = some (moves, t)) (index : ℕ)
    (hlt : index < tmMaxTasks) (htype : (s.system.tm.tasks index).type = .periodic)
    (hheartbeat : (s.system.tm.tasks index).heartbeatPeriod ≠ 0)
    (hroom : s.units index + s.scheduleUnits + ticks moments < semValueMax) :
    ∃ slots, slots + t.scheduleUnits = s.scheduleUnits + ticks moments ∧
      t.units index + takesSeen index moves = s.units index +
        t.phase.rounds slots index / (s.system.tm.tasks index).schedulePeriod.toNat +
        t.phase.releases index := by
  have hstart := hregistered.follows hphase
  obtain ⟨slots, h⟩ := run_keeps
    (I := fun moments moves t => ∃ slots, t.Kept s index moments moves slots)
    ⟨0, hstart.1, hstart.2, fun _ => by rw [TmScheduling.UnitsKept, hphase]; rfl⟩
    (fun _ _ _ _ _ _ ⟨_, h⟩ heffect => h.step hregistered hlt htype heffect) hrun
  refine ⟨slots, h.ticks.eq (by omega), ?_⟩
  have hunits := h.units hroom
  rwa [TmScheduling.UnitsKept, schedulesSeen, h.follows.statuses index hlt,
    TmTask.count_statusIn htype hheartbeat] at hunits

/-- The entry of a task that runs in every slot. -/
def everySlotTask : TmTask Unit := tmNewTask [] .periodic (some ()) 0 1 1 0 0

/-- A table with this task alone. -/
def everySlotTable : TmScheduling Unit Unit where
  system :=
    { tm := { (.zero : TmState Unit) with
        continueRunning := true
        tasks := Function.update (TmState.zero : TmState Unit).tasks 3 everySlotTask }
      os := ⟨fun _ => .empty, .empty, ()⟩ }
  phase := .loopHead

theorem everySlotTable_registered : everySlotTable.Registered := by
  intro index _
  change (Function.update (TmState.zero : TmState Unit).tasks 3 everySlotTask index).Registered
  by_cases heq : index = 3
  · rw [heq, Function.update_self]
    exact ⟨fun _ => by decide, rfl⟩
  · rw [Function.update_of_ne heq]
    exact TmState.registered_zero index

/-- A tick comes, the slot goes as far as that task, and the task takes its semaphore. -/
def everySlotMoments : List TmMoment :=
  .tick :: List.replicate 6 (.scheduler false) ++ [.take 3]

/-- What has become of its release then. -/
theorem tm_releases_kept_every_slot : ∃ moves t slots,
    everySlotTable.run noCallbacks everySlotMoments = some (moves, t) ∧
      slots + t.scheduleUnits = 0 + 1 ∧
      t.units 3 + takesSeen 3 moves =
        0 + t.phase.rounds slots 3 / everySlotTask.schedulePeriod.toNat + t.phase.releases 3 := by
  obtain ⟨slots, hslots, hunits⟩ := tm_releases_kept noCallbacks everySlotTable rfl
    everySlotTable_registered everySlotMoments _ _ rfl 3 (by decide) rfl (by decide) (by decide)
  exact ⟨_, _, slots, rfl, hslots, hunits⟩

end Rates

end Protoflight
