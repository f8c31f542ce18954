import Mathlib.Data.Nat.ModEq
import Protoflight.Fsw.TmCalls
import Protoflight.Fsw.TmSchedule

/-!
# Runs of the schedule

Slots of the schedule with registrations between them. The run of the whole
table projects to a run of each entry by itself, and there the number of slots
since the last registration determines the count of ticks.
-/

namespace Protoflight

variable {F W : Type}

section Run

/-- A step of a run of the schedule. -/
inductive TmStep (F : Type) where
  /-- A slot of `tm_scheduler_task`. -/
  | slot
  /-- A registration between slots. -/
  | register (call : TmCall F)

namespace TmStep

/-- The step registers an index inside the table, if it registers one. -/
def InRange : TmStep F → Prop
  | .slot => True
  | .register call => TmState.InRange call.taskId

/-- The step is a slot. -/
def isSlot : TmStep F → Bool
  | .slot => true
  | .register _ => false

/-- The step is a slot or a call that registers the task with an index. -/
def concerns (index : ℕ) : TmStep F → Bool
  | .slot => true
  | .register call => call.index = index

end TmStep

/-- Take steps one after another, with the list of the events of each slot. -/
def runSteps (P : TmPlatform F W) : List (TmStep F) → TmSystem F W →
    Except TmFault (List (List (TmEvent F)) × TmSystem F W)
  | [], s => return ([], s)
  | .slot :: steps, s => do
    let (events, s) ← tmSchedulerSlot P s
    let (slots, s) ← runSteps P steps s
    return (events :: slots, s)
  | .register call :: steps, s => do
    let (_, s) ← call.run P s
    runSteps P steps s

/-- The run of one entry of the table by itself. -/
def TmTask.runSteps (index : ℕ) : List (TmStep F) → TmTask F → List (List (TmEvent F)) × TmTask F
  | [], task => ([], task)
  | .slot :: steps, task =>
    let rest := runSteps index steps task.next
    (task.events index :: rest.1, rest.2)
  | .register call :: steps, task =>
    runSteps index steps (if call.index = index then call.entry.getD task else task)

/-- When a slot shows for an entry what the slot of this entry by itself shows, so does a run. -/
theorem runSteps_of_slot {P : TmPlatform F W} {index : ℕ} {β : Type}
    (view view' : List (TmEvent F) → β)
    (hslot : ∀ s : TmSystem F W, ∃ events s', tmSchedulerSlot P s = .ok (events, s') ∧
      view events = view' ((s.tm.tasks index).events index) ∧
      s'.tm.tasks index = (s.tm.tasks index).next)
    {steps : List (TmStep F)} (hrange : ∀ step ∈ steps, step.InRange) (s : TmSystem F W) :
    ∃ slots s', runSteps P steps s = .ok (slots, s') ∧
      slots.map view = ((s.tm.tasks index).runSteps index steps).1.map view' ∧
      s'.tm.tasks index = ((s.tm.tasks index).runSteps index steps).2 := by
  induction steps generalizing s with
  | nil => exact ⟨[], s, rfl, rfl, rfl⟩
  | cons step steps ih =>
    have hrest : ∀ step ∈ steps, step.InRange := fun step hmem =>
      hrange step (List.mem_cons_of_mem _ hmem)
    cases step with
    | slot =>
      obtain ⟨events, s₁, hrun₁, hevents, htask⟩ := hslot s
      obtain ⟨slots, s', hrun, hslots, hlast⟩ := ih hrest s₁
      refine ⟨events :: slots, s', ?_, ?_, ?_⟩
      · rw [runSteps, hrun₁]
        change runSteps P steps s₁ >>= _ = _
        rw [hrun]
        rfl
      · rw [TmTask.runSteps, ← htask, List.map_cons, List.map_cons, hslots, hevents]
      · rw [TmTask.runSteps, ← htask, hlast]
    | register call =>
      obtain ⟨result, s₁, hcall, htasks⟩ := call.run_eq P (hrange _ List.mem_cons_self) s
      obtain ⟨slots, s', hrun, hslots, hlast⟩ := ih hrest s₁
      refine ⟨slots, s', ?_, ?_, ?_⟩
      · rw [runSteps, hcall]
        exact hrun
      · rw [TmTask.runSteps, ← htasks index, hslots]
      · rw [TmTask.runSteps, ← htasks index, hlast]

/-- A run of the table is, for each entry, the run of this entry by itself. -/
theorem runSteps_eq {P : TmPlatform F W} (hgive : P.GivesSucceed) {index : ℕ}
    (h : index < tmMaxTasks) {steps : List (TmStep F)} (hrange : ∀ step ∈ steps, step.InRange)
    (s : TmSystem F W) :
    ∃ slots s', runSteps P steps s = .ok (slots, s') ∧
      (slots.map (eventsAbout index), s'.tm.tasks index) =
        (s.tm.tasks index).runSteps index steps := by
  obtain ⟨slots, s', hrun, hslots, hlast⟩ :=
    runSteps_of_slot (eventsAbout index) id (tmSchedulerSlot_eq hgive h) hrange s
  exact ⟨slots, s', hrun, Prod.ext (hslots.trans (List.map_id _)) hlast⟩

/-- The run of an entry takes the steps that concern it, and no others. -/
theorem TmTask.runSteps_filter (index : ℕ) (steps : List (TmStep F)) (task : TmTask F) :
    task.runSteps index (steps.filter (TmStep.concerns index)) = task.runSteps index steps := by
  induction steps generalizing task with
  | nil => rfl
  | cons step steps ih =>
    cases step with
    | slot => simp only [List.filter_cons, TmStep.concerns, if_true, TmTask.runSteps, ih]
    | register call =>
      by_cases heq : call.index = index
      · simp only [List.filter_cons, TmStep.concerns, decide_eq_true_eq, if_pos heq,
          TmTask.runSteps, ih]
      · simp only [List.filter_cons, TmStep.concerns, decide_eq_true_eq, if_neg heq,
          TmTask.runSteps, ih]

/-- Once stopped, the scheduler task releases the periodic tasks. -/
theorem tmSchedulerTask_stopped {P : TmPlatform F W} (hgive : P.GivesSucceed)
    (takes : List OsResult) {s : TmSystem F W} (hstopped : s.tm.continueRunning = false) :
    ∃ os, tmSchedulerTask P takes s =
      .ok (((List.range tmMaxTasks).filter fun index => (s.tm.tasks index).type = .periodic).map
        fun index => .given index .okay, { s with os := os }) := by
  obtain ⟨os, hrelease⟩ := tmReleaseTasks_eq hgive
    (fun index (hmem : index ∈ List.range tmMaxTasks) => List.mem_range.mp hmem) s
  refine ⟨os, ?_⟩
  rw [tmSchedulerTask.eq_def, hstopped]
  exact hrelease

/-- The scheduler task runs at most one slot for each time that it takes the
semaphore of the schedule, and goes on or ends with the release of its tasks. -/
theorem tmSchedulerTask_eq {P : TmPlatform F W} (hgive : P.GivesSucceed) (takes : List OsResult)
    (s : TmSystem F W) :
    ∃ count slots t rest t', count ≤ takes.count .okay ∧
      runSteps P (List.replicate count .slot) s = .ok (slots, t) ∧
      tmSchedulerTask P takes s = .ok (slots.flatten ++ rest, t') ∧ t'.tm.tasks = t.tm.tasks ∧
      rest = if t'.tm.continueRunning then [] else
        ((List.range tmMaxTasks).filter fun index => (t.tm.tasks index).type = .periodic).map
          fun index => .given index .okay := by
  induction takes generalizing s with
  | nil =>
    by_cases hrunning : s.tm.continueRunning = true
    · refine ⟨0, [], s, [], s, Nat.zero_le _, rfl, ?_, rfl, by rw [if_pos hrunning]⟩
      rw [tmSchedulerTask.eq_def, if_pos hrunning]
      rfl
    · obtain ⟨os, hrelease⟩ := tmSchedulerTask_stopped hgive [] (Bool.eq_false_iff.mpr hrunning)
      exact ⟨0, [], s, _, { s with os := os }, Nat.zero_le _, rfl, hrelease, rfl,
        by rw [if_neg hrunning]⟩
  | cons osResult takes ih =>
    by_cases hrunning : s.tm.continueRunning = true
    · by_cases hokay : osResult = .okay
      · subst hokay
        obtain ⟨events, s₁, hslot, -⟩ := tmSchedulerSlot_eq hgive (show 0 < tmMaxTasks by decide) s
        obtain ⟨count, slots, t, rest, t', hcount, hrun, htask, htasks, hrest⟩ := ih s₁
        refine ⟨count + 1, events :: slots, t, rest, t', ?_, ?_, ?_, htasks, hrest⟩
        · rw [List.count_cons_self]
          omega
        · rw [List.replicate_succ, runSteps, hslot]
          change runSteps P _ s₁ >>= _ = _
          rw [hrun]
          rfl
        · rw [tmSchedulerTask.eq_def, if_pos hrunning]
          simp only [if_true, hslot]
          change tmSchedulerTask P takes s₁ >>= _ = _
          rw [htask, List.flatten_cons, List.append_assoc]
          rfl
      · set stopped : TmSystem F W := { s with tm.continueRunning := false } with hstopped
        obtain ⟨os, hrelease⟩ := tmSchedulerTask_stopped hgive takes (s := stopped) rfl
        refine ⟨0, [], s, _, { stopped with os := os }, Nat.zero_le _, rfl, ?_, rfl, rfl⟩
        rw [tmSchedulerTask.eq_def, if_pos hrunning]
        simp only [if_neg hokay]
        exact hrelease
    · obtain ⟨os, hrelease⟩ :=
        tmSchedulerTask_stopped hgive (osResult :: takes) (Bool.eq_false_iff.mpr hrunning)
      exact ⟨0, [], s, _, { s with os := os }, Nat.zero_le _, rfl, hrelease, rfl,
        by rw [if_neg hrunning]⟩

end Run

section Ticks

/-- Counting on modulo a period. -/
theorem succ_mod_eq_ite {n p : ℕ} (hp : 0 < p) :
    (n + 1) % p = if n % p + 1 = p then 0 else n % p + 1 := by
  have hlt := Nat.mod_lt n hp
  rw [← Nat.mod_add_mod]
  split
  next heq => rw [heq, Nat.mod_self]
  next hne => exact Nat.mod_eq_of_lt (by omega)

/-- A task with a period has one that is not zero. -/
def TmTask.Periodical (task : TmTask F) : Prop :=
  task.type = .periodic ∨ task.type = .callback → task.schedulePeriod ≠ 0

/-- The count of a task `n` slots after its registration. -/
def TmTask.ticksAfter (task : TmTask F) (n : ℕ) : ℕ :=
  match task.type with
  | .periodic | .callback => n % task.schedulePeriod.toNat
  | _ => n % 2 ^ 32

/-- A task `n` slots after its registration. -/
def TmTask.after (task : TmTask F) (n : ℕ) : TmTask F :=
  { task with ticks := UInt32.ofNat (task.ticksAfter n) }

/-- The events of a slot for a task, `n` slots after its registration. -/
def TmTask.scheduled (index : ℕ) (task : TmTask F) (n : ℕ) : List (TmEvent F) :=
  let p := task.schedulePeriod.toNat
  let h := task.heartbeatPeriod.toNat
  match task.type, task.function with
  | .periodic, _ =>
    if h ≤ n % p then [.updated index .missedHeartbeat]
    else if p ∣ n then [.updated index .schedule, .given index .okay]
    else [.updated index .wait]
  | .callback, some function =>
    if p ∣ n then [.updated index .schedule, .called index function task.argument]
    else [.updated index .wait]
  | .callback, none => if p ∣ n then [.updated index .schedule] else [.updated index .wait]
  | .event, _ =>
    if h ≤ n % 2 ^ 32 then [.updated index .missedHeartbeat] else [.updated index .wait]
  | .monitor, _ => [.updated index .wait]
  | .invalid, _ => [.updated index .error]
  | .other _, _ => [.updated index .invalid]

variable {task : TmTask F}

/-- The count of a task with a period stays below it. -/
theorem TmTask.ticksAfter_lt (hperiod : task.Periodical) (n : ℕ) : task.ticksAfter n < 2 ^ 32 := by
  have hwidth : n % 2 ^ 32 < 2 ^ 32 := Nat.mod_lt n (by decide)
  have hbelow : task.schedulePeriod ≠ 0 → n % task.schedulePeriod.toNat < 2 ^ 32 := by
    intro hne
    exact Nat.lt_trans (Nat.mod_lt n (toNat_pos_of_ne_zero hne)) task.schedulePeriod.toNat_lt
  unfold ticksAfter
  cases htype : task.type with
  | periodic => exact hbelow (hperiod (.inl htype))
  | callback => exact hbelow (hperiod (.inr htype))
  | invalid => exact hwidth
  | event => exact hwidth
  | monitor => exact hwidth
  | other value => exact hwidth

theorem TmTask.toNat_ticks_after (hperiod : task.Periodical) (n : ℕ) :
    (task.after n).ticks.toNat = task.ticksAfter n :=
  UInt32.toNat_ofNat_of_lt' (ticksAfter_lt hperiod n)

theorem TmTask.ticks_after_lt (hne : task.schedulePeriod ≠ 0) {n : ℕ}
    (hticks : (task.after n).ticks.toNat = n % task.schedulePeriod.toNat) :
    (task.after n).ticks < task.schedulePeriod := by
  rw [UInt32.lt_iff_toNat_lt, hticks]
  exact Nat.mod_lt n (toNat_pos_of_ne_zero hne)

/-- A task with a period is due when the period divides the number of slots. -/
theorem TmTask.due_iff (hne : task.schedulePeriod ≠ 0) {n : ℕ}
    (hticks : (task.after n).ticks.toNat = n % task.schedulePeriod.toNat) :
    (task.after n).ticks + 1 = task.schedulePeriod ↔ task.schedulePeriod.toNat ∣ n + 1 := by
  rw [← UInt32.toNat_inj, toNat_add_one_of_lt (ticks_after_lt hne hticks), hticks,
    Nat.dvd_iff_mod_eq_zero, succ_mod_eq_ite (toNat_pos_of_ne_zero hne)]
  split <;> omega

/-- The count of a task that has started over, or goes on to its period. -/
theorem TmTask.toNat_startOver (hne : task.schedulePeriod ≠ 0) {n : ℕ}
    (hticks : (task.after n).ticks.toNat = n % task.schedulePeriod.toNat) :
    (if (task.after n).ticks + 1 = task.schedulePeriod then 0
      else (task.after n).ticks + 1).toNat = (n + 1) % task.schedulePeriod.toNat := by
  have hpos := toNat_pos_of_ne_zero hne
  by_cases hdue : (task.after n).ticks + 1 = task.schedulePeriod
  · rw [if_pos hdue]
    exact (Nat.mod_eq_zero_of_dvd ((due_iff hne hticks).mp hdue)).symm
  · have hstays := mt (due_iff hne hticks).mpr hdue
    rw [Nat.dvd_iff_mod_eq_zero, succ_mod_eq_ite hpos] at hstays
    rw [if_neg hdue, toNat_add_one_of_lt (ticks_after_lt hne hticks), hticks,
      succ_mod_eq_ite hpos]
    split at hstays
    · exact absurd rfl hstays
    next hother => rw [if_neg hother]

/-- The count of the slots goes on with the next slot. -/
theorem TmTask.nextTicks_after (hperiod : task.Periodical) (n : ℕ) :
    (task.after n).nextTicks.toNat = task.ticksAfter (n + 1) := by
  have hticks := toNat_ticks_after hperiod n
  have hwraps : (task.after n).ticks.toNat = n % 2 ^ 32 →
      ((task.after n).ticks + 1).toNat = (n + 1) % 2 ^ 32 := by
    intro hticks
    rw [UInt32.toNat_add, hticks, Nat.mod_add_mod]
    rfl
  unfold nextTicks
  unfold ticksAfter at hticks ⊢
  change (match task.type with
    | .periodic | .callback => if (task.after n).ticks + 1 = task.schedulePeriod then 0
        else (task.after n).ticks + 1
    | _ => (task.after n).ticks + 1).toNat = _
  cases htype : task.type with
  | periodic =>
    rw [htype] at hticks
    exact toNat_startOver (hperiod (.inl htype)) hticks
  | callback =>
    rw [htype] at hticks
    exact toNat_startOver (hperiod (.inr htype)) hticks
  | invalid =>
    rw [htype] at hticks
    exact hwraps hticks
  | event =>
    rw [htype] at hticks
    exact hwraps hticks
  | monitor =>
    rw [htype] at hticks
    exact hwraps hticks
  | other value =>
    rw [htype] at hticks
    exact hwraps hticks

theorem TmTask.next_after (hperiod : task.Periodical) (n : ℕ) :
    (task.after n).next = task.after (n + 1) := by
  have hticks : (task.after n).nextTicks = UInt32.ofNat (task.ticksAfter (n + 1)) := by
    rw [← nextTicks_after hperiod n, UInt32.ofNat_toNat]
  rw [next_eq, hticks]
  rfl

/-- What a slot does to a task depends on the number of slots since its registration. -/
theorem TmTask.events_after (hperiod : task.Periodical) (index n : ℕ) :
    (task.after n).events index = task.scheduled index (n + 1) := by
  have hticks := toNat_ticks_after hperiod n
  have hmissed : (task.after n).nextTicks ≥ (task.after n).heartbeatPeriod ↔
      task.heartbeatPeriod.toNat ≤ task.ticksAfter (n + 1) := by
    rw [ge_iff_le, UInt32.le_iff_toNat_le, nextTicks_after hperiod n]
    rfl
  have htypes : (task.after n).type = task.type := rfl
  have hperiods : (task.after n).schedulePeriod = task.schedulePeriod := rfl
  have hfunctions : (task.after n).function = task.function := rfl
  have harguments : (task.after n).argument = task.argument := rfl
  have hstatus := (task.after n).status_eq
  unfold ticksAfter at hticks hmissed
  simp only [htypes, hperiods, hmissed] at hstatus
  unfold events served scheduled
  simp only [htypes, hfunctions, harguments, hstatus]
  cases htype : task.type with
  | periodic =>
    rw [htype] at hticks
    simp only [due_iff (hperiod (.inl htype)) hticks]
    split_ifs <;> rfl
  | callback =>
    rw [htype] at hticks
    simp only [due_iff (hperiod (.inr htype)) hticks]
    cases task.function <;> dsimp only <;> split_ifs <;> rfl
  | event =>
    dsimp only
    split_ifs <;> rfl
  | monitor => rfl
  | invalid => rfl
  | other value => rfl

/-- The slots after a registration. -/
theorem TmTask.runSteps_after (hperiod : task.Periodical) {index : ℕ} {steps : List (TmStep F)}
    (hlatest : ∀ call, .register call ∈ steps → call.index = index → call.entry = none) (n : ℕ) :
    ((task.after n).runSteps index steps).1 =
      (List.range (steps.countP TmStep.isSlot)).map fun k => task.scheduled index (n + k + 1) := by
  induction steps generalizing n with
  | nil => rfl
  | cons step steps ih =>
    have hrest : ∀ call, .register call ∈ steps → call.index = index → call.entry = none :=
      fun call hmem => hlatest call (List.mem_cons_of_mem _ hmem)
    cases step with
    | slot =>
      rw [TmTask.runSteps, next_after hperiod, ih hrest, events_after hperiod,
        List.countP_cons_of_pos rfl, List.range_succ_eq_map, List.map_cons, List.map_map]
      refine congrArg _ (List.map_congr_left fun k hk => ?_)
      rw [Function.comp_apply, Nat.add_right_comm n 1 k, Nat.add_assoc n k 1]
    | register call =>
      have hentry : (if call.index = index then call.entry.getD (task.after n)
          else task.after n) = task.after n := by
        split
        next heq => rw [hlatest call List.mem_cons_self heq, Option.getD_none]
        next => rfl
      rw [TmTask.runSteps, hentry, ih hrest, List.countP_cons_of_neg (by simp [TmStep.isSlot])]

end Ticks

section Registered

/-- The period passed for a callback task, which is not checked, is not zero. -/
def TmCall.PeriodNonzero : TmCall F → Prop
  | .callbackTask _ _ _ _ period => period ≠ 0
  | _ => True

theorem toUInt32_ne_zero {n : Int32} (h : n ≠ 0) : n.toUInt32 ≠ 0 :=
  fun heq => h (congrArg UInt32.toInt32 heq)

/-- A registration starts the count of its task. -/
theorem TmCall.after_zero {call : TmCall F} {task : TmTask F} (hentry : call.entry = some task) :
    task.after 0 = task := by
  have hticks : task.ticks = 0 := by
    obtain ⟨_, _, _, _, _, _, _, rfl⟩ := entry_eq_tmNewTask hentry
    rfl
  have hzero : task.ticksAfter 0 = 0 := by
    unfold TmTask.ticksAfter
    split <;> exact Nat.zero_mod _
  rw [TmTask.after, hzero]
  cases task
  cases hticks
  rfl

/-- A task that is registered with a period has one. -/
theorem TmCall.periodical {call : TmCall F} {task : TmTask F} (hentry : call.entry = some task)
    (hperiod : call.PeriodNonzero) : task.Periodical := by
  unfold entry at hentry
  split at hentry
  · split at hentry
    · cases hentry
    next hne =>
      cases hentry
      exact fun _ => toUInt32_ne_zero hne
  · cases hentry
    rintro (h | h) <;> cases h
  · cases hentry
    exact fun _ => toUInt32_ne_zero hperiod
  · cases hentry
    rintro (h | h) <;> cases h
  · cases hentry

/-- A world in which every semaphore can be created and given. -/
def givingPlatform : TmPlatform Unit Unit where
  semCreate _ _ := (.okay, ())
  semGive _ _ := (.okay, ())
  call _ _ _ := (false, ())
  overlongShift _ := 0

/-- A task with index 70, to be scheduled every third slot and to respond within two. -/
def everyThirdSlot : TmCall Unit := .periodicTask (some []) 70 (some ()) 0 3 2 0 0

/-- Four slots, with a monitored task registered in between. -/
def fourSlots : List (TmStep Unit) :=
  [.slot, .slot, .register (.monitorTask (some []) 3), .slot, .slot]

end Registered

end Protoflight
