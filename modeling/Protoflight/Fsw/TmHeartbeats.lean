import Protoflight.Fsw.TmBits
import Protoflight.Fsw.TmReleases

/-!
# The missed heartbeats

In any order of steps, the bits of `tasks_missed_heartbeat` are those of the slots that have gone
by: whether a task has taken its semaphore does not count. A periodic task that hangs is not
reported when its heartbeat period is no shorter than its period, and an event task is reported
even though it runs.
-/

namespace Protoflight

variable {F V W : Type}

section Field

variable {P : TmPlatform F W} {events : List (TmEvent F)} {s s' : TmSystem F W}

/-- Serving a task sets its bit when it has missed a heartbeat, and else none. -/
theorem tmProcessTask_missed {status : TmTaskstatus} {taskId : TmTaskId}
    (hrange : TmState.InRange taskId) (h : tmProcessTask P status taskId s = .ok (events, s')) :
    s'.tm.status.tasksMissedHeartbeat =
      if status = .missedHeartbeat then tmSetBit P s.tm.status.tasksMissedHeartbeat taskId
      else s.tm.status.tasksMissedHeartbeat := by
  cases status with
  | schedule =>
    simp only [tmProcessTask, s.tm.task_of_inRange hrange, pure_bind] at h
    split at h
    · split at h <;> cases h <;> rfl
    · split at h
      · split at h <;> cases h <;> rfl
      · cases h
        rfl
  | missedHeartbeat | invalid | wait | error | other =>
    cases h
    rfl

/-- So does the round of a slot for an entry. -/
theorem tmSchedulerEntry_missed {index : ℕ} (hlt : index < tmMaxTasks)
    (h : tmSchedulerEntry P (Int32.ofNat index) s = .ok (events, s')) :
    s'.tm.status.tasksMissedHeartbeat =
      if (s.tm.tasks index).status = .missedHeartbeat then
        tmSetBit P s.tm.status.tasksMissedHeartbeat (Int32.ofNat index)
      else s.tm.status.tasksMissedHeartbeat := by
  rw [tmSchedulerEntry_of_lt P hlt] at h
  obtain ⟨⟨served, t⟩, hprocess, h⟩ := exists_ok_of_bind h
  cases h
  have hmissed := tmProcessTask_missed (inRange_ofNat hlt) hprocess
  exact hmissed

end Field

section Spec

/-- A task has missed a heartbeat in one of its first slots. -/
def TmTask.Missed (task : TmTask F) (slots : ℕ) : Prop :=
  match task.type with
  | .periodic => 0 < slots ∧ task.heartbeatPeriod.toNat ≤ slots ∧
    task.heartbeatPeriod < task.schedulePeriod
  | .event => 0 < slots ∧ task.heartbeatPeriod.toNat ≤ slots
  | .callback | .monitor | .invalid | .other _ => False

/-- Counts modulo `m` that start with one come to a number below `m` as soon as they can. -/
theorem exists_le_mod_iff {h m slots : ℕ} (hm : 0 < m) :
    (∃ n < slots, h ≤ (n + 1) % m) ↔ 0 < slots ∧ h ≤ slots ∧ h < m := by
  constructor
  · rintro ⟨n, hn, hle⟩
    have hmod := Nat.mod_le (n + 1) m
    have hlt := Nat.mod_lt (n + 1) hm
    omega
  · rintro ⟨hpos, hle, hlt⟩
    refine ⟨h - 1, by omega, ?_⟩
    by_cases hzero : h = 0
    · omega
    · rw [Nat.sub_add_cancel (by omega), Nat.mod_eq_of_lt hlt]

/-- The slots in which a heartbeat is missed. -/
theorem TmTask.missed_iff {task : TmTask F} (hregistered : task.Registered) (slots : ℕ) :
    .missedHeartbeat ∈ (List.range slots).map (fun n => task.statusIn (n + 1)) ↔
      task.Missed slots := by
  have hmem : .missedHeartbeat ∈ (List.range slots).map (fun n => task.statusIn (n + 1)) ↔
      ∃ n < slots, task.statusIn (n + 1) = .missedHeartbeat := by
    simp only [List.mem_map, List.mem_range]
  rw [hmem]
  cases htype : task.type with
  | periodic =>
    have hperiod := toNat_pos_of_ne_zero (hregistered.periodical (.inl htype))
    have hstatus : ∀ n, task.statusIn n = .missedHeartbeat ↔
        task.heartbeatPeriod.toNat ≤ n % task.schedulePeriod.toNat := by
      intro n
      simp only [statusIn, htype]
      split_ifs <;> simp [*]
    simp only [hstatus, exists_le_mod_iff hperiod, Missed, htype, UInt32.lt_iff_toNat_lt]
  | event =>
    have hstatus : ∀ n, task.statusIn n = .missedHeartbeat ↔
        task.heartbeatPeriod.toNat ≤ n % 2 ^ 32 := by
      intro n
      have hne : TmTaskstatus.missedHeartbeat ≠ .wait := by decide
      simp only [statusIn, htype, hne.ite_eq_left_iff]
    have hlt := task.heartbeatPeriod.toNat_lt
    simp only [hstatus, exists_le_mod_iff (Nat.two_pow_pos 32), Missed, htype]
    omega
  | callback =>
    simp only [statusIn, htype, Missed, iff_false, not_exists, not_and]
    intro n _
    split <;> simp
  | monitor | invalid | other => simp [statusIn, htype, Missed]

end Spec

section Bits

variable {C : TmCallbacks F V} {s₀ s s' : TmScheduling F V} {moments : List TmMoment}
  {moves more : List (TmMove F)} {moment : TmMoment} {slots : ℕ}

/-- The bit of a task is set when a heartbeat that it has missed is to be seen. -/
def TmScheduling.BitsTell (s : TmScheduling F V) (moves : List (TmMove F)) : Prop :=
  ∀ index < tmMaxTasks,
    (TmTaskBitField.IsSet s.system.tm.status.tasksMissedHeartbeat index ↔
      .missedHeartbeat ∈ statusesSeen index moves)

/-- The tasks that can miss heartbeats have bits of their own. -/
def TmScheduling.BitsSuffice (s : TmScheduling F V) : Prop :=
  ∀ index < tmMaxTasks,
    (s.system.tm.tasks index).type = .periodic ∨ (s.system.tm.tasks index).type = .event →
      index < tmTaskBits

/-- A step that leaves the bits alone and decides nothing. -/
theorem TmScheduling.BitsTell.of_same (h : s.BitsTell moves)
    (hbits : s'.system.tm.status.tasksMissedHeartbeat = s.system.tm.status.tasksMissedHeartbeat)
    (hmore : ∀ index, statusesSeen index more = []) : s'.BitsTell (moves ++ more) := by
  intro index hlt
  rw [hbits, statusesSeen_append, hmore, List.append_nil]
  exact h index hlt

/-- Only these tasks miss heartbeats. -/
theorem TmTask.type_of_missed {task : TmTask F} (h : task.status = .missedHeartbeat) :
    task.type = .periodic ∨ task.type = .event := by
  rw [status_eq] at h
  cases htype : task.type with
  | periodic => exact .inl rfl
  | event => exact .inr rfl
  | callback =>
    rw [htype] at h
    dsimp only at h
    split at h <;> cases h
  | monitor | invalid | other =>
    rw [htype] at h
    cases h

/-- The round of a slot for an entry. -/
theorem TmScheduling.BitsTell.of_served (h : s.BitsTell moves) {index : ℕ}
    (hlt : index < tmMaxTasks) (hsuffice : s.BitsSuffice) {events : List (TmEvent F)}
    {system : TmSystem F (TmSems V)} (phase : TmSchedulerPhase)
    (hentry : tmSchedulerEntry C.posix (Int32.ofNat index) s.system = .ok (events, system)) :
    BitsTell { s with system := system, phase := phase } (moves ++ events.map .entry) := by
  intro other hother
  change TmTaskBitField.IsSet system.tm.status.tasksMissedHeartbeat other ↔ _
  rw [tmSchedulerEntry_missed hlt hentry, statusesSeen_append, statusesSeen_events,
    (tmSchedulerEntry_served hlt hentry).statuses, List.mem_append, ← h other hother]
  by_cases hmissed : (s.system.tm.tasks index).status = .missedHeartbeat
  · have hbit := hsuffice index hlt (TmTask.type_of_missed hmissed)
    rw [if_pos hmissed, isSet_tmSetBit _ _ hbit, hmissed]
    split <;> simp [*]
  · rw [if_neg hmissed]
    split <;> simp [Ne.symm hmissed]

theorem TmScheduling.BitsTell.step (h : s.BitsTell moves) (hsuffice : s.BitsSuffice)
    (heffect : s.Effect C moment more s') : s'.BitsTell (moves ++ more) := by
  cases heffect with
  | tick | stop | checked | failed | begun | ended | finished =>
    exact h.of_same rfl statusesSeen_nil
  | taken ne take => exact h.of_same rfl fun index => statusesSeen_taken index _
  | served interrupted phase lt entry => exact h.of_served lt hsuffice _ entry
  | released interrupted phase lt release =>
    exact h.of_same (by rw [(tmReleaseTasks_released lt release).tm]) statusesSeen_nil

/-- In every run, the bit of a task in `tasks_missed_heartbeat` tells whether the slots that have
come to its entry are as many as its heartbeat period, for a periodic task only if this is shorter
than its period: no take of its semaphore makes a difference. -/
theorem tm_heartbeats_by_slots (C : TmCallbacks F V) (s : TmScheduling F V)
    (hphase : s.phase = .loopHead) (hregistered : s.Registered) (hsuffice : s.BitsSuffice)
    (hmissed : s.system.tm.status.tasksMissedHeartbeat = 0) (moments : List TmMoment)
    (moves : List (TmMove F)) (t : TmScheduling F V) (hrun : s.run C moments = some (moves, t)) :
    ∃ slots,
      slots + t.scheduleUnits ≤ s.scheduleUnits + ticks moments ∧
      (s.scheduleUnits + ticks moments ≤ semValueMax →
        slots + t.scheduleUnits = s.scheduleUnits + ticks moments) ∧
      ∀ index < tmMaxTasks,
        (TmTaskBitField.IsSet t.system.tm.status.tasksMissedHeartbeat index ↔
          (s.system.tm.tasks index).Missed (t.phase.rounds slots index)) := by
  obtain ⟨hticks, hfollows⟩ := hregistered.follows hphase
  have hbits : s.BitsTell [] := by
    intro index _
    rw [hmissed]
    exact iff_of_false (Flags.not_isSet_zero index) List.not_mem_nil
  have hkept := run_keeps
    (I := fun moments moves t => ∃ slots, t.TicksKept s (ticks moments) slots ∧
      t.Follows s slots moves ∧ t.BitsTell moves) ⟨0, hticks, hfollows, hbits⟩
    (fun moments moves t moment more u ⟨slots, hticks, hfollows, hbits⟩ heffect => by
      obtain ⟨slots', hticks', hfollows'⟩ := hticks.step hfollows hregistered heffect
      refine ⟨slots', hticks', hfollows', hbits.step (fun index hlt htype => ?_) heffect⟩
      rw [hfollows.tasks index hlt] at htype
      exact hsuffice index hlt htype) hrun
  obtain ⟨slots, hticks, hfollows, hbits⟩ := hkept
  refine ⟨slots, hticks.le, hticks.eq, fun index hlt => ?_⟩
  rw [hbits index hlt, hfollows.statuses index hlt, TmTask.missed_iff (hregistered index hlt)]

theorem everySlotTable_bitsSuffice : everySlotTable.BitsSuffice := by
  intro index _ htype
  change (Function.update (TmState.zero : TmState Unit).tasks 3 everySlotTask index).type = _ ∨
    (Function.update (TmState.zero : TmState Unit).tasks 3 everySlotTask index).type = _ at htype
  by_cases heq : index = 3
  · rw [heq]
    decide
  · rw [Function.update_of_ne heq] at htype
    rcases htype with h | h <;> cases h

/-- The bits after a slot has come to a task that takes its semaphore. -/
theorem tm_heartbeats_by_slots_every_slot : ∃ moves t slots,
    everySlotTable.run noCallbacks everySlotMoments = some (moves, t) ∧
      slots + t.scheduleUnits = 0 + 1 ∧ ∀ index < tmMaxTasks,
        (TmTaskBitField.IsSet t.system.tm.status.tasksMissedHeartbeat index ↔
          (everySlotTable.system.tm.tasks index).Missed (t.phase.rounds slots index)) := by
  obtain ⟨slots, -, hslots, hbits⟩ := tm_heartbeats_by_slots noCallbacks everySlotTable rfl
    everySlotTable_registered everySlotTable_bitsSuffice rfl everySlotMoments _ _ rfl
  exact ⟨_, _, slots, rfl, hslots (by decide), hbits⟩

end Bits

end Protoflight
