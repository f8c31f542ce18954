import Mathlib.Data.List.Nodup
import Mathlib.Tactic.Common
import Protoflight.Fsw.Tm

/-!
# The schedule of the tasks

What a slot of the schedule does to a task depends on the entry of this task
alone, and after a registration the number of slots since then determines it: the
count of ticks of a task with a period is this number modulo the period.
-/

namespace Protoflight

variable {F W : Type}

section Entry

/-- The status that `tm_update_task` returns for a task. -/
def TmTask.status (task : TmTask F) : TmTaskstatus := (tmUpdateTask (some task)).1

/-- The task after `tm_update_task`. -/
def TmTask.next (task : TmTask F) : TmTask F := (tmUpdateTask (some task)).2.getD task

/-- What is done for a task with a status, when its semaphore can be given. -/
def TmTask.served (index : ℕ) (status : TmTaskstatus) (task : TmTask F) : List (TmEvent F) :=
  match status, task.type, task.function with
  | .schedule, .periodic, _ => [.given index .okay]
  | .schedule, .callback, some function => [.called index function task.argument]
  | _, _, _ => []

/-- The events of a slot for a task. -/
def TmTask.events (index : ℕ) (task : TmTask F) : List (TmEvent F) :=
  .updated index task.status :: task.served index task.status

theorem TmTask.index_of_mem_events {index : ℕ} {task : TmTask F} {event : TmEvent F}
    (h : event ∈ task.events index) : event.index = index := by
  rcases List.mem_cons.mp h with rfl | h
  · rfl
  · unfold TmTask.served at h
    split at h
    · rw [List.mem_singleton.mp h]
      rfl
    · rw [List.mem_singleton.mp h]
      rfl
    · cases h

/-- The count of a task after a slot. Only a task with a period starts over. -/
def TmTask.nextTicks (task : TmTask F) : UInt32 :=
  match task.type with
  | .periodic | .callback => if task.ticks + 1 = task.schedulePeriod then 0 else task.ticks + 1
  | _ => task.ticks + 1

/-- A slot changes nothing but the count. -/
theorem TmTask.next_eq (task : TmTask F) : task.next = { task with ticks := task.nextTicks } := by
  obtain ⟨type, schedulePeriod, heartbeatPeriod, ticks, function, argument, stackSize, priority,
    name⟩ := task
  cases type <;> simp only [next, nextTicks, tmUpdateTask] <;> grind

theorem TmTask.type_next (task : TmTask F) : task.next.type = task.type := by
  rw [next_eq]

/-- The heartbeat is compared with the count after the slot. -/
theorem TmTask.status_eq (task : TmTask F) : task.status =
    match task.type with
    | .invalid => .error
    | .periodic =>
      if task.nextTicks ≥ task.heartbeatPeriod then .missedHeartbeat
      else if task.ticks + 1 = task.schedulePeriod then .schedule else .wait
    | .event => if task.nextTicks ≥ task.heartbeatPeriod then .missedHeartbeat else .wait
    | .callback => if task.ticks + 1 = task.schedulePeriod then .schedule else .wait
    | .monitor => .wait
    | .other _ => .invalid := by
  obtain ⟨type, schedulePeriod, heartbeatPeriod, ticks, function, argument, stackSize, priority,
    name⟩ := task
  cases type <;> simp only [status, nextTicks, tmUpdateTask] <;> grind

/-- The count of the task comes to its period, and this is of account: a heartbeat period of zero
has every slot of a periodic task miss a heartbeat. -/
def TmTask.AtPeriod (task : TmTask F) : Prop :=
  (task.type = .periodic ∧ task.heartbeatPeriod ≠ 0 ∨ task.type = .callback) ∧
    task.ticks + 1 = task.schedulePeriod

/-- Tasks are to be scheduled exactly then. -/
theorem TmTask.status_eq_schedule_iff (task : TmTask F) :
    task.status = .schedule ↔ task.AtPeriod := by
  have hzero : (0 : UInt32) ≥ task.heartbeatPeriod ↔ task.heartbeatPeriod = 0 := by
    rw [ge_iff_le, UInt32.le_iff_toNat_le, ← UInt32.toNat_inj]
    exact Nat.le_zero
  rw [status_eq, AtPeriod]
  cases htype : task.type with
  | periodic =>
    by_cases hcount : task.ticks + 1 = task.schedulePeriod
    · simp only [nextTicks, htype, hcount, if_true, hzero]
      by_cases hheartbeat : task.heartbeatPeriod = 0 <;> simp [hheartbeat]
    · simp only [hcount, if_false, and_false, iff_false]
      split <;> simp
  | callback =>
    by_cases hcount : task.ticks + 1 = task.schedulePeriod <;> simp [hcount]
  | event =>
    dsimp only
    split <;> simp
  | invalid | monitor | other => simp

end Entry

section Slot

variable (P : TmPlatform F W)

/-- Semaphores can always be given. -/
def TmPlatform.GivesSucceed : Prop := ∀ index os, (P.semGive index os).1 = .okay

/-- The index of a task as a task id. -/
theorem toInt_ofNat_of_lt {index : ℕ} (h : index < tmMaxTasks) :
    (Int32.ofNat index).toInt = index :=
  Int32.toInt_ofNat_of_lt (Nat.lt_trans h (by decide))

theorem toNat_toInt_ofNat {index : ℕ} (h : index < tmMaxTasks) :
    (Int32.ofNat index).toInt.toNat = index := by
  rw [toInt_ofNat_of_lt h]
  rfl

theorem inRange_ofNat {index : ℕ} (h : index < tmMaxTasks) :
    TmState.InRange (Int32.ofNat index) := by
  have hint := toInt_ofNat_of_lt h
  constructor <;> omega

/-- The round of the loop for a task updates its entry and serves it. -/
theorem tmSchedulerEntry_of_lt {index : ℕ} (h : index < tmMaxTasks) (s : TmSystem F W) :
    tmSchedulerEntry P (Int32.ofNat index) s = do
      let (events, s') ← tmProcessTask P (s.tm.tasks index).status (Int32.ofNat index)
        { s with tm.tasks := Function.update s.tm.tasks index (s.tm.tasks index).next }
      return (.updated index (s.tm.tasks index).status :: events, s') := by
  simp only [tmSchedulerEntry, osTaskStatus, s.tm.task_of_inRange (inRange_ofNat h),
    s.tm.setTask_of_inRange (inRange_ofNat h), toNat_toInt_ofNat h, pure_bind, if_true]
  rfl

variable {P}

/-- A task is served as its status says, and the table stays as it is. -/
theorem tmProcessTask_eq (hgive : P.GivesSucceed) (status : TmTaskstatus) {taskId : TmTaskId}
    (hrange : TmState.InRange taskId) (s : TmSystem F W) :
    ∃ s', tmProcessTask P status taskId s =
        .ok ((s.tm.tasks taskId.toInt.toNat).served taskId.toInt.toNat status, s') ∧
      s'.tm.tasks = s.tm.tasks := by
  cases status with
  | schedule =>
    have hokay := hgive taskId.toInt.toNat s.os
    simp only [tmProcessTask, s.tm.task_of_inRange hrange, pure_bind, TmTask.served]
    generalize s.tm.tasks taskId.toInt.toNat = task
    cases htype : task.type with
    | periodic =>
      simp only [if_true, hokay]
      exact ⟨_, rfl, rfl⟩
    | callback =>
      cases hfunction : task.function with
      | none => exact ⟨_, rfl, rfl⟩
      | some function => exact ⟨_, rfl, rfl⟩
    | invalid => exact ⟨_, rfl, rfl⟩
    | event => exact ⟨_, rfl, rfl⟩
    | monitor => exact ⟨_, rfl, rfl⟩
    | other value => exact ⟨_, rfl, rfl⟩
  | missedHeartbeat => exact ⟨_, rfl, rfl⟩
  | invalid => exact ⟨_, rfl, rfl⟩
  | wait => exact ⟨_, rfl, rfl⟩
  | error => exact ⟨_, rfl, rfl⟩
  | other value => exact ⟨_, rfl, rfl⟩

/-- The round of the loop for a task updates its entry and causes its events. -/
theorem tmSchedulerEntry_eq (hgive : P.GivesSucceed) {index : ℕ} (h : index < tmMaxTasks)
    (s : TmSystem F W) :
    ∃ s', tmSchedulerEntry P (Int32.ofNat index) s =
        .ok ((s.tm.tasks index).events index, s') ∧
      s'.tm.tasks = Function.update s.tm.tasks index (s.tm.tasks index).next := by
  set updated : TmSystem F W :=
    { s with tm.tasks := Function.update s.tm.tasks index (s.tm.tasks index).next } with hupdated
  obtain ⟨s', hprocess, htasks⟩ := tmProcessTask_eq hgive (s.tm.tasks index).status
    (inRange_ofNat h) updated
  refine ⟨s', ?_, htasks⟩
  have hserved : (updated.tm.tasks index).served index (s.tm.tasks index).status =
      (s.tm.tasks index).served index (s.tm.tasks index).status := by
    rw [hupdated, TmTask.next_eq]
    simp only [Function.update_self]
    rfl
  rw [toNat_toInt_ofNat h, hserved] at hprocess
  rw [tmSchedulerEntry_of_lt P h, hprocess]
  rfl

/-- The round of the loop for a task updates its entry and causes events about this task, for which
a condition holds. -/
def TmPlatform.RoundsCause (P : TmPlatform F W)
    (E : ℕ → TmTask F → List (TmEvent F) → Prop) : Prop :=
  ∀ index < tmMaxTasks, ∀ s : TmSystem F W, ∃ events s',
    tmSchedulerEntry P (Int32.ofNat index) s = .ok (events, s') ∧
      s'.tm.tasks = Function.update s.tm.tasks index (s.tm.tasks index).next ∧
      (∀ event ∈ events, event.index = index) ∧ E index (s.tm.tasks index) events

variable {E : ℕ → TmTask F → List (TmEvent F) → Prop}

/-- The loop over a part of the table without repetitions updates each entry of this part once, and
causes the events of its rounds. -/
theorem TmPlatform.RoundsCause.entries (hcause : P.RoundsCause E) {indices : List ℕ}
    (hrange : ∀ index ∈ indices, index < tmMaxTasks) (hnodup : indices.Nodup) (s : TmSystem F W) :
    ∃ (events : ℕ → List (TmEvent F)) (s' : TmSystem F W),
      tmSchedulerEntries P indices s = .ok (indices.flatMap events, s') ∧
      (∀ index ∈ indices, (∀ event ∈ events index, event.index = index) ∧
        E index (s.tm.tasks index) (events index)) ∧
      ∀ index, s'.tm.tasks index =
        if index ∈ indices then (s.tm.tasks index).next else s.tm.tasks index := by
  induction indices generalizing s with
  | nil => exact ⟨fun _ => [], s, rfl, by simp, fun index => by simp⟩
  | cons head indices ih =>
    obtain ⟨hhead, hnodup⟩ := List.nodup_cons.mp hnodup
    obtain ⟨first, s₁, hentry, htasks, hfirst⟩ := hcause head (hrange head List.mem_cons_self) s
    obtain ⟨events, s', hentries, hevents, htasks'⟩ :=
      ih (fun index hmem => hrange index (List.mem_cons_of_mem head hmem)) hnodup s₁
    -- the rest of the table does not contain the entry just updated
    have hne : ∀ index ∈ indices, index ≠ head := fun index hmem heq => hhead (heq ▸ hmem)
    have hrest : ∀ index ∈ indices, s₁.tm.tasks index = s.tm.tasks index := fun index hmem => by
      rw [htasks, Function.update_of_ne (hne index hmem)]
    refine ⟨Function.update events head first, s', ?_, fun index hmem => ?_, fun index => ?_⟩
    · have htail : indices.flatMap (Function.update events head first) = indices.flatMap events :=
        List.flatMap_congr fun index hmem => Function.update_of_ne (hne index hmem) ..
      rw [tmSchedulerEntries, hentry, List.flatMap_cons, Function.update_self, htail]
      change tmSchedulerEntries P indices s₁ >>= _ = _
      rw [hentries]
      rfl
    · rcases List.mem_cons.mp hmem with rfl | hmem
      · rw [Function.update_self]
        exact hfirst
      · rw [Function.update_of_ne (hne index hmem), ← hrest index hmem]
        exact hevents index hmem
    · rw [htasks']
      by_cases hmem : index ∈ indices
      · rw [if_pos hmem, if_pos (List.mem_cons_of_mem head hmem), hrest index hmem]
      · by_cases heq : index = head
        · subst heq
          rw [if_neg hmem, if_pos List.mem_cons_self, htasks, Function.update_self]
        · rw [if_neg hmem, if_neg (by simp [heq, hmem]), htasks, Function.update_of_ne heq]

/-- The events about a task. -/
def eventsAbout (index : ℕ) (events : List (TmEvent F)) : List (TmEvent F) :=
  events.filter fun event => event.index = index

/-- Among the events of all tasks, those about one are its own. -/
theorem eventsAbout_flatMap {indices : List ℕ} (hnodup : indices.Nodup)
    {events : ℕ → List (TmEvent F)}
    (hevents : ∀ index ∈ indices, ∀ event ∈ events index, event.index = index) (index : ℕ) :
    eventsAbout index (indices.flatMap events) = if index ∈ indices then events index else [] := by
  induction indices with
  | nil => rfl
  | cons head indices ih =>
    obtain ⟨hhead, hnodup⟩ := List.nodup_cons.mp hnodup
    obtain ⟨hindex, hevents⟩ := List.forall_mem_cons.mp hevents
    have ih := ih hnodup hevents
    unfold eventsAbout at ih ⊢
    rw [List.flatMap_cons, List.filter_append, ih]
    by_cases heq : head = index
    · subst heq
      rw [if_neg hhead, if_pos List.mem_cons_self, List.append_nil, List.filter_eq_self]
      intro event hmem
      simp [hindex event hmem]
    · have hnil : (events head).filter (fun event => event.index = index) = [] := by
        rw [List.filter_eq_nil_iff]
        intro event hmem
        simp [hindex event hmem, heq]
      have hne : index ≠ head := fun h => heq h.symm
      simp [hnil, hne]

/-- A slot updates every entry of the table, and causes for a task what the round for it causes. -/
theorem TmPlatform.RoundsCause.slot (hcause : P.RoundsCause E) {index : ℕ} (h : index < tmMaxTasks)
    (s : TmSystem F W) :
    ∃ events s', tmSchedulerSlot P s = .ok (events, s') ∧
      E index (s.tm.tasks index) (eventsAbout index events) ∧
      s'.tm.tasks index = (s.tm.tasks index).next := by
  have hmem := List.mem_range.mpr h
  have hnodup := List.nodup_range (n := tmMaxTasks)
  obtain ⟨events, s', hslot, hevents, htasks⟩ :=
    hcause.entries (fun index => List.mem_range.mp) hnodup s
  refine ⟨_, s', hslot, ?_, by rw [htasks, if_pos hmem]⟩
  rw [eventsAbout_flatMap hnodup (fun index hmem => (hevents index hmem).1), if_pos hmem]
  exact (hevents index hmem).2

/-- When semaphores can be given, what a slot does to a task depends on its entry alone. -/
theorem tmSchedulerSlot_eq (hgive : P.GivesSucceed) {index : ℕ} (h : index < tmMaxTasks)
    (s : TmSystem F W) :
    ∃ events s', tmSchedulerSlot P s = .ok (events, s') ∧
      eventsAbout index events = (s.tm.tasks index).events index ∧
      s'.tm.tasks index = (s.tm.tasks index).next := by
  have hcause : P.RoundsCause fun index task events => events = task.events index := by
    intro index h s
    obtain ⟨s', hentry, htasks⟩ := tmSchedulerEntry_eq hgive h s
    exact ⟨_, s', hentry, htasks, fun event => TmTask.index_of_mem_events, rfl⟩
  exact hcause.slot h s

/-- The release at the end gives the semaphore of every periodic task once. -/
theorem tmReleaseTasks_eq (hgive : P.GivesSucceed) {indices : List ℕ}
    (hrange : ∀ index ∈ indices, index < tmMaxTasks) (s : TmSystem F W) :
    ∃ os, tmReleaseTasks P indices s =
      .ok ((indices.filter fun index => (s.tm.tasks index).type = .periodic).map
        fun index => .given index .okay, { s with os := os }) := by
  induction indices generalizing s with
  | nil => exact ⟨s.os, rfl⟩
  | cons head indices ih =>
    have hhead := hrange head List.mem_cons_self
    have hrest : ∀ index ∈ indices, index < tmMaxTasks := fun index hmem =>
      hrange index (List.mem_cons_of_mem head hmem)
    rw [tmReleaseTasks, s.tm.task_of_inRange (inRange_ofNat hhead), toNat_toInt_ofNat hhead,
      List.filter_cons]
    by_cases htype : (s.tm.tasks head).type = .periodic
    · obtain ⟨os, hrelease⟩ := ih hrest { s with os := (P.semGive head s.os).2 }
      refine ⟨os, ?_⟩
      simp only [pure_bind, if_pos htype, hrelease, decide_eq_true htype, if_true, List.map_cons,
        hgive head s.os]
      rfl
    · obtain ⟨os, hrelease⟩ := ih hrest s
      refine ⟨os, ?_⟩
      simp only [pure_bind, if_neg htype, hrelease, decide_eq_false htype, Bool.false_eq_true,
        if_false]

end Slot

end Protoflight
