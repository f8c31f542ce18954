import Protoflight.Fsw.TmExpected

/-!
# The status that a task is updated to

What `tm_update_task` returns for any argument, and what `tm_process_task` does with this for any
task. For NULL a code of `TM_RESULT_ENUM` is returned as a status, and its number is that of a task
to be scheduled.
-/

namespace Protoflight

variable {F W : Type}

section Codes

/-- The number of a status. -/
def TmTaskstatus.code : TmTaskstatus → ℕ
  | .invalid => 0
  | .wait => 1
  | .schedule => 2
  | .missedHeartbeat => 3
  | .error => 4
  | .other value => value

/-- The status with a number has this number. -/
theorem TmTaskstatus.code_ofCode (value : ℕ) : (ofCode value).code = value := by
  unfold ofCode
  split <;> rfl

/-- The error exit returns the number of a result. -/
theorem code_tmUpdateTask_null :
    (tmUpdateTask (none : Option (TmTask F))).1.code = TmResult.nullPointer.code :=
  TmTaskstatus.code_ofCode TmResult.nullPointer.code

/-- No exit returns a number outside the enumeration. -/
theorem tmUpdateTask_ne_other (task : Option (TmTask F)) (value : ℕ) :
    (tmUpdateTask task).1 ≠ .other value := by
  cases task with
  | none => exact nofun
  | some task =>
    change task.status ≠ .other value
    rw [TmTask.status_eq]
    cases task.type <;> dsimp only <;> (try split_ifs) <;> exact nofun

/-- A status has the number of `TM_TASKSTATUS_SCHEDULE` exactly for NULL and for a task whose count
comes to its period. -/
theorem code_tmUpdateTask_iff (task : Option (TmTask F)) :
    (tmUpdateTask task).1.code = TmTaskstatus.schedule.code ↔
      task = none ∨ ∃ t ∈ task, t.AtPeriod := by
  have hcode : (tmUpdateTask task).1.code = TmTaskstatus.schedule.code ↔
      (tmUpdateTask task).1 = .schedule := by
    have hother := tmUpdateTask_ne_other task
    constructor
    · intro h
      cases hstatus : (tmUpdateTask task).1 with
      | schedule => rfl
      | other value => exact absurd hstatus (hother value)
      | invalid | wait | missedHeartbeat | error =>
        rw [hstatus] at h
        cases h
    · exact congrArg TmTaskstatus.code
  rw [hcode]
  cases task with
  | none => exact iff_of_true rfl (.inl rfl)
  | some task =>
    have htask := task.status_eq_schedule_iff
    rw [TmTask.status] at htask
    simpa using htask

end Codes

section Sound

variable (P : TmPlatform F W)

/-- Any other status gives no semaphore and calls no function, whatever the id. -/
theorem tmProcessTask_of_ne_schedule {status : TmTaskstatus} (hstatus : status ≠ .schedule)
    (taskId : TmTaskId) (s : TmSystem F W) :
    ∃ tmStatus, tmProcessTask P status taskId s = .ok ([], { s with tm.status := tmStatus }) := by
  cases status with
  | schedule => exact absurd rfl hstatus
  | missedHeartbeat => exact ⟨_, rfl⟩
  | invalid | wait | error | other => exact ⟨s.tm.status, rfl⟩

/-- What is promised of the status of an argument: only a task whose count comes to its period gets
that of a task to be scheduled; and for anything else no semaphore is given and no function called,
which would tell in the events and in the world. -/
structure UpdatesSoundly (task : Option (TmTask F)) : Prop where
  scheduled : (tmUpdateTask task).1.code = TmTaskstatus.schedule.code → ∃ t ∈ task, t.AtPeriod
  otherwise : (¬∃ t ∈ task, t.AtPeriod) → ∀ (taskId : TmTaskId) (s : TmSystem F W),
    ∃ s', tmProcessTask P (tmUpdateTask task).1 taskId s = .ok ([], s') ∧ s'.os = s.os

/-- The promise is kept for every task there is, and for no NULL. -/
theorem tm_updates_soundly_iff (task : Option (TmTask F)) :
    UpdatesSoundly P task ↔ task ≠ none := by
  constructor
  · rintro ⟨hscheduled, -⟩ rfl
    obtain ⟨t, hmem, -⟩ := hscheduled code_tmUpdateTask_null
    cases hmem
  · intro hne
    have hcode := code_tmUpdateTask_iff task
    rw [or_iff_right hne] at hcode
    refine ⟨hcode.mp, fun hnot taskId s => ?_⟩
    have hstatus : (tmUpdateTask task).1 ≠ .schedule := fun h =>
      hnot (hcode.mp (congrArg TmTaskstatus.code h))
    obtain ⟨tmStatus, hprocess⟩ := tmProcessTask_of_ne_schedule P hstatus taskId s
    exact ⟨_, hprocess, rfl⟩

/-- It is not kept for NULL. -/
theorem tm_updates_soundly_not :
    ¬∀ task : Option (TmTask Unit), UpdatesSoundly givingPlatform task := by
  intro h
  obtain ⟨t, hmem, -⟩ := (h none).scheduled code_tmUpdateTask_null
  cases hmem

/-- With the status for NULL, `tm_process_task` gives the semaphore of any periodic task. -/
theorem tmProcessTask_null_gives {taskId : TmTaskId} (hrange : TmState.InRange taskId)
    {s : TmSystem F W} (htype : (s.tm.tasks taskId.toInt.toNat).type = .periodic) :
    ∃ result s', tmProcessTask P (tmUpdateTask (none : Option (TmTask F))).1 taskId s =
      .ok ([.given taskId.toInt.toNat result], s') :=
  tmProcessTask_periodic P hrange htype

end Sound

end Protoflight
